import FuseX.Ssh.KnownHosts

/-!
# The SSH control protocol

`ssh.c`, from the moment `ssh_socket_connect` has returned 0. The guest sends bytes and
receives lines until the shell is open. What libssh2 and the files answer during a call
(no longer `LIBSSH2_ERROR_EAGAIN`) is the call's `Results`. The cases of
`ssh_advance_control` are functions; each goes on with the case of the state it sets.

Beside the socket there is a log of what has happened in order, and the bytes that
have been taken from the guest.
-/

namespace FuseX.Ssh

/-! ## State -/

/-- `ssh_control_state_t`. -/
inductive ControlState : Type
  | new | emitKeygen | emitIdentity | checkHost | emitTrust | waitTrust | authStart | emitUser
  | waitUser | authMethods | emitPassword | waitPassword | authPassword | openShell
  | emitConnected | raw | error
  deriving DecidableEq

/-- A line for the guest. -/
inductive Message : Type
  | keyGeneration
  | identity (line : Bytes)
  | trust (fingerprint : Bytes)
  | user
  | password
  | connected
  | error (reason : Bytes)
  deriving DecidableEq

/-- The line; `out` has room for 699 bytes. -/
def Message.line : Message → Bytes
  | .keyGeneration => text "KEY-GENERATION\r\n"
  | .identity line => (text "IDENTITY " ++ line ++ text "\r\n").take 699
  | .trust fingerprint => (text "TRUST? " ++ fingerprint ++ text "\r\n").take 699
  | .user => text "USER?\r\n"
  | .password => text "PASSWORD?\r\n"
  | .connected => text "CONNECTED\r\n"
  | .error reason => (text "ERROR " ++ reason ++ text "\r\n").take 699

/-- What happens. -/
inductive Event : Type
  /-- the server's host key, and what is stored for the host then -/
  | presented (fingerprint : Bytes) (stored : Option Bytes)
  /-- a line is taken from the guest -/
  | answer (line : Bytes)
  /-- a line is given to the guest -/
  | told (message : Message)
  /-- requests to the server -/
  | userauthList (username : Bytes)
  | userauthPublickey (username : Bytes)
  | userauthPassword (username password : Bytes)
  /-- the server has accepted the user -/
  | authenticated
  deriving DecidableEq

/-- What libssh2 and the files answer. -/
structure Results : Type where
  /-- `ssh_host_fingerprint` -/
  fingerprint : Option (Word 95)
  /-- `libssh2_userauth_list` -/
  methods : Option Bytes
  /-- `libssh2_userauth_authenticated` -/
  authenticated : Bool
  /-- `ssh_auth_publickey` succeeds -/
  publickey : Bool
  /-- `libssh2_userauth_password_ex` succeeds -/
  password : Bool
  /-- the error of `ssh_open_shell` -/
  shell : Option Bytes
  /-- `ssh_store_known_host` succeeds -/
  stored : Bool
  /-- the channel in raw mode -/
  channel : Int

/-- `ssh_socket_t`, with the file of known hosts. -/
structure Socket : Type where
  rawMode : Bool
  connected : Bool
  host : Bytes
  port : Nat
  username : Bytes
  password : Bytes
  lastError : Bytes
  identityPublicLine : Bytes
  state : ControlState
  hostKnown : Bool
  errorEmitted : Bool
  fingerprint : Bytes
  /-- the first `line_len` bytes of `line` -/
  line : Bytes
  lineReady : Bool
  promptPending : Bool
  knownHosts : Bytes
  log : List Event
  /-- the bytes taken from the guest -/
  fed : Bytes

/-- The socket when `ssh_socket_connect` returns 0. -/
def Socket.initial (host : Bytes) (port : Nat) (username identity : Bytes) (generated : Bool)
    (knownHosts : Bytes) : Socket where
  rawMode := false
  connected := false
  host := host
  port := port
  username := username
  password := []
  lastError := text "failure"
  identityPublicLine := identity
  state := if generated then .emitKeygen else .emitIdentity
  hostKnown := false
  errorEmitted := false
  fingerprint := []
  line := []
  lineReady := false
  promptPending := false
  knownHosts := knownHosts
  log := []
  fed := []

def Socket.note (event : Event) (s : Socket) : Socket :=
  { s with log := s.log ++ [event] }

/-- `ssh_set_error` and the state it is followed by. -/
def Socket.fail (reason : Bytes) (s : Socket) : Socket :=
  { s with lastError := reason, state := .error }

/-! ## Advancing -/

/-- `ssh_line_is_accept`. -/
def lineIsAccept (line fingerprint : Bytes) : Bool :=
  cString line = fingerprint ∨
    (cString line).map toLower ∈ [text "y", text "yes", text "accept", text "trust"]

/-- `ssh_auth_method_allowed`. -/
def authMethodAllowed (methods : Option Bytes) (method : Bytes) : Bool :=
  match methods with
  | none => false
  | some methods => method ∈ methods.splitOn (ascii ',')

/-- `SSH_STATE_OPEN_SHELL`: whether it fails, and the socket. -/
def openShell (results : Results) (s : Socket) : Bool × Socket :=
  match results.shell with
  | some reason => (false, s.fail reason)
  | none => (true, { s with identityPublicLine := [], connected := true, state := .emitConnected })

/-- `SSH_STATE_AUTH_PASSWORD`. -/
def authPassword (results : Results) (s : Socket) : Bool × Socket :=
  let s := { s.note (.userauthPassword s.username s.password) with password := [] }
  if results.password then openShell results (s.note .authenticated)
  else (false, s.fail (text "auth_failed"))

/-- `SSH_STATE_AUTH_METHODS`, when no user is accepted yet. -/
def authByPassword (results : Results) (s : Socket) : Bool × Socket :=
  if ¬ authMethodAllowed results.methods (text "password") then
    (false, s.fail (text "auth_method_unavailable"))
  else if s.password = [] then (true, { s with state := .emitPassword })
  else authPassword results s

/-- `SSH_STATE_AUTH_METHODS`. -/
def authMethods (results : Results) (s : Socket) : Bool × Socket :=
  let s := s.note (.userauthList s.username)
  if results.authenticated then openShell results (s.note .authenticated)
  else if authMethodAllowed results.methods (text "publickey") then
    let s := s.note (.userauthPublickey s.username)
    if results.publickey then openShell results (s.note .authenticated)
    else authByPassword results s
  else authByPassword results s

/-- `SSH_STATE_AUTH_START`. -/
def authStart (results : Results) (s : Socket) : Bool × Socket :=
  if s.username = [] then (true, { s with state := .emitUser })
  else authMethods results s

variable (sha256 : Bytes → Bytes)

/-- The key of the socket's host. -/
def Socket.key (s : Socket) : Bytes :=
  (nvsKey sha256 s.host s.port).text

/-- `SSH_STATE_CHECK_HOST`. -/
def checkHost (results : Results) (s : Socket) : Bool × Socket :=
  match results.fingerprint with
  | none => (false, s.fail (text "hostkey_unavailable"))
  | some fingerprint =>
      let stored := lookup (s.key sha256) s.knownHosts
      let s := { s.note (.presented fingerprint.text stored) with
        fingerprint := fingerprint.text
        hostKnown := stored.isSome }
      if stored = some fingerprint.text then authStart results s
      else (true, { s with state := .emitTrust })

/-- `ssh_advance_control`: whether it does not return -1, and the socket. -/
def advanceControl (results : Results) (s : Socket) : Bool × Socket :=
  match s.state with
  | .error | .raw => (true, s)
  | .checkHost => checkHost sha256 results s
  | .authStart => authStart results s
  | .authMethods => authMethods results s
  | .authPassword => authPassword results s
  | .openShell => openShell results s
  | .emitKeygen | .emitIdentity | .emitTrust | .emitUser | .emitPassword | .emitConnected
  | .waitTrust | .waitUser | .waitPassword => (true, s)
  | .new => (false, s.fail (text "invalid_state"))

/-! ## Sending -/

/-- `sizeof(ssh->line) - 1`. -/
def lineMax : Nat := 127

/-- The loop of `ssh_socket_feed_control`: how many bytes it takes, and the socket. -/
def feedLoop : Bytes → Socket → Nat × Socket
  | [], s => (0, s)
  | c :: buf, s =>
      if c = ascii '\r' ∨ c = ascii '\n' then
        (if c = ascii '\r' ∧ buf.head? = some (ascii '\n') then 2 else 1,
          { s with lineReady := true, promptPending := false })
      else
        let s := if s.line.length < lineMax then { s with line := s.line ++ [c] } else s
        ((feedLoop buf s).1 + 1, (feedLoop buf s).2)

/-- `ssh_socket_feed_control`. -/
def feedControl (buf : Bytes) (s : Socket) : Nat × Socket :=
  if s.promptPending then
    let fed := feedLoop buf s
    (fed.1, { fed.2 with fed := s.fed ++ buf.take fed.1 })
  else (0, s)

/-- What is taken of the line, which is a string: `strncpy` has room for 63 bytes of a user
name and for 95 of a password. -/
def Socket.taken (s : Socket) : Bytes :=
  match s.state with
  | .waitUser => (cString s.line).take 63
  | .waitPassword => (cString s.line).take 95
  | _ => cString s.line

/-- What `ssh_socket_send` does with a line, by the state. -/
def takeLine (results : Results) (s : Socket) : Socket :=
  match s.state with
  | .waitTrust =>
      if lineIsAccept s.line s.fingerprint then
        if results.stored then
          { s with
            knownHosts := store (s.key sha256) s.fingerprint s.knownHosts
            state := .authStart }
        else s.fail (text "trust_store_failed")
      else s.fail (if s.hostKnown then text "hostkey_changed" else text "hostkey_rejected")
  | .waitUser => { s with username := s.taken, state := .authMethods }
  | .waitPassword => { s with password := s.taken, state := .authPassword }
  | _ => s

/-- `ssh_socket_send` before the raw mode. -/
def sendControl (buf : Bytes) (results : Results) (s : Socket) : Nat × Socket :=
  let fed := feedControl buf s
  if fed.1 = 0 ∨ fed.2.lineReady = false then fed
  else
    let s := takeLine sha256 results (fed.2.note (.answer fed.2.taken))
    (fed.1, (advanceControl sha256 results { s with lineReady := false, line := [] }).2)

/-- `ssh_socket_send`. -/
def socketSend (buf : Bytes) (results : Results) (s : Socket) : Int × Socket :=
  if buf = [] then (-1, s)
  else if s.rawMode then (results.channel, s)
  else ((sendControl sha256 buf results s).1, (sendControl sha256 buf results s).2)

/-! ## Receiving -/

/-- `ssh_emit_line`, into a buffer of `len` bytes. -/
def emitLine (len : Nat) (message : Message) (s : Socket) : Int × Socket :=
  if len < message.line.length then (-1, s.fail (text "rx_buffer_too_small"))
  else (message.line.length, s.note (.told message))

/-- `ssh_socket_close`. -/
def socketClose (s : Socket) : Socket :=
  { s with lineReady := true, promptPending := false, connected := false, rawMode := false }

/-- The second half of `ssh_socket_recv` before the raw mode. -/
def emitState (len : Nat) (s : Socket) : Int × Socket :=
  match s.state with
  | .emitKeygen => emitLine len .keyGeneration { s with state := .emitIdentity }
  | .emitIdentity => emitLine len (.identity s.identityPublicLine) { s with state := .checkHost }
  | .emitTrust =>
      emitLine len (.trust s.fingerprint) { s with promptPending := true, state := .waitTrust }
  | .emitUser => emitLine len .user { s with promptPending := true, state := .waitUser }
  | .emitPassword => emitLine len .password { s with promptPending := true, state := .waitPassword }
  | .emitConnected => emitLine len .connected { s with rawMode := true, state := .raw }
  | .error =>
      if s.errorEmitted then (0, s)
      else emitLine len (.error s.lastError) (socketClose { s with errorEmitted := true })
  | _ => (-2, s)

/-- `ssh_socket_recv` before the raw mode. -/
def recvControl (len : Nat) (results : Results) (s : Socket) : Int × Socket :=
  let advanced := advanceControl sha256 results s
  if advanced.1 then emitState len advanced.2
  else emitLine len (.error advanced.2.lastError) { advanced.2 with state := .error }

/-- `ssh_socket_recv`. -/
def socketRecv (len : Nat) (results : Results) (s : Socket) : Int × Socket :=
  if len = 0 then (-1, s)
  else if s.rawMode then (results.channel, s)
  else recvControl sha256 len results s

/-! ## Steps -/

/-- The calls of the guest's side. -/
inductive Act : Type
  | send (buf : Bytes) (results : Results)
  | recv (len : Nat) (results : Results)

def stepSocket (s : Socket) : Act → Option Socket
  | .send buf results => some (socketSend sha256 buf results s).2
  | .recv len results => some (socketRecv sha256 len results s).2

end FuseX.Ssh
