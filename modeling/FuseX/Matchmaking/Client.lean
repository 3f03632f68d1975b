import Mathlib.Algebra.Ring.Nat
import Mathlib.Data.Rat.Floor

/-!
# The matchmaking client

A program joins a service, waits in its lobby, picks a peer, and is connected to it through
a socket that the client has claimed. The client asks a server over HTTPS; what it asks is
left out here, and what it is answered is arbitrary (`Reply`).

`post` is a request to the server, `command` what the program's commands do, `resolve` the
name lookup by which a program chooses its service.
-/

namespace FuseX.Matchmaking

/-- A C string. -/
abbrev Text := List Char

/-- `copy` into a buffer of `size` bytes. -/
def copy (size : Nat) (text : Text) : Text := text.take (size - 1)

/-- What stands behind a text that is copied over another one, up to the zeros at the end. -/
def leftover (text old rest : Text) : Text :=
  let nul := Char.ofNat 0
  ((((old ++ nul :: rest).drop (text.length + 1)).reverse.dropWhile (· = nul))).reverse

/-! ## The state -/

inductive Stage
  | preparing
  | waiting
  | connecting
  | connected
  | cancelled
  | error
  deriving DecidableEq

/-- `match_peer`. A row without a device is empty. What earlier texts have left behind the ends
of the texts is compared with them. -/
structure Peer where
  device : Text := []
  deviceRest : Text := []
  name : Text := []
  nameRest : Text := []
  requiresCode : Bool := false
  deriving DecidableEq

/-- The device and the name are copied into a `match_peer`. -/
def Peer.identify (id name : Text) (old : Peer) : Peer :=
  { old with
    device := copy 65 id
    deviceRest := leftover (copy 65 id) old.device old.deviceRest
    name := copy 24 name
    nameRest := leftover (copy 24 name) old.name old.nameRest }

def matchMaxPeers : Nat := 9

/-- `struct match_context`, and what `match_compat` holds: the socket that is claimed, the
connection for which a transport has been started on it, and the device that the server was last
asked to connect to. -/
structure Client where
  service : Text := []
  name : Text := []
  code : Text := []
  connection : Text := []
  error : Text := []
  peers : List Peer := List.replicate matchMaxPeers {}
  selected : Peer := {}
  initiator : Text := []
  due : Nat := 0
  advertised : Nat := 0
  socket : UInt8 := 0
  revision : UInt16 := 0
  active : Bool := false
  pending : Bool := false
  stage : Stage := .preparing
  count : Nat := 0
  completionPending : Bool := false
  savedName : Text := []
  claimed : Option UInt8 := none
  started : Option Text := none
  asked : Option Text := none

/-! ## Answers of the server -/

structure ListedPeer where
  device : Option Text
  name : Text := []
  requiresCode : Bool := false

/-- The JSON object of an answer. -/
structure Response where
  error : Option Text := none
  connection : Option Text := none
  destination : Bool := false
  peerDevice : Option Text := none
  peerName : Text := []
  /-- The numbers that `sscanf` finds in `peer.address.ip`. -/
  peerIp : Option (List Nat) := none
  peerPort : Rat := 0
  initiator : Option Text := none
  peers : Option (List ListedPeer) := none

/-- What becomes of a `post`. -/
structure Reply where
  stun : Bool := true
  memory : Bool := true
  /-- The HTTP status, and the body where it is an object. -/
  posted : Option (Nat × Option Response)
  retried : Option (Nat × Option Response) := none
  /-- `match_compat_error` where `match_compat_start` fails. -/
  startFailure : Option Text := none
  now : Nat := 0

inductive Action
  | connectTo
  | poll
  | connected
  | cancel
  | leave
  deriving DecidableEq

/-- The program sees these in place of the server's own words. -/
def apiMessage (error : Option Text) : Text :=
  match error with
  | none => "API error".toList
  | some error =>
      if error = "wrong_code".toList then "Wrong code".toList
      else if error = "peer_busy".toList then "Peer is busy".toList
      else if error = "peer_gone".toList then "Peer left".toList
      else if error = "peer_cancelled".toList then "Peer cancelled".toList
      else if error = "address_changed".toList then "Network address changed".toList
      else if error = "connection_expired".toList then "Connection expired".toList
      else if error = "instance_expired".toList then "Registration expired".toList
      else error

def isHex (c : Char) : Bool :=
  ('0' ≤ c ∧ c ≤ '9') ∨ ('a' ≤ c ∧ c ≤ 'f') ∨ ('A' ≤ c ∧ c ≤ 'F')

/-- `valid_connection`: a UUID. -/
def validConnection (id : Text) : Bool :=
  id.length = 36 ∧ id.zipIdx.all fun (c, i) =>
    if i = 8 ∨ i = 13 ∨ i = 18 ∨ i = 23 then c = '-' else isHex c

/-- What `match_post` finds in an answer. -/
inductive Answer
  /-- The error's text, where there is one. -/
  | failed (message : Option String)
  | refused (error : Option Text)
  | reserved (connection device peerName initiator : Text)
  | lobby (peers : List ListedPeer)
  | ok

/-- What the server has answered, after another try where one is made. -/
def Reply.received (action : Option Action) (reply : Reply) : Option (Nat × Option Response) :=
  match reply.posted with
  | some answer => some answer
  | none => if action.isSome ∧ action ≠ some Action.connected then reply.retried else none

/-- A connection that is new to the client. -/
def Response.reserve (device connection : Text) (response : Response) : Answer :=
  match response.peerDevice, response.peerIp with
  | some id, some ip =>
      if ip.length ≠ 4 ∨ (∃ part ∈ ip, 255 < part) ∨
          response.peerPort < 1 ∨ 65535 < response.peerPort then
        .failed "Invalid peer address"
      else if ∃ initiator ∈ response.initiator, initiator ≠ id ∧ initiator ≠ device then
        .failed "Invalid match initiator"
      else .reserved connection id response.peerName (response.initiator.getD [])
  | _, _ => .failed "Invalid peer address"

/-- An answer with status 200 and without an error. -/
def Client.understand (device : Text) (action : Option Action) (response : Response)
    (s : Client) : Answer :=
  if response.connection = none ∧
      (action = some Action.connectTo ∨ action = some Action.poll) then
    .failed "Invalid connection response"
  else if response.destination then .failed "Hosted servers unsupported"
  else
    match response.connection with
    | some connection =>
        if validConnection connection = false ∨
            (s.connection ≠ [] ∧ connection ≠ s.connection) then
          .failed "Invalid connection response"
        else if s.connection = [] then response.reserve device connection
        else .ok
    | none =>
        if action = none then
          match response.peers with
          | none => .failed "Invalid peer list"
          | some peers => .lobby peers
        else .ok

/-- `match_post`, up to what it does about the answer. -/
def Client.answer (device : Text) (action : Option Action) (reply : Reply) (s : Client) : Answer :=
  if action ≠ some Action.leave ∧ action ≠ some Action.cancel ∧ reply.stun = false then
    .failed "STUN failed"
  else if reply.memory = false then .failed none
  else
    match reply.received action with
    | none => .failed "API unavailable"
    | some (_, none) => .failed "Invalid API response"
    | some (status, some response) =>
        if status ≠ 200 ∨ response.error.isSome then .refused response.error
        else s.understand device action response

/-! ## The lobby -/

def Peer.fill (id : Text) (listed : ListedPeer) (old : Peer) : Peer :=
  { old.identify id listed.name with requiresCode := listed.requiresCode }

/-- Peers that are there already keep their rows. -/
def keepRows (rows : List Peer) (listed : List ListedPeer) : List Peer :=
  listed.foldl (fun peers p =>
    match p.device with
    | none => peers
    | some id =>
        match rows.findIdx? (·.device = id) with
        | none => peers
        | some slot => peers.modify slot (.fill id p)) (List.replicate matchMaxPeers {})

/-- The others take empty rows. -/
def fillRows (peers : List Peer) (listed : List ListedPeer) : List Peer :=
  listed.foldl (fun peers p =>
    match p.device with
    | none => peers
    | some id =>
        if peers.any (·.device = id) then peers
        else
          match peers.findIdx? (·.device = []) with
          | none => peers
          | some slot => peers.modify slot (.fill id p)) peers

/-- The highest row that is taken, plus one. -/
def countRows (peers : List Peer) : Nat :=
  (peers.zipIdx.filter fun (peer, _) => peer.device ≠ []).foldl (fun _ (_, j) => j + 1) 0

def Client.showLobby (listed : List ListedPeer) (now : Nat) (s : Client) : Client :=
  let peers := fillRows (keepRows s.peers listed) listed
  { s with
    revision := if peers ≠ s.peers then s.revision + 1 else s.revision
    peers := peers
    count := countRows peers
    stage := .waiting
    advertised := now }

/-! ## A request -/

/-- `match_post`, and whether it went well. -/
def Client.post (device : Text) (action : Option Action) (reply : Reply) (s : Client) :
    Client × Bool :=
  match s.answer device action reply with
  | .failed none => (s, false)
  | .failed (some message) => ({ s with error := copy 32 message.toList }, false)
  | .refused error => ({ s with error := copy 32 (apiMessage error) }, false)
  | .reserved connection id peerName initiator =>
      let s :=
        { s with
          error := []
          initiator := copy 65 initiator
          connection := copy 37 connection
          selected := s.selected.identify id peerName }
      match reply.startFailure with
      | some reason =>
          let reason := if reason = [] then "Transport failed".toList else reason
          ({ s with error := copy 32 reason }, false)
      | none => ({ s with stage := .connecting, started := some s.connection }, true)
  | .lobby listed => ({ s with error := [] }.showLobby listed reply.now, true)
  | .ok => ({ s with error := [] }, true)

/-- `release` -/
def Client.release (s : Client) : Client :=
  { s with
    claimed := none
    started := none
    active := false
    pending := false
    completionPending := false
    stage := .cancelled
    initiator := []
    selected := {} }

/-! ## Commands -/

inductive Command
  | match
  | getPeer
  | connect
  | setName
  | code
  deriving DecidableEq

/-- `match_request`, with the text up to its end. -/
structure Request where
  socket : UInt8
  action : UInt8 := 0
  index : UInt8 := 0
  revision : UInt16 := 0
  text : Text := []

/-- What a command finds outside of the client. -/
structure World where
  /-- `match_compat_claim` goes well. -/
  claim : Bool := true
  /-- `match_compat_valid` -/
  valid : Bool := true
  saved : Bool := true
  random : Nat := 0
  /-- `match_compat_ready` -/
  ready : Int := 0
  failure : Text := []
  cancel : Reply
  connect : Reply
  lobby : Reply
  connectTime : Nat := 0
  time : Nat := 0
  lobbyTime : Nat := 0
  snapshotTime : Nat := 0

/-- `trim_name` -/
def trimName (name : Text) : Text :=
  ((name.dropWhile (· = ' ')).reverse.dropWhile (· = ' ')).reverse

def Client.setName (r : Request) (world : World) (s : Client) : Client :=
  let name := trimName (r.text.take 23)
  let valid := name.all fun c => 32 ≤ c.toNat ∧ c.toNat ≤ 126
  if valid = false ∨ (name ≠ s.savedName ∧ world.saved = false) then
    { s with error := "Name save failed".toList }
  else { s with savedName := name, name := name, error := [], due := 0 }

/-- A match begins on the socket. -/
def Client.begin (socket : UInt8) (s : Client) : Client :=
  { s with
    claimed := some socket
    socket := socket
    active := true
    pending := false
    stage := .preparing
    advertised := 0
    connection := []
    code := []
    error := []
    count := 0
    initiator := []
    selected := {}
    peers := List.replicate matchMaxPeers {}
    revision := s.revision + 1
    name := trimName s.savedName
    due := 0 }

def Client.setCode (r : Request) (world : World) (s : Client) : Client :=
  { s with
    code :=
      if r.action = 0 then []
      else if s.code = [] then Nat.toDigits 10 (1000 + world.random % 9000)
      else s.code
    due := 0 }

def Client.connectTo (device : Text) (r : Request) (world : World) (s : Client) : Client :=
  let row := s.peers.getD r.index.toNat {}
  if r.revision ≠ s.revision ∨ row.device = [] then
    { s with error := "Peer list changed".toList }
  else
    { (s.post device (some .connectTo) world.connect).1 with
      due := world.connectTime + 1000
      asked := some row.device }

def Client.checkReady (device : Text) (world : World) (s : Client) : Client :=
  if 0 < world.ready then { s with stage := .connected, completionPending := true }
  else if world.ready < 0 then
    { (s.post device (some .cancel) world.cancel).1.release with
      stage := .error
      error := copy 32 (copy 32 world.failure) }
  else s

/-- The request to the lobby, or for news of the connection. -/
def Client.askLobby (device : Text) (world : World) (s : Client) : Client :=
  let action := if s.connection ≠ [] then some Action.poll else none
  let (s, ok) := s.post device action world.lobby
  let s := if ok then s else { s.release with stage := .error }
  { s with due := world.lobbyTime + 1000 }

/-- The match goes on. -/
def Client.proceed (device : Text) (c : Command) (r : Request) (world : World) (s : Client) :
    Client :=
  if world.valid = false then s.release
  else if c = .match ∧ r.socket ≠ s.socket then { s with error := "Match already active".toList }
  else
    let s :=
      if c = .code ∧ (s.stage = .waiting ∨ s.stage = .preparing) then s.setCode r world else s
    let s :=
      if c = .connect ∧ (s.stage = .waiting ∨ s.stage = .preparing) then
        s.connectTo device r world
      else s
    let s := if c = .match ∧ s.stage = .connecting then s.checkReady device world else s
    if c ≠ .getPeer ∧ s.active = true ∧ s.stage ≠ .connected ∧ s.stage ≠ .connecting ∧
        s.due ≤ world.time then
      s.askLobby device world
    else s

/-- A place in the lobby runs out. -/
def Client.expire (now : Nat) (s : Client) : Client :=
  if s.stage = .waiting ∧ s.advertised ≠ 0 ∧ s.advertised + 40000 ≤ now then
    { s with stage := .preparing }
  else s

/-- `match_command`, up to the label `snapshot`. -/
def Client.perform (device : Text) (c : Command) (r : Request) (world : World) (s : Client) :
    Client :=
  if c = .setName then s.setName r world
  else if c = .match ∧ r.action ≠ 0 then
    let s :=
      if s.active then
        let action := if r.action = 1 ∧ s.connection ≠ [] then Action.cancel else .leave
        (s.post device (some action) world.cancel).1
      else s
    s.release
  else if s.active then s.proceed device c r world
  else if c ≠ .match ∨ s.pending = false ∨ s.service = [] ∨ world.claim = false then
    { s with stage := .error, error := "Socket unavailable".toList }
  else (s.begin r.socket).proceed device c r world

/-- `match_snapshot` -/
structure Snapshot where
  stage : Stage
  count : Nat := 0
  revision : UInt16 := 0
  name : Text := []
  code : Text := []
  service : Text := []
  error : Text
  peer : Peer := {}

/-- `effective_name` -/
def effectiveName (device name : Text) : Text :=
  if name ≠ [] then name
  else
    device.take 4 ++ ['-'] ++ (device.drop 4).take 4 ++ ['-'] ++ (device.drop 8).take 4 ++
      ['-'] ++ (device.drop 12).take 4

def Client.snapshot (device : Text) (c : Command) (r : Request) (s : Client) : Snapshot :=
  let found := r.revision = s.revision ∧ r.index.toNat < matchMaxPeers
  { stage := s.stage
    count := s.count
    revision := s.revision
    name := effectiveName device s.name
    code := s.code
    service := s.service
    error := if c = .getPeer ∧ ¬found then "Peer list changed".toList else s.error
    peer := if c = .getPeer ∧ found then s.peers.getD r.index.toNat {} else s.selected }

/-- `match_command` -/
def Client.command (device : Text) (c : Command) (r : Request) (world : World) (s : Client) :
    Client × Snapshot :=
  if c ≠ .setName ∧ s.active = true ∧ r.socket ≠ s.socket then
    (s, { stage := .error, error := "Match already active".toList })
  else
    let s := (s.perform device c r world).expire world.snapshotTime
    (s, s.snapshot device c r)

/-! ## Besides commands -/

/-- `match_complete` -/
def Client.complete (device : Text) (valid : Bool) (reply : Reply) (s : Client) : Client :=
  if s.completionPending then
    let s := { s with completionPending := false }
    if s.active = true ∧ s.stage = .connected ∧ valid = true then
      (s.post device (some .connected) reply).1
    else s
  else s

/-- `match_reset` -/
def Client.reset (s : Client) : Client := { savedName := s.savedName }

def suffix : Text := '@' :: "match.spx".toList

/-- Where `suffix` begins. -/
def findSuffix (host : Text) : Option Nat :=
  (List.range (host.length + 1)).find? fun i => suffix.isPrefixOf (host.drop i)

def serviceChar (c : Char) : Bool :=
  ('a' ≤ c ∧ c ≤ 'z') ∨ ('0' ≤ c ∧ c ≤ '9') ∨ c = '.' ∨ c = '_' ∨ c = '-'

inductive Resolved
  | notMatch
  | refused
  | marker
  deriving DecidableEq

/-- `match_resolve` -/
def Client.resolve (host : Text) (valid : Bool) (s : Client) : Client × Resolved :=
  match findSuffix host with
  | none => (s, .notMatch)
  | some length =>
      let service := host.take length
      if host.length ≠ length + suffix.length ∨ length = 0 ∨ 32 < length then (s, .refused)
      else if service.all serviceChar = false then (s, .refused)
      else
        let s :=
          if s.active = true ∧ valid = false then
            { s with claimed := none, started := none, active := false }
          else s
        if s.active then (s, if s.service = service then .marker else .refused)
        else ({ s with service := service, pending := true }, .marker)

end FuseX.Matchmaking
