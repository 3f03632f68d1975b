import FuseX.Lib.Ring
import Mathlib.Logic.Function.Basic

/-!
# A socket of the W5100

The registers and buffers of one socket of `w5100_socket.c`, the accesses of the
Z80 and the turns of the I/O thread (`w5100_io_thread`).

* every register access and every turn of the I/O thread holds the lock of the
  socket, so each is one step; a read changes nothing and is no step;
* what the host answers (`bind`, `connect`, `send`, `recv`, …) comes with the step;
* `trace` records what the steps do at the boundary: the commands of the driver,
  the bytes given to the host and the bytes it delivered.

The socket is not handed over to the matchmaker: `match_udp` and `match_paused`
are zero.
-/

namespace FuseX.W5100

open Lib

/-! ## Registers -/

/-- `w5100_socket_mode`, of the modes that `w5100_write_socket_mr` lets through. -/
inductive SocketMode : Type
  | closed
  | tcp
  | udp
  deriving DecidableEq, Repr

/-- `w5100_socket_state`. -/
inductive SocketState : Type
  | closed
  | init
  | listen
  | established
  | closeWait
  | udp
  deriving DecidableEq, Repr

/-- `W5100_SOCKET_PROTOCOL_*`. -/
def protocolTcp : UInt8 := 0x00
def protocolTls : UInt8 := 0xF0
def protocolSsh : UInt8 := 0xF1
def protocolGreTcp : UInt8 := 0xF2

/-- The bits of `Sn_IR`. -/
def irCon : UInt8 := 0x01
def irDiscon : UInt8 := 0x02
def irRecv : UInt8 := 0x04
def irTimeout : UInt8 := 0x08
def irSendOk : UInt8 := 0x10

/-- The size of the transmit and of the receive buffer of a socket. -/
def bufferSize : Nat := 0x800

/-- `datagram_lengths` has this many places. -/
def maxDatagrams : Nat := 0x20

abbrev Buffer : Type := Nat → UInt8

/-- A place of the transmit buffer and the byte in it. -/
abbrev Slot : Type := Nat × UInt8

abbrev IpAddress : Type := Fin 4 → UInt8
abbrev Port : Type := Fin 2 → UInt8

/-- A port is sent high byte first. -/
def portHigh : Fin 2 := ⟨0, Nat.zero_lt_two⟩
def portLow : Fin 2 := ⟨1, Nat.one_lt_two⟩

/-- The consecutive bytes at `&tx_buffer[ offset ]`, with their places. -/
def readSlots (buffer : Buffer) (offset count : Nat) : List Slot :=
  (List.range count).map fun i => (offset + i, buffer (offset + i))

/-- What a step shows at the boundary of the socket. -/
inductive Event : Type
  /-- `w5100_socket_clean`: the registers start anew. -/
  | cleaned
  /-- SEND was written to `Sn_CR`. -/
  | sendCommand (state : SocketState) (txWr : UInt16) (txBuffer : Buffer) (dip : IpAddress)
      (dport : Port)
  /-- RECV was written to `Sn_CR`. -/
  | recvCommand (rxRd : UInt16) (rxBuffer : Buffer)
  | txBufferWritten (place : Nat)
  /-- The connection took these bytes. -/
  | handed (slots : List Slot)
  /-- SEND_OK was raised in `Sn_IR`. -/
  | sendOk
  /-- `sendto` took this datagram. -/
  | emitted (slots : List Slot) (dip : IpAddress) (dport : Port)
  /-- `sendto` did not take the oldest datagram. -/
  | refused
  /-- A datagram ran over the end of the buffer it was copied to. -/
  | overran
  /-- The connection delivered these bytes. -/
  | received (bytes : List UInt8)
  /-- `recvfrom` met this datagram. -/
  | datagram (ip : IpAddress) (port : Port) (payload : List UInt8)
  /-- The socket entered CLOSE_WAIT. -/
  | closeWait (peerClosed : Bool)

/-- `tls_socket_t`. CONNECT keeps one only when its handshake is complete. -/
structure TlsSocket : Type where
  hasPendingData : Bool := false
  deriving DecidableEq, Repr

/-- `nic_w5100_socket_t`. -/
structure Socket : Type where
  mode : SocketMode := .closed
  state : SocketState := .closed
  ir : UInt8 := 0
  port : Port := fun _ => 0
  dip : IpAddress := fun _ => 0
  dport : Port := fun _ => 0
  mss : Fin 2 → UInt8 := fun _ => 0
  protocol : UInt8 := protocolTcp
  txRr : UInt16 := 0
  txWr : UInt16 := 0
  rxRsr : UInt16 := 0
  rxRd : UInt16 := 0
  oldRxRd : UInt16 := 0
  txBuffer : Buffer := fun _ => 0
  rxBuffer : Buffer := fun _ => 0
  /-- `fd != compat_socket_invalid` -/
  fdValid : Bool := false
  tlsSocket : Option TlsSocket := none
  /-- `ssh_socket != NULL` -/
  sshSocket : Bool := false
  backendProtocol : UInt8 := protocolTcp
  bindCount : Nat := 0
  socketBound : Bool := false
  writePending : Bool := false
  lastSend : Int := 0
  /-- The first `datagram_count` entries of `datagram_lengths`. -/
  datagramLengths : List Int := []
  okForIo : Bool := false
  trace : List Event := []

def Socket.note (s : Socket) (event : Event) : Socket :=
  { s with trace := s.trace ++ [event] }

/-- `w5100_socket_init_common` -/
def socketInitCommon (s : Socket) : Socket :=
  { s with
    fdValid := false
    protocol := protocolTcp
    backendProtocol := protocolTcp
    tlsSocket := none
    sshSocket := false
    bindCount := 0
    socketBound := false
    okForIo := false
    writePending := false }

/-- `w5100_socket_clean` -/
def socketClean (s : Socket) : Socket :=
  let s := { s with
    ir := 0
    port := fun _ => 0
    dip := fun _ => 0
    dport := fun _ => 0
    txRr := 0
    txWr := 0
    rxRsr := 0
    oldRxRd := 0
    rxRd := 0
    lastSend := 0
    datagramLengths := []
    tlsSocket := none
    sshSocket := false
    trace := s.trace ++ [.cleaned] }
  if s.fdValid then socketInitCommon s else s

/-- `nic_w5100_socket_reset` -/
def socketReset (s : Socket) : Socket :=
  let s := socketClean { s with mode := .closed, state := .closed }
  { s with mss := fun _ => 0, protocol := protocolTcp, backendProtocol := protocolTcp }

/-! ## Commands -/

/-- What the host answers to the calls of a register write. -/
structure HostResults : Type where
  socketOk : Bool := true
  bindOk : Bool := true
  listenOk : Bool := true
  /-- CONNECT: the wrapper could be allocated, and the connection and its
  handshake came about. -/
  connectOk : Bool := true

/-- `w5100_socket_open` -/
def socketOpen (s : Socket) (host : HostResults) : Socket :=
  if (s.mode = .udp ∨ s.mode = .tcp) ∧ s.state = .closed then
    let selector := s.protocol
    let tcp := s.mode = .tcp
    let s := { socketClean s with
      protocol := selector
      backendProtocol :=
        if tcp ∧ (selector = protocolTls ∨ selector = protocolSsh ∨ selector = protocolGreTcp)
        then selector else protocolTcp
      fdValid := host.socketOk }
    if host.socketOk then { s with state := if tcp then .init else .udp } else s
  else s

/-- `w5100_socket_bind_port` -/
def socketBindPort (s : Socket) (host : HostResults) : Socket :=
  if host.bindOk then { s with socketBound := true }
  else { s with ir := s.ir ||| irTimeout, state := .closed }

/-- The `bind` of a command, unless the socket is bound; the command goes on if
the flag is set. -/
def bindIfNeeded (s : Socket) (host : HostResults) : Socket × Bool :=
  if s.socketBound then (s, true) else (socketBindPort s host, host.bindOk)

theorem bindIfNeeded_cases (s : Socket) (host : HostResults) :
    bindIfNeeded s host = ({ s with socketBound := true }, true) ∨
      bindIfNeeded s host = ({ s with ir := s.ir ||| irTimeout, state := .closed }, false) := by
  unfold bindIfNeeded socketBindPort
  cases bound : s.socketBound
  · cases host.bindOk
    · exact .inr rfl
    · exact .inl rfl
  · refine .inl ?_
    rw [if_pos rfl, ← bound]

/-- `w5100_socket_listen` -/
def socketListen (s : Socket) (host : HostResults) : Socket :=
  if s.state = .init then
    match bindIfNeeded s host with
    | (s, false) => s
    | (s, true) => if host.listenOk then { s with state := .listen } else s
  else s

/-- The backend that CONNECT chooses: the one that OPEN latched, or the one that
goes with the port. -/
def connectBackend (s : Socket) : UInt8 :=
  let port := (s.dport portHigh).toNat * 256 + (s.dport portLow).toNat
  if s.backendProtocol = protocolTcp then
    if port = 443 then protocolTls
    else if port = 22 then protocolSsh
    else s.backendProtocol
  else s.backendProtocol

/-- `w5100_socket_connect` -/
def socketConnect (s : Socket) (host : HostResults) : Socket :=
  if s.backendProtocol = protocolGreTcp then { s with ir := s.ir ||| irTimeout }
  else if s.state = .init then
    match bindIfNeeded s host with
    | (s, false) => s
    | (s, true) =>
      if host.connectOk then
        { s with
          tlsSocket := if s.mode = .tcp ∧ connectBackend s = protocolTls then some {} else s.tlsSocket
          sshSocket := s.sshSocket || (s.mode = .tcp ∧ connectBackend s = protocolSsh)
          ir := s.ir ||| irCon
          state := .established }
      else { s with ir := s.ir ||| irTimeout, state := .closed }
  else s

/-- `w5100_socket_discon` -/
def socketDiscon (s : Socket) : Socket :=
  if s.state = .established ∨ s.state = .closeWait then
    { s with
      tlsSocket := none
      sshSocket := false
      fdValid := false
      socketBound := false
      okForIo := false
      writePending := false
      ir := s.ir ||| irDiscon
      state := .closed }
  else s

/-- `w5100_socket_close` -/
def socketClose (s : Socket) : Socket :=
  { s with
    tlsSocket := none
    sshSocket := false
    fdValid := false
    socketBound := false
    okForIo := false
    writePending := false
    protocol := protocolTcp
    backendProtocol := protocolTcp
    state := .closed }

/-- The SEND of a UDP socket, which queues a datagram. -/
def sendDatagram (s : Socket) (host : HostResults) : Socket :=
  match bindIfNeeded s host with
  | (s, false) => s
  | (s, true) =>
    if maxDatagrams ≤ s.datagramLengths.length then
      { s with ir := s.ir ||| irSendOk }.note .sendOk
    else
      { s with
        datagramLengths := s.datagramLengths ++ [(s.txWr.toNat : Int) - s.lastSend]
        lastSend := s.txWr.toNat
        writePending := true }

/-- `w5100_socket_send` -/
def socketSend (s : Socket) (host : HostResults) : Socket :=
  let s := s.note (.sendCommand s.state s.txWr s.txBuffer s.dip s.dport)
  match s.state with
  | .udp => sendDatagram s host
  | .established => { s with writePending := true }
  | _ => s

/-- `w5100_socket_recv` -/
def socketRecv (s : Socket) : Socket :=
  let s := s.note (.recvCommand s.rxRd s.rxBuffer)
  if s.state = .udp ∨ s.state = .established then
    let rxRsr := s.rxRsr - (s.rxRd - s.oldRxRd)
    { s with
      rxRsr := rxRsr
      oldRxRd := s.rxRd
      ir := if rxRsr ≠ 0 then s.ir ||| irRecv else s.ir }
  else s

inductive Command : Type
  | open
  | listen
  | connect
  | discon
  | close
  | send
  | recv
  deriving DecidableEq, Repr

/-- `enum w5100_socket_command` -/
def Command.ofByte (b : UInt8) : Option Command :=
  if b = 0x01 then some .open
  else if b = 0x02 then some .listen
  else if b = 0x04 then some .connect
  else if b = 0x08 then some .discon
  else if b = 0x10 then some .close
  else if b = 0x20 then some .send
  else if b = 0x40 then some .recv
  else none

/-- `w5100_write_socket_cr` -/
def writeSocketCr (s : Socket) (b : UInt8) (host : HostResults) : Socket :=
  match Command.ofByte b with
  | some .open => socketOpen s host
  | some .listen => socketListen s host
  | some .connect => socketConnect s host
  | some .discon => socketDiscon s
  | some .close => socketClose s
  | some .send => socketSend s host
  | some .recv => socketRecv s
  | none => s

/-! ## Register and buffer writes -/

/-- The mode that `w5100_write_socket_mr` stores. -/
def SocketMode.ofByte (b : UInt8) : SocketMode :=
  if b &&& 0x0F = 0x01 then .tcp
  else if b &&& 0x0F = 0x02 then .udp
  else .closed

/-- `w5100_write_socket_port` -/
def writeSocketPort (s : Socket) (which : Fin 2) (b : UInt8) (host : HostResults) : Socket :=
  let s := { s with port := Function.update s.port which b, bindCount := s.bindCount + 1 }
  if s.bindCount = 2 then
    if s.state = .udp ∧ s.socketBound = false then { socketBindPort s host with bindCount := 0 }
    else { s with bindCount := 0 }
  else s

/-- The registers of a socket that can be written; `unsupported` is any other offset. -/
inductive Register : Type
  | mr
  | cr
  | ir
  | port (which : Fin 2)
  | dipr (which : Fin 4)
  | dport (which : Fin 2)
  | mssr (which : Fin 2)
  | proto
  | txWr0
  | txWr1
  | rxRd0
  | rxRd1
  | unsupported
  deriving DecidableEq, Repr

/-- A 16-bit register with its high byte replaced. -/
def withHigh (word : UInt16) (b : UInt8) : UInt16 :=
  (word &&& (0xFF : UInt16)) ||| (b.toUInt16 <<< 8)

/-- A 16-bit register with its low byte replaced. -/
def withLow (word : UInt16) (b : UInt8) : UInt16 :=
  (word &&& (0xFF00 : UInt16)) ||| b.toUInt16

/-- `nic_w5100_socket_write` -/
def socketWrite (s : Socket) (reg : Register) (b : UInt8) (host : HostResults) : Socket :=
  match reg with
  | .port which => writeSocketPort s which b host
  | .mr => { s with mode := .ofByte b, bindCount := 0 }
  | .cr => { writeSocketCr s b host with bindCount := 0 }
  | .ir => { s with ir := s.ir &&& ~~~b, bindCount := 0 }
  | .dipr which => { s with dip := Function.update s.dip which b, bindCount := 0 }
  | .dport which => { s with dport := Function.update s.dport which b, bindCount := 0 }
  | .mssr which => { s with mss := Function.update s.mss which b, bindCount := 0 }
  | .proto => { s with protocol := b, bindCount := 0 }
  | .txWr0 => { s with txWr := withHigh s.txWr b, bindCount := 0 }
  | .txWr1 => { s with txWr := withLow s.txWr b, bindCount := 0 }
  | .rxRd0 => { s with rxRd := withHigh s.rxRd b, bindCount := 0 }
  | .rxRd1 => { s with rxRd := withLow s.rxRd b, bindCount := 0 }
  | .unsupported => { s with bindCount := 0 }

/-- `nic_w5100_socket_write_tx_buffer` -/
def socketWriteTxBuffer (s : Socket) (address : UInt16) (b : UInt8) : Socket :=
  let offset := address.toNat % bufferSize
  { s with
    txBuffer := Function.update s.txBuffer offset b
    trace := s.trace ++ [.txBufferWritten offset] }

/-! ## Reading from the host -/

/-- What a read of the host socket meets. -/
inductive Received : Type
  /-- Bytes of the stream; `more` are left in the TLS session. -/
  | bytes (first : UInt8) (rest : List UInt8) (more : Bool)
  | datagram (ip : IpAddress) (port : Port) (payload : List UInt8)
  | peerClosed
  /-- There is nothing yet (`MBEDTLS_ERR_SSL_WANT_READ`, `LIBSSH2_ERROR_EAGAIN`). -/
  | notReady
  /-- The SSH session has nothing more to say: its dialogue failed, or a read of
  its channel came back empty. -/
  | sshEnded
  | failed

def Received.isPeerClosed : Received → Bool
  | .peerClosed => true
  | _ => false

/-- The return value of a read of at most `len` bytes, and the bytes. -/
abbrev ReadResult : Type := Int × List UInt8

def Received.taken (len : Nat) (first : UInt8) (rest : List UInt8) : ReadResult :=
  (((first :: rest).take len).length, (first :: rest).take len)

/-- `recv` -/
def recv (len : Nat) : Received → ReadResult
  | .bytes first rest _ => Received.taken len first rest
  | .peerClosed => (0, [])
  | _ => (-1, [])

/-- `tls_read` -/
def tlsRead (len : Nat) : Received → ReadResult
  | .bytes first rest _ => Received.taken len first rest
  | .notReady => (0, [])
  | .peerClosed => (0, [])
  | _ => (-1, [])

/-- `ssh_socket_recv` -/
def sshSocketRecv (len : Nat) (received : Received) : ReadResult :=
  if len = 0 then (-1, [])
  else match received with
    | .bytes first rest _ => Received.taken len first rest
    | .peerClosed => (0, [])
    | .sshEnded => (0, [])
    | .notReady => (-2, [])
    | _ => (-1, [])

/-- The stream read of `w5100_socket_process_read`. -/
def streamRead (s : Socket) (len : Nat) (received : Received) : ReadResult :=
  if s.sshSocket then sshSocketRecv len received
  else if s.tlsSocket.isSome then tlsRead len received
  else recv len received

/-- What `tls_read` leaves in `has_pending_data`. -/
def tlsPendingAfter (s : Socket) (received : Received) : Option TlsSocket :=
  if s.sshSocket then s.tlsSocket
  else s.tlsSocket.map fun _ =>
    match received with
    | .bytes _ _ more => ⟨more⟩
    | _ => ⟨false⟩

/-- The W5100's header of a datagram. -/
def udpHeader (ip : IpAddress) (port : Port) (length : Nat) : List UInt8 :=
  [ip 0, ip 1, ip 2, ip 3, port portHigh, port portLow, UInt8.ofNat (length / 256), UInt8.ofNat length]

/-- The bytes are stored behind the ones that are in the receive buffer. -/
def storeReceived (s : Socket) (bytes : List UInt8) : Socket :=
  let offset := (s.oldRxRd.toNat + s.rxRsr.toNat) % bufferSize
  { s with
    rxRsr := s.rxRsr + UInt16.ofNat bytes.length
    ir := s.ir ||| irRecv
    rxBuffer := ringWrite bufferSize s.rxBuffer offset bytes }

/-- `w5100_socket_process_read`. The bytes free are never negative: RX_RSR is at
most the size of the buffer as long as the driver releases what it was given. -/
def processRead (s : Socket) (received : Received) : Socket :=
  let bytesFree := bufferSize - s.rxRsr.toNat
  if s.state = .udp then
    match received with
    | .datagram ip port payload =>
      let data := payload.take (bytesFree - 8)
      (storeReceived s (udpHeader ip port data.length ++ data)).note (.datagram ip port payload)
    | _ => s
  else
    let result := streamRead s bytesFree received
    let s := { s with tlsSocket := tlsPendingAfter s received }
    if 0 < result.1 then (storeReceived s result.2).note (.received result.2)
    else if result.1 = 0 then
      { s with state := .closeWait, ir := s.ir ||| irDiscon }.note
        (.closeWait received.isPeerClosed)
    else s

/-- `w5100_socket_process_accept` -/
def processAccept (s : Socket) (acceptOk : Bool) : Socket :=
  if acceptOk then { s with state := .established, ir := s.ir ||| irCon } else s

/-! ## Writing to the host -/

/-- The end of a write that leaves nothing to send. -/
def sendComplete (s : Socket) : Socket :=
  { s with writePending := false, ir := s.ir ||| irSendOk }.note .sendOk

/-- `sendto` took the oldest datagram. -/
def datagramSent (s : Socket) (data : List Slot) (rest : List Int) : Socket :=
  { s with datagramLengths := rest, txRr := s.txRr + UInt16.ofNat data.length }.note
    (.emitted data s.dip s.dport)

/-- The bytes that `w5100_socket_process_udp_write` passes to `sendto`, coalesced
in a buffer where they wrap round the ring. -/
def datagramData (s : Socket) (length : Nat) : List Slot :=
  let offset := s.txRr.toNat % bufferSize
  if bufferSize < offset + length then
    readSlots s.txBuffer offset (bufferSize - offset) ++
      readSlots s.txBuffer 0 (length - (bufferSize - offset))
  else readSlots s.txBuffer offset length

/-- `w5100_socket_process_udp_write`. `sent` is the result of `sendto`, or `none`
for −1. The queue is empty only when no write is pending. -/
def processUdpWrite (s : Socket) (sent : Option Nat) : Socket :=
  match s.datagramLengths with
  | [] => s
  | first :: rest =>
    let length := (UInt16.ofInt first).toNat
    if bufferSize < length then s.note .overran
    else if sent = some length then
      let s := datagramSent s (datagramData s length) rest
      if rest = [] then sendComplete s else s
    else s.note .refused

/-- The number of bytes that `w5100_socket_process_tcp_write` offers at once. -/
def tcpWriteLength (s : Socket) : Nat :=
  let offset := s.txRr.toNat % bufferSize
  let length := (s.txWr - s.txRr).toNat
  if bufferSize < offset + length then bufferSize - offset else length

/-- The connection took the next `count` bytes. -/
def bytesHanded (s : Socket) (count : Nat) : Socket :=
  { s with txRr := s.txRr + UInt16.ofNat count }.note
    (.handed (readSlots s.txBuffer (s.txRr.toNat % bufferSize) count))

/-- `w5100_socket_process_tcp_write`. The backend takes at most `sent` bytes, or
fails with −1. -/
def processTcpWrite (s : Socket) (sent : Option Nat) : Socket :=
  match sent with
  | none => s
  | some n =>
    let bytesSent := min n (tcpWriteLength s)
    if 0 < bytesSent then
      let s := bytesHanded s bytesSent
      if s.txRr = s.txWr then sendComplete s else s
    else s

/-! ## The I/O thread -/

/-- Whether the socket is in the sets of the `select`. -/
structure FdSets : Type where
  read : Bool
  write : Bool

/-- `nic_w5100_socket_add_to_sets` -/
def addToSets (s : Socket) : Socket × FdSets :=
  if s.fdValid then
    let udpRead := s.state = .udp ∧ s.rxRsr.toNat + 9 ≤ bufferSize
    let tcpRead := s.state = .established ∧ s.rxRsr.toNat + 1 ≤ bufferSize
    let tcpListen := s.state = .listen
    ({ s with okForIo := true }, ⟨udpRead ∨ tcpRead ∨ tcpListen, s.writePending⟩)
  else (s, ⟨false, false⟩)

/-- What `select` reports of the socket, and what the calls of one turn meet. -/
structure IoResults : Type where
  readReady : Bool := false
  writeReady : Bool := false
  /-- `ssh_socket_has_pending_control`, and what the read then meets -/
  control : Option Received := none
  received : Received := .failed
  acceptOk : Bool := false
  sent : Option Nat := none
  /-- What the read of the buffered TLS data meets. -/
  pending : Received := .failed

/-- The read of a pending line of the SSH dialogue. -/
def readControl (s : Socket) (io : IoResults) : Socket :=
  match io.control with
  | some received =>
    if s.sshSocket ∧ s.state = .established ∧ s.rxRsr.toNat + 1 ≤ bufferSize then
      processRead s received
    else s
  | none => s

def readIfReady (s : Socket) (io : IoResults) : Socket :=
  if io.readReady then
    if s.state = .listen then processAccept s io.acceptOk else processRead s io.received
  else s

def writeIfReady (s : Socket) (io : IoResults) : Socket :=
  if io.writeReady then
    match s.state with
    | .udp => processUdpWrite s io.sent
    | .established => processTcpWrite s io.sent
    | _ => s
  else s

/-- The read of what the TLS session has buffered. -/
def readPending (s : Socket) (io : IoResults) : Socket :=
  if s.tlsSocket = some ⟨true⟩ ∧ s.state = .established ∧ s.rxRsr.toNat + 1 ≤ bufferSize then
    processRead s io.pending
  else s

/-- `nic_w5100_socket_process_io` -/
def processIo (s : Socket) (io : IoResults) : Socket :=
  if s.fdValid ∧ s.okForIo then
    readPending (writeIfReady (readIfReady (readControl s io) io) io) io
  else s

/-! ## Steps -/

/-- The socket, and the sets of the `select` that the I/O thread is in. -/
structure System : Type where
  socket : Socket
  select : Option FdSets := none

/-- The socket after `nic_w5100_alloc`, whatever its buffers hold. -/
def System.start (txBuffer rxBuffer : Buffer) : System :=
  { socket := { txBuffer := txBuffer, rxBuffer := rxBuffer } }

inductive Act : Type
  | write (reg : Register) (b : UInt8) (host : HostResults)
  | writeTxBuffer (address : UInt16) (b : UInt8)
  | reset
  | addToSets
  | selectFails
  | processIo (io : IoResults)

/-- A register write to which the host has no objection. -/
def writeRegister (reg : Register) (b : UInt8) : Act := .write reg b {}

/-- `select` reports only what it was asked for. -/
def Reported (sets : FdSets) (io : IoResults) : Prop :=
  (io.readReady → sets.read) ∧ (io.writeReady → sets.write)

instance (sets : FdSets) (io : IoResults) : Decidable (Reported sets io) := by
  unfold Reported
  infer_instance

def step (s : System) : Act → Option System
  | .write reg b host => some { s with socket := socketWrite s.socket reg b host }
  | .writeTxBuffer address b => some { s with socket := socketWriteTxBuffer s.socket address b }
  | .reset => some { s with socket := socketReset s.socket }
  | .addToSets =>
    match s.select with
    | none => some ⟨(addToSets s.socket).1, some (addToSets s.socket).2⟩
    | some _ => none
  | .selectFails =>
    match s.select with
    | none => none
    | some _ => some { s with select := none }
  | .processIo io =>
    match s.select with
    | none => none
    | some sets => if Reported sets io then some ⟨processIo s.socket io, none⟩ else none

/-- What a step can be. -/
inductive StepOf (s : System) : Act → System → Prop
  | write (reg : Register) (b : UInt8) (host : HostResults) :
    StepOf s (.write reg b host) ⟨socketWrite s.socket reg b host, s.select⟩
  | writeTxBuffer (address : UInt16) (b : UInt8) :
    StepOf s (.writeTxBuffer address b) ⟨socketWriteTxBuffer s.socket address b, s.select⟩
  | reset : StepOf s .reset ⟨socketReset s.socket, s.select⟩
  | addToSets : s.select = none →
    StepOf s .addToSets ⟨(addToSets s.socket).1, some (addToSets s.socket).2⟩
  | selectFails : StepOf s .selectFails ⟨s.socket, none⟩
  | processIo (io : IoResults) (sets : FdSets) : s.select = some sets → Reported sets io →
    StepOf s (.processIo io) ⟨processIo s.socket io, none⟩

theorem step_cases {s t : System} {act : Act} (stepEq : step s act = some t) : StepOf s act t := by
  cases act with
  | write reg b host =>
    obtain rfl := Option.some.inj stepEq
    exact .write reg b host
  | writeTxBuffer address b =>
    obtain rfl := Option.some.inj stepEq
    exact .writeTxBuffer address b
  | reset =>
    obtain rfl := Option.some.inj stepEq
    exact .reset
  | addToSets =>
    simp only [step] at stepEq
    split at stepEq
    · obtain rfl := Option.some.inj stepEq
      exact .addToSets ‹_›
    · cases stepEq
  | selectFails =>
    simp only [step] at stepEq
    split at stepEq
    · cases stepEq
    · obtain rfl := Option.some.inj stepEq
      exact .selectFails
  | processIo io =>
    simp only [step] at stepEq
    split at stepEq
    · cases stepEq
    · split at stepEq
      · obtain rfl := Option.some.inj stepEq
        exact .processIo io _ ‹_› ‹_›
      · cases stepEq

end FuseX.W5100
