import FuseX.Lib.Runs

/-!
# The TCP relay of a matchmaking tunnel

`lwip.c`, from the moment `attach` has the stream. The worker goes round its loop:
packets and timers run lwIP, which calls `receive`; then pending bytes are sent to the
bridge, the bridge is read, and what was read is given to TCP. The other end of the
bridge is the application's. Of lwIP the model has what the worker sees of it: refused
data with their FIN, and the bytes given to `tcp_write` that the peer has not
acknowledged. Of the bridge it has the bytes on their way in both directions.

What has come from the peer and gone to it is kept beside the state, and so is what the
application has read and written and what an abort throws away.
-/

namespace FuseX.Nic

/-! ## State -/

/-- `current->ready`. -/
inductive Ready : Type
  | pending | usable | failed
  deriving DecidableEq

/-- Where the worker is in its loop. -/
inductive Phase : Type
  | top | input | send | recv | write | done
  deriving DecidableEq

structure Relay : Type where
  /-- `pcb->refused_data` and its flag `PBUF_FLAG_TCP_FIN` -/
  refused : Option (List UInt8 × Bool)
  /-- the bytes in `pcb->unsent` and `pcb->unacked` -/
  sndQueue : List UInt8
  /-- `stream` is not `NULL` -/
  stream : Bool
  ready : Ready
  icmpReady : Bool
  stop : Bool
  phase : Phase
  /-- the first `incoming_n` bytes of `incoming` -/
  incoming : List UInt8
  incomingOffset : Nat
  /-- the first `outgoing_n` bytes of `outgoing` -/
  outgoing : List UInt8
  /-- in the bridge, to the application -/
  toApp : List UInt8
  /-- the bridge has been shut down for writing -/
  shutWr : Bool
  /-- in the bridge, to the worker -/
  toWorker : List UInt8
  appClosed : Bool
  /-- received from the peer, in order -/
  arrived : List UInt8
  peerFin : Bool
  appRead : List UInt8
  /-- the application has read the end of file -/
  sawEof : Bool
  appWrote : List UInt8
  /-- accepted by `tcp_write` -/
  handed : List UInt8
  /-- thrown away by `tcp_abort` -/
  discarded : List UInt8
  deriving DecidableEq

/-- The relay when `attach` returns. -/
def Relay.attached (icmpReady : Bool) : Relay where
  refused := none
  sndQueue := []
  stream := true
  ready := if icmpReady then .usable else .pending
  icmpReady := icmpReady
  stop := false
  phase := .input
  incoming := []
  incomingOffset := 0
  outgoing := []
  toApp := []
  shutWr := false
  toWorker := []
  appClosed := false
  arrived := []
  peerFin := false
  appRead := []
  sawEof := false
  appWrote := []
  handed := []
  discarded := []

/-- `sizeof( incoming )`. -/
def incomingSize : Nat := 16384

/-- `sizeof( outgoing )`. -/
def outgoingSize : Nat := 8192

/-- The bytes between `incoming_offset` and `incoming_n`. -/
def Relay.pending (r : Relay) : List UInt8 :=
  r.incoming.drop r.incomingOffset

/-- `sizeof( incoming ) - incoming_n`. -/
def Relay.room (r : Relay) : Nat :=
  incomingSize - r.incoming.length

/-! ## Receiving -/

/-- `receive`: whether it returns `ERR_OK`. -/
def receive (p : Option (List UInt8)) (r : Relay) : Bool × Relay :=
  match p with
  | none => (true, { r with shutWr := true })
  | some bytes =>
      if bytes.length > r.room then (false, r)
      else (true, { r with incoming := r.incoming ++ bytes })

/-- `TCP_EVENT_RECV`, and `TCP_EVENT_CLOSED` behind it. Data that `receive` does not
take are refused, together with the FIN. -/
def deliver (data : List UInt8) (fin : Bool) (r : Relay) : Relay :=
  let event := if data = [] then (true, r) else receive (some data) r
  if event.1 then
    if fin then (receive none event.2).2 else event.2
  else { event.2 with refused := some (data, fin) }

/-- `tcp_process_refused_data`. -/
def processRefusedData (r : Relay) : Relay :=
  match r.refused with
  | none => r
  | some (data, fin) => deliver data fin { r with refused := none }

/-- `tcp_input`, for the next bytes of the peer and its FIN. A segment is dropped while
data are refused. -/
def tcpInput (data : List UInt8) (fin : Bool) (r : Relay) : Relay :=
  let r := processRefusedData r
  if r.refused ≠ none ∧ (data ≠ [] ∨ fin) then r
  else deliver data fin { r with arrived := r.arrived ++ data, peerFin := r.peerFin || fin }

/-! ## The worker -/

/-- What follows the loop. -/
def finish (r : Relay) : Relay :=
  { r with
    discarded := if r.stream then r.sndQueue else []
    sndQueue := []
    refused := none
    stream := false
    shutWr := true
    phase := .done }

/-- The top of the loop; `late` says that the time for the setup has run out. -/
def loopTop (late : Bool) (r : Relay) : Relay :=
  if r.stop then finish r
  else if r.ready = .pending ∧ late then finish { r with ready := .failed }
  else { r with phase := .input, ready := if r.icmpReady then .usable else r.ready }

/-- After packets and timers. -/
def inputDone (r : Relay) : Relay :=
  if r.ready = .failed then finish r
  else if r.ready = .usable ∧ r.stream then { r with phase := .send }
  else { r with phase := .top }

/-- `send` on the bridge, with its result. -/
def sendBridge (result : Option Nat) (r : Relay) : Option Relay :=
  if r.incoming.length > r.incomingOffset then
    match result with
    | none => some { r with phase := .recv }
    | some n =>
        if ¬ r.shutWr ∧ ¬ r.appClosed ∧ 0 < n ∧ n ≤ r.incoming.length - r.incomingOffset then
          let r' := { r with
            toApp := r.toApp ++ r.pending.take n
            incomingOffset := r.incomingOffset + n
            phase := .recv }
          some (if r'.incomingOffset = r'.incoming.length then
            { r' with incoming := [], incomingOffset := 0 } else r')
        else none
  else some { r with phase := .recv }

/-- `recv` on the bridge, with its result; 0 is the end of file. -/
def recvBridge (result : Option Nat) (r : Relay) : Option Relay :=
  if r.outgoing = [] then
    match result with
    | none => some { r with phase := .write }
    | some 0 => if r.toWorker = [] ∧ r.appClosed then some (finish r) else none
    | some n =>
        if n ≤ outgoingSize ∧ n ≤ r.toWorker.length then
          some { r with
            outgoing := r.toWorker.take n
            toWorker := r.toWorker.drop n
            phase := .write }
        else none
  else some { r with phase := .write }

/-- `tcp_write`, with the room `tcp_sndbuf` and whether it returns `ERR_OK`. -/
def writeStream (sndbuf : Nat) (ok : Bool) (r : Relay) : Relay :=
  let n := min r.outgoing.length sndbuf
  if n ≠ 0 ∧ ok then
    { r with
      handed := r.handed ++ r.outgoing.take n
      sndQueue := r.sndQueue ++ r.outgoing.take n
      outgoing := r.outgoing.drop n
      phase := .top }
  else { r with phase := .top }

/-! ## Steps -/

inductive RelayAct : Type
  /-- lwIP, while packets and timers run -/
  | segment (data : List UInt8) (fin : Bool)
  | timer
  | ack (n : Nat)
  | reset
  | icmpReply
  /-- the rest of the program -/
  | outputFailed
  | stop
  /-- the worker -/
  | top (late : Bool)
  | inputDone
  | send (result : Option Nat)
  | recv (result : Option Nat)
  | write (sndbuf : Nat) (ok : Bool)
  /-- the application -/
  | appRead (n : Nat)
  | appEof
  | appWrite (bytes : List UInt8)
  | appClose

/-- A step of the system; it is `none` where it cannot be taken. TCP brings nothing
after the peer's FIN, and a closed application neither reads nor writes. -/
def stepRelay (r : Relay) : RelayAct → Option Relay
  | .segment data fin =>
      if r.phase = .input ∧ r.stream ∧ (r.peerFin → data = [] ∧ ¬ fin) then
        some (tcpInput data fin r)
      else none
  | .timer => if r.phase = .input ∧ r.stream then some (processRefusedData r) else none
  | .ack n =>
      if r.phase = .input ∧ r.stream ∧ n ≤ r.sndQueue.length then
        some { r with sndQueue := r.sndQueue.drop n }
      else none
  | .reset =>
      if r.phase = .input ∧ r.stream then
        some { r with stream := false, ready := .failed, refused := none, sndQueue := [] }
      else none
  | .icmpReply => if r.phase = .input then some { r with icmpReady := true } else none
  | .outputFailed => if r.phase ≠ .done then some { r with ready := .failed } else none
  | .stop => some { r with stop := true }
  | .top late => if r.phase = .top then some (loopTop late r) else none
  | .inputDone => if r.phase = .input then some (inputDone r) else none
  | .send result => if r.phase = .send then sendBridge result r else none
  | .recv result => if r.phase = .recv then recvBridge result r else none
  | .write sndbuf ok => if r.phase = .write then some (writeStream sndbuf ok r) else none
  | .appRead n =>
      if ¬ r.appClosed ∧ 0 < n ∧ n ≤ r.toApp.length then
        some { r with appRead := r.appRead ++ r.toApp.take n, toApp := r.toApp.drop n }
      else none
  | .appEof =>
      if ¬ r.appClosed ∧ r.toApp = [] ∧ r.shutWr then some { r with sawEof := true } else none
  | .appWrite bytes =>
      if ¬ r.appClosed ∧ r.phase ≠ .done then
        some { r with toWorker := r.toWorker ++ bytes, appWrote := r.appWrote ++ bytes }
      else none
  | .appClose => if ¬ r.appClosed then some { r with appClosed := true } else none

end FuseX.Nic
