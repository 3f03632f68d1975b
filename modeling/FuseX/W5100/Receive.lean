import FuseX.Lib.Runs
import FuseX.W5100.Frame

/-!
# The receive ring

What the driver finds in the receive buffer, in every interleaving of arrivals,
turns of the I/O thread and accesses of the Z80.

* `RxHistory` reads off the trace what the network delivered and what the driver
  took with its RECVs;
* `ReceiveOk` is the statement about one state, `KeepsUnread` about one step;
* `Room` is why a read always has a byte to read into: it holds from
  `nic_w5100_socket_add_to_sets` to `nic_w5100_socket_process_io`.
-/

namespace FuseX.W5100

open Lib

/-! ## Statements -/

/-- The receive side of a socket, since OPEN. -/
structure RxHistory : Type where
  /-- What the network delivered, each datagram behind its header. -/
  stream : List UInt8 := []
  /-- What the driver read between the RX_RD of one RECV and that of the next. -/
  taken : List UInt8 := []
  /-- RX_RD at the last RECV. -/
  driverRd : UInt16 := 0
  /-- The socket entered CLOSE_WAIT though the peer had not closed. -/
  wronglyClosed : Bool := false

def RxHistory.record (h : RxHistory) : Event → RxHistory
  | .cleaned => {}
  | .received bytes => { h with stream := h.stream ++ bytes }
  | .datagram ip port payload =>
    { h with stream := h.stream ++ (udpHeader ip port payload.length ++ payload) }
  | .recvCommand rxRd rxBuffer =>
    { h with
      taken := h.taken ++
        ringRead bufferSize rxBuffer h.driverRd.toNat (rxRd - h.driverRd).toNat
      driverRd := rxRd }
  | .closeWait peerClosed => { h with wronglyClosed := h.wronglyClosed || !peerClosed }
  | _ => h

def rxHistory (trace : List Event) : RxHistory :=
  trace.foldl RxHistory.record {}

@[simp] theorem rxHistory_snoc (trace : List Event) (event : Event) :
    rxHistory (trace ++ [event]) = (rxHistory trace).record event := by
  simp [rxHistory]

def Socket.rx (s : Socket) : RxHistory := rxHistory s.trace

/-- The receive ring. -/
structure ReceiveOk (s : Socket) : Prop where
  bounded : s.rxRsr.toNat ≤ bufferSize
  /-- What the driver took, and what RX_RSR still offers it, is what arrived. -/
  stream : s.rx.stream =
    s.rx.taken ++ ringRead bufferSize s.rxBuffer s.rx.driverRd.toNat s.rxRsr.toNat
  closeWait : s.rx.wronglyClosed = false

/-- No unread byte is overwritten. -/
def KeepsUnread (s t : Socket) : Prop :=
  ∀ k < s.rxRsr.toNat,
    t.rxBuffer ((s.rx.driverRd.toNat + k) % bufferSize) =
      s.rxBuffer ((s.rx.driverRd.toNat + k) % bufferSize)

/-- The driver advances RX_RD by at most RX_RSR before RECV. -/
def Disciplined (s : System) : Act → Prop
  | .write .cr b _ =>
    Command.ofByte b = some .recv →
      (s.socket.rxRd - s.socket.rx.driverRd).toNat ≤ s.socket.rxRsr.toNat
  | _ => True

/-- A read comes back empty only because the peer closed: it is no TLS read that
would block and no read of an SSH session that has ended. -/
def Honest (s : Socket) : Received → Prop
  | .notReady => s.sshSocket = true ∨ s.tlsSocket = none
  | .sshEnded => s.sshSocket = false
  | _ => True

/-- There is room for the datagram and its header. -/
def Fits (s : Socket) : Received → Prop
  | .datagram _ _ payload => s.rxRsr.toNat + 8 + payload.length ≤ bufferSize
  | _ => True

/-- The driver is disciplined, and releases bytes only from a socket that is UDP or
ESTABLISHED; the reads are honest, and the datagrams fit. -/
def SteadyReceive (s : System) : Act → Prop
  | .write .cr b _ =>
    Command.ofByte b = some .recv →
      (s.socket.rxRd - s.socket.rx.driverRd).toNat ≤ s.socket.rxRsr.toNat ∧
        (s.socket.state = .udp ∨ s.socket.state = .established ∨
          s.socket.rxRd = s.socket.rx.driverRd)
  | .processIo io =>
    (∀ received ∈ io.control, Honest s.socket received) ∧
      (io.readReady = true → Honest s.socket io.received) ∧
      Honest s.socket io.pending ∧
      (io.readReady = true → s.socket.state = .udp → Fits s.socket io.received)
  | _ => True

instance (s : Socket) : (received : Received) → Decidable (Honest s received)
  | .notReady => inferInstanceAs (Decidable (_ ∨ _))
  | .sshEnded => inferInstanceAs (Decidable (_ = _))
  | .bytes _ _ _ | .datagram _ _ _ | .peerClosed | .failed => inferInstanceAs (Decidable True)

instance (s : Socket) : (received : Received) → Decidable (Fits s received)
  | .datagram _ _ _ => inferInstanceAs (Decidable (_ ≤ _))
  | .bytes _ _ _ | .notReady | .sshEnded | .peerClosed | .failed => inferInstanceAs (Decidable True)

instance (s : System) : (act : Act) → Decidable (SteadyReceive s act)
  | .write reg b _ => by
    unfold SteadyReceive
    cases reg <;> infer_instance
  | .processIo _ => by
    unfold SteadyReceive
    infer_instance
  | .writeTxBuffer _ _ | .reset | .addToSets | .selectFails => inferInstanceAs (Decidable True)

instance (s : System) : (act : Act) → Decidable (Disciplined s act)
  | .write reg b _ => by
    unfold Disciplined
    cases reg <;> infer_instance
  | .writeTxBuffer _ _ | .reset | .addToSets | .selectFails | .processIo _ =>
    inferInstanceAs (Decidable True)

theorem SteadyReceive.disciplined {s : System} {act : Act} (steady : SteadyReceive s act) :
    Disciplined s act := by
  unfold Disciplined
  split
  · exact fun recv => (steady recv).1
  · exact True.intro

/-! ## The invariant -/

structure RxInv (s : Socket) : Prop where
  bounded : s.rxRsr.toNat ≤ bufferSize
  released : s.rx.driverRd = s.oldRxRd
  stream : s.rx.stream =
    s.rx.taken ++ ringRead bufferSize s.rxBuffer s.oldRxRd.toNat s.rxRsr.toNat
  closeWait : s.rx.wronglyClosed = false

theorem RxInv.receiveOk {s : Socket} (inv : RxInv s) : ReceiveOk s where
  bounded := inv.bounded
  stream := by
    rw [inv.released]
    exact inv.stream
  closeWait := inv.closeWait

/-- A socket whose descriptor is in the read set has room to read into. -/
def Room (s : Socket) : Prop :=
  s.okForIo = true →
    (s.state = .udp → s.rxRsr.toNat + 9 ≤ bufferSize) ∧
      (s.state ≠ .listen → s.rxRsr.toNat + 1 ≤ bufferSize)

/-- The invariant of a system: while the I/O thread waits for the socket to become
readable, there is room. -/
structure ReceiveInv (s : System) : Prop where
  ring : RxInv s.socket
  room : ∀ sets ∈ s.select, sets.read = true → Room s.socket

/-! ## Steps that leave the ring alone -/

/-- The receive side is as it was. -/
structure RxSame (s t : Socket) : Prop where
  history : t.rx = s.rx
  rxRsr : t.rxRsr = s.rxRsr
  oldRxRd : t.oldRxRd = s.oldRxRd
  rxBuffer : t.rxBuffer = s.rxBuffer

theorem RxSame.refl (s : Socket) : RxSame s s := ⟨rfl, rfl, rfl, rfl⟩

theorem RxSame.trans {s t u : Socket} (first : RxSame s t) (second : RxSame t u) : RxSame s u :=
  ⟨second.history.trans first.history, second.rxRsr.trans first.rxRsr,
    second.oldRxRd.trans first.oldRxRd, second.rxBuffer.trans first.rxBuffer⟩

theorem RxInv.same {s t : Socket} (inv : RxInv s) (same : RxSame s t) : RxInv t := by
  obtain ⟨history, rxRsr, oldRxRd, rxBuffer⟩ := same
  refine ⟨?_, ?_, ?_, ?_⟩
  · rw [rxRsr]
    exact inv.bounded
  · rw [history, oldRxRd]
    exact inv.released
  · rw [history, rxBuffer, oldRxRd, rxRsr]
    exact inv.stream
  · rw [history]
    exact inv.closeWait

theorem RxSame.keepsUnread {s t : Socket} (same : RxSame s t) : KeepsUnread s t := by
  intro k _
  rw [same.rxBuffer]

theorem Quiet.rxSame {s t : Socket} (quiet : Quiet s t) : RxSame s t := by
  have rings := quiet.rings
  simp only [Socket.rings, Prod.mk.injEq] at rings
  obtain ⟨trace, -, -, -, -, rxRsr, oldRxRd, rxBuffer⟩ := rings
  exact ⟨congrArg rxHistory trace, rxRsr, oldRxRd, rxBuffer⟩

/-- A socket that listens and is in the sets of the `select` still listens. -/
structure RxKept (s t : Socket) : Prop extends RxSame s t where
  udp : t.state = .udp → s.state = .udp
  listening : t.okForIo = true → s.okForIo = true ∧ (s.state = .listen → t.state = .listen)

theorem RxKept.refl (s : Socket) : RxKept s s :=
  ⟨.refl s, id, fun ok => ⟨ok, id⟩⟩

theorem RxKept.trans {s t u : Socket} (first : RxKept s t) (second : RxKept t u) : RxKept s u := by
  refine ⟨first.toRxSame.trans second.toRxSame, first.udp ∘ second.udp, fun ok => ?_⟩
  obtain ⟨ok', listening'⟩ := second.listening ok
  obtain ⟨ok'', listening⟩ := first.listening ok'
  exact ⟨ok'', listening' ∘ listening⟩

theorem RxKept.room {s t : Socket} (kept : RxKept s t) (room : Room s) : Room t := by
  intro ok
  obtain ⟨ok', listening⟩ := kept.listening ok
  obtain ⟨datagram, byte⟩ := room ok'
  rw [kept.rxRsr]
  exact ⟨datagram ∘ kept.udp, fun notListening => byte (notListening ∘ listening)⟩

theorem Quiet.rxKept {s t : Socket} (quiet : Quiet s t) : RxKept s t :=
  ⟨quiet.rxSame, quiet.udp, quiet.listening⟩

/-- An event that the receive side passes over. -/
theorem RxSame.of_event {s t : Socket} {event : Event} (trace : t.trace = s.trace ++ [event])
    (passes : ∀ h : RxHistory, h.record event = h) (rxRsr : t.rxRsr = s.rxRsr)
    (oldRxRd : t.oldRxRd = s.oldRxRd) (rxBuffer : t.rxBuffer = s.rxBuffer) : RxSame s t := by
  refine ⟨?_, rxRsr, oldRxRd, rxBuffer⟩
  rw [Socket.rx, trace, rxHistory_snoc, passes, Socket.rx]

theorem sendDatagram_rxKept {s : Socket} (host : HostResults) (udp : s.state = .udp) :
    RxKept s (sendDatagram s host) := by
  unfold sendDatagram
  rcases bindIfNeeded_cases s host with bound | failed
  · rw [bound]
    dsimp only
    split
    · exact ⟨.of_event rfl (fun _ => rfl) rfl rfl rfl, id, fun ok => ⟨ok, id⟩⟩
    · exact ⟨⟨rfl, rfl, rfl, rfl⟩, id, fun ok => ⟨ok, id⟩⟩
  · rw [failed]
    exact ⟨⟨rfl, rfl, rfl, rfl⟩, nofun, fun ok => ⟨ok, by simp [udp]⟩⟩

theorem socketSend_rxKept (s : Socket) (host : HostResults) : RxKept s (socketSend s host) := by
  have noted : RxKept s (s.note (.sendCommand s.state s.txWr s.txBuffer s.dip s.dport)) :=
    ⟨.of_event rfl (fun _ => rfl) rfl rfl rfl, id, fun ok => ⟨ok, id⟩⟩
  apply noted.trans
  unfold socketSend
  dsimp only
  split
  · exact sendDatagram_rxKept host ‹_›
  · exact ⟨⟨rfl, rfl, rfl, rfl⟩, id, fun ok => ⟨ok, id⟩⟩
  · exact .refl _

theorem processUdpWrite_rxSame (s : Socket) (sent : Option Nat) :
    RxSame s (processUdpWrite s sent) := by
  unfold processUdpWrite
  split
  · exact .refl s
  dsimp only
  split
  · exact .of_event rfl (fun _ => rfl) rfl rfl rfl
  split
  · have emitted (data : List Slot) (rest : List Int) : RxSame s (datagramSent s data rest) :=
      .of_event rfl (fun _ => rfl) rfl rfl rfl
    split
    · exact (emitted _ _).trans (.of_event rfl (fun _ => rfl) rfl rfl rfl)
    · exact emitted _ _
  · exact .of_event rfl (fun _ => rfl) rfl rfl rfl

theorem processTcpWrite_rxSame (s : Socket) (sent : Option Nat) :
    RxSame s (processTcpWrite s sent) := by
  unfold processTcpWrite
  split
  · exact .refl s
  dsimp only
  split
  · have handed (count : Nat) : RxSame s (bytesHanded s count) :=
      .of_event rfl (fun _ => rfl) rfl rfl rfl
    split
    · exact (handed _).trans (.of_event rfl (fun _ => rfl) rfl rfl rfl)
    · exact handed _
  · exact .refl s

theorem writeIfReady_rxSame (s : Socket) (io : IoResults) : RxSame s (writeIfReady s io) := by
  unfold writeIfReady
  split
  · split
    · exact processUdpWrite_rxSame s io.sent
    · exact processTcpWrite_rxSame s io.sent
    · exact .refl s
  · exact .refl s

theorem processAccept_rxSame (s : Socket) (acceptOk : Bool) :
    RxSame s (processAccept s acceptOk) := by
  unfold processAccept
  split
  · exact ⟨rfl, rfl, rfl, rfl⟩
  · exact .refl s

/-! ## OPEN and RECV -/

theorem RxInv.fresh {s : Socket} (history : s.rx = {}) (rxRsr : s.rxRsr = 0)
    (oldRxRd : s.oldRxRd = 0) : RxInv s := by
  refine ⟨?_, ?_, ?_, ?_⟩
  · rw [rxRsr]
    decide
  · rw [history, oldRxRd]
  · rw [history, rxRsr]
    rfl
  · rw [history]

theorem socketClean_freshRx (s : Socket) :
    (socketClean s).rx = {} ∧ (socketClean s).rxRsr = 0 ∧ (socketClean s).oldRxRd = 0 ∧
      (socketClean s).rxBuffer = s.rxBuffer := by
  unfold socketClean
  dsimp only
  split <;> exact ⟨rxHistory_snoc _ _, rfl, rfl, rfl⟩

/-- An empty ring has room. -/
theorem room_empty {s : Socket} (rxRsr : s.rxRsr = 0) : Room s := by
  intro _
  rw [rxRsr]
  exact ⟨fun _ => by decide, fun _ => by decide⟩

/-- OPEN starts the ring anew, or does nothing. -/
theorem socketOpen_rx (s : Socket) (host : HostResults) :
    socketOpen s host = s ∨
      (socketOpen s host).rx = {} ∧ (socketOpen s host).rxRsr = 0 ∧
        (socketOpen s host).oldRxRd = 0 ∧ (socketOpen s host).rxBuffer = s.rxBuffer := by
  unfold socketOpen
  split
  · dsimp only
    split <;> exact .inr (socketClean_freshRx s)
  · exact .inl rfl

theorem rx_recvCommand (s : Socket) :
    (socketRecv s).rx =
      { s.rx with
        taken := s.rx.taken ++
          ringRead bufferSize s.rxBuffer s.rx.driverRd.toNat (s.rxRd - s.rx.driverRd).toNat
        driverRd := s.rxRd } := by
  unfold socketRecv
  dsimp only
  split <;> exact rxHistory_snoc _ _

/-- RECV releases bytes, or is ignored. -/
theorem socketRecv_cases (s : Socket) :
    (socketRecv s).rxBuffer = s.rxBuffer ∧
      ((s.state = .udp ∨ s.state = .established) ∧
          (socketRecv s).rxRsr = s.rxRsr - (s.rxRd - s.oldRxRd) ∧
          (socketRecv s).oldRxRd = s.rxRd ∨
        ¬ (s.state = .udp ∨ s.state = .established) ∧
          (socketRecv s).rxRsr = s.rxRsr ∧ (socketRecv s).oldRxRd = s.oldRxRd) := by
  unfold socketRecv
  dsimp only
  split
  · exact ⟨rfl, .inl ⟨‹_›, rfl, rfl⟩⟩
  · exact ⟨rfl, .inr ⟨‹_›, rfl, rfl⟩⟩

theorem socketRecv_state (s : Socket) :
    (socketRecv s).state = s.state ∧ (socketRecv s).okForIo = s.okForIo := by
  unfold socketRecv
  dsimp only
  split <;> exact ⟨rfl, rfl⟩

/-- RECV releases what the driver has read. -/
theorem RxInv.socketRecv {s : Socket} (inv : RxInv s)
    (disciplined : (s.rxRd - s.rx.driverRd).toNat ≤ s.rxRsr.toNat)
    (open_ : s.state = .udp ∨ s.state = .established ∨ s.rxRd = s.rx.driverRd) :
    RxInv (socketRecv s) ∧ (socketRecv s).rxRsr.toNat ≤ s.rxRsr.toNat := by
  have history := rx_recvCommand s
  rw [inv.released] at disciplined open_ history
  have bounded := inv.bounded
  obtain ⟨rxBuffer, ⟨released, rxRsr, oldRxRd⟩ | ⟨ignored, rxRsr, oldRxRd⟩⟩ := socketRecv_cases s
  · have left : (FuseX.W5100.socketRecv s).rxRsr.toNat =
        s.rxRsr.toNat - (s.rxRd - s.oldRxRd).toNat := by
      rw [rxRsr]
      exact UInt16.toNat_sub_of_le _ _ (UInt16.le_iff_toNat_le.mpr disciplined)
    refine ⟨⟨?_, ?_, ?_, ?_⟩, ?_⟩
    · omega
    · rw [history, oldRxRd]
    · have split : s.rxRsr.toNat =
          (s.rxRd - s.oldRxRd).toNat + (FuseX.W5100.socketRecv s).rxRsr.toNat := by omega
      have behind : ringRead bufferSize s.rxBuffer
            (s.oldRxRd.toNat + (s.rxRd - s.oldRxRd).toNat)
            (FuseX.W5100.socketRecv s).rxRsr.toNat =
          ringRead bufferSize s.rxBuffer s.rxRd.toNat (FuseX.W5100.socketRecv s).rxRsr.toNat :=
        ringRead_start (place_sub_word ⟨32, rfl⟩ _ _) _
      rw [history, rxBuffer, oldRxRd]
      dsimp only
      rw [inv.stream, split, ringRead_add, behind, List.append_assoc]
    · rw [history]
      exact inv.closeWait
    · omega
  · -- a RECV that is ignored must not release anything
    have still : s.rxRd = s.oldRxRd := by
      rcases open_ with udp | established | still
      · exact absurd (.inl udp) ignored
      · exact absurd (.inr established) ignored
      · exact still
    have none_ : (s.rxRd - s.oldRxRd).toNat = 0 := toNat_sub_word_eq_zero.mpr still.symm
    refine ⟨⟨?_, ?_, ?_, ?_⟩, ?_⟩
    · rw [rxRsr]
      exact bounded
    · rw [history, oldRxRd]
      exact still
    · rw [history, rxBuffer, oldRxRd, rxRsr, none_, ringRead_zero, List.append_nil]
      exact inv.stream
    · rw [history]
      exact inv.closeWait
    · rw [rxRsr]

/-! ## Reads -/

/-- A read keeps the unread bytes where they are, and leaves the rest of the socket
that decides about reads alone. -/
structure Reads (s t : Socket) : Prop where
  inv : RxInv t
  oldRxRd : t.oldRxRd = s.oldRxRd
  rxRsr : s.rxRsr.toNat ≤ t.rxRsr.toNat
  unread : ∀ k < s.rxRsr.toNat,
    t.rxBuffer ((s.oldRxRd.toNat + k) % bufferSize) =
      s.rxBuffer ((s.oldRxRd.toNat + k) % bufferSize)
  sshSocket : t.sshSocket = s.sshSocket
  tlsSocket : t.tlsSocket.isSome = s.tlsSocket.isSome

theorem Reads.refl {s : Socket} (inv : RxInv s) : Reads s s :=
  ⟨inv, rfl, Nat.le_refl _, fun _ _ => rfl, rfl, rfl⟩

theorem Reads.trans {s t u : Socket} (first : Reads s t) (second : Reads t u) : Reads s u := by
  refine ⟨second.inv, second.oldRxRd.trans first.oldRxRd, Nat.le_trans first.rxRsr second.rxRsr,
    fun k inside => ?_, second.sshSocket.trans first.sshSocket,
    second.tlsSocket.trans first.tlsSocket⟩
  have later := second.unread k (Nat.lt_of_lt_of_le inside first.rxRsr)
  rw [first.oldRxRd] at later
  exact later.trans (first.unread k inside)

/-- Bytes that arrived are stored behind the unread ones. -/
theorem RxInv.storeReceived {s t : Socket} {bytes : List UInt8} (inv : RxInv s)
    (fits : s.rxRsr.toNat + bytes.length ≤ bufferSize)
    (history : t.rx = { s.rx with stream := s.rx.stream ++ bytes })
    (rxRsr : t.rxRsr = s.rxRsr + UInt16.ofNat bytes.length) (oldRxRd : t.oldRxRd = s.oldRxRd)
    (rxBuffer : t.rxBuffer = ringWrite bufferSize s.rxBuffer
      ((s.oldRxRd.toNat + s.rxRsr.toNat) % bufferSize) bytes)
    (sshSocket : t.sshSocket = s.sshSocket)
    (tlsSocket : t.tlsSocket.isSome = s.tlsSocket.isSome) :
    Reads s t := by
  have positive : 0 < bufferSize := by decide
  have small : bufferSize < 65536 := by decide
  have count : t.rxRsr.toNat = s.rxRsr.toNat + bytes.length := by
    rw [rxRsr, UInt16.toNat_add, UInt16.toNat_ofNat']
    omega
  refine ⟨⟨?_, ?_, ?_, ?_⟩, oldRxRd, by omega, fun k inside => ?_, sshSocket, tlsSocket⟩
  · omega
  · rw [history, oldRxRd]
    exact inv.released
  · rw [history, oldRxRd, rxBuffer, count, ringRead_ringWrite positive fits]
    dsimp only
    rw [inv.stream, List.append_assoc]
  · rw [history]
    exact inv.closeWait
  · rw [rxBuffer]
    exact ringWrite_filled positive fits inside

theorem taken_spec (len : Nat) (first : UInt8) (rest : List UInt8) :
    (Received.taken len first rest).2.length ≤ len ∧
      (0 < len → (Received.taken len first rest).1 ≠ 0) := by
  simp only [Received.taken, List.length_take, List.length_cons]
  omega

/-- What the stream read returns: no more than it was asked for, and nothing only if
the peer closed. -/
theorem streamRead_spec {s : Socket} {len : Nat} {received : Received}
    (room : s.sshSocket = true ∨ 0 < len) (honest : Honest s received) :
    (streamRead s len received).2.length ≤ len ∧
      ((streamRead s len received).1 = 0 → received.isPeerClosed = true) := by
  unfold streamRead
  split
  · unfold sshSocketRecv
    split
    · exact ⟨Nat.zero_le _, nofun⟩
    rename_i ssh asked
    cases received with
    | bytes first rest more =>
      obtain ⟨bounded, some_⟩ := taken_spec len first rest
      exact ⟨bounded, fun zero => absurd zero (some_ (Nat.pos_of_ne_zero asked))⟩
    | sshEnded => exact absurd (ssh.symm.trans honest) nofun
    | peerClosed => exact ⟨Nat.zero_le _, fun _ => rfl⟩
    | notReady => exact ⟨Nat.zero_le _, nofun⟩
    | datagram | failed => exact ⟨Nat.zero_le _, nofun⟩
  rename_i noSsh
  have asked : 0 < len := room.resolve_left noSsh
  split
  · rename_i tls
    cases received with
    | bytes first rest more =>
      obtain ⟨bounded, some_⟩ := taken_spec len first rest
      exact ⟨bounded, fun zero => absurd zero (some_ asked)⟩
    | notReady =>
      rcases honest with ssh | plain
      · exact absurd ssh noSsh
      · rw [plain] at tls
        cases tls
    | peerClosed => exact ⟨Nat.zero_le _, fun _ => rfl⟩
    | datagram | sshEnded | failed => exact ⟨Nat.zero_le _, nofun⟩
  · cases received with
    | bytes first rest more =>
      obtain ⟨bounded, some_⟩ := taken_spec len first rest
      exact ⟨bounded, fun zero => absurd zero (some_ asked)⟩
    | peerClosed => exact ⟨Nat.zero_le _, fun _ => rfl⟩
    | datagram | notReady | sshEnded | failed => exact ⟨Nat.zero_le _, nofun⟩

theorem isSome_tlsPendingAfter (s : Socket) (received : Received) :
    (tlsPendingAfter s received).isSome = s.tlsSocket.isSome := by
  unfold tlsPendingAfter
  split
  · rfl
  · rw [Option.isSome_map]

/-- A read of the stream. -/
theorem RxInv.processRead_stream {s : Socket} {received : Received} (inv : RxInv s)
    (stream : s.state ≠ .udp) (room : s.sshSocket = true ∨ s.rxRsr.toNat + 1 ≤ bufferSize)
    (honest : Honest s received) : Reads s (processRead s received) := by
  have bounded := inv.bounded
  obtain ⟨upTo, closed⟩ := @streamRead_spec s (bufferSize - s.rxRsr.toNat) received
    (room.imp id fun byte => by omega) honest
  have tls := isSome_tlsPendingAfter s received
  unfold processRead
  dsimp only
  rw [if_neg stream]
  split
  · exact inv.storeReceived (by omega) (rxHistory_snoc _ _) rfl rfl rfl rfl tls
  split
  · rename_i empty
    have history : (Socket.note { s with
          tlsSocket := tlsPendingAfter s received
          state := .closeWait
          ir := s.ir ||| irDiscon } (.closeWait received.isPeerClosed)).rx = s.rx := by
      refine (rxHistory_snoc _ _).trans ?_
      rw [closed empty]
      simp only [RxHistory.record, Bool.not_true, Bool.or_false]
      rfl
    exact ⟨inv.same ⟨history, rfl, rfl, rfl⟩, rfl, Nat.le_refl _, fun _ _ => rfl, rfl, tls⟩
  · exact ⟨inv.same ⟨rfl, rfl, rfl, rfl⟩, rfl, Nat.le_refl _, fun _ _ => rfl, rfl, tls⟩

/-- A read of a datagram that fits. -/
theorem RxInv.processRead_udp {s : Socket} {received : Received} (inv : RxInv s)
    (udp : s.state = .udp) (fits : Fits s received) : Reads s (processRead s received) := by
  unfold processRead
  dsimp only
  rw [if_pos udp]
  cases received with
  | datagram ip port payload =>
    have whole : payload.take (bufferSize - s.rxRsr.toNat - 8) = payload :=
      List.take_of_length_le (by unfold Fits at fits; omega)
    dsimp only
    rw [whole]
    have room : s.rxRsr.toNat + (udpHeader ip port payload.length ++ payload).length ≤ bufferSize := by
      rw [List.length_append]
      unfold Fits at fits
      simp only [udpHeader, List.length_cons, List.length_nil]
      omega
    exact inv.storeReceived room (rxHistory_snoc _ _) rfl rfl rfl rfl rfl
  | _ => exact .refl inv

/-! ## Turns of the I/O thread -/

theorem Honest.of_same {s t : Socket} {received : Received} (honest : Honest s received)
    (sshSocket : t.sshSocket = s.sshSocket) (tlsSocket : t.tlsSocket.isSome = s.tlsSocket.isSome) :
    Honest t received := by
  cases received with
  | notReady =>
    refine honest.imp sshSocket.trans fun plain => ?_
    rw [plain] at tlsSocket
    exact Option.not_isSome_iff_eq_none.mp (by simp [tlsSocket])
  | sshEnded => exact sshSocket.trans honest
  | _ => exact True.intro

/-- The read of the SSH dialogue comes before the ready descriptor, and only on SSH
sockets. -/
theorem RxInv.readControl {s : Socket} {io : IoResults} (inv : RxInv s)
    (honest : ∀ received ∈ io.control, Honest s received) :
    readControl s io = s ∨
      s.sshSocket = true ∧ s.state = .established ∧ Reads s (readControl s io) := by
  unfold FuseX.W5100.readControl
  split
  · rename_i received control
    split
    · rename_i ready
      refine .inr ⟨ready.1, ready.2.1, ?_⟩
      exact inv.processRead_stream (by simp [ready.2.1]) (.inr ready.2.2) (honest _ control)
    · exact .inl rfl
  · exact .inl rfl

theorem Reads.of_same {s t : Socket} (inv : RxInv s) (same : RxSame s t)
    (sshSocket : t.sshSocket = s.sshSocket) (tlsSocket : t.tlsSocket.isSome = s.tlsSocket.isSome) :
    Reads s t :=
  ⟨inv.same same, same.oldRxRd, Nat.le_of_eq (congrArg UInt16.toNat same.rxRsr).symm,
    fun _ _ => by rw [same.rxBuffer], sshSocket, tlsSocket⟩

theorem RxInv.readIfReady {s : Socket} {io : IoResults} (inv : RxInv s)
    (room : io.readReady = true → s.state ≠ .listen → s.state ≠ .udp →
      s.sshSocket = true ∨ s.rxRsr.toNat + 1 ≤ bufferSize)
    (honest : io.readReady = true → Honest s io.received)
    (fits : io.readReady = true → s.state = .udp → Fits s io.received) :
    Reads s (readIfReady s io) := by
  unfold FuseX.W5100.readIfReady
  split
  · rename_i ready
    split
    · refine .of_same inv (processAccept_rxSame s io.acceptOk) ?_ ?_
      all_goals
        unfold processAccept
        split <;> rfl
    · rename_i notListening
      by_cases udp : s.state = .udp
      · exact inv.processRead_udp udp (fits ready udp)
      · exact inv.processRead_stream udp (room ready notListening udp) (honest ready)
  · exact .refl inv

theorem RxInv.writeIfReady {s : Socket} (inv : RxInv s) (io : IoResults) :
    Reads s (writeIfReady s io) := by
  refine .of_same inv (writeIfReady_rxSame s io) ?_ ?_
  all_goals
    unfold FuseX.W5100.writeIfReady
    split
    · split
      · unfold processUdpWrite
        split
        · rfl
        · dsimp only
          split
          · rfl
          · split
            · split <;> rfl
            · rfl
      · unfold processTcpWrite
        split
        · rfl
        · dsimp only
          split
          · split <;> rfl
          · rfl
      · rfl
    · rfl

theorem RxInv.readPending {s : Socket} {io : IoResults} (inv : RxInv s)
    (honest : Honest s io.pending) : Reads s (readPending s io) := by
  unfold FuseX.W5100.readPending
  split
  · rename_i ready
    exact inv.processRead_stream (by simp [ready.2.1]) (.inr ready.2.2) honest
  · exact .refl inv

/-- One turn of the I/O thread. -/
theorem RxInv.processIo {s : Socket} {io : IoResults} (inv : RxInv s)
    (room : io.readReady = true → Room s)
    (control : ∀ received ∈ io.control, Honest s received)
    (received : io.readReady = true → Honest s io.received) (pending : Honest s io.pending)
    (fits : io.readReady = true → s.state = .udp → Fits s io.received) :
    Reads s (processIo s io) := by
  unfold FuseX.W5100.processIo
  split
  · rename_i ready
    have first : Reads s (FuseX.W5100.readIfReady (FuseX.W5100.readControl s io) io) := by
      rcases inv.readControl control with none_ | ⟨ssh, established, reads⟩
      · rw [none_]
        refine inv.readIfReady (fun ready' notListening _ => ?_) received fits
        exact .inr ((room ready' ready.2).2 notListening)
      · -- the dialogue may fill the ring: an SSH read of no bytes is harmless
        have ssh' := reads.sshSocket.trans ssh
        have notUdp : (FuseX.W5100.readControl s io).state ≠ .udp := by
          intro udp
          have before := (readControl_frame s io).udp udp
          exact absurd (established.symm.trans before) nofun
        refine reads.trans (reads.inv.readIfReady (fun _ _ _ => .inl ssh') ?_ ?_)
        · exact fun ready' => (received ready').of_same reads.sshSocket reads.tlsSocket
        · exact fun _ udp => absurd udp notUdp
    have second := first.trans (first.inv.writeIfReady io)
    have third := second.inv.readPending (pending.of_same second.sshSocket second.tlsSocket)
    exact second.trans third
  · exact .refl inv

/-! ## Steps and runs -/

/-- `nic_w5100_socket_add_to_sets` asks for reads only where there is room. -/
theorem addToSets_rx (s : Socket) :
    RxSame s (addToSets s).1 ∧ ((addToSets s).2.read = true → Room (addToSets s).1) := by
  unfold addToSets
  split
  · refine ⟨⟨rfl, rfl, rfl, rfl⟩, fun asked _ => ?_⟩
    rcases of_decide_eq_true asked with ⟨udp, room⟩ | ⟨established, room⟩ | listening
    · exact ⟨fun _ => room, fun _ => by dsimp only; omega⟩
    · exact ⟨fun udp => absurd (established.symm.trans udp) nofun, fun _ => room⟩
    · exact ⟨fun udp => absurd (listening.symm.trans udp) nofun,
        fun notListening => absurd listening notListening⟩
  · exact ⟨.refl s, nofun⟩

theorem step_receiveInv {s t : System} {act : Act} (inv : ReceiveInv s)
    (steady : SteadyReceive s act) (stepEq : step s act = some t) :
    ReceiveInv t ∧ KeepsUnread s.socket t.socket := by
  have kept {u : Socket} (kept : RxKept s.socket u) :
      ReceiveInv ⟨u, s.select⟩ ∧ KeepsUnread s.socket u :=
    ⟨⟨inv.ring.same kept.toRxSame, fun sets member read => kept.room (inv.room sets member read)⟩,
      kept.keepsUnread⟩
  have counted {u : Socket} (command : ReceiveInv ⟨u, s.select⟩ ∧ KeepsUnread s.socket u) :
      ReceiveInv ⟨{ u with bindCount := 0 }, s.select⟩ ∧
        KeepsUnread s.socket { u with bindCount := 0 } :=
    ⟨⟨command.1.ring.same ⟨rfl, rfl, rfl, rfl⟩, command.1.room⟩, command.2⟩
  have fresh {u : Socket} (history : u.rx = {}) (rxRsr : u.rxRsr = 0) (oldRxRd : u.oldRxRd = 0)
      (rxBuffer : u.rxBuffer = s.socket.rxBuffer) :
      ReceiveInv ⟨u, s.select⟩ ∧ KeepsUnread s.socket u :=
    ⟨⟨.fresh history rxRsr oldRxRd, fun _ _ _ => room_empty rxRsr⟩, fun _ _ => by rw [rxBuffer]⟩
  rcases step_cases stepEq with ⟨reg, b, host⟩ | ⟨address, b⟩ | _ | _ | _ | ⟨io, sets, select, asked⟩
  · rcases socketWrite_cases s.socket reg b host with
      quiet | ⟨rfl, command, u, decoded, written, cases⟩
    · exact kept quiet.rxKept
    · dsimp only
      rw [written]
      apply counted
      rcases cases with ⟨rfl, rfl⟩ | ⟨rfl, rfl⟩ | ⟨rfl, rfl⟩
      · rcases socketOpen_rx s.socket host with same | ⟨history, rxRsr, oldRxRd, rxBuffer⟩
        · rw [same]
          exact kept (.refl _)
        · exact fresh history rxRsr oldRxRd rxBuffer
      · exact kept (socketSend_rxKept s.socket host)
      · obtain ⟨disciplined, open_⟩ := steady decoded
        obtain ⟨ring, rxRsr⟩ := inv.ring.socketRecv disciplined open_
        refine ⟨⟨ring, fun sets member read ok => ?_⟩, fun _ _ => ?_⟩
        · obtain ⟨state, okForIo⟩ := socketRecv_state s.socket
          have room := inv.room sets member read (okForIo ▸ ok)
          rw [state]
          exact ⟨fun udp => Nat.le_trans (Nat.add_le_add_right rxRsr 9) (room.1 udp),
            fun notListening =>
              Nat.le_trans (Nat.add_le_add_right rxRsr 1) (room.2 notListening)⟩
        · rw [(socketRecv_cases s.socket).1]
  · exact kept ⟨.of_event rfl (fun _ => rfl) rfl rfl rfl, id, fun ok => ⟨ok, id⟩⟩
  · obtain ⟨history, rxRsr, oldRxRd, rxBuffer⟩ :=
      socketClean_freshRx { s.socket with mode := .closed, state := .closed }
    exact fresh history rxRsr oldRxRd rxBuffer
  · obtain ⟨same, room⟩ := addToSets_rx s.socket
    refine ⟨⟨inv.ring.same same, fun sets member => ?_⟩, same.keepsUnread⟩
    obtain rfl := Option.some.inj member
    exact room
  · exact ⟨⟨inv.ring, nofun⟩, fun _ _ => rfl⟩
  · obtain ⟨control, received, pending, fits⟩ := steady
    have reads := inv.ring.processIo
      (fun ready => inv.room sets select (asked.1 ready)) control received pending fits
    refine ⟨⟨reads.inv, nofun⟩, fun k inside => ?_⟩
    rw [inv.ring.released]
    exact reads.unread k inside

/-- In every run that meets `SteadyReceive`, the receive ring is right in every state,
and the next step keeps the unread bytes. -/
theorem receive_ok {txBuffer rxBuffer : Buffer} {acts : List Act} {s : System}
    (run : Runs step SteadyReceive (System.start txBuffer rxBuffer) acts s) :
    ReceiveOk s.socket ∧
      ∀ act t, SteadyReceive s act → step s act = some t → KeepsUnread s.socket t.socket := by
  have start : ReceiveInv (System.start txBuffer rxBuffer) := ⟨.fresh rfl rfl rfl, nofun⟩
  have inv := run.invariant start fun _ _ _ inv steady stepEq => (step_receiveInv inv steady stepEq).1
  exact ⟨inv.ring.receiveOk, fun _ _ steady stepEq => (step_receiveInv inv steady stepEq).2⟩

/-- A turn of the I/O thread in which the descriptor is readable. -/
def readTurn (received : Received) : List Act :=
  [.addToSets, .processIo { readReady := true, received := received }]

/-- OPEN of a TCP socket, and CONNECT to the port `256 * high + low`. -/
def connectTo (high low : UInt8) : List Act :=
  [writeRegister .mr 0x21, writeRegister .cr 0x01, writeRegister (.dport portHigh) high,
    writeRegister (.dport portLow) low, writeRegister .cr 0x04]

/-- Three bytes arrive, the driver takes two, the peer closes. -/
def receiveThree : List Act :=
  connectTo 0 80 ++ readTurn (.bytes 1 [2, 3] false) ++ [writeRegister .rxRd1 2, writeRegister .cr 0x40] ++
    readTurn .peerClosed

theorem receive_three :
    ∃ s, Runs step SteadyReceive (System.start (fun _ => 0) (fun _ => 0)) receiveThree s ∧
      ReceiveOk s.socket ∧
      ∀ act t, SteadyReceive s act → step s act = some t → KeepsUnread s.socket t.socket := by
  have evaluates : (receiveThree.foldlM (guarded step SteadyReceive)
      (System.start (fun _ => 0) (fun _ => 0))).isSome = true := by decide
  obtain ⟨s, eval⟩ := Option.isSome_iff_exists.mp evaluates
  exact ⟨s, .of_guarded eval, receive_ok (.of_guarded eval)⟩

/-- A TLS connection whose descriptor is readable, but holds no whole record yet. -/
def partialRecord : List Act :=
  connectTo 1 0xBB ++ readTurn .notReady

/-- The socket enters CLOSE_WAIT though the peer has not closed. -/
theorem receive_partial_record :
    ¬ ∀ (txBuffer rxBuffer : Buffer) (acts : List Act) (s : System),
      Runs step Disciplined (System.start txBuffer rxBuffer) acts s → ReceiveOk s.socket := by
  intro always
  have evaluates : ∃ s, partialRecord.foldlM (guarded step Disciplined)
      (System.start (fun _ => 0) (fun _ => 0)) = some s ∧ s.socket.rx.wronglyClosed = true := by
    have closed : ((partialRecord.foldlM (guarded step Disciplined)
        (System.start (fun _ => 0) (fun _ => 0))).map (·.socket.rx.wronglyClosed)) = some true := by
      decide
    exact Option.map_eq_some_iff.mp closed
  obtain ⟨s, eval, closed⟩ := evaluates
  have ok := always _ _ partialRecord s (.of_guarded eval)
  exact absurd (ok.closeWait.symm.trans closed) nofun

/-- Three bytes arrive and the peer closes; the driver takes them in CLOSE_WAIT. -/
def takeInCloseWait : List Act :=
  connectTo 0 80 ++ readTurn (.bytes 1 [2, 3] false) ++ readTurn .peerClosed ++
    [writeRegister .rxRd1 3, writeRegister .cr 0x40]

/-- RX_RSR still offers three bytes, of which none arrived. -/
theorem receive_close_wait :
    ∃ s, Runs step anyStep (System.start (fun _ => 0) (fun _ => 0)) takeInCloseWait s ∧
      s.socket.rx.stream = [1, 2, 3] ∧ s.socket.rx.taken = [1, 2, 3] ∧ s.socket.rxRsr = 3 :=
  ⟨_, Runs.of_foldlM rfl, by decide, by decide, by decide⟩

end FuseX.W5100
