import FuseX.Lib.Runs
import FuseX.W5100.TcpSend
import Mathlib.Data.Fintype.Basic

/-!
# The send queue of a UDP socket

What becomes of a datagram, in every interleaving of SENDs, register and buffer
writes with turns of the I/O thread.

* `UdpHistory` reads off the trace what the SENDs asked for and what `sendto` took;
* `UdpQueueOk` is the statement about one state;
* `Queued` ties `datagram_lengths` and TX_RR to the datagrams that are asked for
  and not emitted.
-/

namespace FuseX.W5100

open Lib

/-! ## Statements -/

/-- A slice of the transmit ring and where it goes. -/
structure Datagram : Type where
  slots : List Slot
  dip : IpAddress
  dport : Port

/-- The places of a datagram's bytes, and where it goes. -/
def Datagram.header (d : Datagram) : List Nat × IpAddress × Port :=
  (d.slots.map Prod.fst, d.dip, d.dport)

/-- The transmit side of a UDP socket, since OPEN. -/
structure UdpHistory : Type where
  /-- The ring between the TX_WR of one SEND and that of the next, and the
  destination in the registers, at the second. -/
  requested : List Datagram := []
  emitted : List Datagram := []
  /-- TX_WR at the last SEND. -/
  sendWr : UInt16 := 0
  /-- The oldest datagram that is not emitted was refused. -/
  refused : Bool := false
  /-- A datagram ran over the end of a buffer. -/
  overran : Bool := false
  /-- The driver wrote to a place of a datagram that was not emitted. -/
  overwritten : Bool := false

namespace UdpHistory

/-- The datagrams that are asked for and not emitted. -/
def queue (h : UdpHistory) : List Datagram :=
  h.requested.drop h.emitted.length

def record (h : UdpHistory) : Event → UdpHistory
  | .cleaned => {}
  | .sendCommand state txWr txBuffer dip dport =>
    if state = .udp then
      { h with
        requested := h.requested ++
          [⟨W5100.slots txBuffer h.sendWr.toNat (txWr - h.sendWr).toNat, dip, dport⟩]
        sendWr := txWr }
    else h
  | .txBufferWritten place =>
    { h with
      overwritten := h.overwritten ||
        h.queue.any fun d => (d.slots.map Prod.fst).contains place }
  | .emitted slots dip dport =>
    { h with emitted := h.emitted ++ [⟨slots, dip, dport⟩], refused := false }
  | .refused => { h with refused := true }
  | .overran => { h with overran := true }
  | _ => h

end UdpHistory

def udpHistory (trace : List Event) : UdpHistory :=
  trace.foldl UdpHistory.record {}

@[simp] theorem udpHistory_snoc (trace : List Event) (event : Event) :
    udpHistory (trace ++ [event]) = (udpHistory trace).record event := by
  simp [udpHistory]

def Socket.udp (s : Socket) : UdpHistory := udpHistory s.trace

/-- The send queue. -/
structure UdpQueueOk (s : Socket) : Prop where
  /-- The datagrams emitted are the slices between the SENDs, in order and once each,
  and each goes where the registers said at its SEND. -/
  inOrder : s.udp.emitted.map Datagram.header <+: s.udp.requested.map Datagram.header
  /-- So are their bytes, unless the driver itself changed them. -/
  unchanged : s.udp.overwritten = false → s.udp.emitted <+: s.udp.requested
  /-- Nothing is left over when no write is pending. -/
  all : s.state = .udp → s.writePending = false →
    s.udp.emitted.length = s.udp.requested.length
  /-- No datagram waits behind one that was refused. -/
  unblocked : s.udp.refused = true → s.udp.requested.length ≤ s.udp.emitted.length + 1
  withinBuffer : s.udp.overran = false

/-- What `sendto` does with the oldest datagram. -/
def Delivers (s : Socket) (sent : Option Nat) : Prop :=
  ∀ d ∈ s.udp.queue.head?,
    (sent = some d.slots.length ∧ s.dip = d.dip ∧ s.dport = d.dport) ∨
      (sent ≠ some d.slots.length ∧ s.udp.queue.length = 1)

instance (s : Socket) (sent : Option Nat) : Decidable (Delivers s sent) := by
  unfold Delivers
  infer_instance

/-- A SEND finds room in the queue, a slice that fits the buffer and no refused
datagram before it; when the I/O thread writes, `sendto` takes the oldest datagram
and the destination registers are those of its SEND, or it refuses the only one. -/
def SteadyDatagrams (s : System) : Act → Prop
  | .write .cr b _ =>
    Command.ofByte b = some .send → s.socket.state = .udp →
      s.socket.datagramLengths.length < maxDatagrams ∧
        (s.socket.txWr - s.socket.udp.sendWr).toNat ≤ bufferSize ∧
        s.socket.udp.refused = false
  | .processIo io =>
    io.writeReady = true → s.socket.state = .udp → Delivers s.socket io.sent
  | _ => True

instance (s : System) : (act : Act) → Decidable (SteadyDatagrams s act)
  | .write .cr _ _ => by
    unfold SteadyDatagrams
    infer_instance
  | .write .mr _ _ | .write .ir _ _ | .write (.port _) _ _ | .write (.dipr _) _ _
  | .write (.dport _) _ _ | .write (.mssr _) _ _ | .write .proto _ _ | .write .txWr0 _ _
  | .write .txWr1 _ _ | .write .rxRd0 _ _ | .write .rxRd1 _ _ | .write .unsupported _ _ =>
    inferInstanceAs (Decidable True)
  | .processIo _ => by
    unfold SteadyDatagrams
    infer_instance
  | .writeTxBuffer _ _ | .reset | .addToSets | .selectFails => inferInstanceAs (Decidable True)

/-! ## The invariant -/

/-- The lengths in the queue cut the ring into the datagrams, from `txRr` up to
`sendWr`. -/
def Queued (sendWr : UInt16) : UInt16 → List Int → List Datagram → Prop
  | txRr, [], [] => txRr = sendWr
  | txRr, length :: lengths, d :: ds =>
    (UInt16.ofInt length).toNat ≤ bufferSize ∧
      d.slots.map Prod.fst =
        ringRead bufferSize (fun place => place) txRr.toNat (UInt16.ofInt length).toNat ∧
      Queued sendWr (txRr + UInt16.ofInt length) lengths ds
  | _, _, _ => False

/-- The bytes of the datagrams are the ones in the ring. -/
def Untouched (txBuffer : Buffer) (ds : List Datagram) : Prop :=
  ∀ d ∈ ds, ∀ slot ∈ d.slots, slot.2 = txBuffer slot.1

structure UdpLink (s : Socket) : Prop where
  queued : Queued s.udp.sendWr s.txRr s.datagramLengths s.udp.queue
  untouched : s.udp.overwritten = false → Untouched s.txBuffer s.udp.queue
  lastSend : s.lastSend = s.udp.sendWr.toNat
  settled : s.writePending = false → s.datagramLengths = []

structure UdpInv (s : Socket) : Prop where
  inOrder : s.udp.emitted.map Datagram.header <+: s.udp.requested.map Datagram.header
  unchanged : s.udp.overwritten = false → s.udp.emitted <+: s.udp.requested
  unblocked : s.udp.refused = true → s.udp.requested.length ≤ s.udp.emitted.length + 1
  withinBuffer : s.udp.overran = false
  link : s.state = .udp → UdpLink s

theorem Queued.length {sendWr : UInt16} {lengths : List Int} {ds : List Datagram} {txRr : UInt16}
    (queued : Queued sendWr txRr lengths ds) : ds.length = lengths.length := by
  induction lengths generalizing ds txRr with
  | nil =>
    cases ds with
    | nil => rfl
    | cons => exact queued.elim
  | cons length lengths ih =>
    cases ds with
    | nil => exact queued.elim
    | cons => simp [ih queued.2.2]

/-- A SEND cuts off what lies between the last SEND and itself. -/
theorem Queued.send {sendWr txWr : UInt16} {length : Int} {lengths : List Int}
    {d : Datagram} {ds : List Datagram} {txRr : UInt16} (queued : Queued sendWr txRr lengths ds)
    (cut : UInt16.ofInt length = txWr - sendWr) (fits : (txWr - sendWr).toNat ≤ bufferSize)
    (places : d.slots.map Prod.fst =
      ringRead bufferSize (fun place => place) sendWr.toNat (txWr - sendWr).toNat) :
    Queued txWr txRr (lengths ++ [length]) (ds ++ [d]) := by
  induction lengths generalizing ds txRr with
  | nil =>
    cases ds with
    | nil =>
      obtain rfl : txRr = sendWr := queued
      refine ⟨cut ▸ fits, cut ▸ places, ?_⟩
      rw [cut]
      rw [UInt16.add_comm, UInt16.sub_add_cancel]
      rfl
    | cons => exact queued.elim
  | cons first lengths ih =>
    cases ds with
    | nil => exact queued.elim
    | cons => exact ⟨queued.1, queued.2.1, ih queued.2.2⟩

theorem UdpInv.queueOk {s : Socket} (inv : UdpInv s) : UdpQueueOk s where
  inOrder := inv.inOrder
  unchanged := inv.unchanged
  unblocked := inv.unblocked
  withinBuffer := inv.withinBuffer
  all udp settled := by
    have link := inv.link udp
    have empty := link.queued.length
    have upTo := inv.inOrder.length_le
    rw [link.settled settled, UdpHistory.queue, List.length_drop] at empty
    simp only [List.length_map, List.length_nil] at upTo empty
    omega

/-- What is asked for is what was emitted and what is queued. -/
theorem UdpInv.requested_header {s : Socket} (inv : UdpInv s) :
    s.udp.requested.map Datagram.header =
      s.udp.emitted.map Datagram.header ++ s.udp.queue.map Datagram.header := by
  have whole := List.prefix_iff_eq_append.mp inv.inOrder
  rw [List.length_map, ← List.map_drop] at whole
  exact whole.symm

theorem UdpInv.requested_eq {s : Socket} (inv : UdpInv s) (kept : s.udp.overwritten = false) :
    s.udp.requested = s.udp.emitted ++ s.udp.queue :=
  (List.prefix_iff_eq_append.mp (inv.unchanged kept)).symm

theorem UdpInv.emitted_le {s : Socket} (inv : UdpInv s) :
    s.udp.emitted.length ≤ s.udp.requested.length := by
  simpa using inv.inOrder.length_le

/-! ## Steps that leave the queue alone -/

theorem UdpHistory.record_receives (h : UdpHistory) (event : Event) (receives : event.Receives) :
    h.record event = h := by
  cases event <;> first | rfl | exact receives.elim

/-- The history and the queue are as they were, or the socket is no UDP socket. -/
structure UdpQuiet (s t : Socket) : Prop where
  history : t.udp = s.udp
  queue : t.state = .udp → s.state = .udp ∧ t.txRr = s.txRr ∧ t.txBuffer = s.txBuffer ∧
    t.lastSend = s.lastSend ∧ t.datagramLengths = s.datagramLengths ∧
    t.writePending = s.writePending

theorem TxFrame.udpQuiet {s t : Socket} (frame : TxFrame s t) : UdpQuiet s t := by
  obtain ⟨events, trace, receives⟩ := frame.events
  refine ⟨?_, fun udp => ⟨frame.udp udp, frame.txRr, frame.txBuffer, frame.lastSend,
    frame.datagramLengths, ?_⟩⟩
  · rw [Socket.udp, trace]
    exact foldl_receives UdpHistory.record_receives _ receives
  · rcases frame.pending with same | ⟨-, -, notUdp⟩
    · exact same
    · exact absurd udp notUdp

theorem UdpInv.quiet {s t : Socket} (inv : UdpInv s) (quiet : UdpQuiet s t) : UdpInv t := by
  obtain ⟨history, queue⟩ := quiet
  refine ⟨?_, ?_, ?_, ?_, ?_⟩
  · exact history ▸ inv.inOrder
  · exact history ▸ inv.unchanged
  · exact history ▸ inv.unblocked
  · exact history ▸ inv.withinBuffer
  · intro udp
    obtain ⟨udp', txRr, txBuffer, lastSend, lengths, pending⟩ := queue udp
    have link := inv.link udp'
    refine ⟨?_, ?_, ?_, ?_⟩
    · rw [history, txRr, lengths]
      exact link.queued
    · rw [history, txBuffer]
      exact link.untouched
    · rw [history, lastSend]
      exact link.lastSend
    · rw [pending, lengths]
      exact link.settled

/-- The bytes of a connection are no datagrams. -/
theorem processTcpWrite_udpQuiet {s : Socket} (sent : Option Nat) (stream : s.state ≠ .udp) :
    UdpQuiet s (processTcpWrite s sent) := by
  have handed (count : Nat) : UdpQuiet s (bytesHanded s count) :=
    ⟨udpHistory_snoc _ _, fun udp => absurd udp stream⟩
  unfold processTcpWrite
  split
  · exact ⟨rfl, fun udp => absurd udp stream⟩
  dsimp only
  split
  · split
    · exact ⟨(udpHistory_snoc _ _).trans (handed _).history, fun udp => absurd udp stream⟩
    · exact handed _
  · exact ⟨rfl, fun udp => absurd udp stream⟩

/-! ## Steps that move the queue -/

theorem UdpInv.fresh {s : Socket} (history : s.udp = {}) (txRr : s.txRr = 0)
    (lastSend : s.lastSend = 0) (lengths : s.datagramLengths = []) : UdpInv s := by
  have empty : s.udp.queue = [] := by
    rw [history]
    rfl
  refine ⟨?_, ?_, ?_, ?_, fun _ => ⟨?_, ?_, ?_, fun _ => lengths⟩⟩
  · rw [history]
  · rw [history]
    exact fun _ => List.prefix_rfl
  · rw [history]
    exact nofun
  · rw [history]
  · rw [empty, history, txRr, lengths]
    rfl
  · rw [empty]
    exact fun _ d member => absurd member List.not_mem_nil
  · rw [history]
    exact lastSend

theorem socketClean_freshUdp (s : Socket) :
    (socketClean s).udp = {} ∧ (socketClean s).txRr = 0 ∧ (socketClean s).lastSend = 0 ∧
      (socketClean s).datagramLengths = [] := by
  unfold socketClean
  dsimp only
  split <;> exact ⟨udpHistory_snoc _ _, rfl, rfl, rfl⟩

theorem socketReset_udpInv (s : Socket) : UdpInv (socketReset s) := by
  obtain ⟨history, txRr, lastSend, lengths⟩ :=
    socketClean_freshUdp { s with mode := .closed, state := .closed }
  exact .fresh history txRr lastSend lengths

theorem UdpInv.socketOpen {s : Socket} (inv : UdpInv s) (host : HostResults) :
    UdpInv (socketOpen s host) := by
  unfold FuseX.W5100.socketOpen
  split
  · obtain ⟨history, txRr, lastSend, lengths⟩ := socketClean_freshUdp s
    dsimp only
    split <;> exact .fresh history txRr lastSend lengths
  · exact inv

/-! ### SEND -/

/-- The datagram of a SEND. -/
def Socket.nextDatagram (s : Socket) : Datagram :=
  ⟨slots s.txBuffer s.udp.sendWr.toNat (s.txWr - s.udp.sendWr).toNat, s.dip, s.dport⟩

theorem udp_sendCommand {s : Socket} (udp : s.state = .udp) :
    (s.note (.sendCommand s.state s.txWr s.txBuffer s.dip s.dport)).udp =
      { s.udp with
        requested := s.udp.requested ++ [s.nextDatagram]
        sendWr := s.txWr } :=
  (udpHistory_snoc _ _).trans (if_pos udp)

theorem slots_untouched (buffer : Buffer) (start count : Nat) :
    ∀ slot ∈ slots buffer start count, slot.2 = buffer slot.1 := by
  intro slot member
  obtain ⟨i, -, rfl⟩ := List.mem_map.mp member
  rfl

/-- The queue behind an accepted SEND. -/
theorem UdpLink.send {s t : Socket} (inv : UdpInv s) (link : UdpLink s)
    (fits : (s.txWr - s.udp.sendWr).toNat ≤ bufferSize)
    (history : t.udp =
      { s.udp with
        requested := s.udp.requested ++ [s.nextDatagram]
        sendWr := s.txWr })
    (txRr : t.txRr = s.txRr) (txBuffer : t.txBuffer = s.txBuffer)
    (lengths : t.datagramLengths = s.datagramLengths ++ [(s.txWr.toNat : Int) - s.lastSend])
    (lastSend : t.lastSend = s.txWr.toNat) (pending : t.writePending = true) :
    UdpLink t := by
  have queue : t.udp.queue = s.udp.queue ++ [s.nextDatagram] := by
    rw [history]
    exact List.drop_append_of_le_length inv.emitted_le
  refine ⟨?_, ?_, ?_, ?_⟩
  · rw [queue, history, txRr, lengths]
    refine link.queued.send ?_ fits (map_fst_slots _ _ _)
    rw [link.lastSend, ofInt_sub_word]
  · rw [queue, history, txBuffer]
    intro kept d member
    rcases List.mem_append.mp member with member | member
    · exact link.untouched kept d member
    · obtain rfl := List.mem_singleton.mp member
      exact slots_untouched _ _ _
  · rw [history]
    exact lastSend
  · rw [pending]
    exact nofun

theorem UdpInv.socketSend {s : Socket} (inv : UdpInv s) (host : HostResults)
    (steady : s.state = .udp →
      s.datagramLengths.length < maxDatagrams ∧ (s.txWr - s.udp.sendWr).toNat ≤ bufferSize ∧
        s.udp.refused = false) :
    UdpInv (socketSend s host) := by
  by_cases udp : s.state = .udp
  · obtain ⟨room, fits, unrefused⟩ := steady udp
    have history := udp_sendCommand udp
    have noted {t : Socket} (same : t.trace =
        (s.note (.sendCommand s.state s.txWr s.txBuffer s.dip s.dport)).trace)
        (link : t.state = .udp → UdpLink t) : UdpInv t := by
      have history' : t.udp = _ := (congrArg udpHistory same).trans history
      refine ⟨?_, ?_, ?_, ?_, link⟩
      all_goals rw [history']
      · rw [List.map_append]
        exact inv.inOrder.trans (List.prefix_append _ _)
      · exact fun kept => (inv.unchanged kept).trans (List.prefix_append _ _)
      · exact fun refused => absurd (unrefused.symm.trans refused) nofun
      · exact inv.withinBuffer
    unfold FuseX.W5100.socketSend
    dsimp only
    rw [show (s.note (.sendCommand s.state s.txWr s.txBuffer s.dip s.dport)).state = .udp from udp]
    unfold sendDatagram
    dsimp only
    rcases bindIfNeeded_cases (s.note (.sendCommand s.state s.txWr s.txBuffer s.dip s.dport)) host
      with bound | failed
    · rw [bound]
      dsimp only
      split
      · rename_i full
        exact absurd full (Nat.not_le.mpr room)
      · exact noted rfl fun _ => (inv.link udp).send inv fits history rfl rfl rfl rfl rfl
    · rw [failed]
      exact noted rfl nofun
  · -- the SEND of another socket is no datagram
    have noted : (s.note (.sendCommand s.state s.txWr s.txBuffer s.dip s.dport)).udp = s.udp :=
      (udpHistory_snoc _ _).trans (if_neg udp)
    unfold FuseX.W5100.socketSend
    dsimp only
    split
    · exact absurd ‹_› udp
    · exact inv.quiet ⟨noted, fun isUdp => absurd isUdp udp⟩
    · exact inv.quiet ⟨noted, fun isUdp => absurd isUdp udp⟩

/-! ### The transmit buffer -/

theorem UdpInv.writeTxBuffer {s : Socket} (inv : UdpInv s) (address : UInt16) (b : UInt8) :
    UdpInv (socketWriteTxBuffer s address b) := by
  have history : (socketWriteTxBuffer s address b).udp =
      { s.udp with
        overwritten := s.udp.overwritten ||
          s.udp.queue.any fun d =>
            (d.slots.map Prod.fst).contains (address.toNat % bufferSize) } :=
    udpHistory_snoc _ _
  refine ⟨?_, ?_, ?_, ?_, fun udp => ?_⟩
  · exact history ▸ inv.inOrder
  · rw [history]
    exact fun kept => inv.unchanged (Bool.or_eq_false_iff.mp kept).1
  · exact history ▸ inv.unblocked
  · exact history ▸ inv.withinBuffer
  · have link := inv.link udp
    refine ⟨?_, ?_, ?_, link.settled⟩
    · exact history ▸ link.queued
    · rw [history]
      intro kept d member slot inside
      obtain ⟨before, elsewhere⟩ := Bool.or_eq_false_iff.mp kept
      have other : slot.1 ≠ address.toNat % bufferSize := by
        intro same
        have here := List.any_eq_false.mp elsewhere d member
        rw [List.contains_iff_mem, ← same] at here
        exact here (List.mem_map_of_mem inside)
      rw [link.untouched before d member slot inside]
      exact (Function.update_of_ne other _ _).symm
    · exact history ▸ link.lastSend

/-! ### The writes of the I/O thread -/

/-- What `sendto` is given is the slice of the ring, also where it wraps. -/
theorem datagramData_eq_slots (s : Socket) {length : Nat} (fits : length ≤ bufferSize) :
    datagramData s length = slots s.txBuffer s.txRr.toNat length := by
  have low : s.txRr.toNat % bufferSize < bufferSize := Nat.mod_lt _ (by decide)
  rw [← slots_start (Nat.mod_mod s.txRr.toNat bufferSize) length]
  unfold datagramData
  dsimp only
  split
  · rename_i wraps
    rw [slots, ringRead_wrapped (Nat.le_of_lt low) wraps fits]
    simp [readSlots]
  · exact readSlots_eq_slots (by omega)

/-- A datagram whose bytes are the ring's is read off the ring. -/
theorem Untouched.slots_eq {txBuffer : Buffer} {d : Datagram} {start count : Nat}
    (untouched : ∀ slot ∈ d.slots, slot.2 = txBuffer slot.1)
    (places : d.slots.map Prod.fst = ringRead bufferSize (fun place => place) start count) :
    d.slots = slots txBuffer start count := by
  have own : d.slots = (d.slots.map Prod.fst).map fun place => (place, txBuffer place) := by
    rw [List.map_map]
    conv_lhs => rw [← List.map_id d.slots]
    apply List.map_congr_left
    intro slot member
    exact Prod.ext rfl (untouched slot member)
  rw [own, places, map_ringRead]
  rfl

theorem udp_datagramSent (s : Socket) (data : List Slot) (rest : List Int) :
    (datagramSent s data rest).udp =
      { s.udp with emitted := s.udp.emitted ++ [⟨data, s.dip, s.dport⟩], refused := false } :=
  udpHistory_snoc _ _

/-- The oldest datagram is emitted. -/
theorem UdpInv.datagramSent {s : Socket} {first : Int} {rest : List Int} {d : Datagram}
    {ds : List Datagram} (inv : UdpInv s) (udp : s.state = .udp)
    (lengths : s.datagramLengths = first :: rest) (queue : s.udp.queue = d :: ds)
    (dip : s.dip = d.dip) (dport : s.dport = d.dport) (busy : s.writePending = true) :
    UdpInv (datagramSent s (datagramData s (UInt16.ofInt first).toNat) rest) := by
  have link := inv.link udp
  have queued := link.queued
  rw [lengths, queue] at queued
  obtain ⟨fits, places, behind⟩ := queued
  have data := datagramData_eq_slots s fits
  have count : (datagramData s (UInt16.ofInt first).toNat).length = (UInt16.ofInt first).toNat := by
    rw [data, length_slots]
  have header : Datagram.header ⟨datagramData s (UInt16.ofInt first).toNat, s.dip, s.dport⟩ =
      d.header := by
    rw [Datagram.header, Datagram.header, data, map_fst_slots, places, dip, dport]
  have history := udp_datagramSent s (datagramData s (UInt16.ofInt first).toNat) rest
  have queue' : (FuseX.W5100.datagramSent s (datagramData s (UInt16.ofInt first).toNat)
      rest).udp.queue = ds := by
    have dropped : s.udp.requested.drop (s.udp.emitted.length + 1) = ds := by
      rw [← List.drop_drop]
      exact congrArg (List.drop 1) queue
    rw [history, UdpHistory.queue, List.length_append]
    exact dropped
  refine ⟨?_, ?_, ?_, ?_, fun _ => ⟨?_, ?_, ?_, ?_⟩⟩
  · rw [history, List.map_append, List.map_singleton, header, inv.requested_header, queue]
    exact ⟨ds.map Datagram.header, by simp⟩
  · rw [history]
    intro kept
    have same : d = ⟨datagramData s (UInt16.ofInt first).toNat, s.dip, s.dport⟩ := by
      have untouched := link.untouched kept d (queue ▸ List.mem_cons_self)
      rw [data, dip, dport, ← Untouched.slots_eq untouched places]
    rw [inv.requested_eq kept, queue, ← same]
    exact ⟨ds, by simp⟩
  · rw [history]
    exact nofun
  · rw [history]
    exact inv.withinBuffer
  · rw [queue', history]
    have txRr : (FuseX.W5100.datagramSent s (datagramData s (UInt16.ofInt first).toNat) rest).txRr =
        s.txRr + UInt16.ofInt first := by
      show s.txRr + UInt16.ofNat (datagramData s (UInt16.ofInt first).toNat).length = _
      rw [count, UInt16.ofNat_toNat]
    rw [txRr]
    exact behind
  · rw [queue', history]
    intro kept e member
    exact link.untouched kept e (queue ▸ List.mem_cons_of_mem _ member)
  · rw [history]
    exact link.lastSend
  · exact fun settled => absurd (busy.symm.trans settled) nofun

theorem UdpInv.sendComplete {s : Socket} (inv : UdpInv s) (empty : s.datagramLengths = []) :
    UdpInv (sendComplete s) := by
  have history : (FuseX.W5100.sendComplete s).udp = s.udp := udpHistory_snoc _ _
  refine ⟨?_, ?_, ?_, ?_, fun udp => ?_⟩
  · exact history ▸ inv.inOrder
  · exact history ▸ inv.unchanged
  · exact history ▸ inv.unblocked
  · exact history ▸ inv.withinBuffer
  · have link := inv.link udp
    refine ⟨?_, ?_, ?_, fun _ => empty⟩
    · exact history ▸ link.queued
    · exact history ▸ link.untouched
    · exact history ▸ link.lastSend

/-- `sendto` refuses the only datagram of the queue. -/
theorem UdpInv.refused {s : Socket} (inv : UdpInv s) (alone : s.udp.queue.length = 1) :
    UdpInv (s.note .refused) := by
  have history : (s.note .refused).udp = { s.udp with refused := true } := udpHistory_snoc _ _
  refine ⟨?_, ?_, ?_, ?_, fun udp => ?_⟩
  · exact history ▸ inv.inOrder
  · exact history ▸ inv.unchanged
  · rw [history]
    rw [UdpHistory.queue, List.length_drop] at alone
    intro _
    dsimp only
    omega
  · exact history ▸ inv.withinBuffer
  · have link := inv.link udp
    refine ⟨?_, ?_, ?_, link.settled⟩
    · exact history ▸ link.queued
    · exact history ▸ link.untouched
    · exact history ▸ link.lastSend

theorem UdpInv.processUdpWrite {s : Socket} (inv : UdpInv s) (sent : Option Nat)
    (udp : s.state = .udp) (steady : Delivers s sent) : UdpInv (processUdpWrite s sent) := by
  unfold FuseX.W5100.processUdpWrite
  split
  · exact inv
  rename_i first rest lengths
  have link := inv.link udp
  have queued := link.queued
  rw [lengths] at queued
  cases queue : s.udp.queue with
  | nil =>
    rw [queue] at queued
    exact queued.elim
  | cons d ds =>
    rw [queue] at queued
    obtain ⟨fits, places, -⟩ := queued
    have length : d.slots.length = (UInt16.ofInt first).toNat := by
      simpa using congrArg List.length places
    have oldest := steady d (by rw [queue]; rfl)
    rw [length] at oldest
    have busy : s.writePending = true := by
      by_contra settled
      have empty := link.settled (Bool.eq_false_of_not_eq_true settled)
      exact absurd (lengths.symm.trans empty) nofun
    dsimp only
    rw [if_neg (Nat.not_lt.mpr fits)]
    rcases oldest with ⟨taken, dip, dport⟩ | ⟨refused, alone⟩
    · have emitted := inv.datagramSent udp lengths queue dip dport busy
      rw [if_pos taken]
      split
      · exact emitted.sendComplete ‹_›
      · exact emitted
    · rw [if_neg refused]
      exact inv.refused alone

/-! ## Steps and runs -/

theorem UdpInv.writeIfReady {s : Socket} (inv : UdpInv s) (io : IoResults)
    (steady : io.writeReady = true → s.state = .udp → Delivers s io.sent) :
    UdpInv (writeIfReady s io) := by
  unfold FuseX.W5100.writeIfReady
  split
  · rename_i ready
    split
    · rename_i udp
      exact inv.processUdpWrite io.sent udp (steady ready udp)
    · rename_i established
      exact inv.quiet (processTcpWrite_udpQuiet io.sent (by simp [established]))
    · exact inv
  · exact inv

theorem UdpInv.processIo {s : Socket} (inv : UdpInv s) (io : IoResults)
    (steady : io.writeReady = true → s.state = .udp → Delivers s io.sent) :
    UdpInv (processIo s io) := by
  rcases processIo_cases s io with idle | ⟨read, reads, rest⟩
  · rw [idle]
    exact inv
  · have quiet := reads.udpQuiet
    have written : UdpInv (FuseX.W5100.writeIfReady read io) := by
      apply (inv.quiet quiet).writeIfReady io
      intro ready udp
      rw [Delivers, reads.dip, reads.dport, quiet.history]
      exact steady ready (reads.udp udp)
    exact written.quiet rest.udpQuiet

theorem step_udpInv {s t : System} {act : Act} (inv : UdpInv s.socket)
    (steady : SteadyDatagrams s act) (stepEq : step s act = some t) : UdpInv t.socket := by
  have counted {u : Socket} (command : UdpInv u) : UdpInv { u with bindCount := 0 } :=
    command.quiet ⟨rfl, fun udp => ⟨udp, rfl, rfl, rfl, rfl, rfl⟩⟩
  rcases step_cases stepEq with ⟨reg, b, host⟩ | ⟨address, b⟩ | _ | _ | _ | ⟨io, sets, _, _⟩
  · rcases socketWrite_cases s.socket reg b host with
      quiet | ⟨rfl, command, t, decoded, written, cases⟩
    · exact inv.quiet quiet.txFrame.udpQuiet
    · dsimp only
      rw [written]
      rcases cases with ⟨rfl, rfl⟩ | ⟨rfl, rfl⟩ | ⟨rfl, rfl⟩
      · exact counted (inv.socketOpen host)
      · exact counted (inv.socketSend host (steady decoded))
      · exact counted (inv.quiet (socketRecv_txFrame _).udpQuiet)
  · exact inv.writeTxBuffer address b
  · exact socketReset_udpInv _
  · exact inv.quiet (addToSets_txFrame _).udpQuiet
  · exact inv
  · exact inv.processIo io steady

/-- In every run that meets `SteadyDatagrams`, the send queue is right in every
state. -/
theorem udp_queue_ok {txBuffer rxBuffer : Buffer} {acts : List Act} {s : System}
    (run : Runs step SteadyDatagrams (System.start txBuffer rxBuffer) acts s) :
    UdpQueueOk s.socket :=
  (run.invariant (UdpInv.fresh rfl rfl rfl rfl) fun _ _ _ => step_udpInv).queueOk

/-- A turn of the I/O thread in which `sendto` answers `sent`. -/
def sendtoTurn (sent : Option Nat) : List Act :=
  [.addToSets, .processIo { writeReady := true, sent := sent }]

/-- OPEN of a UDP socket, and the last byte of its destination address. -/
def openUdp : List Act :=
  [writeRegister .mr 0x02, writeRegister .cr 0x01, writeRegister (.dipr (Fin.last 3)) 9]

/-- Two datagrams of two and three bytes. -/
def sendTwoDatagrams : List Act :=
  openUdp ++ [writeRegister .txWr1 2, writeRegister .cr 0x20] ++
    [writeRegister .txWr1 5, writeRegister .cr 0x20] ++ sendtoTurn (some 2) ++ sendtoTurn (some 3)

theorem udp_queue_two :
    ∃ s, Runs step SteadyDatagrams (System.start (fun _ => 7) (fun _ => 0)) sendTwoDatagrams s ∧
      UdpQueueOk s.socket := by
  have evaluates : (sendTwoDatagrams.foldlM (guarded step SteadyDatagrams)
      (System.start (fun _ => 7) (fun _ => 0))).isSome = true := by decide
  obtain ⟨s, eval⟩ := Option.isSome_iff_exists.mp evaluates
  exact ⟨s, .of_guarded eval, udp_queue_ok (.of_guarded eval)⟩

/-- Two datagrams for two destinations are queued before the I/O thread turns. -/
def sendToTwo : List Act :=
  openUdp ++ [writeRegister .txWr1 2, writeRegister .cr 0x20] ++
    [writeRegister (.dipr (Fin.last 3)) 5, writeRegister .txWr1 5, writeRegister .cr 0x20] ++
    sendtoTurn (some 2)

/-- The first goes to the destination of the second. -/
theorem udp_wrong_destination :
    ¬ ∀ (txBuffer rxBuffer : Buffer) (acts : List Act) (s : System),
      Runs step anyStep (System.start txBuffer rxBuffer) acts s → UdpQueueOk s.socket := by
  intro always
  have ok := always (fun _ => 0) (fun _ => 0) sendToTwo _ (Runs.of_foldlM rfl)
  have emitted := ok.inOrder
  exact absurd emitted (by decide)

/-- The first datagram is refused and stays before the second. -/
theorem udp_blocked :
    ∃ s, Runs step anyStep (System.start (fun _ => 0) (fun _ => 0))
        (openUdp ++ [writeRegister .txWr1 2, writeRegister .cr 0x20] ++
          [writeRegister .txWr1 5, writeRegister .cr 0x20] ++ sendtoTurn none ++ sendtoTurn none) s ∧
      s.socket.udp.refused = true ∧ s.socket.udp.emitted.length + 2 = s.socket.udp.requested.length :=
  ⟨_, Runs.of_foldlM rfl, by decide, by decide⟩

end FuseX.W5100
