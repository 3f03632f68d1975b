import FuseX.Lib.Runs
import FuseX.W5100.Frame

/-!
# The transmit stream of a TCP socket

What the connection is given, in every interleaving of register and buffer
writes with turns of the I/O thread.

* `TcpHistory` reads off the trace what the SENDs asked for and what was handed
  to the connection;
* `TcpStreamOk` is the statement about one state;
* `TcpLink` ties the history to TX_RR: what is asked for and not handed over is
  what the ring holds from TX_RR up to the TX_WR of the last SEND.
-/

namespace FuseX.W5100

open Lib

theorem bufferSize_dvd : bufferSize ∣ 65536 := ⟨32, rfl⟩

/-- The places of the transmit ring from `start` on, with their bytes. -/
def slots (buffer : Buffer) (start count : Nat) : List Slot :=
  ringRead bufferSize (fun place => (place, buffer place)) start count

/-! ## Statements -/

/-- The transmit side of a connection, since OPEN. -/
structure TcpHistory : Type where
  /-- The ring between the TX_WR of one SEND and that of the next, at the second. -/
  requested : List Slot := []
  handed : List Slot := []
  /-- TX_WR at the last SEND. -/
  sendWr : UInt16 := 0
  sendWritten : Bool := false
  /-- SEND_OK was raised since the last SEND. -/
  sendOk : Bool := false
  /-- The driver wrote to a place that it had asked to send and that was not sent. -/
  overwritten : Bool := false

namespace TcpHistory

/-- The places that are asked for and not handed over. -/
def unsentPlaces (h : TcpHistory) : List Nat :=
  (h.requested.drop h.handed.length).map Prod.fst

def record (h : TcpHistory) : Event → TcpHistory
  | .cleaned => {}
  | .sendCommand state txWr txBuffer _ _ =>
    if state = .established ∨ state = .closeWait then
      { h with
        requested :=
          h.requested ++ slots txBuffer h.sendWr.toNat (txWr - h.sendWr).toNat
        sendWr := txWr
        sendWritten := true
        sendOk := false }
    else h
  | .txBufferWritten place =>
    { h with overwritten := h.overwritten || h.unsentPlaces.contains place }
  | .handed taken => { h with handed := h.handed ++ taken }
  | .sendOk => { h with sendOk := true }
  | _ => h

end TcpHistory

def tcpHistory (trace : List Event) : TcpHistory :=
  trace.foldl TcpHistory.record {}

@[simp] theorem tcpHistory_snoc (trace : List Event) (event : Event) :
    tcpHistory (trace ++ [event]) = (tcpHistory trace).record event := by
  simp [tcpHistory]

def Socket.tcp (s : Socket) : TcpHistory := tcpHistory s.trace

/-- The transmit stream of a connection. -/
structure TcpStreamOk (s : Socket) : Prop where
  /-- The places handed over are the ones between the SENDs, in order and once each,
  and none beyond the last SEND. -/
  inOrder : s.tcp.handed.map Prod.fst <+: s.tcp.requested.map Prod.fst
  /-- So are the bytes, unless the driver itself changed them. -/
  unchanged : s.tcp.overwritten = false → s.tcp.handed <+: s.tcp.requested
  /-- Nothing is left over when no write is pending. -/
  all : s.state = .established → s.writePending = false →
    s.tcp.handed.length = s.tcp.requested.length
  /-- Once TX_RR is the TX_WR of the last SEND, that SEND has completed. -/
  completed : s.tcp.sendWritten = true → s.txRr = s.tcp.sendWr →
    s.writePending = false ∧ s.tcp.sendOk = true

/-- The I/O thread meets TX_WR as the last SEND left it, and a SEND comes with
bytes to send, of which fewer than 65536 are outstanding. -/
def SteadySend (s : System) : Act → Prop
  | .write .cr b _ =>
    Command.ofByte b = some .send →
      s.socket.state = .established ∨ s.socket.state = .closeWait →
      s.socket.txWr ≠ s.socket.txRr ∧
        (s.socket.tcp.sendWr - s.socket.txRr).toNat +
          (s.socket.txWr - s.socket.tcp.sendWr).toNat < 65536
  | .processIo io =>
    io.writeReady = true → s.socket.state ≠ .udp → s.socket.txWr = s.socket.tcp.sendWr
  | _ => True

instance (s : System) : (act : Act) → Decidable (SteadySend s act)
  | .write .cr _ _ => by
    unfold SteadySend
    infer_instance
  | .write .mr _ _ | .write .ir _ _ | .write (.port _) _ _ | .write (.dipr _) _ _
  | .write (.dport _) _ _ | .write (.mssr _) _ _ | .write .proto _ _ | .write .txWr0 _ _
  | .write .txWr1 _ _ | .write .rxRd0 _ _ | .write .rxRd1 _ _ | .write .unsupported _ _ =>
    inferInstanceAs (Decidable True)
  | .processIo _ => by
    unfold SteadySend
    infer_instance
  | .writeTxBuffer _ _ | .reset | .addToSets | .selectFails => inferInstanceAs (Decidable True)

/-! ## The invariant -/

/-- What is asked for and not handed over. -/
def Socket.unsent (s : Socket) : List Slot :=
  slots s.txBuffer s.txRr.toNat (s.tcp.sendWr - s.txRr).toNat

structure TcpLink (s : Socket) : Prop where
  places : s.tcp.requested.map Prod.fst = s.tcp.handed.map Prod.fst ++ s.unsent.map Prod.fst
  bytes : s.tcp.overwritten = false → s.tcp.requested = s.tcp.handed ++ s.unsent
  settled : s.writePending = false → s.txRr = s.tcp.sendWr

structure TcpInv (s : Socket) : Prop where
  inOrder : s.tcp.handed.map Prod.fst <+: s.tcp.requested.map Prod.fst
  unchanged : s.tcp.overwritten = false → s.tcp.handed <+: s.tcp.requested
  completed : s.tcp.sendWritten = true → s.txRr = s.tcp.sendWr →
    s.writePending = false ∧ s.tcp.sendOk = true
  udp : s.state = .udp → s.tcp.sendWritten = false
  link : Streaming s.state → TcpLink s

theorem length_slots (buffer : Buffer) (start count : Nat) :
    (slots buffer start count).length = count :=
  length_ringRead start count

theorem map_fst_slots (buffer : Buffer) (start count : Nat) :
    (slots buffer start count).map Prod.fst =
      ringRead bufferSize (fun place => place) start count :=
  map_ringRead Prod.fst start count

theorem slots_add (buffer : Buffer) (start first rest : Nat) :
    slots buffer start (first + rest) =
      slots buffer start first ++ slots buffer (start + first) rest :=
  ringRead_add start first rest

theorem slots_start {buffer : Buffer} {start start' : Nat}
    (same : start % bufferSize = start' % bufferSize) (count : Nat) :
    slots buffer start count = slots buffer start' count :=
  ringRead_start same count

/-- The slots of a write that stops at the end of the buffer. -/
theorem readSlots_eq_slots {buffer : Buffer} {offset count : Nat}
    (inside : offset + count ≤ bufferSize) :
    readSlots buffer offset count = slots buffer offset count := by
  rw [slots, ringRead_contiguous inside]
  rfl

theorem TcpInv.streamOk {s : Socket} (inv : TcpInv s) : TcpStreamOk s where
  inOrder := inv.inOrder
  unchanged := inv.unchanged
  completed := inv.completed
  all established settled := by
    have link := inv.link (.inr (.inr established))
    have places := congrArg List.length link.places
    have reached : (s.tcp.sendWr - s.txRr).toNat = 0 :=
      toNat_sub_word_eq_zero.mpr (link.settled settled)
    simp only [List.length_map, List.length_append, Socket.unsent, length_slots, reached] at places
    omega

/-- The places that were asked for and not handed over, read off the ring. -/
theorem TcpLink.unsentPlaces {s : Socket} (link : TcpLink s) :
    s.tcp.unsentPlaces = s.unsent.map Prod.fst := by
  have length : s.tcp.handed.length = (s.tcp.handed.map Prod.fst).length := by simp
  rw [TcpHistory.unsentPlaces, List.map_drop, link.places, length, List.drop_left]

theorem TcpLink.inOrder {s : Socket} (link : TcpLink s) :
    s.tcp.handed.map Prod.fst <+: s.tcp.requested.map Prod.fst := by
  rw [link.places]
  exact List.prefix_append _ _

theorem TcpLink.unchanged {s : Socket} (link : TcpLink s) (kept : s.tcp.overwritten = false) :
    s.tcp.handed <+: s.tcp.requested := by
  rw [link.bytes kept]
  exact List.prefix_append _ _

/-! ## Steps that leave the stream alone -/

theorem TcpHistory.record_receives (h : TcpHistory) (event : Event) (receives : event.Receives) :
    h.record event = h := by
  cases event <;> first | rfl | exact receives.elim

/-- The history and what it is tied to are as they were, or the connection is closed. -/
structure TcpQuiet (s t : Socket) : Prop where
  history : t.tcp = s.tcp
  txRr : t.txRr = s.txRr
  txBuffer : t.txBuffer = s.txBuffer
  pending : t.writePending = s.writePending ∨ t.writePending = false ∧ ¬ Streaming t.state
  streaming : Streaming t.state → Streaming s.state
  udp : t.state = .udp → s.state = .udp

theorem TxFrame.tcpQuiet {s t : Socket} (frame : TxFrame s t) : TcpQuiet s t := by
  obtain ⟨events, trace, receives⟩ := frame.events
  refine ⟨?_, frame.txRr, frame.txBuffer, frame.pending.imp id fun closed => ⟨closed.1, closed.2.1⟩,
    frame.streaming, frame.udp⟩
  rw [Socket.tcp, trace]
  exact foldl_receives TcpHistory.record_receives _ receives

theorem TcpInv.quiet {s t : Socket} (inv : TcpInv s) (quiet : TcpQuiet s t) : TcpInv t := by
  obtain ⟨history, txRr, txBuffer, pending, streaming, udp⟩ := quiet
  refine ⟨?_, ?_, ?_, ?_, ?_⟩
  · rw [history]
    exact inv.inOrder
  · rw [history]
    exact inv.unchanged
  · rw [history, txRr]
    intro written reached
    obtain ⟨settled, sendOk⟩ := inv.completed written reached
    refine ⟨?_, sendOk⟩
    rcases pending with same | ⟨cleared, -⟩
    · exact same.trans settled
    · exact cleared
  · rw [history]
    exact inv.udp ∘ udp
  · intro open_
    have link := inv.link (streaming open_)
    have unsent : t.unsent = s.unsent := by rw [Socket.unsent, Socket.unsent, history, txRr, txBuffer]
    refine ⟨?_, ?_, ?_⟩
    · rw [history, unsent]
      exact link.places
    · rw [history, unsent]
      exact link.bytes
    · rw [history, txRr]
      rcases pending with same | ⟨-, closed⟩
      · rw [same]
        exact link.settled
      · exact absurd open_ closed

/-! ## Steps that move the stream -/

/-- The history of a socket that starts anew. -/
theorem TcpInv.fresh {s : Socket} (history : s.tcp = {}) (txRr : s.txRr = 0) : TcpInv s := by
  have unsent : s.unsent = [] := by
    rw [Socket.unsent, history, txRr]
    rfl
  refine ⟨?_, ?_, ?_, ?_, fun _ => ⟨?_, ?_, ?_⟩⟩
  all_goals simp [history, unsent, txRr]

theorem socketClean_fresh (s : Socket) :
    (socketClean s).tcp = {} ∧ (socketClean s).txRr = 0 := by
  unfold socketClean
  dsimp only
  split <;> exact ⟨tcpHistory_snoc _ _, rfl⟩

theorem socketReset_inv (s : Socket) : TcpInv (socketReset s) := by
  obtain ⟨history, txRr⟩ := socketClean_fresh { s with mode := .closed, state := .closed }
  exact .fresh history txRr

theorem TcpInv.socketOpen {s : Socket} (inv : TcpInv s) (host : HostResults) :
    TcpInv (socketOpen s host) := by
  unfold FuseX.W5100.socketOpen
  split
  · obtain ⟨history, txRr⟩ := socketClean_fresh s
    dsimp only
    split <;> exact .fresh history txRr
  · exact inv

/-- A stream that is linked to the ring. -/
theorem TcpLink.inv {s : Socket} (link : TcpLink s) (stream : s.state ≠ .udp)
    (completed : s.txRr = s.tcp.sendWr → s.writePending = false ∧ s.tcp.sendOk = true) :
    TcpInv s :=
  ⟨link.inOrder, link.unchanged, fun _ => completed, fun udp => absurd udp stream, fun _ => link⟩

/-- Outside a stream only the history counts. -/
theorem TcpInv.unlinked {s : Socket} (closed : ¬ Streaming s.state)
    (inOrder : s.tcp.handed.map Prod.fst <+: s.tcp.requested.map Prod.fst)
    (unchanged : s.tcp.overwritten = false → s.tcp.handed <+: s.tcp.requested)
    (unwritten : s.tcp.sendWritten = false) : TcpInv s :=
  ⟨inOrder, unchanged, fun written => absurd written (by rw [unwritten]; decide),
    fun _ => unwritten, fun open_ => absurd open_ closed⟩

/-- The datagrams of a UDP socket are no part of a stream. -/
theorem TcpInv.sendDatagram {s : Socket} (inv : TcpInv s) (host : HostResults)
    (udp : s.state = .udp) : TcpInv (sendDatagram s host) := by
  have closed : ¬ Streaming s.state := udp ▸ not_streaming_udp
  have unwritten := inv.udp udp
  unfold FuseX.W5100.sendDatagram
  rcases bindIfNeeded_cases s host with bound | failed
  · rw [bound]
    dsimp only
    split
    · have history : (Socket.note { s with ir := s.ir ||| irSendOk } .sendOk).tcp =
          { s.tcp with sendOk := true } := tcpHistory_snoc _ _
      refine .unlinked closed ?_ ?_ ?_
      · exact history ▸ inv.inOrder
      · exact history ▸ inv.unchanged
      · exact history ▸ unwritten
    · exact .unlinked closed inv.inOrder inv.unchanged unwritten
  · rw [failed]
    exact .unlinked not_streaming_closed inv.inOrder inv.unchanged unwritten

/-- The history after a SEND to a connection. -/
theorem tcp_sendCommand {s : Socket} (connected : s.state = .established ∨ s.state = .closeWait) :
    (s.note (.sendCommand s.state s.txWr s.txBuffer s.dip s.dport)).tcp =
      { s.tcp with
        requested :=
          s.tcp.requested ++ slots s.txBuffer s.tcp.sendWr.toNat (s.txWr - s.tcp.sendWr).toNat
        sendWr := s.txWr
        sendWritten := true
        sendOk := false } :=
  (tcpHistory_snoc _ _).trans (if_pos connected)

/-- A SEND asks for what lies between the last SEND and itself. -/
theorem TcpLink.send {s t : Socket} (link : TcpLink s)
    (fits : (s.tcp.sendWr - s.txRr).toNat + (s.txWr - s.tcp.sendWr).toNat < 65536)
    (history : t.tcp =
      { s.tcp with
        requested :=
          s.tcp.requested ++ slots s.txBuffer s.tcp.sendWr.toNat (s.txWr - s.tcp.sendWr).toNat
        sendWr := s.txWr
        sendWritten := true
        sendOk := false })
    (txRr : t.txRr = s.txRr) (txBuffer : t.txBuffer = s.txBuffer) (pending : t.writePending = true) :
    TcpLink t := by
  have start : slots s.txBuffer s.tcp.sendWr.toNat (s.txWr - s.tcp.sendWr).toNat =
      slots s.txBuffer (s.txRr.toNat + (s.tcp.sendWr - s.txRr).toNat)
        (s.txWr - s.tcp.sendWr).toNat :=
    slots_start (place_sub_word bufferSize_dvd _ _).symm _
  have unsent : t.unsent =
      s.unsent ++ slots s.txBuffer s.tcp.sendWr.toNat (s.txWr - s.tcp.sendWr).toNat := by
    rw [Socket.unsent, history, txRr, txBuffer, start, Socket.unsent, ← slots_add,
      toNat_sub_trans_word fits]
  refine ⟨?_, ?_, ?_⟩
  · rw [unsent, history]
    simp only [List.map_append]
    rw [link.places, List.append_assoc]
  · rw [unsent, history]
    intro kept
    dsimp only
    rw [link.bytes kept, List.append_assoc]
  · rw [pending]
    exact nofun

theorem TcpInv.socketSend {s : Socket} (inv : TcpInv s) (host : HostResults)
    (steady : s.state = .established ∨ s.state = .closeWait →
      s.txWr ≠ s.txRr ∧
        (s.tcp.sendWr - s.txRr).toNat + (s.txWr - s.tcp.sendWr).toNat < 65536) :
    TcpInv (socketSend s host) := by
  have quiet (state : s.state ≠ .established ∧ s.state ≠ .closeWait) :
      TcpQuiet s (s.note (.sendCommand s.state s.txWr s.txBuffer s.dip s.dport)) := by
    refine ⟨(tcpHistory_snoc _ _).trans (if_neg ?_), rfl, rfl, .inl rfl, id, id⟩
    rintro (established | closeWait)
    · exact state.1 established
    · exact state.2 closeWait
  unfold FuseX.W5100.socketSend
  dsimp only
  split
  · rename_i state
    change s.state = .udp at state
    exact (inv.quiet (quiet (by simp [state]))).sendDatagram host state
  · rename_i state
    change s.state = .established at state
    have connected : s.state = .established ∨ s.state = .closeWait := .inl state
    obtain ⟨some_, fits⟩ := steady connected
    have history := tcp_sendCommand connected
    have link := inv.link (.inr (.inr state))
    have sent : TcpLink
        { s.note (.sendCommand s.state s.txWr s.txBuffer s.dip s.dport) with
          writePending := true } := link.send fits history rfl rfl rfl
    refine sent.inv (by simp [Socket.note, state]) ?_
    intro reached
    change s.txRr = (s.note _).tcp.sendWr at reached
    rw [history] at reached
    exact absurd reached.symm some_
  · rename_i _ notEstablished
    change ¬ s.state = .established at notEstablished
    by_cases state : s.state = .closeWait
    · -- the SEND is ignored, and what it asks for is not sent any more
      have connected : s.state = .established ∨ s.state = .closeWait := .inr state
      have history := tcp_sendCommand connected
      refine ⟨?_, ?_, ?_, ?_, ?_⟩
      · rw [history, List.map_append]
        exact inv.inOrder.trans (List.prefix_append _ _)
      · rw [history]
        exact fun kept => (inv.unchanged kept).trans (List.prefix_append _ _)
      · rw [history]
        exact fun _ reached => absurd reached.symm (steady connected).1
      · exact fun udp => absurd (state.symm.trans udp) nofun
      · exact fun open_ => absurd (state ▸ open_) not_streaming_closeWait
    · exact inv.quiet (quiet ⟨notEstablished, state⟩)

/-! ### The transmit buffer -/

/-- The driver writes to the transmit buffer. -/
theorem TcpInv.writeTxBuffer {s : Socket} (inv : TcpInv s) (address : UInt16) (b : UInt8) :
    TcpInv (socketWriteTxBuffer s address b) := by
  have history : (socketWriteTxBuffer s address b).tcp =
      { s.tcp with
        overwritten :=
          s.tcp.overwritten || s.tcp.unsentPlaces.contains (address.toNat % bufferSize) } :=
    tcpHistory_snoc _ _
  have unsent : (socketWriteTxBuffer s address b).unsent =
      slots (Function.update s.txBuffer (address.toNat % bufferSize) b) s.txRr.toNat
        (s.tcp.sendWr - s.txRr).toNat := by
    rw [Socket.unsent, history]
    rfl
  have before {flag : Bool} (kept : (s.tcp.overwritten || flag) = false) :
      s.tcp.overwritten = false := (Bool.or_eq_false_iff.mp kept).1
  refine ⟨?_, ?_, ?_, ?_, fun open_ => ?_⟩
  · exact history ▸ inv.inOrder
  · rw [history]
    exact fun kept => inv.unchanged (before kept)
  · exact history ▸ inv.completed
  · exact history ▸ inv.udp
  · have link := inv.link open_
    refine ⟨?_, ?_, ?_⟩
    · rw [unsent, history, map_fst_slots]
      rw [link.places, Socket.unsent, map_fst_slots]
    · rw [unsent, history]
      intro kept
      have elsewhere := (Bool.or_eq_false_iff.mp kept).2
      rw [link.unsentPlaces, Socket.unsent, map_fst_slots] at elsewhere
      rw [link.bytes (before kept), Socket.unsent]
      congr 1
      apply ringRead_congr
      intro i inside
      have other : (s.txRr.toNat + i) % bufferSize ≠ address.toNat % bufferSize := by
        intro same
        apply Bool.false_ne_true
        rw [← elsewhere, ← same, List.contains_iff_mem]
        exact List.mem_map_of_mem (List.mem_range.mpr inside)
      rw [Function.update_of_ne other]
    · exact history ▸ link.settled

/-! ### The writes of the I/O thread -/

theorem tcp_bytesHanded (s : Socket) (count : Nat) :
    (bytesHanded s count).tcp =
      { s.tcp with
        handed := s.tcp.handed ++ readSlots s.txBuffer (s.txRr.toNat % bufferSize) count } :=
  tcpHistory_snoc _ _

theorem tcp_sendComplete (s : Socket) : (sendComplete s).tcp = { s.tcp with sendOk := true } :=
  tcpHistory_snoc _ _

/-- Bytes are handed over from TX_RR on. -/
theorem TcpLink.bytesHanded {s : Socket} {count : Nat} (link : TcpLink s) (some_ : 0 < count)
    (within : count ≤ (s.tcp.sendWr - s.txRr).toNat)
    (inside : s.txRr.toNat % bufferSize + count ≤ bufferSize) :
    TcpLink (bytesHanded s count) := by
  have history := tcp_bytesHanded s count
  have taken : readSlots s.txBuffer (s.txRr.toNat % bufferSize) count =
      slots s.txBuffer s.txRr.toNat count := by
    rw [readSlots_eq_slots inside]
    exact slots_start (Nat.mod_mod _ _) count
  have unsent : s.unsent =
      slots s.txBuffer s.txRr.toNat count ++ (FuseX.W5100.bytesHanded s count).unsent := by
    have rest : (s.tcp.sendWr - s.txRr).toNat =
        count + (s.tcp.sendWr - (s.txRr + UInt16.ofNat count)).toNat := by
      rw [toNat_sub_add_word within]
      omega
    rw [Socket.unsent, Socket.unsent, history, rest, slots_add]
    congr 1
    exact slots_start (place_add_word bufferSize_dvd _ _).symm _
  rw [taken] at history
  refine ⟨?_, ?_, ?_⟩
  · rw [history, link.places, unsent]
    simp only [List.map_append, List.append_assoc]
  · rw [history]
    intro kept
    dsimp only
    rw [link.bytes kept, unsent, List.append_assoc]
  · intro settled
    have reached := toNat_sub_word_eq_zero.mpr (link.settled settled)
    omega

theorem TcpLink.sendComplete {s : Socket} (link : TcpLink s) (reached : s.txRr = s.tcp.sendWr) :
    TcpLink (sendComplete s) := by
  have history := tcp_sendComplete s
  have unsent : (FuseX.W5100.sendComplete s).unsent = s.unsent := by
    rw [Socket.unsent, history]
    rfl
  refine ⟨?_, ?_, ?_⟩
  · rw [history, unsent]
    exact link.places
  · rw [history, unsent]
    exact link.bytes
  · rw [history]
    exact fun _ => reached

theorem tcpWriteLength_le (s : Socket) :
    tcpWriteLength s ≤ (s.txWr - s.txRr).toNat ∧
      s.txRr.toNat % bufferSize + tcpWriteLength s ≤ bufferSize := by
  have place : s.txRr.toNat % bufferSize < bufferSize := Nat.mod_lt _ (by decide)
  unfold tcpWriteLength
  dsimp only
  split <;> omega

/-- The I/O thread writes while TX_WR is what it was at the last SEND. -/
theorem TcpInv.processTcpWrite {s : Socket} (inv : TcpInv s) (sent : Option Nat)
    (established : s.state = .established) (steady : s.txWr = s.tcp.sendWr) :
    TcpInv (processTcpWrite s sent) := by
  unfold FuseX.W5100.processTcpWrite
  split
  · exact inv
  rename_i n
  dsimp only
  split
  · rename_i some_
    obtain ⟨available, inside⟩ := tcpWriteLength_le s
    have upTo : min n (tcpWriteLength s) ≤ tcpWriteLength s := Nat.min_le_right _ _
    generalize min n (tcpWriteLength s) = count at some_ upTo ⊢
    rw [steady] at available
    have link := (inv.link (.inr (.inr established))).bytesHanded some_
      (Nat.le_trans upTo available) (by omega)
    have sendWr : (bytesHanded s count).tcp.sendWr = s.txWr := by
      rw [tcp_bytesHanded, steady]
    have stream : (bytesHanded s count).state ≠ .udp := by
      rw [show (bytesHanded s count).state = s.state from rfl, established]
      decide
    split
    · rename_i reached
      refine (link.sendComplete (reached.trans sendWr.symm)).inv stream fun _ => ⟨rfl, ?_⟩
      rw [tcp_sendComplete]
    · rename_i short
      exact link.inv stream fun reached => absurd (reached.trans sendWr) short
  · exact inv

theorem TcpInv.sendComplete_udp {s : Socket} (inv : TcpInv s) (udp : s.state = .udp) :
    TcpInv (sendComplete s) := by
  have history := tcp_sendComplete s
  refine .unlinked (fun open_ => absurd (udp ▸ open_) not_streaming_udp) ?_ ?_ ?_
  · exact history ▸ inv.inOrder
  · exact history ▸ inv.unchanged
  · exact history ▸ inv.udp udp

/-- Datagrams are no part of a stream. -/
theorem TcpInv.processUdpWrite {s : Socket} (inv : TcpInv s) (sent : Option Nat)
    (udp : s.state = .udp) : TcpInv (processUdpWrite s sent) := by
  have closed : ¬ Streaming s.state := udp ▸ not_streaming_udp
  unfold FuseX.W5100.processUdpWrite
  split
  · exact inv
  rename_i first rest _
  dsimp only
  split
  · exact inv.quiet ⟨tcpHistory_snoc _ _, rfl, rfl, .inl rfl, id, id⟩
  split
  · have sent : TcpInv (datagramSent s (datagramData s (UInt16.ofInt first).toNat) rest) := by
      have history : (datagramSent s (datagramData s (UInt16.ofInt first).toNat) rest).tcp = s.tcp :=
        tcpHistory_snoc _ _
      refine .unlinked closed ?_ ?_ ?_
      · exact history ▸ inv.inOrder
      · exact history ▸ inv.unchanged
      · exact history ▸ inv.udp udp
    split
    · exact sent.sendComplete_udp udp
    · exact sent
  · exact inv.quiet ⟨tcpHistory_snoc _ _, rfl, rfl, .inl rfl, id, id⟩

/-! ## Steps and runs -/

theorem TcpInv.writeIfReady {s : Socket} (inv : TcpInv s) (io : IoResults)
    (steady : io.writeReady = true → s.state ≠ .udp → s.txWr = s.tcp.sendWr) :
    TcpInv (writeIfReady s io) := by
  unfold FuseX.W5100.writeIfReady
  split
  · rename_i ready
    split
    · exact inv.processUdpWrite io.sent ‹_›
    · rename_i established
      exact inv.processTcpWrite io.sent established (steady ready (by simp [established]))
    · exact inv
  · exact inv

theorem TcpInv.processIo {s : Socket} (inv : TcpInv s) (io : IoResults)
    (steady : io.writeReady = true → s.state ≠ .udp → s.txWr = s.tcp.sendWr) :
    TcpInv (processIo s io) := by
  rcases processIo_cases s io with idle | ⟨read, reads, rest⟩
  · rw [idle]
    exact inv
  · have quiet := reads.tcpQuiet
    have written : TcpInv (FuseX.W5100.writeIfReady read io) := by
      apply (inv.quiet quiet).writeIfReady io
      intro ready stream
      rw [reads.txWr, quiet.history]
      exact steady ready fun udp => stream (reads.stillUdp udp)
    exact written.quiet rest.tcpQuiet

theorem TcpInv.socketWrite {s : Socket} (inv : TcpInv s) (reg : Register) (b : UInt8)
    (host : HostResults)
    (steady : reg = .cr → Command.ofByte b = some .send →
      s.state = .established ∨ s.state = .closeWait →
      s.txWr ≠ s.txRr ∧
        (s.tcp.sendWr - s.txRr).toNat + (s.txWr - s.tcp.sendWr).toNat < 65536) :
    TcpInv (socketWrite s reg b host) := by
  have counted {t : Socket} (command : TcpInv t) : TcpInv { t with bindCount := 0 } :=
    command.quiet ⟨rfl, rfl, rfl, .inl rfl, id, id⟩
  rcases socketWrite_cases s reg b host with quiet | ⟨rfl, command, t, decoded, written, cases⟩
  · exact inv.quiet quiet.txFrame.tcpQuiet
  · rw [written]
    rcases cases with ⟨rfl, rfl⟩ | ⟨rfl, rfl⟩ | ⟨rfl, rfl⟩
    · exact counted (inv.socketOpen host)
    · exact counted (inv.socketSend host (steady rfl decoded))
    · exact counted (inv.quiet (socketRecv_txFrame s).tcpQuiet)

theorem step_tcpInv {s t : System} {act : Act} (inv : TcpInv s.socket) (steady : SteadySend s act)
    (stepEq : step s act = some t) : TcpInv t.socket := by
  rcases step_cases stepEq with ⟨reg, b, host⟩ | ⟨address, b⟩ | _ | _ | _ | ⟨io, sets, _, _⟩
  · apply inv.socketWrite
    rintro rfl
    exact steady
  · exact inv.writeTxBuffer address b
  · exact socketReset_inv _
  · exact inv.quiet (addToSets_txFrame _).tcpQuiet
  · exact inv
  · exact inv.processIo io steady

theorem start_tcpInv (txBuffer rxBuffer : Buffer) : TcpInv (System.start txBuffer rxBuffer).socket :=
  .fresh rfl rfl

/-- A turn of the I/O thread in which the connection takes up to `count` bytes. -/
def writeTurn (count : Nat) : List Act :=
  [.addToSets, .processIo { writeReady := true, sent := some count }]

/-- OPEN and CONNECT of a TCP socket. -/
def connectTcp : List Act :=
  [writeRegister .mr 0x21, writeRegister .cr 0x01, writeRegister .cr 0x04]

/-- Three bytes are sent in two turns. -/
def sendThree : List Act :=
  connectTcp ++ [writeRegister .txWr1 3, writeRegister .cr 0x20] ++ writeTurn 2 ++ writeTurn 2

/-- A SEND with nothing to send, and a turn of the I/O thread in which `send`
takes the zero bytes. -/
def sendNothing : List Act :=
  connectTcp ++ [writeRegister .cr 0x20] ++ writeTurn 0

/-- Three bytes are asked for; the high byte of TX_WR is then written ahead of the
low one while the write is pending. -/
def sendTornPointer : List Act :=
  connectTcp ++ [writeRegister .txWr1 3, writeRegister .cr 0x20, writeRegister .txWr0 1] ++
    writeTurn 10

/-- Ten bytes go out, seven of them beyond the last SEND. -/
theorem tcp_torn_pointer :
    ∃ s, Runs step anyStep (System.start (fun _ => 0) (fun _ => 0)) sendTornPointer s ∧
      s.socket.tcp.requested.length = 3 ∧ s.socket.tcp.handed.length = 10 :=
  ⟨_, Runs.of_foldlM rfl, by decide, by decide⟩

end FuseX.W5100
