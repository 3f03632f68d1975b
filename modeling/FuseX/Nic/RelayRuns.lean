import FuseX.Nic.Relay

/-!
# What the relay delivers

`Intact` is kept by every step that loses nothing: the FIN of the peer is passed on
when no byte from the peer is pending, and the worker leaves its loop when nothing is
on its way. `relay_delivers` is the run; `relay_loses_bytes` are two runs in which the
code does otherwise.
-/

namespace FuseX.Nic

open Lib

/-! ## Steps that lose nothing -/

/-- Nothing is on its way in either direction. -/
def Settled (r : Relay) : Prop :=
  r.outgoing = [] ∧ r.toWorker = [] ∧ r.sndQueue = [] ∧
    (r.appClosed = true ∨ r.pending = [] ∧ r.refused = none)

/-- A FIN does not overtake bytes that came before it: there are none, or they are
refused together with the FIN. -/
def FinInOrder (r : Relay) (data : List UInt8) (fin : Bool) : Prop :=
  match r.refused with
  | none => fin = true → data = [] ∧ r.pending = [] ∨ r.room < data.length
  | some (held, heldFin) => r.room < held.length ∨
      heldFin = false ∧ (fin = true → r.room < held.length + data.length)

/-- The step loses no byte. -/
def KeepsBytes (r : Relay) (act : RelayAct) : Prop :=
  match act with
  | .segment data fin => FinInOrder r data fin
  | .timer => FinInOrder r [] false
  | .reset => r.sndQueue = [] ∧ r.refused = none
  | .top late => r.stop = true ∨ r.ready = .pending ∧ late = true → Settled r
  | .inputDone => r.ready = .failed → Settled r
  | .recv result => result = some 0 → Settled r
  | _ => True

instance (r : Relay) : Decidable (Settled r) :=
  inferInstanceAs (Decidable (_ ∧ _ ∧ _ ∧ _))

instance (r : Relay) (data : List UInt8) (fin : Bool) : Decidable (FinInOrder r data fin) :=
  match refused : r.refused with
  | none => decidable_of_iff (fin = true → data = [] ∧ r.pending = [] ∨ r.room < data.length)
      (by rw [FinInOrder, refused])
  | some (held, heldFin) => decidable_of_iff (r.room < held.length ∨
      heldFin = false ∧ (fin = true → r.room < held.length + data.length))
      (by rw [FinInOrder, refused])

instance (r : Relay) (act : RelayAct) : Decidable (KeepsBytes r act) :=
  match act with
  | .segment data fin => inferInstanceAs (Decidable (FinInOrder r data fin))
  | .timer => inferInstanceAs (Decidable (FinInOrder r [] false))
  | .reset => inferInstanceAs (Decidable (_ ∧ _))
  | .top late =>
      inferInstanceAs (Decidable (r.stop = true ∨ r.ready = .pending ∧ late = true → Settled r))
  | .inputDone => inferInstanceAs (Decidable (r.ready = .failed → Settled r))
  | .recv result => inferInstanceAs (Decidable (result = some 0 → Settled r))
  | .ack _ | .icmpReply | .outputFailed | .stop | .send _ | .write _ _ | .appRead _ | .appEof
  | .appWrite _ | .appClose => inferInstanceAs (Decidable True)

/-! ## The invariant -/

/-- The bytes lwIP holds back. -/
def Relay.held (r : Relay) : List UInt8 :=
  match r.refused with
  | none => []
  | some (data, _) => data

structure Intact (r : Relay) : Prop where
  incoming : r.incoming.length ≤ incomingSize
  offset : r.incomingOffset ≤ r.incoming.length
  outgoing : r.outgoing.length ≤ outgoingSize
  /-- what has come from the peer, in order -/
  inward : r.phase = .done ∧ r.appClosed = true ∨
    r.appRead ++ r.toApp ++ r.pending ++ r.held = r.arrived
  read : r.appRead <+: r.arrived
  shut : r.shutWr = true → r.appClosed = true ∨
    r.pending = [] ∧ r.refused = none ∧ (r.peerFin = true ∨ r.phase = .done)
  eof : r.sawEof = true → r.appRead = r.arrived ∧ r.toApp = [] ∧ r.shutWr = true ∧
    (r.peerFin = true ∨ r.phase = .done)
  /-- what goes to the peer, in order -/
  outward : r.handed ++ r.outgoing ++ r.toWorker = r.appWrote
  ended : r.phase = .done → r.handed = r.appWrote ∧ r.discarded = []

theorem intact_attached (icmpReady : Bool) : Intact (.attached icmpReady) where
  incoming := Nat.zero_le _
  offset := Nat.le_refl 0
  outgoing := Nat.zero_le _
  inward := .inr rfl
  read := List.prefix_refl []
  shut := fun shut => by cases shut
  eof := fun eof => by cases eof
  outward := rfl
  ended := fun ended => by cases ended

variable {r next : Relay}

/-! ## Receiving -/

theorem deliver_refused {data : List UInt8} {fin : Bool} (full : r.room < data.length) :
    deliver data fin r = { r with refused := some (data, fin) } := by
  have some : data ≠ [] := by
    rintro rfl
    exact Nat.not_lt_zero _ full
  have refused : receive (Option.some data) r = (false, r) := if_pos full
  rw [deliver, if_neg some, refused]
  rfl

theorem deliver_taken {data : List UInt8} {fin : Bool} (fits : data.length ≤ r.room) :
    deliver data fin r =
      { r with incoming := r.incoming ++ data, shutWr := r.shutWr || fin } := by
  have taken : (if data = [] then (true, r) else receive (some data) r) =
      (true, { r with incoming := r.incoming ++ data }) := by
    by_cases none : data = []
    · rw [if_pos none, none, List.append_nil]
    · rw [if_neg none, receive, if_neg (Nat.not_lt.mpr fits)]
  rw [deliver, taken]
  cases fin
  · simp only [if_true, Bool.false_eq_true, if_false, Bool.or_false]
  · simp only [if_true, receive, Bool.or_true]

theorem pending_append (offset : r.incomingOffset ≤ r.incoming.length) (data : List UInt8) :
    (r.incoming ++ data).drop r.incomingOffset = r.pending ++ data :=
  List.drop_append_of_le_length offset

/-- Data that lwIP held back come in now. -/
theorem Intact.accepted (intact : Intact r) (running : r.phase ≠ .done) {held : List UInt8}
    (refused : r.refused = some (held, false)) (fits : held.length ≤ r.room) :
    Intact { r with refused := none, incoming := r.incoming ++ held } where
  incoming := by
    rw [Relay.room] at fits
    have bound := intact.incoming
    rw [List.length_append]
    omega
  offset := by
    show r.incomingOffset ≤ (r.incoming ++ held).length
    rw [List.length_append]
    exact Nat.le_add_right_of_le intact.offset
  outgoing := intact.outgoing
  inward := by
    rcases intact.inward with done | whole
    · exact absurd done.1 running
    · have held_eq : r.held = held := by
        rw [Relay.held, refused]
      rw [held_eq] at whole
      right
      show r.appRead ++ r.toApp ++ (r.incoming ++ held).drop r.incomingOffset ++ [] = r.arrived
      rw [pending_append intact.offset, List.append_nil, ← List.append_assoc]
      exact whole
  read := intact.read
  shut := fun shut => by
    rcases intact.shut shut with closed | ⟨-, none, -⟩
    · exact .inl closed
    · rw [refused] at none
      cases none
  eof := intact.eof
  outward := intact.outward
  ended := intact.ended

/-- Data and a FIN from the peer. -/
theorem Intact.segment (intact : Intact r) (running : r.phase ≠ .done) (refused : r.refused = none)
    {data : List UInt8} {fin : Bool} (last : r.peerFin = true → data = [] ∧ ¬ fin = true)
    (inOrder : fin = true → data = [] ∧ r.pending = [] ∨ r.room < data.length) :
    Intact (deliver data fin { r with arrived := r.arrived ++ data, peerFin := r.peerFin || fin }) := by
  have whole : r.appRead ++ r.toApp ++ r.pending = r.arrived := by
    rcases intact.inward with done | whole
    · exact absurd done.1 running
    · rw [Relay.held, refused, List.append_nil] at whole
      exact whole
  have read : r.appRead <+: r.arrived ++ data := intact.read.trans (List.prefix_append _ _)
  rcases Nat.lt_or_ge r.room data.length with full | fits
  · have open_ : r.peerFin = false := by
      by_contra fin
      have none := (last (by simpa using fin)).1
      rw [none] at full
      exact Nat.not_lt_zero _ full
    rw [@deliver_refused { r with arrived := r.arrived ++ data, peerFin := r.peerFin || fin }
      data fin full]
    refine
      { incoming := intact.incoming
        offset := intact.offset
        outgoing := intact.outgoing
        inward := .inr ?_
        read := read
        shut := ?_
        eof := ?_
        outward := intact.outward
        ended := intact.ended }
    · show r.appRead ++ r.toApp ++ r.pending ++ data = r.arrived ++ data
      rw [whole]
    · intro shut
      rcases intact.shut shut with closed | ⟨-, -, fin | done⟩
      · exact .inl closed
      · rw [open_] at fin
        cases fin
      · exact absurd done running
    · intro eof
      rcases (intact.eof eof).2.2.2 with fin | done
      · rw [open_] at fin
        cases fin
      · exact absurd done running
  · rw [@deliver_taken { r with arrived := r.arrived ++ data, peerFin := r.peerFin || fin }
      data fin fits]
    have ends : fin = true → data = [] ∧ r.pending = [] := by
      intro fin
      rcases inOrder fin with ends | full
      · exact ends
      · exact absurd full (Nat.not_lt.mpr fits)
    refine
      { incoming := ?_
        offset := ?_
        outgoing := intact.outgoing
        inward := .inr ?_
        read := read
        shut := ?_
        eof := ?_
        outward := intact.outward
        ended := intact.ended }
    · show (r.incoming ++ data).length ≤ incomingSize
      have bound := intact.incoming
      rw [Relay.room] at fits
      rw [List.length_append]
      omega
    · show r.incomingOffset ≤ (r.incoming ++ data).length
      rw [List.length_append]
      exact Nat.le_add_right_of_le intact.offset
    · show r.appRead ++ r.toApp ++ (r.incoming ++ data).drop r.incomingOffset ++ r.held
        = r.arrived ++ data
      rw [pending_append intact.offset, Relay.held, refused, List.append_nil, ← List.append_assoc,
        whole]
    · intro shut
      show r.appClosed = true ∨ (r.incoming ++ data).drop r.incomingOffset = [] ∧ _
      rw [pending_append intact.offset]
      cases isFin : fin with
      | true =>
        obtain ⟨none, empty⟩ := ends isFin
        rw [none, empty]
        exact .inr ⟨rfl, refused, .inl (Bool.or_true _)⟩
      | false =>
        have shut' : r.shutWr = true := by
          simpa [isFin] using shut
        rcases intact.shut shut' with closed | ⟨empty, -, fin | done⟩
        · exact .inl closed
        · rw [(last fin).1, empty]
          exact .inr ⟨rfl, refused, .inl (by rw [fin]; rfl)⟩
        · exact absurd done running
    · intro eof
      obtain ⟨all, none, shut, fin | done⟩ := intact.eof eof
      · rw [(last fin).1, List.append_nil]
        exact ⟨all, none, by simp [shut], .inl (by simp [fin])⟩
      · exact absurd done running

theorem processRefusedData_none (none : r.refused = none) : processRefusedData r = r := by
  rw [processRefusedData, none]

theorem processRefusedData_refused {held : List UInt8} {fin : Bool}
    (refused : r.refused = some (held, fin)) (full : r.room < held.length) :
    processRefusedData r = r := by
  have again := @deliver_refused { r with refused := none } held fin full
  rw [processRefusedData, refused]
  show deliver held fin { r with refused := none } = r
  rw [again, ← refused]

theorem processRefusedData_taken {held : List UInt8} (refused : r.refused = some (held, false))
    (fits : held.length ≤ r.room) :
    processRefusedData r = { r with refused := none, incoming := r.incoming ++ held } := by
  have taken := @deliver_taken { r with refused := none } held false fits
  rw [processRefusedData, refused]
  show deliver held false { r with refused := none } = _
  rw [taken, Bool.or_false]

/-- What is left of the condition on a segment when refused data have been tried again. -/
theorem Intact.retried (intact : Intact r) (running : r.phase ≠ .done) {data : List UInt8}
    {fin : Bool} (inOrder : FinInOrder r data fin) :
    Intact (processRefusedData r) ∧ (processRefusedData r).phase = r.phase ∧
      (processRefusedData r).peerFin = r.peerFin ∧
      ((processRefusedData r).refused = none → fin = true →
        data = [] ∧ (processRefusedData r).pending = [] ∨
          (processRefusedData r).room < data.length) := by
  cases refused : r.refused with
  | none =>
    rw [FinInOrder, refused] at inOrder
    rw [processRefusedData_none refused]
    exact ⟨intact, rfl, rfl, fun _ => inOrder⟩
  | some kept =>
    obtain ⟨held, heldFin⟩ := kept
    rw [FinInOrder, refused] at inOrder
    rcases Nat.lt_or_ge r.room held.length with full | fits
    · rw [processRefusedData_refused refused full]
      refine ⟨intact, rfl, rfl, fun none => ?_⟩
      rw [refused] at none
      cases none
    · obtain ⟨rfl, behind⟩ := inOrder.resolve_left (Nat.not_lt.mpr fits)
      rw [processRefusedData_taken refused fits]
      refine ⟨intact.accepted running refused fits, rfl, rfl, fun _ isFin => .inr ?_⟩
      have full := behind isFin
      simp only [Relay.room, List.length_append] at full fits ⊢
      omega

theorem Intact.tcpInput (intact : Intact r) (running : r.phase ≠ .done) {data : List UInt8}
    {fin : Bool} (last : r.peerFin = true → data = [] ∧ ¬ fin = true)
    (inOrder : FinInOrder r data fin) : Intact (tcpInput data fin r) := by
  obtain ⟨retried, phase, peerFin, behind⟩ := intact.retried running inOrder
  rw [Nic.tcpInput]
  by_cases dropped : (processRefusedData r).refused ≠ none ∧ (data ≠ [] ∨ fin = true)
  · simp only [if_pos dropped]
    exact retried
  · simp only [if_neg dropped]
    by_cases none : (processRefusedData r).refused = none
    · exact retried.segment (by rw [phase]; exact running) none (by rw [peerFin]; exact last)
        (behind none)
    · -- a segment without data and FIN
      have empty : data = [] ∧ fin = false := by
        constructor
        · by_contra some
          exact dropped ⟨none, .inl some⟩
        · by_contra isFin
          exact dropped ⟨none, .inr (by simpa using isFin)⟩
      obtain ⟨rfl, rfl⟩ := empty
      rw [List.append_nil, Bool.or_false]
      exact retried

/-! ## Leaving the loop -/

theorem Intact.finish (intact : Intact r) (settled : Settled r) : Intact (finish r) := by
  obtain ⟨out, toWorker, queue, inward⟩ := settled
  have outward := intact.outward
  rw [out, toWorker, List.append_nil, List.append_nil] at outward
  refine
    { incoming := intact.incoming
      offset := intact.offset
      outgoing := intact.outgoing
      inward := ?_
      read := intact.read
      shut := ?_
      eof := ?_
      outward := intact.outward
      ended := fun _ => ⟨outward, ?_⟩ }
  · rcases inward with closed | ⟨empty, none⟩
    · exact .inl ⟨rfl, closed⟩
    · rcases intact.inward with done | whole
      · exact .inl ⟨rfl, done.2⟩
      · rw [Relay.held, none] at whole
        exact .inr whole
  · intro _
    rcases inward with closed | ⟨empty, none⟩
    · exact .inl closed
    · exact .inr ⟨empty, rfl, .inr rfl⟩
  · intro eof
    obtain ⟨all, none, shut, -⟩ := intact.eof eof
    exact ⟨all, none, rfl, .inr rfl⟩
  · show (if r.stream then r.sndQueue else []) = []
    rw [queue, ite_self]

/-! ## Steps -/

/-- A step in the middle of the loop. -/
theorem Intact.moved (intact : Intact r) (running : r.phase ≠ .done) {phase : Phase} (ready : Ready)
    (going : phase ≠ .done) : Intact { r with phase := phase, ready := ready } where
  incoming := intact.incoming
  offset := intact.offset
  outgoing := intact.outgoing
  inward := by
    rcases intact.inward with done | whole
    · exact absurd done.1 running
    · exact .inr whole
  read := intact.read
  shut := fun shut => by
    rcases intact.shut shut with closed | ⟨empty, none, fin | done⟩
    · exact .inl closed
    · exact .inr ⟨empty, none, .inl fin⟩
    · exact absurd done running
  eof := fun eof => by
    obtain ⟨all, none, shut, fin | done⟩ := intact.eof eof
    · exact ⟨all, none, shut, .inl fin⟩
    · exact absurd done running
  outward := intact.outward
  ended := fun done => absurd done going

theorem Intact.sendBridge (intact : Intact r) (running : r.phase ≠ .done) {result : Option Nat}
    (stepEq : sendBridge result r = some next) : Intact next := by
  have skip : Intact { r with phase := .recv } := intact.moved running r.ready (by decide)
  unfold Nic.sendBridge at stepEq
  by_cases waiting : r.incoming.length > r.incomingOffset
  · rw [if_pos waiting] at stepEq
    cases result with
    | none =>
      cases stepEq
      exact skip
    | some n =>
      obtain ⟨⟨opened, appOpen, some, fits⟩, ⟨⟩⟩ := Option.ite_none_right_eq_some.mp stepEq
      have open_ : r.shutWr = false := by
        simpa using opened
      have sent : Intact { r with
          toApp := r.toApp ++ r.pending.take n
          incomingOffset := r.incomingOffset + n
          phase := .recv } := by
        refine
          { incoming := intact.incoming
            offset := ?_
            outgoing := intact.outgoing
            inward := ?_
            read := intact.read
            shut := ?_
            eof := ?_
            outward := intact.outward
            ended := fun done => by cases done }
        · show r.incomingOffset + n ≤ r.incoming.length
          omega
        · rcases intact.inward with done | whole
          · exact absurd done.1 running
          · right
            show r.appRead ++ (r.toApp ++ r.pending.take n) ++
              r.incoming.drop (r.incomingOffset + n) ++ r.held = r.arrived
            have rest : r.incoming.drop (r.incomingOffset + n) = r.pending.drop n := by
              rw [Relay.pending, List.drop_drop]
            rw [rest, ← whole]
            simp only [List.append_assoc]
            rw [← List.append_assoc (r.pending.take n), List.take_append_drop]
        · intro shut
          rw [open_] at shut
          cases shut
        · intro eof
          have shut := (intact.eof eof).2.2.1
          rw [open_] at shut
          cases shut
      dsimp only
      split
      · next all =>
        have empty : r.incoming.drop (r.incomingOffset + n) = [] :=
          List.drop_eq_nil_of_le (Nat.le_of_eq all.symm)
        refine
          { incoming := Nat.zero_le _
            offset := Nat.le_refl 0
            outgoing := sent.outgoing
            inward := ?_
            read := sent.read
            shut := ?_
            eof := sent.eof
            outward := sent.outward
            ended := sent.ended }
        · rcases sent.inward with done | whole
          · exact .inl done
          · have whole : r.appRead ++ (r.toApp ++ r.pending.take n) ++
                r.incoming.drop (r.incomingOffset + n) ++ r.held = r.arrived := whole
            rw [empty] at whole
            exact .inr whole
        · intro shut
          rw [open_] at shut
          cases shut
      · exact sent
  · rw [if_neg waiting] at stepEq
    cases stepEq
    exact skip

theorem Intact.recvBridge (intact : Intact r) (running : r.phase ≠ .done) {result : Option Nat}
    (keeps : result = some 0 → Settled r) (stepEq : recvBridge result r = some next) :
    Intact next := by
  have skip : Intact { r with phase := .write } := intact.moved running r.ready (by decide)
  unfold Nic.recvBridge at stepEq
  by_cases free : r.outgoing = []
  · rw [if_pos free] at stepEq
    cases result with
    | none =>
      cases stepEq
      exact skip
    | some n =>
      cases n with
      | zero =>
        obtain ⟨-, ⟨⟩⟩ := Option.ite_none_right_eq_some.mp stepEq
        exact intact.finish (keeps rfl)
      | succ n =>
        obtain ⟨⟨fits, there⟩, ⟨⟩⟩ := Option.ite_none_right_eq_some.mp stepEq
        have outward := intact.outward
        rw [free, List.append_nil] at outward
        refine
          { incoming := skip.incoming
            offset := skip.offset
            outgoing := ?_
            inward := skip.inward
            read := skip.read
            shut := skip.shut
            eof := skip.eof
            outward := ?_
            ended := fun done => by cases done }
        · rw [List.length_take]
          exact Nat.le_trans (Nat.min_le_left _ _) fits
        · show r.handed ++ r.toWorker.take (n + 1) ++ r.toWorker.drop (n + 1) = r.appWrote
          rw [List.append_assoc, List.take_append_drop]
          exact outward
  · rw [if_neg free] at stepEq
    cases stepEq
    exact skip

theorem Intact.writeStream (intact : Intact r) (running : r.phase ≠ .done) (sndbuf : Nat)
    (ok : Bool) : Intact (writeStream sndbuf ok r) := by
  have skip : Intact { r with phase := .top } := intact.moved running r.ready (by decide)
  rw [Nic.writeStream]
  split
  · refine
      { incoming := skip.incoming
        offset := skip.offset
        outgoing := ?_
        inward := skip.inward
        read := skip.read
        shut := skip.shut
        eof := skip.eof
        outward := ?_
        ended := fun done => by cases done }
    · have bound := intact.outgoing
      rw [List.length_drop]
      omega
    · show r.handed ++ r.outgoing.take _ ++ r.outgoing.drop _ ++ r.toWorker = r.appWrote
      rw [List.append_assoc r.handed, List.take_append_drop]
      exact intact.outward
  · exact skip

theorem Intact.loopTop (intact : Intact r) (running : r.phase ≠ .done) {late : Bool}
    (keeps : r.stop = true ∨ r.ready = .pending ∧ late = true → Settled r) :
    Intact (loopTop late r) := by
  rw [Nic.loopTop]
  by_cases stop : r.stop = true
  · rw [if_pos stop]
    exact intact.finish (keeps (.inl stop))
  · rw [if_neg stop]
    by_cases expired : r.ready = .pending ∧ late = true
    · rw [if_pos expired]
      have failed : Intact { r with ready := .failed } := intact.moved running .failed running
      exact failed.finish (keeps (.inr expired))
    · rw [if_neg expired]
      exact intact.moved running _ (by decide)

theorem Intact.inputDone (intact : Intact r) (running : r.phase ≠ .done)
    (keeps : r.ready = .failed → Settled r) : Intact (inputDone r) := by
  rw [Nic.inputDone]
  by_cases failed : r.ready = .failed
  · rw [if_pos failed]
    exact intact.finish (keeps failed)
  · rw [if_neg failed]
    split
    · exact intact.moved running r.ready (by decide)
    · exact intact.moved running r.ready (by decide)

theorem Intact.appRead (intact : Intact r) {n : Nat} (appOpen : r.appClosed = false)
    (some : 0 < n) (fits : n ≤ r.toApp.length) :
    Intact { r with appRead := r.appRead ++ r.toApp.take n, toApp := r.toApp.drop n } := by
  have whole : r.appRead ++ r.toApp ++ r.pending ++ r.held = r.arrived := by
    rcases intact.inward with done | whole
    · rw [appOpen] at done
      cases done.2
    · exact whole
  have moved : r.appRead ++ r.toApp.take n ++ r.toApp.drop n = r.appRead ++ r.toApp := by
    rw [List.append_assoc, List.take_append_drop]
  refine
    { incoming := intact.incoming
      offset := intact.offset
      outgoing := intact.outgoing
      inward := .inr ?_
      read := ?_
      shut := intact.shut
      eof := ?_
      outward := intact.outward
      ended := intact.ended }
  · show r.appRead ++ r.toApp.take n ++ r.toApp.drop n ++ r.pending ++ r.held = r.arrived
    rw [moved]
    exact whole
  · refine ⟨r.toApp.drop n ++ (r.pending ++ r.held), ?_⟩
    show r.appRead ++ r.toApp.take n ++ (r.toApp.drop n ++ (r.pending ++ r.held)) = r.arrived
    rw [← List.append_assoc, moved, ← List.append_assoc]
    exact whole
  · intro eof
    have none := (intact.eof eof).2.1
    rw [none] at fits
    exact absurd some (Nat.not_lt.mpr fits)

theorem Intact.appEof (intact : Intact r) (appOpen : r.appClosed = false) (empty : r.toApp = [])
    (shut : r.shutWr = true) : Intact { r with sawEof := true } where
  incoming := intact.incoming
  offset := intact.offset
  outgoing := intact.outgoing
  inward := intact.inward
  read := intact.read
  shut := intact.shut
  eof := fun _ => by
    rcases intact.shut shut with closed | ⟨none, unheld, ended⟩
    · rw [appOpen] at closed
      cases closed
    · rcases intact.inward with done | whole
      · rw [appOpen] at done
        cases done.2
      · rw [empty, none, Relay.held, unheld] at whole
        simp only [List.append_nil] at whole
        exact ⟨whole, empty, shut, ended⟩
  outward := intact.outward
  ended := intact.ended

theorem Intact.step {act : RelayAct} (intact : Intact r) (keeps : KeepsBytes r act)
    (stepEq : stepRelay r act = some next) : Intact next := by
  have running {phase : Phase} (here : r.phase = phase) (going : phase ≠ .done) :
      r.phase ≠ .done := by
    rw [here]
    exact going
  cases act with
  | segment data fin =>
    obtain ⟨⟨here, -, last⟩, ⟨⟩⟩ := Option.ite_none_right_eq_some.mp stepEq
    exact intact.tcpInput (running here (by decide)) last keeps
  | timer =>
    obtain ⟨⟨here, -⟩, ⟨⟩⟩ := Option.ite_none_right_eq_some.mp stepEq
    exact (intact.retried (running here (by decide)) keeps).1
  | ack n =>
    obtain ⟨-, ⟨⟩⟩ := Option.ite_none_right_eq_some.mp stepEq
    exact ⟨intact.incoming, intact.offset, intact.outgoing, intact.inward, intact.read, intact.shut,
      intact.eof, intact.outward, intact.ended⟩
  | reset =>
    obtain ⟨-, ⟨⟩⟩ := Option.ite_none_right_eq_some.mp stepEq
    have none := keeps.2
    refine ⟨intact.incoming, intact.offset, intact.outgoing, ?_, intact.read, ?_, intact.eof,
      intact.outward, intact.ended⟩
    · have inward := intact.inward
      rw [Relay.held, none] at inward
      exact inward
    · intro shut
      have before := intact.shut shut
      rw [none] at before
      exact before
  | icmpReply =>
    obtain ⟨-, ⟨⟩⟩ := Option.ite_none_right_eq_some.mp stepEq
    exact ⟨intact.incoming, intact.offset, intact.outgoing, intact.inward, intact.read, intact.shut,
      intact.eof, intact.outward, intact.ended⟩
  | outputFailed =>
    obtain ⟨going, ⟨⟩⟩ := Option.ite_none_right_eq_some.mp stepEq
    exact intact.moved going .failed going
  | stop =>
    cases stepEq
    exact ⟨intact.incoming, intact.offset, intact.outgoing, intact.inward, intact.read, intact.shut,
      intact.eof, intact.outward, intact.ended⟩
  | top late =>
    obtain ⟨here, ⟨⟩⟩ := Option.ite_none_right_eq_some.mp stepEq
    exact intact.loopTop (running here (by decide)) keeps
  | inputDone =>
    obtain ⟨here, ⟨⟩⟩ := Option.ite_none_right_eq_some.mp stepEq
    exact intact.inputDone (running here (by decide)) keeps
  | send result =>
    obtain ⟨here, sent⟩ := Option.ite_none_right_eq_some.mp stepEq
    exact intact.sendBridge (running here (by decide)) sent
  | recv result =>
    obtain ⟨here, received⟩ := Option.ite_none_right_eq_some.mp stepEq
    exact intact.recvBridge (running here (by decide)) keeps received
  | write sndbuf ok =>
    obtain ⟨here, ⟨⟩⟩ := Option.ite_none_right_eq_some.mp stepEq
    exact intact.writeStream (running here (by decide)) sndbuf ok
  | appRead n =>
    obtain ⟨⟨appOpen, some, fits⟩, ⟨⟩⟩ := Option.ite_none_right_eq_some.mp stepEq
    exact intact.appRead (by simpa using appOpen) some fits
  | appEof =>
    obtain ⟨⟨appOpen, empty, shut⟩, ⟨⟩⟩ := Option.ite_none_right_eq_some.mp stepEq
    exact intact.appEof (by simpa using appOpen) empty shut
  | appWrite bytes =>
    obtain ⟨⟨appOpen, going⟩, ⟨⟩⟩ := Option.ite_none_right_eq_some.mp stepEq
    refine ⟨intact.incoming, intact.offset, intact.outgoing, intact.inward, intact.read, intact.shut,
      intact.eof, ?_, fun done => absurd done going⟩
    show r.handed ++ r.outgoing ++ (r.toWorker ++ bytes) = r.appWrote ++ bytes
    rw [← List.append_assoc, intact.outward]
  | appClose =>
    obtain ⟨-, ⟨⟩⟩ := Option.ite_none_right_eq_some.mp stepEq
    refine ⟨intact.incoming, intact.offset, intact.outgoing, ?_, intact.read, fun _ => .inl rfl,
      intact.eof, intact.outward, intact.ended⟩
    rcases intact.inward with done | whole
    · exact .inl ⟨done.1, rfl⟩
    · exact .inr whole

/-! ## Runs -/

/-- What is promised of the relay. -/
structure Delivers (r : Relay) : Prop where
  /-- the application reads what came from the peer -/
  read : r.appRead <+: r.arrived
  /-- all of it, before the end of file -/
  eof : r.sawEof = true → r.appRead = r.arrived
  /-- what the application writes goes to TCP -/
  handed : r.handed <+: r.appWrote
  /-- all of it, and none is thrown away -/
  ended : r.phase = .done → r.handed = r.appWrote ∧ r.discarded = []
  incoming : r.incomingOffset ≤ r.incoming.length ∧ r.incoming.length ≤ incomingSize
  outgoing : r.outgoing.length ≤ outgoingSize

/-- In a run whose steps lose no byte every byte is delivered. -/
theorem relay_delivers {icmpReady : Bool} {acts : List RelayAct}
    (run : Runs stepRelay KeepsBytes (.attached icmpReady) acts r) : Delivers r := by
  have intact : Intact r :=
    run.invariant (intact_attached icmpReady) fun _ _ _ before keeps stepEq => before.step keeps stepEq
  refine
    { read := intact.read
      eof := fun eof => (intact.eof eof).1
      handed := ?_
      ended := intact.ended
      incoming := ⟨intact.offset, intact.incoming⟩
      outgoing := intact.outgoing }
  refine ⟨r.outgoing ++ r.toWorker, ?_⟩
  rw [← List.append_assoc]
  exact intact.outward

/-- Two bytes and a FIN from the peer, one byte from the application, which closes
when the peer has acknowledged it. -/
def orderly : List RelayAct :=
  [.segment [1, 2] false, .inputDone, .send (some 2), .recv none, .write 0 false, .appRead 2,
    .appWrite [3], .top false, .segment [] true, .inputDone, .send none, .recv (some 1),
    .write 8192 true, .appEof, .appClose, .top false, .ack 1, .inputDone, .send none,
    .recv (some 0)]

theorem relay_delivers_orderly : ∃ r, Delivers r ∧ r.sawEof = true ∧ r.appRead = [1, 2] ∧
    r.phase = .done ∧ r.appWrote = [3] := by
  have run : ∃ r, orderly.foldlM (guarded stepRelay KeepsBytes) (.attached true) = some r ∧
      r.sawEof = true ∧ r.appRead = [1, 2] ∧ r.phase = .done ∧ r.appWrote = [3] :=
    ⟨_, rfl, rfl, rfl, rfl, rfl⟩
  obtain ⟨r, eval, ends⟩ := run
  exact ⟨r, relay_delivers (.of_guarded eval), ends⟩

/-- A byte that comes with the FIN is never read, and a byte that the application
writes before it closes is thrown away. -/
theorem relay_loses_bytes :
    (∃ r, Runs stepRelay anyStep (.attached true)
        [.segment [1] true, .inputDone, .send none, .appEof] r ∧
      r.sawEof = true ∧ r.arrived = [1] ∧ r.appRead = []) ∧
    ∃ r, Runs stepRelay anyStep (.attached true)
        [.appWrite [2], .appClose, .inputDone, .send none, .recv (some 1), .write 8192 true,
          .top false, .inputDone, .send none, .recv (some 0)] r ∧
      r.phase = .done ∧ r.appWrote = [2] ∧ r.discarded = [2] :=
  ⟨⟨_, .of_foldlM rfl, rfl, rfl, rfl⟩, ⟨_, .of_foldlM rfl, rfl, rfl, rfl⟩⟩

end FuseX.Nic
