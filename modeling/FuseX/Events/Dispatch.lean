import FuseX.Events.Queue

/-!
# Runs of the event queue

Events are added and removed, time passes, frames end, and `event_do_events` dispatches what is
due. A record is kept of what was added, dispatched and removed, with times that count on over
the ends of frames.

A handler may add an event for a time that has passed: it comes next. So what is dispatched is
the first of what is queued then, not of all there will be.
-/

namespace FuseX.Events

open Lib

/-! ## Steps -/

/-- An event as it was added, with its time counted over all frames. -/
structure Record where
  serial : Nat
  type : Nat
  time : Nat
  deriving DecidableEq

/-- An event as it was dispatched. -/
structure Dispatched extends Record where
  /-- When it was dispatched. -/
  now : Nat
  /-- How many events had been added then. -/
  added : Nat
  deriving DecidableEq

structure State where
  queue : Queue
  tstates : Nat
  /-- The T-states of the frames that have ended. -/
  elapsed : Nat := 0
  additions : List Record := []
  dispatched : List Dispatched := []
  /-- The serials of what has been removed. -/
  removed : List Nat := []
  deriving DecidableEq

def State.now (s : State) : Nat := s.elapsed + s.tstates

/-- The record of a queued event. -/
def State.record (s : State) (ptr : Event) : Record :=
  { serial := ptr.serial, type := ptr.type, time := s.elapsed + ptr.tstates.toNat }

/-- After `event_init`. -/
def initial (tstates : Nat) : State where
  queue := { eventList := [], eventNextEvent := eventNoEvents, added := 0 }
  tstates := tstates

/-- What the rest of the emulator, or a handler, does to the queue. -/
inductive Operation : Type
  | add (eventTime : UInt32) (type userData : Nat)
  | removeType (type : Nat)
  | removeTypeUserData (type userData : Nat)

def State.remove (matching : Event → Bool) (s : State) : State :=
  { s with
    queue := s.queue.eventRemove matching
    removed := s.removed ++
      (s.queue.eventList.filter fun ptr => ptr.live && matching ptr).map (·.serial) }

def operate (s : State) : Operation → State
  | .add eventTime type userData =>
      { s with
        queue := s.queue.eventAddWithData eventTime type userData
        additions := s.additions ++
          [{ serial := s.queue.added, type := type, time := s.elapsed + eventTime.toNat }] }
  | .removeType type => s.remove (hasType type)
  | .removeTypeUserData type userData => s.remove (hasTypeUserData type userData)

/-- One turn of the loop of `event_do_events`, up to the call of the handler. A null event has no
handler. -/
def dispatch (s : State) : State :=
  if s.queue.due s.tstates then
    match s.queue.take with
    | none => s
    | some (ptr, queue) =>
        { s with
          queue := queue
          dispatched := s.dispatched ++
            if ptr.live then [{ s.record ptr with now := s.now, added := s.queue.added }] else [] }
  else s

inductive Step : Type
  | operation (op : Operation)
  | pass (tstates : Nat)
  | dispatch
  | frame (length : UInt32)

def step (s : State) : Step → State
  | .operation op => operate s op
  | .pass tstates => { s with tstates := s.tstates + tstates }
  | .dispatch => dispatch s
  -- a frame ends when its time has passed
  | .frame length =>
      if length.toNat ≤ s.tstates then
        { s with
          queue := s.queue.eventFrame length
          tstates := s.tstates - length.toNat
          elapsed := s.elapsed + length.toNat }
      else s

def run (s : State) (steps : List Step) : State := steps.foldl step s

/-- `event_do_events`, if it is done after so many turns. The handler of an event may use the
queue again. -/
def eventDoEvents (handler : Event → State → List Operation) : Nat → State → Option State
  | 0, s => if s.queue.due s.tstates then none else some s
  | turns + 1, s =>
      if s.queue.due s.tstates then
        eventDoEvents handler turns <| match s.queue.take with
          | none => s
          | some (ptr, _) =>
              if ptr.live then (handler ptr (dispatch s)).foldl operate (dispatch s)
              else dispatch s
      else some s

/-- Each frame ends with every queued event at its end or later. -/
def FramesOnTime : State → List Step → Prop
  | _, [] => True
  | s, .frame length :: steps =>
      (∀ ptr ∈ s.queue.eventList, length.toNat ≤ ptr.tstates.toNat) ∧
        FramesOnTime (step s (.frame length)) steps
  | s, a :: steps => FramesOnTime (step s a) steps

/-! ## The order of what is queued -/

def Record.key (r : Record) : ℕ ×ₗ ℕ := toLex (r.time, r.type)

/-- Nothing is called for an event that is added as a null event. -/
def Record.live (r : Record) : Bool := r.type ≠ eventTypeNull

/-- What is queued and has not been removed. -/
def Queue.live (q : Queue) : List Event := q.eventList.filter Event.live

/-! ## What the operations do to what is queued -/

section Live

variable {q : Queue}

theorem live_cons (ptr : Event) (list : List Event) :
    (ptr :: list).filter Event.live =
      if ptr.live then ptr :: list.filter Event.live else list.filter Event.live :=
  List.filter_cons

theorem type_of_not_live {ptr : Event} (null : ptr.live = false) : ptr.type = eventTypeNull := by
  unfold Event.live at null
  exact Decidable.not_not.mp (of_decide_eq_false null)

/-- An event that goes in front of a null event goes in front of everything behind it. -/
theorem key_le_of_null {ptr null later : Event} (isLive : ptr.live = true)
    (isNull : null.live = false) (before : ptr.key ≤ null.key)
    (behind : null.tstates.toNat ≤ later.tstates.toNat) : ptr.key ≤ later.key := by
  have type := of_decide_eq_true isLive
  rcases key_le.mp before with earlier | ⟨-, lower⟩
  · exact key_le.mpr (.inl (Nat.lt_of_lt_of_le earlier behind))
  · rw [type_of_not_live isNull] at lower
    exact absurd (Nat.le_zero.mp lower) type

theorem live_orderedInsert {list : List Event} {ptr : Event} (isLive : ptr.live = true)
    (inOrder : Chronological (fun ptr => ptr.tstates.toNat) list)
    (byKey : Chronological Event.key (list.filter Event.live)) :
    Chronological Event.key
      ((list.orderedInsert (fun a b => eventAddCmp a b ≤ 0) ptr).filter Event.live) := by
  induction list with
  | nil =>
    rw [List.orderedInsert, live_cons, if_pos isLive]
    exact chronological_cons.mpr ⟨fun b none => absurd none List.not_mem_nil, .nil⟩
  | cons b list ih =>
    obtain ⟨first, rest⟩ := chronological_cons.mp inOrder
    rw [List.orderedInsert]
    split
    · next here =>
      have before := eventAddCmp_iff.mp here
      rw [live_cons, if_pos isLive]
      refine chronological_cons.mpr ⟨fun c inLive => ?_, byKey⟩
      rw [live_cons] at inLive byKey
      cases null : b.live with
      | true =>
        rw [if_pos null] at inLive byKey
        rcases List.mem_cons.mp inLive with rfl | later
        · exact before
        · exact le_trans before ((chronological_cons.mp byKey).1 c later)
      | false =>
        rw [null] at inLive
        have later := List.mem_of_mem_filter inLive
        exact key_le_of_null isLive null before (first c later)
    · next there =>
      have after : b.key ≤ ptr.key := by
        rw [eventAddCmp_iff, not_le] at there
        exact le_of_lt there
      rw [live_cons] at byKey ⊢
      cases null : b.live with
      | true =>
        rw [null, if_pos rfl] at byKey
        obtain ⟨first', rest'⟩ := chronological_cons.mp byKey
        rw [if_pos rfl]
        refine chronological_cons.mpr ⟨fun c inLive => ?_, ih rest rest'⟩
        obtain ⟨inList, live⟩ := List.mem_filter.mp inLive
        rcases (List.mem_orderedInsert _).mp inList with rfl | later
        · exact after
        · exact first' c (List.mem_filter.mpr ⟨later, live⟩)
      | false =>
        rw [null] at byKey
        exact ih rest byKey

/-- An event that is added is queued, and a null event is not. -/
theorem live_eventAdd_perm (eventTime : UInt32) (type userData : Nat) :
    (q.eventAddWithData eventTime type userData).live.Perm
      (([{ tstates := eventTime, type := type, userData := userData, serial := q.added }] :
        List Event).filter Event.live ++ q.live) := by
  unfold Queue.live
  rw [← List.filter_append]
  refine List.Perm.filter _ ?_
  unfold Queue.eventAddWithData
  dsimp only
  split
  · exact List.Perm.refl _
  · exact List.perm_orderedInsert _ _ _

theorem byKey_eventAdd (ordered : q.Ordered) (byKey : Chronological Event.key q.live)
    (eventTime : UInt32) (type userData : Nat) :
    Chronological Event.key (q.eventAddWithData eventTime type userData).live := by
  unfold Queue.eventAddWithData Queue.live
  dsimp only
  split
  · next earlier =>
    rw [live_cons]
    split
    · refine chronological_cons.mpr ⟨fun c inLive => key_le.mpr (.inl ?_), byKey⟩
      have behind := ordered.le (List.mem_of_mem_filter inLive)
      exact Nat.lt_of_lt_of_le (UInt32.lt_iff_toNat_lt.mp earlier) behind
    · exact byKey
  · cases isLive : Event.live
        { tstates := eventTime, type := type, userData := userData, serial := q.added } with
    | true => exact live_orderedInsert isLive ordered.inOrder byKey
    | false =>
      rw [filter_orderedInsert isLive]
      exact byKey

theorem live_eventRemove (matching : Event → Bool) :
    (q.eventRemove matching).live = q.live.filter fun ptr => !matching ptr := by
  unfold Queue.live Queue.eventRemove
  dsimp only
  induction q.eventList with
  | nil => rfl
  | cons ptr list ih =>
    rw [List.map_cons, live_cons, live_cons, ih]
    unfold nullWhen
    cases removed : matching ptr with
    | true =>
      rw [if_pos rfl]
      have null : Event.live { ptr with type := eventTypeNull } = false := rfl
      rw [null, if_neg Bool.false_ne_true]
      split
      · rw [List.filter_cons, removed]
        rfl
      · rfl
    | false =>
      rw [if_neg Bool.false_ne_true]
      split
      · rw [List.filter_cons, removed]
        rfl
      · rfl

theorem live_eventFrame (length : UInt32) :
    (q.eventFrame length).live = q.live.map (eventReduceTstates length) := by
  unfold Queue.live Queue.eventFrame
  rw [List.filter_map]
  rfl

theorem live_take {q' : Queue} {ptr : Event} (taken : q.take = some (ptr, q')) :
    q.live = if ptr.live then ptr :: q'.live else q'.live := by
  unfold Queue.take at taken
  split at taken
  · cases taken
  · next list =>
    cases taken
    unfold Queue.live
    rw [list, live_cons]

end Live

/-! ## What holds of every run -/

/-- What the queue promises. -/
structure Lawful (s : State) : Prop where
  /-- The list is in the order of its times. -/
  sorted : s.queue.eventList.Pairwise fun ptr ptr' => ptr.tstates ≤ ptr'.tstates
  next : s.queue.eventNextEvent = (s.queue.eventList.head?.map Event.tstates).getD eventNoEvents
  /-- Of two events that were queued at one time, the first by time and type is dispatched
  first. -/
  inTurn : s.dispatched.Pairwise fun d d' => d'.serial < d.added → d.key ≤ d'.key
  /-- The same for what is still queued. -/
  behind : ∀ d ∈ s.dispatched, ∀ ptr ∈ s.queue.live, ptr.serial < d.added →
    d.key ≤ (s.record ptr).key
  /-- Each event is queued, or it was dispatched once, or it was removed. -/
  once : (s.queue.live.map Event.serial ++ s.dispatched.map (·.serial) ++ s.removed).Perm
    ((s.additions.filter Record.live).map Record.serial)
  distinct : (s.additions.map Record.serial).Nodup
  /-- What is queued and what was dispatched is as it was added. -/
  queued : ∀ ptr ∈ s.queue.live, s.record ptr ∈ s.additions
  sent : ∀ d ∈ s.dispatched, d.toRecord ∈ s.additions
  neverEarly : ∀ d ∈ s.dispatched, d.time ≤ d.now

/-- What each step keeps. -/
structure Kept (s : State) : Prop where
  ordered : s.queue.Ordered
  byKey : Chronological Event.key s.queue.live
  /-- What was queued when something was dispatched comes behind it. -/
  behind : ∀ d ∈ s.dispatched, ∀ ptr ∈ s.queue.live, ptr.serial < d.added →
    d.key ≤ (s.record ptr).key
  counted : ∀ d ∈ s.dispatched, d.added ≤ s.queue.added
  serials : s.additions.map Record.serial = List.range s.queue.added
  queued : ∀ ptr ∈ s.queue.live, s.record ptr ∈ s.additions
  inTurn : s.dispatched.Pairwise fun d d' => d'.serial < d.added → d.key ≤ d'.key
  once : (s.queue.live.map Event.serial ++ s.dispatched.map (·.serial) ++ s.removed).Perm
    ((s.additions.filter Record.live).map Record.serial)
  sent : ∀ d ∈ s.dispatched, d.toRecord ∈ s.additions
  neverEarly : ∀ d ∈ s.dispatched, d.time ≤ d.now

theorem Kept.lawful {s : State} (kept : Kept s) : Lawful s where
  sorted := kept.ordered.inOrder.imp fun le => UInt32.le_iff_toNat_le.mpr le
  next := by
    rw [kept.ordered.next]
    cases s.queue.eventList <;> rfl
  inTurn := kept.inTurn
  behind := kept.behind
  once := kept.once
  distinct := by
    rw [kept.serials]
    exact List.nodup_range
  queued := kept.queued
  sent := kept.sent
  neverEarly := kept.neverEarly

theorem kept_initial (tstates : Nat) : Kept (initial tstates) where
  ordered := ⟨.nil, rfl⟩
  byKey := .nil
  behind := nofun
  counted := nofun
  serials := rfl
  queued := nofun
  inTurn := .nil
  once := List.Perm.refl _
  sent := nofun
  neverEarly := nofun

theorem eventAddWithData_added (q : Queue) (eventTime : UInt32) (type userData : Nat) :
    (q.eventAddWithData eventTime type userData).added = q.added + 1 := by
  unfold Queue.eventAddWithData
  dsimp only
  split <;> rfl

/-- An event that is added. -/
theorem kept_add {s : State} (kept : Kept s) (eventTime : UInt32) (type userData : Nat) :
    Kept (operate s (.add eventTime type userData)) := by
  have shape := @live_eventAdd_perm s.queue eventTime type userData
  have oldOrNew : ∀ ptr ∈ (s.queue.eventAddWithData eventTime type userData).live,
      ptr = { tstates := eventTime, type := type, userData := userData, serial := s.queue.added } ∨
        ptr ∈ s.queue.live := by
    intro ptr member
    rcases List.mem_append.mp (shape.mem_iff.mp member) with new | old
    · exact .inl (List.mem_singleton.mp (List.mem_of_mem_filter new))
    · exact .inr old
  have added := eventAddWithData_added s.queue eventTime type userData
  constructor
  · exact Queue.ordered_eventAddWithData kept.ordered eventTime type userData
  · exact byKey_eventAdd kept.ordered kept.byKey eventTime type userData
  · intro d inSent ptr inLive before
    rcases oldOrNew ptr inLive with rfl | old
    · exact absurd before (Nat.not_lt.mpr (kept.counted d inSent))
    · exact kept.behind d inSent ptr old before
  · intro d inSent
    show d.added ≤ (s.queue.eventAddWithData eventTime type userData).added
    rw [added]
    exact Nat.le_succ_of_le (kept.counted d inSent)
  · show (s.additions ++ _).map Record.serial =
      List.range (s.queue.eventAddWithData eventTime type userData).added
    rw [added, List.map_append, kept.serials, List.range_succ]
    rfl
  · intro ptr inLive
    rcases oldOrNew ptr inLive with rfl | old
    · exact List.mem_append_right _ (List.mem_singleton_self _)
    · exact List.mem_append_left _ (kept.queued ptr old)
  · exact kept.inTurn
  · have serials := (shape.map Event.serial).append_right (s.dispatched.map (·.serial) ++ s.removed)
    show (_ ++ s.dispatched.map (·.serial) ++ s.removed).Perm
      (((s.additions ++ [_]).filter Record.live).map Record.serial)
    rw [List.append_assoc, List.filter_append, List.map_append]
    rw [List.map_append, List.append_assoc, ← List.append_assoc (s.queue.live.map _)] at serials
    refine serials.trans (List.perm_append_comm.trans ?_)
    refine kept.once.append ?_
    rw [List.filter_cons, List.filter_cons]
    unfold Event.live Record.live
    dsimp only
    split <;> exact List.Perm.refl _
  · intro d inSent
    exact List.mem_append_left _ (kept.sent d inSent)
  · exact kept.neverEarly

/-- A removal. -/
theorem kept_remove {s : State} (kept : Kept s) (matching : Event → Bool) :
    Kept (s.remove matching) := by
  have shape := @live_eventRemove s.queue matching
  have old : ∀ ptr ∈ (s.queue.eventRemove matching).live, ptr ∈ s.queue.live := by
    intro ptr inLive
    rw [shape] at inLive
    exact List.mem_of_mem_filter inLive
  constructor
  · exact Queue.ordered_eventRemove kept.ordered matching
  · show Chronological Event.key (s.queue.eventRemove matching).live
    rw [shape]
    exact kept.byKey.sublist List.filter_sublist
  · exact fun d inSent ptr inLive => kept.behind d inSent ptr (old ptr inLive)
  · exact kept.counted
  · exact kept.serials
  · exact fun ptr inLive => kept.queued ptr (old ptr inLive)
  · exact kept.inTurn
  · have parts := (List.filter_append_perm (fun ptr => !matching ptr) s.queue.live).map Event.serial
    have taken : s.queue.live.filter (fun ptr => !!matching ptr) =
        s.queue.eventList.filter fun ptr => ptr.live && matching ptr := by
      unfold Queue.live
      rw [List.filter_filter]
      refine List.filter_congr fun ptr _ => ?_
      rw [Bool.not_not, Bool.and_comm]
    rw [taken, List.map_append] at parts
    refine List.Perm.trans ?_ kept.once
    show ((s.queue.eventRemove matching).live.map Event.serial ++ s.dispatched.map (·.serial) ++
      (s.removed ++ _)).Perm _
    rw [shape]
    refine List.Perm.trans ?_ ((parts.append_right _).append_right _)
    rw [List.append_assoc, List.append_assoc, List.append_assoc]
    refine List.Perm.append_left _ ?_
    rw [← List.append_assoc]
    exact List.perm_append_comm
  · exact kept.sent
  · exact kept.neverEarly

theorem record_key_le (s : State) {a b : Event} (le : a.key ≤ b.key) :
    (s.record a).key ≤ (s.record b).key := by
  refine Prod.Lex.toLex_le_toLex.mpr ?_
  rcases key_le.mp le with earlier | ⟨same, lower⟩
  · exact .inl (Nat.add_lt_add_left earlier _)
  · exact .inr ⟨congrArg (s.elapsed + ·) same, lower⟩

/-- What is taken is the head, and it is due. -/
theorem take_first {q q' : Queue} {ptr : Event} (ordered : q.Ordered)
    (taken : q.take = some (ptr, q')) : ptr.tstates = q.eventNextEvent ∧ q'.added = q.added := by
  have next := ordered.next
  unfold Queue.take at taken
  split at taken
  · cases taken
  · next list =>
    cases taken
    rw [list] at next
    exact ⟨next.symm, rfl⟩

theorem kept_dispatch {s : State} (kept : Kept s) : Kept (dispatch s) := by
  unfold dispatch
  split
  · next due =>
    split
    · exact kept
    · next ptr queue taken =>
      have shape := live_take taken
      obtain ⟨first, added⟩ := take_first kept.ordered taken
      have ordered := Queue.ordered_take kept.ordered taken
      have now : (s.record ptr).time ≤ s.now := by
        have reached : s.queue.eventNextEvent.toNat ≤ s.tstates := of_decide_eq_true due
        rw [← first] at reached
        exact Nat.add_le_add_left reached s.elapsed
      have byKey := kept.byKey
      have behind := kept.behind
      have queued := kept.queued
      have once := kept.once
      cases isLive : ptr.live with
      | true =>
        rw [isLive, if_pos rfl] at shape
        rw [shape] at byKey behind queued once
        obtain ⟨least, byKey'⟩ := chronological_cons.mp byKey
        rw [if_pos rfl]
        constructor
        · exact ordered
        · exact byKey'
        · intro d inSent ptr' inLive before
          rcases List.mem_append.mp inSent with old | new
          · exact behind d old ptr' (List.mem_cons_of_mem _ inLive) before
          · rw [List.mem_singleton.mp new]
            exact record_key_le s (least ptr' inLive)
        · intro d inSent
          show d.added ≤ queue.added
          rw [added]
          rcases List.mem_append.mp inSent with old | new
          · exact kept.counted d old
          · rw [List.mem_singleton.mp new]
        · show s.additions.map Record.serial = List.range queue.added
          rw [added]
          exact kept.serials
        · exact fun ptr' inLive => queued ptr' (List.mem_cons_of_mem _ inLive)
        · refine List.pairwise_append.mpr ⟨kept.inTurn, List.pairwise_singleton _ _, ?_⟩
          intro d old d' new before
          rw [List.mem_singleton.mp new] at before ⊢
          exact behind d old ptr List.mem_cons_self before
        · refine List.Perm.trans ?_ once
          rw [List.map_append, ← List.append_assoc, List.append_assoc _ _ s.removed]
          exact List.perm_middle
        · intro d inSent
          rcases List.mem_append.mp inSent with old | new
          · exact kept.sent d old
          · rw [List.mem_singleton.mp new]
            exact queued ptr List.mem_cons_self
        · intro d inSent
          rcases List.mem_append.mp inSent with old | new
          · exact kept.neverEarly d old
          · rw [List.mem_singleton.mp new]
            exact now
      | false =>
        rw [isLive, if_neg Bool.false_ne_true] at shape
        rw [shape] at byKey behind queued once
        rw [if_neg Bool.false_ne_true, List.append_nil]
        have counted := kept.counted
        have serials := kept.serials
        rw [← added] at counted serials
        exact
          { ordered := ordered, byKey := byKey, behind := behind, counted := counted
            serials := serials, queued := queued, inTurn := kept.inTurn, once := once
            sent := kept.sent, neverEarly := kept.neverEarly }
  · exact kept

/-- A record stays when a frame ends on time. -/
theorem record_frame {s : State} {length : UInt32} {ptr : Event}
    (onTime : length.toNat ≤ ptr.tstates.toNat) :
    State.record { s with
      queue := s.queue.eventFrame length
      tstates := s.tstates - length.toNat
      elapsed := s.elapsed + length.toNat } (eventReduceTstates length ptr) = s.record ptr := by
  have time : s.elapsed + length.toNat + (ptr.tstates - length).toNat =
      s.elapsed + ptr.tstates.toNat := by
    rw [UInt32.toNat_sub_of_le _ _ (UInt32.le_iff_toNat_le.mpr onTime)]
    omega
  exact congrArg (fun time => { serial := ptr.serial, type := ptr.type, time := time : Record }) time

theorem le_eventNextEvent {q : Queue} (ordered : q.Ordered) {length : UInt32}
    (onTime : ∀ ptr ∈ q.eventList, length.toNat ≤ ptr.tstates.toNat) :
    length.toNat ≤ q.eventNextEvent.toNat := by
  rw [ordered.next]
  cases list : q.eventList with
  | nil => exact Nat.le_of_lt_succ length.toNat_lt
  | cons ptr rest => exact onTime ptr (list ▸ List.mem_cons_self)

/-- A frame that ends on time. -/
theorem kept_frame {s : State} (kept : Kept s) {length : UInt32}
    (onTime : ∀ ptr ∈ s.queue.eventList, length.toNat ≤ ptr.tstates.toNat) :
    Kept (step s (.frame length)) := by
  rw [step]
  split
  · next passed =>
    have shape := @live_eventFrame s.queue length
    have fromLive : ∀ ptr ∈ (s.queue.eventFrame length).live, ∃ ptr' ∈ s.queue.live,
        ptr = eventReduceTstates length ptr' ∧ length.toNat ≤ ptr'.tstates.toNat := by
      intro ptr inLive
      rw [shape] at inLive
      obtain ⟨ptr', inLive', rfl⟩ := List.mem_map.mp inLive
      exact ⟨ptr', inLive', rfl, onTime ptr' (List.mem_of_mem_filter inLive')⟩
    constructor
    · exact Queue.ordered_eventFrame kept.ordered (le_eventNextEvent kept.ordered onTime)
    · show Chronological Event.key (s.queue.eventFrame length).live
      rw [shape]
      refine kept.byKey.map fun a inLive b inLive' le => ?_
      have bound := onTime a (List.mem_of_mem_filter inLive)
      have bound' := onTime b (List.mem_of_mem_filter inLive')
      have reduced : ∀ c : Event, length.toNat ≤ c.tstates.toNat →
          (eventReduceTstates length c).tstates.toNat = c.tstates.toNat - length.toNat :=
        fun c bound => UInt32.toNat_sub_of_le _ _ (UInt32.le_iff_toNat_le.mpr bound)
      rw [key_le, reduced a bound, reduced b bound']
      rcases key_le.mp le with earlier | ⟨same, lower⟩
      · exact .inl (by omega)
      · exact .inr ⟨by rw [same], lower⟩
    · intro d inSent ptr inLive before
      obtain ⟨ptr', inLive', rfl, bound⟩ := fromLive ptr inLive
      rw [record_frame bound]
      exact kept.behind d inSent ptr' inLive' before
    · exact kept.counted
    · exact kept.serials
    · intro ptr inLive
      obtain ⟨ptr', inLive', rfl, bound⟩ := fromLive ptr inLive
      rw [record_frame bound]
      exact kept.queued ptr' inLive'
    · exact kept.inTurn
    · show ((s.queue.eventFrame length).live.map Event.serial ++ s.dispatched.map (·.serial) ++
        s.removed).Perm _
      rw [shape, List.map_map]
      exact kept.once
    · exact kept.sent
    · exact kept.neverEarly
  · exact kept

theorem kept_operate {s : State} (kept : Kept s) (op : Operation) : Kept (operate s op) := by
  cases op with
  | add eventTime type userData => exact kept_add kept eventTime type userData
  | removeType type => exact kept_remove kept _
  | removeTypeUserData type userData => exact kept_remove kept _

theorem kept_step {s : State} (kept : Kept s) {a : Step} {steps : List Step}
    (onTime : FramesOnTime s (a :: steps)) :
    Kept (step s a) ∧ FramesOnTime (step s a) steps := by
  cases a with
  | operation op => exact ⟨kept_operate kept op, onTime⟩
  | pass tstates =>
    exact
      ⟨{ ordered := kept.ordered, byKey := kept.byKey, behind := kept.behind
         counted := kept.counted, serials := kept.serials, queued := kept.queued
         inTurn := kept.inTurn, once := kept.once, sent := kept.sent
         neverEarly := kept.neverEarly }, onTime⟩
  | dispatch => exact ⟨kept_dispatch kept, onTime⟩
  | frame length => exact ⟨kept_frame kept onTime.1, onTime.2⟩

theorem kept_run {s : State} (kept : Kept s) {steps : List Step} (onTime : FramesOnTime s steps) :
    Kept (run s steps) := by
  induction steps generalizing s with
  | nil => exact kept
  | cons a steps ih =>
    obtain ⟨kept', onTime'⟩ := kept_step kept onTime
    exact ih kept' onTime'

/-! ## The loop of `event_do_events` -/

theorem kept_operations {s : State} (kept : Kept s) (ops : List Operation) :
    Kept (ops.foldl operate s) := by
  induction ops generalizing s with
  | nil => exact kept
  | cons op ops ih => exact ih (kept_operate kept op)

/-- The loop is a run of dispatches and of what the handlers do. -/
theorem eventDoEvents_run {handler : Event → State → List Operation} {turns : Nat} {s s' : State}
    (done : eventDoEvents handler turns s = some s') :
    ∃ steps, run s steps = s' ∧ ∀ a ∈ steps, ∀ length, a ≠ .frame length := by
  induction turns generalizing s with
  | zero =>
    rw [eventDoEvents] at done
    split at done
    · cases done
    · cases done
      exact ⟨[], rfl, nofun⟩
  | succ turns ih =>
    rw [eventDoEvents] at done
    split at done
    · split at done
      · exact ih done
      · next ptr queue taken =>
        split at done
        · obtain ⟨steps, reached, noFrames⟩ := ih done
          refine ⟨.dispatch :: (handler ptr (dispatch s)).map .operation ++ steps, ?_, ?_⟩
          · rw [← reached, run, List.foldl_append, List.foldl_cons, List.foldl_map]
            rfl
          · intro a member length
            rcases List.mem_append.mp member with first | later
            · rcases List.mem_cons.mp first with rfl | handled
              · exact nofun
              · obtain ⟨op, -, rfl⟩ := List.mem_map.mp handled
                exact nofun
            · exact noFrames a later length
        · obtain ⟨steps, reached, noFrames⟩ := ih done
          refine ⟨.dispatch :: steps, reached, ?_⟩
          intro a member length
          rcases List.mem_cons.mp member with rfl | later
          · exact nofun
          · exact noFrames a later length
    · cases done
      exact ⟨[], rfl, nofun⟩

theorem framesOnTime_of_noFrames {s : State} {steps : List Step}
    (noFrames : ∀ a ∈ steps, ∀ length, a ≠ .frame length) : FramesOnTime s steps := by
  induction steps generalizing s with
  | nil => trivial
  | cons a steps ih =>
    have later : FramesOnTime (step s a) steps :=
      ih fun a' member => noFrames a' (List.mem_cons_of_mem _ member)
    cases a with
    | frame length => exact absurd rfl (noFrames _ List.mem_cons_self length)
    | operation op => exact later
    | pass tstates => exact later
    | dispatch => exact later

/-- When the loop is done nothing is due. -/
theorem eventDoEvents_done {handler : Event → State → List Operation} {turns : Nat} {s s' : State}
    (done : eventDoEvents handler turns s = some s') : s'.queue.due s'.tstates = false := by
  induction turns generalizing s with
  | zero =>
    rw [eventDoEvents] at done
    split at done
    · cases done
    · next notDue =>
      cases done
      exact Bool.eq_false_iff.mpr notDue
  | succ turns ih =>
    rw [eventDoEvents] at done
    split at done
    · exact ih done
    · next notDue =>
      cases done
      exact Bool.eq_false_iff.mpr notDue

theorem later_of_not_due {s : State} (kept : Kept s) (notDue : s.queue.due s.tstates = false) :
    ∀ ptr ∈ s.queue.live, s.tstates < ptr.tstates.toNat := by
  intro ptr inLive
  have later : s.tstates < s.queue.eventNextEvent.toNat :=
    Nat.not_le.mp (of_decide_eq_false notDue)
  exact Nat.lt_of_lt_of_le later (kept.ordered.le (List.mem_of_mem_filter inLive))

theorem eventFrame_times {q : Queue} {length : UInt32}
    (onTime : ∀ ptr ∈ q.eventList, length.toNat ≤ ptr.tstates.toNat) :
    (q.eventFrame length).eventList.map (fun ptr => ptr.tstates.toNat + length.toNat) =
      q.eventList.map fun ptr => ptr.tstates.toNat := by
  unfold Queue.eventFrame
  rw [List.map_map]
  refine List.map_congr_left fun ptr inList => ?_
  show (ptr.tstates - length).toNat + length.toNat = ptr.tstates.toNat
  rw [UInt32.toNat_sub_of_le _ _ (UInt32.le_iff_toNat_le.mpr (onTime ptr inList))]
  exact Nat.sub_add_cancel (onTime ptr inList)

/-- The queue keeps its promises in every run whose frames end on time; `event_do_events`, if it
comes to an end, is part of such a run and leaves nothing that is due; and on time no time
wraps. -/
theorem queue_lawful (tstates : Nat) (steps : List Step)
    (onTime : FramesOnTime (initial tstates) steps) :
    Lawful (run (initial tstates) steps) ∧
    (∀ handler turns s', eventDoEvents handler turns (run (initial tstates) steps) = some s' →
      (∃ more, run (run (initial tstates) steps) more = s' ∧
        FramesOnTime (run (initial tstates) steps) more) ∧
      Lawful s' ∧ ∀ ptr ∈ s'.queue.live, s'.tstates < ptr.tstates.toNat) ∧
    ∀ length : UInt32,
      (∀ ptr ∈ (run (initial tstates) steps).queue.eventList,
        length.toNat ≤ ptr.tstates.toNat) →
      ((run (initial tstates) steps).queue.eventFrame length).eventList.map
          (fun ptr => ptr.tstates.toNat + length.toNat) =
        (run (initial tstates) steps).queue.eventList.map fun ptr => ptr.tstates.toNat := by
  have kept := kept_run (kept_initial tstates) onTime
  refine ⟨kept.lawful, fun handler turns s' done => ?_, fun length => eventFrame_times⟩
  obtain ⟨more, rfl, noFrames⟩ := eventDoEvents_run done
  have onTime' := @framesOnTime_of_noFrames (run (initial tstates) steps) more noFrames
  have kept' := kept_run kept onTime'
  exact ⟨⟨more, rfl, onTime'⟩, kept'.lawful, later_of_not_due kept' (eventDoEvents_done done)⟩

/-- An event before and one behind the end of a frame. -/
def twoEvents : List Step :=
  [.operation (.add 70000 1 0), .operation (.add 100 2 0), .pass 69890, .dispatch, .frame 69888]

theorem twoEvents_lawful : Lawful (run (initial 0) twoEvents) :=
  have onTime : FramesOnTime (initial 0) twoEvents := ⟨by decide, trivial⟩
  (queue_lawful 0 twoEvents onTime).1

/-- An event that is added for a time that has passed is dispatched after a later one, and an
event that is left behind the end of a frame goes to the wrong end of the list. -/
theorem dispatched_late :
    (eventDoEvents (fun ptr _ => if ptr.type = 1 then [.add 0 2 0] else []) 2
      (run (initial 0) [.operation (.add 100 1 0), .pass 150])).map
        (fun s => s.dispatched.map (·.time)) = some [100, 0] ∧
    ¬ (run (initial 0) [.operation (.add 5 1 0), .operation (.add 70000 2 0), .pass 69888,
      .frame 69888]).queue.eventList.Pairwise fun ptr ptr' => ptr.tstates ≤ ptr'.tstates := by
  decide

end FuseX.Events
