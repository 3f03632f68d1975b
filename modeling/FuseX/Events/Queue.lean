import FuseX.Lib.Agenda
import Mathlib.Data.Prod.Lex

/-!
# The event queue

The events of `event.c`, in the order of their times. An event that is removed stays in the
list as a null event. `Ordered` is what every operation keeps; a frame keeps it as long as it
takes from each event no more than its time.
-/

namespace FuseX.Events

open Lib

/-- `event_t` -/
structure Event where
  tstates : UInt32
  type : Nat
  userData : Nat
  /-- Numbers that are never used again. -/
  serial : Nat
  deriving DecidableEq

/-- `event_list` and `event_next_event` -/
structure Queue where
  eventList : List Event
  eventNextEvent : UInt32
  /-- How many events have been added. -/
  added : Nat
  deriving DecidableEq

/-- A large value to mean no events due. -/
def eventNoEvents : UInt32 := 0xffffffff

/-- The first type that is registered. -/
def eventTypeNull : Nat := 0

/-- `event_add_cmp` -/
def eventAddCmp (a b : Event) : Int :=
  if a.tstates ≠ b.tstates then
    (if b.tstates < a.tstates then 1 else 0) - (if a.tstates < b.tstates then 1 else 0)
  else (a.type : Int) - b.type

/-- The order of `event_add_cmp`: by time, and by type at one time. -/
def Event.key (ptr : Event) : ℕ ×ₗ ℕ := toLex (ptr.tstates.toNat, ptr.type)

theorem key_le {a b : Event} : a.key ≤ b.key ↔ a.tstates.toNat < b.tstates.toNat ∨
    a.tstates.toNat = b.tstates.toNat ∧ a.type ≤ b.type :=
  Prod.Lex.toLex_le_toLex

theorem eventAddCmp_iff {a b : Event} : eventAddCmp a b ≤ 0 ↔ a.key ≤ b.key := by
  rw [key_le]
  unfold eventAddCmp
  split
  · next differ =>
    have differ' : a.tstates.toNat ≠ b.tstates.toNat := fun same =>
      differ (UInt32.toNat_inj.mp same)
    simp only [UInt32.lt_iff_toNat_lt]
    split <;> split <;> omega
  · next same =>
    rw [ne_eq, not_not] at same
    rw [same]
    omega

/-- `event_reduce_tstates` -/
def eventReduceTstates (tstatesPerFrame : UInt32) (ptr : Event) : Event :=
  { ptr with tstates := ptr.tstates - tstatesPerFrame }

/-- What a removal does to an event. -/
def nullWhen (matching : Event → Bool) (ptr : Event) : Event :=
  if matching ptr then { ptr with type := eventTypeNull } else ptr

/-- The events of `set_event_null`. -/
def hasType (type : Nat) (ptr : Event) : Bool := ptr.type = type

/-- The events of `set_event_null_with_user_data`. -/
def hasTypeUserData (type userData : Nat) (ptr : Event) : Bool :=
  ptr.type = type && ptr.userData = userData

theorem nullWhen_tstates (matching : Event → Bool) (ptr : Event) :
    (nullWhen matching ptr).tstates = ptr.tstates := by
  unfold nullWhen
  split <;> rfl

/-- Null events are on their way out of the list. -/
def Event.live (ptr : Event) : Bool := ptr.type ≠ eventTypeNull

namespace Queue

/-- `event_add_with_data` -/
def eventAddWithData (eventTime : UInt32) (type userData : Nat) (q : Queue) : Queue :=
  let ptr : Event :=
    { tstates := eventTime, type := type, userData := userData, serial := q.added }
  if eventTime < q.eventNextEvent then
    { eventNextEvent := eventTime, eventList := ptr :: q.eventList, added := q.added + 1 }
  else
    { q with
      eventList := q.eventList.orderedInsert (fun a b => eventAddCmp a b ≤ 0) ptr
      added := q.added + 1 }

/-- `event_add` -/
def eventAdd (eventTime : UInt32) (type : Nat) (q : Queue) : Queue :=
  q.eventAddWithData eventTime type 0

/-- What `event_next_event` becomes when a list is left. -/
def nextOf (list : List Event) : UInt32 :=
  match list with
  | [] => eventNoEvents
  | ptr :: _ => ptr.tstates

/-- The loop condition of `event_do_events`. -/
def due (tstates : Nat) (q : Queue) : Bool := q.eventNextEvent.toNat ≤ tstates

/-- How `event_do_events` takes an event from the list. -/
def take (q : Queue) : Option (Event × Queue) :=
  match q.eventList with
  | [] => none
  | ptr :: list => some (ptr, { q with eventList := list, eventNextEvent := nextOf list })

/-- `event_frame` -/
def eventFrame (tstatesPerFrame : UInt32) (q : Queue) : Queue :=
  let list := q.eventList.map (eventReduceTstates tstatesPerFrame)
  { q with eventList := list, eventNextEvent := nextOf list }

/-- A removal of the events that match. -/
def eventRemove (matching : Event → Bool) (q : Queue) : Queue :=
  { q with eventList := q.eventList.map (nullWhen matching) }

/-- `event_remove_type` -/
def eventRemoveType (type : Nat) (q : Queue) : Queue := q.eventRemove (hasType type)

/-- `event_remove_type_user_data` -/
def eventRemoveTypeUserData (type userData : Nat) (q : Queue) : Queue :=
  q.eventRemove (hasTypeUserData type userData)

/-! ## Order -/

structure Ordered (q : Queue) : Prop where
  inOrder : Chronological (fun ptr => ptr.tstates.toNat) q.eventList
  next : q.eventNextEvent = nextOf q.eventList

theorem eventAddCmp_before {a b : Event} (before : eventAddCmp a b ≤ 0) :
    a.tstates.toNat ≤ b.tstates.toNat := by
  rcases key_le.mp (eventAddCmp_iff.mp before) with earlier | ⟨same, -⟩
  · exact Nat.le_of_lt earlier
  · exact Nat.le_of_eq same

theorem eventAddCmp_after {a b : Event} (after : ¬ eventAddCmp a b ≤ 0) :
    b.tstates.toNat ≤ a.tstates.toNat := by
  rw [eventAddCmp_iff, not_le] at after
  rcases key_le.mp (le_of_lt after) with earlier | ⟨same, -⟩
  · exact Nat.le_of_lt earlier
  · exact Nat.le_of_eq same

/-- Nothing is due before `event_next_event`. -/
theorem Ordered.le {q : Queue} (ordered : q.Ordered) {ptr : Event} (inList : ptr ∈ q.eventList) :
    q.eventNextEvent.toNat ≤ ptr.tstates.toNat := by
  have inOrder := ordered.inOrder
  rw [ordered.next]
  cases list : q.eventList with
  | nil =>
    rw [list] at inList
    cases inList
  | cons first rest =>
    rw [list] at inList inOrder
    rcases List.mem_cons.mp inList with rfl | later
    · exact Nat.le_refl _
    · exact (chronological_cons.mp inOrder).1 ptr later

theorem nextOf_orderedInsert {list : List Event} {ptr : Event}
    (later : nextOf list ≤ ptr.tstates) :
    nextOf list = nextOf (list.orderedInsert (fun a b => eventAddCmp a b ≤ 0) ptr) := by
  cases list with
  | nil =>
    exact UInt32.le_antisymm later
      (UInt32.le_iff_toNat_le.mpr (Nat.le_of_lt_succ ptr.tstates.toNat_lt))
  | cons first rest =>
    rw [List.orderedInsert]
    split
    · next before =>
      exact UInt32.le_antisymm later (UInt32.le_iff_toNat_le.mpr (eventAddCmp_before before))
    · rfl

theorem ordered_eventAddWithData {q : Queue} (ordered : q.Ordered) (eventTime : UInt32)
    (type userData : Nat) : (q.eventAddWithData eventTime type userData).Ordered := by
  unfold eventAddWithData
  dsimp only
  split
  · next earlier =>
    refine ⟨chronological_cons.mpr ⟨fun ptr inList => ?_, ordered.inOrder⟩, rfl⟩
    exact Nat.le_trans (Nat.le_of_lt (UInt32.lt_iff_toNat_lt.mp earlier)) (ordered.le inList)
  · next notEarlier =>
    have later := UInt32.not_lt.mp notEarlier
    have inOrder := ordered.inOrder.orderedInsert (r := fun a b => eventAddCmp a b ≤ 0)
      (fun _ _ => eventAddCmp_before) (fun _ _ => eventAddCmp_after)
    refine ⟨inOrder _, ?_⟩
    rw [ordered.next] at later
    exact ordered.next.trans (nextOf_orderedInsert later)

theorem ordered_eventAdd {q : Queue} (ordered : q.Ordered) (eventTime : UInt32) (type : Nat) :
    (q.eventAdd eventTime type).Ordered :=
  ordered_eventAddWithData ordered eventTime type 0

theorem ordered_take {q q' : Queue} {ptr : Event} (ordered : q.Ordered)
    (taken : q.take = some (ptr, q')) : q'.Ordered := by
  have inOrder := ordered.inOrder
  unfold take at taken
  split at taken
  · cases taken
  · next list =>
    cases taken
    rw [list] at inOrder
    exact ⟨(chronological_cons.mp inOrder).2, rfl⟩

theorem ordered_eventRemove {q : Queue} (ordered : q.Ordered) (matching : Event → Bool) :
    (q.eventRemove matching).Ordered := by
  refine ⟨ordered.inOrder.map fun a _ b _ le => ?_, ?_⟩
  · rw [nullWhen_tstates, nullWhen_tstates]
    exact le
  · show q.eventNextEvent = nextOf (q.eventList.map _)
    rw [ordered.next]
    cases q.eventList with
    | nil => rfl
    | cons first rest => exact (nullWhen_tstates matching first).symm

/-- A frame that ends when no event is left from before its end. -/
theorem ordered_eventFrame {q : Queue} {tstatesPerFrame : UInt32} (ordered : q.Ordered)
    (left : tstatesPerFrame.toNat ≤ q.eventNextEvent.toNat) :
    (q.eventFrame tstatesPerFrame).Ordered := by
  refine ⟨ordered.inOrder.map fun a inList b inList' le => ?_, rfl⟩
  have bound := Nat.le_trans left (ordered.le inList)
  have bound' := Nat.le_trans left (ordered.le inList')
  show (a.tstates - tstatesPerFrame).toNat ≤ (b.tstates - tstatesPerFrame).toNat
  rw [UInt32.toNat_sub_of_le _ _ (UInt32.le_iff_toNat_le.mpr bound),
    UInt32.toNat_sub_of_le _ _ (UInt32.le_iff_toNat_le.mpr bound')]
  exact Nat.sub_le_sub_right le _

/-! ## The events of one type -/

/-- The times of the pending events of a type. -/
def timesOf (type : Nat) (q : Queue) : List UInt32 :=
  timesWhere Event.type Event.tstates type q.eventList

variable {q : Queue} {type other : Nat}

theorem timesOf_eventAdd_other (differ : other ≠ type) (eventTime : UInt32) :
    (q.eventAdd eventTime other).timesOf type = q.timesOf type := by
  unfold eventAdd eventAddWithData timesOf
  dsimp only
  split
  · rw [timesWhere_cons, if_neg differ]
  · exact timesWhere_orderedInsert_other differ

theorem timesOf_eventAdd (single : q.timesOf type = []) (eventTime : UInt32) :
    (q.eventAdd eventTime type).timesOf type = [eventTime] := by
  unfold timesOf at single
  unfold eventAdd eventAddWithData timesOf
  dsimp only
  split
  · rw [timesWhere_cons, if_pos rfl, single]
  · exact timesWhere_orderedInsert_single rfl single

theorem timesOf_eventRemoveType (notNull : type ≠ eventTypeNull) :
    (q.eventRemoveType type).timesOf type = [] := by
  refine timesWhere_eq_nil fun ptr inList isType => ?_
  obtain ⟨before, -, rfl⟩ := List.mem_map.mp inList
  unfold nullWhen at isType
  split at isType
  · exact notNull isType.symm
  · next differ => exact differ (decide_eq_true isType)

theorem nullWhen_type (differ : other ≠ type) (notNull : type ≠ eventTypeNull) (ptr : Event) :
    (nullWhen (hasType other) ptr).type = type ↔ ptr.type = type := by
  unfold nullWhen
  split
  · next removed =>
    exact ⟨fun isNull => absurd isNull.symm notNull,
      fun isType => absurd ((of_decide_eq_true removed).symm.trans isType) differ⟩
  · exact Iff.rfl

theorem timesOf_eventRemoveType_other (differ : other ≠ type) (notNull : type ≠ eventTypeNull) :
    (q.eventRemoveType other).timesOf type = q.timesOf type := by
  have kept := timesWhere_map (l := q.eventList) (f := nullWhen (hasType other)) (g := id)
    (fun ptr _ => nullWhen_type differ notNull ptr)
    fun ptr _ _ => nullWhen_tstates (hasType other) ptr
  rw [List.map_id] at kept
  exact kept

theorem timesOf_eventFrame (tstatesPerFrame : UInt32) :
    (q.eventFrame tstatesPerFrame).timesOf type =
      (q.timesOf type).map fun time => time - tstatesPerFrame :=
  timesWhere_map (f := eventReduceTstates tstatesPerFrame) (fun _ _ => Iff.rfl) fun _ _ _ => rfl

theorem timesOf_take {q' : Queue} {ptr : Event} (taken : q.take = some (ptr, q')) :
    q.timesOf type = if ptr.type = type then ptr.tstates :: q'.timesOf type else q'.timesOf type := by
  unfold take at taken
  split at taken
  · cases taken
  · next list =>
    cases taken
    unfold timesOf
    rw [list, timesWhere_cons]

/-- Nothing of a type is due before `event_next_event`. -/
theorem Ordered.le_timesOf (ordered : q.Ordered) {time : UInt32} (pending : time ∈ q.timesOf type) :
    q.eventNextEvent.toNat ≤ time.toNat := by
  obtain ⟨ptr, inList, -, rfl⟩ := exists_of_mem_timesWhere pending
  exact ordered.le inList

end Queue

end FuseX.Events
