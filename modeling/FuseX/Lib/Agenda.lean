import Mathlib.Data.List.Sort

/-!
# Lists in the order of their times

What is kept in order of a time stays so when something is inserted by a comparison that
refines the order of times (`Chronological.orderedInsert`), and when the times are changed without
changing their order (`Chronological.map`). `timesWhere` are the times of the elements of one kind.
-/

namespace Lib

variable {α β τ : Type} [LinearOrder τ] {time : α → τ} {l : List α}

def Chronological (time : α → τ) (l : List α) : Prop := l.Pairwise fun a b => time a ≤ time b

theorem Chronological.nil : Chronological time [] := List.Pairwise.nil

theorem chronological_cons {a : α} :
    Chronological time (a :: l) ↔ (∀ b ∈ l, time a ≤ time b) ∧ Chronological time l :=
  List.pairwise_cons

theorem Chronological.orderedInsert {r : α → α → Prop} [DecidableRel r]
    (before : ∀ a b, r a b → time a ≤ time b) (after : ∀ a b, ¬ r a b → time b ≤ time a)
    (inOrder : Chronological time l) (a : α) : Chronological time (l.orderedInsert r a) := by
  induction l with
  | nil => exact chronological_cons.mpr ⟨fun b none => absurd none List.not_mem_nil, .nil⟩
  | cons b l ih =>
    obtain ⟨first, rest⟩ := chronological_cons.mp inOrder
    rw [List.orderedInsert]
    split
    · next here =>
      have earlier := before a b here
      refine chronological_cons.mpr ⟨fun c inList => ?_, inOrder⟩
      rcases List.mem_cons.mp inList with rfl | later
      · exact earlier
      · exact le_trans earlier (first c later)
    · next there =>
      refine chronological_cons.mpr ⟨fun c inList => ?_, ih rest⟩
      rcases (List.mem_orderedInsert r).mp inList with rfl | later
      · exact after c b there
      · exact first c later

theorem Chronological.map {f : α → α} (inOrder : Chronological time l)
    (keeps : ∀ a ∈ l, ∀ b ∈ l, time a ≤ time b → time (f a) ≤ time (f b)) :
    Chronological time (l.map f) := by
  rw [Chronological, List.pairwise_map]
  exact List.Pairwise.imp_of_mem (fun inList inList' => keeps _ inList _ inList') inOrder

/-- What is inserted is not seen when it is filtered out. -/
theorem filter_orderedInsert {r : α → α → Prop} [DecidableRel r] {p : α → Bool} {a : α}
    (out : p a = false) : (l.orderedInsert r a).filter p = l.filter p := by
  induction l with
  | nil =>
    rw [List.orderedInsert, List.filter_cons, out]
    rfl
  | cons b l ih =>
    rw [List.orderedInsert]
    split
    · rw [List.filter_cons, out]
      rfl
    · rw [List.filter_cons, List.filter_cons, ih]

/-! ## The times of one kind -/

section Kinds

variable {κ : Type} [DecidableEq κ] {kind : α → κ} {time : α → β} {k : κ}

def timesWhere (kind : α → κ) (time : α → β) (k : κ) (l : List α) : List β :=
  (l.filter fun a => kind a = k).map time

theorem timesWhere_cons (a : α) : timesWhere kind time k (a :: l) =
    if kind a = k then time a :: timesWhere kind time k l else timesWhere kind time k l := by
  unfold timesWhere
  rw [List.filter_cons]
  by_cases same : kind a = k
  · rw [if_pos same, decide_eq_true same]
    rfl
  · rw [if_neg same, decide_eq_false same]
    rfl

theorem timesWhere_orderedInsert_other {r : α → α → Prop} [DecidableRel r] {a : α}
    (other : kind a ≠ k) :
    timesWhere kind time k (l.orderedInsert r a) = timesWhere kind time k l := by
  unfold timesWhere
  rw [filter_orderedInsert (p := fun b => decide (kind b = k)) (decide_eq_false other)]

/-- The only one of its kind. -/
theorem timesWhere_orderedInsert_single {r : α → α → Prop} [DecidableRel r] {a : α}
    (isKind : kind a = k) (single : timesWhere kind time k l = []) :
    timesWhere kind time k (l.orderedInsert r a) = [time a] := by
  induction l with
  | nil =>
    rw [List.orderedInsert, timesWhere_cons, if_pos isKind]
    rfl
  | cons b l ih =>
    have other : kind b ≠ k := by
      intro same
      rw [timesWhere_cons, if_pos same] at single
      cases single
    have single' := single
    rw [timesWhere_cons, if_neg other] at single'
    rw [List.orderedInsert]
    split
    · rw [timesWhere_cons, if_pos isKind, single]
    · rw [timesWhere_cons, if_neg other, ih single']

/-- Elements that change their kind, and those of another that do not become of this one. -/
theorem timesWhere_map {f : α → α} (same : ∀ a ∈ l, kind (f a) = k ↔ kind a = k)
    {g : β → β} (times : ∀ a ∈ l, kind a = k → time (f a) = g (time a)) :
    timesWhere kind time k (l.map f) = (timesWhere kind time k l).map g := by
  induction l with
  | nil => rfl
  | cons b l ih =>
    have later := ih (fun a inList => same a (List.mem_cons_of_mem _ inList))
      fun a inList => times a (List.mem_cons_of_mem _ inList)
    rw [List.map_cons, timesWhere_cons, timesWhere_cons, later]
    by_cases isKind : kind b = k
    · rw [if_pos isKind, if_pos ((same b List.mem_cons_self).mpr isKind),
        times b List.mem_cons_self isKind, List.map_cons]
    · rw [if_neg isKind, if_neg fun changed => isKind ((same b List.mem_cons_self).mp changed)]

theorem timesWhere_eq_nil (none_ : ∀ a ∈ l, kind a ≠ k) : timesWhere kind time k l = [] := by
  unfold timesWhere
  rw [List.filter_eq_nil_iff.mpr fun a inList isKind => none_ a inList (of_decide_eq_true isKind)]
  rfl

theorem exists_of_mem_timesWhere {t : β} (inTimes : t ∈ timesWhere kind time k l) :
    ∃ a ∈ l, kind a = k ∧ time a = t := by
  obtain ⟨a, inFilter, rfl⟩ := List.mem_map.mp inTimes
  obtain ⟨inList, isKind⟩ := List.mem_filter.mp inFilter
  exact ⟨a, inList, of_decide_eq_true isKind, rfl⟩

end Kinds

end Lib
