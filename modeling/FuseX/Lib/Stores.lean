import Mathlib.Logic.Function.Basic

/-!
# Stores to single cells

`storeAll` is a memory behind a list of stores, and `lastStored` the value that the last of them
has put into a cell.
-/

namespace Lib

variable {κ β : Type*} [DecidableEq κ]

/-- The cells are written one after the other. -/
def storeAll (memory : κ → β) (stores : List (κ × β)) : κ → β :=
  stores.foldl (fun memory store => Function.update memory store.1 store.2) memory

/-- What the last store to a cell has put there. -/
def lastStored : List (κ × β) → κ → Option β
  | [], _ => none
  | store :: stores, cell =>
      (lastStored stores cell).or (if store.1 = cell then some store.2 else none)

theorem storeAll_append (memory : κ → β) (front back : List (κ × β)) :
    storeAll memory (front ++ back) = storeAll (storeAll memory front) back := List.foldl_append

theorem lastStored_append (front back : List (κ × β)) (cell : κ) :
    lastStored (front ++ back) cell = (lastStored back cell).or (lastStored front cell) := by
  induction front with
  | nil => rw [List.nil_append, lastStored, Option.or_none]
  | cons store front ih => rw [List.cons_append, lastStored, ih, lastStored, Option.or_assoc]

theorem storeAll_apply (memory : κ → β) (stores : List (κ × β)) (cell : κ) :
    storeAll memory stores cell = (lastStored stores cell).getD (memory cell) := by
  induction stores generalizing memory with
  | nil => rfl
  | cons store stores ih =>
    change storeAll (Function.update memory store.1 store.2) stores cell = _
    rw [ih, lastStored]
    cases lastStored stores cell with
    | some value => rfl
    | none =>
      rw [Option.getD_none, Option.none_or]
      by_cases here : store.1 = cell
      · rw [if_pos here, ← here, Function.update_self]
        rfl
      · rw [if_neg here, Function.update_of_ne (Ne.symm here)]
        rfl

theorem lastStored_eq_none {stores : List (κ × β)} {cell : κ} :
    lastStored stores cell = none ↔ ∀ store ∈ stores, store.1 ≠ cell := by
  induction stores with
  | nil => exact ⟨fun _ _ none_ => absurd none_ List.not_mem_nil, fun _ => rfl⟩
  | cons store stores ih =>
    rw [lastStored, Option.or_eq_none_iff, ih, List.forall_mem_cons, and_comm,
      ite_eq_right_iff, imp_iff_not (Option.some_ne_none _)]

/-- The last store to a cell is one with no store to that cell behind it. -/
theorem lastStored_eq_some {stores : List (κ × β)} {cell : κ} {value : β} :
    lastStored stores cell = some value ↔ ∃ front back, stores = front ++ (cell, value) :: back
      ∧ ∀ store ∈ back, store.1 ≠ cell := by
  constructor
  · intro found
    induction stores with
    | nil => exact absurd found.symm (Option.some_ne_none _)
    | cons store stores ih =>
      rw [lastStored] at found
      cases later : lastStored stores cell with
      | some value' =>
        rw [later] at found
        obtain ⟨front, back, rfl, last⟩ := ih (later.trans found)
        exact ⟨store :: front, back, rfl, last⟩
      | none =>
        rw [later, Option.none_or] at found
        obtain ⟨here, same⟩ := Option.ite_none_right_eq_some.mp found
        refine ⟨[], stores, ?_, lastStored_eq_none.mp later⟩
        rw [← here, ← Option.some.inj same]
        rfl
  · rintro ⟨front, back, rfl, last⟩
    rw [lastStored_append, lastStored, lastStored_eq_none.mpr last, Option.none_or, if_pos rfl]
    rfl

/-- The same for the stores that some of the items of a list make. -/
theorem lastStored_filterMap {α : Type*} {f : α → Option (κ × β)} {items : List α} {cell : κ}
    {value : β} : lastStored (items.filterMap f) cell = some value ↔
      ∃ before item after, items = before ++ item :: after ∧ f item = some (cell, value)
        ∧ ∀ other ∈ after, ∀ store, f other = some store → store.1 ≠ cell := by
  rw [lastStored_eq_some]
  constructor
  · rintro ⟨front, back, split, last⟩
    obtain ⟨before, rest, rfl, -, rest_⟩ := List.filterMap_eq_append_iff.mp split
    obtain ⟨skipped, item, after, rfl, none_, makes, rfl⟩ := List.filterMap_eq_cons_iff.mp rest_
    refine ⟨before ++ skipped, item, after, (List.append_assoc ..).symm, makes, ?_⟩
    intro other inside store stores
    exact last store (List.mem_filterMap.mpr ⟨other, inside, stores⟩)
  · rintro ⟨before, item, after, rfl, makes, last⟩
    refine ⟨before.filterMap f, after.filterMap f, ?_, ?_⟩
    · rw [List.filterMap_append, List.filterMap_cons_some makes]
    · intro store inside
      obtain ⟨other, inside, stores⟩ := List.mem_filterMap.mp inside
      exact last other inside store stores

end Lib
