import Mathlib.Data.List.Forall2

/-!
# Loops that stop at the first error

A loop over a list whose turns may fail is `List.mapM` in `Except`. The loops of
a pass are followed over the items the pass began with: `mapM_ok` carries a
relation to them from one loop to the next, and where the turns fail for some of
them, all with one error, the loop ends with it (`mapM_error`).
-/

namespace Lib

variable {ε α β γ : Type*} {f : β → Except ε γ} {P : α → β → Prop} {Q : α → γ → Prop}
  {items : List α} {xs : List β}

theorem mapM_ok (related : List.Forall₂ P items xs)
    (turns : ∀ item x, P item x → ∃ y, f x = .ok y ∧ Q item y) :
    ∃ ys, xs.mapM f = .ok ys ∧ List.Forall₂ Q items ys := by
  induction related with
  | nil => exact ⟨[], rfl, .nil⟩
  | cons here _ ih =>
    obtain ⟨y, done, next⟩ := turns _ _ here
    obtain ⟨ys, rest, others⟩ := ih
    refine ⟨y :: ys, ?_, .cons next others⟩
    rw [List.mapM_cons, done]
    simp only [bind, Except.bind, rest]
    rfl

theorem mapM_error {bad : α → Prop} {e : ε} (related : List.Forall₂ P items xs)
    (turns : ∀ item x, P item x → ¬ bad item → ∃ y, f x = .ok y)
    (stops : ∀ item x, P item x → bad item → f x = .error e) (some : ∃ item ∈ items, bad item) :
    xs.mapM f = .error e := by
  induction related with
  | nil =>
    obtain ⟨item, member, -⟩ := some
    cases member
  | @cons first x items xs here rest ih =>
    rw [List.mapM_cons]
    by_cases stop : bad first
    · rw [stops _ _ here stop]
      rfl
    · obtain ⟨y, done⟩ := turns _ _ here stop
      obtain ⟨item, member, fails⟩ := some
      rcases List.mem_cons.mp member with rfl | later
      · exact absurd fails stop
      · rw [done]
        simp only [bind, Except.bind]
        rw [ih ⟨item, later, fails⟩]

/-- What is made of each item in the same way. -/
theorem map_eq_of_forall₂ {δ : Type*} {u : β → δ} {v : α → δ} (related : List.Forall₂ P items xs)
    (same : ∀ item x, P item x → u x = v item) : xs.map u = items.map v := by
  induction related with
  | nil => rfl
  | cons here _ ih => rw [List.map_cons, List.map_cons, same _ _ here, ih]

theorem forall₂_mem (related : List.Forall₂ P items xs) :
    List.Forall₂ (fun item x => item ∈ items ∧ P item x) items xs := by
  induction related with
  | nil => exact .nil
  | cons here _ ih =>
    exact .cons ⟨List.mem_cons_self, here⟩
      (ih.imp fun item x related => ⟨List.mem_cons_of_mem _ related.1, related.2⟩)

/-- The items a pass begins with. -/
theorem forall₂_map {g : α → β} : List.Forall₂ (fun item x => item ∈ items ∧ x = g item)
    items (items.map g) := by
  rw [List.forall₂_map_right_iff, List.forall₂_same]
  exact fun item member => ⟨member, rfl⟩

end Lib
