import Mathlib.Data.List.Nodup
import Mathlib.Data.List.ProdSigma

/-!
# Loops over cells

A loop that goes over cells, no cell twice, and changes at each only what is seen there:
`foldl_view` is what is seen behind it, `foldl_keeps` what it leaves true, and `countP_drop`
counts a cell that is lost. `foldl_product` makes one loop of two.
-/

namespace Lib

variable {σ κ γ : Type*} {step : σ → κ → σ}

theorem foldl_keeps {P : σ → Prop} {cells : List κ}
    (keeps : ∀ s cell, cell ∈ cells → P s → P (step s cell)) {s : σ} (start : P s) :
    P (cells.foldl step s) := by
  induction cells generalizing s with
  | nil => exact start
  | cons cell cells ih =>
    refine ih (fun s other inside => keeps s other (List.mem_cons_of_mem _ inside)) ?_
    exact keeps s cell List.mem_cons_self start

theorem foldl_view_outside {view : σ → κ → γ}
    (others : ∀ s cell other, other ≠ cell → view (step s cell) other = view s other)
    {cells : List κ} {cell : κ} (outside : cell ∉ cells) (s : σ) :
    view (cells.foldl step s) cell = view s cell :=
  foldl_keeps (P := fun s' => view s' cell = view s cell)
    (fun s' first inside same =>
      (others s' first cell (fun here => outside (here ▸ inside))).trans same) rfl

theorem foldl_view {view : σ → κ → γ} {change : κ → γ → γ}
    (own : ∀ s cell, view (step s cell) cell = change cell (view s cell))
    (others : ∀ s cell other, other ≠ cell → view (step s cell) other = view s other)
    {cells : List κ} (nodup : cells.Nodup) {cell : κ} (inside : cell ∈ cells) (s : σ) :
    view (cells.foldl step s) cell = change cell (view s cell) := by
  induction cells generalizing s with
  | nil => exact absurd inside List.not_mem_nil
  | cons first cells ih =>
    obtain ⟨new, nodup⟩ := List.nodup_cons.mp nodup
    rw [List.foldl_cons]
    rcases List.mem_cons.mp inside with here | later
    · rw [here, foldl_view_outside others new, own]
    · rw [ih nodup later, others s first cell fun here => new (here ▸ later)]

/-- Losing one of the cells counted makes the count less by one. -/
theorem countP_drop {cells : List κ} {p q : κ → Bool} {cell : κ} (nodup : cells.Nodup)
    (inside : cell ∈ cells) (was : p cell = true) (lost : q cell = false)
    (others : ∀ other, other ≠ cell → q other = p other) :
    cells.countP q + 1 = cells.countP p := by
  induction cells with
  | nil => exact absurd inside List.not_mem_nil
  | cons first cells ih =>
    obtain ⟨new, nodup⟩ := List.nodup_cons.mp nodup
    by_cases here : first = cell
    · have same : cells.countP q = cells.countP p := by
        refine List.countP_congr fun other inside => ?_
        rw [others other fun same => new (here ▸ same ▸ inside)]
      rw [here, List.countP_cons_of_neg (by rw [lost]; exact Bool.false_ne_true),
        List.countP_cons_of_pos was, same]
    · have rest := ih nodup ((List.mem_cons.mp inside).resolve_left (Ne.symm here))
      rw [List.countP_cons, List.countP_cons, others first here, ← rest]
      omega

/-- Two loops, one within the other, are one over the pairs. -/
theorem foldl_product {α β : Type*} (step : σ → α × β → σ) (outer : List α) (inner : List β)
    (s : σ) :
    outer.foldl (fun s a => inner.foldl (fun s b => step s (a, b)) s) s
      = (outer ×ˢ inner).foldl step s := by
  induction outer generalizing s with
  | nil => rfl
  | cons a outer ih =>
    rw [List.foldl_cons, ih, List.product_cons, List.foldl_append, List.foldl_map]

end Lib
