import Mathlib.Data.List.Basic

/-!
# Paths that emit words

A step relation in which each step emits a word. `Path step s whole t` says that `whole` is
what a sequence of steps from `s` to `t` emits. A path grows at its end (`Path.snoc`) and
is taken apart at its front (`Path.front`).
-/

namespace Lib

variable {σ α : Type*}

inductive Path (step : σ → List α → σ → Prop) : σ → List α → σ → Prop
  | nil {s : σ} : Path step s [] s
  | cons {s s' t : σ} {word rest : List α} :
    step s word s' → Path step s' rest t → Path step s (word ++ rest) t

variable {step : σ → List α → σ → Prop} {s t u : σ} {word whole : List α}

theorem Path.snoc (path : Path step s whole t) (last : step t word u) :
    Path step s (whole ++ word) u := by
  induction path with
  | nil =>
    have single := Path.cons last Path.nil
    rwa [List.append_nil] at single
  | cons first _ ih =>
    rw [List.append_assoc]
    exact .cons first (ih last)

theorem Path.front (path : Path step s whole t) :
    (whole = [] ∧ s = t) ∨
      ∃ word s' rest, whole = word ++ rest ∧ step s word s' ∧ Path step s' rest t := by
  cases path with
  | nil => exact .inl ⟨rfl, rfl⟩
  | cons first rest => exact .inr ⟨_, _, _, rfl, first, rest⟩

end Lib
