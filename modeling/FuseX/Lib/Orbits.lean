import Mathlib.Data.Set.Finite.Basic
import Mathlib.Data.Finset.Card
import Mathlib.Logic.Function.Iterate
import Mathlib.Data.Set.Finite.Range

/-!
# Loops that may come back

A loop that goes from a place to the next one, as long as it is at a place where it goes on.
With finitely many such places it ends if and only if it comes to none of them twice
(`halts_iff`), and then within as many turns as there are places (`halts_within`).
-/

namespace Lib

variable {α : Type*} {next : α → α} {goesOn : α → Prop} {start : α}

def Halts (next : α → α) (goesOn : α → Prop) (start : α) : Prop :=
  ∃ k, ¬ goesOn (next^[k] start)

/-- The loop comes to a place where it was. -/
def ComesBack (next : α → α) (goesOn : α → Prop) (start : α) : Prop :=
  ∃ i k, i < k ∧ (∀ j < k, goesOn (next^[j] start)) ∧ next^[i] start = next^[k] start

/-- From two equal places the loop goes the same way. -/
theorem iterate_eq_add {i k : Nat} (same : next^[i] start = next^[k] start) (m : Nat) :
    next^[i + m] start = next^[k + m] start := by
  rw [Nat.add_comm i, Nat.add_comm k, Function.iterate_add_apply, Function.iterate_add_apply, same]

theorem not_halts_of_comesBack (back : ComesBack next goesOn start) :
    ¬ Halts next goesOn start := by
  obtain ⟨i, k, before, passed, same⟩ := back
  suffices goes : ∀ j, goesOn (next^[j] start) by
    rintro ⟨j, stops⟩
    exact stops (goes j)
  intro j
  induction j using Nat.strong_induction_on with
  | _ j ih =>
    by_cases early : j < k
    · exact passed j early
    · have again := iterate_eq_add same (j - k)
      rw [Nat.add_sub_cancel' (Nat.not_lt.mp early)] at again
      rw [← again]
      exact ih _ (by omega)

theorem halts_iff (finite : {x | goesOn x}.Finite) :
    Halts next goesOn start ↔ ¬ ComesBack next goesOn start := by
  refine ⟨fun halts back => not_halts_of_comesBack back halts, fun never => ?_⟩
  by_contra endless
  have goes : ∀ k, goesOn (next^[k] start) := by
    intro k
    by_contra stops
    exact endless ⟨k, stops⟩
  have injective : Function.Injective fun k => next^[k] start := by
    intro i k same
    rcases Nat.lt_trichotomy i k with before | rfl | behind
    · exact absurd ⟨i, k, before, fun j _ => goes j, same⟩ never
    · rfl
    · exact absurd ⟨k, i, behind, fun j _ => goes j, same.symm⟩ never
  exact Set.infinite_of_injective_forall_mem injective goes finite

/-- Over numbers below a bound, the loop ends within as many turns. -/
theorem halts_within {next : Nat → Nat} {goesOn : Nat → Prop} {start bound : Nat}
    (below : ∀ p, goesOn p → p < bound) (halts : Halts next goesOn start) :
    ∃ k ≤ bound, ¬ goesOn (next^[k] start) := by
  by_contra late
  have goes : ∀ k ≤ bound, goesOn (next^[k] start) := by
    intro k early
    by_contra stops
    exact late ⟨k, early, stops⟩
  have maps : ∀ k ∈ Finset.range (bound + 1), next^[k] start ∈ Finset.range bound := by
    intro k inRange
    exact Finset.mem_range.mpr (below _ (goes k (Nat.le_of_lt_succ (Finset.mem_range.mp inRange))))
  have more : (Finset.range bound).card < (Finset.range (bound + 1)).card := by
    rw [Finset.card_range, Finset.card_range]
    exact Nat.lt_succ_self bound
  obtain ⟨i, inRange, k, inRange', differ, same⟩ :=
    Finset.exists_ne_map_eq_of_card_lt_of_maps_to more maps
  have early := Nat.le_of_lt_succ (Finset.mem_range.mp inRange)
  have early' := Nat.le_of_lt_succ (Finset.mem_range.mp inRange')
  rcases Nat.lt_or_gt_of_ne differ with before | behind
  · exact not_halts_of_comesBack ⟨i, k, before, fun j lt => goes j (by omega), same⟩ halts
  · exact not_halts_of_comesBack ⟨k, i, behind, fun j lt => goes j (by omega), same.symm⟩ halts

end Lib
