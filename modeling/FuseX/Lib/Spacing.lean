import Mathlib.Algebra.Ring.Nat
import Mathlib.Data.List.Basic

/-!
# Numbers that are apart

How many numbers fit into an interval when any two of them are at least `gap` apart, and how long a list is
of which two parts are known.
-/

namespace Lib

/-- The numbers of the list stand in order, at least `gap` apart. -/
def Apart (gap : Nat) (ps : List Nat) : Prop :=
  ps.Pairwise fun p q => p + gap ≤ q

theorem Apart.sublist {gap : Nat} {ps qs : List Nat} (apart : Apart gap qs) (part : ps.Sublist qs) :
    Apart gap ps :=
  List.Pairwise.sublist part apart

theorem Apart.length_le {gap low high : Nat} {ps : List Nat} (apart : Apart gap ps)
    (within : ∀ p ∈ ps, low ≤ p ∧ p ≤ high) : ps.length * gap ≤ high - low + gap := by
  induction ps generalizing low with
  | nil => simp
  | cons p ps ih =>
    obtain ⟨first, rest⟩ := List.pairwise_cons.mp apart
    have here := within p List.mem_cons_self
    cases ps with
    | nil => simp
    | cons q ps =>
      have next := first q List.mem_cons_self
      have bounded := within q (List.mem_cons_of_mem p List.mem_cons_self)
      have inner := @ih (p + gap) rest fun r among =>
        ⟨first r among, (within r (List.mem_cons_of_mem p among)).2⟩
      rw [List.length_cons, Nat.add_mul, Nat.one_mul]
      omega

/-- A list is as long as the parts where a property holds and where it does not. -/
theorem length_parts (holds : Nat → Bool) (ps : List Nat) :
    ps.length = (ps.filter holds).length + (ps.filter fun p => !holds p).length := by
  induction ps with
  | nil => rfl
  | cons p ps ih =>
    cases here : holds p with
    | true => simp [here, ih]; omega
    | false => simp [here, ih]; omega

end Lib
