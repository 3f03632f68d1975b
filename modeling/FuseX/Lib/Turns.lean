import Mathlib.Logic.Function.Iterate

/-!
# Loops that end after a turn

`runTurns turn` takes a turn, and another one as long as the last said so; it counts them. Two
loops whose turns go together make as many turns and end in states that do (`runTurns_together`);
a loop whose turns count down ends in as many turns as the count allows (`runTurns_ends`), and in
just as many if it goes on until the count is used up (`runTurns_count`).
-/

namespace Lib

variable {σ τ : Type*}

/-- The number of turns and the last state, if the loop ends within the fuel. A turn may be stuck. -/
def runTurns (turn : σ → Option (σ × Bool)) : Nat → σ → Option (Nat × σ)
  | 0, _ => none
  | fuel + 1, x =>
      match turn x with
      | none => none
      | some (y, false) => some (1, y)
      | some (y, true) => (runTurns turn fuel y).map fun (n, z) => (n + 1, z)

variable {turn : σ → Option (σ × Bool)} {turn' : τ → Option (τ × Bool)} {fuel n : Nat} {x y z : σ}

theorem runTurns_last (last : turn x = some (y, false)) (fuelled : 0 < fuel) :
    runTurns turn fuel x = some (1, y) := by
  obtain ⟨fuel, rfl⟩ := Nat.exists_eq_add_of_lt fuelled
  rw [Nat.zero_add, runTurns, last]

theorem runTurns_again (again : turn x = some (y, true)) (rest : runTurns turn fuel y = some (n, z)) :
    runTurns turn (fuel + 1) x = some (n + 1, z) := by
  rw [runTurns, again]
  simp only [rest, Option.map_some]

/-- A loop that ends makes a last turn, or a turn and then the rest. -/
theorem runTurns_cases (ends : runTurns turn fuel x = some (n, z)) :
    ∃ fuel', fuel = fuel' + 1 ∧
      (n = 1 ∧ turn x = some (z, false) ∨
        ∃ y m, n = m + 1 ∧ turn x = some (y, true) ∧ runTurns turn fuel' y = some (m, z)) := by
  rcases fuel with _ | fuel
  · exact absurd ends.symm (Option.some_ne_none _)
  · refine ⟨fuel, rfl, ?_⟩
    rw [runTurns] at ends
    rcases turned : turn x with _ | ⟨y, _ | _⟩
    · rw [turned] at ends
      exact absurd ends.symm (Option.some_ne_none _)
    · rw [turned] at ends
      cases ends
      exact Or.inl ⟨rfl, rfl⟩
    · rw [turned] at ends
      rcases rest : runTurns turn fuel y with _ | ⟨m, w⟩
      · simp only [rest, Option.map_none] at ends
        exact absurd ends.symm (Option.some_ne_none _)
      · simp only [rest, Option.map_some, Option.some.injEq, Prod.mk.injEq] at ends
        obtain ⟨rfl, rfl⟩ := ends
        exact Or.inr ⟨y, m, rfl, rfl, rest⟩

/-- Turns that go together, as long as the loops go on (`R`) and at their end (`Q`). -/
theorem runTurns_together {R Q : σ → τ → Prop}
    (together : ∀ x x' y more, R x x' → turn x = some (y, more) →
      ∃ y', turn' x' = some (y', more) ∧ if more then R y y' else Q y y')
    {x' : τ} (start : R x x') (ends : runTurns turn fuel x = some (n, z)) :
    ∃ z', runTurns turn' fuel x' = some (n, z') ∧ Q z z' := by
  induction fuel generalizing x x' n with
  | zero => exact absurd ends.symm (Option.some_ne_none _)
  | succ fuel ih =>
    obtain ⟨_, same, ⟨rfl, last⟩ | ⟨y, m, rfl, again, rest⟩⟩ := runTurns_cases ends
    · obtain ⟨z', last', final⟩ := together x x' z false start last
      exact ⟨z', runTurns_last last' (Nat.succ_pos _), final⟩
    · obtain rfl : fuel = _ := Nat.succ.inj same
      obtain ⟨y', again', related⟩ := together x x' y true start again
      obtain ⟨z', rest', final⟩ := ih related rest
      exact ⟨z', runTurns_again again' rest', final⟩

/-- Turns that count down. -/
theorem runTurns_ends {count : σ → Nat} (positive : ∀ x, 0 < count x)
    (turns : ∀ x, ∃ y more, turn x = some (y, more) ∧ (more = true → count y < count x))
    (enough : count x ≤ fuel) : ∃ n z, runTurns turn fuel x = some (n, z) ∧ n ≤ count x := by
  induction fuel generalizing x with
  | zero =>
    have fuelled := positive x
    omega
  | succ fuel ih =>
    obtain ⟨y, more, turned, less⟩ := turns x
    cases more
    · exact ⟨1, y, runTurns_last turned (Nat.succ_pos _), positive x⟩
    · have fewer := less rfl
      obtain ⟨n, z, rest, bound⟩ := @ih y (by omega)
      exact ⟨n + 1, z, runTurns_again turned rest, by omega⟩

/-- Turns that count down by one, until there is one left. -/
theorem runTurns_count {count : σ → Nat}
    (turns : ∀ x y more, turn x = some (y, more) →
      (more = true ↔ count x ≠ 1) ∧ (more = true → count y + 1 = count x))
    (ends : runTurns turn fuel x = some (n, z)) : n = count x := by
  induction fuel generalizing x n with
  | zero => exact absurd ends.symm (Option.some_ne_none _)
  | succ fuel ih =>
    obtain ⟨_, same, ⟨rfl, last⟩ | ⟨y, m, rfl, again, rest⟩⟩ := runTurns_cases ends
    · by_contra other
      exact Bool.noConfusion ((turns x z false last).1.mpr fun one => other one.symm)
    · obtain rfl : fuel = _ := Nat.succ.inj same
      rw [ih rest, (turns x y true again).2 rfl]

end Lib
