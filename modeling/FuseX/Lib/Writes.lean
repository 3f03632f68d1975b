import FuseX.Lib.Packed

/-!
# Logs of writes

What is written to a linear memory, write after write: `applyWrites` is the memory behind a log,
and `Writes.Below` says that a log stays below a bound.
-/

namespace Lib

variable {β : Type*}

/-- The places and what is written there, in order. -/
abbrev Writes (β : Type*) : Type _ := List (Nat × List β)

def applyWrites (memory : Nat → β) (writes : Writes β) : Nat → β :=
  writes.foldl (fun memory write => overwrite memory write.1 write.2) memory

theorem applyWrites_append (memory : Nat → β) (writes writes' : Writes β) :
    applyWrites memory (writes ++ writes') = applyWrites (applyWrites memory writes) writes' :=
  List.foldl_append ..

namespace Writes

/-- No write is at the bound or behind it. -/
def Below (bound : Nat) (writes : Writes β) : Prop :=
  ∀ write ∈ writes, ∀ i < write.2.length, write.1 + i < bound

variable {bound : Nat}

theorem below_nil : Below bound ([] : Writes β) := nofun

theorem below_append {writes writes' : Writes β} :
    Below bound (writes ++ writes') ↔ Below bound writes ∧ Below bound writes' :=
  List.forall_mem_append

theorem below_cons {place : Nat} {bytes : List β} {writes : Writes β} :
    Below bound ((place, bytes) :: writes) ↔
      (bytes = [] ∨ place + bytes.length ≤ bound) ∧ Below bound writes := by
  unfold Below
  rw [List.forall_mem_cons]
  refine and_congr_left fun _ => ?_
  constructor
  · intro inside
    rcases List.eq_nil_or_concat bytes with empty | ⟨front, last, rfl⟩
    · exact .inl empty
    · have final := inside front.length (by simp)
      simp only [List.concat_eq_append, List.length_append, List.length_singleton]
      exact .inr (by omega)
  · rintro (rfl | fits) i inside
    · cases inside
    · exact Nat.lt_of_lt_of_le (Nat.add_lt_add_left inside place) fits

end Writes

end Lib
