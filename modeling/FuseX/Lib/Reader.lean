import Mathlib.Data.List.Basic

/-!
# Files that are read in pieces

A `Reader` is a way to read open files. A read returns a piece of what is left of the file: possibly less
than it is asked for, and nothing only at the end.

* `Reader.skip` reads over a number of items;
* `skip_done` is what a skip that has succeeded has read, and `skip_ends` that enough rounds end it.
-/

namespace Lib

variable {ε β σ : Type*}

structure Reader (ε β σ : Type*) where
  read : σ → Nat → Except ε (List β) × σ
  left : σ → List β
  piece : ∀ {file size items}, (read file size).1 = .ok items →
    left file = items ++ left (read file size).2 ∧ items.length ≤ size
  atEnd : ∀ {file size}, 0 < size → (read file size).1 = .ok [] → left file = []

namespace Reader

/-! ## Reading over items -/

/-- Read over `count` items, at most `limit` in a round; it fails where a read fails or finds nothing. -/
def skip (reader : Reader ε β σ) (limit : Nat) : Nat → σ → Nat → Option (Option σ)
  | 0, _, _ => none
  | rounds + 1, file, count =>
    if count = 0 then some (some file)
    else
      match reader.read file (min count limit) with
      | (.error _, _) => some none
      | (.ok [], _) => some none
      | (.ok (item :: items), file) => reader.skip limit rounds file (count - (item :: items).length)

variable {reader : Reader ε β σ} {limit rounds count : Nat} {file after : σ}

theorem skip_done (done : reader.skip limit rounds file count = some (some after)) :
    ∃ gone, reader.left file = gone ++ reader.left after ∧ gone.length = count := by
  induction rounds generalizing file count with
  | zero => nomatch done
  | succ rounds ih =>
    rw [skip] at done
    by_cases zero : count = 0
    · rw [if_pos zero] at done
      obtain rfl : file = after := by simpa using done
      exact ⟨[], rfl, zero.symm⟩
    · rw [if_neg zero] at done
      rcases read : reader.read file (min count limit) with ⟨⟨_⟩ | ⟨_ | ⟨item, items⟩⟩, next⟩
      · simp [read] at done
      · simp [read] at done
      · rw [read] at done
        obtain ⟨split, short⟩ := reader.piece (congrArg Prod.fst read)
        rw [read] at split
        obtain ⟨gone, rest, long⟩ := ih done
        refine ⟨item :: items ++ gone, ?_, ?_⟩
        · rw [split, rest, List.append_assoc]
        · rw [List.length_append, long]
          omega

theorem skip_ends (enough : count < rounds) : ∃ result, reader.skip limit rounds file count = some result := by
  induction rounds generalizing file count with
  | zero => exact absurd enough (Nat.not_lt_zero _)
  | succ rounds ih =>
    rw [skip]
    by_cases zero : count = 0
    · rw [if_pos zero]
      exact ⟨_, rfl⟩
    · rw [if_neg zero]
      rcases reader.read file (min count limit) with ⟨⟨_⟩ | ⟨_ | ⟨item, items⟩⟩, next⟩
      · exact ⟨_, rfl⟩
      · exact ⟨_, rfl⟩
      · apply ih
        simp only [List.length_cons]
        omega

end Reader

end Lib
