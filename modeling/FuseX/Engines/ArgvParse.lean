import FuseX.Engines.ArgvWords
import Mathlib.Data.List.Forall2

/-!
# The words of a line

The loop of `engine_argv_parse` takes one word after another from the line, and what it has taken
stays in the buffer (`parseLoop_spec`). It comes to the words of the line, unless a quotation is left
open or there is no place for a word; and it writes to nothing behind the line.
-/

namespace FuseX.Engines.Argv

open Lib

variable {chars : Buffer}

/-! ## The loop over the words -/

/-- `argv` points to the words. -/
def Points (buf : Buffer) (argv : List Nat) (args : List Buffer) : Prop :=
  List.Forall₂ (fun p word => stringAt 0 (buf.drop p) = some word) argv args

/-- What stands in front of the rest of the buffer stays there. -/
theorem Points.append {buf : Buffer} {argv : List Nat} {args : List Buffer}
    (points : Points buf argv args) (more : Buffer) : Points (buf ++ more) argv args := by
  refine List.Forall₂.imp (fun p word here => ?_) points
  rw [List.drop_append]
  exact stringAt_append here _

/-- The next word. -/
theorem Points.snoc {buf : Buffer} {argv : List Nat} {args : List Buffer}
    (points : Points buf argv args) (plain : 0 ∉ chars) (gap : Buffer) :
    Points (buf ++ chars ++ 0 :: gap) (argv ++ [buf.length]) (args ++ [chars]) := by
  have here : stringAt 0 ((buf ++ chars ++ 0 :: gap).drop buf.length) = some chars := by
    rw [List.append_assoc, List.drop_left]
    exact stringAt_eq plain gap
  have before : Points (buf ++ chars ++ 0 :: gap) argv args := by
    rw [List.append_assoc]
    exact points.append _
  exact List.rel_append before (.cons here .nil)

/-- What a line may come to, of which the words so far are `args`. -/
def Outcome (maxArgv : Int) (args : List Buffer) (left : Option (List Buffer)) (buf : Buffer)
    (result : Option (List Nat)) : Prop :=
  (result = none ↔ left = none ∨ ∃ more, left = some more ∧
      ∃ i : Nat, args.length ≤ i ∧ i < args.length + more.length ∧ maxArgv ≤ i) ∧
    ∀ argv, result = some argv → ∃ more, left = some more ∧ Points buf argv (args ++ more)

variable {maxArgv : Int} {argv : List Nat} {args : List Buffer} {left : Option (List Buffer)}
  {buf : Buffer}

theorem outcome_done (points : Points buf argv args) : Outcome maxArgv args (some []) buf (some argv) := by
  refine ⟨⟨fun fails => absurd fails (Option.some_ne_none _), ?_⟩, ?_⟩
  · rintro (fails | ⟨more, same, i, low, high, -⟩)
    · exact absurd fails (Option.some_ne_none _)
    · cases same
      rw [List.length_nil] at high
      omega
  · intro argv' same
    cases same
    exact ⟨[], rfl, by rwa [List.append_nil]⟩

theorem outcome_open : Outcome maxArgv args none buf none := by
  refine ⟨⟨fun _ => Or.inl rfl, fun _ => rfl⟩, ?_⟩
  intro argv' same
  exact absurd same.symm (Option.some_ne_none _)

/-- No place for the next word. -/
theorem outcome_full (full : maxArgv ≤ args.length) :
    Outcome maxArgv args (left.map (chars :: ·)) buf none := by
  refine ⟨⟨fun _ => ?_, fun _ => rfl⟩, ?_⟩
  · rcases left with _ | more
    · exact Or.inl rfl
    · refine Or.inr ⟨chars :: more, rfl, args.length, Nat.le_refl _, ?_, full⟩
      rw [List.length_cons]
      omega
  · intro argv' same
    exact absurd same.symm (Option.some_ne_none _)

theorem outcome_next {result : Option (List Nat)} (room : ¬ maxArgv ≤ args.length)
    (rest : Outcome maxArgv (args ++ [chars]) left buf result) :
    Outcome maxArgv args (left.map (chars :: ·)) buf result := by
  obtain ⟨fails, succeeds⟩ := rest
  rw [List.length_append, List.length_singleton] at fails
  refine ⟨fails.trans ?_, ?_⟩
  · rcases left with _ | more
    · exact ⟨fun _ => Or.inl rfl, fun _ => Or.inl rfl⟩
    · constructor
      · rintro (absent | ⟨_, same, i, low, high, limit⟩)
        · exact absurd absent (Option.some_ne_none _)
        · cases same
          refine Or.inr ⟨_, rfl, i, by omega, ?_, limit⟩
          rw [List.length_cons]
          omega
      · rintro (absent | ⟨_, same, i, low, high, limit⟩)
        · exact absurd absent (Option.some_ne_none _)
        · cases same
          rw [List.length_cons] at high
          have later : i ≠ args.length := fun first => room (first ▸ limit)
          exact Or.inr ⟨more, rfl, i, by omega, by omega, limit⟩
  · intro argv' same
    obtain ⟨more, rfl, points⟩ := succeeds argv' same
    refine ⟨chars :: more, rfl, ?_⟩
    rwa [List.append_assoc, List.singleton_append] at points

/-- The loop from between two words: the rest of the line is in the buffer as it was. -/
theorem parseLoop_spec {fuel n : Nat} {done line rest : Buffer} (plain : 0 ∉ line)
    (points : Points done argv args) (length : n = done.length + line.length)
    (enough : line.length < fuel) :
    ∃ buf result, parseLoop n maxArgv fuel (done ++ (line ++ 0 :: rest)) done.length argv =
        some (buf ++ rest, result) ∧ buf.length = n + 1 ∧
      Outcome maxArgv args (words line) buf result := by
  induction fuel generalizing done line argv args with
  | zero => exact absurd enough (Nat.not_lt_zero _)
  | succ fuel ih =>
    have whole : done ++ (line ++ 0 :: rest) = (done ++ line ++ [0]) ++ rest := by
      simp only [List.append_assoc, List.cons_append, List.nil_append]
    have size : (done ++ line ++ [0]).length = n + 1 := by
      rw [List.length_append, List.length_append, length]
      rfl
    rw [parseLoop]
    by_cases empty : n ≤ done.length
    · obtain rfl : line = [] := List.eq_nil_of_length_eq_zero (by omega)
      rw [if_pos empty]
      refine ⟨done ++ [] ++ [0], some argv, by rw [whole], size, ?_⟩
      rw [List.append_nil]
      exact outcome_done (points.append [0])
    · rw [if_neg empty]
      obtain ⟨spaces, line', rfl, same, other, skip⟩ := skipSpaces_spec done (0 :: rest) line
      have leftLength : n - done.length = (spaces ++ line').length := by omega
      rw [leftLength, skip, Option.bind_some, same]
      by_cases blank : n ≤ (done ++ spaces).length
      · rw [List.length_append] at blank length
        obtain rfl : line' = [] := List.eq_nil_of_length_eq_zero (by omega)
        rw [if_pos (by rw [List.length_append]; exact blank)]
        exact ⟨done ++ (spaces ++ []) ++ [0], some argv, by rw [whole], size,
          List.append_assoc done (spaces ++ []) [0] ▸ outcome_done (points.append _)⟩
      · rw [if_neg blank]
        rw [List.length_append] at blank length enough
        have plain' : 0 ∉ line' := fun zero => plain (List.mem_append_right _ zero)
        have filled : line' ≠ [] := by
          rintro rfl
          rw [List.length_nil] at length
          omega
        have length' : n = (done ++ spaces).length + line'.length := by
          rw [List.length_append]
          omega
        have spread : done ++ (spaces ++ line' ++ 0 :: rest) =
            (done ++ spaces) ++ (line' ++ 0 :: rest) := by
          simp only [List.append_assoc]
        have places := points.length_eq
        rw [spread]
        rcases @takeWord_spec n (done ++ spaces) line' rest filled other plain' length' with
          ⟨unclosed, taken⟩ | ⟨chars, gap, plainChars, ⟨last, lengths, taken⟩ |
            ⟨line'', next, plain'', lengths, taken⟩⟩
        · rw [taken, Option.bind_some, unclosed]
          exact ⟨done ++ (spaces ++ line') ++ [0], none, by rw [← spread, whole], size, outcome_open⟩
        · rw [taken, Option.bind_some, last]
          have size' : (done ++ spaces ++ chars ++ 0 :: gap).length = n + 1 := by
            simp only [List.length_append, List.length_cons]
            omega
          by_cases full : maxArgv ≤ argv.length
          · refine ⟨_, none, if_pos full, size', ?_⟩
            exact @outcome_full chars maxArgv args (some []) _ (places ▸ full)
          · obtain ⟨fuel, rfl⟩ := Nat.exists_eq_add_of_lt (show 0 < fuel by omega)
            refine ⟨_, some (argv ++ [(done ++ spaces).length]), (if_neg full).trans ?_, size', ?_⟩
            · rw [Nat.zero_add, parseLoop, if_pos (Nat.le_refl n)]
            · exact @outcome_next chars maxArgv args (some []) _ _ (places ▸ full)
                (outcome_done ((points.append spaces).snoc plainChars gap))
        · rw [taken, Option.bind_some, next]
          by_cases full : maxArgv ≤ argv.length
          · refine ⟨done ++ spaces ++ chars ++ 0 :: gap ++ (line'' ++ [0]), none, ?_, ?_,
              outcome_full (places ▸ full)⟩
            · refine (if_pos full).trans ?_
              simp only [List.append_assoc, List.cons_append, List.nil_append]
            · simp only [List.length_append, List.length_cons, List.length_nil]
              omega
          · obtain ⟨buf, result, going, size', outcome⟩ :=
              @ih (argv ++ [(done ++ spaces).length]) (args ++ [chars])
                (done ++ spaces ++ chars ++ 0 :: gap) line'' plain'' ((points.append spaces).snoc plainChars gap)
                (by simp only [List.length_append, List.length_cons]; omega) (by omega)
            exact ⟨buf, result, (if_neg full).trans going, size',
              outcome_next (places ▸ full) outcome⟩

/-! ## Quoted words -/

theorem wordsIn_quoted {quote : UInt8} {word : Buffer} (other : quote ∉ word) (before rest : Buffer) :
    wordsIn before (some quote) (word ++ quote :: rest) = wordsIn (before ++ word) none rest := by
  induction word generalizing before with
  | nil => rw [List.nil_append, wordsIn, if_pos rfl, List.append_nil]
  | cons c word ih =>
    obtain ⟨differs, others⟩ := List.ne_and_not_mem_of_not_mem_cons other
    rw [List.cons_append, wordsIn, if_neg differs.symm, ih others, List.append_assoc,
      List.singleton_append]

/-- A quoted word in front of the rest of a line. -/
theorem words_quoted {word : Buffer} (oneKind : ¬ (singleQuote ∈ word ∧ doubleQuote ∈ word))
    (rest : Buffer) : words (quoted word ++ rest) = wordsIn word none rest := by
  have chosen : isQuote (quoteFor word) = true ∧ quoteFor word ≠ space ∧ quoteFor word ∉ word := by
    by_cases single : singleQuote ∈ word
    · rw [quoteFor, if_pos single]
      exact ⟨by decide, by decide, fun double => oneKind ⟨single, double⟩⟩
    · rw [quoteFor, if_neg single]
      exact ⟨by decide, by decide, single⟩
  obtain ⟨quotes, notSpace, other⟩ := chosen
  rw [quoted, List.append_assoc, List.singleton_append, List.cons_append, words, if_neg notSpace,
    if_pos quotes, wordsIn_quoted other, List.nil_append]

theorem words_quotedLine {args : List Buffer}
    (oneKind : ∀ a ∈ args, ¬ (singleQuote ∈ a ∧ doubleQuote ∈ a)) :
    words (quotedLine args) = some args := by
  induction args with
  | nil => rfl
  | cons a args ih =>
    have here := words_quoted (oneKind a List.mem_cons_self)
    have others := ih fun b later => oneKind b (List.mem_cons_of_mem a later)
    rcases args with _ | ⟨b, args⟩
    · have line : quotedLine [a] = quoted a ++ [] := by simp [quotedLine]
      rw [line, here]
      rfl
    · have line : quotedLine (a :: b :: args) = quoted a ++ space :: quotedLine (b :: args) := by
        simp [quotedLine, List.intercalate]
      rw [line, here, wordsIn, if_pos rfl, others]
      rfl

/-! ## The whole line -/

theorem intLength_eq {length : Nat} (short : length < 2 ^ 31) : intLength length = length := by
  have small : (length : Int).bmod 4294967296 = length := Int.bmod_eq_of_le (by omega) (by omega)
  have same : (2 : Nat) ^ 32 = 4294967296 := by decide
  unfold intLength
  rw [same, small]
  exact Int.toNat_natCast length

/-- `engine_argv_parse` comes to the words of a line that is not longer than an `int` can say, and
fails just if a quotation is left open or there is a word without a place. It writes only to the line
and the zero behind it, whatever comes after. A line of words in quotes has these words. -/
theorem engineArgvParse_words (line rest : Buffer) (maxArgv : Int) (plain : 0 ∉ line)
    (short : line.length < 2 ^ 31) :
    ∃ buf result, engineArgvParse (line ++ 0 :: rest) maxArgv = some (buf ++ rest, result) ∧
      buf.length = line.length + 1 ∧
      (result = none ↔ words line = none ∨
        ∃ args, words line = some args ∧ ∃ i : Nat, i < args.length ∧ maxArgv ≤ i) ∧
      (∀ argv, result = some argv → ∃ args, words line = some args ∧ Points buf argv args) ∧
      ∀ args, (∀ a ∈ args, ¬ (singleQuote ∈ a ∧ doubleQuote ∈ a)) → line = quotedLine args →
        args.length ≤ maxArgv → ∃ argv, result = some argv ∧ Points buf argv args := by
  have enough : line.length < (line ++ 0 :: rest).length + 1 := by
    rw [List.length_append]
    omega
  obtain ⟨buf, result, parsed, size, fails, succeeds⟩ :=
    @parseLoop_spec maxArgv [] [] _ line.length [] line rest plain .nil (Nat.zero_add _).symm enough
  simp only [List.length_nil, Nat.zero_le, true_and, Nat.zero_add] at fails
  simp only [List.nil_append] at succeeds
  refine ⟨buf, result, ?_, size, fails, succeeds, ?_⟩
  · rw [engineArgvParse, stringAt_eq plain, Option.bind_some, intLength_eq short]
    exact parsed
  · rintro args oneKind rfl room
    have theWords := words_quotedLine oneKind
    rcases ended : result with _ | argv
    · rcases fails.mp ended with unclosed | ⟨more, same, i, inside, limit⟩
      · rw [theWords] at unclosed
        exact absurd unclosed (Option.some_ne_none _)
      · rw [theWords] at same
        cases same
        omega
    · obtain ⟨more, same, points⟩ := succeeds argv ended
      rw [theWords] at same
      cases same
      exact ⟨argv, rfl, points⟩

/-- `a 'b c'` has two words, and one with a place for one. -/
theorem engineArgvParse_two :
    ∃ buf result, engineArgvParse ([97, 32, 39, 98, 32, 99, 39] ++ 0 :: []) 1 =
        some (buf ++ [], result) ∧
      buf.length = [97, 32, 39, 98, 32, 99, 39].length + 1 ∧
      (result = none ↔ words [97, 32, 39, 98, 32, 99, 39] = none ∨
        ∃ args, words [97, 32, 39, 98, 32, 99, 39] = some args ∧
          ∃ i : Nat, i < args.length ∧ 1 ≤ (i : Int)) ∧
      (∀ argv, result = some argv → ∃ args, words [97, 32, 39, 98, 32, 99, 39] = some args ∧
        Points buf argv args) ∧
      ∀ args, (∀ a ∈ args, ¬ (singleQuote ∈ a ∧ doubleQuote ∈ a)) →
        [97, 32, 39, 98, 32, 99, 39] = quotedLine args →
        args.length ≤ (1 : Int) → ∃ argv, result = some argv ∧ Points buf argv args :=
  engineArgvParse_words [97, 32, 39, 98, 32, 99, 39] [] 1 (by decide) (by
    simp only [List.length_cons, List.length_nil]
    omega)

end FuseX.Engines.Argv
