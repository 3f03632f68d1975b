import Mathlib.Algebra.Ring.Nat
import Mathlib.Data.List.Basic
import Mathlib.Data.List.TakeWhile

/-!
# Separated segments of a list

The words of a list between occurrences of a separator, and the rendering that
writes one separator before each word. Both are stated over an arbitrary
alphabet.

* `segments sep xs` drops the empty words;
* `join sep ws` is the rendering of `ws`;
* `segments_join` recovers proper words from their rendering, and
  `join_injective` separates renderings of separator-free words.
-/

namespace Lib

variable {α : Type*} {sep : α}

/-- Write every word with one separator before it. -/
def join (sep : α) (words : List (List α)) : List α :=
  words.flatMap (sep :: ·)

@[simp] theorem join_nil : join sep [] = [] := rfl

@[simp] theorem join_cons (word : List α) (words : List (List α)) :
    join sep (word :: words) = sep :: (word ++ join sep words) := rfl

@[simp] theorem join_append (front rest : List (List α)) :
    join sep (front ++ rest) = join sep front ++ join sep rest :=
  List.flatMap_append

theorem length_join (words : List (List α)) :
    (join sep words).length = (words.map (·.length + 1)).sum := by
  induction words with
  | nil => rfl
  | cons word words ih => simp [ih]; omega

theorem join_eq_intercalate {words : List (List α)} (nonempty : words ≠ []) :
    join sep words = [sep].intercalate ([] :: words) := by
  induction words with
  | nil => exact absurd rfl nonempty
  | cons word words ih =>
    cases words with
    | nil => simp [List.intercalate_cons_cons]
    | cons next words =>
      have tail := ih (by simp)
      rw [List.intercalate_cons_cons] at tail ⊢
      rw [List.intercalate_cons_cons]
      simp only [join_cons, List.nil_append] at tail ⊢
      simp [← tail]

variable [DecidableEq α]

/-- The nonempty words of `xs` between separators, in order. -/
def segments (sep : α) (xs : List α) : List (List α) :=
  (xs.splitOn sep).filter (· ≠ [])

/-- A list is a separator-free word, or such a word, a separator and a shorter
list. -/
theorem separated_induction (sep : α) {motive : List α → Prop}
    (word : ∀ w, sep ∉ w → motive w)
    (step : ∀ w rest, sep ∉ w → motive rest → motive (w ++ sep :: rest)) :
    ∀ xs, motive xs := by
  intro xs
  induction h : xs.length using Nat.strongRecOn generalizing xs with
  | ind n ih =>
    by_cases member : sep ∈ xs
    · obtain ⟨w, rest, rfl, free⟩ := List.eq_append_cons_of_mem member
      refine step w rest free (ih rest.length ?_ rest rfl)
      rw [← h, List.length_append, List.length_cons]
      omega
    · exact word xs member

/-! ## Segments -/

@[simp] theorem segments_nil : segments sep [] = [] := by
  simp [segments, List.splitOn_nil]

theorem segments_of_not_mem {word : List α} (free : sep ∉ word) :
    segments sep word = if word = [] then [] else [word] := by
  by_cases empty : word = [] <;> simp [segments, List.splitOn_eq_singleton free, empty]

theorem segments_append_separated (front rest : List α) :
    segments sep (front ++ sep :: rest) = segments sep front ++ segments sep rest := by
  simp [segments, List.splitOn_append_cons_self]

@[simp] theorem segments_cons_self (rest : List α) :
    segments sep (sep :: rest) = segments sep rest := by
  exact segments_append_separated [] rest |>.trans (by simp)

theorem of_mem_segments {xs word : List α} (member : word ∈ segments sep xs) :
    word ≠ [] ∧ sep ∉ word := by
  induction xs using separated_induction sep with
  | word w free =>
    rw [segments_of_not_mem free] at member
    split at member <;> simp_all
  | step w rest free ih =>
    rw [segments_append_separated, segments_of_not_mem free] at member
    rcases List.mem_append.mp member with first | later
    · split at first <;> simp_all
    · exact ih later

/-- Leading separators do not contribute a segment. -/
theorem segments_dropWhile (xs : List α) :
    segments sep (xs.dropWhile (· == sep)) = segments sep xs := by
  induction xs with
  | nil => rfl
  | cons x xs ih =>
    by_cases same : x = sep
    · subst same
      simpa using ih
    · simp [same]

/-- The first segment of a list that does not start with a separator. -/
theorem segments_takeWhile {x : α} {xs : List α} (notSep : x ≠ sep) :
    segments sep (x :: xs) =
      (x :: xs).takeWhile (· != sep) :: segments sep ((x :: xs).dropWhile (· != sep)) := by
  have free : sep ∉ (x :: xs).takeWhile (· != sep) := by
    intro member
    simpa using List.mem_takeWhile_imp member
  have nonempty : (x :: xs).takeWhile (· != sep) ≠ [] := by simp [notSep]
  conv_lhs => rw [← List.takeWhile_append_dropWhile (p := (· != sep)) (l := x :: xs)]
  cases rest : (x :: xs).dropWhile (· != sep) with
  | nil => simp [segments_of_not_mem free, nonempty]
  | cons y ys =>
    have headSep : y = sep := by
      have := List.head_dropWhile_not (· != sep) (l := x :: xs) (by simp [rest])
      simpa [rest] using this
    subst headSep
    rw [segments_append_separated, segments_of_not_mem free, if_neg nonempty, segments_cons_self]
    rfl

/-- The segments together with one separator each are no longer than the list
they come from, plus the separator a first segment may lack. -/
theorem sum_length_segments_le (xs : List α) :
    ((segments sep xs).map (·.length + 1)).sum ≤ xs.length + 1 := by
  induction xs using separated_induction sep with
  | word w free =>
    rw [segments_of_not_mem free]
    split <;> simp
  | step w rest free ih =>
    rw [segments_append_separated, segments_of_not_mem free, List.map_append, List.sum_append,
      List.length_append, List.length_cons]
    split
    · rw [List.map_nil, List.sum_nil]
      omega
    · rw [List.map_singleton, List.sum_singleton]
      omega

/-! ## Rendering -/

/-- Proper words are the segments of their rendering. -/
theorem segments_join {words : List (List α)} (proper : ∀ w ∈ words, w ≠ [] ∧ sep ∉ w) :
    segments sep (join sep words) = words := by
  induction words with
  | nil => simp
  | cons word words ih =>
    obtain ⟨nonempty, free⟩ := proper word (by simp)
    have rest := ih fun w member => proper w (by simp [member])
    rw [join_cons, segments_cons_self]
    cases words with
    | nil => simp [segments_of_not_mem free, nonempty]
    | cons next words =>
      rw [join_cons] at rest ⊢
      rw [segments_append_separated, segments_of_not_mem free, if_neg nonempty]
      simpa using rest

/-- Separator-free words are determined by their rendering. -/
theorem join_injective {words words' : List (List α)} (free : ∀ w ∈ words, sep ∉ w)
    (free' : ∀ w ∈ words', sep ∉ w) (same : join sep words = join sep words') :
    words = words' := by
  have recover : ∀ ws : List (List α), (∀ w ∈ ws, sep ∉ w) → ws ≠ [] →
      (join sep ws).splitOn sep = [] :: ws := by
    intro ws wsFree nonempty
    rw [join_eq_intercalate nonempty]
    exact List.splitOn_intercalate sep (by simpa using wsFree) (by simp)
  cases words with
  | nil => cases words' <;> simp_all
  | cons w ws =>
    cases words' with
    | nil => simp at same
    | cons w' ws' =>
      have left := recover _ free (by simp)
      rw [same, recover _ free' (by simp)] at left
      exact (List.cons.inj left).2.symm

end Lib
