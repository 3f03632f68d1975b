import FuseX.Xfs.Path
import Mathlib.Data.List.Induction

/-!
# The buffer walk of the resolver

The output buffer of `xfs_resolve_path` is the rendering of a stack of words,
topmost first. A name pushes itself; a `..` removes the topmost word (and the
empty word above it, if a previous `..` left one) and leaves an empty word
behind unless nothing is below.

`resolveLoop_walk` is the spec of the loop: with room in the buffer it computes
the rendering of the walk over the segments.
-/

namespace FuseX.Xfs

open Lib

/-! ## Stacks of words -/

/-- The effect of `..` on the words of the buffer, topmost first. -/
def walkPop : List CString → List CString
  | [] => []
  | [_] => []
  | [[], _] => []
  | [] :: _ :: below => [] :: below
  | (_ :: _) :: below => [] :: below

/-- The effect of one segment on the words of the buffer. -/
def walkStep (words : List CString) (segment : CString) : List CString :=
  if segment = [dot] then words
  else if segment = [dot, dot] then walkPop words
  else segment :: words

/-- The buffer that holds `words`. -/
def walkText (words : List CString) : CString :=
  if words = [] then [slash] else join slash words.reverse

/-- The bottom word, written first, is not empty. -/
def Grounded : List CString → Prop
  | [] => True
  | [word] => word ≠ []
  | _ :: below => Grounded below

/-- The words the walk can hold. -/
structure WalkOk (words : List CString) : Prop where
  grounded : Grounded words
  free : ∀ word ∈ words, slash ∉ word

theorem WalkOk.nil : WalkOk [] := ⟨True.intro, by simp⟩

theorem Grounded.cons {words : List CString} {word : CString} (grounded : Grounded words)
    (nonempty : word ≠ []) : Grounded (word :: words) := by
  cases words with
  | nil => exact nonempty
  | cons next below => exact grounded

theorem Grounded.tail {words : List CString} {word : CString}
    (grounded : Grounded (word :: words)) : Grounded words := by
  cases words with
  | nil => exact True.intro
  | cons next below => exact grounded

theorem WalkOk.push {words : List CString} {word : CString} (ok : WalkOk words)
    (nonempty : word ≠ []) (free : slash ∉ word) : WalkOk (word :: words) where
  grounded := ok.grounded.cons nonempty
  free := by simpa [free] using ok.free

/-- The words a `..` deletes and the ones that stay. -/
theorem walkPop_cases {words : List CString} (ok : WalkOk words) (nonempty : words ≠ []) :
    ∃ deleted below, deleted ≠ [] ∧ words = deleted ++ below ∧ WalkOk below ∧
      walkPop words = (if below = [] then [] else [] :: below) ∧
      ∃ word, slash ∉ word ∧ ∃ last,
        join slash deleted.reverse = slash :: (word ++ [last]) := by
  match words with
  | [] => exact absurd rfl nonempty
  | [[]] => exact absurd rfl ok.grounded
  | (c :: cs) :: below =>
    have freeWord : slash ∉ (c :: cs).dropLast := fun member =>
      ok.free _ (by simp) (List.dropLast_subset _ member)
    refine ⟨[c :: cs], below, by simp, rfl,
      ⟨ok.grounded.tail, fun w member => ok.free w (by simp [member])⟩, ?_,
      (c :: cs).dropLast, freeWord, (c :: cs).getLast (by simp), ?_⟩
    · cases below <;> simp [walkPop]
    · simp [List.dropLast_append_getLast]
  | [] :: word :: below =>
    refine ⟨[[], word], below, by simp, rfl,
      ⟨ok.grounded.tail.tail, fun w member => ok.free w (by simp [member])⟩, ?_,
      word, ok.free word (by simp), slash, ?_⟩
    · cases below <;> simp [walkPop]
    · simp

theorem WalkOk.pop {words : List CString} (ok : WalkOk words) : WalkOk (walkPop words) := by
  by_cases empty : words = []
  · subst empty
    exact .nil
  · obtain ⟨deleted, below, -, -, okBelow, popEq, -⟩ := walkPop_cases ok empty
    rw [popEq]
    split
    · exact .nil
    · rename_i nonempty
      refine ⟨?_, by simpa using okBelow.free⟩
      cases below with
      | nil => exact absurd rfl nonempty
      | cons word below => exact okBelow.grounded

theorem WalkOk.step {words : List CString} {segment : CString} (ok : WalkOk words)
    (proper : segment ≠ [] ∧ slash ∉ segment) : WalkOk (walkStep words segment) := by
  unfold walkStep
  split
  · exact ok
  · split
    · exact ok.pop
    · exact ok.push proper.1 proper.2

/-! ## The buffer edits -/

theorem walkText_append (deleted below : List CString) (nonempty : deleted ≠ []) :
    walkText (deleted ++ below) = join slash below.reverse ++ join slash deleted.reverse := by
  simp [walkText, nonempty]

theorem walkText_cons (word : CString) (words : List CString) :
    walkText (word :: words) = join slash words.reverse ++ slash :: word := by
  simp [walkText]

theorem one_lt_length_walkText {words : List CString} (ok : WalkOk words)
    (nonempty : words ≠ []) : 1 < (walkText words).length := by
  obtain ⟨deleted, below, deletedNonempty, rfl, -, -, word, -, last, text⟩ :=
    walkPop_cases ok nonempty
  rw [walkText_append _ _ deletedNonempty, text]
  simp
  omega

/-- The backward scan stops just after the `/` that precedes a `/`-free word. -/
theorem backToSlash_append (front word rest : CString) (free : slash ∉ word) :
    backToSlash (front ++ slash :: (word ++ rest)) (front.length + 1 + word.length) =
      front.length + 1 := by
  induction word using List.reverseRecOn generalizing rest with
  | nil =>
    cases front with
    | nil => rfl
    | cons c cs =>
      have here : ((c :: cs) ++ slash :: ([] ++ rest))[cs.length + 1]? = some slash := by
        simp
      simp only [List.length_cons, List.length_nil, Nat.add_zero, backToSlash, here, if_true]
  | append_singleton word last ih =>
    have notSlash : last ≠ slash := fun same => free (by simp [same])
    have there : (front ++ slash :: (word ++ [last] ++ rest))[front.length + word.length + 1]? =
        some last := by
      rw [List.getElem?_append_right (by omega)]
      simp [show front.length + word.length + 1 - front.length = word.length + 1 by omega]
    have unfoldScan : front.length + 1 + (word ++ [last]).length =
        front.length + word.length + 2 := by simp; omega
    rw [unfoldScan, backToSlash, there, if_neg (by simpa using notSlash)]
    have shorter := ih (last :: rest) (fun member => free (by simp [member]))
    rw [show front.length + 1 + word.length = front.length + word.length + 1 by omega] at shorter
    simpa using shorter

/-- A `..` edits the buffer as it edits the stack. -/
theorem resolveSegment_dotdot {words : List CString} (ok : WalkOk words) (outSize : Nat) :
    resolveSegment outSize (walkText words) [dot, dot] = .ok (walkText (walkPop words)) := by
  have notDot : [dot, dot] ≠ [dot] := by decide
  by_cases empty : words = []
  · subst empty
    rfl
  · have longer := one_lt_length_walkText ok empty
    obtain ⟨deleted, below, deletedNonempty, rfl, -, popEq, word, free, last, text⟩ :=
      walkPop_cases ok empty
    rw [resolveSegment, if_neg notDot, if_pos rfl, if_pos longer, popEq,
      walkText_append _ _ deletedNonempty, text]
    have scan := backToSlash_append (join slash below.reverse) word [last] free
    have start : (join slash below.reverse ++ slash :: (word ++ [last])).length - 1 =
        (join slash below.reverse).length + 1 + word.length := by simp; omega
    have kept : (join slash below.reverse ++ slash :: (word ++ [last])).take
        ((join slash below.reverse).length + 1) = join slash below.reverse ++ [slash] := by
      rw [List.take_length_add_append]
      rfl
    rw [start, scan, kept]
    by_cases bottom : below = []
    · simp [bottom, walkText]
    · simp [bottom, walkText_cons]

/-- A segment edits the buffer as it edits the stack, when its name fits. -/
theorem resolveSegment_walk {words : List CString} {segment : CString} {outSize : Nat}
    (ok : WalkOk words)
    (room : (join slash words.reverse).length + 1 + segment.length < outSize) :
    resolveSegment outSize (walkText words) segment = .ok (walkText (walkStep words segment)) := by
  unfold walkStep
  by_cases isDot : segment = [dot]
  · simp [resolveSegment, isDot]
  by_cases isDotDot : segment = [dot, dot]
  · subst isDotDot
    rw [resolveSegment_dotdot ok, if_neg (by decide), if_pos rfl]
  rw [if_neg isDot, if_neg isDotDot, resolveSegment, if_neg isDot, if_neg isDotDot, walkText_cons]
  by_cases empty : words = []
  · subst empty
    have fits : ¬ outSize ≤ 1 + segment.length := by simpa using room
    simp [walkText, fits]
  · have longer := one_lt_length_walkText ok empty
    have text : walkText words = join slash words.reverse := by simp [walkText, empty]
    rw [if_pos longer, text, if_neg (by omega), if_neg (by omega)]
    simp

/-! ## The loop -/

theorem length_join_walkStep_le {words : List CString} (ok : WalkOk words) (segment : CString) :
    (join slash (walkStep words segment).reverse).length ≤
      (join slash words.reverse).length + (segment.length + 1) := by
  unfold walkStep
  split
  · omega
  split
  · by_cases empty : words = []
    · simp [empty, walkPop]
    · obtain ⟨deleted, below, -, rfl, -, popEq, word, -, last, text⟩ := walkPop_cases ok empty
      rw [popEq]
      split
      · simp
      · simp [text]
        omega
  · simp

/-- The walk over all segments, when the buffer has room for every one of them. -/
theorem foldlM_resolveSegment {outSize : Nat} {segs : List CString} {words : List CString}
    (ok : WalkOk words) (proper : ∀ s ∈ segs, s ≠ [] ∧ slash ∉ s)
    (room : (join slash words.reverse).length + (segs.map (·.length + 1)).sum < outSize) :
    segs.foldlM (resolveSegment outSize) (walkText words) =
      .ok (walkText (segs.foldl walkStep words)) := by
  induction segs generalizing words with
  | nil => rfl
  | cons segment segs ih =>
    simp only [List.map_cons, List.sum_cons] at room
    have here : resolveSegment outSize (walkText words) segment =
        .ok (walkText (walkStep words segment)) := resolveSegment_walk ok (by omega)
    have grows := length_join_walkStep_le ok segment
    rw [List.foldlM_cons, here, List.foldl_cons]
    exact ih (ok.step (proper segment (by simp))) (fun s member => proper s (by simp [member]))
      (by omega)

/-- The scanning loop applies `resolveSegment` to the segments in order. -/
theorem resolveLoop_eq_foldlM (outSize : Nat) {fuel : Nat} {segment : CString} (out : CString)
    (enough : segment.length ≤ fuel) :
    resolveLoop outSize fuel out segment =
      (segments slash segment).foldlM (resolveSegment outSize) out := by
  induction fuel generalizing out segment with
  | zero =>
    obtain rfl := List.length_eq_zero_iff.mp (Nat.le_zero.mp enough)
    simp [resolveLoop]
    rfl
  | succ fuel ih =>
    rw [resolveLoop, ← segments_dropWhile segment]
    have shorter : (segment.dropWhile (· == slash)).length ≤ segment.length :=
      (List.dropWhile_suffix _).length_le
    cases skipped : segment.dropWhile (· == slash) with
    | nil => simp; rfl
    | cons c rest =>
      have notSlash : c ≠ slash := by
        have := List.head_dropWhile_not (· == slash) (l := segment) (by simp [skipped])
        simpa [skipped] using this
      have consumed : ((c :: rest).dropWhile (· != slash)).length ≤ fuel := by
        rw [skipped, List.length_cons] at shorter
        have := (List.dropWhile_suffix (· != slash) (l := rest)).length_le
        simp only [List.dropWhile_cons, bne_iff_ne, ne_eq, notSlash, not_false_eq_true, if_true]
        omega
      rw [segments_takeWhile notSlash, List.foldlM_cons]
      simp only [ih _ consumed]

end FuseX.Xfs
