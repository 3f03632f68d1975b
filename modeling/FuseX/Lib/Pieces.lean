import Mathlib.Data.List.Basic
import Mathlib.Data.List.TakeWhile
import Mathlib.Algebra.BigOperators.Group.List.Basic
import Mathlib.Algebra.Ring.Nat

/-!
# Pieces of a text

A text is cut into pieces at its separators. What a piece may not begin with is left out in
front of it, and a piece is never empty. `starts` keeps the text from each piece's beginning
on; the piece itself is what comes before the next separator.

`starts_cons` takes the first piece off. `foldl_last` is for a walk over the pieces in which
a later one replaces what an earlier one set.
-/

namespace Lib

variable {α β σ : Type} (lead sep : α → Bool)

/-- The text from the beginning of each piece on. Inside a piece, it is left at a separator. -/
def starts : Bool → List α → List (List α)
  | _, [] => []
  | false, x :: text =>
      if lead x || sep x then starts false text else (x :: text) :: starts true text
  | true, x :: text => if sep x then starts false text else starts true text

/-- What comes before the next separator. -/
def piece (text : List α) : List α := text.takeWhile fun x => !sep x

/-- What comes from the next separator on. -/
def behind (text : List α) : List α := text.dropWhile fun x => !sep x

def pieces (text : List α) : List (List α) := (starts lead sep false text).map (piece sep)

variable {lead sep}

theorem piece_behind (text : List α) : piece sep text ++ behind sep text = text :=
  List.takeWhile_append_dropWhile

theorem behind_length (text : List α) : (behind sep text).length ≤ text.length :=
  List.length_dropWhile_le _ _

theorem mem_piece {text : List α} {x : α} (member : x ∈ piece sep text) : sep x = false := by
  have meets := List.mem_takeWhile_imp member
  simpa using meets

/-- Where a skip ends. -/
theorem dropWhile_head {skip : α → Bool} {text rest : List α} {x : α}
    (left : text.dropWhile skip = x :: rest) : skip x = false := by
  have stops := List.head?_dropWhile_not skip text
  rw [left] at stops
  exact stops

theorem behind_cons {x : α} (inside : sep x = false) (text : List α) :
    behind sep (x :: text) = behind sep text :=
  List.dropWhile_cons_of_pos (by rw [inside]; rfl)

theorem starts_inside (text : List α) :
    starts lead sep true text = starts lead sep false (behind sep text) := by
  induction text with
  | nil => rfl
  | cons x text ih =>
    rw [starts]
    by_cases here : sep x = true
    · rw [if_pos here, behind, List.dropWhile_cons_of_neg (by rw [here]; exact Bool.noConfusion)]
      rw [starts, if_pos (by rw [here, Bool.or_true])]
    · rw [if_neg here, ih, behind_cons (Bool.eq_false_iff.mpr here)]

theorem starts_skip {x : α} (skipped : (lead x || sep x) = true) (text : List α) :
    starts lead sep false (x :: text) = starts lead sep false text := by
  rw [starts, if_pos skipped]

/-- Whatever is left out in front of a piece may be dropped. -/
theorem starts_dropWhile {skip : α → Bool} (only : ∀ x, skip x = true → (lead x || sep x) = true)
    (text : List α) :
    starts lead sep false (text.dropWhile skip) = starts lead sep false text := by
  induction text with
  | nil => rfl
  | cons x text ih =>
    by_cases here : skip x = true
    · rw [List.dropWhile_cons_of_pos here, ih, starts_skip (only x here)]
    · rw [List.dropWhile_cons_of_neg here]

theorem starts_cons {x : α} (kept : (lead x || sep x) = false) (text : List α) :
    starts lead sep false (x :: text)
      = (x :: text) :: starts lead sep false (behind sep (x :: text)) := by
  have inside : sep x = false := (Bool.or_eq_false_iff.mp kept).2
  rw [starts, if_neg (Bool.eq_false_iff.mp kept), starts_inside, behind_cons inside]

theorem starts_length {inside : Bool} {text start : List α}
    (member : start ∈ starts lead sep inside text) : start.length ≤ text.length := by
  induction text generalizing inside with
  | nil => cases inside <;> cases member
  | cons x text ih =>
    rw [List.length_cons]
    cases inside with
    | false =>
      rw [starts] at member
      split at member
      · exact (ih member).trans (Nat.le_succ _)
      · rcases List.mem_cons.mp member with rfl | member
        · exact Nat.le_refl _
        · exact (ih member).trans (Nat.le_succ _)
    | true =>
      rw [starts] at member
      split at member
      · exact (ih member).trans (Nat.le_succ _)
      · exact (ih member).trans (Nat.le_succ _)

/-- Every piece but the last has a separator behind it. -/
theorem pieces_length (text : List α) :
    ((pieces lead sep text).map fun piece => piece.length + 1).sum ≤ text.length + 1 := by
  suffices both : ∀ inside, (((starts lead sep inside text).map (piece sep)).map
      fun piece => piece.length + 1).sum + (if inside then (piece sep text).length else 0)
        ≤ text.length + (if inside then 0 else 1) by
    exact both false
  induction text with
  | nil => exact fun inside => by cases inside <;> exact Nat.zero_le _
  | cons x text ih =>
    intro inside
    have outer := ih false
    have inner := ih true
    simp only [Bool.false_eq_true, if_false, if_true, Nat.add_zero] at outer inner
    cases inside with
    | false =>
      rw [starts]
      by_cases skipped : (lead x || sep x) = true
      · rw [if_pos skipped]
        simp only [Bool.false_eq_true, if_false, List.length_cons]
        omega
      · have further : sep x = false := (Bool.or_eq_false_iff.mp (Bool.eq_false_iff.mpr skipped)).2
        have first : (piece sep (x :: text)).length = (piece sep text).length + 1 := by
          rw [piece, List.takeWhile_cons_of_pos (by rw [further]; rfl)]
          rfl
        rw [if_neg skipped]
        simp only [Bool.false_eq_true, if_false, List.length_cons, List.map_cons, List.sum_cons,
          first]
        omega
    | true =>
      rw [starts]
      by_cases here : sep x = true
      · have none_ : piece sep (x :: text) = [] :=
          List.takeWhile_cons_of_neg (by rw [here]; exact Bool.noConfusion)
        rw [if_pos here, none_]
        simp only [if_true, List.length_cons, List.length_nil]
        omega
      · have first : (piece sep (x :: text)).length = (piece sep text).length + 1 := by
          rw [piece, List.takeWhile_cons_of_pos (by rw [Bool.eq_false_iff.mpr here]; rfl)]
          rfl
        rw [if_neg here]
        simp only [if_true, List.length_cons, first]
        omega

/-- Elements that each weigh so much are not many. -/
theorem filterMap_weight {f : α → Option β} {weight : α → Nat} {least : Nat}
    (heavy : ∀ x y, f x = some y → least ≤ weight x) (xs : List α) :
    least * (xs.filterMap f).length ≤ (xs.map weight).sum := by
  induction xs with
  | nil => exact Nat.le_refl _
  | cons x xs ih =>
    rw [List.map_cons, List.sum_cons]
    cases kept : f x with
    | none =>
      rw [List.filterMap_cons_none kept]
      exact ih.trans (Nat.le_add_left _ _)
    | some y =>
      rw [List.filterMap_cons_some kept, List.length_cons, Nat.mul_succ, Nat.add_comm]
      exact Nat.add_le_add (heavy x y kept) ih

/-- Of all elements that set a part of the state, the last one counts. -/
theorem foldl_last {get : σ → β} {step : σ → α → σ} {sets : α → Option β}
    (each : ∀ s x, get (step s x) = (sets x).getD (get s)) (xs : List α) (s : σ) :
    get (xs.foldl step s) = ((xs.filterMap sets).getLast?).getD (get s) := by
  induction xs generalizing s with
  | nil => rfl
  | cons x xs ih =>
    rw [List.foldl_cons, ih, each]
    cases set : sets x with
    | none => rw [List.filterMap_cons_none set]; rfl
    | some value =>
      rw [List.filterMap_cons_some set, List.getLast?_cons]
      rfl

end Lib
