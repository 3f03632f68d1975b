import Mathlib.Data.List.Basic
import Mathlib.Tactic.SplitIfs

/-!
# Windows of a list

`window xs start n` is the stretch of `n` items from a place on, `splice` writes
one. A memory of several fields is known by its windows: a write gives the
window it writes (`window_splice`) and leaves those apart from it
(`window_splice_apart`); neighbours join with `window_add` and come apart with
`window_split`.
-/

namespace Lib

variable {α : Type*} {xs ys bytes front mid back : List α} {start place n m : Nat}

/-- The `n` items from the place `start` on. -/
def window (xs : List α) (start n : Nat) : List α :=
  (xs.drop start).take n

/-- A list with some items written from the place `start` on. -/
def splice (xs : List α) (start : Nat) (bytes : List α) : List α :=
  xs.take start ++ bytes ++ xs.drop (start + bytes.length)

/-! ## Windows -/

theorem length_window (inside : start + n ≤ xs.length) : (window xs start n).length = n := by
  rw [window, List.length_take, List.length_drop]
  omega

theorem getElem?_window (i : Nat) :
    (window xs start n)[i]? = if i < n then xs[start + i]? else none := by
  rw [window, List.getElem?_take, List.getElem?_drop]

@[simp] theorem window_zero : window xs start 0 = [] :=
  List.take_zero

theorem window_one (inside : start < xs.length) : window xs start 1 = [xs[start]] := by
  rw [window, List.drop_eq_getElem_cons inside, List.take_succ_cons, List.take_zero]

theorem window_add : window xs start (m + n) = window xs start m ++ window xs (start + m) n := by
  rw [window, window, window, List.take_add, List.drop_drop]

/-- Two neighbours are known when they are known together. -/
theorem window_split (whole : window xs start (m + n) = front ++ back) (first : front.length = m)
    (inside : start + m ≤ xs.length) : window xs start m = front ∧ window xs (start + m) n = back := by
  rw [window_add] at whole
  exact List.append_inj whole ((length_window inside).trans first.symm)

/-- A window of a window. -/
theorem window_window (inside : place + n ≤ m) :
    window (window xs start m) place n = window xs (start + place) n := by
  apply List.ext_getElem?
  intro i
  simp only [getElem?_window, Nat.add_assoc]
  by_cases low : i < n
  · simp [low, show place + i < m by omega]
  · simp [low]

theorem window_append : window (front ++ (mid ++ back)) front.length mid.length = mid := by
  rw [window, List.drop_left, List.take_left]

/-- A window behind a front. -/
theorem window_behind (behind : front.length ≤ start) :
    window (front ++ back) start n = window back (start - front.length) n := by
  rw [window, window, List.drop_append, List.drop_eq_nil_of_le behind, List.nil_append]

/-- A window in a front. -/
theorem window_before (before : start + n ≤ front.length) :
    window (front ++ back) start n = window front start n := by
  apply List.ext_getElem?
  intro i
  rw [getElem?_window, getElem?_window]
  split_ifs with low
  · rw [List.getElem?_append_left (by omega)]
  · rfl

/-! ## Writing -/

theorem length_splice (inside : start + bytes.length ≤ xs.length) :
    (splice xs start bytes).length = xs.length := by
  rw [splice, List.length_append, List.length_append, List.length_take, List.length_drop]
  omega

theorem getElem?_splice (inside : start + bytes.length ≤ xs.length) (i : Nat) :
    (splice xs start bytes)[i]? =
      if start ≤ i ∧ i < start + bytes.length then bytes[i - start]? else xs[i]? := by
  have taken : (xs.take start).length = start := by
    rw [List.length_take]
    omega
  rw [splice, List.append_assoc]
  by_cases before : i < start
  · rw [List.getElem?_append_left (by omega), List.getElem?_take, if_pos before, if_neg (by omega)]
  rw [List.getElem?_append_right (by omega), taken]
  by_cases here : i < start + bytes.length
  · rw [List.getElem?_append_left (by omega), if_pos (by omega)]
  · rw [List.getElem?_append_right (by omega), List.getElem?_drop, if_neg (by omega)]
    congr 1
    omega

/-- What is written is there. -/
theorem window_splice (inside : start + bytes.length ≤ xs.length) :
    window (splice xs start bytes) start bytes.length = bytes := by
  apply List.ext_getElem?
  intro i
  rw [getElem?_window, getElem?_splice inside]
  by_cases low : i < bytes.length
  · rw [if_pos low, if_pos (by omega), Nat.add_sub_cancel_left]
  · rw [if_neg low, List.getElem?_eq_none (by omega)]

/-- What lies apart is as before. -/
theorem window_splice_apart (inside : start + bytes.length ≤ xs.length)
    (apart : place + n ≤ start ∨ start + bytes.length ≤ place) :
    window (splice xs start bytes) place n = window xs place n := by
  apply List.ext_getElem?
  intro i
  rw [getElem?_window, getElem?_window, getElem?_splice inside]
  split_ifs with low here
  · omega
  · rfl
  · rfl

end Lib
