import FuseX.Lib.Packed

/-!
# Strips

A strip is an unbounded row of places, read and written in pieces. What `Holds`
on it stays there as long as its own places are not written, is what a read finds,
and is put together of blocks that stand side by side.
-/

namespace Lib

variable {α β : Type*} {strip strip' : Nat → α}

/-- The `count` items from the place `start` on. -/
def readStrip (strip : Nat → α) (start count : Nat) : List α :=
  (List.range count).map fun k => strip (start + k)

theorem length_readStrip (start count : Nat) : (readStrip strip start count).length = count := by
  simp [readStrip]

theorem readStrip_congr {start start' count : Nat}
    (same : ∀ k < count, strip (start + k) = strip' (start' + k)) :
    readStrip strip start count = readStrip strip' start' count :=
  List.map_congr_left fun k member => same k (List.mem_range.mp member)

theorem getD_readStrip {start count k : Nat} (below : k < count) (fallback : α) :
    (readStrip strip start count).getD k fallback = strip (start + k) := by
  rw [List.getD_eq_getElem?_getD, readStrip, List.getElem?_map, List.getElem?_range below]
  rfl

/-- A part of what is read. -/
theorem part_readStrip {start count skipped taken : Nat} (inside : skipped + taken ≤ count) :
    ((readStrip strip start count).drop skipped).take taken = readStrip strip (start + skipped) taken := by
  apply List.ext_getElem
  · rw [List.length_take, List.length_drop, length_readStrip, length_readStrip]
    exact Nat.min_eq_left (Nat.le_sub_of_add_le' inside)
  · intro k _ below
    rw [length_readStrip] at below
    simp only [readStrip, List.getElem_take, List.getElem_drop, List.getElem_map, List.getElem_range]
    rw [Nat.add_assoc]

namespace Holds

variable {start : Nat} {xs front back : List α}

/-- Only the items' own places matter. -/
theorem of_same (holds : Holds strip start xs)
    (same : ∀ place, start ≤ place → place < start + xs.length → strip' place = strip place) :
    Holds strip' start xs := by
  intro k inside
  rw [same _ (Nat.le_add_right _ _) (Nat.add_lt_add_left inside start)]
  exact holds k inside

theorem map (f : α → β) (holds : Holds strip start xs) :
    Holds (fun place => f (strip place)) start (xs.map f) := by
  intro k inside
  rw [List.getElem_map]
  exact congrArg f (holds k (by simpa using inside))

theorem read (holds : Holds strip start xs) : readStrip strip start xs.length = xs := by
  apply List.ext_getElem
  · exact length_readStrip start xs.length
  · intro k _ inside
    simp only [readStrip, List.getElem_map, List.getElem_range]
    exact holds k inside

/-- A part of what stands there. -/
theorem part (holds : Holds strip start (front ++ xs ++ back)) :
    Holds strip (start + front.length) xs :=
  (append.mp (append.mp holds).1).2

/-- Blocks of one length stand side by side. -/
theorem blocks {size count : Nat} {block : Nat → List α}
    (sized : ∀ p < count, (block p).length = size)
    (each : ∀ p < count, Holds strip (start + p * size) (block p)) :
    Holds strip start ((List.range count).flatMap block) ∧
      ((List.range count).flatMap block).length = count * size := by
  induction count with
  | zero => simp [nil]
  | succ count ih =>
    obtain ⟨front, length⟩ := ih (fun p below => sized p (by omega)) fun p below => each p (by omega)
    rw [List.range_succ, List.flatMap_append, List.flatMap_singleton]
    refine ⟨append.mpr ⟨front, ?_⟩, ?_⟩
    · rw [length]
      exact each count (Nat.lt_succ_self count)
    · rw [List.length_append, length, sized count (Nat.lt_succ_self count), Nat.succ_mul]

end Holds

end Lib
