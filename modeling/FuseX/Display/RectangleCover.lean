import FuseX.Display.Rectangles
import FuseX.Lib.Tiling
import Mathlib.Order.Interval.Set.LinearOrder

/-!
# The rectangles are the dirty cells

The rectangles that are kept lie on the cells that have been dirty at the ends of the frames since the last
one that was drawn (`Kept`), whatever the frames and the frame rates have been; those of a single frame do
not overlap. `frame_areas` says so of what is handed to the UI.
-/

namespace FuseX.Display

open Lib

/-- The cells of a rectangle: columns and lines. -/
def Rectangle.cells (r : Rectangle) : Set (Nat × Nat) :=
  Set.Ico r.x (r.x + r.w) ×ˢ Set.Ico r.y (r.y + r.h)

/-! ## One rectangle -/

theorem Ico_touches {start length start' length' : Nat} (near : touches start length start' length') :
    Set.Ico (min start start')
        (min start start' + (max (start + length) (start' + length') - min start start')) =
      Set.Ico start (start + length) ∪ Set.Ico start' (start' + length') := by
  have order : min start start' ≤ max (start + length) (start' + length') := by omega
  rw [Nat.add_sub_cancel' order]
  rcases near with ⟨below, close⟩ | ⟨above, close⟩
  · rw [Set.Ico_union_Ico' (by omega) (by omega)]
  · rw [Set.Ico_union_Ico' (by omega) (by omega)]

/-- Merging changes one rectangle, which gets the cells of both. -/
theorem compareAndMerge_cells {source : Rectangle} {inactive merged : List Rectangle}
    (merges : compareAndMergeRectangles source inactive = some merged) :
    ∃ front r r' back, inactive = front ++ r :: back ∧ merged = front ++ r' :: back ∧
      r'.cells = r.cells ∪ source.cells := by
  induction inactive generalizing merged with
  | nil => nomatch merges
  | cons r inactive ih =>
    rw [compareAndMergeRectangles] at merges
    by_cases same : r.x = source.x ∧ r.w = source.w ∧ r.y = source.y ∧ r.h = source.h
    · rw [if_pos same] at merges
      obtain rfl := Option.some.inj merges
      refine ⟨[], r, r, inactive, rfl, rfl, ?_⟩
      obtain ⟨x, w, y, h⟩ := same
      rw [Rectangle.cells, Rectangle.cells, x, w, y, h, Set.union_self]
    rw [if_neg same] at merges
    by_cases column : r.x = source.x ∧ r.w = source.w ∧ touches r.y r.h source.y source.h
    · rw [if_pos column] at merges
      obtain rfl := Option.some.inj merges
      refine ⟨[], r, _, inactive, rfl, rfl, ?_⟩
      obtain ⟨x, w, near⟩ := column
      simp only [Rectangle.cells]
      rw [Ico_touches near, Set.prod_union, x, w]
    rw [if_neg column] at merges
    by_cases line : r.y = source.y ∧ r.h = source.h ∧ touches r.x r.w source.x source.w
    · rw [if_pos line] at merges
      obtain rfl := Option.some.inj merges
      refine ⟨[], r, _, inactive, rfl, rfl, ?_⟩
      obtain ⟨y, h, near⟩ := line
      simp only [Rectangle.cells]
      rw [Ico_touches near, Set.union_prod, y, h]
    rw [if_neg line] at merges
    obtain ⟨rest, found, rfl⟩ := Option.map_eq_some_iff.mp merges
    obtain ⟨front, s, s', back, rfl, rfl, cells⟩ := ih found
    exact ⟨r :: front, s, s', back, rfl, rfl, cells⟩

/-! ## The end of a line -/

variable {apart : Prop} {on : Set (Nat × Nat)} {frameRate : Int} {y : Nat}

/-- An active rectangle becomes inactive, alone or merged into another one. -/
theorem lays_retired (frameRate : Int) {r : Rectangle} {active inactive : List Rectangle}
    (lays : Lays Rectangle.cells apart (r :: active ++ inactive) on) :
    Lays Rectangle.cells apart
      (active ++
        (if frameRate > 1 then compareAndMergeRectangles r inactive else none).getD (inactive ++ [r])) on := by
  have alone : Lays Rectangle.cells apart (active ++ (inactive ++ [r])) on := by
    apply lays.perm
    rw [← List.append_assoc]
    exact (List.perm_append_singleton r (active ++ inactive)).symm
  split
  · rcases merges : compareAndMergeRectangles r inactive with _ | merged
    · exact alone
    · obtain ⟨front, s, s', back, rfl, rfl, cells⟩ := compareAndMerge_cells merges
      have moved : Lays Rectangle.cells apart (s :: r :: (active ++ (front ++ back))) on := by
        apply lays.perm
        rw [List.cons_append, ← List.append_assoc, ← List.append_assoc]
        exact (List.perm_middle.cons r).trans (List.Perm.swap s r _)
      apply (moved.merge cells).perm
      rw [Option.getD_some, ← List.append_assoc, ← List.append_assoc]
      exact List.perm_middle.symm
  · exact alone

/-- The rectangle ends with a line. -/
def updatedOn (y : Nat) (r : Rectangle) : Bool := r.y + r.h = y + 1

theorem lays_retire (frameRate : Int) (y : Nat) (front : List Rectangle) {active inactive : List Rectangle} (tall : ∀ r ∈ active, 1 ≤ r.h)
    (lays : Lays Rectangle.cells apart (front ++ (active ++ inactive)) on) :
    (retire frameRate y active inactive).1.filter (·.h ≠ 0) = active.filter (updatedOn y) ∧
      Lays Rectangle.cells apart
        (front ++ (active.filter (updatedOn y) ++ (retire frameRate y active inactive).2)) on := by
  induction active generalizing front inactive with
  | nil => exact ⟨rfl, lays⟩
  | cons r active ih =>
    obtain ⟨high, tall⟩ := List.forall_mem_cons.mp tall
    by_cases updated : r.y + r.h = y + 1
    · have moved : Lays Rectangle.cells apart ((front ++ [r]) ++ (active ++ inactive)) on := by
        rw [List.append_assoc]
        exact lays
      obtain ⟨kept, lays⟩ := ih _ tall moved
      have step : retire frameRate y (r :: active) inactive =
          (r :: (retire frameRate y active inactive).1, (retire frameRate y active inactive).2) := by
        rw [retire, if_pos updated]
      rw [step, List.filter_cons_of_pos (p := updatedOn y) (decide_eq_true updated)]
      refine ⟨?_, ?_⟩
      · rw [← kept]
        exact List.filter_cons_of_pos (decide_eq_true (Nat.ne_of_gt high))
      · rw [List.append_assoc] at lays
        exact lays
    · have moved : Lays Rectangle.cells apart (r :: (front ++ active) ++ inactive) on := by
        apply lays.perm
        rw [List.cons_append, List.cons_append, List.append_assoc]
        exact List.perm_middle
      have retired := lays_retired frameRate moved
      rw [List.append_assoc] at retired
      obtain ⟨kept, lays⟩ := ih _ tall retired
      rw [List.filter_cons_of_neg (p := updatedOn y) (by simp [updatedOn, updated])]
      refine ⟨?_, ?_⟩
      · rw [retire, if_neg updated, ← kept]
        exact List.filter_cons_of_neg (by simp)
      · rw [retire, if_neg updated]
        exact lays

/-- At the end of a line the rectangles that it has not updated become inactive. -/
theorem lays_endLine (frameRate : Int) (y : Nat) {active inactive : List Rectangle} (tall : ∀ r ∈ active, 1 ≤ r.h)
    (lays : Lays Rectangle.cells apart (active ++ inactive) on) :
    ∃ inactive', rectangleEndLine frameRate y (active, inactive) =
        (active.filter (updatedOn y), inactive') ∧
      Lays Rectangle.cells apart (active.filter (updatedOn y) ++ inactive') on := by
  obtain ⟨kept, lays⟩ := lays_retire frameRate y [] tall lays
  refine ⟨_, ?_, lays⟩
  rw [← kept]
  rfl

/-! ## A line -/

/-- The cells of a line from a column on. -/
def lineCells (y x w : Nat) : Set (Nat × Nat) := Set.Ico x (x + w) ×ˢ {y}

/-- The cells that have been seen at a place, behind what there was before. -/
def seen (old : Set (Nat × Nat)) (dirty : Nat → BitVec 64) (y x : Nat) : Set (Nat × Nat) :=
  old ∪ {cell | (dirty cell.2).getLsbD cell.1 ∧ (cell.2 < y ∨ cell.2 = y ∧ cell.1 < x)}

/-- The rectangles at a place of a line. Those that the line has updated are left of it. -/
structure AtPlace (apart : Prop) (old : Set (Nat × Nat)) (dirty : Nat → BitVec 64) (y x : Nat)
    (active inactive : List Rectangle) : Prop where
  lays : Lays Rectangle.cells apart (active ++ inactive) (seen old dirty y x)
  alone : apart → old = ∅
  tall : ∀ r ∈ active, 1 ≤ r.h
  place : ∀ r ∈ active, r.y + r.h = y ∨ r.y + r.h = y + 1 ∧ r.x + r.w ≤ x

variable {old : Set (Nat × Nat)} {dirty : Nat → BitVec 64} {x : Nat} {active inactive : List Rectangle}

theorem rectangleAdd_cases (y x w : Nat) (active : List Rectangle) :
    (∃ front r back, active = front ++ r :: back ∧ r.x = x ∧ r.w = w ∧
        rectangleAdd y x w active = front ++ { r with h := r.h + 1 } :: back) ∨
      rectangleAdd y x w active = active ++ [⟨x, y, w, 1⟩] := by
  induction active with
  | nil => exact .inr rfl
  | cons r active ih =>
    rw [rectangleAdd]
    by_cases same : r.x = x ∧ r.w = w
    · rw [if_pos same]
      exact .inl ⟨[], r, active, rfl, same.1, same.2, rfl⟩
    · rw [if_neg same]
      rcases ih with ⟨front, s, back, rfl, left, width, added⟩ | added
      · exact .inl ⟨r :: front, s, back, rfl, left, width, congrArg (r :: ·) added⟩
      · exact .inr (congrArg (r :: ·) added)

theorem seen_run {start w : Nat} (gap : x ≤ start) (clean : ∀ i, x ≤ i → i < start → (dirty y).getLsbD i = false)
    (run : ∀ i, start ≤ i → i < start + w → (dirty y).getLsbD i = true) :
    seen old dirty y (start + w) = seen old dirty y x ∪ lineCells y start w := by
  ext ⟨column, line⟩
  simp only [seen, lineCells, Set.mem_union, Set.mem_ofPred_eq, Set.mem_prod, Set.mem_Ico, Set.mem_singleton_iff]
  constructor
  · rintro (before | ⟨set, above | ⟨rfl, left⟩⟩)
    · exact .inl (.inl before)
    · exact .inl (.inr ⟨set, .inl above⟩)
    · by_cases early : column < x
      · exact .inl (.inr ⟨set, .inr ⟨rfl, early⟩⟩)
      · by_cases between : column < start
        · rw [clean column (by omega) between] at set
          nomatch set
        · exact .inr ⟨⟨by omega, left⟩, rfl⟩
  · rintro ((before | ⟨set, above | ⟨rfl, left⟩⟩) | ⟨⟨right, left⟩, rfl⟩)
    · exact .inl before
    · exact .inr ⟨set, .inl above⟩
    · exact .inr ⟨set, .inr ⟨rfl, by omega⟩⟩
    · exact .inr ⟨run column right left, .inr ⟨rfl, left⟩⟩

theorem seen_apart {start w : Nat} (gap : x ≤ start) (alone : old = ∅) :
    Disjoint (lineCells y start w) (seen old dirty y x) := by
  rw [Set.disjoint_left]
  rintro ⟨column, line⟩ ⟨⟨right, -⟩, rfl⟩ (before | ⟨-, above | ⟨-, left⟩⟩)
  · rw [alone] at before
    exact before
  · exact Nat.lt_irrefl _ above
  · exact Nat.not_le_of_lt left (gap.trans right)

/-- A rectangle that ends above the line grows by a piece of it. -/
theorem cells_grown {r : Rectangle} (ends : r.y + r.h = y) :
    ({ r with h := r.h + 1 } : Rectangle).cells = r.cells ∪ lineCells y r.x r.w := by
  rw [Rectangle.cells, Rectangle.cells, lineCells, ← Set.prod_union]
  congr 1
  rw [← ends]
  ext line
  simp only [Set.mem_Ico, Set.mem_union, Set.mem_singleton_iff]
  omega

theorem cells_line {w : Nat} : (⟨x, y, w, 1⟩ : Rectangle).cells = lineCells y x w := by
  rw [Rectangle.cells, lineCells]
  congr 1
  ext line
  simp only [Set.mem_Ico, Set.mem_singleton_iff]
  omega

/-- A run of dirty cells is added. -/
theorem AtPlace.add {start w : Nat} (here : AtPlace apart old dirty y x active inactive) (gap : x ≤ start)
    (clean : ∀ i, x ≤ i → i < start → (dirty y).getLsbD i = false) (wide : 0 < w)
    (run : ∀ i, start ≤ i → i < start + w → (dirty y).getLsbD i = true) :
    AtPlace apart old dirty y (start + w) (rectangleAdd y start w active) inactive := by
  obtain ⟨lays, alone, tall, place⟩ := here
  have other : apart → Disjoint (lineCells y start w) (seen old dirty y x) :=
    fun wanted => seen_apart gap (alone wanted)
  have later : ∀ r ∈ active, r.y + r.h = y ∨ r.y + r.h = y + 1 ∧ r.x + r.w ≤ start + w :=
    fun r member => (place r member).imp_right fun updated => ⟨updated.1, by omega⟩
  rcases rectangleAdd_cases y start w active with ⟨front, r, back, rfl, rfl, rfl, added⟩ | added
  · have member : r ∈ front ++ r :: back := List.mem_append_right _ List.mem_cons_self
    -- A rectangle that this line has updated ends left of the run.
    have ends : r.y + r.h = y := by
      rcases place r member with ends | ⟨-, left⟩
      · exact ends
      · omega
    refine ⟨?_, alone, ?_, ?_⟩
    · have moved : Lays Rectangle.cells apart (r :: (front ++ back ++ inactive)) (seen old dirty y x) := by
        apply lays.perm
        rw [List.append_assoc, List.append_assoc]
        exact List.perm_middle
      rw [added, seen_run gap clean run]
      apply (moved.grow (cells_grown ends) other).perm
      rw [List.append_assoc, List.append_assoc]
      exact List.perm_middle.symm
    · intro s found
      rw [added] at found
      rcases List.mem_append.mp found with found | found
      · exact tall s (List.mem_append_left _ found)
      · rcases List.mem_cons.mp found with rfl | found
        · exact Nat.le_add_left 1 _
        · exact tall s (List.mem_append_right _ (List.mem_cons_of_mem _ found))
    · intro s found
      rw [added] at found
      rcases List.mem_append.mp found with found | found
      · exact later s (List.mem_append_left _ found)
      · rcases List.mem_cons.mp found with rfl | found
        · exact .inr ⟨congrArg (· + 1) ends, le_rfl⟩
        · exact later s (List.mem_append_right _ (List.mem_cons_of_mem _ found))
  · rw [added]
    refine ⟨?_, alone, ?_, ?_⟩
    · rw [seen_run gap clean run, ← cells_line]
      rw [← cells_line] at other
      apply (lays.add other).perm
      rw [List.append_assoc]
      exact List.perm_middle.symm
    · intro s found
      rcases List.mem_append.mp found with found | found
      · exact tall s found
      · obtain rfl := List.mem_singleton.mp found
        exact le_rfl
    · intro s found
      rcases List.mem_append.mp found with found | found
      · exact later s found
      · obtain rfl := List.mem_singleton.mp found
        exact .inr ⟨rfl, le_rfl⟩

/-- The dirty bits of a line that are still to be looked at. -/
structure Rest (dirty : Nat → BitVec 64) (y x : Nat) (rest : BitVec 64) : Prop where
  bits : ∀ i, rest.getLsbD i = (dirty y).getLsbD (x + i)
  fits : ∀ i, (dirty y).getLsbD i = true → i < screenWidthCols

theorem Rest.shift {rest : BitVec 64} (left : Rest dirty y x rest) (count : Nat) :
    Rest dirty y (x + count) (rest >>> count) where
  bits i := by rw [BitVec.getLsbD_ushiftRight, left.bits, Nat.add_assoc]
  fits := left.fits

/-- The first dirty bit. -/
theorem Rest.skip {rest : BitVec 64} (left : Rest dirty y x rest) (nonzero : rest ≠ 0) :
    (dirty y).getLsbD (x + rest.ctz.toNat) = true ∧
      ∀ i, x ≤ i → i < x + rest.ctz.toNat → (dirty y).getLsbD i = false := by
  constructor
  · rw [← left.bits]
    exact BitVec.getLsbD_true_ctz_of_ne_zero nonzero
  · intro i right before
    obtain ⟨above, rfl⟩ := Nat.exists_eq_add_of_le right
    rw [← left.bits]
    exact BitVec.getLsbD_false_of_lt_ctz (by omega)

/-- The first clean bit, as no line is dirty up to its last bit. -/
theorem Rest.run {rest : BitVec 64} (left : Rest dirty y x rest) :
    (dirty y).getLsbD (x + (~~~rest).ctz.toNat) = false ∧
      ∀ i, x ≤ i → i < x + (~~~rest).ctz.toNat → (dirty y).getLsbD i = true := by
  have nonzero : ~~~rest ≠ 0 := by
    intro none
    have last : rest.getLsbD 63 = true := by
      have flipped := congrArg (fun word => BitVec.getLsbD word 63) none
      simpa using flipped
    rw [left.bits] at last
    have := left.fits _ last
    rw [screenWidthCols] at this
    omega
  have clear := BitVec.getLsbD_true_ctz_of_ne_zero nonzero
  rw [BitVec.getLsbD_not, Bool.and_eq_true, decide_eq_true_eq, Bool.not_eq_true'] at clear
  constructor
  · rw [← left.bits]
    exact clear.2
  · intro i right before
    obtain ⟨above, rfl⟩ := Nat.exists_eq_add_of_le right
    rw [← left.bits]
    have flipped := BitVec.getLsbD_false_of_lt_ctz (x := ~~~rest) (i := above) (by omega)
    rw [BitVec.getLsbD_not, decide_eq_true (by omega : above < 64), Bool.true_and, Bool.not_eq_false'] at flipped
    exact flipped

/-- A line is looked at to its end. -/
theorem scanDirty_at {fuel : Nat} {rest : BitVec 64} (here : AtPlace apart old dirty y x active inactive)
    (left : Rest dirty y x rest) (onLine : x ≤ screenWidthCols) (enough : screenWidthCols < x + fuel) :
    ∃ x' active', scanDirty y fuel rest x active = some (0, active') ∧
      AtPlace apart old dirty y x' active' inactive ∧ ∀ i, x' ≤ i → (dirty y).getLsbD i = false := by
  induction fuel generalizing rest x active with
  | zero => exact absurd enough (Nat.not_lt_of_le onLine)
  | succ fuel ih =>
    rw [scanDirty]
    by_cases none : rest = 0
    · rw [if_pos none, none]
      refine ⟨x, active, rfl, here, fun i right => ?_⟩
      obtain ⟨above, rfl⟩ := Nat.exists_eq_add_of_le right
      rw [← left.bits, none]
      exact BitVec.getLsbD_zero
    · rw [if_neg none]
      obtain ⟨set, clean⟩ := left.skip none
      have skipped := left.shift rest.ctz.toNat
      obtain ⟨clear, run⟩ := skipped.run
      have wide : 0 < (~~~(rest >>> rest.ctz.toNat)).ctz.toNat := by
        apply Nat.pos_of_ne_zero
        intro zero
        rw [zero, Nat.add_zero, set] at clear
        nomatch clear
      have added := here.add (Nat.le_add_right _ _) clean wide run
      have last := left.fits _ (run _ (Nat.le_sub_one_of_lt (Nat.lt_add_of_pos_right wide)) (by omega))
      exact ih added (skipped.shift _) (by omega) (by omega)

/-- The rectangles at the start of a line. -/
structure AtLine (apart : Prop) (old : Set (Nat × Nat)) (dirty : Nat → BitVec 64) (y : Nat)
    (active inactive : List Rectangle) : Prop where
  lays : Lays Rectangle.cells apart (active ++ inactive) (seen old dirty y 0)
  alone : apart → old = ∅
  tall : ∀ r ∈ active, 1 ≤ r.h
  ends : ∀ r ∈ active, r.y + r.h = y

theorem AtLine.atPlace (here : AtLine apart old dirty y active inactive) :
    AtPlace apart old dirty y 0 active inactive :=
  ⟨here.lays, here.alone, here.tall, fun r member => .inl (here.ends r member)⟩

/-- Nothing is dirty behind the place, and the line ends. -/
theorem AtPlace.endLine (here : AtPlace apart old dirty y x active inactive) (frameRate : Int)
    (clean : ∀ i, x ≤ i → (dirty y).getLsbD i = false) :
    ∃ active' inactive', rectangleEndLine frameRate y (active, inactive) = (active', inactive') ∧
      AtLine apart old dirty (y + 1) active' inactive' := by
  obtain ⟨lays, alone, tall, place⟩ := here
  obtain ⟨inactive', ends, lays⟩ := lays_endLine frameRate y tall lays
  have whole : seen old dirty y x = seen old dirty (y + 1) 0 := by
    ext ⟨column, line⟩
    simp only [seen, Set.mem_union, Set.mem_ofPred_eq, Nat.not_lt_zero, and_false, or_false]
    apply or_congr_right
    apply and_congr_right
    intro set
    constructor
    · rintro (above | ⟨rfl, -⟩)
      · exact Nat.lt_succ_of_lt above
      · exact Nat.lt_succ_self _
    · intro upTo
      by_cases same : line = y
      · subst same
        refine .inr ⟨rfl, Nat.lt_of_not_le fun right => ?_⟩
        rw [clean column right] at set
        nomatch set
      · exact .inl (by omega)
  refine ⟨_, inactive', ends, whole ▸ lays, alone, ?_, ?_⟩
  · exact fun r member => tall r (List.mem_of_mem_filter member)
  · exact fun r member => of_decide_eq_true (List.of_mem_filter (p := updatedOn y) member)

/-! ## All lines -/

/-- A line has been done. -/
def Screen.lineDone (s : Screen) (y : Nat) (active inactive : List Rectangle) : Screen :=
  { s with isDirty := fun line => if line = y then 0 else s.isDirty line, active, inactive }

theorem isDirty_lineDone {s : Screen} {line : Nat} (other : line ≠ y) :
    (s.lineDone y active inactive).isDirty line = s.isDirty line := if_neg other

theorem updateLines_at (frameRate : Int) (count : Nat) {s : Screen} (here : AtLine apart old dirty y s.active s.inactive)
    (rest : ∀ line, y ≤ line → s.isDirty line = dirty line)
    (fits : ∀ line i, (dirty line).getLsbD i = true → i < screenWidthCols) :
    ∃ s', updateLines frameRate (List.range' y count) s = some s' ∧
      AtLine apart old dirty (y + count) s'.active s'.inactive ∧
      (∀ line, s'.isDirty line = if y ≤ line ∧ line < y + count then 0 else s.isDirty line) ∧
      s'.frameCount = s.frameCount ∧ s'.redrawAll = s.redrawAll := by
  induction count generalizing y s with
  | zero =>
    refine ⟨s, rfl, here, fun line => ?_, rfl, rfl⟩
    rw [if_neg (by omega)]
  | succ count ih =>
    have left : Rest dirty y 0 (s.isDirty y) := ⟨fun i => by rw [rest y le_rfl, Nat.zero_add], fits y⟩
    have enough : screenWidthCols < 0 + (screenWidthCols + 1) := by omega
    obtain ⟨x, active, scanned, reached, clean⟩ := scanDirty_at here.atPlace left (Nat.zero_le _) enough
    obtain ⟨active', inactive', ends, next⟩ := reached.endLine frameRate clean
    have done : ∀ line, y + 1 ≤ line → (s.lineDone y active' inactive').isDirty line = dirty line :=
      fun line below => (isDirty_lineDone (by omega)).trans (rest line (by omega))
    have step : updateLines frameRate (List.range' y (count + 1)) s =
        updateLines frameRate (List.range' (y + 1) count) (s.lineDone y active' inactive') := by
      rw [List.range'_succ, updateLines, scanned]
      simp only [ends]
      rfl
    obtain ⟨s', updated, last, cleared, frameCount, redrawAll⟩ :=
      ih (s := s.lineDone y active' inactive') next done
    rw [step]
    refine ⟨s', updated, by rwa [Nat.add_right_comm] at last, fun line => ?_, frameCount, redrawAll⟩
    rw [cleared line]
    by_cases first : line = y
    · rw [if_neg (by omega), if_pos (by omega), first]
      exact if_pos rfl
    · rw [isDirty_lineDone first]
      by_cases later : y ≤ line ∧ line < y + (count + 1)
      · rw [if_pos (by omega), if_pos later]
      · rw [if_neg (by omega), if_neg later]

/-- The dirty cells. -/
def dirtyCells (s : Screen) : Set (Nat × Nat) := {cell | (s.isDirty cell.2).getLsbD cell.1 = true}

/-- What holds between the frames: the rectangles lie on the cells that are owed to the UI. -/
structure Kept (owed : Set (Nat × Nat)) (skipped : Nat) (s : Screen) : Prop where
  active : s.active = []
  lays : Lays Rectangle.cells False s.inactive owed
  fresh : skipped = 0 → s.inactive = []
  onScreen : ∀ cell ∈ dirtyCells s, cell.1 < screenWidthCols ∧ cell.2 < screenHeight
  whole : s.redrawAll = true →
    ∀ cell : Nat × Nat, cell.1 < screenWidthCols → cell.2 < screenHeight → cell ∈ dirtyCells s ∪ owed
  within : ∀ cell ∈ owed, cell.1 < screenWidthCols ∧ cell.2 < screenHeight

variable {owed : Set (Nat × Nat)} {skipped : Nat} {s : Screen}

/-- The dirty cells of a frame become rectangles, and are clean. -/
theorem updateDirtyRects_kept (frameRate : Int) (kept : Kept owed skipped s) :
    ∃ s', updateDirtyRects frameRate s = some s' ∧ s'.active = [] ∧
      Lays Rectangle.cells (skipped = 0) s'.inactive (dirtyCells s ∪ owed) ∧ (∀ line, s'.isDirty line = 0) ∧
      s'.frameCount = s.frameCount ∧ s'.redrawAll = s.redrawAll := by
  have alone : skipped = 0 → owed = ∅ := by
    intro none
    ext cell
    rw [kept.lays.covers, kept.fresh none]
    simp
  have start : AtLine (skipped = 0) owed s.isDirty 0 s.active s.inactive := by
    rw [kept.active]
    refine ⟨⟨fun cell => ?_, fun none => ?_⟩, alone, nofun, nofun⟩
    · rw [List.nil_append, ← kept.lays.covers]
      simp [seen]
    · rw [kept.fresh none]
      exact .nil
  have fits : ∀ line i, (s.isDirty line).getLsbD i = true → i < screenWidthCols :=
    fun line i set => (kept.onScreen (i, line) set).1
  obtain ⟨s', updated, last, cleared, frameCount, redrawAll⟩ :=
    updateLines_at frameRate screenHeight start (fun _ _ => rfl) fits
  rw [Nat.zero_add] at last cleared
  obtain ⟨lays, -, tall, ends⟩ := last
  obtain ⟨inactive', ended, lays⟩ := lays_endLine frameRate screenHeight tall lays
  -- No rectangle ends below the screen.
  have none : s'.active.filter (updatedOn screenHeight) = [] := by
    rw [List.filter_eq_nil_iff]
    intro r member updated
    have := of_decide_eq_true updated
    have := ends r member
    omega
  have all : seen owed s.isDirty screenHeight 0 = dirtyCells s ∪ owed := by
    ext ⟨column, line⟩
    simp only [seen, dirtyCells, Set.mem_union, Set.mem_ofPred_eq, Nat.not_lt_zero, and_false, or_false]
    rw [or_comm]
    apply or_congr_left
    exact and_iff_left_of_imp fun set => (kept.onScreen (column, line) set).2
  rw [none] at ended lays
  refine ⟨{ s' with active := [], inactive := inactive' }, ?_, rfl, all ▸ lays, fun line => ?_, frameCount, redrawAll⟩
  · rw [updateDirtyRects, List.range_eq_range', updated]
    simp only [ended]
  · change s'.isDirty line = 0
    rw [cleared line]
    by_cases onScreen : line < screenHeight
    · rw [if_pos ⟨Nat.zero_le _, onScreen⟩]
    · rw [if_neg fun below => onScreen below.2]
      apply BitVec.eq_of_getLsbD_eq
      intro i _
      refine Eq.trans ?_ BitVec.getLsbD_zero.symm
      apply Bool.eq_false_of_not_eq_true
      exact fun set => onScreen (kept.onScreen (i, line) set).2

/-! ## Frames -/

/-- The cell of a pixel. -/
def cellOf (timex : Bool) (pixel : Nat × Nat) : Nat × Nat :=
  let scale := if timex then 2 else 1
  (pixel.1 / (8 * scale), pixel.2 / scale)

theorem cells_areaOf {timex : Bool} (r : Rectangle) :
    (areaOf timex r).cells = Set.preimage (cellOf timex) r.cells := by
  have scaled : ∀ unit start length place : Nat, 0 < unit →
      (unit * start ≤ place ∧ place < unit * start + unit * length ↔
        start ≤ place / unit ∧ place / unit < start + length) := by
    intro unit start length place positive
    rw [Nat.le_div_iff_mul_le positive, Nat.div_lt_iff_lt_mul positive, Nat.add_mul, Nat.mul_comm unit start,
      Nat.mul_comm unit length]
  ext ⟨px, py⟩
  simp only [Rectangle.cells, areaOf, cellOf, Set.mem_preimage, Set.mem_prod, Set.mem_Ico]
  rw [scaled _ _ _ _ (by split <;> decide), scaled _ _ _ _ (by split <;> decide)]

/-- The pixels of some areas are those of the cells, and the areas do not overlap. -/
def Shows (timex : Bool) (apart : Prop) (on : Set (Nat × Nat)) (areas : List Rectangle) : Prop :=
  (∀ pixel, (∃ area ∈ areas, pixel ∈ area.cells) ↔ cellOf timex pixel ∈ on) ∧
    (apart → areas.Pairwise fun area area' => Disjoint area.cells area'.cells)

theorem shows_areas {timex : Bool} {on : Set (Nat × Nat)} {rectangles : List Rectangle}
    (lays : Lays Rectangle.cells apart rectangles on) : Shows timex apart on (rectangles.map (areaOf timex)) := by
  have scaled := lays.map (f := areaOf timex) (g := cellOf timex) cells_areaOf
  exact ⟨fun pixel => (scaled.covers pixel).symm, scaled.disjoint⟩

/-- The end of a frame: it is drawn or skipped, and nothing is dirty. -/
theorem displayFrame_kept (timex : Bool) (frameRate : Int) (kept : Kept owed skipped s) :
    ∃ areas s', displayFrame timex frameRate s = some (areas, s') ∧ (∀ line, s'.isDirty line = 0) ∧
      (areas = none → Kept (dirtyCells s ∪ owed) (skipped + 1) s') ∧
      ∀ shown, areas = some shown → Shows timex (skipped = 0) (dirtyCells s ∪ owed) shown ∧ Kept ∅ 0 s' := by
  obtain ⟨s', updated, active, lays, cleared, frameCount, redrawAll⟩ :=
    updateDirtyRects_kept frameRate kept
  have clean : ∀ t : Screen, (∀ line, t.isDirty line = 0) → ∀ cell, cell ∉ dirtyCells t := by
    intro t none cell set
    simp only [dirtyCells, Set.mem_ofPred_eq, none] at set
    rw [show BitVec.getLsbD 0 cell.1 = false from BitVec.getLsbD_zero] at set
    nomatch set
  have within : ∀ cell ∈ dirtyCells s ∪ owed, cell.1 < screenWidthCols ∧ cell.2 < screenHeight := by
    rintro cell (dirty | before)
    · exact kept.onScreen cell dirty
    · exact kept.within cell before
  have drawn : ∀ t : Screen, t.active = [] → t.inactive = [] → t.redrawAll = false →
      (∀ line, t.isDirty line = 0) → Kept ∅ 0 t := by
    intro t active inactive redrawAll none
    refine ⟨active, by rw [inactive]; exact .nil, fun _ => inactive, ?_, ?_, nofun⟩
    · exact fun cell set => absurd set (clean t none cell)
    · rw [redrawAll]
      nofun
  rw [displayFrame, updated, Option.map_some, updateUiScreen]
  by_cases draws : frameRate ≤ s'.frameCount + 1
  · simp only [draws, if_true]
    by_cases all : s'.redrawAll = true
    · rw [if_pos all]
      refine ⟨_, _, rfl, cleared, nofun, fun shown found => ⟨?_, drawn _ active rfl rfl cleared⟩⟩
      obtain rfl := Option.some.inj found
      have whole : dirtyCells s ∪ owed = (⟨0, 0, screenWidthCols, screenHeight⟩ : Rectangle).cells := by
        ext ⟨column, line⟩
        simp only [Rectangle.cells, Set.mem_prod, Set.mem_Ico, Nat.zero_add, Nat.zero_le, true_and]
        constructor
        · exact within (column, line)
        · exact fun inside => kept.whole (redrawAll ▸ all) (column, line) inside.1 inside.2
      have one : Lays Rectangle.cells (skipped = 0) [⟨0, 0, screenWidthCols, screenHeight⟩] (dirtyCells s ∪ owed) := by
        have none : Lays Rectangle.cells (skipped = 0) [] ∅ := .nil
        have added := none.add (a := ⟨0, 0, screenWidthCols, screenHeight⟩) fun _ => Set.disjoint_empty _
        rwa [Set.empty_union, ← whole] at added
      exact shows_areas one
    · rw [if_neg all]
      refine ⟨_, _, rfl, cleared, nofun, fun shown found =>
        ⟨?_, drawn _ active rfl (Bool.eq_false_of_not_eq_true all) cleared⟩⟩
      obtain rfl := Option.some.inj found
      exact shows_areas lays
  · simp only [draws, if_false]
    refine ⟨none, _, rfl, cleared, fun _ => ?_, nofun⟩
    refine ⟨active, ⟨lays.covers, nofun⟩, nofun, ?_, ?_, within⟩
    · exact fun cell set => absurd set (clean _ cleared cell)
    · intro all cell column line
      exact .inr (kept.whole (redrawAll ▸ all) cell column line)

/-! ## Runs -/

/-- What happens to the screen: a cell is drawn into, all of it is, or a frame ends. -/
inductive ScreenOp : Type
  | mark (x : Fin screenWidthCols) (y : Fin screenHeight)
  | refreshAll
  | frame (timex : Bool) (frameRate : Int)

/-- The screen, with the cells that were dirty at the ends of the frames skipped since one was drawn, and how
many frames these are. -/
structure Owing : Type where
  screen : Screen
  owed : Set (Nat × Nat)
  skipped : Nat

def owingStep (p : Owing) : ScreenOp → Option Owing
  | .mark x y => some { p with screen := displayMarkScreenDirty x y p.screen }
  | .refreshAll => some { p with screen := displayRefreshAll p.screen }
  | .frame timex frameRate =>
    (displayFrame timex frameRate p.screen).map fun
      | (none, screen) => ⟨screen, dirtyCells p.screen ∪ p.owed, p.skipped + 1⟩
      | (some _, screen) => ⟨screen, ∅, 0⟩

def owingRun (ops : List ScreenOp) : Option Owing :=
  ops.foldlM owingStep ⟨.initial, ∅, 0⟩

theorem dirty_mark {x y line i : Nat} (onScreen : x < screenWidthCols) :
    ((displayMarkScreenDirty x y s).isDirty line).getLsbD i = true ↔
      (s.isDirty line).getLsbD i = true ∨ line = y ∧ i = x := by
  rw [screenWidthCols] at onScreen
  by_cases here : line = y
  · subst here
    have marked : (displayMarkScreenDirty x line s).isDirty line = s.isDirty line ||| ((1 : BitVec 64) <<< x) := if_pos rfl
    rw [marked, BitVec.getLsbD_or, Bool.or_eq_true]
    apply or_congr_right
    simp only [BitVec.getLsbD_shiftLeft, BitVec.ofNat_eq_ofNat, BitVec.getLsbD_one, Bool.and_eq_true,
      decide_eq_true_eq, Bool.not_eq_true', decide_eq_false_iff_not, true_and]
    omega
  · have same : (displayMarkScreenDirty x y s).isDirty line = s.isDirty line := if_neg here
    rw [same]
    exact ⟨.inl, fun either => either.resolve_right fun marked => here marked.1⟩

theorem getLsbD_wholeLine {i : Nat} : wholeLine.getLsbD i = true ↔ i < screenWidthCols := by
  have low : ∀ i < 64, wholeLine.getLsbD i = true ↔ i < screenWidthCols := by decide
  by_cases word : i < 64
  · exact low i word
  · rw [BitVec.getLsbD_of_ge _ _ (Nat.le_of_not_lt word), screenWidthCols]
    exact ⟨nofun, fun small => by omega⟩

theorem mem_refreshAll {cell : Nat × Nat} :
    cell ∈ dirtyCells (displayRefreshAll s) ↔
      if cell.2 < screenHeight then cell.1 < screenWidthCols else cell ∈ dirtyCells s := by
  by_cases onScreen : cell.2 < screenHeight
  · have marked : (displayRefreshAll s).isDirty cell.2 = wholeLine := if_pos onScreen
    rw [if_pos onScreen, dirtyCells, Set.mem_ofPred_eq, marked, getLsbD_wholeLine]
  · have same : (displayRefreshAll s).isDirty cell.2 = s.isDirty cell.2 := if_neg onScreen
    rw [if_neg onScreen, dirtyCells, Set.mem_ofPred_eq, same]
    rfl

theorem kept_mark (kept : Kept owed skipped s) (x : Fin screenWidthCols) (y : Fin screenHeight) :
    Kept owed skipped (displayMarkScreenDirty x y s) := by
  refine ⟨kept.active, kept.lays, kept.fresh, fun cell set => ?_, fun all cell column line => ?_, kept.within⟩
  · rcases (dirty_mark x.isLt).mp set with before | ⟨line, column⟩
    · exact kept.onScreen cell before
    · rw [line, column]
      exact ⟨x.isLt, y.isLt⟩
  · exact (kept.whole all cell column line).imp_left fun set => (dirty_mark x.isLt).mpr (.inl set)

theorem kept_refreshAll (kept : Kept owed skipped s) : Kept owed skipped (displayRefreshAll s) := by
  refine ⟨kept.active, kept.lays, kept.fresh, fun cell set => ?_, fun _ cell column line => ?_, kept.within⟩
  · rw [mem_refreshAll] at set
    by_cases onScreen : cell.2 < screenHeight
    · rw [if_pos onScreen] at set
      exact ⟨set, onScreen⟩
    · rw [if_neg onScreen] at set
      exact kept.onScreen cell set
  · refine .inl (mem_refreshAll.mpr ?_)
    rw [if_pos line]
    exact column

theorem kept_initial : Kept ∅ 0 Screen.initial := by
  have clean : ∀ cell, cell ∉ dirtyCells Screen.initial := by
    intro cell set
    have none : BitVec.getLsbD (0 : BitVec 64) cell.1 = true := set
    rw [show BitVec.getLsbD (0 : BitVec 64) cell.1 = false from BitVec.getLsbD_zero] at none
    nomatch none
  exact ⟨rfl, .nil, fun _ => rfl, fun cell set => absurd set (clean cell), nofun, nofun⟩

theorem owingStep_kept {p : Owing} (kept : Kept p.owed p.skipped p.screen) (op : ScreenOp) :
    ∃ p', owingStep p op = some p' ∧ Kept p'.owed p'.skipped p'.screen := by
  cases op with
  | mark x y => exact ⟨_, rfl, kept_mark kept x y⟩
  | refreshAll => exact ⟨_, rfl, kept_refreshAll kept⟩
  | frame timex frameRate =>
    obtain ⟨areas, s', ended, -, skips, draws⟩ := displayFrame_kept timex frameRate kept
    rw [owingStep, ended]
    rcases areas with _ | shown
    · exact ⟨_, rfl, skips rfl⟩
    · exact ⟨_, rfl, (draws shown rfl).2⟩

theorem owingRun_kept {p : Owing} (kept : Kept p.owed p.skipped p.screen) (ops : List ScreenOp) :
    ∃ p', ops.foldlM owingStep p = some p' ∧ Kept p'.owed p'.skipped p'.screen := by
  induction ops generalizing p with
  | nil => exact ⟨p, rfl, kept⟩
  | cons op ops ih =>
    obtain ⟨p', stepped, kept⟩ := owingStep_kept kept op
    obtain ⟨last, rest, kept⟩ := ih kept
    refine ⟨last, ?_, kept⟩
    rw [List.foldlM_cons, stepped]
    exact rest

/-- Every frame ends; what is handed to the UI is exactly what has been dirty since a frame was drawn, and
without skipped frames nothing of it twice. -/
theorem frame_areas (ops : List ScreenOp) :
    ∃ p, owingRun ops = some p ∧ ∀ timex frameRate, ∃ areas s,
      displayFrame timex frameRate p.screen = some (areas, s) ∧ (∀ line, s.isDirty line = 0) ∧
      ∀ shown, areas = some shown → Shows timex (p.skipped = 0) (dirtyCells p.screen ∪ p.owed) shown := by
  obtain ⟨p, ran, kept⟩ := owingRun_kept (p := ⟨.initial, ∅, 0⟩) kept_initial ops
  refine ⟨p, ran, fun timex frameRate => ?_⟩
  obtain ⟨areas, s, ended, cleared, -, draws⟩ := displayFrame_kept timex frameRate kept
  exact ⟨areas, s, ended, cleared, fun shown found => (draws shown found).1⟩

end FuseX.Display
