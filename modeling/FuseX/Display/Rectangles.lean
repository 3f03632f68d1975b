import Mathlib.Data.List.Basic

/-!
# The dirty rectangles

At the end of a frame the cells that have been drawn into are gathered into rectangles, line by line: a
rectangle is active while it may still grow downwards. When frames are skipped the rectangles of several
frames are kept, and touching ones merged. `Screen` has the variables of `rectangle.c` and of the ends of
frames; drawing itself and the recording of films are left out.
-/

namespace FuseX.Display

/-- `DISPLAY_SCREEN_WIDTH_COLS` -/
def screenWidthCols : Nat := 40

/-- `DISPLAY_SCREEN_HEIGHT` -/
def screenHeight : Nat := 240

/-- `struct rectangle` -/
structure Rectangle : Type where
  x : Nat
  y : Nat
  w : Nat
  h : Nat
deriving DecidableEq

/-! ## Active and inactive rectangles -/

/-- `rectangle_add`, on the active rectangles. -/
def rectangleAdd (y x w : Nat) : List Rectangle → List Rectangle
  | [] => [⟨x, y, w, 1⟩]
  | r :: active => if r.x = x ∧ r.w = w then { r with h := r.h + 1 } :: active else r :: rectangleAdd y x w active

/-- Whether two intervals overlap or touch. -/
def touches (start length start' length' : Nat) : Prop :=
  (start ≤ start' ∧ start' < start + length + 1) ∨ (start' < start ∧ start < start' + length' + 1)

instance (start length start' length' : Nat) : Decidable (touches start length start' length') := by
  unfold touches
  infer_instance

/-- `compare_and_merge_rectangles`, on the inactive rectangles. -/
def compareAndMergeRectangles (source : Rectangle) : List Rectangle → Option (List Rectangle)
  | [] => none
  | r :: inactive =>
    if r.x = source.x ∧ r.w = source.w ∧ r.y = source.y ∧ r.h = source.h then some (r :: inactive)
    else if r.x = source.x ∧ r.w = source.w ∧ touches r.y r.h source.y source.h then
      some ({ r with
        h := max (r.y + r.h) (source.y + source.h) - min r.y source.y
        y := min r.y source.y } :: inactive)
    else if r.y = source.y ∧ r.h = source.h ∧ touches r.x r.w source.x source.w then
      some ({ r with
        w := max (r.x + r.w) (source.x + source.w) - min r.x source.x
        x := min r.x source.x } :: inactive)
    else (compareAndMergeRectangles source inactive).map (r :: ·)

/-- The first loop of `rectangle_end_line`; a height of 0 marks an active rectangle as done. -/
def retire (frameRate : Int) (y : Nat) : List Rectangle → List Rectangle → List Rectangle × List Rectangle
  | [], inactive => ([], inactive)
  | r :: active, inactive =>
    if r.y + r.h = y + 1 then
      let (marked, inactive) := retire frameRate y active inactive
      (r :: marked, inactive)
    else
      let merged := if frameRate > 1 then compareAndMergeRectangles r inactive else none
      let (marked, inactive) := retire frameRate y active (merged.getD (inactive ++ [r]))
      ({ r with h := 0 } :: marked, inactive)

/-- `rectangle_end_line`; the active and the inactive rectangles. -/
def rectangleEndLine (frameRate : Int) (y : Nat) (rectangles : List Rectangle × List Rectangle) :
    List Rectangle × List Rectangle :=
  let (marked, inactive) := retire frameRate y rectangles.1 rectangles.2
  (marked.filter (·.h ≠ 0), inactive)

/-! ## Lines -/

/-- The loop over the dirty bits of a line, of which none is left at the end. -/
def scanDirty (y : Nat) : Nat → BitVec 64 → Nat → List Rectangle → Option (BitVec 64 × List Rectangle)
  | 0, _, _, _ => none
  | fuel + 1, isDirty, x, active =>
    if isDirty = 0 then some (isDirty, active)
    else
      let skip := isDirty.ctz.toNat
      let rest := isDirty >>> skip
      let run := (~~~rest).ctz.toNat
      scanDirty y fuel (rest >>> run) (x + skip + run) (rectangleAdd y (x + skip) run active)

/-- The variables. -/
structure Screen : Type where
  isDirty : Nat → BitVec 64
  active : List Rectangle
  inactive : List Rectangle
  frameCount : Int
  redrawAll : Bool

/-- The loop over the lines of `update_dirty_rects`. -/
def updateLines (frameRate : Int) : List Nat → Screen → Option Screen
  | [], s => some s
  | y :: lines, s =>
    match scanDirty y (screenWidthCols + 1) (s.isDirty y) 0 s.active with
    | none => none
    | some (isDirty, active) =>
      let (active, inactive) := rectangleEndLine frameRate y (active, s.inactive)
      updateLines frameRate lines
        { s with isDirty := fun line => if line = y then isDirty else s.isDirty line, active, inactive }

/-- `update_dirty_rects` -/
def updateDirtyRects (frameRate : Int) (s : Screen) : Option Screen :=
  match updateLines frameRate (List.range screenHeight) s with
  | none => none
  | some s =>
    let (active, inactive) := rectangleEndLine frameRate screenHeight (s.active, s.inactive)
    some { s with active, inactive }

/-! ## Frames -/

/-- The area of some cells, as it is given to `uidisplay_area`. -/
def areaOf (timex : Bool) (r : Rectangle) : Rectangle :=
  let scale := if timex then 2 else 1
  ⟨8 * scale * r.x, scale * r.y, 8 * scale * r.w, scale * r.h⟩

/-- `update_ui_screen`; the areas that are drawn, unless the frame is skipped. -/
def updateUiScreen (timex : Bool) (frameRate : Int) (s : Screen) : Option (List Rectangle) × Screen :=
  let frameCount := s.frameCount + 1
  if frameRate ≤ frameCount then
    if s.redrawAll then
      (some [areaOf timex ⟨0, 0, screenWidthCols, screenHeight⟩],
        { s with frameCount := 0, redrawAll := false, inactive := [] })
    else (some (s.inactive.map (areaOf timex)), { s with frameCount := 0, inactive := [] })
  else (none, { s with frameCount })

/-- The end of a frame in `display_frame`. -/
def displayFrame (timex : Bool) (frameRate : Int) (s : Screen) : Option (Option (List Rectangle) × Screen) :=
  (updateDirtyRects frameRate s).map (updateUiScreen timex frameRate)

/-- `display_mark_screen_dirty` -/
def displayMarkScreenDirty (x y : Nat) (s : Screen) : Screen :=
  { s with isDirty := fun line => if line = y then s.isDirty y ||| ((1 : BitVec 64) <<< x) else s.isDirty line }

/-- `display_all_dirty` -/
def wholeLine : BitVec 64 := ((1 : BitVec 64) <<< screenWidthCols) - 1

/-- What `display_refresh_all` does here. -/
def displayRefreshAll (s : Screen) : Screen :=
  { s with
    redrawAll := true
    isDirty := fun line => if line < screenHeight then wholeLine else s.isDirty line }

/-- The variables before `display_init`. -/
def Screen.initial : Screen where
  isDirty _ := 0
  active := []
  inactive := []
  frameCount := 0
  redrawAll := false

end FuseX.Display
