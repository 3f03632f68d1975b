import FuseX.Display.BorderColumn

/-!
# Border changes

The border is drawn once a frame. Until then `push_border_change` notes which colour it got and where
the beam was, and `display_border_frame` replays the changes: between one and the next, a line at a
time, it fills `border_pixel_buf` with the colour of the first, and a line that is full is flushed.

`borderStep` is one event: time passes, the program writes to the ULA, the SCLD or to ULA+, the screen
is refreshed, or a frame ends. A reset of the SCLD, which leaves the border unchecked, is left out, and
so are the dirty rectangles.
-/

namespace FuseX.Display.Border

open LastScreen

/-- `DISPLAY_SCREEN_WIDTH_COLS`. -/
def screenWidthCols : Nat := 40

/-- `DISPLAY_SCREEN_HEIGHT`. -/
def screenHeight : Nat := 240

/-- `DISPLAY_TSTATES_PER_LINE_VISIBLE`. -/
def tstatesPerLineVisible : Nat := screenWidthCols * 4

/-- `line_pixels`. -/
def linePixels (timex : Bool) : Nat := screenWidthCols * pixPerCol timex

/-- What the colour of the border depends on. -/
structure Source : Type where
  /-- `scld_last_dec.name.hires` -/
  hires : Bool
  loresBorder : Nat
  hiresBorder : Nat
  ulaplusActive : Bool
  ulaplusGetColour : Nat → Nat

/-- `current_border_colour`. -/
def Source.currentBorderColour (source : Source) : Nat :=
  let colour := if source.hires then source.hiresBorder else source.loresBorder
  if source.ulaplusActive then ulaplusBase + source.ulaplusGetColour (8 + colour % 8) else colour

/-- `struct border_change_t`. -/
structure BorderChange : Type where
  t : Nat
  y : Nat
  colour : Nat

/-- `border_change_end_sentinel`. -/
def borderChangeEndSentinel : BorderChange where
  t := tstatesPerLineVisible
  y := screenHeight - 1
  colour := 0

/-- The variables of the border code, and the cells of the screen, by column and line. -/
structure Border : Type where
  source : Source
  tstates : Nat
  lastBorder : Nat
  changes : List BorderChange
  pixelBuf : Nat → Nat
  cells : Nat → Nat → Cell

namespace Border

/-! ## Noting a change -/

/-- `add_border_sentinel`. -/
def addBorderSentinel (s : Border) : Border :=
  { s with changes := s.changes ++ [⟨0, 0, s.source.currentBorderColour⟩] }

/-- `display_border_init`. -/
def displayBorderInit (source : Source) (cells : Nat → Nat → Cell) : Border :=
  addBorderSentinel
    { source := source
      tstates := 0
      lastBorder := source.currentBorderColour
      changes := []
      pixelBuf := fun _ => 0
      cells := cells }

/-- Where the beam is, as `push_border_change` has it: the line, and the T-state in it. -/
def beam (timings : Timings) (event : Nat) : Nat × Nat :=
  if event < timings.lineTimes 0 then (0, 0)
  else
    let beamY := (event - timings.lineTimes 0) / timings.tstatesPerLine
    (beamY, min (event - timings.lineTimes beamY) tstatesPerLineVisible)

/-- `push_border_change`. -/
def pushBorderChange (timings : Timings) (colour : Nat) (s : Border) : Border :=
  let (beamY, tInLine) := beam timings (s.tstates + 2)
  if screenHeight ≤ beamY then s
  else { s with changes := s.changes ++ [⟨tInLine, beamY, colour⟩] }

/-- `check_border_change`. -/
def checkBorderChange (timings : Timings) (s : Border) : Border :=
  let colour := s.source.currentBorderColour
  if colour ≠ s.lastBorder then { s.pushBorderChange timings colour with lastBorder := colour }
  else s

/-! ## Flushing a line -/

/-- A cell that belongs to the paper. -/
def IsPaper (c y : Nat) : Prop :=
  24 ≤ y ∧ y < 24 + 192 ∧ 4 ≤ c ∧ c < 4 + 32

instance (c y : Nat) : Decidable (IsPaper c y) :=
  inferInstanceAs (Decidable (_ ∧ _))

/-- A turn of the loop in `flush_border_line`. -/
def flushBorderCell (timex : Bool) (y : Nat) (s : Border) (c : Nat) : Border :=
  if IsPaper c y then s
  else
    let chunk := flushBorderColumn timex fun p => s.pixelBuf (c * pixPerCol timex + p)
    { s with cells := fun c' y' =>
        if c' = c ∧ y' = y then chunk.write (s.cells c y) else s.cells c' y' }

/-- `flush_border_line`. -/
def flushBorderLine (timex : Bool) (y : Nat) (s : Border) : Border :=
  (List.range screenWidthCols).foldl (flushBorderCell timex y) s

end Border

/-! ## Replaying the changes -/

/-- The variables of `display_border_frame`. -/
structure Replay : Type where
  border : Border
  cursorY : Nat
  cursorPix : Nat

namespace Replay

/-- `for( p = cursor_pix; p < stop; p++ ) border_pixel_buf[ p ] = colour`. -/
def fill (r : Replay) (stop colour : Nat) : Border :=
  { r.border with pixelBuf := fun p =>
      if r.cursorPix ≤ p ∧ p < stop then colour else r.border.pixelBuf p }

/-- The lines that are finished before the next change, `left` of them. -/
def finishLines (timex : Bool) (colour : Nat) : Nat → Replay → Replay
  | 0, r => r
  | left + 1, r =>
      finishLines timex colour left
        { border := (r.fill (linePixels timex) colour).flushBorderLine timex r.cursorY
          cursorY := r.cursorY + 1
          cursorPix := 0 }

/-- What is swept from one change to the next. -/
def segment (timex : Bool) (r : Replay) (first second : BorderChange) : Replay :=
  let targetPix := min (second.t * pixPerTstate timex) (linePixels timex)
  let r := finishLines timex first.colour (second.y - r.cursorY) r
  if r.cursorPix < targetPix then
    { r with border := r.fill targetPix first.colour, cursorPix := targetPix }
  else r

/-- The loop in `display_border_frame`. -/
def segments (timex : Bool) : List BorderChange → Replay → Replay
  | first :: second :: rest, r => segments timex (second :: rest) (r.segment timex first second)
  | _, r => r

end Replay

namespace Border

/-- `display_border_frame`. -/
def displayBorderFrame (timex : Bool) (s : Border) : Border :=
  let r := Replay.segments timex (s.changes ++ [borderChangeEndSentinel]) ⟨s, 0, 0⟩
  let s := r.border.flushBorderLine timex r.cursorY
  addBorderSentinel { s with changes := [] }

end Border

/-! ## Events -/

/-- What may happen. -/
inductive Act : Type
  | pass (tstates : Nat)
  /-- a write to the ULA's port -/
  | setLoresBorder (colour : Nat)
  /-- `scld_dec_write` -/
  | scldDecWrite (hires : Bool) (paper : Nat)
  /-- a write to ULA+, or another display mode -/
  | ulaplus (active : Bool) (palette : Nat → Nat)
  | refreshAll
  | frame (length : Nat)

/-- What a write does to what the border's colour depends on. -/
def Act.source : Act → Source → Source
  | .setLoresBorder colour, source => { source with loresBorder := colour }
  | .scldDecWrite hires paper, source => { source with hires, hiresBorder := paper }
  | .ulaplus active palette, source =>
      { source with ulaplusActive := active, ulaplusGetColour := palette }
  | .pass _, source | .refreshAll, source | .frame _, source => source

/-- `display_refresh_all`, as far as it concerns the cells. -/
def Border.displayRefreshAll (s : Border) : Border :=
  { s with cells := fun c y => { s.cells c y with lastScreen := 0xffffffff } }

def borderStep (timings : Timings) (timex : Bool) (s : Border) : Act → Border
  | .pass tstates => { s with tstates := s.tstates + tstates }
  | .frame length =>
      { s.displayBorderFrame timex with tstates := s.tstates - length }
  | .refreshAll => s.displayRefreshAll.checkBorderChange timings
  | act => { s with source := act.source s.source }.checkBorderChange timings

end FuseX.Display.Border
