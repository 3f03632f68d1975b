import Mathlib.Algebra.Ring.Nat

/-!
# What a cell of the screen shows

The display file holds a byte of bitmap for each of the 32 × 192 cells and an
attribute for every eight of them above each other; ULA+ colours a cell from a
palette. `Machine` has what a cell is drawn from and the beam's clock, and
`Machine.detail` is the record `display_write_if_dirty_sinclair` makes of a cell
(`display_last_screen` and `display_last_colours`). It determines what is plotted.

The Timex modes and the 16 colour Pentagon display are left out.
-/

namespace FuseX.Display

/-! ## The screen -/

/-- `DISPLAY_WIDTH_COLS`. -/
def widthCols : Nat := 32

/-- `DISPLAY_HEIGHT`. -/
def height : Nat := 192

/-- `DISPLAY_PIXEL_BYTES`. -/
def pixelBytes : Nat := height * widthCols

/-- `DISPLAY_FILE_SIZE`. -/
def fileSize : Nat := pixelBytes + height / 8 * widthCols

/-- `display_line_start`. -/
def lineStart (y : Nat) : Nat :=
  32 * (64 * (y / 64) + y / 8 % 8 + y % 8 * 8)

/-- `display_attr_start`. -/
def attrStart (y : Nat) : Nat :=
  pixelBytes + widthCols * (y / 8)

/-! ## The machine -/

/-- What the screen depends on besides the display code. -/
structure Machine : Type where
  /-- `RAM[ memory_current_screen ]` -/
  screen : Nat → UInt8
  palette : Nat → UInt8
  registerValue : UInt8
  modeEnabled : Bool
  /-- `periph_is_active( PERIPH_TYPE_ULAPLUS )` -/
  ulaplusActive : Bool
  flashReversed : Bool
  tstates : Nat

/-- What a cell was drawn from: `display_last_screen`, whose marker tells the two
kinds, and `display_last_colours`. -/
inductive Detail : Type
  | sinclair (flashReversed : Bool) (attr data : UInt8)
  | ulaplus (attr data : UInt8) (ink paper : Nat)
  deriving DecidableEq

/-- What `uidisplay_plot8` is given for a cell: the pixels and the two colours. -/
structure Plot : Type where
  data : UInt8
  ink : Nat
  paper : Nat
  deriving DecidableEq

/-- `display_parse_attr`: ink and paper. -/
def parseAttr (flashReversed : Bool) (attr : UInt8) : Nat × Nat :=
  let low := attr.toNat % 8 + attr.toNat / 64 % 2 * 8
  let high := attr.toNat / 8 % 16
  if 128 ≤ attr.toNat ∧ flashReversed then (high, low) else (low, high)

/-- What is plotted for a record. -/
def Detail.plot : Detail → Plot
  | .sinclair flashReversed attr data =>
      { data, ink := (parseAttr flashReversed attr).1, paper := (parseAttr flashReversed attr).2 }
  | .ulaplus _ data ink paper => { data, ink, paper }

namespace Machine

variable (m : Machine)

/-- `ulaplus_is_enabled`. -/
def ulaplusIsEnabled : Bool :=
  m.modeEnabled && m.ulaplusActive

/-- `ulaplus_get_colour`, above the standard colours. -/
def ulaplusColour (entry : Nat) : Nat :=
  16 + (m.palette (entry % 64)).toNat

/-- The record of a cell as it is now, from `display_write_if_dirty_sinclair` and
`display_write_if_dirty_ulaplus`. -/
def detail (x y : Nat) : Detail :=
  let data := m.screen (lineStart y + x)
  let attr := m.screen (attrStart y + x)
  if m.ulaplusIsEnabled then
    let clutBase := attr.toNat / 64 * 16
    .ulaplus attr data (m.ulaplusColour (clutBase + attr.toNat % 8))
      (m.ulaplusColour (clutBase + 8 + attr.toNat / 8 % 8))
  else .sinclair m.flashReversed attr data

/-- What the cell would show if it was drawn now. -/
def shows (x y : Nat) : Plot :=
  (m.detail x y).plot

end Machine

/-! ## The beam -/

/-- The timings of a machine. -/
structure Timings : Type where
  /-- `line_times[ 0 ]` -/
  lineTimes0 : Nat
  tstatesPerLine : Nat

/-- `line_times`. -/
def Timings.lineTimes (timings : Timings) (y : Nat) : Nat :=
  timings.lineTimes0 + y * timings.tstatesPerLine

/-- `display_get_beam_position`. -/
def displayGetBeamPosition (timings : Timings) (tstates : Nat) : Int × Int :=
  if tstates < timings.lineTimes 0 then (-1, -1)
  else
    let y := (tstates - timings.lineTimes 0) / timings.tstatesPerLine
    let x := if y ≤ 240 then (tstates - timings.lineTimes y) / 4 else 0
    (x, y)

/-- The beam as a place on the main screen, in `update_cached_beam`. -/
def toScreen (x y : Int) : Nat × Nat :=
  if y - 24 < 0 then (0, 0)
  else if 192 ≤ y - 24 then (32, 191)
  else if x - 4 < 0 then (0, (y - 24).toNat)
  else if 32 < x - 4 then (32, (y - 24).toNat)
  else ((x - 4).toNat, (y - 24).toNat)

def screenBeam (timings : Timings) (tstates : Nat) : Nat × Nat :=
  let (x, y) := displayGetBeamPosition timings tstates
  toScreen x y

end FuseX.Display
