import FuseX.Lib.Runs
import FuseX.Display.Render

/-!
# The lazy display

`display_dirty.c` draws the cells that may have changed some time after the beam
has passed them: it keeps a mask of such cells for each line and the place up to
which the passed cells are drawn, the start of the critical region. A write to
the screen that the beam has passed first draws everything up to the beam.

`Lazy` has those variables, what was recorded and plotted for each cell, and
the pictures at the ends of frames. `displayStep` is one event: time passes, the
program writes to the screen or to the ULA+ ports, FLASH turns over, or a frame
ends. The events of one T-state are taken in any order.

A T-state the beam was cached for stands with the beam, instead of the `-1` that
no frame reaches. The dirty rectangles and the border are left out.
-/

namespace FuseX.Display

/-- The picture on the screen. -/
abbrev Picture : Type :=
  Nat → Nat → Option Plot

/-- The variables of the display code. -/
structure Lazy : Type where
  machine : Machine
  maybeDirty : Nat → BitVec 32
  paletteChangedThisFrame : Bool
  criticalX : Nat
  criticalY : Nat
  /-- a T-state and the beam's place on the screen then -/
  cachedBeam : Option (Nat × Nat × Nat)
  lastScreen : Nat → Nat → Option Detail
  plotted : Picture
  /-- the picture at the end of each frame -/
  frames : List Picture

/-- A function changed at one cell. -/
def setCell {α : Type} (f : Nat → Nat → α) (x y : Nat) (value : α) : Nat → Nat → α :=
  fun x' y' => if x' = x ∧ y' = y then value else f x' y'

/-- `display_all_dirty`. -/
def allDirty : BitVec 64 :=
  (1 <<< 40) - 1

/-- The bits from `x` up to `stop`, in `copy_critical_region_line`. -/
def bitMask (x stop : Nat) : BitVec 32 :=
  ((allDirty.setWidth 32 >>> x) <<< (x + (32 - stop))) >>> (32 - stop)

namespace Lazy

variable (timings : Timings) (d : Lazy)

/-- `display_write_if_dirty_sinclair`. -/
def writeIfDirty (x y : Nat) : Lazy :=
  let detail := d.machine.detail x y
  if d.lastScreen x y = some detail then d
  else { d with
    lastScreen := setCell d.lastScreen x y (some detail)
    plotted := setCell d.plotted x y (some detail.plot) }

/-- The loops over the dirty bits in `copy_critical_region_line`, a bit a turn. -/
def copyDirty (y : Nat) : Nat → BitVec 32 → Nat → Lazy → Lazy
  | 0, _, _, d => d
  | left + 1, dirty, x, d =>
      copyDirty y left (dirty >>> 1) (x + 1) (if dirty.getLsbD 0 then d.writeIfDirty x y else d)

/-- `copy_critical_region_line`. -/
def copyCriticalRegionLine (y x stop : Nat) : Lazy :=
  if stop ≤ x then d
  else if x < widthCols then
    let mask := bitMask x stop
    let dirty := (d.maybeDirty y &&& mask) >>> x
    let d := { d with
      maybeDirty := fun line => if line = y then d.maybeDirty y &&& ~~~mask else d.maybeDirty line }
    copyDirty y 32 dirty x d
  else d

/-- The loop over whole lines in `copy_critical_region`. -/
def copyLines : Nat → Lazy → Lazy
  | 0, d => d
  | left + 1, d =>
      copyLines left { d.copyCriticalRegionLine d.criticalY 0 widthCols with
        criticalY := d.criticalY + 1 }

/-- `copy_critical_region`. -/
def copyCriticalRegion (beamX beamY : Nat) : Lazy :=
  if d.criticalY = beamY then
    { d.copyCriticalRegionLine d.criticalY d.criticalX beamX with criticalX := beamX }
  else
    let d := { d.copyCriticalRegionLine d.criticalY d.criticalX widthCols with
      criticalY := d.criticalY + 1 }
    let d := copyLines (beamY - d.criticalY) d
    { d.copyCriticalRegionLine d.criticalY 0 beamX with criticalX := beamX }

/-- `update_cached_beam`: the beam, and the display with it cached. -/
def updateCachedBeam : (Nat × Nat) × Lazy :=
  let compute := screenBeam timings d.machine.tstates
  match d.cachedBeam with
  | some (tstates, beam) =>
      if d.machine.tstates ≠ tstates then
        (compute, { d with cachedBeam := some (d.machine.tstates, compute) })
      else (beam, d)
  | none => (compute, { d with cachedBeam := some (d.machine.tstates, compute) })

/-- `display_update_critical`. -/
def updateCritical (x y : Nat) : Lazy :=
  let ((beamX, beamY), d) := d.updateCachedBeam timings
  if y < beamY ∨ y = beamY ∧ x < beamX then d.copyCriticalRegion beamX beamY else d

/-- `display_dirty_chunk`. -/
def dirtyChunk (x y : Nat) : Lazy :=
  let d :=
    if d.criticalY < y ∨ y = d.criticalY ∧ d.criticalX ≤ x then d.updateCritical timings x y
    else d
  { d with
    maybeDirty := fun line => if line = y then d.maybeDirty y ||| (1#32 <<< x) else d.maybeDirty line }

/-- `display_dirty8`. -/
def dirty8 (offset : Nat) : Lazy :=
  d.dirtyChunk timings (offset % widthCols)
    (64 * (offset / 2 ^ 11 % 4) + 8 * (offset / 2 ^ 5 % 8) + offset / 2 ^ 8 % 8)

/-- `display_dirty64`. -/
def dirty64 (offset : Nat) : Lazy :=
  let idx := offset - pixelBytes
  (List.range 8).foldl
    (fun d i => d.dirtyChunk timings (idx % widthCols) (idx / widthCols * 8 + i)) d

/-- `display_dirty_sinclair`. -/
def dirtySinclair (offset : Nat) : Lazy :=
  if fileSize ≤ offset then d
  else if offset < pixelBytes then d.dirty8 timings offset else d.dirty64 timings offset

/-- `display_refresh_main_screen`. -/
def refreshMainScreen : Lazy :=
  { d with maybeDirty := fun line => if line < height then allDirty.setWidth 32 else d.maybeDirty line }

/-- `display_palette_changed`. -/
def paletteChanged : Lazy :=
  let ((x, y), d) := d.updateCachedBeam timings
  let d :=
    if d.criticalY < y ∨ y = d.criticalY ∧ d.criticalX < x then d.copyCriticalRegion x y else d
  { d with
    maybeDirty := fun line =>
      if line = y ∧ x < widthCols then d.maybeDirty y ||| (allDirty.setWidth 32 <<< x)
      else if y < line ∧ line < height then allDirty.setWidth 32
      else d.maybeDirty line
    paletteChangedThisFrame := true }

/-- `display_dirty_frame_begin`. -/
def dirtyFrameBegin : Lazy :=
  let d := { d with cachedBeam := none }
  let d := { d.copyCriticalRegion widthCols (height - 1) with criticalX := 0, criticalY := 0 }
  if d.paletteChangedThisFrame then { d.refreshMainScreen with paletteChangedThisFrame := false }
  else d

/-- `display_dirty_flashing_sinclair`. -/
def dirtyFlashing : Lazy :=
  if d.machine.ulaplusIsEnabled then d
  else
    (List.range (fileSize - pixelBytes)).foldl
      (fun d i =>
        if 128 ≤ (d.machine.screen (pixelBytes + i)).toNat then d.dirty64 timings (pixelBytes + i)
        else d)
      d

end Lazy

/-! ## Events -/

inductive DisplayAct : Type
  | elapse (tstates : Nat)
  /-- a write to the page of the screen -/
  | write (offset : Nat) (value : UInt8)
  | registerWrite (value : UInt8)
  | dataWrite (value : UInt8)
  /-- FLASH turns over, above the screen -/
  | flash
  /-- the frame ends, and the T-states are reduced by its length -/
  | frame (length : Nat)

namespace Machine

/-- The memory after a write. -/
def write (m : Machine) (offset : Nat) (value : UInt8) : Machine :=
  { m with screen := fun place => if place = offset then value else m.screen place }

/-- A palette entry after a write. -/
def setColour (m : Machine) (entry : Nat) (value : UInt8) : Machine :=
  { m with palette := fun place => if place = entry then value else m.palette place }

end Machine

namespace Lazy

variable (timings : Timings) (d : Lazy)

/-- `memory_display_dirty_sinclair` and the write in `writebyte_internal`. -/
def writebyte (offset : Nat) (value : UInt8) : Lazy :=
  let d :=
    if offset < fileSize ∧ d.machine.screen offset ≠ value then d.dirtySinclair timings offset
    else d
  { d with machine := d.machine.write offset value }

/-- `ulaplus_data_write`. -/
def ulaplusDataWrite (data : UInt8) : Lazy :=
  let group := d.machine.registerValue.toNat / 64
  if group = 0 then
    let entry := d.machine.registerValue.toNat % 64
    if d.machine.palette entry ≠ data then
      let d := if d.machine.modeEnabled then d.paletteChanged timings else d
      { d with machine := d.machine.setColour entry data }
    else d
  else if group = 1 then
    let mode := decide (data.toNat % 2 = 1)
    if d.machine.modeEnabled ≠ mode then
      let d := d.paletteChanged timings
      { d with machine := { d.machine with modeEnabled := mode } }
    else d
  else d

end Lazy

/-- An event, where it is possible. -/
def displayStep (timings : Timings) (d : Lazy) : DisplayAct → Option Lazy
  | .elapse tstates =>
      some { d with machine := { d.machine with tstates := d.machine.tstates + tstates } }
  | .write offset value => some (d.writebyte timings offset value)
  | .registerWrite value => some { d with machine := { d.machine with registerValue := value } }
  | .dataWrite value => some (d.ulaplusDataWrite timings value)
  | .flash =>
      if screenBeam timings d.machine.tstates = (0, 0) then
        let d := { d with machine := { d.machine with flashReversed := !d.machine.flashReversed } }
        some (d.dirtyFlashing timings)
      else none
  | .frame length =>
      if length ≤ d.machine.tstates then
        let d := { d with machine := { d.machine with tstates := d.machine.tstates - length } }
        let d := d.dirtyFrameBegin
        some { d with frames := d.frames ++ [d.plotted] }
      else none

/-- The display after `display_init`. -/
def Lazy.start (machine : Machine) : Lazy where
  machine := machine
  maybeDirty := fun _ => allDirty.setWidth 32
  paletteChangedThisFrame := false
  criticalX := 0
  criticalY := 0
  cachedBeam := none
  lastScreen := fun _ _ => none
  plotted := fun _ _ => none
  frames := []

end FuseX.Display
