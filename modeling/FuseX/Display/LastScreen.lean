import FuseX.Display.Render

/-!
# What is remembered of a cell

`display_last_screen` has a word for each of the 40 × 240 cells of the screen, the border
included, and `display_last_colours` has another where ULA+ coloured the cell. Whoever draws a
cell packs what the cell depends on into a word, and leaves the cell alone if that is the word
it has: a `Chunk` is such a word with what would be plotted. `display_getpixel` unpacks the
word again, for screenshots and movies.

The 16 colour Pentagon display, which fills the whole word, is left out.
-/

namespace FuseX.Display.LastScreen

/-! ## Cells -/

/-- A cell of the screen. -/
structure Cell : Type where
  /-- `display_last_screen` -/
  lastScreen : Nat
  /-- `display_last_colours` -/
  lastColours : Nat
  /-- The pixels in the frame buffer, from the left: 16 of them on a Timex, else 8. -/
  shown : Nat → Nat

/-- What a cell is about to be drawn as. -/
structure Chunk : Type where
  /-- `last_chunk_detail` -/
  detail : Nat
  /-- The colours, of a cell drawn in ULA+ colours. -/
  colours : Option Nat
  plot : Nat → Nat

/-- The cell is not as it was drawn last. -/
def Chunk.Differs (chunk : Chunk) (cell : Cell) : Prop :=
  cell.lastScreen ≠ chunk.detail ∨ ∃ colours ∈ chunk.colours, cell.lastColours ≠ colours

instance (chunk : Chunk) (cell : Cell) : Decidable (chunk.Differs cell) :=
  inferInstanceAs (Decidable (_ ∨ _))

/-- Plot a cell and update the last display record. -/
def Chunk.drawn (chunk : Chunk) (cell : Cell) : Cell where
  lastScreen := chunk.detail
  lastColours := chunk.colours.getD cell.lastColours
  shown := chunk.plot

/-- Draw a cell if it is different to what was there last time. -/
def Chunk.write (chunk : Chunk) (cell : Cell) : Cell :=
  if chunk.Differs cell then chunk.drawn cell else cell

/-- `pix_per_col`. -/
def pixPerCol (timex : Bool) : Nat :=
  if timex then 16 else 8

/-- `uidisplay_plot8`, which doubles the pixels on a Timex. -/
def plot8 (timex : Bool) (data : Nat) (ink paper x : Nat) : Nat :=
  if data.testBit (7 - if timex then x / 2 else x) then ink else paper

/-- `uidisplay_plot16`. -/
def plot16 (data : Nat) (ink paper x : Nat) : Nat :=
  if data.testBit (15 - x) then ink else paper

/-! ## The main screen of a Spectrum -/

/-- `DISPLAY_LAST_SCREEN_ULAPLUS`. -/
def lastScreenUlaplus : Nat := 0x02000000

/-- `display_write_if_dirty_ulaplus`. -/
def displayWriteIfDirtyUlaplus (m : Machine) (x y : Nat) : Chunk :=
  let data := m.screen (lineStart y + x)
  let attr := m.screen (attrStart y + x)
  let clutBase := attr.toNat / 64 * 16
  let ink := m.ulaplusColour (clutBase + attr.toNat % 8)
  let paper := m.ulaplusColour (clutBase + 8 + attr.toNat / 8 % 8)
  { detail := lastScreenUlaplus ||| attr.toNat <<< 8 ||| data.toNat
    colours := some (ink <<< 16 ||| paper)
    plot := plot8 false data.toNat ink paper }

/-- `display_write_if_dirty_sinclair`. -/
def displayWriteIfDirtySinclair (m : Machine) (x y : Nat) : Chunk :=
  if m.ulaplusIsEnabled then displayWriteIfDirtyUlaplus m x y
  else
    let data := m.screen (lineStart y + x)
    let data2 := m.screen (attrStart y + x)
    let (ink, paper) := parseAttr m.flashReversed data2
    { detail := m.flashReversed.toNat <<< 24 ||| data2.toNat <<< 8 ||| data.toNat
      colours := none
      plot := plot8 false data.toNat ink paper }

/-! ## The main screen of a Timex -/

/-- `ALTDFILE_OFFSET`. -/
def altdfileOffset : Nat := 0x2000

/-- What a Timex draws the main screen from. -/
structure Timex : Type where
  /-- `RAM[ memory_current_screen ]` -/
  screen : Nat → UInt8
  /-- `scld_last_dec` -/
  dec : UInt8
  flashReversed : Bool

/-- `hires_convert_dec`. -/
def hiresConvertDec (dec : UInt8) : UInt8 :=
  match dec.toNat / 8 % 8 with
  | 7 => 0x47
  | 6 => 0x4e
  | 5 => 0x55
  | 4 => 0x5c
  | 3 => 0x63
  | 2 => 0x6a
  | 1 => 0x71
  | _ => 0x78

/-- The bit `name.hires`. -/
def hires (dec : UInt8) : Bool := dec.toNat.testBit 2

namespace Timex

variable (t : Timex)

/-- `display_get_addr`. -/
def displayGetAddr (x y : Nat) : Nat :=
  if t.dec.toNat.testBit 0 then lineStart y + x + altdfileOffset else lineStart y + x

/-- `display_get_attr_byte`. -/
def displayGetAttrByte (x y : Nat) : UInt8 :=
  if hires t.dec then hiresConvertDec t.dec
  else if t.dec.toNat.testBit 1 then t.screen (lineStart y + x + altdfileOffset)
  else if t.dec.toNat.testBit 0 then t.screen (attrStart y + x + altdfileOffset)
  else t.screen (attrStart y + x)

/-- `data2` of `display_write_if_dirty_timex`: the second byte of pixels in a high
resolution mode, else the attribute. -/
def data2 (x y : Nat) : UInt8 :=
  if hires t.dec then
    match t.dec.toNat % 8 with
    | 5 => t.screen (attrStart y + x + altdfileOffset)
    | 6 => t.screen (t.displayGetAddr x y + altdfileOffset)
    | 7 => t.screen (t.displayGetAddr x y)
    | _ => t.screen (attrStart y + x)
  else t.displayGetAttrByte x y

/-- `display_write_if_dirty_timex`. -/
def displayWriteIfDirtyTimex (x y : Nat) : Chunk :=
  let data := t.screen (t.displayGetAddr x y)
  let data2 := t.data2 x y
  { detail := t.flashReversed.toNat <<< 24 ||| t.dec.toNat <<< 16 ||| data2.toNat <<< 8 |||
      data.toNat
    colours := none
    plot :=
      if hires t.dec then
        let (ink, paper) := parseAttr t.flashReversed (t.displayGetAttrByte x y)
        plot16 ((data.toNat <<< 8) + data2.toNat) ink paper
      else
        let (ink, paper) := parseAttr t.flashReversed data2
        plot8 true data.toNat ink paper }

end Timex

/-! ## The border -/

/-- `DISPLAY_ULAPLUS_BASE`. -/
def ulaplusBase : Nat := 16

/-- `pix_per_bit`. -/
def pixPerBit (timex : Bool) : Nat :=
  pixPerCol timex / 8

/-- The loop of `flush_border_line` over the pixels behind the first of a column:
`colour_right` and `transition_pix`. -/
def scanColumn (pixel : Nat → Nat) : List Nat → Nat → Option Nat → Nat × Option Nat
  | [], colourRight, transition => (colourRight, transition)
  | p :: ps, colourRight, transition =>
      if pixel p ≠ colourRight then
        if transition.isSome then (colourRight, transition)
        else scanColumn pixel ps (pixel p) (some p)
      else scanColumn pixel ps colourRight transition

/-- The byte of pixels of a column with a transition. -/
def transitionData (timex : Bool) (transition : Nat) : Nat :=
  ((1 <<< (8 - transition / pixPerBit timex)) - 1) % 256

/-- `flush_ulaplus_border_cell`. -/
def flushUlaplusBorderCell (timex : Bool) (colourLeft colourRight : Nat)
    (transition : Option Nat) : Chunk :=
  let paper := colourLeft
  let (data, ink) :=
    match transition with
    | none => (0, paper)
    | some p => (transitionData timex p, colourRight)
  { detail := lastScreenUlaplus ||| data
    colours := some (ink <<< 16 ||| paper)
    plot := plot8 timex data ink paper }

/-- What `flush_border_line` plots for a column of `border_pixel_buf`. -/
def flushBorderColumn (timex : Bool) (pixel : Nat → Nat) : Chunk :=
  let colourLeft := pixel 0
  let (colourRight, transition) :=
    scanColumn pixel (List.range' 1 (pixPerCol timex - 1)) colourLeft none
  if ulaplusBase ≤ colourLeft ∨ ulaplusBase ≤ colourRight then
    flushUlaplusBorderCell timex colourLeft colourRight transition
  else
    match transition with
    | none =>
        { detail := colourLeft <<< 11
          colours := none
          plot := plot8 timex 0 0 colourLeft }
    | some p =>
        let data := transitionData timex p
        { detail := (colourLeft <<< 3 ||| colourRight) <<< 8 ||| data
          colours := none
          plot := plot8 timex data colourRight colourLeft }

/-! ## Reading a pixel back -/

/-- `display_getpixel`, in a cell; `flashReversed` is as it is now. -/
def displayGetpixel (timex flashReversed : Bool) (cell : Cell) (x : Nat) : Nat :=
  let data := cell.lastScreen &&& 0xff
  let data2 := (cell.lastScreen &&& 0xff00) >>> 8
  if timex then
    let modeData := UInt8.ofNat ((cell.lastScreen &&& 0xff0000) >>> 16)
    if hires modeData then
      let data := if 7 < x % 16 then data2 else data
      let (ink, paper) := parseAttr flashReversed (hiresConvertDec modeData)
      if data.testBit (7 - x % 8) then ink else paper
    else
      let (ink, paper) := parseAttr flashReversed (UInt8.ofNat data2)
      if data.testBit (7 - x / 2 % 8) then ink else paper
  else if cell.lastScreen &&& lastScreenUlaplus ≠ 0 then
    if data.testBit (7 - x % 8) then cell.lastColours >>> 16 else cell.lastColours &&& 0xffff
  else
    let (ink, paper) := parseAttr flashReversed (UInt8.ofNat data2)
    if data.testBit (7 - x % 8) then ink else paper

/-- A cell is drawn, as a chunk, or is left as it was. -/
theorem Chunk.write_cases {chunk : Chunk} {cell : Cell} :
    (chunk.Differs cell ∧ chunk.write cell = chunk.drawn cell) ∨
      (¬ chunk.Differs cell ∧ chunk.write cell = cell) := by
  by_cases differs : chunk.Differs cell
  · exact Or.inl ⟨differs, if_pos differs⟩
  · exact Or.inr ⟨differs, if_neg differs⟩

end FuseX.Display.LastScreen
