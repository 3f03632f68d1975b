import FuseX.Display.BorderColumn

/-!
# Is what is remembered what is shown?

A cell is left alone if the word it was drawn from is the new one, so nothing may depend on what
is not in the word; and `display_getpixel` only has the word. `Source` is what a cell of the
screen is drawn from. The word of most of them is `Unpacked` to what was plotted, in the phase of
the flash that is in the word, and two cells with such words are told apart (`write_unpacked`).

The exceptions (`faithful_iff`): `display_getpixel` takes the phase of the flash as it is now, and
the two colours of a column of a Timex border do not fit in the three bits each of them has once
the border is a high resolution one.
-/

namespace FuseX.Display.LastScreen

open Nat

/-! ## What a cell is drawn from -/

/-- The colours of a border: the eight of the ULA and, above 15, those of ULA+; on a Timex the
bright ones of the high resolution modes instead. -/
def BorderColour (timex : Bool) (colour : Nat) : Prop :=
  if timex then colour < 16 else colour < 8 ∨ 16 ≤ colour ∧ colour < 272

/-- A column of the border, with a change of colour as the beam is `change` T-states into it. -/
structure BorderColumn (timex : Bool) : Type where
  left : Nat
  right : Nat
  change : Nat
  left_colour : BorderColour timex left
  right_colour : BorderColour timex right

/-- The column in `border_pixel_buf`. -/
def BorderColumn.pixel {timex : Bool} (column : BorderColumn timex) (p : Nat) : Nat :=
  if p < column.change * pixPerTstate timex then column.left else column.right

/-- The column is of one colour, or its two colours fit in the attribute of a word. -/
def BorderColumn.Fits {timex : Bool} (column : BorderColumn timex) : Prop :=
  column.left = column.right ∨ column.change = 0 ∨ 4 ≤ column.change ∨
    column.left < 8 ∧ column.left % 2 = 0 ∧ column.right < 8

/-- What the cell at a place is drawn from. -/
inductive Source : Type
  | sinclair (m : Machine) (x y : Nat)
  | timex (t : Timex) (x y : Nat)
  | border {timex : Bool} (column : BorderColumn timex)

namespace Source

/-- `machine_current->timex`. -/
def isTimex : Source → Bool
  | sinclair _ _ _ => false
  | timex _ _ _ => true
  | @border machine _ => machine

/-- The place on the main screen, if the cell is not one of the border. -/
def onScreen : Source → Option (Nat × Nat)
  | sinclair _ x y => some (x, y)
  | timex _ x y => some (x, y)
  | border _ => none

/-- What is drawn. -/
def chunk : Source → Chunk
  | sinclair m x y => displayWriteIfDirtySinclair m x y
  | timex t x y => t.displayWriteIfDirtyTimex x y
  | @border machine column => flushBorderColumn machine column.pixel

/-- The same cell of the same machine at another time. -/
def SameCell (source other : Source) : Prop :=
  source.isTimex = other.isTimex ∧ source.onScreen = other.onScreen

/-- What is remembered of the cell stands for what it shows: whatever is drawn there next, the
cell shows it, redrawn or not; and the pixels that were plotted are read back, with the flash in
the phase `now`. -/
def Faithful (source : Source) (now : Bool) : Prop :=
  (∀ other : Source, other.SameCell source → ∀ cell, ∀ x < pixPerCol source.isTimex,
      (other.chunk.write (source.chunk.drawn cell)).shown x = other.chunk.plot x) ∧
    ∀ cell x, displayGetpixel source.isTimex now (source.chunk.drawn cell) x =
      source.chunk.plot (x % pixPerCol source.isTimex)

/-- The flash is where it was when an attribute was plotted, or cannot be seen. -/
def SamePhase (now flashReversed : Bool) (attr : UInt8) : Prop :=
  now = flashReversed ∨ attr.toNat < 128 ∨ (parseAttr now attr).1 = (parseAttr now attr).2

/-- The condition on what a cell is drawn from. -/
def Safe (now : Bool) : Source → Prop
  | sinclair m x y =>
      m.ulaplusIsEnabled = true ∨ SamePhase now m.flashReversed (m.screen (attrStart y + x))
  | timex t x y => hires t.dec = true ∨ SamePhase now t.flashReversed (t.displayGetAttrByte x y)
  | @border machine column => machine = true → column.Fits

end Source

/-! ## Words that are unpacked -/

/-- The phase of the flash in a word. -/
def phase (word : Nat) : Bool :=
  decide (word / 2 ^ 24 % 2 = 1)

/-- A chunk is read back, in the phase of its word. -/
def Chunk.Unpacked (timex : Bool) (chunk : Chunk) : Prop :=
  ∀ cell x, displayGetpixel timex (phase chunk.detail) (chunk.drawn cell) x =
    chunk.plot (x % pixPerCol timex)

/-- The pixels are read from the words, and from nothing else. -/
theorem getpixel_congr {timex now : Bool} {cell cell' : Cell} {x : Nat}
    (lastScreen : cell.lastScreen = cell'.lastScreen)
    (lastColours : cell.lastColours = cell'.lastColours) :
    displayGetpixel timex now cell x = displayGetpixel timex now cell' x := by
  simp only [displayGetpixel, lastScreen, lastColours]

/-- A cell that is left alone has the words it would get. -/
theorem Chunk.same_words {chunk : Chunk} {cell : Cell} (same : ¬ chunk.Differs cell) :
    cell.lastScreen = (chunk.drawn cell).lastScreen ∧
      cell.lastColours = (chunk.drawn cell).lastColours := by
  have sameScreen : cell.lastScreen = chunk.detail := by
    by_contra other
    exact same (Or.inl other)
  refine ⟨sameScreen, ?_⟩
  rcases recorded : chunk.colours with _ | colours
  · simp only [Chunk.drawn, recorded, Option.getD_none]
  · by_contra other
    simp only [Chunk.drawn, recorded, Option.getD_some] at other
    exact same (Or.inr ⟨colours, recorded, other⟩)

/-- Of two chunks that are unpacked, neither is mistaken for the other. -/
theorem write_unpacked {timex : Bool} {chunk other : Chunk} (unpacked : chunk.Unpacked timex)
    (unpackedOther : other.Unpacked timex) (cell : Cell) {x : Nat} (inside : x < pixPerCol timex) :
    (other.write (chunk.drawn cell)).shown x = other.plot x := by
  rcases @Chunk.write_cases other (chunk.drawn cell) with ⟨-, written⟩ | ⟨same, written⟩
  · rw [written]
    rfl
  · obtain ⟨lastScreen, lastColours⟩ := Chunk.same_words same
    have detail : chunk.detail = other.detail := lastScreen
    have inCell : x % pixPerCol timex = x := mod_eq_of_lt inside
    rw [written]
    calc chunk.plot x = displayGetpixel timex (phase chunk.detail) (chunk.drawn cell) x := by
          rw [unpacked, inCell]
      _ = displayGetpixel timex (phase other.detail) (other.drawn (chunk.drawn cell)) x := by
          rw [detail, getpixel_congr lastScreen lastColours]
      _ = other.plot x := by rw [unpackedOther, inCell]

/-! ## The main screen -/

theorem pixel_byte (b : UInt8) : b.toNat < 256 :=
  UInt8.toNat_lt b

theorem ulaplusColour_wide (m : Machine) (entry : Nat) : m.ulaplusColour entry < 65536 := by
  have byte := pixel_byte (m.palette (entry % 64))
  simp only [Machine.ulaplusColour]
  omega

/-- In ULA+ colours the phase does not matter. -/
theorem getpixel_ulaplusChunk {m : Machine} {x y : Nat} (now : Bool) (cell : Cell) (p : Nat) :
    displayGetpixel false now ((displayWriteIfDirtyUlaplus m x y).drawn cell) p =
      (displayWriteIfDirtyUlaplus m x y).plot (p % 8) :=
  getpixel_ulaplus (or_marker (pixel_byte _) (pixel_byte _)) (or_colours (ulaplusColour_wide _ _))
    (pixel_byte _) (pixel_byte _) (ulaplusColour_wide _ _)

/-- The word of a cell in the colours of its attribute. -/
theorem sinclair_word {m : Machine} (standard : m.ulaplusIsEnabled = false) (x y : Nat) :
    displayWriteIfDirtySinclair m x y =
      { detail := m.flashReversed.toNat * 2 ^ 24 + (m.screen (attrStart y + x)).toNat * 256 +
          (m.screen (lineStart y + x)).toNat
        colours := none
        plot := plotAttr false m.flashReversed (m.screen (attrStart y + x))
          (m.screen (lineStart y + x)).toNat } := by
  simp only [displayWriteIfDirtySinclair, standard, Bool.false_eq_true, if_false, plotAttr,
    or_sinclair (pixel_byte _) (pixel_byte _)]

theorem getpixel_sinclairChunk {m : Machine} (standard : m.ulaplusIsEnabled = false) {x y : Nat}
    (now : Bool) (cell : Cell) (p : Nat) :
    displayGetpixel false now ((displayWriteIfDirtySinclair m x y).drawn cell) p =
      plotAttr false now (m.screen (attrStart y + x)) (m.screen (lineStart y + x)).toNat
        (p % 8) := by
  rw [sinclair_word standard]
  have word : m.flashReversed.toNat * 2 ^ 24 + (m.screen (attrStart y + x)).toNat * 256 +
      (m.screen (lineStart y + x)).toNat =
      (m.flashReversed.toNat * 256) * 65536 + (m.screen (attrStart y + x)).toNat * 256 +
      (m.screen (lineStart y + x)).toNat := by omega
  have flag : m.flashReversed.toNat ≤ 1 := Bool.toNat_le _
  have read := @getpixel_sinclair now (Chunk.drawn ⟨_, none, plotAttr false m.flashReversed
    (m.screen (attrStart y + x)) (m.screen (lineStart y + x)).toNat⟩ cell) p _ _ _ word
    (by omega) (pixel_byte _) (pixel_byte _)
  rwa [UInt8.ofNat_toNat] at read

theorem phase_word {flag : Bool} {rest : Nat} (small : rest < 2 ^ 24) :
    phase (flag.toNat * 2 ^ 24 + rest) = flag := by
  cases flag
  · simp only [phase, Bool.toNat_false]
    exact decide_eq_false (by omega)
  · simp only [phase, Bool.toNat_true]
    exact decide_eq_true (by omega)

theorem unpacked_sinclair (m : Machine) (x y : Nat) :
    (displayWriteIfDirtySinclair m x y).Unpacked false := by
  intro cell p
  by_cases enabled : m.ulaplusIsEnabled = true
  · have chunk : displayWriteIfDirtySinclair m x y = displayWriteIfDirtyUlaplus m x y :=
      if_pos enabled
    rw [chunk]
    exact getpixel_ulaplusChunk _ cell p
  · have standard : m.ulaplusIsEnabled = false := by simpa using enabled
    have attr := pixel_byte (m.screen (attrStart y + x))
    have data := pixel_byte (m.screen (lineStart y + x))
    have flash : phase (displayWriteIfDirtySinclair m x y).detail = m.flashReversed := by
      rw [sinclair_word standard, Nat.add_assoc]
      exact phase_word (by omega)
    rw [getpixel_sinclairChunk standard, flash, sinclair_word standard]
    rfl

/-! ## The main screen of a Timex -/

theorem timex_detail (t : Timex) (x y : Nat) :
    (t.displayWriteIfDirtyTimex x y).detail =
      t.flashReversed.toNat * 2 ^ 24 + t.dec.toNat * 65536 + (t.data2 x y).toNat * 256 +
        (t.screen (t.displayGetAddr x y)).toNat :=
  or_timex (pixel_byte _) (pixel_byte _) (pixel_byte _)

/-- What is plotted of a Timex screen, with the flash in the phase `now`. -/
def Timex.plotPhase (t : Timex) (now : Bool) (x y : Nat) : Nat → Nat :=
  let (ink, paper) := parseAttr now (t.displayGetAttrByte x y)
  if hires t.dec then
    plot16 (((t.screen (t.displayGetAddr x y)).toNat <<< 8) + (t.data2 x y).toNat) ink paper
  else plot8 true (t.screen (t.displayGetAddr x y)).toNat ink paper

theorem timex_plot (t : Timex) (x y : Nat) :
    (t.displayWriteIfDirtyTimex x y).plot = t.plotPhase t.flashReversed x y := by
  by_cases high : hires t.dec = true
  · simp only [Timex.displayWriteIfDirtyTimex, Timex.plotPhase, if_pos high]
  · simp only [Timex.displayWriteIfDirtyTimex, Timex.plotPhase, if_neg high, Timex.data2]

theorem getpixel_timexChunk (t : Timex) {x y : Nat} (now : Bool) (cell : Cell) (p : Nat) :
    displayGetpixel true now ((t.displayWriteIfDirtyTimex x y).drawn cell) p =
      t.plotPhase now x y (p % 16) := by
  by_cases high : hires t.dec = true
  · have mode : hires (UInt8.ofNat t.dec.toNat) = true := by rw [UInt8.ofNat_toNat, high]
    rw [getpixel_hires (timex_detail t x y) (pixel_byte _) (pixel_byte _) (pixel_byte _) mode]
    simp only [Timex.plotPhase, if_pos high, Timex.displayGetAttrByte, UInt8.ofNat_toNat]
  · have mode : hires (UInt8.ofNat t.dec.toNat) = false := by
      rw [UInt8.ofNat_toNat]
      simpa using high
    rw [getpixel_lores (timex_detail t x y) (pixel_byte _) (pixel_byte _) (pixel_byte _) mode]
    simp only [Timex.plotPhase, if_neg high, Timex.data2, plotAttr, UInt8.ofNat_toNat]

theorem unpacked_timex (t : Timex) (x y : Nat) : (t.displayWriteIfDirtyTimex x y).Unpacked true := by
  intro cell p
  have dec := pixel_byte t.dec
  have attr := pixel_byte (t.data2 x y)
  have data := pixel_byte (t.screen (t.displayGetAddr x y))
  have flash : phase (t.displayWriteIfDirtyTimex x y).detail = t.flashReversed := by
    rw [timex_detail, Nat.add_assoc, Nat.add_assoc]
    exact phase_word (by omega)
  rw [getpixel_timexChunk, flash, timex_plot]
  rfl

/-! ## Seeing the flash -/

/-- Two plots of the same pixels are the same if their colours are, and are not if the colours are
the other way round. -/
theorem plot8_swap {timex : Bool} {data ink paper : Nat}
    (same : plot8 timex data ink paper 0 = plot8 timex data paper ink 0) : ink = paper := by
  by_cases set : data.testBit (7 - if timex then 0 / 2 else 0) = true
  · rwa [plot8, plot8, if_pos set, if_pos set] at same
  · rw [plot8, plot8, if_neg set, if_neg set] at same
    exact same.symm

theorem parseAttr_same_iff {now old : Bool} {attr : UInt8} {timex : Bool} {data : Nat} :
    (∀ x, plotAttr timex now attr data (x % pixPerCol timex) =
        plotAttr timex old attr data (x % pixPerCol timex)) ↔ Source.SamePhase now old attr := by
  constructor
  · intro same
    by_cases still : now = old
    · exact Or.inl still
    by_cases steady : attr.toNat < 128
    · exact Or.inr (Or.inl steady)
    · have swapped := parseAttr_swap (Nat.not_lt.mp steady) (Ne.symm still)
      have first := same 0
      simp only [Nat.zero_mod, plotAttr, swapped, Prod.fst_swap, Prod.snd_swap] at first
      exact Or.inr (Or.inr (plot8_swap first))
  · rintro (rfl | steady | alike) x
    · rfl
    · simp only [plotAttr, parseAttr_steady steady old]
    · by_cases still : now = old
      · rw [still]
      by_cases steady : attr.toNat < 128
      · simp only [plotAttr, parseAttr_steady steady old]
      · have swapped := parseAttr_swap (Nat.not_lt.mp steady) (Ne.symm still)
        simp only [plotAttr, swapped, Prod.fst_swap, Prod.snd_swap, alike]

theorem plotPhase_same_iff {t : Timex} {now : Bool} {x y : Nat} :
    (∀ p, t.plotPhase now x y (p % 16) = t.plotPhase t.flashReversed x y (p % 16)) ↔
      hires t.dec = true ∨ Source.SamePhase now t.flashReversed (t.displayGetAttrByte x y) := by
  by_cases high : hires t.dec = true
  · have steady : (t.displayGetAttrByte x y).toNat < 128 := by
      rw [Timex.displayGetAttrByte, if_pos high, hiresConvertDec]
      split <;> decide
    simp only [Timex.plotPhase, parseAttr_steady steady t.flashReversed, implies_true, high, true_or]
  · have plot : ∀ phase, t.plotPhase phase x y = plotAttr true phase (t.displayGetAttrByte x y)
        (t.screen (t.displayGetAddr x y)).toNat := by
      intro phase
      simp only [Timex.plotPhase, if_neg high, plotAttr]
    have alike := @parseAttr_same_iff now t.flashReversed (t.displayGetAttrByte x y) true
      (t.screen (t.displayGetAddr x y)).toNat
    rw [plot, plot]
    exact alike.trans ⟨Or.inr, fun safe => safe.resolve_left high⟩

/-! ## The border -/

section Border

variable {timex : Bool} {column other : BorderColumn timex}

/-- A column is drawn in one colour or in two. -/
theorem BorderColumn.chunk_cases (column : BorderColumn timex) :
    ((column.left = column.right ∨ column.change = 0 ∨ 4 ≤ column.change) ∧
        ∃ colour, BorderColour timex colour ∧
          flushBorderColumn timex column.pixel = solidChunk timex colour) ∨
      (column.left ≠ column.right ∧ 0 < column.change ∧ column.change < 4 ∧
        flushBorderColumn timex column.pixel =
          splitChunk timex column.left column.right column.change) := by
  by_cases alike : column.left = column.right
  · refine Or.inl ⟨Or.inl alike, column.left, column.left_colour, flush_solid ?_⟩
    intro p _
    rw [BorderColumn.pixel, ← alike, ite_self]
  by_cases early : column.change = 0
  · refine Or.inl ⟨Or.inr (Or.inl early), column.right, column.right_colour, flush_solid ?_⟩
    intro p _
    rw [BorderColumn.pixel, early, Nat.zero_mul, if_neg (Nat.not_lt_zero p)]
  by_cases late : 4 ≤ column.change
  · refine Or.inl ⟨Or.inr (Or.inr late), column.left, column.left_colour, flush_solid ?_⟩
    intro p inside
    rw [pixPerCol_eq] at inside
    rw [BorderColumn.pixel, if_pos (inside.trans_le (Nat.mul_le_mul_right _ late))]
  · have begun : 0 < column.change := Nat.pos_of_ne_zero early
    have inside : column.change < 4 := Nat.not_le.mp late
    exact Or.inr ⟨alike, begun, inside, flush_split begun inside alike fun p _ => rfl⟩

theorem BorderColour.wide {colour : Nat} (isColour : BorderColour timex colour) :
    colour < 65536 := by
  cases timex
  · have standard : colour < 8 ∨ 16 ≤ colour ∧ colour < 272 := isColour
    omega
  · have standard : colour < 16 := isColour
    omega

/-- The border of a Spectrum is read back. -/
theorem getpixel_spectrumBorder (column : BorderColumn false) (now : Bool) (cell : Cell) (x : Nat) :
    displayGetpixel false now ((flushBorderColumn false column.pixel).drawn cell) x =
      (flushBorderColumn false column.pixel).plot (x % 8) := by
  rcases column.chunk_cases with ⟨-, colour, isColour, chunk⟩ | ⟨-, begun, inside, chunk⟩
  · rw [chunk]
    by_cases ulaplus : ulaplusBase ≤ colour
    · rw [solidChunk, if_pos ulaplus]
      exact getpixel_ulaplusBorder (by decide) isColour.wide _ rfl
    · exact getpixel_solid (Nat.not_le.mp ulaplus)
  · rw [chunk]
    by_cases ulaplus : ulaplusBase ≤ column.left ∨ ulaplusBase ≤ column.right
    · rw [splitChunk, if_pos ulaplus]
      exact getpixel_ulaplusBorder (Nat.mod_lt _ (by decide)) column.left_colour.wide _ rfl
    · have leftColour : column.left < 8 ∨ 16 ≤ column.left ∧ column.left < 272 :=
        column.left_colour
      have rightColour : column.right < 8 ∨ 16 ≤ column.right ∧ column.right < 272 :=
        column.right_colour
      have base : ulaplusBase = 16 := rfl
      exact (getpixel_split_iff (by omega) (by omega) begun inside now).mpr (by omega) cell x

/-- What a column of a Timex border is remembered by. -/
theorem timexBorder_cases (column : BorderColumn true) :
    ((column.left = column.right ∨ column.change = 0 ∨ 4 ≤ column.change) ∧
        ∃ colour < 16, flushBorderColumn true column.pixel = solidChunk true colour) ∨
      (column.left ≠ column.right ∧ 0 < column.change ∧ column.change < 4 ∧
        column.left < 16 ∧ column.right < 16 ∧
        flushBorderColumn true column.pixel =
          splitChunk true column.left column.right column.change) := by
  rcases column.chunk_cases with ⟨plain, colour, isColour, chunk⟩ | ⟨two, begun, inside, chunk⟩
  · exact Or.inl ⟨plain, colour, isColour, chunk⟩
  · exact Or.inr ⟨two, begun, inside, column.left_colour, column.right_colour, chunk⟩

/-- The border of a Timex is read back if its colours fit. -/
theorem getpixel_timexBorder {column : BorderColumn true} (fits : column.Fits) (now : Bool)
    (cell : Cell) (x : Nat) :
    displayGetpixel true now ((flushBorderColumn true column.pixel).drawn cell) x =
      (flushBorderColumn true column.pixel).plot (x % 16) := by
  rcases timexBorder_cases column with
    ⟨-, colour, low, chunk⟩ | ⟨two, begun, inside, leftLow, rightLow, chunk⟩
  · rw [chunk]
    exact getpixel_solid low
  · have narrow : column.left < 8 ∧ column.left % 2 = 0 ∧ column.right < 8 := by
      rcases fits with alike | early | late | narrow
      · exact absurd alike two
      · omega
      · omega
      · exact narrow
    rw [chunk]
    exact (getpixel_split_iff leftLow rightLow begun inside now).mpr
      (Or.inl ⟨narrow.1, narrow.2.2⟩) cell x

/-- The byte of a transition tells where it is. -/
theorem splitData_inj {change change' : Nat} (begun : 0 < change) (inside : change < 4)
    (begun' : 0 < change') (inside' : change' < 4)
    (same : 2 ^ (8 - 2 * change) - 1 = 2 ^ (8 - 2 * change') - 1) : change = change' := by
  have first : change = 1 ∨ change = 2 ∨ change = 3 := by omega
  have second : change' = 1 ∨ change' = 2 ∨ change' = 3 := by omega
  rcases first with rfl | rfl | rfl <;> rcases second with rfl | rfl | rfl <;> simp_all

theorem splitData_pos {change : Nat} (begun : 0 < change) (inside : change < 4) :
    0 < 2 ^ (8 - 2 * change) - 1 ∧ 2 ^ (8 - 2 * change) - 1 < 256 := by
  have place : change = 1 ∨ change = 2 ∨ change = 3 := by omega
  rcases place with rfl | rfl | rfl <;> decide

/-- A column of a Timex border whose colours fit is not mistaken for another. -/
theorem timexBorder_inj {column other : BorderColumn true} (fits : column.Fits)
    (same : (flushBorderColumn true column.pixel).detail =
      (flushBorderColumn true other.pixel).detail) :
    (flushBorderColumn true column.pixel).plot = (flushBorderColumn true other.pixel).plot := by
  rcases timexBorder_cases column with
    ⟨-, colour, low, chunk⟩ | ⟨two, begun, inside, leftLow, rightLow, chunk⟩
  · rcases timexBorder_cases other with
      ⟨-, colour', low', chunk'⟩ | ⟨-, begun', inside', leftLow', rightLow', chunk'⟩
    · rw [chunk, chunk', solid_standard low, solid_standard low'] at same
      have colours : colour = colour' := by
        simp only at same
        omega
      rw [chunk, chunk', colours]
    · rw [chunk, chunk', solid_standard low, split_standard leftLow' rightLow' begun' inside'] at same
      have data := splitData_pos begun' inside'
      simp only at same
      omega
  · have narrow : column.left < 8 ∧ column.left % 2 = 0 ∧ column.right < 8 := by
      rcases fits with alike | early | late | narrow
      · exact absurd alike two
      · omega
      · omega
      · exact narrow
    have data := splitData_pos begun inside
    rcases timexBorder_cases other with
      ⟨-, colour', low', chunk'⟩ | ⟨-, begun', inside', leftLow', rightLow', chunk'⟩
    · rw [chunk, chunk', solid_standard low', split_standard leftLow rightLow begun inside] at same
      simp only at same
      omega
    · rw [chunk, chunk', split_standard leftLow rightLow begun inside,
        split_standard leftLow' rightLow' begun' inside'] at same
      simp only at same
      have data' := splitData_pos begun' inside'
      have changes : column.change = other.change :=
        splitData_inj begun inside begun' inside' (by omega)
      have lefts : column.left = other.left := by omega
      have rights : column.right = other.right := by omega
      rw [chunk, chunk', changes, lefts, rights]

/-- A column of two colours is mistaken for one whose right colour has the same bits in the word. -/
theorem timexBorder_collides {column other : BorderColumn true} (begun : 0 < column.change)
    (inside : column.change < 4) (left : other.left = column.left)
    (change : other.change = column.change) (two : column.left ≠ column.right)
    (two' : other.left ≠ other.right) (rights : other.right ≠ column.right)
    (word : max (column.left % 2) (other.right / 8) = max (column.left % 2) (column.right / 8) ∧
      other.right % 8 = column.right % 8)
    (kept : ∀ cell, ∀ x < 16, ((flushBorderColumn true other.pixel).write
      ((flushBorderColumn true column.pixel).drawn cell)).shown x =
        (flushBorderColumn true other.pixel).plot x) : False := by
  have leftLow : column.left < 16 := column.left_colour
  have rightLow : column.right < 16 := column.right_colour
  have rightLow' : other.right < 16 := other.right_colour
  have chunk : flushBorderColumn true column.pixel =
      splitChunk true column.left column.right column.change :=
    flush_split begun inside two fun p _ => rfl
  have chunk' : flushBorderColumn true other.pixel =
      splitChunk true column.left other.right column.change := by
    have split : flushBorderColumn true other.pixel =
        splitChunk true other.left other.right other.change :=
      flush_split (by omega) (by omega) two' fun p _ => rfl
    rw [split, left, change]
  rw [split_standard leftLow rightLow begun inside] at chunk
  rw [split_standard leftLow rightLow' begun inside, word.1, word.2] at chunk'
  have same : ¬ (flushBorderColumn true other.pixel).Differs
      ((flushBorderColumn true column.pixel).drawn ⟨0, 0, fun _ => 0⟩) := by
    rw [chunk, chunk']
    rintro (detail | ⟨colours, absent, -⟩)
    · exact detail rfl
    · exact Option.not_mem_none colours absent
  obtain ⟨-, low⟩ := splitData_bits begun inside
  have last := kept ⟨0, 0, fun _ => 0⟩ 15 (by decide)
  rw [Chunk.write, if_neg same, chunk, chunk'] at last
  simp only [Chunk.drawn, plot8, if_true, Nat.reduceDiv, Nat.reduceSub, low] at last
  exact rights last.symm

end Border

/-! ## Which cells are remembered faithfully -/

theorem sinclair_faithful {m : Machine} {x y : Nat} {now : Bool} :
    (Source.sinclair m x y).Faithful now ↔ (Source.sinclair m x y).Safe now := by
  have kept : ∀ other : Source, other.SameCell (.sinclair m x y) → ∀ cell, ∀ p < 8,
      (other.chunk.write ((Source.sinclair m x y).chunk.drawn cell)).shown p =
        other.chunk.plot p := by
    rintro (⟨m', x', y'⟩ | ⟨t, x', y'⟩ | column) ⟨machine, place⟩ cell p inside
    · exact write_unpacked (unpacked_sinclair m x y) (unpacked_sinclair m' x' y') cell inside
    · exact Bool.noConfusion (show true = false from machine)
    · exact absurd place (Option.some_ne_none _).symm
  by_cases enabled : m.ulaplusIsEnabled = true
  · have chunk : displayWriteIfDirtySinclair m x y = displayWriteIfDirtyUlaplus m x y :=
      if_pos enabled
    refine ⟨fun _ => Or.inl enabled, fun _ => ⟨kept, fun cell p => ?_⟩⟩
    rw [Source.chunk, chunk]
    exact getpixel_ulaplusChunk now cell p
  · have standard : m.ulaplusIsEnabled = false := by simpa using enabled
    have phases := @parseAttr_same_iff now m.flashReversed (m.screen (attrStart y + x)) false
      (m.screen (lineStart y + x)).toNat
    constructor
    · rintro ⟨-, read⟩
      refine Or.inr (phases.mp fun p => ?_)
      have pixel := read ⟨0, 0, fun _ => 0⟩ p
      rw [Source.chunk, Source.isTimex, getpixel_sinclairChunk standard,
        sinclair_word standard] at pixel
      exact pixel
    · rintro (ulaplus | safe)
      · exact absurd ulaplus enabled
      · refine ⟨kept, fun cell p => ?_⟩
        rw [Source.chunk, Source.isTimex, getpixel_sinclairChunk standard, sinclair_word standard]
        exact phases.mpr safe p

theorem timex_faithful {t : Timex} {x y : Nat} {now : Bool} :
    (Source.timex t x y).Faithful now ↔ (Source.timex t x y).Safe now := by
  have kept : ∀ other : Source, other.SameCell (.timex t x y) → ∀ cell, ∀ p < 16,
      (other.chunk.write ((Source.timex t x y).chunk.drawn cell)).shown p =
        other.chunk.plot p := by
    rintro (⟨m, x', y'⟩ | ⟨t', x', y'⟩ | column) ⟨machine, place⟩ cell p inside
    · exact Bool.noConfusion (show false = true from machine)
    · exact write_unpacked (unpacked_timex t x y) (unpacked_timex t' x' y') cell inside
    · exact absurd place (Option.some_ne_none _).symm
  constructor
  · rintro ⟨-, read⟩
    refine plotPhase_same_iff.mp fun p => ?_
    have pixel := read ⟨0, 0, fun _ => 0⟩ p
    rw [Source.chunk, Source.isTimex, getpixel_timexChunk, timex_plot] at pixel
    exact pixel
  · intro safe
    refine ⟨kept, fun cell p => ?_⟩
    rw [Source.chunk, Source.isTimex, getpixel_timexChunk, timex_plot]
    exact plotPhase_same_iff.mpr safe p

theorem spectrumBorder_faithful (column : BorderColumn false) (now : Bool) :
    (Source.border column).Faithful now := by
  refine ⟨?_, getpixel_spectrumBorder column now⟩
  rintro (⟨m, x, y⟩ | ⟨t, x, y⟩ | @⟨machine, other⟩) ⟨machines, place⟩ cell p inside
  · exact absurd place (Option.some_ne_none _)
  · exact absurd place (Option.some_ne_none _)
  · obtain rfl : machine = false := machines
    exact write_unpacked (getpixel_spectrumBorder column _) (getpixel_spectrumBorder other _) cell
      inside

theorem timexBorder_faithful {column : BorderColumn true} {now : Bool} :
    (Source.border column).Faithful now ↔ column.Fits := by
  constructor
  · rintro ⟨kept, read⟩
    by_contra tight
    rcases timexBorder_cases column with
      ⟨plain, -⟩ | ⟨two, begun, inside, leftLow, rightLow, chunk⟩
    · rcases plain with alike | early | late
      · exact tight (Or.inl alike)
      · exact tight (Or.inr (Or.inl early))
      · exact tight (Or.inr (Or.inr (Or.inl late)))
    · rw [Source.chunk, chunk] at read
      have wide : ¬ (column.left < 8 ∧ column.left % 2 = 0 ∧ column.right < 8) :=
        fun narrow => tight (Or.inr (Or.inr (Or.inr narrow)))
      rcases (getpixel_split_iff leftLow rightLow begun inside now).mp read with
        ⟨leftSmall, rightSmall⟩ | ⟨leftBright, rightBright, odd⟩
      · let other : BorderColumn true :=
          ⟨column.left, column.right + 8, column.change, column.left_colour,
            show column.right + 8 < 16 by omega⟩
        exact @timexBorder_collides column other begun inside rfl rfl two
          (show column.left ≠ column.right + 8 by omega)
          (show column.right + 8 ≠ column.right by omega)
          ⟨show max (column.left % 2) ((column.right + 8) / 8) = _ by omega,
            show (column.right + 8) % 8 = _ by omega⟩
          (kept (.border other) ⟨rfl, rfl⟩)
      · let other : BorderColumn true :=
          ⟨column.left, column.right - 8, column.change, column.left_colour,
            show column.right - 8 < 16 by omega⟩
        exact @timexBorder_collides column other begun inside rfl rfl two
          (show column.left ≠ column.right - 8 by omega)
          (show column.right - 8 ≠ column.right by omega)
          ⟨show max (column.left % 2) ((column.right - 8) / 8) = _ by omega,
            show (column.right - 8) % 8 = _ by omega⟩
          (kept (.border other) ⟨rfl, rfl⟩)
  · intro fits
    refine ⟨?_, getpixel_timexBorder fits now⟩
    rintro (⟨m, x, y⟩ | ⟨t, x, y⟩ | @⟨machine, other⟩) ⟨machines, place⟩ cell p inside
    · exact absurd place (Option.some_ne_none _)
    · exact absurd place (Option.some_ne_none _)
    · obtain rfl : machine = true := machines
      rcases @Chunk.write_cases (Source.border other).chunk ((Source.border column).chunk.drawn cell)
        with ⟨-, written⟩ | ⟨same, written⟩
      · rw [written]
        rfl
      · rw [written]
        obtain ⟨lastScreen, -⟩ := Chunk.same_words same
        exact congrFun (timexBorder_inj fits lastScreen) p

/-- A cell is remembered faithfully just if the flash is in the phase it was drawn in, or not to be
seen, and the colours of a split column of a Timex border fit in three bits each without touching. -/
theorem faithful_iff (source : Source) (now : Bool) : source.Faithful now ↔ source.Safe now := by
  rcases source with ⟨m, x, y⟩ | ⟨t, x, y⟩ | @⟨machine, column⟩
  · exact sinclair_faithful
  · exact timex_faithful
  · cases machine
    · exact ⟨fun _ timex => absurd timex (by decide), fun _ => spectrumBorder_faithful column now⟩
    · exact timexBorder_faithful.trans ⟨fun fits _ => fits, fun fits => fits rfl⟩

/-- A column of a high resolution border that is changed from bright black to bright red in its
middle. -/
def hiresColumn : BorderColumn true :=
  ⟨8, 10, 2, show 8 < 16 by decide, show 10 < 16 by decide⟩

/-- The same column changed from bright blue. -/
def hiresColumn' : BorderColumn true :=
  ⟨9, 10, 2, show 9 < 16 by decide, show 10 < 16 by decide⟩

/-- Both columns have one word, and it is read as neither of the two colours of the first. -/
theorem hiresColumn_mistaken :
    (flushBorderColumn true hiresColumn.pixel).detail =
        (flushBorderColumn true hiresColumn'.pixel).detail ∧
      (flushBorderColumn true hiresColumn.pixel).plot 0 = 8 ∧
      (flushBorderColumn true hiresColumn'.pixel).plot 0 = 9 ∧
      displayGetpixel true false
        ((flushBorderColumn true hiresColumn.pixel).drawn ⟨0, 0, fun _ => 0⟩) 0 = 9 ∧
      ¬ (Source.border hiresColumn).Faithful false := by
  refine ⟨by decide, by decide, by decide, by decide, fun faithful => ?_⟩
  rcases timexBorder_faithful.mp faithful with alike | early | late | narrow
  · exact absurd alike (by decide)
  · exact absurd early (by decide)
  · exact absurd late (by decide)
  · exact absurd narrow.1 (by decide)

end FuseX.Display.LastScreen
