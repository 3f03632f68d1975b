import FuseX.Display.LastScreenFields

/-!
# A column of the border

`flush_border_line` looks at the pixels of a column in `border_pixel_buf` and finds one colour
(`flush_solid`), or two and the pixel where the second begins (`flush_split`). The words it makes
of them have the two colours where the word of a cell of the main screen has its attribute.
-/

namespace FuseX.Display.LastScreen

open Nat

/-! ## Finding the transition -/

section Scan

variable {pixel : Nat → Nat} {ps qs : List Nat} {colour p : Nat} {transition : Option Nat}

theorem scan_stays (stays : ∀ p ∈ ps, pixel p = colour) :
    scanColumn pixel ps colour transition = (colour, transition) := by
  induction ps with
  | nil => rfl
  | cons p ps ih =>
    have here : ¬ pixel p ≠ colour := not_not.mpr (stays p List.mem_cons_self)
    rw [scanColumn, if_neg here]
    exact ih fun q inside => stays q (List.mem_cons_of_mem p inside)

theorem scan_changes (before : ∀ q ∈ ps, pixel q = colour) (changes : pixel p ≠ colour)
    (after : ∀ q ∈ qs, pixel q = pixel p) :
    scanColumn pixel (ps ++ p :: qs) colour none = (pixel p, some p) := by
  induction ps with
  | nil =>
    rw [List.nil_append, scanColumn, if_pos changes, if_neg (by decide)]
    exact scan_stays after
  | cons q ps ih =>
    have here : ¬ pixel q ≠ colour := not_not.mpr (before q List.mem_cons_self)
    rw [List.cons_append, scanColumn, if_neg here]
    exact ih fun r inside => before r (List.mem_cons_of_mem q inside)

end Scan

/-! ## What is drawn -/

/-- `pix_per_tstate`. -/
def pixPerTstate (timex : Bool) : Nat :=
  pixPerCol timex / 4

/-- A column of one colour. -/
def solidChunk (timex : Bool) (colour : Nat) : Chunk :=
  if ulaplusBase ≤ colour then flushUlaplusBorderCell timex colour colour none
  else
    { detail := colour <<< 11
      colours := none
      plot := plot8 timex 0 0 colour }

/-- A column with a change of colour as the beam is `change` T-states into it. -/
def splitChunk (timex : Bool) (left right change : Nat) : Chunk :=
  if ulaplusBase ≤ left ∨ ulaplusBase ≤ right then
    flushUlaplusBorderCell timex left right (some (change * pixPerTstate timex))
  else
    { detail := (left <<< 3 ||| right) <<< 8 |||
        transitionData timex (change * pixPerTstate timex)
      colours := none
      plot := plot8 timex (transitionData timex (change * pixPerTstate timex)) right left }

theorem pixPerTstate_pos (timex : Bool) : 0 < pixPerTstate timex := by
  cases timex <;> decide

theorem pixPerCol_eq (timex : Bool) : pixPerCol timex = 4 * pixPerTstate timex := by
  cases timex <;> rfl

variable {timex : Bool} {pixel : Nat → Nat} {colour left right change : Nat}

theorem flush_solid (solid : ∀ p < pixPerCol timex, pixel p = colour) :
    flushBorderColumn timex pixel = solidChunk timex colour := by
  have wide := pixPerCol_eq timex
  have step := pixPerTstate_pos timex
  have first : pixel 0 = colour := solid 0 (by omega)
  have scanned : scanColumn pixel (List.range' 1 (pixPerCol timex - 1)) colour none =
      (colour, none) := by
    apply scan_stays
    intro p inside
    rw [List.mem_range'_1] at inside
    exact solid p (by omega)
  by_cases ulaplus : ulaplusBase ≤ colour
  · simp only [flushBorderColumn, first, scanned, ulaplus, or_self, if_true, solidChunk]
  · simp only [flushBorderColumn, first, scanned, ulaplus, or_self, if_false, solidChunk]

theorem flush_split (begun : 0 < change) (inside : change < 4) (two : left ≠ right)
    (pixels : ∀ p < pixPerCol timex,
      pixel p = if p < change * pixPerTstate timex then left else right) :
    flushBorderColumn timex pixel = splitChunk timex left right change := by
  have wide := pixPerCol_eq timex
  have step := pixPerTstate_pos timex
  have early : 0 < change * pixPerTstate timex := Nat.mul_pos begun step
  have late : change * pixPerTstate timex < pixPerCol timex := by
    rw [wide]
    exact Nat.mul_lt_mul_of_pos_right inside step
  obtain ⟨edge, edge_eq⟩ : ∃ edge, change * pixPerTstate timex = edge := ⟨_, rfl⟩
  simp only [edge_eq] at early late pixels
  have first : pixel 0 = left := by rw [pixels 0 (by omega), if_pos early]
  have changed : pixel edge = right := by rw [pixels edge late, if_neg (Nat.lt_irrefl _)]
  have cut : List.range' 1 (pixPerCol timex - 1) =
      List.range' 1 (edge - 1) ++ edge :: List.range' (edge + 1) (pixPerCol timex - 1 - edge) := by
    have joined := @List.range'_append 1 (edge - 1) (pixPerCol timex - 1 - edge + 1) 1
    rw [show 1 + 1 * (edge - 1) = edge by omega,
      show edge - 1 + (pixPerCol timex - 1 - edge + 1) = pixPerCol timex - 1 by omega] at joined
    rw [← joined, List.range'_succ]
  have scanned : scanColumn pixel (List.range' 1 (pixPerCol timex - 1)) left none =
      (right, some edge) := by
    rw [cut, ← changed]
    apply scan_changes
    · intro p before
      rw [List.mem_range'_1] at before
      rw [pixels p (by omega), if_pos (by omega)]
    · rw [changed]
      exact two.symm
    · intro p after
      rw [List.mem_range'_1] at after
      rw [pixels p (by omega), if_neg (by omega), changed]
  by_cases ulaplus : ulaplusBase ≤ left ∨ ulaplusBase ≤ right
  · simp only [flushBorderColumn, first, scanned, ulaplus, if_true, splitChunk, edge_eq]
  · simp only [flushBorderColumn, first, scanned, ulaplus, if_false, splitChunk, edge_eq]

/-! ## Reading a column back -/

variable {now : Bool} {cell : Cell} {x : Nat}

/-- The transition is at a bit of the byte, which keeps the bits from it on. -/
theorem transitionData_cases (begun : 0 < change) (inside : change < 4) :
    transitionData timex (change * pixPerTstate timex) = 2 ^ (8 - 2 * change) - 1 := by
  have place : change = 1 ∨ change = 2 ∨ change = 3 := by omega
  rcases place with rfl | rfl | rfl <;> cases timex <;> rfl

/-- The byte has both colours in it. -/
theorem plot8_ends {data ink paper ink' paper' : Nat} (high : data.testBit 7 = false)
    (low : data.testBit 0 = true)
    (same : ∀ x, plot8 timex data ink paper (x % pixPerCol timex) =
      plot8 timex data ink' paper' (x % pixPerCol timex)) : ink = ink' ∧ paper = paper' := by
  have first := same 0
  have last := same (pixPerCol timex - 1)
  cases timex
  · simp only [plot8, pixPerCol, Bool.false_eq_true, if_false, Nat.zero_mod, Nat.sub_zero, high,
      Nat.reduceSub, Nat.reduceMod, low, if_true] at first last
    exact ⟨last, first⟩
  · simp only [plot8, pixPerCol, if_true, Nat.zero_mod, Nat.zero_div, Nat.sub_zero, high,
      Bool.false_eq_true, if_false, Nat.reduceSub, Nat.reduceMod, Nat.reduceDiv, low] at first last
    exact ⟨last, first⟩

/-- What `display_getpixel` makes of an attribute of the border, which does not flash. -/
theorem getpixel_border {a d : Nat} (word : cell.lastScreen = a * 256 + d) (attr : a < 128)
    (data : d < 256) :
    displayGetpixel timex now cell x =
      plot8 timex d (a % 8 + a / 64 * 8) (a / 8) (x % pixPerCol timex) := by
  have byte : (UInt8.ofNat a).toNat = a := by
    rw [UInt8.toNat_ofNat']
    omega
  have colours : parseAttr now (UInt8.ofNat a) = (a % 8 + a / 64 * 8, a / 8) := by
    have steady : ¬ 128 ≤ a := by omega
    simp only [parseAttr, byte, steady, false_and, if_false]
    rw [show a / 64 % 2 = a / 64 by omega, show a / 8 % 16 = a / 8 by omega]
  cases timex
  · have plain : cell.lastScreen = 0 * 65536 + a * 256 + d := by
      simp only [word, Nat.zero_mul, Nat.zero_add]
    rw [getpixel_sinclair plain (by decide) (by omega) data, plotAttr, colours]
    rfl
  · have plain : cell.lastScreen = 0 * 2 ^ 24 + 0 * 65536 + a * 256 + d := by
      simp only [word, Nat.zero_mul, Nat.zero_add]
    rw [getpixel_lores plain (by decide) (by omega) data (by decide), plotAttr, colours]
    rfl

/-- The two colours of a word, as far as they are below 16. -/
theorem or_attr {left right : Nat} (leftColour : left < 16) (rightColour : right < 16) :
    left <<< 3 ||| right = 16 * (left / 2) + 8 * max (left % 2) (right / 8) + right % 8 := by
  have table : ∀ l < 16, ∀ r < 16, l <<< 3 ||| r =
      16 * (l / 2) + 8 * max (l % 2) (r / 8) + r % 8 := by decide
  exact table left leftColour right rightColour

theorem solid_standard (low : colour < 16) :
    solidChunk timex colour =
      { detail := colour * 8 * 256 + 0, colours := none, plot := plot8 timex 0 0 colour } := by
  have standard : ¬ ulaplusBase ≤ colour := Nat.not_le.mpr low
  have shifted : colour * 2 ^ 11 = colour * 8 * 256 + 0 := by omega
  rw [solidChunk, if_neg standard, shiftLeft_eq, shifted]

theorem split_standard (leftLow : left < 16) (rightLow : right < 16) (begun : 0 < change)
    (inside : change < 4) :
    splitChunk timex left right change =
      { detail := (16 * (left / 2) + 8 * max (left % 2) (right / 8) + right % 8) * 256 +
          (2 ^ (8 - 2 * change) - 1)
        colours := none
        plot := plot8 timex (2 ^ (8 - 2 * change) - 1) right left } := by
  have standard : ¬ (ulaplusBase ≤ left ∨ ulaplusBase ≤ right) := by
    rintro (high | high)
    · exact Nat.not_le.mpr leftLow high
    · exact Nat.not_le.mpr rightLow high
  have byte : 2 ^ (8 - 2 * change) - 1 < 256 := by
    have small : 2 ^ (8 - 2 * change) ≤ 2 ^ 8 := Nat.pow_le_pow_right (by decide) (by omega)
    omega
  rw [splitChunk, if_neg standard, transitionData_cases begun inside, or_byte byte,
    or_attr leftLow rightLow]

/-- The pixels from the transition on are set. -/
theorem splitData_bits (begun : 0 < change) (inside : change < 4) :
    (2 ^ (8 - 2 * change) - 1).testBit 7 = false ∧ (2 ^ (8 - 2 * change) - 1).testBit 0 = true := by
  rw [testBit_two_pow_sub_one, testBit_two_pow_sub_one]
  exact ⟨decide_eq_false (by omega), decide_eq_true (by omega)⟩

theorem getpixel_solid (low : colour < 16) :
    displayGetpixel timex now ((solidChunk timex colour).drawn cell) x =
      (solidChunk timex colour).plot (x % pixPerCol timex) := by
  rw [solid_standard low, @getpixel_border timex now _ x (colour * 8) 0 rfl (by omega) (by decide)]
  simp only [plot8, zero_testBit, Bool.false_eq_true, if_false]
  omega

/-- A column of two colours is read as what their attribute stands for. -/
theorem getpixel_split_iff (leftLow : left < 16) (rightLow : right < 16) (begun : 0 < change)
    (inside : change < 4) (now : Bool) :
    (∀ cell x, displayGetpixel timex now ((splitChunk timex left right change).drawn cell) x =
        (splitChunk timex left right change).plot (x % pixPerCol timex)) ↔
      left < 8 ∧ right < 8 ∨ 8 ≤ left ∧ 8 ≤ right ∧ left % 2 = 1 := by
  obtain ⟨high, low⟩ := splitData_bits begun inside
  obtain ⟨data, data_eq⟩ : ∃ data, 2 ^ (8 - 2 * change) - 1 = data := ⟨_, rfl⟩
  have byte : data < 256 := by
    have small : 2 ^ (8 - 2 * change) ≤ 2 ^ 8 := Nat.pow_le_pow_right (by decide) (by omega)
    omega
  rw [split_standard leftLow rightLow begun inside]
  simp only [data_eq] at high low ⊢
  constructor
  · intro read
    have same := fun x => (@getpixel_border timex now _ x _ data rfl (by omega) byte).symm.trans
      (read ⟨0, 0, fun _ => 0⟩ x)
    have both := plot8_ends high low same
    omega
  · intro fits cell x
    have inkIs : (16 * (left / 2) + 8 * max (left % 2) (right / 8) + right % 8) % 8 +
        (16 * (left / 2) + 8 * max (left % 2) (right / 8) + right % 8) / 64 * 8 = right := by omega
    have paperIs : (16 * (left / 2) + 8 * max (left % 2) (right / 8) + right % 8) / 8 = left := by
      omega
    rw [@getpixel_border timex now _ x _ data rfl (by omega) byte, inkIs, paperIs]

/-- A column in ULA+ colours is read back. -/
theorem getpixel_ulaplusBorder {data : Nat} {ink paper : Nat} (byte : data < 256)
    (wide : paper < 65536) (plot : Nat → Nat) (is : plot = plot8 false data ink paper) :
    displayGetpixel false now
        (Chunk.drawn ⟨lastScreenUlaplus ||| data, some (ink <<< 16 ||| paper), plot⟩ cell) x =
      plot (x % 8) := by
  have word : lastScreenUlaplus ||| data = 2 ^ 25 + 0 * 256 + data := by
    have marked := @or_marker 0 data (by decide) byte
    rwa [Nat.zero_shiftLeft, Nat.or_zero] at marked
  rw [is]
  exact getpixel_ulaplus word (or_colours wide) (by decide) byte wide

end FuseX.Display.LastScreen
