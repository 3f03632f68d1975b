import Mathlib.Algebra.Ring.Nat
import Mathlib.Data.List.Basic

/-!
# Numbers sent bit by bit

The bits of a number go over a line with the lowest first. A register of `width` bits takes each new bit at
the top, while what it holds moves down: after `width` bits it holds the number.
-/

namespace Lib

/-- The lowest `width` bits of a number. -/
def bitsOf : Nat → Nat → List Bool
  | 0, _ => []
  | width + 1, n => decide (n % 2 = 1) :: bitsOf width (n / 2)

/-- The number with some bits. -/
def ofBits : List Bool → Nat
  | [] => 0
  | bit :: bits => bit.toNat + 2 * ofBits bits

theorem length_bitsOf {width n : Nat} : (bitsOf width n).length = width := by
  induction width generalizing n with
  | zero => rfl
  | succ width ih => rw [bitsOf, List.length_cons, ih]

theorem ofBits_lt {bits : List Bool} : ofBits bits < 2 ^ bits.length := by
  induction bits with
  | nil => exact Nat.one_pos
  | cons bit bits ih =>
    rw [ofBits, List.length_cons, pow_succ]
    have := bit.toNat_le
    omega

theorem ofBits_bitsOf {width n : Nat} (fits : n < 2 ^ width) : ofBits (bitsOf width n) = n := by
  induction width generalizing n with
  | zero =>
    rw [pow_zero] at fits
    exact (Nat.lt_one_iff.mp fits).symm
  | succ width ih =>
    rw [pow_succ] at fits
    rw [bitsOf, ofBits, ih (by omega)]
    by_cases odd : n % 2 = 1
    · simp only [odd, decide_true, Bool.toNat_true]
      omega
    · simp only [odd, decide_false, Bool.toNat_false]
      omega

theorem bitsOf_ofBits {bits : List Bool} : bitsOf bits.length (ofBits bits) = bits := by
  induction bits with
  | nil => rfl
  | cons bit bits ih =>
    have half : (bit.toNat + 2 * ofBits bits) / 2 = ofBits bits := by
      have := bit.toNat_le
      cases bit
      · simp
      · simp only [Bool.toNat_true]
        omega
    rw [List.length_cons, ofBits, bitsOf, half, ih]
    cases bit
    · simp
    · simp

theorem ofBits_append {bits more : List Bool} :
    ofBits (bits ++ more) = ofBits bits + 2 ^ bits.length * ofBits more := by
  induction bits with
  | nil => simp [ofBits]
  | cons bit bits ih =>
    rw [List.cons_append, ofBits, ih, ofBits, List.length_cons, pow_succ, Nat.mul_add, ← Nat.add_assoc,
      Nat.mul_comm (2 ^ bits.length) 2, Nat.mul_assoc]

/-! ## Shift registers -/

/-- The bit is taken at the top of a register. -/
def shiftIn (width register : Nat) (bit : Bool) : Nat :=
  register / 2 + bit.toNat * 2 ^ (width - 1)

theorem shiftIn_lt {width register : Nat} {bit : Bool} (wide : 0 < width) (fits : register < 2 ^ width) :
    shiftIn width register bit < 2 ^ width := by
  obtain ⟨below, rfl⟩ : ∃ below, width = below + 1 := ⟨width - 1, by omega⟩
  rw [pow_succ] at fits ⊢
  have top : bit.toNat * 2 ^ below ≤ 1 * 2 ^ below := Nat.mul_le_mul_right _ bit.toNat_le
  rw [shiftIn, Nat.add_sub_cancel]
  omega

/-- Some bits have been taken, above what was there. -/
theorem foldl_shiftIn {width register : Nat} {bits : List Bool} (short : bits.length ≤ width)
    (fits : register < 2 ^ width) :
    bits.foldl (shiftIn width) register = register / 2 ^ bits.length + 2 ^ (width - bits.length) * ofBits bits := by
  induction bits generalizing register with
  | nil => simp [ofBits]
  | cons bit bits ih =>
    rw [List.length_cons] at short
    obtain ⟨left, rfl⟩ : ∃ left, width = bits.length + 1 + left := ⟨width - (bits.length + 1), by omega⟩
    rw [List.foldl_cons, ih (by omega) (shiftIn_lt (by omega) fits), shiftIn, List.length_cons, ofBits]
    have exponent : bits.length + 1 + left - 1 = left + bits.length := by omega
    have split : (register / 2 + bit.toNat * 2 ^ (left + bits.length)) / 2 ^ bits.length =
        register / 2 / 2 ^ bits.length + bit.toNat * 2 ^ left := by
      rw [pow_add, ← Nat.mul_assoc]
      exact Nat.add_mul_div_right _ _ (Nat.two_pow_pos _)
    have above : bits.length + 1 + left - bits.length = left + 1 := by omega
    have rest : bits.length + 1 + left - (bits.length + 1) = left := by omega
    rw [exponent, split, above, rest, Nat.div_div_eq_div_mul, pow_succ, pow_succ, Nat.mul_comm 2,
      Nat.mul_add, Nat.mul_comm bit.toNat]
    rw [Nat.mul_assoc (2 ^ left), Nat.add_assoc]

/-- As many bits as there is room for leave nothing of what was there. -/
theorem foldl_shiftIn_all {width register : Nat} {bits : List Bool} (all : bits.length = width)
    (fits : register < 2 ^ width) : bits.foldl (shiftIn width) register = ofBits bits := by
  rw [foldl_shiftIn (Nat.le_of_eq all) fits, all, Nat.div_eq_of_lt fits, Nat.sub_self, pow_zero, Nat.one_mul,
    Nat.zero_add]

end Lib
