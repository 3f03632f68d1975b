import Mathlib.Data.BitVec
import Mathlib.Data.Nat.Digits.Lemmas

/-!
# Carries

What goes from one digit of a sum to the next. In a sum of bits, the carry out of a place can be told from
the bits of the two numbers and of the sum there (`carry_of_bits`), and so can whether the sum has left the
signed range (`sum_overflow_of_bits`); a difference has the same two facts. In a sum of digits, the carries
in between cancel (`Carries.total`).
-/

namespace Lib

open BitVec (carry)

/-! ## Bits -/

section Bits

variable {w : Nat} (x y : BitVec w) (c : Bool)

/-- `x`, `y` and a carry, added. -/
abbrev sumWith : BitVec w := x + y + (BitVec.ofBool c).setWidth w

/-- `x` without `y` and a borrow. -/
abbrev differenceWith : BitVec w := x - y - (BitVec.ofBool c).setWidth w

/-- The carry out of a place, of the bits there. -/
def carryBit (x y r : Bool) : Bool := if r then x && y else x || y

/-- The borrow of a place, of the bits there. -/
def borrowBit (x y r : Bool) : Bool := if r then !x || y else !x && y

/-- What has to be borrowed for the `i` lowest places. -/
def borrow (i : Nat) (x y : BitVec w) (c : Bool) : Bool := decide (x.toNat % 2 ^ i < y.toNat % 2 ^ i + c.toNat)

theorem carry_of_bits {i : Nat} (inside : i < w) :
    carry (i + 1) x y c = carryBit (x.getLsbD i) (y.getLsbD i) ((sumWith x y c).getLsbD i) := by
  rw [BitVec.carry_succ, BitVec.getLsbD_add_add_bool inside]
  cases x.getLsbD i <;> cases y.getLsbD i <;> cases carry i x y c <;> rfl

theorem toNat_ofBool_setWidth (positive : 0 < w) : ((BitVec.ofBool c).setWidth w).toNat = c.toNat := by
  have small : c.toNat < 2 ^ w := Nat.lt_of_lt_of_le c.toNat_lt (Nat.pow_le_pow_right Nat.two_pos positive)
  rw [BitVec.toNat_setWidth, BitVec.toNat_ofBool, Nat.mod_eq_of_lt small]

/-- A difference is a sum with all bits of the second number changed, and of the borrow. -/
theorem differenceWith_eq (positive : 0 < w) : differenceWith x y c = sumWith x (~~~y) (!c) := by
  apply BitVec.eq_of_toNat_eq
  have one := toNat_ofBool_setWidth c positive
  have other := toNat_ofBool_setWidth (!c) positive
  have room : 2 ≤ 2 ^ w := Nat.le_self_pow (by omega) 2
  have bound := y.isLt
  have bit : c.toNat + (!c).toNat = 1 := by cases c <;> rfl
  rw [differenceWith, sumWith, BitVec.toNat_sub, BitVec.toNat_sub, BitVec.toNat_add, BitVec.toNat_add, one,
    other, BitVec.toNat_not, Nat.add_mod_mod, Nat.mod_add_mod]
  have same : 2 ^ w - c.toNat + (2 ^ w - y.toNat + x.toNat) =
      x.toNat + (2 ^ w - 1 - y.toNat) + (!c).toNat + 2 ^ w := by omega
  rw [same, Nat.add_mod_right]

theorem borrow_eq (i : Nat) (inside : i ≤ w) : borrow i x y c = !carry i x (~~~y) (!c) := by
  have room : 0 < 2 ^ i := Nat.two_pow_pos i
  obtain ⟨k, whole⟩ : ∃ k, 2 ^ w = 2 ^ i * k := ⟨2 ^ (w - i), by rw [← Nat.pow_add]; congr 1; omega⟩
  have bound := y.isLt
  have low : (2 ^ w - 1 - y.toNat) % 2 ^ i = 2 ^ i - 1 - y.toNat % 2 ^ i := by
    have rest : 2 ^ w - 1 - y.toNat = 2 ^ i * (k - 1 - y.toNat / 2 ^ i) + (2 ^ i - 1 - y.toNat % 2 ^ i) := by
      have parts := Nat.div_add_mod y.toNat (2 ^ i)
      have small := Nat.mod_lt y.toNat room
      have above : y.toNat / 2 ^ i < k := Nat.div_lt_of_lt_mul (whole ▸ bound)
      have split : 2 ^ i * (k - 1 - y.toNat / 2 ^ i) + 2 ^ i * (y.toNat / 2 ^ i) + 2 ^ i = 2 ^ i * k := by
        rw [← Nat.mul_add, ← Nat.mul_succ]
        congr 1
        omega
      omega
    rw [rest, Nat.mul_add_mod, Nat.mod_eq_of_lt (by omega)]
  have small := Nat.mod_lt y.toNat room
  have bit : c.toNat + (!c).toNat = 1 := by cases c <;> rfl
  rw [borrow, carry, BitVec.toNat_not, low, Bool.eq_not_iff, ne_eq, decide_eq_decide]
  omega

theorem borrow_of_bits {i : Nat} (inside : i < w) :
    borrow (i + 1) x y c = borrowBit (x.getLsbD i) (y.getLsbD i) ((differenceWith x y c).getLsbD i) := by
  rw [borrow_eq x y c (i + 1) inside, differenceWith_eq x y c (by omega), carry_of_bits _ _ _ inside,
    BitVec.getLsbD_not]
  cases x.getLsbD i <;> cases y.getLsbD i <;>
    cases (sumWith x (~~~y) (!c)).getLsbD i <;> simp [inside, carryBit, borrowBit]

/-! ## The signed range -/

/-- No signed number of `w` bits is `z`. -/
def overflows (w : Nat) (z : Int) : Bool := decide (z < -(2 ^ (w - 1) : Nat) ∨ ((2 ^ (w - 1) : Nat) : Int) ≤ z)

/-- The highest bits of a sum that left the signed range. -/
def sumOverflowBit (x y r : Bool) : Bool := if r then !x && !y else x && y

/-- The highest bits of a difference that left the signed range. -/
def differenceOverflowBit (x y r : Bool) : Bool := if r then !x && y else x && !y

theorem toNat_sumWith (positive : 0 < w) :
    (sumWith x y c).toNat = (x.toNat + y.toNat + c.toNat) % 2 ^ w := by
  rw [sumWith, BitVec.toNat_add, BitVec.toNat_add, toNat_ofBool_setWidth c positive, Nat.mod_add_mod]

theorem toNat_differenceWith (positive : 0 < w) :
    (differenceWith x y c).toNat = (2 ^ w - c.toNat + (2 ^ w - y.toNat) + x.toNat) % 2 ^ w := by
  rw [differenceWith, BitVec.toNat_sub, BitVec.toNat_sub, toNat_ofBool_setWidth c positive, Nat.add_mod_mod,
    Nat.add_assoc]

theorem sum_overflow_of_bits (positive : 0 < w) :
    overflows w (x.toInt + y.toInt + c.toNat) = sumOverflowBit x.msb y.msb (sumWith x y c).msb := by
  have whole : 2 ^ w = 2 * 2 ^ (w - 1) := by rw [← Nat.pow_succ', Nat.succ_eq_add_one, Nat.sub_add_cancel positive]
  have sum := toNat_sumWith x y c positive
  have bit := c.toNat_le
  have first := x.isLt
  have second := y.isLt
  rw [overflows, sumOverflowBit, BitVec.toInt_eq_msb_cond, BitVec.toInt_eq_msb_cond, BitVec.msb_eq_decide,
    BitVec.msb_eq_decide, BitVec.msb_eq_decide]
  generalize 2 ^ (w - 1) = half at *
  rw [whole] at sum first second ⊢
  rcases Nat.lt_or_ge (x.toNat + y.toNat + c.toNat) (2 * half) with small | large
  · rw [Nat.mod_eq_of_lt small] at sum
    rw [sum]
    grind
  · rw [Nat.mod_eq_sub_mod large, Nat.mod_eq_of_lt (by omega)] at sum
    rw [sum]
    grind

theorem difference_overflow_of_bits (positive : 0 < w) :
    overflows w (x.toInt - y.toInt - c.toNat) =
      differenceOverflowBit x.msb y.msb (differenceWith x y c).msb := by
  have complement : (~~~y).toInt = -y.toInt - 1 := by
    have bound := y.isLt
    rw [BitVec.toInt_eq_msb_cond, BitVec.toInt_eq_msb_cond, BitVec.msb_not, BitVec.toNat_not]
    generalize 2 ^ w = whole at *
    cases y.msb <;>
      simp only [positive, decide_true, Bool.true_and, Bool.not_true, Bool.not_false, if_true] <;> grind
  have bit : ((!c).toNat : Int) = 1 - c.toNat := by cases c <;> rfl
  have same : x.toInt - y.toInt - c.toNat = x.toInt + (~~~y).toInt + ((!c).toNat : Int) := by
    rw [complement, bit]
    omega
  rw [same, sum_overflow_of_bits x (~~~y) (!c) positive, differenceWith_eq x y c positive, BitVec.msb_not]
  cases x.msb <;> cases y.msb <;> cases (sumWith x (~~~y) (!c)).msb <;>
    simp [positive, sumOverflowBit, differenceOverflowBit]

/-! ## Narrower and wider words -/

theorem setWidth_sumWith {narrow : Nat} (narrower : narrow ≤ w) :
    (sumWith x y c).setWidth narrow = sumWith (x.setWidth narrow) (y.setWidth narrow) c := by
  rw [sumWith, BitVec.setWidth_add _ _ narrower, BitVec.setWidth_add _ _ narrower,
    BitVec.setWidth_setWidth_of_le _ narrower]

theorem setWidth_differenceWith {narrow : Nat} (positive : 0 < narrow) (narrower : narrow ≤ w) :
    (differenceWith x y c).setWidth narrow = differenceWith (x.setWidth narrow) (y.setWidth narrow) c := by
  rw [differenceWith_eq _ _ _ (positive.trans_le narrower), setWidth_sumWith _ _ _ narrower,
    BitVec.setWidth_not narrower, differenceWith_eq _ _ _ positive]

theorem narrow_sumWith {wide : Nat} (wider : w ≤ wide) :
    (sumWith (x.setWidth wide) (y.setWidth wide) c).setWidth w = sumWith x y c := by
  rw [setWidth_sumWith _ _ _ wider, BitVec.setWidth_setWidth_of_le _ wider, BitVec.setWidth_setWidth_of_le _ wider,
    BitVec.setWidth_eq, BitVec.setWidth_eq]

theorem narrow_differenceWith {wide : Nat} (positive : 0 < w) (wider : w ≤ wide) :
    (differenceWith (x.setWidth wide) (y.setWidth wide) c).setWidth w = differenceWith x y c := by
  rw [setWidth_differenceWith _ _ _ positive wider, BitVec.setWidth_setWidth_of_le _ wider,
    BitVec.setWidth_setWidth_of_le _ wider, BitVec.setWidth_eq, BitVec.setWidth_eq]

theorem getLsbD_widened (wide : Nat) : (x.setWidth wide).getLsbD w = false := by
  rw [BitVec.getLsbD_setWidth, BitVec.getLsbD_of_ge x w le_rfl, Bool.and_false]

theorem toNat_widened {wide : Nat} (wider : w ≤ wide) : (x.setWidth wide).toNat % 2 ^ w = x.toNat := by
  rw [BitVec.toNat_setWidth_of_le wider, Nat.mod_eq_of_lt x.isLt]

/-- The bit above a sum that was made in a wider word is its carry. -/
theorem sumWith_top {wide : Nat} (wider : w < wide) :
    (sumWith (x.setWidth wide) (y.setWidth wide) c).getLsbD w =
      decide (2 ^ w ≤ x.toNat + y.toNat + c.toNat) := by
  rw [BitVec.getLsbD_add_add_bool wider, getLsbD_widened, getLsbD_widened, Bool.false_xor,
    Bool.false_xor, carry, toNat_widened _ wider.le, toNat_widened _ wider.le]

/-- The bit above a difference that was made in a wider word is its borrow. -/
theorem differenceWith_top {wide : Nat} (wider : w < wide) :
    (differenceWith (x.setWidth wide) (y.setWidth wide) c).getLsbD w = decide (x.toNat < y.toNat + c.toNat) := by
  have borrowed := borrow_eq (x.setWidth wide) (y.setWidth wide) c w wider.le
  rw [borrow, toNat_widened _ wider.le, toNat_widened _ wider.le] at borrowed
  rw [borrowed, differenceWith_eq _ _ _ (by omega), BitVec.getLsbD_add_add_bool wider, BitVec.getLsbD_not,
    getLsbD_widened, getLsbD_widened, decide_eq_true wider, Bool.false_xor, Bool.not_false, Bool.true_and,
    Bool.true_xor]

end Bits

/-! ## Digits -/

/-- Places in which a carry goes up: what they hold and what is added in them, from the lowest. -/
inductive Carries (b : Nat) : Nat → List (Nat × Nat) → Nat → Prop
  | nil (c : Nat) : Carries b c [] c
  | cons {c middle last holds added : Nat} {places : List (Nat × Nat)} :
      holds + b * middle = added + c → Carries b middle places last → Carries b c ((holds, added) :: places) last

/-- What the places hold is what is added in them, but for the carry that goes in and the one that comes
out. -/
theorem Carries.total {b c last : Nat} {places : List (Nat × Nat)} (carries : Carries b c places last) :
    Nat.ofDigits b (places.map Prod.fst) + b ^ places.length * last =
      Nat.ofDigits b (places.map Prod.snd) + c := by
  induction carries with
  | nil c => simp
  | @cons c middle last holds added places place _ ih =>
    rw [List.map_cons, List.map_cons, Nat.ofDigits_cons, Nat.ofDigits_cons, List.length_cons, Nat.pow_succ']
    calc holds + b * Nat.ofDigits b (places.map Prod.fst) + b * b ^ places.length * last
        = holds + b * (Nat.ofDigits b (places.map Prod.fst) + b ^ places.length * last) := by ring
      _ = holds + b * middle + b * Nat.ofDigits b (places.map Prod.snd) := by rw [ih]; ring
      _ = added + b * Nat.ofDigits b (places.map Prod.snd) + c := by rw [place]; ring

theorem ofDigits_map_add {α : Type*} (b : Nat) (f g : α → Nat) (places : List α) :
    Nat.ofDigits b (places.map fun p => f p + g p) =
      Nat.ofDigits b (places.map f) + Nat.ofDigits b (places.map g) := by
  induction places with
  | nil => rfl
  | cons p places ih =>
    rw [List.map_cons, List.map_cons, List.map_cons, Nat.ofDigits_cons, Nat.ofDigits_cons, Nat.ofDigits_cons, ih]
    ring

end Lib
