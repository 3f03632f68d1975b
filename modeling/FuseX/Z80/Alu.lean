import FuseX.Lib.Carries
import FuseX.Z80.Blocks

/-!
# The arithmetic of the Z80

The macros of `z80_macros.h` for the arithmetic instructions find the half carry and the overflow in tables
of eight entries, with the highest bits of the two operands and of the result as an index. What the
instructions mean is said in `meaning` with the values of the operands, and `execute_meaning` says that the
macros do what they mean.
-/

namespace FuseX.Z80.Alu

open Blocks

/-! ## The macros -/

/-- `halfcarry_add_table`. -/
def halfcarryAddTable : BitVec 8 → BitVec 8
  | 1 => 0x10
  | 2 => 0x10
  | 3 => 0x10
  | 7 => 0x10
  | _ => 0

/-- `overflow_add_table`. -/
def overflowAddTable : BitVec 8 → BitVec 8
  | 3 => 0x04
  | 4 => 0x04
  | _ => 0

/-- `overflow_sub_table`. -/
def overflowSubTable : BitVec 8 → BitVec 8
  | 1 => 0x04
  | 6 => 0x04
  | _ => 0

/-- What an instruction has for its operands and its results: the registers, and the register or byte that
`INC` and `DEC` change, and the pair that `ADD16` changes. -/
structure State : Type where
  a : BitVec 8
  f : BitVec 8
  q : BitVec 8
  hl : BitVec 16
  memptr : BitVec 16
  register : BitVec 8
  pair : BitVec 16
  deriving DecidableEq

namespace State

variable (s : State)

/-- `lookup`, of bytes. -/
def lookup (a value : BitVec 8) (temp : BitVec 16) : BitVec 8 :=
  ((a &&& 0x88) >>> 3) ||| ((value &&& 0x88) >>> 2) ||| ((temp &&& 0x88) >>> 1).setWidth 8

/-- `lookup`, of words. -/
def lookup16 (hl value : BitVec 16) (temp : BitVec 32) : BitVec 8 :=
  ((hl &&& 0x8800) >>> 11).setWidth 8 ||| ((value &&& 0x8800) >>> 10).setWidth 8 |||
    ((temp &&& 0x8800) >>> 9).setWidth 8

/-- `ADD` and `ADC`, with what they add from the carry. -/
def addWith (value carry : BitVec 8) : State :=
  let addtemp : BitVec 16 := s.a.setWidth 16 + value.setWidth 16 + carry.setWidth 16
  let lookup := lookup s.a value addtemp
  let a := addtemp.setWidth 8
  let carry : BitVec 8 := if addtemp &&& 0x100 ≠ 0 then 0x01 else 0
  let f : BitVec 8 := carry |||
    halfcarryAddTable (lookup &&& 0x07) ||| overflowAddTable (lookup >>> 4) ||| sz53Table a
  { s with a := a, f := f, q := f }

/-- `ADD`. -/
def add (value : BitVec 8) : State := s.addWith value 0

/-- `ADC`. -/
def adc (value : BitVec 8) : State := s.addWith value (s.f &&& 0x01)

/-- `SUB` and `SBC`, with what they take for the carry. -/
def subWith (value carry : BitVec 8) : State :=
  let subtemp : BitVec 16 := s.a.setWidth 16 - value.setWidth 16 - carry.setWidth 16
  let lookup := lookup s.a value subtemp
  let a := subtemp.setWidth 8
  let carry : BitVec 8 := if subtemp &&& 0x100 ≠ 0 then 0x01 else 0
  let f : BitVec 8 := carry ||| (0x02 : BitVec 8) |||
    halfcarrySubTable (lookup &&& 0x07) ||| overflowSubTable (lookup >>> 4) ||| sz53Table a
  { s with a := a, f := f, q := f }

/-- `SUB`. -/
def sub (value : BitVec 8) : State := s.subWith value 0

/-- `SBC`. -/
def sbc (value : BitVec 8) : State := s.subWith value (s.f &&& 0x01)

/-- `CP`. -/
def cp (value : BitVec 8) : State :=
  let cptemp : BitVec 16 := s.a.setWidth 16 - value.setWidth 16
  let lookup := lookup s.a value cptemp
  let carry : BitVec 8 := if cptemp &&& 0x100 ≠ 0 then 0x01 else if cptemp ≠ 0 then 0 else 0x40
  let f : BitVec 8 := carry ||| (0x02 : BitVec 8) |||
    halfcarrySubTable (lookup &&& 0x07) ||| overflowSubTable (lookup >>> 4) |||
    (value &&& 0x28) ||| (cptemp &&& 0x80).setWidth 8
  { s with f := f, q := f }

/-- `INC`. -/
def inc : State :=
  let value := s.register + 1
  let f : BitVec 8 := (s.f &&& 0x01) ||| (if value = 0x80 then 0x04 else 0) |||
    (if value &&& 0x0f ≠ 0 then 0 else 0x10) ||| sz53Table value
  { s with register := value, f := f, q := f }

/-- `DEC`. -/
def dec : State :=
  let f : BitVec 8 := (s.f &&& 0x01) ||| (if s.register &&& 0x0f ≠ 0 then 0 else 0x10) ||| 0x02
  let value := s.register - 1
  let f : BitVec 8 := f ||| ((if value = 0x7f then 0x04 else 0) ||| sz53Table value)
  { s with register := value, f := f, q := f }

/-- `ADD16`. -/
def add16 (value2 : BitVec 16) : State :=
  let add16temp : BitVec 32 := s.pair.setWidth 32 + value2.setWidth 32
  let lookup : BitVec 8 := ((s.pair &&& 0x0800) >>> 11).setWidth 8 ||| ((value2 &&& 0x0800) >>> 10).setWidth 8 |||
    ((add16temp &&& 0x0800) >>> 9).setWidth 8
  let carry : BitVec 8 := if add16temp &&& 0x10000 ≠ 0 then 0x01 else 0
  let f : BitVec 8 := (s.f &&& (0xc4 : BitVec 8)) ||| carry |||
    ((add16temp >>> 8) &&& 0x28).setWidth 8 ||| halfcarryAddTable lookup
  { s with memptr := s.pair + 1, pair := add16temp.setWidth 16, f := f, q := f }

/-- `ADC16`. -/
def adc16 (value : BitVec 16) : State :=
  let add16temp : BitVec 32 := s.hl.setWidth 32 + value.setWidth 32 + (s.f &&& 0x01).setWidth 32
  let lookup := lookup16 s.hl value add16temp
  let hl := add16temp.setWidth 16
  let carry : BitVec 8 := if add16temp &&& 0x10000 ≠ 0 then 0x01 else 0
  let f : BitVec 8 := carry ||| overflowAddTable (lookup >>> 4) |||
    (highByte hl &&& 0xa8) ||| halfcarryAddTable (lookup &&& 0x07) ||| (if hl ≠ 0 then 0 else 0x40)
  { s with memptr := s.hl + 1, hl := hl, f := f, q := f }

/-- `SBC16`. -/
def sbc16 (value : BitVec 16) : State :=
  let sub16temp : BitVec 32 := s.hl.setWidth 32 - value.setWidth 32 - (s.f &&& 0x01).setWidth 32
  let lookup := lookup16 s.hl value sub16temp
  let hl := sub16temp.setWidth 16
  let carry : BitVec 8 := if sub16temp &&& 0x10000 ≠ 0 then 0x01 else 0
  let f : BitVec 8 := carry ||| (0x02 : BitVec 8) ||| overflowSubTable (lookup >>> 4) |||
    (highByte hl &&& 0xa8) ||| halfcarrySubTable (lookup &&& 0x07) ||| (if hl ≠ 0 then 0 else 0x40)
  { s with memptr := s.hl + 1, hl := hl, f := f, q := f }

/-- `add`, of `DAA`. -/
def daaAdd : BitVec 8 :=
  let add : BitVec 8 := if s.f &&& 0x10 ≠ 0 ∨ 9 < s.a &&& 0x0f then 6 else 0
  if s.f &&& 0x01 ≠ 0 ∨ 0x99 < s.a then add ||| 0x60 else add

/-- `DAA`. -/
def daa : State :=
  let carry := if 0x99 < s.a then 0x01 else s.f &&& 0x01
  let s := if s.f &&& 0x02 ≠ 0 then s.sub s.daaAdd else s.add s.daaAdd
  let f := (s.f &&& ~~~(0x01 ||| 0x04)) ||| carry ||| parityTable s.a
  { s with f := f, q := f }

end State

/-- The arithmetic instructions. -/
inductive Instruction : Type
  | add (value : BitVec 8)
  | adc (value : BitVec 8)
  | sub (value : BitVec 8)
  | sbc (value : BitVec 8)
  | cp (value : BitVec 8)
  | inc
  | dec
  | add16 (value : BitVec 16)
  | adc16 (value : BitVec 16)
  | sbc16 (value : BitVec 16)
  deriving DecidableEq

def execute (s : State) : Instruction → State
  | .add value => s.add value
  | .adc value => s.adc value
  | .sub value => s.sub value
  | .sbc value => s.sbc value
  | .cp value => s.cp value
  | .inc => s.inc
  | .dec => s.dec
  | .add16 value => s.add16 value
  | .adc16 value => s.adc16 value
  | .sbc16 value => s.sbc16 value

/-! ## What the instructions mean -/

/-- The eight flags. -/
structure Flags : Type where
  sign : Bool
  zero : Bool
  five : Bool
  half : Bool
  three : Bool
  overflow : Bool
  negative : Bool
  carry : Bool

def Flags.byte (flags : Flags) : BitVec 8 :=
  (if flags.sign then 0x80 else 0) ||| (if flags.zero then 0x40 else 0) ||| (if flags.five then 0x20 else 0) |||
    (if flags.half then 0x10 else 0) ||| (if flags.three then 0x08 else 0) |||
    (if flags.overflow then 0x04 else 0) |||
    (if flags.negative then 0x02 else 0) ||| (if flags.carry then 0x01 else 0)

/-- A sum with its flags. The half carry is the one out of all but the four highest bits. -/
def sum {w : Nat} (x y : BitVec w) (carry : Bool) : BitVec w × Flags :=
  let result := BitVec.ofNat w (x.toNat + y.toNat + carry.toNat)
  (result,
    { sign := result.toInt < 0
      zero := result = 0
      five := result.getLsbD (w - 3)
      half := 2 ^ (w - 4) ≤ x.toNat % 2 ^ (w - 4) + y.toNat % 2 ^ (w - 4) + carry.toNat
      three := result.getLsbD (w - 5)
      overflow := Lib.overflows w (x.toInt + y.toInt + carry.toNat)
      negative := false
      carry := 2 ^ w ≤ x.toNat + y.toNat + carry.toNat })

/-- A difference with its flags. -/
def difference {w : Nat} (x y : BitVec w) (borrow : Bool) : BitVec w × Flags :=
  let result := BitVec.ofInt w (x.toNat - y.toNat - borrow.toNat)
  (result,
    { sign := result.toInt < 0
      zero := result = 0
      five := result.getLsbD (w - 3)
      half := x.toNat % 2 ^ (w - 4) < y.toNat % 2 ^ (w - 4) + borrow.toNat
      three := result.getLsbD (w - 5)
      overflow := Lib.overflows w (x.toInt - y.toInt - borrow.toNat)
      negative := true
      carry := x.toNat < y.toNat + borrow.toNat })

/-- The flags of an instruction, set. -/
def State.flagged (s : State) (flags : Flags) : State := { s with f := flags.byte, q := flags.byte }

/-- The carry flag of a state. -/
def State.carry (s : State) : Bool := s.f.getLsbD 0

/-- What the instructions do, in numbers. `INC` and `DEC` leave the carry as it was, and `ADD16` leaves the
sign, the zero and the overflow. `CP` takes two of its flags from what is compared with. -/
def meaning (s : State) : Instruction → State
  | .add value =>
    let (a, flags) := sum s.a value false
    { s with a := a }.flagged flags
  | .adc value =>
    let (a, flags) := sum s.a value s.carry
    { s with a := a }.flagged flags
  | .sub value =>
    let (a, flags) := difference s.a value false
    { s with a := a }.flagged flags
  | .sbc value =>
    let (a, flags) := difference s.a value s.carry
    { s with a := a }.flagged flags
  | .cp value =>
    let (_, flags) := difference s.a value false
    s.flagged { flags with five := value.getLsbD 5, three := value.getLsbD 3 }
  | .inc =>
    let (register, flags) := sum s.register 1 false
    { s with register := register }.flagged { flags with carry := s.carry }
  | .dec =>
    let (register, flags) := difference s.register 1 false
    { s with register := register }.flagged { flags with carry := s.carry }
  | .add16 value =>
    let (pair, flags) := sum s.pair value false
    { s with memptr := s.pair + 1, pair := pair }.flagged
      { flags with sign := s.f.getLsbD 7, zero := s.f.getLsbD 6, overflow := s.f.getLsbD 2 }
  | .adc16 value =>
    let (hl, flags) := sum s.hl value s.carry
    { s with memptr := s.hl + 1, hl := hl }.flagged flags
  | .sbc16 value =>
    let (hl, flags) := difference s.hl value s.carry
    { s with memptr := s.hl + 1, hl := hl }.flagged flags

/-! ## The tables -/

/-- Three bits as an index: of the first operand, of the second one, and of the result. -/
def hash (x y r : Bool) : BitVec 8 :=
  (if x then 1 else 0) ||| (if y then 2 else 0) ||| (if r then 4 else 0)

theorem halfcarryAddTable_hash (x y r : Bool) :
    halfcarryAddTable (hash x y r) = if Lib.carryBit x y r then 0x10 else 0 := by
  cases x <;> cases y <;> cases r <;> rfl

theorem halfcarrySubTable_hash (x y r : Bool) :
    halfcarrySubTable (hash x y r) = if Lib.borrowBit x y r then 0x10 else 0 := by
  cases x <;> cases y <;> cases r <;> rfl

theorem overflowAddTable_hash (x y r : Bool) :
    overflowAddTable (hash x y r) = if Lib.sumOverflowBit x y r then 0x04 else 0 := by
  cases x <;> cases y <;> cases r <;> rfl

theorem overflowSubTable_hash (x y r : Bool) :
    overflowSubTable (hash x y r) = if Lib.differenceOverflowBit x y r then 0x04 else 0 := by
  cases x <;> cases y <;> cases r <;> rfl

theorem ite_getElem {w i : Nat} (inside : i < w) (b : Bool) (mask : BitVec w) :
    (if b = true then mask else 0#w)[i] = (b && mask[i]) := by
  cases b <;> simp

theorem lookup_low (a value : BitVec 8) (temp : BitVec 16) :
    State.lookup a value temp &&& 0x07 = hash (a.getLsbD 3) (value.getLsbD 3) (temp.getLsbD 3) := by
  ext i inside
  interval_cases i <;> simp [State.lookup, hash, ite_getElem]

theorem lookup_high (a value : BitVec 8) (temp : BitVec 16) :
    State.lookup a value temp >>> 4 = hash (a.getLsbD 7) (value.getLsbD 7) (temp.getLsbD 7) := by
  ext i inside
  interval_cases i <;> simp [State.lookup, hash, ite_getElem]

theorem lookup16_low (hl value : BitVec 16) (temp : BitVec 32) :
    State.lookup16 hl value temp &&& 0x07 = hash (hl.getLsbD 11) (value.getLsbD 11) (temp.getLsbD 11) := by
  ext i inside
  interval_cases i <;> simp [State.lookup16, hash, ite_getElem]

theorem lookup16_high (hl value : BitVec 16) (temp : BitVec 32) :
    State.lookup16 hl value temp >>> 4 = hash (hl.getLsbD 15) (value.getLsbD 15) (temp.getLsbD 15) := by
  ext i inside
  interval_cases i <;> simp [State.lookup16, hash, ite_getElem]

theorem sz53Table_eq (a : BitVec 8) :
    sz53Table a = (if a.msb then 0x80 else 0) ||| (if a = 0 then 0x40 else 0) |||
      (if a.getLsbD 5 then 0x20 else 0) ||| (if a.getLsbD 3 then 0x08 else 0) := by
  rw [sz53Table]
  by_cases zero : a = 0
  · subst zero
    rfl
  · rw [if_neg zero, if_neg zero, BitVec.msb_eq_getLsbD_last]
    ext i inside
    interval_cases i <;> simp [ite_getElem]

/-- What a mask of one bit leaves. -/
theorem and_twoPow_ne_zero {w : Nat} (x : BitVec w) {i : Nat} (inside : i < w) :
    x &&& BitVec.twoPow w i ≠ 0 ↔ x.getLsbD i = true := by
  rw [BitVec.and_twoPow]
  cases x.getLsbD i
  · simp
  · have set : (BitVec.twoPow w i).getLsbD i = true := by simp [inside]
    simp only [if_true, iff_true]
    intro zero
    rw [zero] at set
    simp at set

theorem and_sign (temp : BitVec 16) : (temp &&& 0x80).setWidth 8 = if temp.getLsbD 7 then 0x80 else 0 := by
  ext i inside
  interval_cases i <;> simp [ite_getElem]

theorem and_five_three (x : BitVec 8) :
    x &&& 0x28 = (if x.getLsbD 5 then 0x20 else 0) ||| (if x.getLsbD 3 then 0x08 else 0) := by
  ext i inside
  interval_cases i <;> simp [ite_getElem]

theorem and_carry (f : BitVec 8) : f &&& 0x01 = if f.getLsbD 0 then 0x01 else 0 := by
  ext i inside
  interval_cases i <;> simp [ite_getElem]

theorem low_nibble (x : BitVec 8) : x &&& 0x0f = 0 ↔ x.toNat % 16 = 0 := by
  rw [← BitVec.toNat_inj, BitVec.toNat_and]
  exact (Nat.and_two_pow_sub_one_eq_mod x.toNat 4).congr_left

/-! ## The flags, from the bits -/

section Bits

variable {w : Nat} (x y : BitVec w) (c : Bool)

theorem sum_fst (positive : 0 < w) : (sum x y c).1 = Lib.sumWith x y c := by
  apply BitVec.eq_of_toNat_eq
  rw [Lib.toNat_sumWith x y c positive, sum, BitVec.toNat_ofNat]

theorem difference_fst (positive : 0 < w) : (difference x y c).1 = Lib.differenceWith x y c := by
  have bit : (c.toNat : Int) = ((BitVec.ofBool c).setWidth w).toNat := by
    rw [Lib.toNat_ofBool_setWidth c positive]
  simp only [difference]
  rw [Lib.differenceWith, bit, Int.sub_eq_add_neg, Int.sub_eq_add_neg, BitVec.ofInt_add, BitVec.ofInt_add,
    BitVec.ofInt_neg, BitVec.ofInt_neg, BitVec.ofInt_natCast, BitVec.ofInt_natCast, BitVec.ofInt_natCast,
    BitVec.ofNat_toNat, BitVec.ofNat_toNat, BitVec.ofNat_toNat, BitVec.setWidth_eq, BitVec.setWidth_eq,
    BitVec.setWidth_eq, ← BitVec.sub_eq_add_neg, ← BitVec.sub_eq_add_neg]

theorem sum_snd (large : 4 < w) : (sum x y c).2 =
    let r := Lib.sumWith x y c
    { sign := r.msb
      zero := r = 0
      five := r.getLsbD (w - 3)
      half := Lib.carryBit (x.getLsbD (w - 5)) (y.getLsbD (w - 5)) (r.getLsbD (w - 5))
      three := r.getLsbD (w - 5)
      overflow := Lib.sumOverflowBit x.msb y.msb r.msb
      negative := false
      carry := decide (2 ^ w ≤ x.toNat + y.toNat + c.toNat) } := by
  have result := sum_fst x y c (by omega)
  have place : w - 5 + 1 = w - 4 := by omega
  have half := Lib.carry_of_bits x y c (i := w - 5) (by omega)
  rw [place, BitVec.carry] at half
  simp only [sum] at result ⊢
  rw [result, BitVec.msb_eq_toInt, Lib.sum_overflow_of_bits x y c (by omega), ← half, ← BitVec.msb_eq_toInt]

theorem difference_snd (large : 4 < w) : (difference x y c).2 =
    let r := Lib.differenceWith x y c
    { sign := r.msb
      zero := r = 0
      five := r.getLsbD (w - 3)
      half := Lib.borrowBit (x.getLsbD (w - 5)) (y.getLsbD (w - 5)) (r.getLsbD (w - 5))
      three := r.getLsbD (w - 5)
      overflow := Lib.differenceOverflowBit x.msb y.msb r.msb
      negative := true
      carry := decide (x.toNat < y.toNat + c.toNat) } := by
  have result := difference_fst x y c (by omega)
  have place : w - 5 + 1 = w - 4 := by omega
  have half := Lib.borrow_of_bits x y c (i := w - 5) (by omega)
  rw [place, Lib.borrow] at half
  simp only [difference] at result ⊢
  rw [result, BitVec.msb_eq_toInt, Lib.difference_overflow_of_bits x y c (by omega), ← half,
    ← BitVec.msb_eq_toInt]

end Bits

/-! ## The instructions, one by one -/

/-- The carry that `ADC` and `SBC` take. -/
theorem and_one (f : BitVec 8) : f &&& 0x01 = (BitVec.ofBool (f.getLsbD 0)).setWidth 8 := by
  ext i inside
  interval_cases i <;> simp

theorem carry_mask (temp : BitVec 16) : temp &&& 0x100 ≠ 0 ↔ temp.getLsbD 8 = true :=
  and_twoPow_ne_zero temp (i := 8) (by decide)

theorem carry_mask16 (temp : BitVec 32) : temp &&& 0x10000 ≠ 0 ↔ temp.getLsbD 16 = true :=
  and_twoPow_ne_zero temp (i := 16) (by decide)

/-- The bits of a word that was made of wider ones. -/
theorem getLsbD_of_setWidth {w narrow : Nat} {x : BitVec w} {y : BitVec narrow} (same : x.setWidth narrow = y)
    {i : Nat} (inside : i < narrow) : x.getLsbD i = y.getLsbD i := by
  rw [← same, BitVec.getLsbD_setWidth, decide_eq_true inside, Bool.true_and]

variable (s : State)

theorem addWith_eq (value : BitVec 8) (c : Bool) :
    s.addWith value ((BitVec.ofBool c).setWidth 8) =
      { s with a := (sum s.a value c).1 }.flagged (sum s.a value c).2 := by
  have narrow := Lib.narrow_sumWith s.a value c (show 8 ≤ 16 by decide)
  have top := Lib.sumWith_top s.a value c (show 8 < 16 by decide)
  rw [sum_fst _ _ _ (by decide), sum_snd _ _ _ (by decide)]
  simp only [State.addWith, BitVec.setWidth_setWidth (x := BitVec.ofBool c) (show ¬(8 < 1 ∧ 8 < 16) by decide)]
  simp only [lookup_low, lookup_high, halfcarryAddTable_hash, overflowAddTable_hash, sz53Table_eq, carry_mask,
    getLsbD_of_setWidth narrow (show 3 < 8 by decide), getLsbD_of_setWidth narrow (show 7 < 8 by decide),
    narrow, top]
  simp only [State.flagged, Flags.byte, BitVec.msb_eq_getLsbD_last, decide_eq_true_eq, Bool.false_eq_true, if_false,
    Nat.reduceSub]
  congr 1 <;> ac_rfl

theorem subWith_eq (value : BitVec 8) (c : Bool) :
    s.subWith value ((BitVec.ofBool c).setWidth 8) =
      { s with a := (difference s.a value c).1 }.flagged (difference s.a value c).2 := by
  have narrow := Lib.narrow_differenceWith s.a value c (by decide) (show 8 ≤ 16 by decide)
  have top := Lib.differenceWith_top s.a value c (show 8 < 16 by decide)
  rw [difference_fst _ _ _ (by decide), difference_snd _ _ _ (by decide)]
  simp only [State.subWith, BitVec.setWidth_setWidth (x := BitVec.ofBool c) (show ¬(8 < 1 ∧ 8 < 16) by decide)]
  simp only [lookup_low, lookup_high, halfcarrySubTable_hash, overflowSubTable_hash, sz53Table_eq, carry_mask,
    getLsbD_of_setWidth narrow (show 3 < 8 by decide), getLsbD_of_setWidth narrow (show 7 < 8 by decide),
    narrow, top]
  simp only [State.flagged, Flags.byte, BitVec.msb_eq_getLsbD_last, decide_eq_true_eq, if_true, Nat.reduceSub]
  congr 1 <;> ac_rfl

theorem cp_eq (value : BitVec 8) :
    s.cp value = s.flagged
      { (difference s.a value false).2 with five := value.getLsbD 5, three := value.getLsbD 3 } := by
  have narrow := Lib.narrow_differenceWith s.a value false (by decide) (show 8 ≤ 16 by decide)
  have top := Lib.differenceWith_top s.a value false (show 8 < 16 by decide)
  have plain : s.a.setWidth 16 - value.setWidth 16 =
      Lib.differenceWith (s.a.setWidth 16) (value.setWidth 16) false := by
    simp [Lib.differenceWith]
  rw [difference_snd _ _ _ (by decide)]
  have equal : Lib.differenceWith s.a value false = 0 ↔ s.a = value := by
    simp [Lib.differenceWith, BitVec.sub_eq_iff_eq_add]
  have equal16 : Lib.differenceWith (s.a.setWidth 16) (value.setWidth 16) false = 0 ↔ s.a = value := by
    rw [← plain]
    simp only [← BitVec.toNat_inj]
    simp
    omega
  have zero : (if decide (s.a.toNat < value.toNat + false.toNat) = true then (0x01 : BitVec 8)
      else if Lib.differenceWith (s.a.setWidth 16) (value.setWidth 16) false ≠ 0 then 0 else 0x40) =
      (if decide (s.a.toNat < value.toNat + false.toNat) = true then 0x01 else 0) |||
        (if Lib.differenceWith s.a value false = 0 then 0x40 else 0) := by
    simp only [ne_eq, equal, equal16]
    by_cases same : s.a = value
    · simp [same]
    · simp [same]
  simp only [State.cp, plain]
  simp only [lookup_low, lookup_high, halfcarrySubTable_hash, overflowSubTable_hash, carry_mask,
    getLsbD_of_setWidth narrow (show 3 < 8 by decide), getLsbD_of_setWidth narrow (show 7 < 8 by decide),
    top, zero,
    and_sign, and_five_three]
  simp only [State.flagged, Flags.byte, BitVec.msb_eq_getLsbD_last, decide_eq_true_eq, if_true, Nat.reduceSub]
  congr 1 <;> ac_rfl

theorem inc_half (x : BitVec 8) : (sum x 1 false).2.half = decide ((x + 1) &&& 0x0f = 0) := by
  have one : (1 : BitVec 8).toNat = 1 := rfl
  simp only [sum, low_nibble, BitVec.toNat_add, decide_eq_decide, one]
  norm_num
  omega

theorem inc_overflow (x : BitVec 8) : (sum x 1 false).2.overflow = decide (x + 1 = 0x80) := by
  have bound := x.isLt
  have one : (1 : BitVec 8).toNat = 1 := rfl
  have limit : (0x80 : BitVec 8).toNat = 0x80 := rfl
  simp only [sum, Lib.overflows, BitVec.toInt_eq_toNat_cond, ← BitVec.toNat_inj, BitVec.toNat_add,
    decide_eq_decide, one, limit]
  norm_num
  split <;> omega

theorem dec_half (x : BitVec 8) : (difference x 1 false).2.half = decide (x &&& 0x0f = 0) := by
  have one : (1 : BitVec 8).toNat = 1 := rfl
  simp only [difference, low_nibble, decide_eq_decide, one]
  norm_num

theorem dec_overflow (x : BitVec 8) : (difference x 1 false).2.overflow = decide (x - 1 = 0x7f) := by
  have bound := x.isLt
  have one : (1 : BitVec 8).toNat = 1 := rfl
  have limit : (0x7f : BitVec 8).toNat = 0x7f := rfl
  simp only [difference, Lib.overflows, BitVec.toInt_eq_toNat_cond, ← BitVec.toNat_inj, BitVec.toNat_sub,
    decide_eq_decide, one, limit]
  norm_num
  split <;> omega

theorem inc_eq : s.inc =
    { s with register := (sum s.register 1 false).1 }.flagged
      { (sum s.register 1 false).2 with carry := s.carry } := by
  have result : Lib.sumWith s.register 1 false = s.register + 1 := by simp [Lib.sumWith]
  have half := inc_half s.register
  have overflow := inc_overflow s.register
  rw [sum_snd _ _ _ (by decide)] at half overflow
  simp only [result, Nat.reduceSub] at half overflow
  rw [sum_fst _ _ _ (by decide), sum_snd _ _ _ (by decide)]
  simp only [State.inc, State.flagged, Flags.byte, State.carry, result, Nat.reduceSub, half, overflow, sz53Table_eq,
    and_carry, decide_eq_true_eq, Bool.false_eq_true, if_false, ite_not, ne_eq]
  congr 1 <;> ac_rfl

theorem dec_eq : s.dec =
    { s with register := (difference s.register 1 false).1 }.flagged
      { (difference s.register 1 false).2 with carry := s.carry } := by
  have result : Lib.differenceWith s.register 1 false = s.register - 1 := by simp [Lib.differenceWith]
  have half := dec_half s.register
  have overflow := dec_overflow s.register
  rw [difference_snd _ _ _ (by decide)] at half overflow
  simp only [result, Nat.reduceSub] at half overflow
  rw [difference_fst _ _ _ (by decide), difference_snd _ _ _ (by decide)]
  simp only [State.dec, State.flagged, Flags.byte, State.carry, result, Nat.reduceSub, half, overflow, sz53Table_eq,
    and_carry, decide_eq_true_eq, if_true, ite_not, ne_eq]
  congr 1 <;> ac_rfl

/-! ## Words -/

theorem highByte_flags (x : BitVec 16) :
    highByte x &&& 0xa8 = (if x.msb then 0x80 else 0) ||| (if x.getLsbD 13 then 0x20 else 0) |||
      (if x.getLsbD 11 then 0x08 else 0) := by
  rw [BitVec.msb_eq_getLsbD_last]
  ext i inside
  interval_cases i <;> simp [highByte, ite_getElem]

theorem and_kept (f : BitVec 8) :
    f &&& 0xc4 = (if f.getLsbD 7 then 0x80 else 0) ||| (if f.getLsbD 6 then 0x40 else 0) |||
      (if f.getLsbD 2 then 0x04 else 0) := by
  ext i inside
  interval_cases i <;> simp [ite_getElem]

theorem five_three16 (temp : BitVec 32) :
    ((temp >>> 8) &&& 0x28).setWidth 8 = (if temp.getLsbD 13 then 0x20 else 0) |||
      (if temp.getLsbD 11 then 0x08 else 0) := by
  ext i inside
  interval_cases i <;> simp [ite_getElem]

theorem lookup_add16 (x y : BitVec 16) (temp : BitVec 32) :
    ((x &&& 0x0800) >>> 11).setWidth 8 ||| ((y &&& 0x0800) >>> 10).setWidth 8 |||
      ((temp &&& 0x0800) >>> 9).setWidth 8 = hash (x.getLsbD 11) (y.getLsbD 11) (temp.getLsbD 11) := by
  ext i inside
  interval_cases i <;> simp [hash, ite_getElem]

theorem add16_eq (value : BitVec 16) : s.add16 value =
    { s with memptr := s.pair + 1, pair := (sum s.pair value false).1 }.flagged
      { (sum s.pair value false).2 with
        sign := s.f.getLsbD 7, zero := s.f.getLsbD 6, overflow := s.f.getLsbD 2 } := by
  have narrow := Lib.narrow_sumWith s.pair value false (show 16 ≤ 32 by decide)
  have top := Lib.sumWith_top s.pair value false (show 16 < 32 by decide)
  have plain : s.pair.setWidth 32 + value.setWidth 32 =
      Lib.sumWith (s.pair.setWidth 32) (value.setWidth 32) false := by
    simp [Lib.sumWith]
  rw [sum_fst _ _ _ (by decide), sum_snd _ _ _ (by decide)]
  simp only [State.add16, plain]
  simp only [lookup_add16, halfcarryAddTable_hash, carry_mask16, and_kept, five_three16, narrow, top,
    getLsbD_of_setWidth narrow (show 11 < 16 by decide), getLsbD_of_setWidth narrow (show 13 < 16 by decide)]
  simp only [State.flagged, Flags.byte, decide_eq_true_eq, Bool.false_eq_true, if_false, Nat.reduceSub]
  congr 1 <;> ac_rfl

theorem adc16_eq (value : BitVec 16) : s.adc16 value =
    { s with memptr := s.hl + 1, hl := (sum s.hl value s.carry).1 }.flagged (sum s.hl value s.carry).2 := by
  have narrow := Lib.narrow_sumWith s.hl value s.carry (show 16 ≤ 32 by decide)
  have top := Lib.sumWith_top s.hl value s.carry (show 16 < 32 by decide)
  have carry : (s.f &&& 0x01).setWidth 32 = (BitVec.ofBool s.carry).setWidth 32 := by
    rw [and_one, BitVec.setWidth_setWidth (by decide), State.carry]
  rw [sum_fst _ _ _ (by decide), sum_snd _ _ _ (by decide)]
  simp only [State.adc16, carry]
  simp only [lookup16_low, lookup16_high, halfcarryAddTable_hash, overflowAddTable_hash, carry_mask16, highByte_flags,
    narrow, top, getLsbD_of_setWidth narrow (show 11 < 16 by decide),
    getLsbD_of_setWidth narrow (show 15 < 16 by decide)]
  simp only [State.flagged, Flags.byte, BitVec.msb_eq_getLsbD_last, decide_eq_true_eq, Bool.false_eq_true, if_false,
    ite_not, ne_eq, Nat.reduceSub]
  congr 1 <;> ac_rfl

theorem sbc16_eq (value : BitVec 16) : s.sbc16 value =
    { s with memptr := s.hl + 1, hl := (difference s.hl value s.carry).1 }.flagged
      (difference s.hl value s.carry).2 := by
  have narrow := Lib.narrow_differenceWith s.hl value s.carry (by decide) (show 16 ≤ 32 by decide)
  have top := Lib.differenceWith_top s.hl value s.carry (show 16 < 32 by decide)
  have carry : (s.f &&& 0x01).setWidth 32 = (BitVec.ofBool s.carry).setWidth 32 := by
    rw [and_one, BitVec.setWidth_setWidth (by decide), State.carry]
  rw [difference_fst _ _ _ (by decide), difference_snd _ _ _ (by decide)]
  simp only [State.sbc16, carry]
  simp only [lookup16_low, lookup16_high, halfcarrySubTable_hash, overflowSubTable_hash, carry_mask16, highByte_flags,
    narrow, top, getLsbD_of_setWidth narrow (show 11 < 16 by decide),
    getLsbD_of_setWidth narrow (show 15 < 16 by decide)]
  simp only [State.flagged, Flags.byte, BitVec.msb_eq_getLsbD_last, decide_eq_true_eq, if_true, ite_not, ne_eq,
    Nat.reduceSub]
  congr 1 <;> ac_rfl

/-- The macros do what the instructions mean. -/
theorem execute_meaning (instruction : Instruction) : execute s instruction = meaning s instruction := by
  cases instruction with
  | add value => exact addWith_eq s value false
  | adc value =>
    rw [execute, State.adc, and_one, addWith_eq]
    rfl
  | sub value => exact subWith_eq s value false
  | sbc value =>
    rw [execute, State.sbc, and_one, subWith_eq]
    rfl
  | cp value => exact cp_eq s value
  | inc => exact inc_eq s
  | dec => exact dec_eq s
  | add16 value => exact add16_eq s value
  | adc16 value => exact adc16_eq s value
  | sbc16 value => exact sbc16_eq s value

end FuseX.Z80.Alu
