import FuseX.Disk.Slot
import Mathlib.Tactic.IntervalCases

/-!
# The cells of a track

A slot read as a track: at each position a byte and its three bits in the bitmaps
behind the track, for a byte with missing clock bits, an FM byte and a weak byte.
A write at one position is seen at that position only, since the byte and the bits
of two positions do not share memory.
-/

namespace FuseX.Disk

open Lib

/-! ## Bits of a byte -/

/-- `1 << k`. -/
def bit (k : Nat) : UInt8 :=
  1 <<< UInt8.ofNat k

theorem getLsbD_bit {k j : Nat} (k_lt : k < 8) (j_lt : j < 8) :
    (bit k).toBitVec.getLsbD j = decide (j = k) := by
  have all : ∀ k j : Fin 8, (bit k).toBitVec.getLsbD j = decide ((j : Nat) = k) := by decide
  exact all ⟨k, k_lt⟩ ⟨j, j_lt⟩

theorem and_bit_ne_zero (x : UInt8) {k : Nat} (k_lt : k < 8) :
    x &&& bit k ≠ 0 ↔ x.toBitVec.getLsbD k = true := by
  rw [ne_eq, ← UInt8.toBitVec_inj, UInt8.toBitVec_and]
  constructor
  · intro some_bit
    by_contra clear
    apply some_bit
    apply BitVec.eq_of_getLsbD_eq
    intro i i_lt
    rw [BitVec.getLsbD_and, getLsbD_bit k_lt i_lt]
    rcases eq_or_ne i k with rfl | other
    · simp [clear]
    · simp [other]
  · intro is_set zero
    have bit_zero := congrArg (fun v => BitVec.getLsbD v k) zero
    simp [is_set, getLsbD_bit k_lt k_lt] at bit_zero

theorem and_bit_or (x : UInt8) {k j : Nat} (k_lt : k < 8) (j_lt : j < 8) :
    (x ||| bit k) &&& bit j ≠ 0 ↔ j = k ∨ x &&& bit j ≠ 0 := by
  rw [and_bit_ne_zero _ j_lt, and_bit_ne_zero _ j_lt, UInt8.toBitVec_or, BitVec.getLsbD_or,
    getLsbD_bit k_lt j_lt]
  simp [or_comm]

theorem and_bit_and_not (x : UInt8) {k j : Nat} (k_lt : k < 8) (j_lt : j < 8) :
    (x &&& ~~~ bit k) &&& bit j ≠ 0 ↔ j ≠ k ∧ x &&& bit j ≠ 0 := by
  rw [and_bit_ne_zero _ j_lt, and_bit_ne_zero _ j_lt, UInt8.toBitVec_and, BitVec.getLsbD_and,
    UInt8.toBitVec_not, BitVec.getLsbD_not, getLsbD_bit k_lt j_lt]
  simp [j_lt, and_comm]

/-! ## Bitmaps -/

/-- `bitmap_test`, for the bitmap that starts at `track + map`. -/
def bitmapTest (s : Slot) (map n : Nat) : Bool :=
  s.getD (3 + map + n / 8) 0 &&& bit (n % 8) ≠ 0

/-- `bitmap_set` and `bitmap_reset`. -/
def bitmapPut (s : Slot) (map n : Nat) (on : Bool) : Slot :=
  s.set (3 + map + n / 8)
    (if on then s.getD (3 + map + n / 8) 0 ||| bit (n % 8)
      else s.getD (3 + map + n / 8) 0 &&& ~~~ bit (n % 8))

theorem length_bitmapPut (s : Slot) (map n : Nat) (on : Bool) :
    (bitmapPut s map n on).length = s.length :=
  List.length_set

theorem getD_set_self {s : Slot} {k : Nat} (byte : UInt8) (inside : k < s.length) :
    (s.set k byte).getD k 0 = byte := by
  rw [List.getD_eq_getElem?_getD, List.getElem?_set_self inside]
  exact Option.getD_some

theorem getD_set_ne (s : Slot) {k j : Nat} (byte : UInt8) (other : j ≠ k) :
    (s.set k byte).getD j 0 = s.getD j 0 := by
  rw [List.getD_eq_getElem?_getD, List.getD_eq_getElem?_getD,
    List.getElem?_set_ne (Ne.symm other)]

theorem getD_bitmapPut_ne (s : Slot) {map n k : Nat} (on : Bool)
    (other : k ≠ 3 + map + n / 8) : (bitmapPut s map n on).getD k 0 = s.getD k 0 := by
  exact getD_set_ne s _ other

theorem bitmapTest_bitmapPut (s : Slot) {map n m : Nat} (on : Bool)
    (inside : 3 + map + n / 8 < s.length) :
    bitmapTest (bitmapPut s map n on) map m = if m = n then on else bitmapTest s map m := by
  have n_lt : n % 8 < 8 := Nat.mod_lt n (by decide)
  have m_lt : m % 8 < 8 := Nat.mod_lt m (by decide)
  rcases eq_or_ne (m / 8) (n / 8) with same_byte | other_byte
  · have same_bit : m % 8 = n % 8 ↔ m = n := by omega
    rw [Bool.eq_iff_iff, bitmapTest, bitmapTest, same_byte, bitmapPut, getD_set_self _ inside,
      decide_eq_true_iff]
    cases on with
    | true =>
      rw [if_pos rfl, and_bit_or _ n_lt m_lt, same_bit]
      rcases eq_or_ne m n with same | other
      · simp [same]
      · simp [other]
    | false =>
      rw [if_neg Bool.false_ne_true, and_bit_and_not _ n_lt m_lt, ne_eq, same_bit]
      rcases eq_or_ne m n with same | other
      · simp [same]
      · simp [other]
  · have other : m ≠ n := fun same => other_byte (by rw [same])
    rw [if_neg other, bitmapTest, bitmapTest, getD_bitmapPut_ne s on (by omega)]

theorem bitmapTest_congr {s s' : Slot} {map n : Nat}
    (same : s'.getD (3 + map + n / 8) 0 = s.getD (3 + map + n / 8) 0) :
    bitmapTest s' map n = bitmapTest s map n := by
  rw [bitmapTest, bitmapTest, same]

/-! ## Tracks -/

/-- What stands at one position of a track. -/
structure Cell : Type where
  byte : UInt8
  /-- the byte was recorded with missing clock bits -/
  clock : Bool
  fm : Bool
  weak : Bool
  deriving DecidableEq

/-- A slot that holds its track and the bitmaps of it. -/
structure TrackSlot : Type where
  slot : Slot
  fits : 3 + Slot.weak slot + clen (Slot.cBpt slot) ≤ slot.length

namespace TrackSlot

variable (t : TrackSlot)

def cBpt : Nat :=
  Slot.cBpt t.slot

def cell (i : Nat) : Cell :=
  { byte := t.slot.getD (3 + i) 0
    clock := bitmapTest t.slot (Slot.clocks t.slot) i
    fm := bitmapTest t.slot (Slot.fm t.slot) i
    weak := bitmapTest t.slot (Slot.weak t.slot) i }

/-- The writes of `fdd_read_write_data` and of the functions that add to a track. -/
def putSlot (s : Slot) (i : Nat) (byte : UInt8) (clock fm : Bool) : Slot :=
  let s' := s.set (3 + i) byte
  let s' := bitmapPut s' (Slot.clocks s) i clock
  let s' := bitmapPut s' (Slot.fm s) i fm
  bitmapPut s' (Slot.weak s) i false

theorem length_putSlot (s : Slot) (i : Nat) (byte : UInt8) (clock fm : Bool) :
    (putSlot s i byte clock fm).length = s.length := by
  simp only [putSlot, length_bitmapPut, List.length_set]

theorem getD_putSlot_lt (s : Slot) {i k : Nat} (byte : UInt8) (clock fm : Bool) (before : k < 3) :
    (putSlot s i byte clock fm).getD k 0 = s.getD k 0 := by
  rw [putSlot, getD_bitmapPut_ne _ _ (by omega), getD_bitmapPut_ne _ _ (by omega),
    getD_bitmapPut_ne _ _ (by omega), getD_set_ne _ _ (by omega)]

theorem cBpt_putSlot (s : Slot) (i : Nat) (byte : UInt8) (clock fm : Bool) :
    Slot.cBpt (putSlot s i byte clock fm) = Slot.cBpt s := by
  rw [Slot.cBpt, Slot.cBpt, getD_putSlot_lt s byte clock fm (by decide),
    getD_putSlot_lt s byte clock fm (by decide)]

theorem clocks_putSlot (s : Slot) (i : Nat) (byte : UInt8) (clock fm : Bool) :
    Slot.clocks (putSlot s i byte clock fm) = Slot.clocks s :=
  cBpt_putSlot s i byte clock fm

theorem fm_putSlot (s : Slot) (i : Nat) (byte : UInt8) (clock fm : Bool) :
    Slot.fm (putSlot s i byte clock fm) = Slot.fm s := by
  rw [Slot.fm, Slot.fm, clocks_putSlot, cBpt_putSlot]

theorem weak_putSlot (s : Slot) (i : Nat) (byte : UInt8) (clock fm : Bool) :
    Slot.weak (putSlot s i byte clock fm) = Slot.weak s := by
  rw [Slot.weak, Slot.weak, fm_putSlot, cBpt_putSlot]

/-- A write of one byte with its bits. -/
def put (i : Nat) (byte : UInt8) (clock fm : Bool) : TrackSlot where
  slot := putSlot t.slot i byte clock fm
  fits := by
    rw [weak_putSlot, cBpt_putSlot, length_putSlot]
    exact t.fits

@[simp] theorem cBpt_put (i : Nat) (byte : UInt8) (clock fm : Bool) :
    (t.put i byte clock fm).cBpt = t.cBpt :=
  cBpt_putSlot t.slot i byte clock fm

theorem div_lt_clen {i bpt : Nat} (inside : i < bpt) : i / 8 < clen bpt := by
  unfold clen
  split <;> omega

/-- A write at `i` is seen at `i` and nowhere else. -/
theorem cell_put {i j : Nat} (byte : UInt8) (clock fm : Bool) (i_inside : i < t.cBpt)
    (j_inside : j < t.cBpt) :
    (t.put i byte clock fm).cell j
      = if j = i then ⟨byte, clock, fm, false⟩ else t.cell j := by
  have fits := t.fits
  have i_byte := div_lt_clen i_inside
  have j_byte := div_lt_clen j_inside
  have clocks_eq : Slot.clocks t.slot = t.cBpt := rfl
  have fm_eq : Slot.fm t.slot = t.cBpt + clen t.cBpt := rfl
  have put_slot : (t.put i byte clock fm).slot = putSlot t.slot i byte clock fm := rfl
  have weak_eq : Slot.weak t.slot = t.cBpt + clen t.cBpt + clen t.cBpt := rfl
  have cBpt_eq : Slot.cBpt t.slot = t.cBpt := rfl
  rw [cBpt_eq] at fits
  have byte_eq : (t.put i byte clock fm).slot.getD (3 + j) 0
      = if j = i then byte else t.slot.getD (3 + j) 0 := by
    rw [put_slot, putSlot, getD_bitmapPut_ne _ _ (by omega), getD_bitmapPut_ne _ _ (by omega),
      getD_bitmapPut_ne _ _ (by omega)]
    rcases eq_or_ne j i with rfl | other
    · rw [if_pos rfl, getD_set_self _ (by omega)]
    · rw [if_neg other, getD_set_ne _ _ (by omega)]
  have clock_eq : bitmapTest (t.put i byte clock fm).slot (Slot.clocks t.slot) j
      = if j = i then clock else bitmapTest t.slot (Slot.clocks t.slot) j := by
    rw [put_slot, putSlot, bitmapTest_congr (getD_bitmapPut_ne _ _ (by omega)),
      bitmapTest_congr (getD_bitmapPut_ne _ _ (by omega)),
      bitmapTest_bitmapPut _ _ (by rw [List.length_set]; omega),
      bitmapTest_congr (getD_set_ne _ _ (by omega))]
  have fm_bit_eq : bitmapTest (t.put i byte clock fm).slot (Slot.fm t.slot) j
      = if j = i then fm else bitmapTest t.slot (Slot.fm t.slot) j := by
    rw [put_slot, putSlot, bitmapTest_congr (getD_bitmapPut_ne _ _ (by omega)),
      bitmapTest_bitmapPut _ _ (by rw [length_bitmapPut, List.length_set]; omega),
      bitmapTest_congr (getD_bitmapPut_ne _ _ (by omega)),
      bitmapTest_congr (getD_set_ne _ _ (by omega))]
  have weak_bit_eq : bitmapTest (t.put i byte clock fm).slot (Slot.weak t.slot) j
      = if j = i then false else bitmapTest t.slot (Slot.weak t.slot) j := by
    rw [put_slot, putSlot,
      bitmapTest_bitmapPut _ _ (by rw [length_bitmapPut, length_bitmapPut, List.length_set]; omega),
      bitmapTest_congr (getD_bitmapPut_ne _ _ (by omega)),
      bitmapTest_congr (getD_bitmapPut_ne _ _ (by omega)),
      bitmapTest_congr (getD_set_ne _ _ (by omega))]
  rw [cell, byte_eq, put_slot, clocks_putSlot, fm_putSlot, weak_putSlot, ← put_slot, clock_eq,
    fm_bit_eq, weak_bit_eq]
  split <;> rfl

end TrackSlot

end FuseX.Disk
