import FuseX.Engines.Utf8
import FuseX.Lib.Utf8
import FuseX.Lib.Packed
import Mathlib.Data.List.GetD

/-!
# What `utf8_decode` takes for a character

The test of the continuation bytes looks at all of them at once, `c1 | c2` and `c1 | c2 | c3`: it is
passed as soon as one of them continues and the others are below 0x40 (`continued2_iff`,
`continued3_iff`). So a lead byte may take with it bytes of ASCII, and the end of the buffer.
-/

namespace FuseX.Engines.Utf8

open Lib Lib.Utf8

/-! ## Bits -/

/-- The bytes that the test takes for continuation bytes beside one that is. -/
def Low (b : UInt8) : Prop :=
  b.toNat < 0x40

set_option maxRecDepth 4000 in
theorem top_bits (b : UInt8) : (b &&& 0xc0 = 0x80 ↔ Tail b) ∧ (b &&& 0xc0 = 0 ↔ Low b) ∧
    (b &&& 0xc0 = 0 ∨ b &&& 0xc0 = 0x40 ∨ b &&& 0xc0 = 0x80 ∨ b &&& 0xc0 = 0xc0) := by
  have all : ∀ n < 256,
      (UInt8.ofNat n &&& 0xc0 = 0x80 ↔ 0x80 ≤ n ∧ n < 0xc0) ∧ (UInt8.ofNat n &&& 0xc0 = 0 ↔ n < 0x40) ∧
        (UInt8.ofNat n &&& 0xc0 = 0 ∨ UInt8.ofNat n &&& 0xc0 = 0x40 ∨ UInt8.ofNat n &&& 0xc0 = 0x80 ∨
          UInt8.ofNat n &&& 0xc0 = 0xc0) := by
    decide
  have here := all b.toNat b.toNat_lt
  rw [UInt8.ofNat_toNat] at here
  exact here

theorem or_and (a b c : UInt8) : (a ||| b) &&& c = (a &&& c) ||| (b &&& c) := by
  apply UInt8.toNat_inj.mp
  simp only [UInt8.toNat_and, UInt8.toNat_or]
  exact Nat.and_or_distrib_right ..

/-- The test of two continuation bytes. -/
theorem continued2_iff (c1 c2 : UInt8) :
    (c1 ||| c2) &&& 0xc0 = 0x80 ↔ (Low c1 ∨ Tail c1) ∧ (Low c2 ∨ Tail c2) ∧ (Tail c1 ∨ Tail c2) := by
  obtain ⟨tail, low, top⟩ := top_bits c1
  obtain ⟨tail', low', top'⟩ := top_bits c2
  rw [or_and, ← tail, ← low, ← tail', ← low']
  rcases top with top | top | top | top <;> rcases top' with top' | top' | top' | top' <;>
    rw [top, top'] <;> decide

/-- The test of three continuation bytes. -/
theorem continued3_iff (c1 c2 c3 : UInt8) :
    (c1 ||| c2 ||| c3) &&& 0xc0 = 0x80 ↔
      (Low c1 ∨ Tail c1) ∧ (Low c2 ∨ Tail c2) ∧ (Low c3 ∨ Tail c3) ∧ (Tail c1 ∨ Tail c2 ∨ Tail c3) := by
  obtain ⟨tail, low, top⟩ := top_bits c1
  obtain ⟨tail', low', top'⟩ := top_bits c2
  obtain ⟨tail'', low'', top''⟩ := top_bits c3
  rw [or_and, or_and, ← tail, ← low, ← tail', ← low', ← tail'', ← low'']
  rcases top with top | top | top | top <;> rcases top' with top' | top' | top' | top' <;>
    rcases top'' with top'' | top'' | top'' | top'' <;> rw [top, top', top''] <;> decide

theorem toNat_bits {c mask : UInt8} {k : Nat} {place : UInt32} (masked : mask.toNat = 2 ^ k - 1)
    (short : place.toNat ≤ 18) (few : k ≤ 6) :
    (bits c mask place).toNat = c.toNat % 2 ^ k * 2 ^ place.toNat := by
  have small : c.toNat % 2 ^ k < 2 ^ 6 :=
    Nat.lt_of_lt_of_le (Nat.mod_lt _ (Nat.two_pow_pos k)) (Nat.pow_le_pow_right (by decide) few)
  have fits : c.toNat % 2 ^ k * 2 ^ place.toNat < 2 ^ 32 := by
    calc c.toNat % 2 ^ k * 2 ^ place.toNat
        < 2 ^ 6 * 2 ^ place.toNat := Nat.mul_lt_mul_of_pos_right small (Nat.two_pow_pos _)
      _ ≤ 2 ^ 6 * 2 ^ 18 := Nat.mul_le_mul_left _ (Nat.pow_le_pow_right (by decide) short)
      _ < 2 ^ 32 := by decide
  rw [bits, UInt32.toNat_shiftLeft, UInt8.toNat_toUInt32, UInt8.toNat_and, masked,
    Nat.and_two_pow_sub_one_eq_mod, Nat.mod_eq_of_lt (show place.toNat < 32 by omega), Nat.shiftLeft_eq,
    Nat.mod_eq_of_lt fits]

/-- Bits are put behind others. -/
theorem toNat_join {a b : UInt32} (high place : Nat) (shifted : a.toNat = high * 2 ^ place)
    (behind : b.toNat < 2 ^ place) : (a ||| b).toNat = a.toNat + b.toNat := by
  rw [← Nat.shiftLeft_eq] at shifted
  rw [UInt32.toNat_or, shifted, Nat.shiftLeft_add_eq_or_of_lt behind]

theorem toNat_lead5 (c : UInt8) : (bits c 0x1f 6).toNat = c.toNat % 32 * 64 :=
  @toNat_bits c 0x1f 5 6 rfl (by decide) (by decide)

theorem toNat_lead4 (c : UInt8) : (bits c 0x0f 12).toNat = c.toNat % 16 * 4096 :=
  @toNat_bits c 0x0f 4 12 rfl (by decide) (by decide)

theorem toNat_lead3 (c : UInt8) : (bits c 0x07 18).toNat = c.toNat % 8 * 262144 :=
  @toNat_bits c 0x07 3 18 rfl (by decide) (by decide)

theorem toNat_tail (c : UInt8) : (bits c 0x3f 0).toNat = c.toNat % 64 := by
  rw [@toNat_bits c 0x3f 6 0 rfl (by decide) (by decide)]
  exact Nat.mul_one _

theorem toNat_tail6 (c : UInt8) : (bits c 0x3f 6).toNat = c.toNat % 64 * 64 :=
  @toNat_bits c 0x3f 6 6 rfl (by decide) (by decide)

theorem toNat_tail12 (c : UInt8) : (bits c 0x3f 12).toNat = c.toNat % 64 * 4096 :=
  @toNat_bits c 0x3f 6 12 rfl (by decide) (by decide)

theorem toNat_two (c c1 : UInt8) : (bits c 0x1f 6 ||| bits c1 0x3f 0).toNat = value2 c c1 := by
  rw [toNat_join (c.toNat % 32) 6, toNat_lead5, toNat_tail, value2]
  · exact toNat_lead5 c
  · rw [toNat_tail]
    exact Nat.mod_lt _ (by decide)

theorem toNat_three (c c1 c2 : UInt8) :
    (bits c 0x0f 12 ||| bits c1 0x3f 6 ||| bits c2 0x3f 0).toNat = value3 c c1 c2 := by
  have front : (bits c 0x0f 12 ||| bits c1 0x3f 6).toNat = c.toNat % 16 * 4096 + c1.toNat % 64 * 64 := by
    rw [toNat_join (c.toNat % 16) 12, toNat_lead4, toNat_tail6]
    · exact toNat_lead4 c
    · rw [toNat_tail6]
      omega
  rw [toNat_join (c.toNat % 16 * 64 + c1.toNat % 64) 6, front, toNat_tail, value3]
  · rw [front]
    omega
  · rw [toNat_tail]
    exact Nat.mod_lt _ (by decide)

theorem toNat_four (c c1 c2 c3 : UInt8) :
    (bits c 0x07 18 ||| bits c1 0x3f 12 ||| bits c2 0x3f 6 ||| bits c3 0x3f 0).toNat = value4 c c1 c2 c3 := by
  have front : (bits c 0x07 18 ||| bits c1 0x3f 12).toNat = c.toNat % 8 * 262144 + c1.toNat % 64 * 4096 := by
    rw [toNat_join (c.toNat % 8) 18, toNat_lead3, toNat_tail12]
    · exact toNat_lead3 c
    · rw [toNat_tail12]
      omega
  have middle : (bits c 0x07 18 ||| bits c1 0x3f 12 ||| bits c2 0x3f 6).toNat =
      c.toNat % 8 * 262144 + c1.toNat % 64 * 4096 + c2.toNat % 64 * 64 := by
    rw [toNat_join (c.toNat % 8 * 64 + c1.toNat % 64) 12, front, toNat_tail6]
    · rw [front]
      omega
    · rw [toNat_tail6]
      omega
  rw [toNat_join (c.toNat % 8 * 4096 + c1.toNat % 64 * 64 + c2.toNat % 64) 6, middle, toNat_tail, value4]
  · rw [middle]
    omega
  · rw [toNat_tail]
    exact Nat.mod_lt _ (by decide)

/-! ## Misreading -/

/-- Continuation bytes, and bytes that are taken for them. -/
def Mixed (front : List UInt8) : Prop :=
  (∀ b ∈ front, Low b ∨ Tail b) ∧ (∃ b ∈ front, Tail b) ∧ ∃ b ∈ front, Low b

/-- A lead byte of three or four bytes takes too much: it is too near to the end of the text, or it makes
a code point with bytes that do not continue, the end of the text among them. -/
inductive Misread (text : List UInt8) : Prop
  | short3 (b : UInt8) : 0xe0 ≤ b.toNat → b.toNat ≤ 0xef → text = [b] → Misread text
  | short4 (b : UInt8) (rest : List UInt8) : 0xf0 ≤ b.toNat → b.toNat ≤ 0xf4 → text = b :: rest →
    rest.length < 2 → Misread text
  | mixed3 (b c1 c2 : UInt8) (rest : List UInt8) : 0xe0 ≤ b.toNat → b.toNat ≤ 0xef → Mixed [c1, c2] →
    Scalar3 (value3 b c1 c2) → text ++ [0] = b :: c1 :: c2 :: rest → Misread text
  | mixed4 (b c1 c2 c3 : UInt8) (rest : List UInt8) : 0xf0 ≤ b.toNat → b.toNat ≤ 0xf4 →
    Mixed [c1, c2, c3] → Scalar4 (value4 b c1 c2 c3) → text ++ [0] = b :: c1 :: c2 :: c3 :: rest →
    Misread text

/-- What `utf8_decode` makes of the text from a place on: a character, a byte alone, or too much. -/
inductive Reading (text : List UInt8) (decoded : Decoded) : Prop
  | char (c : Char) (rest : List UInt8) : text = String.utf8EncodeChar c ++ rest →
    decoded.n = (String.utf8EncodeChar c).length → decoded.cp = c.val → decoded.examined = decoded.n →
    ¬ Misread text → Reading text decoded
  | stray : decoded.n = 0 → (∀ c, ¬ Begins text c) → decoded.examined ≤ text.length + 1 → ¬ Misread text →
    Reading text decoded
  | long : text.length + 1 < decoded.examined ∨ decoded.n = text.length + 1 → Misread text →
    Reading text decoded
  | mixed (b : UInt8) (front rest : List UInt8) : text = b :: (front ++ rest) → decoded.n = front.length + 1 →
    2 ≤ front.length → (∀ x ∈ front, Low x ∨ Tail x) → (∀ c, ¬ Begins text c) → decoded.examined = decoded.n →
    Misread text → Reading text decoded

/-! ## The decoder -/

variable {p : Nat → UInt8} {text rest : List UInt8} {b c1 c2 c3 : UInt8}

theorem not_lt_of {n : Nat} {k : UInt8} (above : k.toNat ≤ n) (same : b.toNat = n) : ¬ b < k := by
  rw [UInt8.lt_iff_toNat_lt, same]
  exact Nat.not_lt.mpr above

/-- A lead byte of two bytes. -/
theorem decode_two (low : 0xc2 ≤ b.toNat) (high : b.toNat ≤ 0xdf) (lead : p 0 = b) :
    (Tail (p 1) → utf8Decode p = ⟨2, 2, bits b 0x1f 6 ||| bits (p 1) 0x3f 0⟩) ∧
      (¬ Tail (p 1) → utf8Decode p = ⟨2, 0, 0⟩) := by
  have zero : ¬ b = 0 := fun zero => by
    rw [zero] at low
    exact absurd low (by decide)
  have plain : ¬ b < 0x80 := not_lt_of (k := 0x80) (Nat.le_trans (by decide) low) rfl
  have stray : ¬ b < 0xc2 := not_lt_of (k := 0xc2) low rfl
  have two : b ≤ 0xdf := UInt8.le_iff_toNat_le.mpr high
  have small : ¬ bits b 0x1f 6 ||| bits (p 1) 0x3f 0 < 0x80 := by
    rw [UInt32.lt_iff_toNat_lt, toNat_two, value2]
    show ¬ _ < 0x80
    omega
  simp only [utf8Decode, lead, if_neg zero, if_neg plain, if_neg stray, if_pos two]
  constructor
  · intro tail
    rw [if_neg (not_not_intro ((top_bits (p 1)).1.mpr tail)), if_neg small]
  · intro other
    rw [if_pos fun tail => other ((top_bits (p 1)).1.mp tail)]

/-- A lead byte of three bytes, and what is taken with it. -/
def Taken3 (b c1 c2 : UInt8) : Prop :=
  ((Low c1 ∨ Tail c1) ∧ (Low c2 ∨ Tail c2) ∧ (Tail c1 ∨ Tail c2)) ∧ Scalar3 (value3 b c1 c2)

theorem decode_three (low : 0xe0 ≤ b.toNat) (high : b.toNat ≤ 0xef) (lead : p 0 = b) :
    (Taken3 b (p 1) (p 2) →
      utf8Decode p = ⟨3, 3, bits b 0x0f 12 ||| bits (p 1) 0x3f 6 ||| bits (p 2) 0x3f 0⟩) ∧
      (¬ Taken3 b (p 1) (p 2) → utf8Decode p = ⟨3, 0, 0⟩) := by
  have zero : ¬ b = 0 := fun zero => by
    rw [zero] at low
    exact absurd low (by decide)
  have plain : ¬ b < 0x80 := not_lt_of (k := 0x80) (Nat.le_trans (by decide) low) rfl
  have stray : ¬ b < 0xc2 := not_lt_of (k := 0xc2) (Nat.le_trans (by decide) low) rfl
  have two : ¬ b ≤ 0xdf := fun high => by
    rw [UInt8.le_iff_toNat_le] at high
    exact absurd (Nat.le_trans low high) (by decide)
  have three : b ≤ 0xef := UInt8.le_iff_toNat_le.mpr high
  have fits : value3 b (p 1) (p 2) ≤ 0xffff := by
    rw [value3]
    omega
  have scalar : (bits b 0x0f 12 ||| bits (p 1) 0x3f 6 ||| bits (p 2) 0x3f 0 < 0x800 ∨
      (0xd800 ≤ bits b 0x0f 12 ||| bits (p 1) 0x3f 6 ||| bits (p 2) 0x3f 0 ∧
        bits b 0x0f 12 ||| bits (p 1) 0x3f 6 ||| bits (p 2) 0x3f 0 ≤ 0xdfff)) ↔
      ¬ Scalar3 (value3 b (p 1) (p 2)) := by
    rw [UInt32.lt_iff_toNat_lt, UInt32.le_iff_toNat_le, UInt32.le_iff_toNat_le, toNat_three, Scalar3]
    show value3 b (p 1) (p 2) < 0x800 ∨ 0xd800 ≤ value3 b (p 1) (p 2) ∧ value3 b (p 1) (p 2) ≤ 0xdfff ↔ _
    omega
  simp only [utf8Decode, lead, if_neg zero, if_neg plain, if_neg stray, if_neg two, if_pos three]
  constructor
  · rintro ⟨continued, value⟩
    rw [if_neg (not_not_intro ((continued2_iff _ _).mpr continued)),
      if_neg fun bad => scalar.mp bad value]
  · intro other
    by_cases continued : (p 1 ||| p 2) &&& 0xc0 = 0x80
    · rw [if_neg (not_not_intro continued),
        if_pos (scalar.mpr fun value => other ⟨(continued2_iff _ _).mp continued, value⟩)]
    · rw [if_pos continued]

/-- A lead byte of four bytes, and what is taken with it. -/
def Taken4 (b c1 c2 c3 : UInt8) : Prop :=
  ((Low c1 ∨ Tail c1) ∧ (Low c2 ∨ Tail c2) ∧ (Low c3 ∨ Tail c3) ∧ (Tail c1 ∨ Tail c2 ∨ Tail c3)) ∧
    Scalar4 (value4 b c1 c2 c3)

theorem decode_four (low : 0xf0 ≤ b.toNat) (high : b.toNat ≤ 0xf4) (lead : p 0 = b) :
    (Taken4 b (p 1) (p 2) (p 3) → utf8Decode p =
      ⟨4, 4, bits b 0x07 18 ||| bits (p 1) 0x3f 12 ||| bits (p 2) 0x3f 6 ||| bits (p 3) 0x3f 0⟩) ∧
      (¬ Taken4 b (p 1) (p 2) (p 3) → utf8Decode p = ⟨4, 0, 0⟩) := by
  have zero : ¬ b = 0 := fun zero => by
    rw [zero] at low
    exact absurd low (by decide)
  have plain : ¬ b < 0x80 := not_lt_of (k := 0x80) (Nat.le_trans (by decide) low) rfl
  have stray : ¬ b < 0xc2 := not_lt_of (k := 0xc2) (Nat.le_trans (by decide) low) rfl
  have two : ¬ b ≤ 0xdf := fun high => by
    rw [UInt8.le_iff_toNat_le] at high
    exact absurd (Nat.le_trans low high) (by decide)
  have three : ¬ b ≤ 0xef := fun high => by
    rw [UInt8.le_iff_toNat_le] at high
    exact absurd (Nat.le_trans low high) (by decide)
  have four : b ≤ 0xf4 := UInt8.le_iff_toNat_le.mpr high
  have scalar : (bits b 0x07 18 ||| bits (p 1) 0x3f 12 ||| bits (p 2) 0x3f 6 ||| bits (p 3) 0x3f 0 < 0x10000 ∨
      0x10ffff < bits b 0x07 18 ||| bits (p 1) 0x3f 12 ||| bits (p 2) 0x3f 6 ||| bits (p 3) 0x3f 0) ↔
      ¬ Scalar4 (value4 b (p 1) (p 2) (p 3)) := by
    rw [UInt32.lt_iff_toNat_lt, UInt32.lt_iff_toNat_lt, toNat_four, Scalar4]
    show value4 b (p 1) (p 2) (p 3) < 0x10000 ∨ 0x10ffff < value4 b (p 1) (p 2) (p 3) ↔ _
    omega
  simp only [utf8Decode, lead, if_neg zero, if_neg plain, if_neg stray, if_neg two, if_neg three, if_pos four]
  constructor
  · rintro ⟨continued, value⟩
    rw [if_neg (not_not_intro ((continued3_iff _ _ _).mpr continued)),
      if_neg fun bad => scalar.mp bad value]
  · intro other
    by_cases continued : (p 1 ||| p 2 ||| p 3) &&& 0xc0 = 0x80
    · rw [if_neg (not_not_intro continued),
        if_pos (scalar.mpr fun value => other ⟨(continued3_iff _ _ _).mp continued, value⟩)]
    · rw [if_pos continued]

/-- A byte of ASCII. -/
theorem decode_one (nonzero : b ≠ 0) (low : b.toNat < 0x80) (lead : p 0 = b) :
    utf8Decode p = ⟨1, 1, b.toUInt32⟩ := by
  have plain : b < 0x80 := UInt8.lt_iff_toNat_lt.mpr low
  simp only [utf8Decode, lead, if_neg nonzero, if_pos plain]

/-- A byte that leads nothing. -/
theorem decode_none (lead : p 0 = b) (none : 0x80 ≤ b.toNat ∧ b.toNat < 0xc2 ∨ 0xf4 < b.toNat) :
    utf8Decode p = ⟨1, 0, 0⟩ := by
  have zero : ¬ b = 0 := fun zero => by
    rw [zero] at none
    exact absurd none (by decide)
  have plain : ¬ b < 0x80 := not_lt_of (k := 0x80) (show 0x80 ≤ b.toNat by omega) rfl
  simp only [utf8Decode, lead, if_neg zero, if_neg plain]
  rcases none with between | above
  · rw [if_pos (UInt8.lt_iff_toNat_lt.mpr between.2)]
  · have high : ∀ k : UInt8, k.toNat ≤ 0xf4 → ¬ b ≤ k := fun k few most => by
      rw [UInt8.le_iff_toNat_le] at most
      omega
    rw [if_neg (not_lt_of (k := 0xc2) (Nat.le_trans (by decide) (Nat.le_of_lt above)) rfl),
      if_neg (high 0xdf (by decide)), if_neg (high 0xef (by decide)), if_neg (high 0xf4 (by decide))]

/-! ## Characters and other bytes -/

theorem Misread.lead (misread : Misread (b :: rest)) : 0xe0 ≤ b.toNat := by
  cases misread with
  | short3 b' low high same =>
    rw [(List.cons.inj same).1]
    exact low
  | short4 b' rest' low high same short =>
    rw [(List.cons.inj same).1]
    omega
  | mixed3 b' c1 c2 rest' low high mixed scalar same =>
    rw [(List.cons.inj same).1]
    exact low
  | mixed4 b' c1 c2 c3 rest' low high mixed scalar same =>
    rw [(List.cons.inj same).1]
    omega

theorem low_zero : Low 0 :=
  show 0 < 0x40 by decide

theorem tail_not_low {c : UInt8} (tail : Tail c) : ¬ Low c := by
  rw [Tail] at tail
  rw [Low]
  omega

/-- The bytes of the text, and its end behind them. -/
theorem byte_at {padded back : List UInt8} (front : List UInt8) (holds : Holds p 0 padded)
    (same : padded = front ++ b :: back) : p front.length = b := by
  rw [same, Holds.append, Holds.cons] at holds
  rw [← holds.2.1, Nat.zero_add]

/-- A text that goes on behind some bytes of it and its end. -/
theorem padded_split {more : List UInt8} (front : List UInt8) (same : rest ++ [0] = front ++ more) (goes : more ≠ []) :
    rest = front ++ more.dropLast := by
  have cut := congrArg List.dropLast same
  rw [List.dropLast_concat, List.dropLast_append_of_ne_nil goes] at cut
  exact cut

theorem padded_end (front : List UInt8) (same : rest ++ [0] = front ++ [b]) : rest = front ∧ b = 0 := by
  obtain ⟨front_same, last⟩ := List.append_inj' same rfl
  exact ⟨front_same, (List.cons.inj last).1.symm⟩

theorem begins_encoded {c : Char} (begins : Begins (b :: rest) c) :
    ∃ encoding rest', b :: rest = encoding ++ rest' ∧ Encoded c encoding := by
  obtain ⟨rest', same⟩ := begins
  exact ⟨_, rest', same.symm, encoded c⟩

/-- Which bytes an encoding with a given lead byte has. -/
theorem begins_two {c : Char} (low : 0xc2 ≤ b.toNat) (high : b.toNat ≤ 0xdf) (begins : Begins (b :: rest) c) :
    ∃ c1 rest', rest = c1 :: rest' ∧ Tail c1 := by
  obtain ⟨encoding, rest', same, encoded⟩ := begins_encoded begins
  cases encoded with
  | two _ _ tail _ => exact ⟨_, rest', (List.cons.inj same).2, tail⟩
  | one plain _ => rw [(List.cons.inj same).1] at low; omega
  | three low' => rw [(List.cons.inj same).1] at high; omega
  | four low' => rw [(List.cons.inj same).1] at high; omega

theorem begins_three {c : Char} (low : 0xe0 ≤ b.toNat) (high : b.toNat ≤ 0xef) (begins : Begins (b :: rest) c) :
    ∃ c1 c2 rest', rest = c1 :: c2 :: rest' ∧ Tail c1 ∧ Tail c2 ∧ Scalar3 (value3 b c1 c2) := by
  obtain ⟨encoding, rest', same, encoded⟩ := begins_encoded begins
  cases encoded with
  | three _ _ tail tail' _ scalar =>
    obtain ⟨rfl, split⟩ := List.cons.inj same
    exact ⟨_, _, rest', split, tail, tail', scalar⟩
  | one plain _ => rw [(List.cons.inj same).1] at low; omega
  | two _ high' => rw [(List.cons.inj same).1] at low; omega
  | four low' => rw [(List.cons.inj same).1] at high; omega

theorem begins_four {c : Char} (low : 0xf0 ≤ b.toNat) (high : b.toNat ≤ 0xf4) (begins : Begins (b :: rest) c) :
    ∃ c1 c2 c3 rest', rest = c1 :: c2 :: c3 :: rest' ∧ Tail c1 ∧ Tail c2 ∧ Tail c3 ∧
      Scalar4 (value4 b c1 c2 c3) := by
  obtain ⟨encoding, rest', same, encoded⟩ := begins_encoded begins
  cases encoded with
  | four _ _ tail tail' tail'' _ scalar =>
    obtain ⟨rfl, split⟩ := List.cons.inj same
    exact ⟨_, _, _, rest', split, tail, tail', tail'', scalar⟩
  | one plain _ => rw [(List.cons.inj same).1] at low; omega
  | two _ high' => rw [(List.cons.inj same).1] at low; omega
  | three _ high' => rw [(List.cons.inj same).1] at low; omega

/-- What a misreading takes with a given lead byte. -/
theorem misread_three {more : List UInt8} (high : b.toNat ≤ 0xef) (same : rest ++ [0] = c1 :: c2 :: more)
    (misread : Misread (b :: rest)) : Mixed [c1, c2] ∧ Scalar3 (value3 b c1 c2) := by
  cases misread with
  | short3 b' low high' same' =>
    rw [(List.cons.inj same').2] at same
    cases same
  | short4 b' rest' low high' same' _ =>
    rw [(List.cons.inj same').1] at high
    omega
  | mixed3 b' c1' c2' rest' low high' mixed scalar same' =>
    obtain ⟨rfl, behind⟩ := List.cons.inj same'
    have split := same.symm.trans behind
    cases split
    exact ⟨mixed, scalar⟩
  | mixed4 b' c1' c2' c3' rest' low high' mixed scalar same' =>
    rw [(List.cons.inj same').1] at high
    omega

theorem misread_four {more : List UInt8} (low : 0xf0 ≤ b.toNat) (same : rest ++ [0] = c1 :: c2 :: c3 :: more)
    (misread : Misread (b :: rest)) : Mixed [c1, c2, c3] ∧ Scalar4 (value4 b c1 c2 c3) := by
  cases misread with
  | short3 b' low' high same' =>
    rw [(List.cons.inj same').1] at low
    omega
  | short4 b' rest' low' high same' short =>
    rw [← (List.cons.inj same').2] at short
    have length : rest.length + 1 = more.length + 3 := by simpa using congrArg List.length same
    omega
  | mixed3 b' c1' c2' rest' low' high mixed scalar same' =>
    rw [(List.cons.inj same').1] at low
    omega
  | mixed4 b' c1' c2' c3' rest' low' high mixed scalar same' =>
    obtain ⟨rfl, behind⟩ := List.cons.inj same'
    have split := same.symm.trans behind
    cases split
    exact ⟨mixed, scalar⟩

/-- Two bytes. -/
theorem reading_two (low : 0xc2 ≤ b.toNat) (high : b.toNat ≤ 0xdf) (holds : Holds p 0 (b :: rest ++ [0])) :
    Reading (b :: rest) (utf8Decode p) := by
  have lead : p 0 = b := byte_at [] holds rfl
  obtain ⟨taken, alone⟩ := decode_two low high lead
  have well : ¬ Misread (b :: rest) := fun misread => by
    have above := misread.lead
    omega
  by_cases tail : Tail (p 1)
  · cases rest with
    | nil =>
      have last : p 1 = 0 := byte_at [b] holds rfl
      exact absurd last tail.ne_zero
    | cons c1 rest =>
      have second : p 1 = c1 := byte_at [b] holds rfl
      rw [second] at tail taken
      have value : (value2 b c1).isValidChar := by
        rw [Tail] at tail
        rw [value2]
        exact .inl (by omega)
      obtain ⟨c, same⟩ := exists_char value
      have encode := (Encoded.two low high tail same).encode
      rw [taken tail]
      refine .char c rest (by rw [encode]; rfl) (by rw [encode]; rfl) ?_ rfl well
      exact UInt32.toNat_inj.mp ((toNat_two b c1).trans same.symm)
  · rw [alone tail]
    refine .stray rfl (fun c begins => tail ?_) ?_ well
    · obtain ⟨c1, rest', rfl, continues⟩ := begins_two low high begins
      have second : p 1 = c1 := byte_at [b] holds rfl
      rw [second]
      exact continues
    · show 2 ≤ rest.length + 1 + 1
      omega

theorem mixed_two (first : Low c1 ∨ Tail c1) (second : Low c2 ∨ Tail c2) (continues : Tail c1 ∨ Tail c2)
    (other : ¬ (Tail c1 ∧ Tail c2)) : Mixed [c1, c2] := by
  simp only [Mixed, List.forall_mem_cons, List.exists_mem_cons_iff, List.not_mem_nil, false_implies, implies_true,
    and_true, false_and, exists_false, or_false]
  exact ⟨⟨first, second⟩, continues, by tauto⟩

theorem Mixed.two (mixed : Mixed [c1, c2]) :
    ((Low c1 ∨ Tail c1) ∧ (Low c2 ∨ Tail c2) ∧ (Tail c1 ∨ Tail c2)) ∧ ¬ (Tail c1 ∧ Tail c2) := by
  simp only [Mixed, List.forall_mem_cons, List.exists_mem_cons_iff, List.not_mem_nil, false_implies, implies_true,
    and_true, false_and, exists_false, or_false] at mixed
  obtain ⟨⟨first, second⟩, continues, low⟩ := mixed
  refine ⟨⟨first, second, continues⟩, fun tails => ?_⟩
  rcases low with low | low
  · exact tail_not_low tails.1 low
  · exact tail_not_low tails.2 low

/-- Three bytes, or what is taken for them. -/
theorem reading_three (low : 0xe0 ≤ b.toNat) (high : b.toNat ≤ 0xef) (holds : Holds p 0 (b :: rest ++ [0])) :
    Reading (b :: rest) (utf8Decode p) := by
  have lead : p 0 = b := byte_at [] holds rfl
  obtain ⟨taken, alone⟩ := decode_three low high lead
  rcases same : rest ++ [0] with _ | ⟨c1, _ | ⟨c2, more⟩⟩
  · simp at same
  · obtain rfl : rest = [] := (padded_end [] same).1
    have examined : (utf8Decode p).examined = 3 := by
      by_cases all : Taken3 b (p 1) (p 2)
      · rw [taken all]
      · rw [alone all]
    refine .long (.inl ?_) (.short3 b low high rfl)
    rw [examined]
    exact Nat.lt_succ_self _
  · have padded : b :: rest ++ [0] = b :: c1 :: c2 :: more := congrArg (b :: ·) same
    have second : p 1 = c1 := byte_at [b] holds padded
    have third : p 2 = c2 := byte_at [b, c1] holds padded
    have length : rest.length + 1 = more.length + 2 := by simpa using congrArg List.length same
    rw [second, third] at taken alone
    have begun : ∀ c, Begins (b :: rest) c → (Tail c1 ∧ Tail c2) ∧ Scalar3 (value3 b c1 c2) := by
      intro c begins
      obtain ⟨c1', c2', rest', rfl, tail, tail', scalar⟩ := begins_three low high begins
      cases same
      exact ⟨⟨tail, tail'⟩, scalar⟩
    by_cases all : Taken3 b c1 c2
    · rw [taken all]
      obtain ⟨⟨first, other, continues⟩, scalar⟩ := all
      by_cases tails : Tail c1 ∧ Tail c2
      · have goes : more ≠ [] := by
          rintro rfl
          exact tails.2.ne_zero (padded_end [c1] same).2
        have split := padded_split [c1, c2] same goes
        obtain ⟨c, value⟩ := exists_char (v := value3 b c1 c2) (by
          rw [Scalar3] at scalar
          rw [Nat.isValidChar]
          omega)
        have encode := (Encoded.three low high tails.1 tails.2 value scalar).encode
        refine .char c more.dropLast (by rw [encode, split]; rfl) (by rw [encode]; rfl) ?_ rfl fun misread => ?_
        · exact UInt32.toNat_inj.mp ((toNat_three b c1 c2).trans value.symm)
        · exact (misread_three high same misread).1.two.2 tails
      · have mixed := mixed_two first other continues tails
        have misread : Misread (b :: rest) := .mixed3 b c1 c2 more low high mixed scalar padded
        cases more with
        | nil => exact .long (.inr (by rw [List.length_cons, length]; rfl)) misread
        | cons c3 more =>
          have split := padded_split [c1, c2] same (List.cons_ne_nil _ _)
          exact .mixed b [c1, c2] _ (by rw [split]) rfl (Nat.le_refl 2) mixed.1
            (fun c begins => tails (begun c begins).1) rfl misread
    · rw [alone all]
      refine .stray rfl (fun c begins => ?_) ?_ fun misread => ?_
      · obtain ⟨⟨tail, tail'⟩, scalar⟩ := begun c begins
        exact all ⟨⟨.inr tail, .inr tail', .inl tail⟩, scalar⟩
      · show 3 ≤ rest.length + 1 + 1
        omega
      · obtain ⟨mixed, scalar⟩ := misread_three high same misread
        exact all ⟨mixed.two.1, scalar⟩

theorem mixed_three (first : Low c1 ∨ Tail c1) (second : Low c2 ∨ Tail c2) (third : Low c3 ∨ Tail c3)
    (continues : Tail c1 ∨ Tail c2 ∨ Tail c3) (other : ¬ (Tail c1 ∧ Tail c2 ∧ Tail c3)) :
    Mixed [c1, c2, c3] := by
  simp only [Mixed, List.forall_mem_cons, List.exists_mem_cons_iff, List.not_mem_nil, false_implies, implies_true,
    and_true, false_and, exists_false, or_false]
  exact ⟨⟨first, second, third⟩, continues, by tauto⟩

theorem Mixed.three (mixed : Mixed [c1, c2, c3]) :
    ((Low c1 ∨ Tail c1) ∧ (Low c2 ∨ Tail c2) ∧ (Low c3 ∨ Tail c3) ∧ (Tail c1 ∨ Tail c2 ∨ Tail c3)) ∧
      ¬ (Tail c1 ∧ Tail c2 ∧ Tail c3) := by
  simp only [Mixed, List.forall_mem_cons, List.exists_mem_cons_iff, List.not_mem_nil, false_implies, implies_true,
    and_true, false_and, exists_false, or_false] at mixed
  obtain ⟨⟨first, second, third⟩, continues, low⟩ := mixed
  refine ⟨⟨first, second, third, continues⟩, fun tails => ?_⟩
  rcases low with low | low | low
  · exact tail_not_low tails.1 low
  · exact tail_not_low tails.2.1 low
  · exact tail_not_low tails.2.2 low

/-- Four bytes, or what is taken for them. -/
theorem reading_four (low : 0xf0 ≤ b.toNat) (high : b.toNat ≤ 0xf4) (holds : Holds p 0 (b :: rest ++ [0])) :
    Reading (b :: rest) (utf8Decode p) := by
  have lead : p 0 = b := byte_at [] holds rfl
  obtain ⟨taken, alone⟩ := decode_four low high lead
  rcases Nat.lt_or_ge rest.length 2 with short | enough
  · have examined : (utf8Decode p).examined = 4 := by
      by_cases all : Taken4 b (p 1) (p 2) (p 3)
      · rw [taken all]
      · rw [alone all]
    refine .long (.inl ?_) (.short4 b rest low high rfl short)
    rw [examined]
    show rest.length + 1 + 1 < 4
    omega
  · obtain ⟨c1, c2, c3, more, same⟩ : ∃ c1 c2 c3 more, rest ++ [0] = c1 :: c2 :: c3 :: more := by
      rcases rest with _ | ⟨c1, _ | ⟨c2, _ | ⟨c3, rest⟩⟩⟩
      · cases enough
      · exact absurd enough (show ¬ 1 ≥ 2 by decide)
      · exact ⟨c1, c2, 0, [], rfl⟩
      · exact ⟨c1, c2, c3, rest ++ [0], rfl⟩
    have padded : b :: rest ++ [0] = b :: c1 :: c2 :: c3 :: more := congrArg (b :: ·) same
    have second : p 1 = c1 := byte_at [b] holds padded
    have third : p 2 = c2 := byte_at [b, c1] holds padded
    have fourth : p 3 = c3 := byte_at [b, c1, c2] holds padded
    have length : rest.length + 1 = more.length + 3 := by simpa using congrArg List.length same
    rw [second, third, fourth] at taken alone
    have begun : ∀ c, Begins (b :: rest) c →
        (Tail c1 ∧ Tail c2 ∧ Tail c3) ∧ Scalar4 (value4 b c1 c2 c3) := by
      intro c begins
      obtain ⟨c1', c2', c3', rest', rfl, tail, tail', tail'', scalar⟩ := begins_four low high begins
      cases same
      exact ⟨⟨tail, tail', tail''⟩, scalar⟩
    by_cases all : Taken4 b c1 c2 c3
    · rw [taken all]
      obtain ⟨⟨first, other, last, continues⟩, scalar⟩ := all
      by_cases tails : Tail c1 ∧ Tail c2 ∧ Tail c3
      · have goes : more ≠ [] := by
          rintro rfl
          exact tails.2.2.ne_zero (padded_end [c1, c2] same).2
        have split := padded_split [c1, c2, c3] same goes
        obtain ⟨c, value⟩ := exists_char (v := value4 b c1 c2 c3) (by
          rw [Scalar4] at scalar
          rw [Nat.isValidChar]
          omega)
        have encode := (Encoded.four low high tails.1 tails.2.1 tails.2.2 value scalar).encode
        refine .char c more.dropLast (by rw [encode, split]; rfl) (by rw [encode]; rfl) ?_ rfl fun misread => ?_
        · exact UInt32.toNat_inj.mp ((toNat_four b c1 c2 c3).trans value.symm)
        · exact (misread_four low same misread).1.three.2 tails
      · have mixed := mixed_three first other last continues tails
        have misread : Misread (b :: rest) := .mixed4 b c1 c2 c3 more low high mixed scalar padded
        cases more with
        | nil => exact .long (.inr (by rw [List.length_cons, length]; rfl)) misread
        | cons c4 more =>
          have split := padded_split [c1, c2, c3] same (List.cons_ne_nil _ _)
          exact .mixed b [c1, c2, c3] _ (by rw [split]) rfl (Nat.le_succ 2) mixed.1
            (fun c begins => tails (begun c begins).1) rfl misread
    · rw [alone all]
      refine .stray rfl (fun c begins => ?_) ?_ fun misread => ?_
      · obtain ⟨⟨tail, tail', tail''⟩, scalar⟩ := begun c begins
        exact all ⟨⟨.inr tail, .inr tail', .inr tail'', .inl tail⟩, scalar⟩
      · show 4 ≤ rest.length + 1 + 1
        omega
      · obtain ⟨mixed, scalar⟩ := misread_four low same misread
        exact all ⟨mixed.three.1, scalar⟩

/-- What `utf8_decode` makes of a text before its end. -/
theorem reading (nonzero : b ≠ 0) (holds : Holds p 0 (b :: rest ++ [0])) :
    Reading (b :: rest) (utf8Decode p) := by
  have lead : p 0 = b := byte_at [] holds rfl
  rcases Nat.lt_or_ge b.toNat 0x80 with plain | above
  · obtain ⟨c, value⟩ := exists_char (v := b.toNat) (.inl (by omega))
    have encode := (Encoded.one plain value).encode
    rw [decode_one nonzero plain lead]
    refine .char c rest (by rw [encode]; rfl) (by rw [encode]; rfl) ?_ rfl fun misread => ?_
    · exact UInt32.toNat_inj.mp ((UInt8.toNat_toUInt32 b).trans value.symm)
    · have high := misread.lead
      omega
  · by_cases none : 0x80 ≤ b.toNat ∧ b.toNat < 0xc2 ∨ 0xf4 < b.toNat
    · rw [decode_none lead none]
      refine .stray rfl (fun c begins => ?_) (Nat.le_add_left _ _) fun misread => ?_
      · obtain ⟨encoding, rest', same, encoded⟩ := begins_encoded begins
        cases encoded <;> obtain ⟨rfl, _⟩ := List.cons.inj same <;> omega
      · cases misread with
        | short3 b' low high same => rw [(List.cons.inj same).1] at none; omega
        | short4 b' rest' low high same _ => rw [(List.cons.inj same).1] at none; omega
        | mixed3 b' c1 c2 rest' low high mixed scalar same => rw [(List.cons.inj same).1] at none; omega
        | mixed4 b' c1 c2 c3 rest' low high mixed scalar same => rw [(List.cons.inj same).1] at none; omega
    · rcases Nat.lt_or_ge b.toNat 0xe0 with two | above'
      · exact reading_two (by omega) (by omega) holds
      · rcases Nat.lt_or_ge b.toNat 0xf0 with three | above''
        · exact reading_three above' (by omega) holds
        · exact reading_four above'' (by omega) holds

end FuseX.Engines.Utf8
