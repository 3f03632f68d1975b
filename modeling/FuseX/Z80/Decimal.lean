import FuseX.Z80.Alu

/-!
# Long numbers

A program adds two long numbers byte by byte, from the lowest, with `ADC` for each pair of bytes, or with
`ADC` and `DAA` where a byte has two decimal digits; between two pairs the carry stays in `F`. The loops of
`ADC` and of `SBC` are exact, in binary and in decimal, whatever the length (`long_numbers`).
-/

namespace FuseX.Z80.Alu

open Blocks

/-! ## Bytes as numbers -/

/-- The two decimal digits of a byte, as a number. -/
def decimal (x : BitVec 8) : Nat := x.toNat / 16 * 10 + x.toNat % 16

/-- The two digits of a byte are decimal. -/
def IsDecimal (x : BitVec 8) : Prop := x.toNat / 16 ≤ 9 ∧ x.toNat % 16 ≤ 9

instance (x : BitVec 8) : Decidable (IsDecimal x) := inferInstanceAs (Decidable (_ ∧ _))

/-! ## What `DAA` reads and writes -/

theorem Flags.byte_carry (flags : Flags) : flags.byte.getLsbD 0 = flags.carry := by
  simp [Flags.byte, ite_getElem]

theorem Flags.byte_negative (flags : Flags) : flags.byte.getLsbD 1 = flags.negative := by
  simp [Flags.byte, ite_getElem]

theorem Flags.byte_half (flags : Flags) : flags.byte.getLsbD 4 = flags.half := by
  simp [Flags.byte, ite_getElem]

theorem sum_toNat (x y : BitVec 8) (c : Bool) : (sum x y c).1.toNat = (x.toNat + y.toNat + c.toNat) % 256 := by
  simp only [sum, BitVec.toNat_ofNat, Nat.reducePow]

theorem difference_toNat (x y : BitVec 8) (c : Bool) :
    (difference x y c).1.toNat = (256 - c.toNat + (256 - y.toNat) + x.toNat) % 256 := by
  rw [difference_fst _ _ _ (by decide)]
  exact Lib.toNat_differenceWith x y c (by decide)

/-- What `DAA` adds or takes. -/
def correction (half carry : Bool) (a : Nat) : Nat :=
  (if half = true ∨ 9 < a % 16 then 6 else 0) + (if carry = true ∨ 0x99 < a then 0x60 else 0)

theorem mask_one (f : BitVec 8) : f &&& 0x01 ≠ 0 ↔ f.getLsbD 0 = true := and_twoPow_ne_zero f (i := 0) (by decide)

theorem mask_two (f : BitVec 8) : f &&& 0x02 ≠ 0 ↔ f.getLsbD 1 = true := and_twoPow_ne_zero f (i := 1) (by decide)

theorem mask_half (f : BitVec 8) : f &&& 0x10 ≠ 0 ↔ f.getLsbD 4 = true := and_twoPow_ne_zero f (i := 4) (by decide)

theorem above_nine (a : BitVec 8) : 9 < a &&& 0x0f ↔ 9 < a.toNat % 16 := by
  rw [BitVec.lt_def, BitVec.toNat_and]
  exact iff_of_eq (congrArg (9 < ·) (Nat.and_two_pow_sub_one_eq_mod a.toNat 4))

theorem above_limit (a : BitVec 8) : 0x99 < a ↔ 0x99 < a.toNat := BitVec.lt_def

theorem parityTable_carry (a : BitVec 8) : (parityTable a).getLsbD 0 = false := by
  rw [parityTable]
  split <;> rfl

theorem daaAdd_toNat (s : State) :
    s.daaAdd.toNat = correction (s.f.getLsbD 4) s.carry s.a.toNat := by
  simp only [State.daaAdd, State.carry, correction, mask_one, mask_half, above_nine, above_limit]
  by_cases low : s.f.getLsbD 4 = true ∨ 9 < s.a.toNat % 16 <;>
    by_cases high : s.f.getLsbD 0 = true ∨ 0x99 < s.a.toNat <;>
      simp only [low, high, if_true, if_false] <;> rfl

theorem daa_carry (s : State) : s.daa.carry = (s.carry || decide (0x99 < s.a.toNat)) := by
  simp only [State.daa, State.carry, BitVec.getLsbD_or, BitVec.getLsbD_and, parityTable_carry, above_limit]
  by_cases above : 0x99 < s.a.toNat <;> simp [above]

theorem daa_a (s : State) : s.daa.a.toNat =
    (if s.f.getLsbD 1 = true then 512 - correction (s.f.getLsbD 4) s.carry s.a.toNat + s.a.toNat
      else s.a.toNat + correction (s.f.getLsbD 4) s.carry s.a.toNat) % 256 := by
  have zero : (0 : BitVec 8) = (BitVec.ofBool false).setWidth 8 := rfl
  have bound := s.daaAdd.isLt
  rw [← daaAdd_toNat]
  simp only [State.daa, mask_two]
  split
  · rw [State.sub, zero, subWith_eq]
    refine (difference_toNat _ _ _).trans ?_
    simp only [Bool.toNat_false]
    omega
  · rw [State.add, zero, addWith_eq]
    exact sum_toNat _ _ _

/-! ## One byte -/

/-- `A` loaded, and one byte added to it with the carry. -/
def State.adcByte (s : State) (x y : BitVec 8) : State := { s with a := x, q := 0 }.adc y

/-- `A` loaded, and one byte taken from it with the carry. -/
def State.sbcByte (s : State) (x y : BitVec 8) : State := { s with a := x, q := 0 }.sbc y

/-- `adcByte` in decimal. -/
def State.adcDecimal (s : State) (x y : BitVec 8) : State := { (s.adcByte x y) with q := 0 }.daa

/-- `sbcByte` in decimal. -/
def State.sbcDecimal (s : State) (x y : BitVec 8) : State := { (s.sbcByte x y) with q := 0 }.daa

theorem adcByte_spec (s : State) (x y : BitVec 8) :
    (s.adcByte x y).a.toNat = (x.toNat + y.toNat + s.carry.toNat) % 256 ∧
    (s.adcByte x y).carry = decide (256 ≤ x.toNat + y.toNat + s.carry.toNat) ∧
    (s.adcByte x y).f.getLsbD 4 = decide (16 ≤ x.toNat % 16 + y.toNat % 16 + s.carry.toNat) ∧
    (s.adcByte x y).f.getLsbD 1 = false := by
  rw [State.adcByte, State.adc, and_one, addWith_eq]
  exact ⟨sum_toNat x y s.carry, Flags.byte_carry _, Flags.byte_half _, Flags.byte_negative _⟩

theorem sbcByte_spec (s : State) (x y : BitVec 8) :
    (s.sbcByte x y).a.toNat = (256 - s.carry.toNat + (256 - y.toNat) + x.toNat) % 256 ∧
    (s.sbcByte x y).carry = decide (x.toNat < y.toNat + s.carry.toNat) ∧
    (s.sbcByte x y).f.getLsbD 4 = decide (x.toNat % 16 < y.toNat % 16 + s.carry.toNat) ∧
    (s.sbcByte x y).f.getLsbD 1 = true := by
  rw [State.sbcByte, State.sbc, and_one, subWith_eq]
  exact ⟨difference_toNat x y s.carry, Flags.byte_carry _, Flags.byte_half _, Flags.byte_negative _⟩

/-! ## One decimal byte -/

/-- With its correction, the sum of two decimal bytes is decimal. -/
theorem decimal_sum {x y c r : Nat} (first : x / 16 ≤ 9 ∧ x % 16 ≤ 9) (second : y / 16 ≤ 9 ∧ y % 16 ≤ 9)
    (bit : c ≤ 1)
    (result : r = ((x + y + c) % 256 +
      correction (decide (16 ≤ x % 16 + y % 16 + c)) (decide (256 ≤ x + y + c)) ((x + y + c) % 256)) % 256) :
    (r / 16 ≤ 9 ∧ r % 16 ≤ 9) ∧
    r / 16 * 10 + r % 16 + 100 * (if 256 ≤ x + y + c ∨ 0x99 < (x + y + c) % 256 then 1 else 0) =
      x / 16 * 10 + x % 16 + (y / 16 * 10 + y % 16) + c := by
  simp only [correction, decide_eq_true_eq] at result ⊢
  split_ifs at result ⊢ <;> omega

/-- With its correction, the difference of two decimal bytes is decimal. -/
theorem decimal_difference {x y c r : Nat} (first : x / 16 ≤ 9 ∧ x % 16 ≤ 9) (second : y / 16 ≤ 9 ∧ y % 16 ≤ 9)
    (bit : c ≤ 1)
    (result : r = (512 - correction (decide (x % 16 < y % 16 + c)) (decide (x < y + c))
      ((256 - c + (256 - y) + x) % 256) + (256 - c + (256 - y) + x) % 256) % 256) :
    (r / 16 ≤ 9 ∧ r % 16 ≤ 9) ∧
    x / 16 * 10 + x % 16 + 100 * (if x < y + c ∨ 0x99 < (256 - c + (256 - y) + x) % 256 then 1 else 0) =
      y / 16 * 10 + y % 16 + (r / 16 * 10 + r % 16) + c := by
  simp only [correction, decide_eq_true_eq] at result ⊢
  split_ifs at result ⊢ <;> omega

theorem toNat_or_decide (p q : Prop) [Decidable p] [Decidable q] :
    (decide p || decide q).toNat = if p ∨ q then 1 else 0 := by
  by_cases left : p <;> by_cases right : q <;> simp [left, right]

theorem adcDecimal_spec (s : State) (x y : BitVec 8) (first : IsDecimal x) (second : IsDecimal y) :
    IsDecimal (s.adcDecimal x y).a ∧
    decimal (s.adcDecimal x y).a + 100 * (s.adcDecimal x y).carry.toNat =
      decimal x + decimal y + s.carry.toNat := by
  obtain ⟨a, carry, half, negative⟩ := adcByte_spec s x y
  have result : (s.adcDecimal x y).a.toNat = _ := daa_a { (s.adcByte x y) with q := 0 }
  have after : (s.adcDecimal x y).carry = _ := daa_carry { (s.adcByte x y) with q := 0 }
  change _ = ((s.adcByte x y).carry || _) at after
  change _ = (if _ then _ else (s.adcByte x y).a.toNat + correction _ (s.adcByte x y).carry _) % 256 at result
  dsimp only at result after
  rw [negative, if_neg Bool.false_ne_true, half, carry, a] at result
  rw [carry, a] at after
  rw [after, toNat_or_decide]
  exact decimal_sum first second s.carry.toNat_le result

theorem sbcDecimal_spec (s : State) (x y : BitVec 8) (first : IsDecimal x) (second : IsDecimal y) :
    IsDecimal (s.sbcDecimal x y).a ∧
    decimal x + 100 * (s.sbcDecimal x y).carry.toNat =
      decimal y + decimal (s.sbcDecimal x y).a + s.carry.toNat := by
  obtain ⟨a, carry, half, negative⟩ := sbcByte_spec s x y
  have result : (s.sbcDecimal x y).a.toNat = _ := daa_a { (s.sbcByte x y) with q := 0 }
  have after : (s.sbcDecimal x y).carry = _ := daa_carry { (s.sbcByte x y) with q := 0 }
  change _ = ((s.sbcByte x y).carry || _) at after
  change _ = (if _ then 512 - correction _ (s.sbcByte x y).carry _ + (s.sbcByte x y).a.toNat else _) % 256 at result
  dsimp only at result after
  rw [negative, if_pos rfl, half, carry, a] at result
  rw [carry, a] at after
  rw [after, toNat_or_decide]
  exact decimal_difference first second s.carry.toNat_le result

/-! ## All bytes -/

/-- The loop over the bytes of two numbers, from the lowest: what it stores, and the state it ends in. -/
def chain (byte : State → BitVec 8 → BitVec 8 → State) :
    State → List (BitVec 8 × BitVec 8) → List (BitVec 8) × State
  | s, [] => ([], s)
  | s, (x, y) :: bytes =>
    let s := byte s x y
    let (stored, last) := chain byte s bytes
    (s.a :: stored, last)

/-- The number that bytes are the digits of. -/
def number (b : Nat) (digit : BitVec 8 → Nat) (bytes : List (BitVec 8)) : Nat := Nat.ofDigits b (bytes.map digit)

/-- A loop has added the numbers of the pairs, and the carry. -/
def Sums (b : Nat) (digit : BitVec 8 → Nat) (s : State) (pairs : List (BitVec 8 × BitVec 8))
    (run : List (BitVec 8) × State) : Prop :=
  number b digit run.1 + b ^ pairs.length * run.2.carry.toNat =
    number b digit (pairs.map Prod.fst) + number b digit (pairs.map Prod.snd) + s.carry.toNat

/-- A loop has taken the second numbers of the pairs and the carry from the first ones. -/
def Differences (b : Nat) (digit : BitVec 8 → Nat) (s : State) (pairs : List (BitVec 8 × BitVec 8))
    (run : List (BitVec 8) × State) : Prop :=
  number b digit (pairs.map Prod.fst) + b ^ pairs.length * run.2.carry.toNat =
    number b digit (pairs.map Prod.snd) + number b digit run.1 + s.carry.toNat

/-- The bytes of one round: of the two numbers, and what is stored. -/
structure Round : Type where
  first : BitVec 8
  second : BitVec 8
  stored : BitVec 8

section Chain

variable {b : Nat} {byte : State → BitVec 8 → BitVec 8 → State} (Digit : BitVec 8 → Prop)

/-- If each round is exact but for the carry, so is the loop. -/
theorem chain_carries (holds added : Round → Nat)
    (exact : ∀ s x y, Digit x → Digit y → Digit (byte s x y).a ∧
      holds ⟨x, y, (byte s x y).a⟩ + b * (byte s x y).carry.toNat = added ⟨x, y, (byte s x y).a⟩ + s.carry.toNat)
    (s : State) {pairs : List (BitVec 8 × BitVec 8)} (digits : ∀ p ∈ pairs, Digit p.1 ∧ Digit p.2) :
    ∃ rounds : List Round,
      rounds.map Round.first = pairs.map Prod.fst ∧ rounds.map Round.second = pairs.map Prod.snd ∧
      rounds.map Round.stored = (chain byte s pairs).1 ∧ (∀ round ∈ rounds, Digit round.stored) ∧
      Lib.Carries b s.carry.toNat (rounds.map fun round => (holds round, added round))
        (chain byte s pairs).2.carry.toNat := by
  induction pairs generalizing s with
  | nil => exact ⟨[], rfl, rfl, rfl, fun _ none => absurd none List.not_mem_nil, .nil _⟩
  | cons p pairs ih =>
    obtain ⟨x, y⟩ := p
    obtain ⟨first, second⟩ := digits (x, y) List.mem_cons_self
    obtain ⟨digit, round⟩ := exact s x y first second
    obtain ⟨rounds, firsts, seconds, stored, all, carries⟩ :=
      ih (byte s x y) fun p member => digits p (List.mem_cons_of_mem _ member)
    refine ⟨⟨x, y, (byte s x y).a⟩ :: rounds, ?_, ?_, ?_, ?_, .cons round carries⟩
    · rw [List.map_cons, firsts, List.map_cons]
    · rw [List.map_cons, seconds, List.map_cons]
    · rw [List.map_cons, stored]
      rfl
    · rintro other member
      rcases List.mem_cons.mp member with rfl | later
      · exact digit
      · exact all other later

variable {digit : BitVec 8 → Nat}

/-- A loop of sums is a sum. -/
theorem chain_sums
    (exact : ∀ s x y, Digit x → Digit y → Digit (byte s x y).a ∧
      digit (byte s x y).a + b * (byte s x y).carry.toNat = digit x + digit y + s.carry.toNat)
    (s : State) {pairs : List (BitVec 8 × BitVec 8)} (digits : ∀ p ∈ pairs, Digit p.1 ∧ Digit p.2) :
    (∀ x ∈ (chain byte s pairs).1, Digit x) ∧ Sums b digit s pairs (chain byte s pairs) := by
  obtain ⟨rounds, firsts, seconds, stored, all, carries⟩ := chain_carries Digit (fun round => digit round.stored)
    (fun round => digit round.first + digit round.second) exact s digits
  have total := carries.total
  have length : pairs.length = rounds.length := by
    rw [← List.length_map Prod.fst, ← firsts, List.length_map]
  constructor
  · rw [← stored]
    simpa using all
  · rw [List.map_map, List.map_map, List.length_map] at total
    rw [Sums, number, number, number, ← stored, ← firsts, ← seconds, List.map_map, List.map_map, List.map_map,
      length,
      ← Lib.ofDigits_map_add]
    exact total

/-- A loop of differences is a difference. -/
theorem chain_differences
    (exact : ∀ s x y, Digit x → Digit y → Digit (byte s x y).a ∧
      digit x + b * (byte s x y).carry.toNat = digit y + digit (byte s x y).a + s.carry.toNat)
    (s : State) {pairs : List (BitVec 8 × BitVec 8)} (digits : ∀ p ∈ pairs, Digit p.1 ∧ Digit p.2) :
    (∀ x ∈ (chain byte s pairs).1, Digit x) ∧ Differences b digit s pairs (chain byte s pairs) := by
  obtain ⟨rounds, firsts, seconds, stored, all, carries⟩ := chain_carries Digit (fun round => digit round.first)
    (fun round => digit round.second + digit round.stored) exact s digits
  have total := carries.total
  have length : pairs.length = rounds.length := by
    rw [← List.length_map Prod.fst, ← firsts, List.length_map]
  constructor
  · rw [← stored]
    simpa using all
  · rw [List.map_map, List.map_map, List.length_map] at total
    rw [Differences, number, number, number, ← stored, ← firsts, ← seconds, List.map_map, List.map_map,
      List.map_map,
      length, ← Lib.ofDigits_map_add]
    exact total

end Chain

theorem adcByte_exact (s : State) (x y : BitVec 8) :
    (s.adcByte x y).a.toNat + 256 * (s.adcByte x y).carry.toNat = x.toNat + y.toNat + s.carry.toNat := by
  obtain ⟨a, carry, -, -⟩ := adcByte_spec s x y
  have bit := s.carry.toNat_le
  rw [a, carry]
  rcases Nat.lt_or_ge (x.toNat + y.toNat + s.carry.toNat) 256 with small | large
  · rw [decide_eq_false (by omega), Bool.toNat_false]
    omega
  · rw [decide_eq_true large, Bool.toNat_true]
    omega

theorem sbcByte_exact (s : State) (x y : BitVec 8) :
    x.toNat + 256 * (s.sbcByte x y).carry.toNat = y.toNat + (s.sbcByte x y).a.toNat + s.carry.toNat := by
  obtain ⟨a, carry, -, -⟩ := sbcByte_spec s x y
  have bit := s.carry.toNat_le
  rw [a, carry]
  rcases Nat.lt_or_ge x.toNat (y.toNat + s.carry.toNat) with borrowed | enough
  · rw [decide_eq_true borrowed, Bool.toNat_true]
    omega
  · rw [decide_eq_false (by omega), Bool.toNat_false]
    omega

/-- Loops of `ADC` and of `SBC` are exact for binary numbers of any length, and with `DAA` for decimal ones. -/
theorem long_numbers (s : State) (pairs : List (BitVec 8 × BitVec 8)) :
    Sums 256 BitVec.toNat s pairs (chain State.adcByte s pairs) ∧
    Differences 256 BitVec.toNat s pairs (chain State.sbcByte s pairs) ∧
    ((∀ p ∈ pairs, IsDecimal p.1 ∧ IsDecimal p.2) →
      ((∀ x ∈ (chain State.adcDecimal s pairs).1, IsDecimal x) ∧
        Sums 100 decimal s pairs (chain State.adcDecimal s pairs)) ∧
      (∀ x ∈ (chain State.sbcDecimal s pairs).1, IsDecimal x) ∧
        Differences 100 decimal s pairs (chain State.sbcDecimal s pairs)) := by
  have any : ∀ p ∈ pairs, (fun _ : BitVec 8 => True) p.1 ∧ (fun _ : BitVec 8 => True) p.2 :=
    fun _ _ => ⟨trivial, trivial⟩
  refine ⟨?_, ?_, fun decimals => ⟨?_, ?_⟩⟩
  · exact (chain_sums (fun _ => True) (fun s x y _ _ => ⟨trivial, adcByte_exact s x y⟩) s any).2
  · exact (chain_differences (fun _ => True) (fun s x y _ _ => ⟨trivial, sbcByte_exact s x y⟩) s any).2
  · exact chain_sums IsDecimal adcDecimal_spec s decimals
  · exact chain_differences IsDecimal sbcDecimal_spec s decimals

/-- 9987 and 14, from the lowest two digits: 10001. -/
theorem long_numbers_decimal :
    Sums 100 decimal ⟨0, 0, 0, 0, 0, 0, 0⟩ [(0x87, 0x14), (0x99, 0x00)]
      (chain State.adcDecimal ⟨0, 0, 0, 0, 0, 0, 0⟩ [(0x87, 0x14), (0x99, 0x00)]) :=
  ((long_numbers ⟨0, 0, 0, 0, 0, 0, 0⟩ [(0x87, 0x14), (0x99, 0x00)]).2.2 (by simp [IsDecimal])).1.2

end FuseX.Z80.Alu
