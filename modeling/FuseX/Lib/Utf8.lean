import Mathlib.Data.List.Basic

/-!
# Reading UTF-8

A string of bytes is read from left to right: where the encoding of a character begins it
is taken as a whole, and any other byte is taken alone. `Folded f other` is the string of
what the characters and the other bytes are turned into. Every string of bytes has exactly
one (`Folded.unique`, `exists_folded`), as no encoding is the beginning of another.
-/

namespace Lib.Utf8

variable {α : Type*} {f : Char → α} {other : α} {c c' : Char} {bytes rest rest' : List UInt8}

/-- The bytes begin with the encoding of a character. -/
def Begins (bytes : List UInt8) (c : Char) : Prop :=
  String.utf8EncodeChar c <+: bytes

theorem begins_append (c : Char) (rest : List UInt8) : Begins (String.utf8EncodeChar c ++ rest) c :=
  List.prefix_append _ _

theorem Begins.unique (first : Begins bytes c) (second : Begins bytes c') : c = c' := by
  obtain ⟨rest, same⟩ := first
  obtain ⟨rest', same'⟩ := second
  have decoded := congrArg (fun bytes : List UInt8 => bytes.toByteArray.utf8DecodeChar? 0) (same.trans same'.symm)
  simp only [List.toByteArray_append, ByteArray.utf8DecodeChar?_utf8EncodeChar_append] at decoded
  exact Option.some.inj decoded

theorem append_inj (same : String.utf8EncodeChar c ++ rest = String.utf8EncodeChar c' ++ rest') :
    c = c' ∧ rest = rest' := by
  have begins' := begins_append c' rest'
  rw [← same] at begins'
  obtain rfl := (begins_append c rest).unique begins'
  exact ⟨rfl, List.append_cancel_left same⟩

/-! ## The encodings -/

theorem encode_one (low : c.val.toNat ≤ 0x7f) : String.utf8EncodeChar c = [UInt8.ofNat c.val.toNat] := by
  rw [String.utf8EncodeChar]
  exact if_pos low

theorem encode_two (low : 0x7f < c.val.toNat) (high : c.val.toNat ≤ 0x7ff) :
    String.utf8EncodeChar c =
      [UInt8.ofNat (c.val.toNat / 64 % 0x20 + 0xc0), UInt8.ofNat (c.val.toNat % 0x40 + 0x80)] := by
  rw [String.utf8EncodeChar]
  exact (if_neg (Nat.not_le.mpr low)).trans (if_pos high)

theorem encode_three (low : 0x7ff < c.val.toNat) (high : c.val.toNat ≤ 0xffff) :
    String.utf8EncodeChar c =
      [UInt8.ofNat (c.val.toNat / 4096 % 0x10 + 0xe0), UInt8.ofNat (c.val.toNat / 64 % 0x40 + 0x80),
        UInt8.ofNat (c.val.toNat % 0x40 + 0x80)] := by
  rw [String.utf8EncodeChar]
  exact (if_neg (by omega)).trans ((if_neg (by omega)).trans (if_pos high))

theorem encode_four (low : 0xffff < c.val.toNat) :
    String.utf8EncodeChar c =
      [UInt8.ofNat (c.val.toNat / 262144 % 0x08 + 0xf0), UInt8.ofNat (c.val.toNat / 4096 % 0x40 + 0x80),
        UInt8.ofNat (c.val.toNat / 64 % 0x40 + 0x80), UInt8.ofNat (c.val.toNat % 0x40 + 0x80)] := by
  rw [String.utf8EncodeChar]
  exact (if_neg (by omega)).trans ((if_neg (by omega)).trans (if_neg (by omega)))

/-- A byte that continues an encoding. -/
def Tail (b : UInt8) : Prop :=
  0x80 ≤ b.toNat ∧ b.toNat < 0xc0

theorem Tail.ne_zero {b : UInt8} (tail : Tail b) : b ≠ 0 := by
  rintro rfl
  exact absurd tail.1 (by decide)

/-- The bits of a code point in two, three and four bytes. -/
def value2 (b c1 : UInt8) : Nat :=
  b.toNat % 32 * 64 + c1.toNat % 64

def value3 (b c1 c2 : UInt8) : Nat :=
  b.toNat % 16 * 4096 + c1.toNat % 64 * 64 + c2.toNat % 64

def value4 (b c1 c2 c3 : UInt8) : Nat :=
  b.toNat % 8 * 262144 + c1.toNat % 64 * 4096 + c2.toNat % 64 * 64 + c3.toNat % 64

/-- Code points that take three bytes: no surrogates. -/
def Scalar3 (v : Nat) : Prop :=
  0x800 ≤ v ∧ v ≤ 0xffff ∧ ¬ (0xd800 ≤ v ∧ v ≤ 0xdfff)

/-- Code points that take four bytes. -/
def Scalar4 (v : Nat) : Prop :=
  0x10000 ≤ v ∧ v ≤ 0x10ffff

theorem byte_eq {b : UInt8} {v : Nat} (same : b.toNat = v) : UInt8.ofNat v = b := by
  rw [← same]
  exact UInt8.ofNat_toNat

theorem exists_char {v : Nat} (scalar : v.isValidChar) : ∃ c : Char, c.val.toNat = v :=
  ⟨Char.ofNatAux v scalar, rfl⟩

/-- What the first byte says of the encoding. -/
inductive Encoded (c : Char) : List UInt8 → Prop
  | one {b : UInt8} : b.toNat < 0x80 → c.val.toNat = b.toNat → Encoded c [b]
  | two {b c1 : UInt8} : 0xc2 ≤ b.toNat → b.toNat ≤ 0xdf → Tail c1 → c.val.toNat = value2 b c1 →
    Encoded c [b, c1]
  | three {b c1 c2 : UInt8} : 0xe0 ≤ b.toNat → b.toNat ≤ 0xef → Tail c1 → Tail c2 →
    c.val.toNat = value3 b c1 c2 → Scalar3 (value3 b c1 c2) → Encoded c [b, c1, c2]
  | four {b c1 c2 c3 : UInt8} : 0xf0 ≤ b.toNat → b.toNat ≤ 0xf4 → Tail c1 → Tail c2 → Tail c3 →
    c.val.toNat = value4 b c1 c2 c3 → Scalar4 (value4 b c1 c2 c3) → Encoded c [b, c1, c2, c3]

/-- Six bits in a byte that continues an encoding. -/
theorem tail_ofNat (n : Nat) :
    Tail (UInt8.ofNat (n % 64 + 0x80)) ∧ (UInt8.ofNat (n % 64 + 0x80)).toNat % 64 = n % 64 := by
  rw [Tail, UInt8.toNat_ofNat']
  omega

theorem toNat_lead (n bits mark : Nat) (few : bits + mark ≤ 256) (small : n < bits) :
    (UInt8.ofNat (n % bits + mark)).toNat = n + mark := by
  rw [UInt8.toNat_ofNat', Nat.mod_eq_of_lt small]
  exact Nat.mod_eq_of_lt (by omega)

theorem encoded (c : Char) : Encoded c (String.utf8EncodeChar c) := by
  have valid := c.valid
  change c.val.toNat.isValidChar at valid
  rw [Nat.isValidChar] at valid
  rcases Nat.lt_or_ge 0x7f c.val.toNat with low | one
  · obtain ⟨tail, bits⟩ := tail_ofNat c.val.toNat
    rcases Nat.lt_or_ge 0x7ff c.val.toNat with low' | two
    · obtain ⟨tail', bits'⟩ := tail_ofNat (c.val.toNat / 64)
      rcases Nat.lt_or_ge 0xffff c.val.toNat with low'' | three
      · obtain ⟨tail'', bits''⟩ := tail_ofNat (c.val.toNat / 4096)
        have lead := toNat_lead (c.val.toNat / 262144) 0x08 0xf0 (by decide) (by omega)
        rw [encode_four low'']
        have whole : c.val.toNat = value4 (UInt8.ofNat (c.val.toNat / 262144 % 0x08 + 0xf0))
            (UInt8.ofNat (c.val.toNat / 4096 % 64 + 0x80)) (UInt8.ofNat (c.val.toNat / 64 % 64 + 0x80))
            (UInt8.ofNat (c.val.toNat % 64 + 0x80)) := by
          rw [value4, lead, bits, bits', bits'']
          omega
        refine .four ?_ ?_ tail'' tail' tail whole ?_
        · rw [lead]
          omega
        · rw [lead]
          omega
        · rw [← whole, Scalar4]
          omega
      · have lead := toNat_lead (c.val.toNat / 4096) 0x10 0xe0 (by decide) (by omega)
        rw [encode_three low' three]
        have whole : c.val.toNat = value3 (UInt8.ofNat (c.val.toNat / 4096 % 0x10 + 0xe0))
            (UInt8.ofNat (c.val.toNat / 64 % 64 + 0x80)) (UInt8.ofNat (c.val.toNat % 64 + 0x80)) := by
          rw [value3, lead, bits, bits']
          omega
        refine .three ?_ ?_ tail' tail whole ?_
        · rw [lead]
          omega
        · rw [lead]
          omega
        · rw [← whole, Scalar3]
          omega
    · have lead := toNat_lead (c.val.toNat / 64) 0x20 0xc0 (by decide) (by omega)
      rw [encode_two low two]
      have whole : c.val.toNat = value2 (UInt8.ofNat (c.val.toNat / 64 % 0x20 + 0xc0))
          (UInt8.ofNat (c.val.toNat % 64 + 0x80)) := by
        rw [value2, lead, bits]
        omega
      refine .two ?_ ?_ tail whole
      · rw [lead]
        omega
      · rw [lead]
        omega
  · have byte : (UInt8.ofNat c.val.toNat).toNat = c.val.toNat := by
      rw [UInt8.toNat_ofNat']
      exact Nat.mod_eq_of_lt (by omega)
    rw [encode_one one]
    refine .one ?_ byte.symm
    rw [byte]
    omega

/-- The bytes that are an encoding. -/
theorem Encoded.encode {encoding : List UInt8} (encoded : Encoded c encoding) :
    String.utf8EncodeChar c = encoding := by
  cases encoded with
  | one low same =>
    rw [encode_one (by omega), same, UInt8.ofNat_toNat]
  | two low high tail same =>
    rw [value2] at same
    rw [Tail] at tail
    rw [encode_two (by omega) (by omega)]
    congr 1
    · exact byte_eq (by omega)
    · congr 1
      exact byte_eq (by omega)
  | three low high tail tail' same scalar =>
    rw [Scalar3, ← same] at scalar
    rw [value3] at same
    rw [Tail] at tail tail'
    rw [encode_three (by omega) (by omega)]
    congr 1
    · exact byte_eq (by omega)
    · congr 1
      · exact byte_eq (by omega)
      · congr 1
        exact byte_eq (by omega)
  | four low high tail tail' tail'' same scalar =>
    rw [Scalar4, ← same] at scalar
    rw [value4] at same
    rw [Tail] at tail tail' tail''
    rw [encode_four (by omega)]
    congr 1
    · exact byte_eq (by omega)
    · congr 1
      · exact byte_eq (by omega)
      · congr 1
        · exact byte_eq (by omega)
        · congr 1
          exact byte_eq (by omega)

/-! ## Folding -/

/-- What the bytes are turned into, read from left to right. -/
inductive Folded (f : Char → α) (other : α) : List UInt8 → List α → Prop
  | nil : Folded f other [] []
  | char {c : Char} {rest : List UInt8} {out : List α} :
    Folded f other rest out → Folded f other (String.utf8EncodeChar c ++ rest) (f c :: out)
  | stray {b : UInt8} {rest : List UInt8} {out : List α} :
    (∀ c, ¬ Begins (b :: rest) c) → Folded f other rest out → Folded f other (b :: rest) (other :: out)

variable {out out' : List α}

theorem folded_nil (folded : Folded f other [] out) : out = [] := by
  generalize empty : ([] : List UInt8) = bytes at folded
  cases folded with
  | nil => rfl
  | char _ => exact absurd (List.append_eq_nil_iff.mp empty.symm).1 String.utf8EncodeChar_ne_nil
  | stray _ _ => cases empty

/-- What a character is turned into comes first. -/
theorem folded_char (folded : Folded f other (String.utf8EncodeChar c ++ rest) out) :
    ∃ out', out = f c :: out' ∧ Folded f other rest out' := by
  generalize same : String.utf8EncodeChar c ++ rest = bytes at folded
  cases folded with
  | nil => exact absurd (List.append_eq_nil_iff.mp same).1 String.utf8EncodeChar_ne_nil
  | char folded =>
    obtain ⟨rfl, rfl⟩ := append_inj same
    exact ⟨_, rfl, folded⟩
  | stray none _ =>
    have begins := begins_append c rest
    rw [same] at begins
    exact absurd begins (none c)

/-- What another byte is turned into comes first. -/
theorem folded_stray {b : UInt8} (none : ∀ c, ¬ Begins (b :: rest) c) (folded : Folded f other (b :: rest) out) :
    ∃ out', out = other :: out' ∧ Folded f other rest out' := by
  generalize same : b :: rest = bytes at folded
  cases folded with
  | nil => cases same
  | @char c rest' _ folded =>
    have begins := begins_append c rest'
    rw [← same] at begins
    exact absurd begins (none c)
  | stray _ folded =>
    cases same
    exact ⟨_, rfl, folded⟩

theorem Folded.unique (folded : Folded f other bytes out) (folded' : Folded f other bytes out') : out = out' := by
  induction folded generalizing out' with
  | nil => exact (folded_nil folded').symm
  | char _ ih =>
    obtain ⟨_, rfl, inner⟩ := folded_char folded'
    rw [ih inner]
  | stray none _ ih =>
    obtain ⟨_, rfl, inner⟩ := folded_stray none folded'
    rw [ih inner]

theorem Folded.length_le (folded : Folded f other bytes out) : out.length ≤ bytes.length := by
  induction folded with
  | nil => exact Nat.le_refl 0
  | @char c _ _ _ ih =>
    have positive := List.length_pos_of_ne_nil (String.utf8EncodeChar_ne_nil (c := c))
    rw [List.length_append, List.length_cons]
    omega
  | stray _ _ ih => exact Nat.succ_le_succ ih

theorem exists_folded (f : Char → α) (other : α) (bytes : List UInt8) : ∃ out, Folded f other bytes out := by
  induction length : bytes.length using Nat.strongRecOn generalizing bytes with
  | ind n ih =>
    subst length
    cases bytes with
    | nil => exact ⟨[], .nil⟩
    | cons b rest =>
      by_cases begins : ∃ c, Begins (b :: rest) c
      · obtain ⟨c, rest', same⟩ := begins
        have positive := List.length_pos_of_ne_nil (String.utf8EncodeChar_ne_nil (c := c))
        obtain ⟨out, folded⟩ := ih rest'.length (by rw [← same, List.length_append]; omega) rest' rfl
        rw [← same]
        exact ⟨_, .char folded⟩
      · obtain ⟨out, folded⟩ := ih rest.length (Nat.lt_succ_self _) rest rfl
        exact ⟨_, .stray (not_exists.mp begins) folded⟩

/-! ## Places -/

/-- What is left to read where the reading comes to. -/
inductive Reaches (bytes : List UInt8) : List UInt8 → Prop
  | start : Reaches bytes bytes
  | char {c : Char} {rest : List UInt8} : Reaches bytes (String.utf8EncodeChar c ++ rest) → Reaches bytes rest
  | stray {b : UInt8} {rest : List UInt8} : Reaches bytes (b :: rest) → (∀ c, ¬ Begins (b :: rest) c) →
    Reaches bytes rest

theorem Reaches.trans (first : Reaches bytes rest) (second : Reaches rest rest') : Reaches bytes rest' := by
  induction second with
  | start => exact first
  | char _ ih => exact .char ih
  | stray _ none ih => exact .stray ih none

theorem reaches_char : Reaches (String.utf8EncodeChar c ++ bytes) rest ↔
    rest = String.utf8EncodeChar c ++ bytes ∨ Reaches bytes rest := by
  constructor
  · intro reaches
    induction reaches with
    | start => exact .inl rfl
    | char _ ih =>
      rcases ih with same | behind
      · obtain ⟨rfl, rfl⟩ := append_inj same
        exact .inr .start
      · exact .inr (.char behind)
    | stray _ none ih =>
      rcases ih with same | behind
      · have begins := begins_append c bytes
        rw [← same] at begins
        exact absurd begins (none c)
      · exact .inr (.stray behind none)
  · rintro (rfl | behind)
    · exact .start
    · exact Reaches.trans (.char .start) behind

theorem reaches_stray {b : UInt8} (none : ∀ c, ¬ Begins (b :: bytes) c) :
    Reaches (b :: bytes) rest ↔ rest = b :: bytes ∨ Reaches bytes rest := by
  constructor
  · intro reaches
    induction reaches with
    | start => exact .inl rfl
    | @char c' rest' _ ih =>
      rcases ih with same | behind
      · have begins := begins_append c' rest'
        rw [same] at begins
        exact absurd begins (none c')
      · exact .inr (.char behind)
    | stray _ none' ih =>
      rcases ih with same | behind
      · cases same
        exact .inr .start
      · exact .inr (.stray behind none')
  · rintro (rfl | behind)
    · exact .start
    · exact Reaches.trans (.stray .start none) behind

theorem Reaches.suffix (reaches : Reaches bytes rest) : rest <:+ bytes := by
  induction reaches with
  | start => exact List.suffix_refl _
  | char _ ih => exact (List.suffix_append _ _).trans ih
  | stray _ _ ih => exact (List.suffix_cons _ _).trans ih

end Lib.Utf8
