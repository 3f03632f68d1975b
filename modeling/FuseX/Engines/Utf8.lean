import Mathlib.Data.List.Basic

/-!
# Folding UTF-8 to ASCII

`engine_utf8_fold` rewrites a buffer in place: each well-formed sequence becomes the one
character of ASCII that it is folded to, any other byte a space. The model keeps account of
the turns of its loop: from where on and how far the buffer is examined, and where it is
written.
-/

namespace FuseX.Engines.Utf8

/-! ## Decoding -/

/-- What `utf8_decode` returns, with the number of bytes it has examined. -/
structure Decoded : Type where
  examined : Nat
  n : Nat
  cp : UInt32
deriving DecidableEq

/-- Code point bits of a byte at a place. -/
def bits (c mask : UInt8) (place : UInt32) : UInt32 :=
  (c &&& mask).toUInt32 <<< place

/-- `utf8_decode`; where it returns 0 the code point is not used. -/
def utf8Decode (p : Nat → UInt8) : Decoded :=
  let c := p 0
  if c = 0 then ⟨1, 0, 0⟩
  else if c < 0x80 then ⟨1, 1, c.toUInt32⟩
  else if c < 0xc2 then ⟨1, 0, 0⟩
  else if c ≤ 0xdf then
    let c1 := p 1
    if c1 &&& 0xc0 ≠ 0x80 then ⟨2, 0, 0⟩
    else
      let cp := bits c 0x1f 6 ||| bits c1 0x3f 0
      if cp < 0x80 then ⟨2, 0, 0⟩ else ⟨2, 2, cp⟩
  else if c ≤ 0xef then
    let c1 := p 1
    let c2 := p 2
    if (c1 ||| c2) &&& 0xc0 ≠ 0x80 then ⟨3, 0, 0⟩
    else
      let cp := bits c 0x0f 12 ||| bits c1 0x3f 6 ||| bits c2 0x3f 0
      if cp < 0x800 ∨ (0xd800 ≤ cp ∧ cp ≤ 0xdfff) then ⟨3, 0, 0⟩ else ⟨3, 3, cp⟩
  else if c ≤ 0xf4 then
    let c1 := p 1
    let c2 := p 2
    let c3 := p 3
    if (c1 ||| c2 ||| c3) &&& 0xc0 ≠ 0x80 then ⟨4, 0, 0⟩
    else
      let cp := bits c 0x07 18 ||| bits c1 0x3f 12 ||| bits c2 0x3f 6 ||| bits c3 0x3f 0
      if cp < 0x10000 ∨ 0x10ffff < cp then ⟨4, 0, 0⟩ else ⟨4, 4, cp⟩
  else ⟨1, 0, 0⟩

/-! ## Folding a code point -/

/-- `latin1_fold`. -/
def latin1Fold : List UInt8 :=
    [65, 65, 65, 65, 65, 65, 65, 67, 69, 69, 69, 69, 73, 73, 73, 73, 68, 78, 79, 79, 79, 79, 79,
    32, 32, 85, 85, 85, 85, 89, 84, 115, 97, 97, 97, 97, 97, 97, 97, 99, 101, 101, 101, 101, 105,
    105, 105, 105, 100, 110, 111, 111, 111, 111, 111, 32, 32, 117, 117, 117, 117, 121, 116, 121]

/-- `latin_ext_a_fold`. -/
def latinExtAFold : List UInt8 :=
    [65, 97, 65, 97, 65, 97, 67, 99, 67, 99, 67, 99, 67, 99, 68, 100, 32, 32, 69, 101, 69, 101,
    69, 101, 69, 101, 69, 101, 71, 103, 71, 103, 71, 103, 71, 103, 72, 104, 32, 32, 73, 105, 73,
    105, 73, 105, 73, 105, 73, 32, 73, 105, 74, 106, 75, 107, 32, 76, 108, 76, 108, 76, 108, 76,
    108, 32, 32, 78, 110, 78, 110, 78, 110, 110, 32, 32, 79, 111, 79, 111, 79, 111, 32, 32, 82,
    114, 82, 114, 82, 114, 83, 115, 83, 115, 83, 115, 83, 115, 84, 116, 84, 116, 32, 32, 85, 117,
    85, 117, 85, 117, 85, 117, 85, 117, 85, 117, 87, 119, 89, 121, 89, 90, 122, 90, 122, 90, 122,
    115]

/-- `latin_ext_b_fold`. -/
def latinExtBFold : List UInt8 :=
    [32, 32, 32, 32, 32, 32, 32, 32, 32, 32, 32, 32, 32, 32, 32, 32, 32, 32, 32, 32, 32, 32, 32,
    32, 32, 32, 32, 32, 32, 32, 32, 32, 79, 111, 32, 32, 32, 32, 32, 32, 32, 32, 32, 32, 32, 85,
    117, 32, 32, 32, 32, 32, 32, 32, 32, 32, 32, 32, 32, 32, 32, 32, 32, 32, 32, 32, 32, 68, 68,
    100, 76, 76, 108, 78, 78, 110, 65, 97, 73, 105, 79, 111, 85, 117, 85, 117, 85, 117, 85, 117,
    85, 117, 32, 65, 97, 65, 97, 32, 32, 32, 32, 71, 103, 75, 107, 79, 111, 79, 111, 32, 32, 106,
    68, 68, 100, 71, 103, 32, 32, 78, 110, 65, 97, 32, 32, 32, 32, 65, 97, 65, 97, 69, 101, 69,
    101, 73, 105, 73, 105, 79, 111, 79, 111, 82, 114, 82, 114, 85, 117, 85, 117, 83, 115, 84, 116,
    32, 32, 72, 104, 32, 32, 32, 32, 32, 32, 65, 97, 69, 101, 79, 111, 79, 111, 79, 111, 79, 111,
    89, 121, 32, 32, 32, 32, 32, 32, 32, 32, 32, 32, 32, 32, 32, 32, 32, 32, 32, 32, 32, 32, 32,
    32, 32, 32, 32, 32, 32, 32, 32]

/-- The cases of `try_fold_punct`. -/
def punctuation : List (List UInt32 × UInt8) :=
  [([0x00a0, 0x1680, 0x2000, 0x2001, 0x2002, 0x2003, 0x2004, 0x2005, 0x2006, 0x2007, 0x2008, 0x2009, 0x200a,
      0x200b, 0x200c, 0x200d, 0x202f, 0x205f, 0x3000, 0xfeff], 0x20),
    ([0x00ad, 0x2010, 0x2011, 0x2012, 0x2013, 0x2014, 0x2015], 0x2d),
    ([0x2018, 0x2019, 0x201a, 0x201b, 0x2032, 0x2035], 0x27),
    ([0x201c, 0x201d, 0x201e, 0x201f, 0x2033, 0x2036], 0x22),
    ([0x2026], 0x2e),
    ([0x00b4, 0x02b9, 0x02bc, 0x02c8], 0x27),
    ([0x00ab, 0x00bb], 0x22)]

/-- `try_fold_punct`. -/
def tryFoldPunct (cp : UInt32) : Option UInt8 :=
  (punctuation.find? fun row => cp ∈ row.1).map Prod.snd

/-- `fold_codepoint`. -/
def foldCodepoint (cp : UInt32) : UInt8 :=
  if cp < 0x80 then
    if 32 ≤ cp ∧ cp ≤ 126 then cp.toUInt8
    else if cp = 9 ∨ cp = 10 ∨ cp = 13 then cp.toUInt8
    else 0x20
  else
    match tryFoldPunct cp with
    | some punct => punct
    | none =>
      if 0xc0 ≤ cp ∧ cp ≤ 0xff then latin1Fold.getD (cp.toNat - 0xc0) 0
      else if 0x100 ≤ cp ∧ cp ≤ 0x17f then latinExtAFold.getD (cp.toNat - 0x100) 0
      else if 0x180 ≤ cp ∧ cp ≤ 0x24f then latinExtBFold.getD (cp.toNat - 0x180) 0
      else 0x20

/-! ## Folding a buffer -/

/-- A turn of the loop: the bytes from `r` on are examined, and then the one at `w` is written. -/
structure Turn : Type where
  r : Nat
  examined : Nat
  w : Nat

/-- The turns, and the buffer behind them. -/
structure Run : Type where
  turns : List Turn
  buf : Nat → UInt8

/-- The loop of `engine_utf8_fold`, with so much room left for the characters. -/
def foldFrom : Nat → (Nat → UInt8) → Nat → Nat → Run
  | 0, buf, r, w => ⟨[⟨r, 1, w⟩], Function.update buf w 0⟩
  | left + 1, buf, r, w =>
    if buf r = 0 then ⟨[⟨r, 1, w⟩], Function.update buf w 0⟩
    else
      let decoded := utf8Decode fun k => buf (r + k)
      let rest :=
        if decoded.n = 0 then foldFrom left (Function.update buf w 0x20) (r + 1) (w + 1)
        else foldFrom left (Function.update buf w (foldCodepoint decoded.cp)) (r + decoded.n) (w + 1)
      ⟨⟨r, decoded.examined, w⟩ :: rest.turns, rest.buf⟩

/-- `engine_utf8_fold`. -/
def engineUtf8Fold (buf : Nat → UInt8) (cap : Nat) : Run :=
  if cap < 2 then
    if cap = 0 then ⟨[], buf⟩ else ⟨[], Function.update buf 0 0⟩
  else foldFrom (cap - 1) buf 0 0

end FuseX.Engines.Utf8
