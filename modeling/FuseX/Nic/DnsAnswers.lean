import FuseX.Lib.Segments
import FuseX.Nic.Dns

/-!
# What a DNS response says

The format, over the offsets as numbers: `nameAt` decodes a name through its pointers, `recordAt` a record,
and `reported` is what the answers of a message say. `Tame` is that no length leads behind 2¹⁶ where the
message is read, and that no length byte is of the reserved kinds.
-/

namespace FuseX.Nic.Dns

/-! ## The format -/

/-- The first byte of a label of up to 63 bytes. -/
def isLabel (lab : UInt8) : Bool :=
  lab &&& 0xC0 = 0

/-- The labels of a name and the offset behind it, in at most `hops` labels and pointers. -/
def nameAt (bytes : List UInt8) : Nat → Nat → Option (List Text × Nat)
  | 0, _ => none
  | hops + 1, off =>
    match bytes[off]? with
    | none => none
    | some lab =>
      if isPointer lab then
        match bytes[off + 1]? with
        | none => none
        | some low => (nameAt bytes hops (pointer lab low)).map fun name => (name.1, off + 2)
      else if lab = 0 then some ([], off + 1)
      else if isLabel lab ∧ off + 1 + lab.toNat ≤ bytes.length then
        (nameAt bytes hops (off + 1 + lab.toNat)).map fun name =>
          ((bytes.drop (off + 1)).take lab.toNat :: name.1, name.2)
      else none

/-- The offset behind a name. -/
def nameEndAt (bytes : List UInt8) : Nat → Nat → Option Nat
  | 0, _ => none
  | hops + 1, off =>
    match bytes[off]? with
    | none => none
    | some lab =>
      if isPointer lab then if off + 1 < bytes.length then some (off + 2) else none
      else if lab = 0 then some (off + 1)
      else if isLabel lab ∧ off + 1 + lab.toNat ≤ bytes.length then nameEndAt bytes hops (off + 1 + lab.toNat)
      else none

/-- The text of a name, with dots between the labels. -/
def nameText : List Text → Text
  | [] => [46]
  | label :: labels => label ++ Lib.join 46 labels

/-- A name whose text is not too long, and the offset behind it. -/
def hostAt (bytes : List UInt8) (off : Nat) : Option (Text × Nat) :=
  match nameAt bytes 512 off with
  | none => none
  | some (labels, next) => if (nameText labels).length ≤ dnsMaxName then some (nameText labels, next) else none

/-- The number of some bytes, the highest first. -/
def number (bytes : List UInt8) : Nat :=
  bytes.foldl (fun value b => value * 256 + b.toNat) 0

/-- The number in `size` bytes of a message. -/
def field (bytes : List UInt8) (off size : Nat) : Nat :=
  number ((bytes.drop off).take size)

structure Record : Type where
  owner : Text
  type : Nat
  classIn : Nat
  data : List UInt8
  next : Nat

/-- A record. -/
def recordAt (bytes : List UInt8) (off : Nat) : Option Record :=
  match hostAt bytes off with
  | none => none
  | some (owner, next) =>
    if next + 10 ≤ bytes.length ∧ next + 10 + field bytes (next + 8) 2 ≤ bytes.length then
      some
        { owner
          type := field bytes next 2
          classIn := field bytes (next + 2) 2
          data := (bytes.drop (next + 10)).take (field bytes (next + 8) 2)
          next := next + 10 + field bytes (next + 8) 2 }
    else none

/-- The records up to the first one that is malformed. -/
def recordsAt (bytes : List UInt8) : Nat → Nat → List Record
  | 0, _ => []
  | count + 1, off =>
    match recordAt bytes off with
    | none => []
    | some record => record :: recordsAt bytes count record.next

/-- The offset behind some questions. -/
def questionsEnd (bytes : List UInt8) : Nat → Nat → Option Nat
  | 0, off => some off
  | count + 1, off =>
    match nameEndAt bytes 512 off with
    | none => none
    | some next => if next + 4 ≤ bytes.length then questionsEnd bytes count (next + 4) else none

/-- The name of the first question, and the offset of the answers. -/
def questionsAt (bytes : List UInt8) : Nat → Nat → Option (Option Text × Nat)
  | 0, off => some (none, off)
  | count + 1, off =>
    match hostAt bytes off with
    | none => none
    | some (qname, next) =>
      if next + 4 ≤ bytes.length then (questionsEnd bytes count (next + 4)).map fun off => (some qname, off)
      else none

/-- An address in the Internet. -/
def Record.isAddress (record : Record) : Bool :=
  record.type = 1 ∧ record.classIn = 1 ∧ record.data.length = 4

/-- The message is a response without an error. -/
def isResponse (bytes : List UInt8) : Bool :=
  12 ≤ bytes.length ∧ field bytes 2 2 &&& 0x8000 ≠ 0 ∧ field bytes 2 2 &&& 0x000F = 0

/-- The hosts and addresses that a message reports. -/
def reported (bytes : List UInt8) : List (Text × Nat) :=
  if isResponse bytes then
    match questionsAt bytes (field bytes 4 2) 12 with
    | none => []
    | some (qname, off) =>
      ((recordsAt bytes (field bytes 6 2) off).filter Record.isAddress).map fun record =>
        (qname.getD record.owner, number record.data)
  else []

/-! ## Messages without wild lengths -/

/-- The size of a name's text with one more label. -/
def sizeWith (size : Nat) (lab : UInt8) : Nat :=
  (if size = 0 then 0 else size + 1) + lab.toNat

/-- A name meets no reserved length byte and no length that leads behind 2¹⁶, as far as its text fits. -/
def TameName (bytes : List UInt8) : Nat → Nat → Nat → Prop
  | 0, _, _ => True
  | hops + 1, off, size =>
    ∀ lab, bytes[off]? = some lab →
      if isPointer lab then
        ∀ low, bytes[off + 1]? = some low → TameName bytes hops (pointer lab low) size
      else
        lab = 0 ∨ dnsMaxName < sizeWith size lab ∨
          (isLabel lab = true ∧ off + 1 + lab.toNat < 2 ^ 16 ∧
            (off + 1 + lab.toNat ≤ bytes.length →
              TameName bytes hops (off + 1 + lab.toNat) (sizeWith size lab)))

/-- The same, of a name that is passed over. -/
def TameEnd (bytes : List UInt8) : Nat → Nat → Prop
  | 0, _ => True
  | hops + 1, off =>
    ∀ lab, bytes[off]? = some lab →
      isPointer lab = true ∨ lab = 0 ∨
        (isLabel lab = true ∧ off + 1 + lab.toNat < 2 ^ 16 ∧
          (off + 1 + lab.toNat ≤ bytes.length → TameEnd bytes hops (off + 1 + lab.toNat)))

def TameQuestions (bytes : List UInt8) : Nat → Nat → Prop
  | 0, _ => True
  | count + 1, off =>
    TameEnd bytes 512 off ∧
      ∀ next, nameEndAt bytes 512 off = some next →
        next + 4 < 2 ^ 16 ∧ (next + 4 ≤ bytes.length → TameQuestions bytes count (next + 4))

def TameFirst (bytes : List UInt8) : Nat → Nat → Prop
  | 0, _ => True
  | count + 1, off =>
    TameName bytes 512 off 0 ∧
      ∀ qname next, hostAt bytes off = some (qname, next) →
        next + 4 < 2 ^ 16 ∧ (next + 4 ≤ bytes.length → TameQuestions bytes count (next + 4))

def TameRecords (bytes : List UInt8) : Nat → Nat → Prop
  | 0, _ => True
  | count + 1, off =>
    TameName bytes 512 off 0 ∧
      ∀ owner next, hostAt bytes off = some (owner, next) →
        next + 10 < 2 ^ 16 ∧
          (next + 10 ≤ bytes.length →
            next + 10 + field bytes (next + 8) 2 < 2 ^ 16 ∧
              ∀ record, recordAt bytes off = some record → TameRecords bytes count record.next)

/-- Where the message is read, no length leads behind 2¹⁶, and no length byte is reserved. -/
def Tame (bytes : List UInt8) : Prop :=
  isResponse bytes = true →
    TameFirst bytes (field bytes 4 2) 12 ∧
      ∀ qname off, questionsAt bytes (field bytes 4 2) 12 = some (qname, off) →
        TameRecords bytes (field bytes 6 2) off

/-! ## Reads inside the datagram -/

variable {d : Datagram}

theorem byte_some {off : Nat} {b : UInt8} (found : d.bytes[off]? = some b) : d.byte off = .ok b := by
  rw [Datagram.byte, found]

theorem off_lt {off : Nat} {b : UInt8} (found : d.bytes[off]? = some b) : off < d.bytes.length :=
  (List.getElem?_eq_some_iff.mp found).1

theorem drop_cons {off : Nat} {b : UInt8} (found : d.bytes[off]? = some b) :
    d.bytes.drop off = b :: d.bytes.drop (off + 1) := by
  obtain ⟨inside, rfl⟩ := List.getElem?_eq_some_iff.mp found
  exact List.drop_eq_getElem_cons inside

theorem found_at {off : Nat} (inside : off < d.bytes.length) : ∃ b, d.bytes[off]? = some b :=
  ⟨_, List.getElem?_eq_getElem inside⟩

theorem getU16_field {off : Nat} (inside : off + 2 ≤ d.bytes.length) :
    getU16 d off = .ok (some (field d.bytes off 2)) := by
  obtain ⟨a, first⟩ := @found_at d off (by omega)
  obtain ⟨b, second⟩ := @found_at d (off + 1) (by omega)
  have enough : ¬d.len < off + 2 := by rw [Datagram.len]; omega
  simp only [getU16, enough, if_false, byte_some first, byte_some second]
  rw [field, drop_cons first, drop_cons second]
  simp [number]
  rfl

theorem getU32_field {off : Nat} (inside : off + 4 ≤ d.bytes.length) :
    getU32 d off = .ok (some (field d.bytes off 4)) := by
  obtain ⟨a, first⟩ := @found_at d off (by omega)
  obtain ⟨b, second⟩ := @found_at d (off + 1) (by omega)
  obtain ⟨c, third⟩ := @found_at d (off + 2) (by omega)
  obtain ⟨e, fourth⟩ := @found_at d (off + 3) (by omega)
  have enough : ¬d.len < off + 4 := by rw [Datagram.len]; omega
  simp only [getU32, enough, if_false, byte_some first, byte_some second, byte_some third, byte_some fourth]
  rw [field, drop_cons first, drop_cons second, drop_cons third, drop_cons fourth]
  simp [number]
  rfl

theorem word_small {n : Nat} (small : n < 2 ^ 16) : word n = n :=
  Nat.mod_eq_of_lt small

/-! ## Names -/

/-- The text of a name whose first labels are in the buffer. -/
def extend (out : Text) (labels : List Text) : Text :=
  if out = [] then nameText labels else out ++ Lib.join 46 labels

theorem extend_cons {out label : Text} (nonempty : label ≠ []) (labels : List Text) :
    extend out (label :: labels) = extend ((if out = [] then out else out ++ [46]) ++ label) labels := by
  by_cases empty : out = []
  · simp [extend, empty, nonempty, nameText]
  · simp [extend, empty]

theorem length_extend (out : Text) (labels : List Text) : out.length ≤ (extend out labels).length := by
  unfold extend
  split
  · next empty => simp [empty]
  · simp

theorem nameAt_bounds {bytes : List UInt8} {hops off next : Nat} {labels : List Text}
    (name : nameAt bytes hops off = some (labels, next)) : off < next ∧ next ≤ bytes.length := by
  induction hops generalizing off labels next with
  | zero => nomatch name
  | succ hops ih =>
    rw [nameAt] at name
    cases found : bytes[off]? with
    | none => rw [found] at name; nomatch name
    | some lab =>
      have inside := (List.getElem?_eq_some_iff.mp found).1
      simp only [found] at name
      split at name
      · cases second : bytes[off + 1]? with
        | none => rw [second] at name; nomatch name
        | some low =>
          have inside' := (List.getElem?_eq_some_iff.mp second).1
          simp only [second, Option.map_eq_some_iff, Prod.mk.injEq] at name
          obtain ⟨_, -, -, rfl⟩ := name
          omega
      · split at name
        · simp only [Option.some.injEq, Prod.mk.injEq] at name
          omega
        · split at name
          · simp only [Option.map_eq_some_iff, Prod.mk.injEq] at name
            obtain ⟨⟨labels', next'⟩, rest, -, rfl⟩ := name
            have bounds := ih rest
            exact ⟨by omega, bounds.2⟩
          · nomatch name

/-- The buffer before a label is put behind it. -/
def dotted (out : Text) : Text :=
  if out = [] then out else out ++ [46]

theorem putDot_dotted {out : Text} (short : out.length ≤ dnsMaxName) : putDot out = .ok (dotted out) := by
  have room : out.length < outSize := Nat.lt_succ_of_le short
  by_cases empty : out = []
  · simp [putDot, dotted, empty]
  · rw [putDot, if_pos ⟨empty, room⟩, put, if_pos (by rw [List.length_singleton]; exact room), dotted, if_neg empty]

theorem length_dotted (out : Text) (lab : UInt8) : (dotted out).length + lab.toNat = sizeWith out.length lab := by
  by_cases empty : out = []
  · simp [dotted, empty, sizeWith]
  · have some_ : out.length ≠ 0 := mt List.eq_nil_of_length_eq_zero empty
    simp [dotted, empty, sizeWith]

/-- What the walk over a name returns. -/
def readResult (startOff : Nat) (out : Text) (jumped : Option Nat) :
    Option (List Text × Nat) → Option (Text × Nat)
  | none => none
  | some (labels, next) =>
    if (extend out labels).length ≤ dnsMaxName then
      some (extend out labels, jumped.getD (wordSub next startOff))
    else none

theorem readNameLoop_eq {startOff guard off : Nat} {out : Text} {jumped : Option Nat}
    (short : out.length ≤ dnsMaxName) (tame : TameName d.bytes guard off out.length) :
    readNameLoop d startOff guard off out jumped =
      .ok (readResult startOff out jumped (nameAt d.bytes guard off)) := by
  induction guard generalizing off out jumped with
  | zero => rfl
  | succ guard ih =>
    rw [readNameLoop, nameAt]
    by_cases outside : d.len ≤ off
    · have missing : d.bytes[off]? = none := List.getElem?_eq_none outside
      simp only [outside, if_true, missing, readResult]
      rfl
    obtain ⟨lab, found⟩ := @found_at d off (Nat.lt_of_not_le outside)
    rw [TameName] at tame
    have tameHere := tame lab found
    simp only [outside, if_false, found, byte_some found, bind, Except.bind, pure, Except.pure]
    by_cases jumps : isPointer lab = true
    · rw [if_pos jumps] at tameHere
      simp only [jumps, if_true]
      by_cases cut : d.len ≤ off + 1
      · have missing : d.bytes[off + 1]? = none := List.getElem?_eq_none cut
        simp only [cut, if_true, missing, readResult]
      obtain ⟨low, second⟩ := @found_at d (off + 1) (Nat.lt_of_not_le cut)
      simp only [cut, if_false, second, byte_some second]
      by_cases far : d.len ≤ pointer lab low
      · have missing : nameAt d.bytes guard (pointer lab low) = none := by
          cases guard with
          | zero => rfl
          | succ guard => rw [nameAt, List.getElem?_eq_none far]
        simp only [far, if_true, missing, Option.map_none, readResult]
      · simp only [far, if_false]
        rw [ih short (tameHere low second)]
        cases nameAt d.bytes guard (pointer lab low) with
        | none => simp only [readResult, Option.map_none]
        | some name =>
          rw [Option.map_some, readResult, readResult]
          rw [Option.getD_some]
    rw [if_neg jumps] at tameHere
    simp only [jumps, Bool.false_eq_true, if_false]
    by_cases ends : lab = 0
    · have text : putRoot out = .ok (extend out []) := by
        by_cases empty : out = []
        · simp only [putRoot, empty, if_true]
          rfl
        · simp [putRoot, empty, extend]
      have fits : (extend out []).length ≤ dnsMaxName := by
        by_cases empty : out = []
        · simp [empty, extend, nameText, dnsMaxName]
        · simpa [empty, extend] using short
      have room : ¬outSize ≤ (extend out []).length := by
        unfold outSize
        omega
      have terminated : put (extend out []) [0] = .ok (extend out [] ++ [0]) := by
        rw [put, if_pos]
        rw [List.length_singleton, outSize]
        omega
      simp only [ends, if_true, text, room, if_false, terminated]
      rw [readResult, if_pos fits]
    have nonzero : lab.toNat ≠ 0 := fun zero => ends (UInt8.toNat_inj.mp zero)
    have size := length_dotted out lab
    have dots : (dotted out).length ≤ outSize := by
      rw [dotted]
      split <;> simp [outSize] <;> omega
    have small : word ((dotted out).length + lab.toNat) = (dotted out).length + lab.toNat := by
      apply word_small
      have := lab.toNat_lt
      unfold outSize dnsMaxName at dots
      omega
    simp only [ends, if_false, putDot_dotted short, small]
    by_cases long : dnsMaxName < sizeWith out.length lab
    · have full : outSize ≤ (dotted out).length + lab.toNat := by rw [size]; exact long
      simp only [full, if_true, ite_self]
      by_cases inside : isLabel lab = true ∧ off + 1 + lab.toNat ≤ d.bytes.length
      · rw [if_pos inside]
        cases nameAt d.bytes guard (off + 1 + lab.toNat) with
        | none => rfl
        | some name =>
          have label : ((d.bytes.drop (off + 1)).take lab.toNat).length = lab.toNat := by
            rw [List.length_take, List.length_drop]
            omega
          have nonempty : (d.bytes.drop (off + 1)).take lab.toNat ≠ [] := by
            intro empty
            rw [empty] at label
            exact nonzero label.symm
          have more := length_extend (dotted out ++ (d.bytes.drop (off + 1)).take lab.toNat) name.1
          rw [List.length_append, label, size] at more
          rw [Option.map_some, readResult, extend_cons nonempty, if_neg]
          rw [dotted] at more
          omega
      · rw [if_neg inside]
        rfl
    rcases tameHere with zero | long' | ⟨plain, near, rest⟩
    · exact absurd zero ends
    · exact absurd long' long
    have notFull : ¬outSize ≤ (dotted out).length + lab.toNat := by
      rw [size]
      unfold outSize
      omega
    rw [word_small near]
    by_cases cut : d.len < off + 1 + lab.toNat
    · have outside : ¬(isLabel lab = true ∧ off + 1 + lab.toNat ≤ d.bytes.length) :=
        fun inside => Nat.not_lt_of_le inside.2 cut
      simp only [cut, if_true]
      rw [if_neg outside]
      rfl
    have inside : off + 1 + lab.toNat ≤ d.bytes.length := Nat.le_of_not_lt cut
    have start : word (off + 1) = off + 1 := word_small (by omega)
    have label : ((d.bytes.drop (off + 1)).take lab.toNat).length = lab.toNat := by
      rw [List.length_take, List.length_drop]
      omega
    have nonempty : (d.bytes.drop (off + 1)).take lab.toNat ≠ [] := by
      intro empty
      rw [empty] at label
      exact nonzero label.symm
    have copied : d.slice (off + 1) lab.toNat = .ok ((d.bytes.drop (off + 1)).take lab.toNat) := by
      rw [Datagram.slice]
      exact if_pos inside
    have written : put (dotted out) ((d.bytes.drop (off + 1)).take lab.toNat) =
        .ok (dotted out ++ (d.bytes.drop (off + 1)).take lab.toNat) := by
      rw [put, if_pos]
      rw [label]
      exact Nat.le_of_not_le notFull
    have length : (dotted out ++ (d.bytes.drop (off + 1)).take lab.toNat).length = sizeWith out.length lab := by
      rw [List.length_append, label, size]
    simp only [cut, if_false, notFull, start, copied, written]
    rw [ih (by rw [length]; exact Nat.le_of_not_lt long) (by rw [length]; exact rest inside)]
    rw [if_pos ⟨plain, inside⟩]
    cases nameAt d.bytes guard (off + 1 + lab.toNat) with
    | none => rfl
    | some name =>
      rw [Option.map_some, readResult, readResult, extend_cons nonempty]
      rfl

theorem readResult_host (off : Nat) :
    readResult off [] none (nameAt d.bytes 512 off) =
      (hostAt d.bytes off).map fun host => (host.1, wordSub host.2 off) := by
  rw [hostAt]
  cases nameAt d.bytes 512 off with
  | none => rfl
  | some name =>
    obtain ⟨labels, next⟩ := name
    have text : extend [] labels = nameText labels := if_pos rfl
    by_cases fits : (nameText labels).length ≤ dnsMaxName
    · rw [readResult, text, if_pos fits]
      dsimp only
      rw [if_pos fits, Option.map_some, Option.getD_none]
    · rw [readResult, text, if_neg fits]
      dsimp only
      rw [if_neg fits, Option.map_none]

theorem dnsReadName_eq {off : Nat} (tame : TameName d.bytes 512 off 0) :
    dnsReadName d off = .ok ((hostAt d.bytes off).map fun host => (host.1, wordSub host.2 off)) := by
  have start : ([] : Text).length ≤ dnsMaxName := Nat.zero_le _
  rw [dnsReadName, readNameLoop_eq start tame, readResult_host]

theorem hostAt_bounds {off next : Nat} {text : Text} (host : hostAt d.bytes off = some (text, next)) :
    off < next ∧ next ≤ d.bytes.length := by
  unfold hostAt at host
  split at host
  · nomatch host
  · next name =>
    split at host
    · obtain ⟨-, rfl⟩ : _ = text ∧ _ = next := by simpa using host
      exact nameAt_bounds name
    · nomatch host

/-- The offset behind a name, from the bytes that it takes. -/
theorem word_consumed {off next : Nat} (ahead : off < next) (small : next < 2 ^ 16) :
    word (off + wordSub next off) = next := by
  unfold word wordSub
  omega

theorem skipNameLoop_eq {guard pos : Nat} (tame : TameEnd d.bytes guard pos) :
    skipNameLoop d guard pos = .ok (nameEndAt d.bytes guard pos) := by
  induction guard generalizing pos with
  | zero => rfl
  | succ guard ih =>
    rw [skipNameLoop, nameEndAt]
    by_cases outside : d.len ≤ pos
    · have missing : d.bytes[pos]? = none := List.getElem?_eq_none outside
      simp only [outside, if_true, missing]
      rfl
    have short := d.fits
    obtain ⟨lab, found⟩ := @found_at d pos (Nat.lt_of_not_le outside)
    have inside := off_lt found
    rw [TameEnd] at tame
    have tameHere := tame lab found
    simp only [outside, if_false, found, byte_some found, bind, Except.bind, pure, Except.pure]
    by_cases jumps : isPointer lab = true
    · rw [word_small (show pos + 1 < 2 ^ 16 by omega)]
      simp only [jumps, if_true]
      by_cases cut : d.len ≤ pos + 1
      · have missing : ¬pos + 1 < d.bytes.length := Nat.not_lt_of_le cut
        simp only [cut, if_true]
        rw [if_neg missing]
      · have inside' : pos + 1 < d.bytes.length := Nat.lt_of_not_le cut
        simp only [cut, if_false]
        rw [if_pos inside', word_small (by omega)]
    simp only [jumps, Bool.false_eq_true, if_false]
    by_cases ends : lab = 0
    · simp only [ends, if_true]
      rw [word_small (by omega)]
    simp only [ends, if_false]
    rcases tameHere with jump | zero | ⟨plain, near, rest⟩
    · exact absurd jump jumps
    · exact absurd zero ends
    rw [word_small near]
    by_cases cut : d.len < pos + 1 + lab.toNat
    · have behind : ¬(isLabel lab = true ∧ pos + 1 + lab.toNat ≤ d.bytes.length) :=
        fun inside => Nat.not_lt_of_le inside.2 cut
      simp only [cut, if_true]
      rw [if_neg behind]
    · have before : pos + 1 + lab.toNat ≤ d.bytes.length := Nat.le_of_not_lt cut
      simp only [cut, if_false]
      rw [if_pos ⟨plain, before⟩]
      exact ih (rest before)

theorem nameEndAt_bounds {bytes : List UInt8} {hops off next : Nat}
    (name : nameEndAt bytes hops off = some next) : next ≤ bytes.length := by
  induction hops generalizing off with
  | zero => nomatch name
  | succ hops ih =>
    rw [nameEndAt] at name
    cases found : bytes[off]? with
    | none => rw [found] at name; nomatch name
    | some lab =>
      have inside := (List.getElem?_eq_some_iff.mp found).1
      simp only [found] at name
      split at name
      · split at name
        · obtain rfl := Option.some.inj name
          omega
        · nomatch name
      · split at name
        · obtain rfl := Option.some.inj name
          omega
        · split at name
          · exact ih name
          · nomatch name

/-! ## Messages -/

theorem skipQuestions_eq {count off : Nat} (tame : TameQuestions d.bytes count off) :
    skipQuestions d count off = .ok (questionsEnd d.bytes count off) := by
  induction count generalizing off with
  | zero => rfl
  | succ count ih =>
    obtain ⟨tameEnd, rest⟩ := tame
    rw [skipQuestions, questionsEnd, dnsSkipName, skipNameLoop_eq tameEnd]
    cases ended : nameEndAt d.bytes 512 off with
    | none => rfl
    | some next =>
      obtain ⟨near, tameRest⟩ := rest next ended
      simp only [bind, Except.bind, pure, Except.pure]
      rw [word_small near]
      by_cases cut : d.len < next + 4
      · have behind : ¬next + 4 ≤ d.bytes.length := Nat.not_le_of_lt cut
        simp only [cut, if_true]
        rw [if_neg behind]
      · have before : next + 4 ≤ d.bytes.length := Nat.le_of_not_lt cut
        simp only [cut, if_false]
        rw [if_pos before]
        exact ih (tameRest before)

/-- The first question, behind a name that is read. -/
theorem readQuestions_named {count off length : Nat} {qname : Text}
    (read : dnsReadName d off = .ok (some (qname, length))) :
    readQuestions d (count + 1) off =
      if d.len < word (word (off + length) + 4) then .ok none
      else (skipQuestions d count (word (word (off + length) + 4))).map fun next =>
        next.map fun off => (some qname, off) := by
  rw [readQuestions, read]
  by_cases cut : d.len < word (word (off + length) + 4)
  · rw [if_pos cut]
    exact if_pos cut
  · rw [if_neg cut]
    refine (if_neg cut).trans ?_
    rcases skipQuestions d count (word (word (off + length) + 4)) with _ | _ | _
    · rfl
    · rfl
    · rfl

theorem readQuestions_eq {count off : Nat} (tame : TameFirst d.bytes count off) :
    readQuestions d count off = .ok (questionsAt d.bytes count off) := by
  cases count with
  | zero => rfl
  | succ count =>
    obtain ⟨tameName, rest⟩ := tame
    have read := dnsReadName_eq tameName
    rw [questionsAt]
    cases found : hostAt d.bytes off with
    | none =>
      rw [found, Option.map_none] at read
      rw [readQuestions, read]
      rfl
    | some host =>
      obtain ⟨qname, next⟩ := host
      obtain ⟨near, tameRest⟩ := rest qname next found
      have bounds := hostAt_bounds found
      have consumed : word (off + wordSub next off) = next := word_consumed bounds.1 (by omega)
      rw [found, Option.map_some] at read
      rw [readQuestions_named read, consumed, word_small near]
      dsimp only
      by_cases cut : d.len < next + 4
      · have behind : ¬next + 4 ≤ d.bytes.length := Nat.not_le_of_lt cut
        rw [if_pos cut, if_neg behind]
      · have before : next + 4 ≤ d.bytes.length := Nat.le_of_not_lt cut
        rw [if_neg cut, if_pos before, skipQuestions_eq (tameRest before)]
        cases questionsEnd d.bytes count (next + 4) with
        | none => rfl
        | some off => rfl

/-- What is reported of some records. -/
def reports (qname : Option Text) (records : List Record) : List (Text × Nat) :=
  (records.filter Record.isAddress).map fun record => (qname.getD record.owner, number record.data)

theorem reports_cons (qname : Option Text) (record : Record) (records : List Record) :
    reports qname (record :: records) =
      if record.isAddress then (qname.getD record.owner, number record.data) :: reports qname records
      else reports qname records := by
  rw [reports, List.filter_cons]
  split <;> rfl

theorem readAnswers_eq {qname : Option Text} {count off : Nat} (tame : TameRecords d.bytes count off) :
    readAnswers d qname count off = .ok (reports qname (recordsAt d.bytes count off)) := by
  induction count generalizing off with
  | zero => rfl
  | succ count ih =>
    obtain ⟨tameName, rest⟩ := tame
    have read := dnsReadName_eq tameName
    rw [recordsAt]
    cases found : hostAt d.bytes off with
    | none =>
      have none_ : recordAt d.bytes off = none := by rw [recordAt, found]
      rw [found, Option.map_none] at read
      rw [none_, readAnswers, read]
      rfl
    | some host =>
      obtain ⟨owner, next⟩ := host
      obtain ⟨near, tameRest⟩ := rest owner next found
      have bounds := hostAt_bounds found
      have consumed : word (off + wordSub next off) = next := word_consumed bounds.1 (by omega)
      have recorded := recordAt.eq_1 d.bytes off
      rw [found] at recorded
      dsimp only at recorded
      rw [found, Option.map_some] at read
      generalize wordSub next off = gone at read consumed
      rw [readAnswers, read]
      simp only [bind, Except.bind, pure, Except.pure, consumed]
      rw [word_small near]
      by_cases cut : d.len < next + 10
      · rw [if_neg fun inside => Nat.not_lt_of_le inside.1 cut] at recorded
        simp only [cut, if_true, recorded]
        rfl
      have before : next + 10 ≤ d.bytes.length := Nat.le_of_not_lt cut
      obtain ⟨near', tameRecords⟩ := tameRest before
      simp only [cut, if_false]
      rw [word_small (show next + 2 < 2 ^ 16 by omega), word_small (show next + 4 < 2 ^ 16 by omega),
        word_small (show next + 8 < 2 ^ 16 by omega)]
      rw [getU16_field (show next + 2 ≤ d.bytes.length by omega),
        getU16_field (show next + 2 + 2 ≤ d.bytes.length by omega),
        getU32_field (show next + 4 + 4 ≤ d.bytes.length by omega),
        getU16_field (show next + 8 + 2 ≤ d.bytes.length by omega)]
      dsimp only
      rw [word_small near']
      generalize field d.bytes (next + 8) 2 = rdlen at near' recorded ⊢
      by_cases cut' : d.len < next + 10 + rdlen
      · rw [if_neg fun inside => Nat.not_lt_of_le inside.2 cut'] at recorded
        simp only [cut', if_true, recorded]
        rfl
      have inside : next + 10 + rdlen ≤ d.bytes.length := Nat.le_of_not_lt cut'
      rw [if_pos ⟨before, inside⟩] at recorded
      have length : ((d.bytes.drop (next + 10)).take rdlen).length = rdlen := by
        rw [List.length_take, List.length_drop]
        omega
      have tameNext := tameRecords _ recorded
      simp only [cut', if_false]
      rw [ih tameNext, recorded]
      dsimp only
      rw [reports_cons, Record.isAddress]
      dsimp only
      rw [length]
      by_cases address : field d.bytes (next + 2) 2 = 1 ∧ field d.bytes next 2 = 1 ∧ rdlen = 4
      · have data : getU32 d (next + 10) = .ok (some (number ((d.bytes.drop (next + 10)).take rdlen))) := by
          rw [address.2.2]
          exact getU32_field (by omega)
        have same : field d.bytes next 2 = 1 ∧ field d.bytes (next + 2) 2 = 1 ∧ rdlen = 4 :=
          ⟨address.2.1, address.1, address.2.2⟩
        rw [if_pos address, data, if_pos (decide_eq_true same)]
      · have other : ¬(field d.bytes next 2 = 1 ∧ field d.bytes (next + 2) 2 = 1 ∧ rdlen = 4) :=
          fun both => address ⟨both.2.1, both.1, both.2.2⟩
        rw [if_neg address, if_neg (by simpa using other)]

/-- A tame message is parsed without a fault, and its addresses are reported. -/
theorem dns_answers (d : Datagram) (tame : Tame d.bytes) : dnsAnswersProcessUdp d = .ok (reported d.bytes) := by
  rw [dnsAnswersProcessUdp, reported]
  by_cases short : d.len < 12
  · have notResponse : isResponse d.bytes = false := by
      have few : ¬12 ≤ d.bytes.length := Nat.not_le_of_lt short
      simp [isResponse, few]
    simp only [short, if_true, notResponse, Bool.false_eq_true, if_false]
    rfl
  have long : 12 ≤ d.bytes.length := Nat.le_of_not_lt short
  simp only [short, if_false, bind, Except.bind, pure, Except.pure]
  rw [getU16_field (show 2 + 2 ≤ d.bytes.length by omega), getU16_field (show 4 + 2 ≤ d.bytes.length by omega),
    getU16_field (show 6 + 2 ≤ d.bytes.length by omega)]
  dsimp only
  by_cases query : field d.bytes 2 2 &&& 0x8000 = 0
  · simp [query, isResponse]
  by_cases failed : field d.bytes 2 2 &&& 0x000F ≠ 0
  · simp [failed, query, isResponse]
  have response : isResponse d.bytes = true := by
    simp only [isResponse, long, query, not_not.mp failed, ne_eq, not_false_eq_true, and_self, decide_true]
  obtain ⟨first, answers⟩ := tame response
  simp only [query, failed, if_false, response, if_true]
  rw [readQuestions_eq first]
  cases asked : questionsAt d.bytes (field d.bytes 4 2) 12 with
  | none => rfl
  | some questions =>
    obtain ⟨qname, off⟩ := questions
    dsimp only
    rw [readAnswers_eq (answers qname off asked)]
    rfl

/-! ## Two messages -/

theorem tameName_root {bytes : List UInt8} {hops off size : Nat} (found : bytes[off]? = some 0) :
    TameName bytes (hops + 1) off size := by
  intro lab found'
  obtain rfl : 0 = lab := Option.some.inj (found.symm.trans found')
  exact .inl rfl

theorem tameName_label {bytes : List UInt8} {hops off size : Nat} {lab : UInt8}
    (found : bytes[off]? = some lab) (plain : isLabel lab = true) (other : isPointer lab = false)
    (near : off + 1 + lab.toNat < 2 ^ 16) (rest : TameName bytes hops (off + 1 + lab.toNat) (sizeWith size lab)) :
    TameName bytes (hops + 1) off size := by
  intro lab' found'
  obtain rfl : lab = lab' := Option.some.inj (found.symm.trans found')
  rw [if_neg (by rw [other]; exact Bool.false_ne_true)]
  exact .inr (.inr ⟨plain, near, fun _ => rest⟩)

/-- A response with the address of the host `a`, and no question. -/
def oneAnswer : Datagram where
  bytes := [0, 1, 0x80, 0, 0, 0, 0, 1, 0, 0, 0, 0, 1, 97, 0, 0, 1, 0, 1, 0, 0, 0, 0, 0, 4, 1, 2, 3, 4]
  fits := by decide

theorem oneAnswer_tame : Tame oneAnswer.bytes := by
  intro _
  refine ⟨True.intro, ?_⟩
  intro qname off asked
  obtain ⟨-, rfl⟩ : none = qname ∧ 12 = off := by
    have questions : questionsAt oneAnswer.bytes 0 12 = some (qname, off) := asked
    simpa [questionsAt] using questions
  refine ⟨tameName_label rfl rfl rfl (by decide) (tameName_root rfl), ?_⟩
  intro owner next host
  obtain ⟨-, rfl⟩ : [97] = owner ∧ 15 = next := by
    have first : some (([97], 15) : Text × Nat) = some (owner, next) := host
    simpa using first
  exact ⟨by decide, fun _ => ⟨by decide, fun _ _ => True.intro⟩⟩

theorem dns_answers_one :
    dnsAnswersProcessUdp oneAnswer = .ok (reported oneAnswer.bytes) ∧
      reported oneAnswer.bytes = [([97], 0x01020304)] :=
  ⟨dns_answers oneAnswer oneAnswer_tame, rfl⟩

/-- The first record's data would reach behind 2¹⁶, where 16 bits lead back into its owner's name, which holds
the bytes of a record. -/
def backwards : Datagram where
  bytes :=
    [0, 1, 0x80, 0, 0, 0, 0, 2, 0, 0, 0, 0] ++
      [15, 0, 0, 1, 0, 1, 0, 0, 0, 0, 0, 4, 1, 2, 3, 4, 0] ++ [0, 16, 0, 1, 0, 0, 0, 0, 0xFF, 0xE6]
  fits := by decide

/-- An address is reported behind a malformed record. -/
theorem wrapped_record :
    dnsAnswersProcessUdp backwards = .ok [([46], 0x01020304)] ∧ reported backwards.bytes = [] := by
  decide

end FuseX.Nic.Dns
