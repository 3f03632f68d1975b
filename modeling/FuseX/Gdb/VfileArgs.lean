import FuseX.Gdb.Vfile

/-!
# What the file requests cut out of memory

A subcommand that takes its arguments with the length of their string reads them as that
string says and as nothing behind it can change: `openArgs_string` and its siblings.
`mvArgs` is different, it looks for its comma as far as the length it is given goes; what it
comes to is said by the memory and that length (`mvArgs_isSome`, `mvArgs_paths`).
-/

namespace FuseX.Gdb

open Lib

/-! ## Fields -/

/-- `parse_hex_u32` on a string: the number and the rest. -/
def numberOf (v : UInt32) (any : Bool) : Bytes → Option (UInt32 × Bytes)
  | [] => if any then some (v, []) else none
  | c :: s =>
      match hexNib c with
      | none => if any then some (v, c :: s) else none
      | some n => numberOf (v <<< 4 ||| UInt32.ofNat n) true s

theorem parseHexU32_string (v : UInt32) (any : Bool) (s behind : Bytes) :
    parseHexU32 v any (s ++ behind) s.length =
      some ((numberOf v any s).map fun (w, q) => (w, q ++ behind, q.length)) := by
  induction s generalizing v any with
  | nil =>
    rw [List.length_nil, parseHexU32, numberOf]
    cases any <;> rfl
  | cons c s ih =>
    rw [List.cons_append, List.length_cons, parseHexU32, numberOf]
    cases hexNib c with
    | none => cases any <;> rfl
    | some n => exact ih _ _

/-- A field of hex digits. -/
def HexField (f : Bytes) : Prop := f ≠ [] ∧ ∀ c ∈ f, (hexNib c).isSome

theorem numberOf_spec {v w : UInt32} {any : Bool} {s q : Bytes}
    (number : numberOf v any s = some (w, q)) :
    ∃ f, s = f ++ q ∧ (∀ c ∈ f, (hexNib c).isSome) ∧ (any = true ∨ f ≠ []) := by
  induction s generalizing v any with
  | nil =>
    cases any with
    | false => cases number
    | true =>
      cases number
      exact ⟨[], rfl, nofun, .inl rfl⟩
  | cons c s ih =>
    rw [numberOf] at number
    rcases digit : hexNib c with _ | n
    · rw [digit] at number
      cases any with
      | false => cases number
      | true =>
        cases number
        exact ⟨[], rfl, nofun, .inl rfl⟩
    · rw [digit] at number
      obtain ⟨f, shape, digits, -⟩ := ih number
      refine ⟨c :: f, by rw [shape, List.cons_append], fun d inField => ?_, .inr nofun⟩
      rcases List.mem_cons.mp inField with rfl | inField
      · rw [digit]
        rfl
      · exact digits d inField

theorem hexNib_comma : hexNib (ascii ',') = none := by decide

theorem numberOf_digits {f : Bytes} (digits : ∀ c ∈ f, (hexNib c).isSome) (q : Bytes)
    (v : UInt32) {any : Bool} (some_ : any = true ∨ f ≠ []) :
    ∃ w, numberOf v any (f ++ ascii ',' :: q) = some (w, ascii ',' :: q) := by
  induction f generalizing v any with
  | nil =>
    obtain rfl : any = true := some_.resolve_right fun differs => differs rfl
    rw [List.nil_append, numberOf, hexNib_comma]
    exact ⟨v, rfl⟩
  | cons c f ih =>
    obtain ⟨n, digit⟩ := Option.isSome_iff_exists.mp (digits c List.mem_cons_self)
    rw [List.cons_append, numberOf, digit]
    exact ih (fun d inField => digits d (List.mem_cons_of_mem c inField)) _ (.inl rfl)

/-- A number and a comma on a string: the number and what is behind the comma. -/
def fieldOf (s : Bytes) : Option (UInt32 × Bytes) :=
  (numberOf 0 false s).bind fun
    | (v, c :: s) => if c = ascii ',' then some (v, s) else none
    | (_, []) => none

theorem parseField_string (s behind : Bytes) :
    parseField (s ++ behind) s.length =
      some ((fieldOf s).map fun (v, q) => (v, q ++ behind, q.length)) := by
  rw [parseField, parseHexU32_string, fieldOf, Arg.andThen]
  rcases numberOf 0 false s with _ | ⟨v, _ | ⟨c, q⟩⟩
  · rfl
  · rcases behind with _ | ⟨d, behind⟩ <;> rfl
  · show some (if c = ascii ',' then some (v, q ++ behind, q.length) else none) =
      some (Option.map _ (if c = ascii ',' then some (v, q) else none))
    split <;> rfl

theorem fieldOf_spec {s q : Bytes} {v : UInt32} (field : fieldOf s = some (v, q)) :
    ∃ f, HexField f ∧ s = f ++ ascii ',' :: q := by
  obtain ⟨⟨w, rest⟩, number, cut⟩ := Option.bind_eq_some_iff.mp field
  obtain ⟨f, shape, digits, nonempty⟩ := numberOf_spec number
  rcases rest with _ | ⟨c, rest⟩
  · cases cut
  · dsimp only at cut
    split at cut
    · next comma =>
      cases cut
      exact ⟨f, ⟨nonempty.resolve_left nofun, digits⟩, by rw [shape, comma]⟩
    · cases cut

theorem fieldOf_eq {f : Bytes} (hex : HexField f) (q : Bytes) :
    ∃ v, fieldOf (f ++ ascii ',' :: q) = some (v, q) := by
  obtain ⟨v, number⟩ := numberOf_digits hex.2 q 0 (Or.inr hex.1 : false = true ∨ f ≠ [])
  refine ⟨v, ?_⟩
  rw [fieldOf, number, Option.bind_some]
  exact if_pos rfl

/-- What is behind a field has no NUL either. -/
theorem fieldOf_plain {s q : Bytes} {v : UInt32} (field : fieldOf s = some (v, q))
    (plain : 0 ∉ s) : 0 ∉ q := by
  obtain ⟨f, -, rfl⟩ := fieldOf_spec field
  exact fun inRest => plain (List.mem_append_right _ (List.mem_cons_of_mem _ inRest))

/-! ## The arguments of a string -/

section Strings

variable {s : Bytes} (plain : 0 ∉ s) (behind : Bytes)
include plain

theorem hexDecodeString_string (outSize : Nat) :
    hexDecodeString (s ++ 0 :: behind) outSize = some (decodeHex outSize s) := by
  rw [hexDecodeString, stringAt_eq plain]
  rfl

/-- `openArgs` on a string. -/
def openOf (s : Bytes) : Option (UInt32 × Bytes) :=
  (fieldOf s).bind fun (_, s) => (fieldOf s).bind fun (flags, s) =>
    (fieldOf s).bind fun (_, s) => (decodeHex 128 s).map fun path => (flags, path)

theorem openArgs_string : openArgs (s ++ 0 :: behind) s.length = some (openOf s) := by
  rw [openArgs, parseField_string, openOf]
  rcases fd : fieldOf s with _ | ⟨v, q⟩
  · rfl
  rw [Option.map_some, Option.bind_some]
  show (parseField (q ++ 0 :: behind) q.length).andThen _ = _
  rw [parseField_string]
  rcases flags : fieldOf q with _ | ⟨v', q'⟩
  · simp only [flags]
    rfl
  simp only [flags]
  rw [Option.map_some, Option.bind_some]
  show (parseField (q' ++ 0 :: behind) q'.length).andThen _ = _
  rw [parseField_string]
  rcases mode : fieldOf q' with _ | ⟨v'', q''⟩
  · rfl
  have plain' := fieldOf_plain mode (fieldOf_plain flags (fieldOf_plain fd plain))
  show (hexDecodeString (q'' ++ 0 :: behind) 128).map _ = _
  rw [hexDecodeString_string plain']
  rfl

/-- `preadArgs` on a string. -/
def preadOf (s : Bytes) : Option UInt32 :=
  (fieldOf s).bind fun (_, s) => (numberOf 0 false s).map (·.1)

omit plain in
theorem preadArgs_string : preadArgs (s ++ behind) s.length = some (preadOf s) := by
  rw [preadArgs, parseField_string, preadOf]
  rcases fieldOf s with _ | ⟨v, q⟩
  · rfl
  rw [Option.map_some, Option.bind_some]
  show (parseHexU32 0 false (q ++ behind) q.length).map _ = _
  rw [parseHexU32_string, Option.map_some, Option.map_map]
  rfl

/-- `pwriteArgs` on a string: the digits. -/
def pwriteOf (s : Bytes) : Option Bytes :=
  (fieldOf s).bind fun (_, s) => if s.length = 0 ∨ s.length % 2 ≠ 0 then none else some s

omit plain in
theorem pwriteArgs_string : pwriteArgs (s ++ behind) s.length =
    some ((pwriteOf s).map fun hex => (hex ++ behind, hex.length)) := by
  rw [pwriteArgs]
  split
  · next empty =>
    rw [List.eq_nil_of_length_eq_zero empty]
    rfl
  · rw [parseField_string, pwriteOf]
    rcases fieldOf s with _ | ⟨v, q⟩
    · rfl
    show some (if q.length = 0 ∨ q.length % 2 ≠ 0 then none else some (q ++ behind, q.length)) =
      some (Option.map _ (if q.length = 0 ∨ q.length % 2 ≠ 0 then none else some q))
    split <;> rfl

end Strings

theorem pwriteOf_length {s hex : Bytes} (digits : pwriteOf s = some hex) :
    hex.length ≤ s.length := by
  obtain ⟨⟨v, q⟩, field, cut⟩ := Option.bind_eq_some_iff.mp digits
  obtain ⟨f, -, rfl⟩ := fieldOf_spec field
  dsimp only at cut
  split at cut
  · cases cut
  · cases cut
    simp only [List.length_append, List.length_cons]
    omega

/-- The conversion reads two digits for each byte. -/
theorem hexToBin_append {hex : Bytes} {dataLen : Nat} (near : dataLen * 2 ≤ hex.length)
    (behind : Bytes) : hexToBin (hex ++ behind) dataLen = hexToBin hex dataLen := by
  induction dataLen generalizing hex with
  | zero => rfl
  | succ dataLen ih =>
    match hex, near with
    | [], near => rw [List.length_nil] at near; omega
    | [_], near => rw [List.length_singleton] at near; omega
    | hi :: lo :: hex, near =>
      rw [List.length_cons, List.length_cons] at near
      rw [hexToBin, hexToBin]
      show _ :: hexToBin (hex ++ behind) dataLen = _ :: hexToBin hex dataLen
      rw [ih (by omega)]
      rfl

theorem hexToBin_length (hex : Bytes) (dataLen : Nat) :
    (hexToBin hex dataLen).length = dataLen := by
  induction dataLen generalizing hex with
  | zero => rfl
  | succ dataLen ih => rw [hexToBin, List.length_cons, ih]

/-! ## Missing arguments -/

/-- Fewer commas than `commas`, or nothing in one of the fields. The last field is the rest of
the string. -/
def missingField : Nat → Bytes → Bool
  | 0, s => s.isEmpty
  | commas + 1, s =>
      match s.dropWhile (· ≠ ascii ',') with
      | [] => true
      | _ :: rest => (s.takeWhile (· ≠ ascii ',')).isEmpty || missingField commas rest

theorem missingField_field {f : Bytes} (nonempty : f ≠ []) (without : ascii ',' ∉ f)
    (commas : Nat) (q : Bytes) :
    missingField (commas + 1) (f ++ ascii ',' :: q) = missingField commas q := by
  have others : ∀ c ∈ f, decide (c ≠ ascii ',') = true := fun c inField =>
    decide_eq_true fun same => without (same ▸ inField)
  have stop : ¬ (fun c : UInt8 => decide (c ≠ ascii ',')) (ascii ',') = true := by simp
  rw [missingField, List.dropWhile_append_of_pos others, List.takeWhile_append_of_pos others,
    List.dropWhile_cons_of_neg (p := fun c => decide (c ≠ ascii ',')) stop,
    List.takeWhile_cons_of_neg (p := fun c => decide (c ≠ ascii ',')) stop, List.append_nil]
  cases f with
  | nil => exact absurd rfl nonempty
  | cons c f => rfl

theorem HexField.comma_notMem {f : Bytes} (hex : HexField f) : ascii ',' ∉ f := by
  intro inField
  have digit := hex.2 _ inField
  rw [hexNib_comma] at digit
  cases digit

/-- A field that is there leaves the others to be looked at. -/
theorem missingField_fieldOf {s q : Bytes} {v : UInt32} (field : fieldOf s = some (v, q))
    (commas : Nat) : missingField (commas + 1) s = missingField commas q := by
  obtain ⟨f, hex, rfl⟩ := fieldOf_spec field
  exact missingField_field hex.1 hex.comma_notMem commas q

theorem missingField_close {s : Bytes} (missing : missingField 0 s = true) :
    numberOf 0 false s = none := by
  obtain rfl : s = [] := List.isEmpty_iff.mp missing
  rfl

theorem missingField_pread {s : Bytes} (missing : missingField 1 s = true) : preadOf s = none := by
  rw [preadOf]
  rcases field : fieldOf s with _ | ⟨v, q⟩
  · rfl
  · rw [missingField_fieldOf field] at missing
    show (numberOf 0 false q).map _ = none
    rw [missingField_close missing]
    rfl

theorem missingField_pwrite {s : Bytes} (missing : missingField 1 s = true) :
    pwriteOf s = none := by
  rw [pwriteOf]
  rcases field : fieldOf s with _ | ⟨v, q⟩
  · rfl
  · rw [missingField_fieldOf field] at missing
    obtain rfl : q = [] := List.isEmpty_iff.mp missing
    rfl

/-- Three numbers, the comma behind the last of them, and no path. -/
def PathLess (s : Bytes) : Prop :=
  ∃ fd flags mode, HexField fd ∧ HexField flags ∧ HexField mode ∧
    s = fd ++ ascii ',' :: (flags ++ ascii ',' :: (mode ++ [ascii ',']))

theorem missingField_open {s : Bytes} (missing : missingField 3 s = true) :
    openOf s ≠ none ↔ PathLess s := by
  constructor
  · intro parsed
    obtain ⟨⟨flags, path⟩, parsed⟩ := Option.ne_none_iff_exists'.mp parsed
    obtain ⟨⟨v, q⟩, field, parsed⟩ := Option.bind_eq_some_iff.mp parsed
    obtain ⟨⟨v', q'⟩, field', parsed⟩ := Option.bind_eq_some_iff.mp parsed
    obtain ⟨⟨v'', q''⟩, field'', -⟩ := Option.bind_eq_some_iff.mp parsed
    rw [missingField_fieldOf field, missingField_fieldOf field', missingField_fieldOf field'']
      at missing
    obtain rfl : q'' = [] := List.isEmpty_iff.mp missing
    obtain ⟨f, hex, rfl⟩ := fieldOf_spec field
    obtain ⟨f', hex', rfl⟩ := fieldOf_spec field'
    obtain ⟨f'', hex'', rfl⟩ := fieldOf_spec field''
    exact ⟨f, f', f'', hex, hex', hex'', rfl⟩
  · rintro ⟨fd, flags, mode, hex, hex', hex'', rfl⟩
    obtain ⟨v, field⟩ := fieldOf_eq hex (flags ++ ascii ',' :: (mode ++ [ascii ',']))
    obtain ⟨v', field'⟩ := fieldOf_eq hex' (mode ++ [ascii ','])
    obtain ⟨v'', field''⟩ := fieldOf_eq hex'' []
    rw [openOf, field, Option.bind_some]
    dsimp only
    rw [field', Option.bind_some]
    dsimp only
    rw [field'', Option.bind_some]
    dsimp only
    rw [show decodeHex 128 [] = some [] from rfl]
    exact Option.some_ne_none _

/-! ## The arguments of mv -/

/-- The digits of a path that fits. -/
def PathDigits (hex : Bytes) : Prop :=
  ∃ s, stringAt 0 hex = some s ∧ (decodeHex 256 s).isSome

/-- What is in front of the comma is a path. -/
def OldPath (old : Bytes) : Prop := old.length < 512 ∧ PathDigits (old ++ [0])

/-- Where the first comma within `n` places is. -/
def CommaWithin (args : Bytes) (n : Nat) (old rest : Bytes) : Prop :=
  args = old ++ ascii ',' :: rest ∧ ascii ',' ∉ old ∧ old.length < n

theorem commaWithin_iff {args old rest : Bytes} {n : Nat} :
    within (ascii ',') args n = some (some (old, rest)) ↔ CommaWithin args n old rest := by
  constructor
  · exact within_spec
  · rintro ⟨rfl, without, near⟩
    exact within_found without rest near

theorem CommaWithin.unique {args old rest old' rest' : Bytes} {n : Nat}
    (comma : CommaWithin args n old rest) (comma' : CommaWithin args n old' rest') :
    old = old' ∧ rest = rest' := by
  have same := (commaWithin_iff.mpr comma).symm.trans (commaWithin_iff.mpr comma')
  cases same
  exact ⟨rfl, rfl⟩

/-- The slices of `mv` lie in `args`: the length ends there or there is a comma before it does,
and behind the comma there is a NUL when it comes to the second path. -/
def SlicesEnd (args : Bytes) (n : Nat) : Prop :=
  (n ≤ args.length ∧ ascii ',' ∉ args.take n) ∨
    ∃ old rest, CommaWithin args n old rest ∧ (OldPath old → 0 ∈ rest)

/-- Both slices of `mv` are paths. -/
def TwoPaths (args : Bytes) (n : Nat) : Prop :=
  ∃ old rest, CommaWithin args n old rest ∧ OldPath old ∧ PathDigits rest

theorem mvArgs_comma {args old rest : Bytes} {n : Nat} (comma : CommaWithin args n old rest) :
    mvArgs args n = if 512 ≤ old.length then some none
      else (hexDecodeString (old ++ [0]) 256).andThen fun oldPath =>
        (hexDecodeString rest 256).map (Option.map fun newPath => (oldPath, newPath)) := by
  rw [mvArgs, commaWithin_iff.mpr comma]
  rfl

theorem hexDecodeString_paths {hex : Bytes} :
    (∃ path, hexDecodeString hex 256 = some (some path)) ↔ PathDigits hex := by
  constructor
  · rintro ⟨path, decoded⟩
    obtain ⟨s, string, decoded⟩ := Option.map_eq_some_iff.mp decoded
    exact ⟨s, string, by rw [decoded]; rfl⟩
  · rintro ⟨s, string, decoded⟩
    obtain ⟨path, decoded⟩ := Option.isSome_iff_exists.mp decoded
    exact ⟨path, by rw [hexDecodeString, string, Option.map_some, decoded]⟩

/-- The first path is cut out with a NUL behind it. -/
theorem hexDecodeString_old (old : Bytes) :
    ∃ decoded, hexDecodeString (old ++ [0]) 256 = some decoded := by
  have ends : (0 : UInt8) ∈ old ++ [0] := List.mem_append_right _ List.mem_cons_self
  obtain ⟨s, string⟩ := exists_stringAt ends
  exact ⟨decodeHex 256 s, by rw [hexDecodeString, string]; rfl⟩

/-- What `mv` makes of a comma whose first slice is a path. -/
theorem mvArgs_old {args old rest : Bytes} {n : Nat} (comma : CommaWithin args n old rest)
    (oldPath : OldPath old) :
    ∃ path, mvArgs args n =
      (hexDecodeString rest 256).map (Option.map fun newPath => (path, newPath)) := by
  obtain ⟨path, decoded⟩ := hexDecodeString_paths.mpr oldPath.2
  exact ⟨path, by rw [mvArgs_comma comma, if_neg (Nat.not_le.mpr oldPath.1), decoded]; rfl⟩

/-- What `mv` makes of a comma whose first slice is none. -/
theorem mvArgs_notOld {args old rest : Bytes} {n : Nat} (comma : CommaWithin args n old rest)
    (notOld : ¬ OldPath old) : mvArgs args n = some none := by
  rw [mvArgs_comma comma]
  split
  · rfl
  · next short =>
    obtain ⟨decoded, decodes⟩ := hexDecodeString_old old
    rw [decodes]
    cases decoded with
    | none => rfl
    | some path =>
      exact absurd ⟨Nat.not_le.mp short, hexDecodeString_paths.mp ⟨path, decodes⟩⟩ notOld

theorem within_cases (args : Bytes) (n : Nat) :
    within (ascii ',') args n = none ∧ ascii ',' ∉ args ∧ args.length < n ∨
    within (ascii ',') args n = some none ∧ n ≤ args.length ∧ ascii ',' ∉ args.take n ∨
    ∃ old rest, CommaWithin args n old rest := by
  induction args generalizing n with
  | nil =>
    cases n with
    | zero => exact .inr (.inl ⟨rfl, Nat.le_refl _, List.not_mem_nil⟩)
    | succ n => exact .inl ⟨rfl, List.not_mem_nil, Nat.succ_pos n⟩
  | cons c args ih =>
    cases n with
    | zero => exact .inr (.inl ⟨rfl, Nat.zero_le _, List.not_mem_nil⟩)
    | succ n =>
      by_cases comma : c = ascii ','
      · subst comma
        exact .inr (.inr ⟨[], args, rfl, List.not_mem_nil, Nat.succ_pos n⟩)
      · have other : ∀ {l : Bytes}, ascii ',' ∉ l → ascii ',' ∉ c :: l := by
          intro l without inList
          rcases List.mem_cons.mp inList with same | inList
          · exact comma same.symm
          · exact without inList
        rcases ih n with ⟨scan, without, short⟩ | ⟨scan, near, without⟩ | ⟨old, rest, found⟩
        · refine .inl ⟨?_, other without, Nat.succ_lt_succ short⟩
          rw [within, if_neg comma, scan]
          rfl
        · refine .inr (.inl ⟨?_, Nat.succ_le_succ near, other without⟩)
          rw [within, if_neg comma, scan]
          rfl
        · obtain ⟨rfl, without, near⟩ := found
          exact .inr (.inr ⟨c :: old, rest, rfl, other without, Nat.succ_lt_succ near⟩)

theorem mvArgs_isSome {args : Bytes} {n : Nat} : (mvArgs args n).isSome ↔ SlicesEnd args n := by
  rcases within_cases args n with ⟨scan, without, short⟩ | ⟨scan, near, without⟩ | ⟨old, rest, comma⟩
  · rw [mvArgs, scan]
    constructor
    · nofun
    · rintro (⟨near, -⟩ | ⟨old, rest, ⟨rfl, -, -⟩, -⟩)
      · exact absurd near (Nat.not_le.mpr short)
      · exact absurd (List.mem_append_right _ List.mem_cons_self) without
  · rw [mvArgs, scan]
    exact ⟨fun _ => .inl ⟨near, without⟩, fun _ => rfl⟩
  · constructor
    · intro sliced
      refine .inr ⟨old, rest, comma, fun oldPath => ?_⟩
      obtain ⟨path, cut⟩ := mvArgs_old comma oldPath
      by_contra endless
      rw [cut, hexDecodeString, stringAt_eq_none endless] at sliced
      cases sliced
    · rintro (⟨near, without⟩ | ⟨old', rest', comma', ends⟩)
      · obtain ⟨shape, -, near'⟩ := comma
        refine absurd ?_ without
        rw [shape, List.take_append, List.take_of_length_le (Nat.le_of_lt near')]
        obtain ⟨k, more⟩ : ∃ k, n - old.length = k + 1 := ⟨n - old.length - 1, by omega⟩
        rw [more, List.take_succ_cons]
        exact List.mem_append_right _ List.mem_cons_self
      · obtain ⟨rfl, rfl⟩ := comma.unique comma'
        by_cases oldPath : OldPath old
        · obtain ⟨path, cut⟩ := mvArgs_old comma oldPath
          obtain ⟨s, string⟩ := exists_stringAt (ends oldPath)
          rw [cut, hexDecodeString, string]
          rfl
        · rw [mvArgs_notOld comma oldPath]
          rfl

theorem mvArgs_paths {args : Bytes} {n : Nat} :
    (∃ paths, mvArgs args n = some (some paths)) ↔ TwoPaths args n := by
  constructor
  · rintro ⟨paths, sliced⟩
    rcases within_cases args n with ⟨scan, -⟩ | ⟨scan, -⟩ | ⟨old, rest, comma⟩
    · rw [mvArgs, scan] at sliced
      cases sliced
    · rw [mvArgs, scan] at sliced
      cases sliced
    · by_cases oldPath : OldPath old
      · obtain ⟨path, cut⟩ := mvArgs_old comma oldPath
        rw [cut] at sliced
        obtain ⟨decoded, decodes, same⟩ := Option.map_eq_some_iff.mp sliced
        obtain ⟨newPath, rfl, -⟩ := Option.map_eq_some_iff.mp same
        exact ⟨old, rest, comma, oldPath, hexDecodeString_paths.mp ⟨newPath, decodes⟩⟩
      · rw [mvArgs_notOld comma oldPath] at sliced
        cases sliced
  · rintro ⟨old, rest, comma, oldPath, digits⟩
    obtain ⟨path, cut⟩ := mvArgs_old comma oldPath
    obtain ⟨newPath, decodes⟩ := hexDecodeString_paths.mpr digits
    exact ⟨(path, newPath), by rw [cut, decodes]; rfl⟩

theorem hexDecodeString_append {hex behind : Bytes} {outSize : Nat} {path : Option Bytes}
    (decoded : hexDecodeString hex outSize = some path) :
    hexDecodeString (hex ++ behind) outSize = some path := by
  obtain ⟨s, string, rfl⟩ := Option.map_eq_some_iff.mp decoded
  rw [hexDecodeString, stringAt_append string]
  rfl

/-- Slices that lie in `args` are the same whatever lies behind. -/
theorem mvArgs_append {args : Bytes} {n : Nat} {result : Option (Bytes × Bytes)}
    (sliced : mvArgs args n = some result) (behind : Bytes) :
    mvArgs (args ++ behind) n = some result := by
  rcases within_cases args n with ⟨scan, -⟩ | ⟨scan, -⟩ | ⟨old, rest, comma⟩
  · rw [mvArgs, scan] at sliced
    cases sliced
  · rw [mvArgs, scan] at sliced
    cases sliced
    rw [mvArgs, within_append scan]
    rfl
  · have comma' : CommaWithin (args ++ behind) n old (rest ++ behind) := by
      obtain ⟨rfl, without, near⟩ := comma
      exact ⟨by rw [List.append_assoc, List.cons_append], without, near⟩
    by_cases oldPath : OldPath old
    · obtain ⟨path, decoded⟩ := hexDecodeString_paths.mpr oldPath.2
      have short := Nat.not_le.mpr oldPath.1
      rw [mvArgs_comma comma, if_neg short, decoded] at sliced
      obtain ⟨newPath, decodes, rfl⟩ := Option.map_eq_some_iff.mp sliced
      rw [mvArgs_comma comma', if_neg short, decoded]
      show (hexDecodeString (rest ++ behind) 256).map _ = _
      rw [hexDecodeString_append decodes]
      rfl
    · rw [mvArgs_notOld comma oldPath] at sliced
      rw [mvArgs_notOld comma' oldPath]
      exact sliced

end FuseX.Gdb
