import Mathlib.Data.List.Basic

/-!
# JSON texts

The values that a program without negative or broken numbers and without `null` puts into JSON, the
text of such a value with no blanks in it, and a reader of such texts, which is strict: what it
reads is a text of the JSON grammar, and the value is the one the grammar gives it.

* `parse_text` reads the text of a value back.
-/

namespace Lib.Json

mutual

inductive Value : Type
  | string (chars : List Char)
  | number (n : Nat)
  | boolean (b : Bool)
  | array (items : Items)
  | object (members : Members)

inductive Items : Type
  | nil
  | cons (value : Value) (items : Items)

inductive Members : Type
  | nil
  | cons (name : List Char) (value : Value) (members : Members)

end

/-! ## Texts -/

def quotation : Char := '\x22'

def backslash : Char := '\x5c'

/-- The short escapes: the character, and what it is written as behind the backslash. -/
def shortEscapes : List (Char × Char) :=
  [(quotation, quotation), (backslash, backslash), ('\x08', 'b'), ('\x0c', 'f'), ('\n', 'n'),
    ('\r', 'r'), ('\t', 't')]

/-- The character in a string. -/
def escapeChar (c : Char) : List Char :=
  match shortEscapes.lookup c with
  | some e => [backslash, e]
  | none =>
      if c.toNat < 0x20 then
        [backslash, 'u', '0', '0', Nat.digitChar (c.toNat / 16), Nat.digitChar (c.toNat % 16)]
      else [c]

/-- A string in quotation marks. -/
def quoted (chars : List Char) : List Char :=
  quotation :: (chars.flatMap escapeChar ++ [quotation])

/-- A comma, but for the first of a list. -/
def comma (first : Bool) : List Char :=
  if first then [] else [',']

mutual

def Value.text : Value → List Char
  | .string chars => quoted chars
  | .number n => Nat.toDigits 10 n
  | .boolean true => ['t', 'r', 'u', 'e']
  | .boolean false => ['f', 'a', 'l', 's', 'e']
  | .array items => '[' :: (items.text true ++ [']'])
  | .object members => '{' :: (members.text true ++ ['}'])

def Items.text (first : Bool) : Items → List Char
  | .nil => []
  | .cons value items => comma first ++ (value.text ++ items.text false)

def Members.text (first : Bool) : Members → List Char
  | .nil => []
  | .cons name value members =>
      comma first ++ (quoted name ++ ':' :: (value.text ++ members.text false))

end

/-! ## Reading -/

/-- The value of a hexadecimal digit. -/
def hexDigit (c : Char) : Option Nat :=
  if c.isDigit then some (c.toNat - 48)
  else if 97 ≤ c.toNat ∧ c.toNat ≤ 102 then some (c.toNat - 87)
  else if 65 ≤ c.toNat ∧ c.toNat ≤ 70 then some (c.toNat - 55)
  else none

/-- The character of an escape with four digits, if it is one alone. -/
def hexChar (a b c d : Char) : Option Char :=
  match hexDigit a, hexDigit b, hexDigit c, hexDigit d with
  | some a, some b, some c, some d =>
      let n := ((a * 16 + b) * 16 + c) * 16 + d
      if n.isValidChar then some (Char.ofNat n) else none
  | _, _, _, _ => none

/-- The character of a short escape. -/
def unescape (e : Char) : Option Char :=
  if e = '/' then some '/' else ((shortEscapes.map Prod.swap).lookup e)

/-- A string behind its first quotation mark, and what follows it. -/
def parseString : List Char → Option (List Char × List Char)
  | [] => none
  | c :: text =>
      if c = quotation then some ([], text)
      else if c = backslash then
        match text with
        | [] => none
        | e :: text =>
            if e = 'u' then
              match text with
              | a :: b :: c :: d :: text =>
                  (hexChar a b c d).bind fun x =>
                    (parseString text).map fun (chars, rest) => (x :: chars, rest)
              | _ => none
            else
              (unescape e).bind fun x =>
                (parseString text).map fun (chars, rest) => (x :: chars, rest)
      else if c.toNat < 0x20 then none
      else (parseString text).map fun (chars, rest) => (c :: chars, rest)

/-- What follows a word. -/
def literal (word text : List Char) : Option (List Char) :=
  if word.isPrefixOf text then some (text.drop word.length) else none

/-- A number without a sign, and without zeros in front. -/
def parseNumber (text : List Char) : Option (Value × List Char) :=
  let digits := text.takeWhile Char.isDigit
  if digits = [] ∨ digits.head? = some '0' ∧ digits.length ≠ 1 then none
  else some (.number (Nat.ofDigitChars 10 digits 0), text.dropWhile Char.isDigit)

mutual

/-- A value and what follows it. -/
def parseValue : Nat → List Char → Option (Value × List Char)
  | 0, _ => none
  | _ + 1, [] => none
  | fuel + 1, c :: text =>
      if c = quotation then (parseString text).map fun (chars, rest) => (.string chars, rest)
      else if c = '[' then
        if text.head? = some ']' then some (.array .nil, text.tail)
        else (parseItems fuel text).map fun (items, rest) => (.array items, rest)
      else if c = '{' then
        if text.head? = some '}' then some (.object .nil, text.tail)
        else (parseMembers fuel text).map fun (members, rest) => (.object members, rest)
      else if c = 't' then (literal ['r', 'u', 'e'] text).map fun rest => (.boolean true, rest)
      else if c = 'f' then (literal ['a', 'l', 's', 'e'] text).map fun rest => (.boolean false, rest)
      else parseNumber (c :: text)

/-- The values of an array, one at least, up to behind the bracket. -/
def parseItems : Nat → List Char → Option (Items × List Char)
  | 0, _ => none
  | fuel + 1, text =>
      match parseValue fuel text with
      | none => none
      | some (_, []) => none
      | some (value, c :: text) =>
          if c = ']' then some (.cons value .nil, text)
          else if c = ',' then
            (parseItems fuel text).map fun (items, rest) => (.cons value items, rest)
          else none

/-- The members of an object, one at least, up to behind the brace. -/
def parseMembers : Nat → List Char → Option (Members × List Char)
  | 0, _ => none
  | fuel + 1, text =>
      match (literal [quotation] text).bind parseString with
      | none => none
      | some (name, text) =>
          match (literal [':'] text).bind (parseValue fuel) with
          | none => none
          | some (_, []) => none
          | some (value, c :: text) =>
              if c = '}' then some (.cons name value .nil, text)
              else if c = ',' then
                (parseMembers fuel text).map fun (members, rest) => (.cons name value members, rest)
              else none

end

/-- The value of a whole text. -/
def parse (text : List Char) : Option Value :=
  match parseValue (text.length + 1) text with
  | some (value, []) => some value
  | _ => none

/-! ## Strings are read back -/

theorem unescape_escape : ∀ pair ∈ shortEscapes, unescape pair.2 = some pair.1 ∧ pair.2 ≠ 'u' := by
  decide

theorem hexDigit_digitChar : ∀ d < 16, hexDigit (Nat.digitChar d) = some d := by
  decide

theorem parseString_plain {c : Char} (text : List Char) (first : c ≠ quotation)
    (second : c ≠ backslash) (third : ¬ c.toNat < 0x20) :
    parseString (c :: text) = (parseString text).map fun (chars, rest) => (c :: chars, rest) := by
  rw [parseString.eq_def]
  simp only [if_neg first, if_neg second, if_neg third]

theorem parseString_short {e x : Char} (text : List Char) (other : e ≠ 'u')
    (back : unescape e = some x) :
    parseString (backslash :: e :: text) =
      (parseString text).map fun (chars, rest) => (x :: chars, rest) := by
  have different : backslash ≠ quotation := by decide
  rw [parseString.eq_def]
  simp only [if_neg different, if_true, if_neg other, back, Option.bind_some]

theorem parseString_escapeChar (c : Char) (text : List Char) :
    parseString (escapeChar c ++ text) =
      (parseString text).map fun (chars, rest) => (c :: chars, rest) := by
  have different : backslash ≠ quotation := by decide
  rcases found : shortEscapes.lookup c with _ | e
  · have others := List.lookup_eq_none_iff.mp found
    by_cases control : c.toNat < 0x20
    · have high := hexDigit_digitChar (c.toNat / 16) (by omega)
      have low := hexDigit_digitChar (c.toNat % 16) (by omega)
      have whole : ((0 * 16 + 0) * 16 + c.toNat / 16) * 16 + c.toNat % 16 = c.toNat := by omega
      have char : hexChar '0' '0' (Nat.digitChar (c.toNat / 16)) (Nat.digitChar (c.toNat % 16)) =
          some c := by
        have zero : hexDigit '0' = some 0 := rfl
        simp only [hexChar, zero, high, low, whole, Char.ofNat_toNat]
        exact if_pos c.valid
      simp only [escapeChar, found, if_pos control, List.cons_append, List.nil_append, parseString,
        if_neg different, if_true, char, Option.bind_some]
    · have notQuotation : c ≠ quotation := by
        have apart := others (quotation, quotation) (by decide)
        exact fun same => absurd apart (by simp [same])
      have notBackslash : c ≠ backslash := by
        have apart := others (backslash, backslash) (by decide)
        exact fun same => absurd apart (by simp [same])
      simp only [escapeChar, found, if_neg control, List.cons_append, List.nil_append]
      exact parseString_plain text notQuotation notBackslash control
  · obtain ⟨before, after, split, -⟩ := List.lookup_eq_some_iff.mp found
    have member : (c, e) ∈ shortEscapes := by
      rw [split]
      exact List.mem_append_right _ List.mem_cons_self
    obtain ⟨back, notU⟩ := unescape_escape (c, e) member
    simp only [escapeChar, found, List.cons_append, List.nil_append]
    exact parseString_short text notU back

theorem parseString_escaped (chars text : List Char) :
    parseString (chars.flatMap escapeChar ++ quotation :: text) = some (chars, text) := by
  induction chars with
  | nil =>
    rw [List.flatMap_nil, List.nil_append, parseString.eq_def]
    simp only [if_true]
  | cons c chars ih =>
    rw [List.flatMap_cons, List.append_assoc, parseString_escapeChar, ih]
    rfl

/-! ## Values are read back -/

/-- What may follow a number. -/
def Ended (text : List Char) : Prop :=
  ∀ c rest, text = c :: rest → c.isDigit = false

/-- Only zero begins with a zero. -/
theorem toDigits_head (n : Nat) : (Nat.toDigits 10 n).head? = some '0' → n = 0 := by
  induction n using Nat.strongRecOn with
  | _ n ih =>
    intro zero
    by_cases small : n < 10
    · rw [Nat.toDigits_of_lt_base small, List.head?_cons, Option.some.injEq,
        Nat.digitChar_eq_zero] at zero
      exact zero
    · rw [Nat.toDigits_of_base_le (by decide) (Nat.not_lt.mp small),
        List.head?_append_of_ne_nil _ Nat.toDigits_ne_nil] at zero
      have front := ih (n / 10) (by omega) zero
      omega

theorem parseNumber_toDigits (n : Nat) {text : List Char} (ended : Ended text) :
    parseNumber (Nat.toDigits 10 n ++ text) = some (.number n, text) := by
  have digits : ∀ c ∈ Nat.toDigits 10 n, c.isDigit = true := fun c member =>
    Nat.isDigit_of_mem_toDigits (by decide) (by decide) member
  have stop : text.takeWhile Char.isDigit = [] ∧ text.dropWhile Char.isDigit = text := by
    rcases text with _ | ⟨c, rest⟩
    · exact ⟨rfl, rfl⟩
    · have notDigit := ended c rest rfl
      simp [notDigit]
  have taken : (Nat.toDigits 10 n ++ text).takeWhile Char.isDigit = Nat.toDigits 10 n := by
    rw [List.takeWhile_append_of_pos digits, stop.1, List.append_nil]
  have dropped : (Nat.toDigits 10 n ++ text).dropWhile Char.isDigit = text := by
    rw [List.dropWhile_append_of_pos digits, stop.2]
  have proper : ¬ (Nat.toDigits 10 n = [] ∨
      (Nat.toDigits 10 n).head? = some '0' ∧ (Nat.toDigits 10 n).length ≠ 1) := by
    rintro (absent | ⟨zero, long⟩)
    · exact Nat.toDigits_ne_nil absent
    · rw [toDigits_head n zero] at long
      exact long rfl
  rw [parseNumber]
  simp only [taken, dropped, if_neg proper, Nat.ofDigitChars_ten_toDigits]

theorem ended_cons {c : Char} (other : c.isDigit = false) (rest : List Char) : Ended (c :: rest) := by
  intro d rest' same
  cases same
  exact other

/-- A word of the language that begins with a letter. -/
theorem literal_append (word text : List Char) : literal word (word ++ text) = some text := by
  rw [literal, if_pos (List.isPrefixOf_iff_prefix.mpr (List.prefix_append word text)),
    List.drop_left]

/-- How a text begins. -/
theorem Value.text_cons (value : Value) :
    ∃ c rest, value.text = c :: rest ∧ c ≠ ']' := by
  rcases value with chars | n | b | items | members
  · exact ⟨quotation, _, rfl, by decide⟩
  · rcases digits : Nat.toDigits 10 n with _ | ⟨c, rest⟩
    · exact absurd digits Nat.toDigits_ne_nil
    · refine ⟨c, rest, digits, ?_⟩
      rintro rfl
      have digit := Nat.isDigit_of_mem_toDigits (b := 10) (n := n) (c := ']') (by decide) (by decide)
        (by rw [digits]; exact List.mem_cons_self)
      exact absurd digit (by decide)
  · rcases b with _ | _
    · exact ⟨'f', _, rfl, by decide⟩
    · exact ⟨'t', _, rfl, by decide⟩
  · exact ⟨'[', _, rfl, by decide⟩
  · exact ⟨'{', _, rfl, by decide⟩

theorem parseValue_number {n fuel : Nat} {text : List Char} (fuelled : 0 < fuel) (ended : Ended text) :
    parseValue fuel (Nat.toDigits 10 n ++ text) = some (.number n, text) := by
  obtain ⟨fuel, rfl⟩ := Nat.exists_eq_add_of_lt fuelled
  rw [← parseNumber_toDigits n ended]
  rcases digits : Nat.toDigits 10 n with _ | ⟨c, rest⟩
  · exact absurd digits Nat.toDigits_ne_nil
  · have digit : c.isDigit = true :=
      Nat.isDigit_of_mem_toDigits (b := 10) (n := n) (by decide) (by decide)
        (by rw [digits]; exact List.mem_cons_self)
    have other : ∀ d : Char, d.isDigit = false → c ≠ d := by
      rintro d notDigit rfl
      rw [digit] at notDigit
      exact Bool.noConfusion notDigit
    rw [List.cons_append, parseValue, if_neg (other _ rfl), if_neg (other _ rfl),
      if_neg (other _ rfl), if_neg (other _ rfl), if_neg (other _ rfl)]

/-- The first of a list comes right behind the bracket. -/
theorem Items.text_head {items : Items} (filled : items ≠ .nil) (text : List Char) :
    (items.text true ++ text).head? ≠ some ']' := by
  rcases items with _ | ⟨value, items⟩
  · exact absurd rfl filled
  · obtain ⟨c, rest, begins, other⟩ := value.text_cons
    rw [Items.text, begins]
    exact fun same => other (Option.some.inj same)

theorem Members.text_head {members : Members} (filled : members ≠ .nil) (text : List Char) :
    (members.text true ++ text).head? ≠ some '}' := by
  rcases members with _ | ⟨name, value, members⟩
  · exact absurd rfl filled
  · rw [Members.text]
    exact fun same => absurd (Option.some.inj same) (by decide)

/-- Behind a value, the list ends or goes on. -/
theorem Items.text_false (items : Items) :
    items = .nil ∨ items ≠ .nil ∧ items.text false = ',' :: items.text true := by
  rcases items with _ | ⟨value, items⟩
  · exact Or.inl rfl
  · exact Or.inr ⟨Items.noConfusion, rfl⟩

theorem Members.text_false (members : Members) :
    members = .nil ∨ members ≠ .nil ∧ members.text false = ',' :: members.text true := by
  rcases members with _ | ⟨name, value, members⟩
  · exact Or.inl rfl
  · exact Or.inr ⟨Members.noConfusion, rfl⟩

mutual

theorem parseValue_text : ∀ (value : Value) (fuel : Nat) (text : List Char),
    value.text.length ≤ fuel → Ended text →
      parseValue fuel (value.text ++ text) = some (value, text)
  | .string chars, fuel, text, enough, _ => by
    rw [Value.text, quoted, List.length_cons] at enough
    obtain ⟨fuel, rfl⟩ := Nat.exists_eq_add_of_lt (show 0 < fuel by omega)
    rw [Value.text, quoted, List.cons_append, parseValue, if_pos rfl, List.append_assoc,
      List.singleton_append, parseString_escaped]
    rfl
  | .number n, fuel, text, enough, ended =>
    parseValue_number (Nat.lt_of_lt_of_le Nat.length_toDigits_pos enough) ended
  | .boolean b, fuel, text, enough, _ => by
    rcases b with _ | _
    · obtain ⟨fuel, rfl⟩ := Nat.exists_eq_add_of_lt (show 0 < fuel from Nat.lt_of_lt_of_le (by decide) enough)
      rw [Value.text, List.cons_append, parseValue, if_neg (by decide), if_neg (by decide),
        if_neg (by decide), if_neg (by decide), if_pos rfl, literal_append]
      rfl
    · obtain ⟨fuel, rfl⟩ := Nat.exists_eq_add_of_lt (show 0 < fuel from Nat.lt_of_lt_of_le (by decide) enough)
      rw [Value.text, List.cons_append, parseValue, if_neg (by decide), if_neg (by decide),
        if_neg (by decide), if_pos rfl, literal_append]
      rfl
  | .array items, fuel, text, enough, _ => by
    rw [Value.text, List.length_cons, List.length_append, List.length_singleton] at enough
    obtain ⟨fuel, rfl⟩ := Nat.exists_eq_add_of_lt (show 0 < fuel by omega)
    rw [Value.text, List.cons_append, parseValue, if_neg (by decide), if_pos rfl, List.append_assoc,
      List.singleton_append]
    rcases items.text_false with rfl | ⟨filled, -⟩
    · rfl
    · rw [if_neg (items.text_head filled _), parseItems_text items _ text filled (by omega)]
      rfl
  | .object members, fuel, text, enough, _ => by
    rw [Value.text, List.length_cons, List.length_append, List.length_singleton] at enough
    obtain ⟨fuel, rfl⟩ := Nat.exists_eq_add_of_lt (show 0 < fuel by omega)
    rw [Value.text, List.cons_append, parseValue, if_neg (by decide), if_neg (by decide), if_pos rfl,
      List.append_assoc, List.singleton_append]
    rcases members.text_false with rfl | ⟨filled, -⟩
    · rfl
    · rw [if_neg (members.text_head filled _), parseMembers_text members _ text filled (by omega)]
      rfl

theorem parseItems_text : ∀ (items : Items) (fuel : Nat) (text : List Char), items ≠ .nil →
    (items.text true).length + 1 ≤ fuel →
      parseItems fuel (items.text true ++ ']' :: text) = some (items, text)
  | .nil, _, _, filled, _ => absurd rfl filled
  | .cons value items, fuel, text, _, enough => by
    rw [Items.text, comma, if_pos rfl, List.nil_append] at enough ⊢
    rw [List.length_append] at enough
    obtain ⟨fuel, rfl⟩ := Nat.exists_eq_add_of_lt (show 0 < fuel by omega)
    rw [Nat.zero_add, parseItems, List.append_assoc]
    rcases items.text_false with rfl | ⟨filled, more⟩
    · have last := parseValue_text value fuel (']' :: text) (by omega) (ended_cons rfl text)
      rw [Items.text, List.nil_append, last]
      rfl
    · have here := parseValue_text value fuel (',' :: (items.text true ++ ']' :: text)) (by omega)
        (ended_cons rfl _)
      rw [more, List.length_cons] at enough
      have rest := parseItems_text items fuel text filled (by omega)
      rw [more, List.cons_append, here]
      refine (if_neg (by decide)).trans ((if_pos rfl).trans ?_)
      rw [rest]
      rfl

theorem parseMembers_text : ∀ (members : Members) (fuel : Nat) (text : List Char), members ≠ .nil →
    (members.text true).length + 1 ≤ fuel →
      parseMembers fuel (members.text true ++ '}' :: text) = some (members, text)
  | .nil, _, _, filled, _ => absurd rfl filled
  | .cons name value members, fuel, text, _, enough => by
    rw [Members.text, comma, if_pos rfl, List.nil_append] at enough ⊢
    rw [List.length_append, List.length_cons, List.length_append] at enough
    obtain ⟨fuel, rfl⟩ := Nat.exists_eq_add_of_lt (show 0 < fuel by omega)
    have shape : quoted name ++ ':' :: (value.text ++ members.text false) ++ '}' :: text =
        [quotation] ++ (name.flatMap escapeChar ++ quotation ::
          ([':'] ++ (value.text ++ (members.text false ++ '}' :: text)))) := by
      simp only [quoted, List.append_assoc, List.cons_append, List.nil_append]
    rw [Nat.zero_add, parseMembers, shape, literal_append, Option.bind_some, parseString_escaped]
    simp only [literal_append, Option.bind_some]
    rcases members.text_false with rfl | ⟨filled, more⟩
    · have last := parseValue_text value fuel ('}' :: text) (by omega) (ended_cons rfl text)
      rw [Members.text, List.nil_append, last]
      rfl
    · have here := parseValue_text value fuel (',' :: (members.text true ++ '}' :: text)) (by omega)
        (ended_cons rfl _)
      rw [more, List.length_cons] at enough
      have rest := parseMembers_text members fuel text filled (by omega)
      rw [more, List.cons_append, here]
      refine (if_neg (by decide)).trans ((if_pos rfl).trans ?_)
      rw [rest]
      rfl

end

/-- A value is read back from its text. -/
theorem parse_text (value : Value) : parse value.text = some value := by
  have read := parseValue_text value (value.text.length + 1) [] (Nat.le_succ _)
    fun c rest same => absurd same (List.cons_ne_nil c rest).symm
  rw [List.append_nil] at read
  rw [parse, read]

end Lib.Json
