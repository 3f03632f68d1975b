import FuseX.Debugger.Expression
import Mathlib.Data.List.FinRange

/-!
# Scanning what is printed

The scanner cuts a printed expression into the tokens that its parts stand for
(`scanAll_text`): numbers, names and operators each end where the printer ends them. A modulo
is an exception, there is no rule for its sign.
-/

namespace FuseX.Debugger

open Lib

/-! ## What stands for an expression -/

/-- The tokens in front of and behind the operand. -/
def UnaryOp.tokens : UnaryOp → List Token × List Token
  | .logicalNot => ([.negate .logicalNot], [])
  | .bitwiseNot => ([.negate .bitwiseNot], [])
  | .minus => ([.char '-'], [])
  | .dereference => ([.char '['], [.char ']'])

/-- The token of an operator. -/
def BinaryOp.token : BinaryOp → Token
  | .add => .char '+'
  | .sub => .char '-'
  | .mul => .char '*'
  | .div => .char '/'
  | .mod => .error
  | .leftShift => .leftShift
  | .rightShift => .rightShift
  | .equalTo => .equality .equalTo
  | .notEqualTo => .equality .notEqualTo
  | .lessThan => .comparison .lessThan
  | .greaterThan => .comparison .greaterThan
  | .lessThanOrEqualTo => .comparison .lessThanOrEqualTo
  | .greaterThanOrEqualTo => .comparison .greaterThanOrEqualTo
  | .bitwiseAnd => .char '&'
  | .bitwiseXor => .char '^'
  | .bitwiseOr => .char '|'
  | .logicalAnd => .logicalAnd
  | .logicalOr => .logicalOr

def bracketedTokens (brackets : Bool) (operand : List Token) : List Token :=
  if brackets then [.char '('] ++ operand ++ [.char ')'] else operand

variable {n : Nat}

def Expression.tokens (names : Fin n → List Char × List Char) : Expression n → List Token
  | .integer value => [.number value]
  | .unary op operand =>
      op.tokens.1 ++ bracketedTokens (op.brackets operand) (operand.tokens names) ++ op.tokens.2
  | .binary op operand1 operand2 =>
      bracketedTokens (bracketsNecessary op operand1) (operand1.tokens names) ++ [op.token] ++
        bracketedTokens (bracketsNecessary op operand2) (operand2.tokens names)
  | .systemVariable index => [.string (names index).1, .char ':', .string (names index).2]
  | .variable name => [.variable name]

/-- System variables whose names are scanned as they are written and found again. -/
structure SystemVariables (n : Nat) where
  names : Fin n → List Char × List Char
  isId : ∀ i, idWord (names i).1 = (names i).1.length ∧ idWord (names i).2 = (names i).2.length
  scanned : ∀ i, longest rules (names i).1 = ((names i).1.length, some (.string (names i).1)) ∧
    longest rules (names i).2 = ((names i).2.length, some (.string (names i).2))
  nonempty : ∀ i, (names i).1 ≠ [] ∧ (names i).2 ≠ []
  found : ∀ i, systemVariableFind names (names i).1 (names i).2 = some i

/-! ## Characters -/

/-- What comes behind a number, a name or an operator. -/
def Stops (rest : List Char) : Prop := ∀ h ∈ rest.head?, h = ' ' ∨ h = ']' ∨ h = ':'

theorem stops_cons {h : Char} (rest : List Char) (stop : h = ' ' ∨ h = ']' ∨ h = ':') :
    Stops (h :: rest) := by
  intro h' here
  cases here
  exact stop

theorem stops_nil : Stops [] := nofun

theorem toLower_of_isDigit {c : Char} (digit : c.isDigit = true) : c.toLower = c := by
  rw [Char.isDigit, Bool.and_eq_true, decide_eq_true_iff, decide_eq_true_iff] at digit
  have small : ¬ (c.val ≥ 'A'.val ∧ c.val ≤ 'Z'.val) := by
    rintro ⟨upper, -⟩
    have bound := digit.2
    exact absurd (UInt32.le_trans upper bound) (by decide)
  exact dif_neg small

theorem toLower_eq_equals {c : Char} (lower : c.toLower = '=') : c = '=' := by
  dsimp only [Char.toLower] at lower
  split at lower
  · next upper =>
    have low := UInt32.le_iff_toNat_le.mp upper.1
    have high := UInt32.le_iff_toNat_le.mp upper.2
    have value := congrArg (fun d : Char => d.val.toNat) lower
    dsimp only at value
    rw [UInt32.toNat_add] at value
    have shift : ('a'.val - 'A'.val).toNat = 32 := rfl
    have bounds : 'A'.val.toNat = 65 ∧ 'Z'.val.toNat = 90 ∧ '='.val.toNat = 61 := ⟨rfl, rfl, rfl⟩
    omega
  · exact lower

/-! ## Where words end -/

theorem stops_digit {rest : List Char} (stops : Stops rest) :
    ∀ h ∈ rest.head?, h.isDigit = false := by
  intro h here
  rcases stops h here with rfl | rfl | rfl <;> decide

theorem stops_xdigit {rest : List Char} (stops : Stops rest) :
    ∀ h ∈ rest.head?, isXdigit h = false := by
  intro h here
  rcases stops h here with rfl | rfl | rfl <;> decide

theorem hexWord_other {c : Char} {s : List Char} (other : c ≠ '0') : hexWord (c :: s) = 0 := by
  rw [hexWord]
  intro x s' same
  cases same
  exact other rfl

theorem hexWord_single (c : Char) : hexWord [c] = 0 := by
  rw [hexWord]
  intro x s same
  cases same

theorem hexWord_append {word rest : List Char} (nonempty : word ≠ []) (stops : Stops rest) :
    hexWord (word ++ rest) = hexWord word := by
  rcases word with _ | ⟨c, word⟩
  · exact absurd rfl nonempty
  by_cases zero : c = '0'
  · subst zero
    cases word with
    | nil =>
      rw [hexWord_single]
      cases rest with
      | nil => rfl
      | cons h rest =>
        have other : ¬ h.toLower = 'x' := by
          rcases stops h rfl with rfl | rfl | rfl <;> decide
        show hexWord ('0' :: h :: rest) = 0
        rw [hexWord, if_neg fun hex => other hex.1]
    | cons x word =>
      show hexWord ('0' :: x :: (word ++ rest)) = hexWord ('0' :: x :: word)
      rw [hexWord, hexWord, runLength_append (stops_xdigit stops)]
  · rw [List.cons_append, hexWord_other zero, hexWord_other zero]

theorem idTail_append {s rest : List Char} (whole : idTail s = s.length) (stops : Stops rest) :
    idTail (s ++ rest) = s.length := by
  have ends : idTail rest = 0 := by
    cases rest with
    | nil => rfl
    | cons h rest => rcases stops h rfl with rfl | rfl | rfl <;> rfl
  fun_induction idTail s with
  | case1 => exact ends
  | case2 s ih =>
    have whole' : idTail s = s.length := by
      rw [List.length_cons, List.length_cons] at whole
      omega
    show idTail ('\\' :: ' ' :: (s ++ rest)) = _
    rw [idTail, ih whole', List.length_cons, List.length_cons]
  | case3 c s notEscape letter ih =>
    have whole' : idTail s = s.length := by
      rw [List.length_cons] at whole
      omega
    have notEscape' : ∀ s', c = '\\' → s ++ rest = ' ' :: s' → False := by
      rintro s' rfl -
      exact Bool.false_ne_true letter
    rw [List.cons_append, idTail, if_pos letter, ih whole', List.length_cons]
    exact notEscape'
  | case4 c s notEscape notLetter => cases whole

theorem idWord_append {word rest : List Char} (whole : idWord word = word.length)
    (nonempty : word ≠ []) (stops : Stops rest) : idWord (word ++ rest) = word.length := by
  cases word with
  | nil => exact absurd rfl nonempty
  | cons c s =>
    rw [idWord] at whole
    split at whole
    · next letter =>
      rw [List.length_cons] at whole
      rw [List.cons_append, idWord, if_pos letter,
        idTail_append (Nat.succ.inj whole) stops, List.length_cons]
    · cases whole

/-! ## The literals of the rules -/

/-- How the literals begin and how they go on. -/
theorem literalWords_shape : literalWords.all (fun lit =>
    lit.1 ≠ [] && (lit.1.head?.all fun c => !c.isDigit && c ≠ '$' && c ≠ ' ') &&
      (lit.1.tail.all fun c => c ≠ ' ' && c ≠ ']' && c ≠ ':') &&
      (['(', ')', '[', ']', '~', '-', ':'].all
        fun c => lit.1.head? ≠ some c || lit.1.tail = []) &&
      (lit.1.head? ≠ some '!' || lit.1.tail.all fun c => c = '=')) = true := by
  simp only [literalWords, commandWords, List.map_cons, List.map_nil, List.flatMap_cons,
    List.flatMap_nil, List.cons_append, List.nil_append, String.reduceToList]
  decide

theorem literal_shape {lit : List Char × Token} (inLits : lit ∈ literalWords) :
    (((lit.1 ≠ [] ∧ (lit.1.head?.all fun c => !c.isDigit && c ≠ '$' && c ≠ ' ') = true) ∧
      (lit.1.tail.all fun c => c ≠ ' ' && c ≠ ']' && c ≠ ':') = true) ∧
      (['(', ')', '[', ']', '~', '-', ':'].all
        fun c => lit.1.head? ≠ some c || lit.1.tail = []) = true) ∧
      (lit.1.head? ≠ some '!' || lit.1.tail.all fun c => c = '=') = true := by
  have shape := List.all_eq_true.mp literalWords_shape lit inLits
  rw [Bool.and_eq_true, Bool.and_eq_true, Bool.and_eq_true, Bool.and_eq_true,
    decide_eq_true_iff] at shape
  exact shape

theorem literal_head {lit : List Char × Token} (inLits : lit ∈ literalWords) :
    ∃ c word, lit.1 = c :: word ∧ c.isDigit = false ∧ c ≠ '$' ∧ c ≠ ' ' := by
  obtain ⟨⟨⟨⟨nonempty, heads⟩, -⟩, -⟩, -⟩ := literal_shape inLits
  obtain ⟨word, token⟩ := lit
  cases word with
  | nil => exact absurd rfl nonempty
  | cons c word =>
    simp only [List.head?_cons, Option.all_some, Bool.and_eq_true, Bool.not_eq_true',
      decide_eq_true_iff] at heads
    exact ⟨c, word, rfl, heads.1.1, heads.1.2, heads.2⟩

/-- The literals have no word where a number, a variable or a space starts. -/
theorem literals_none {x : Char} (input : List Char)
    (starts : x.isDigit = true ∨ x = '$' ∨ x = ' ') :
    ∀ rule ∈ literalWords.map fun (word, token) => literal Char.toLower word token,
      rule.word (x :: input) = 0 := by
  intro rule inRules
  obtain ⟨lit, inLits, rfl⟩ := List.mem_map.mp inRules
  obtain ⟨c, word, shape, digit, dollar, space⟩ := literal_head inLits
  refine literal_word ?_ (by rw [shape]; exact List.cons_ne_nil _ _)
  rw [shape, List.head?_cons]
  intro same
  cases same
  rcases starts with starts | rfl | rfl
  · rw [toLower_of_isDigit starts, starts] at digit
    cases digit
  · exact dollar rfl
  · exact space rfl

/-- What stops a word does not carry a literal on. -/
theorem literals_stopped {rest : List Char} (stops : Stops rest) {lit : List Char × Token}
    (inLits : lit ∈ literalWords) : ∀ h ∈ rest.head?, h.toLower ∉ lit.1.tail := by
  intro h here inTail
  have tails := List.all_eq_true.mp (literal_shape inLits).1.1.2 _ inTail
  simp only [Bool.and_eq_true, decide_eq_true_iff] at tails
  rcases stops h here with rfl | rfl | rfl
  · exact tails.1.1 rfl
  · exact tails.1.2 rfl
  · exact tails.2 rfl

/-! ## Settled words -/

theorem hexWord_le (word : List Char) : hexWord word ≤ word.length := by
  rcases word with _ | ⟨c, _ | ⟨x, word⟩⟩
  · exact Nat.zero_le _
  · rw [hexWord_single]
    exact Nat.zero_le _
  · by_cases zero : c = '0'
    · subst zero
      rw [hexWord]
      split
      · exact Nat.succ_le_succ (Nat.succ_le_succ (runLength_le word))
      · exact Nat.zero_le _
    · rw [hexWord_other zero]
      exact Nat.zero_le _

theorem idTail_le (s : List Char) : idTail s ≤ s.length := by
  fun_induction idTail s with
  | case1 => exact Nat.le_refl 0
  | case2 s ih => exact Nat.succ_le_succ (Nat.succ_le_succ ih)
  | case3 c s notEscape letter ih => exact Nat.succ_le_succ ih
  | case4 c s notEscape notLetter => exact Nat.zero_le _

theorem idWord_le (word : List Char) : idWord word ≤ word.length := by
  cases word with
  | nil => exact Nat.le_refl 0
  | cons c s =>
    rw [idWord]
    split
    · exact Nat.succ_le_succ (idTail_le s)
    · exact Nat.zero_le _

theorem variableWord_dollar (s : List Char) :
    variableWord ('$' :: s) = if idWord s = 0 then 0 else idWord s + 1 := rfl

theorem variableWord_other {c : Char} {s : List Char} (other : c ≠ '$') :
    variableWord (c :: s) = 0 := by
  rw [variableWord]
  intro s' same
  cases same
  exact other rfl

theorem variableWord_le (word : List Char) : variableWord word ≤ word.length := by
  cases word with
  | nil => exact Nat.le_refl 0
  | cons c s =>
    by_cases dollar : c = '$'
    · subst dollar
      rw [variableWord_dollar]
      split
      · exact Nat.zero_le _
      · exact Nat.succ_le_succ (idWord_le s)
    · rw [variableWord_other dollar]
      exact Nat.zero_le _

/-- A word is settled if the literals, the numbers, the names and the spaces are. -/
theorem settled_rules {x : Char} {word rest : List Char}
    (literals : ∀ lit ∈ literalWords, lit.1.head? ≠ some x.toLower ∨
      ∀ h ∈ rest.head?, h.toLower ∉ lit.1.tail)
    (hex : hexWord (x :: word ++ rest) = hexWord (x :: word))
    (digits : runLength Char.isDigit (x :: word ++ rest) = runLength Char.isDigit (x :: word))
    (id_ : idWord (x :: word ++ rest) = idWord (x :: word))
    (variable_ : variableWord (x :: word ++ rest) = variableWord (x :: word))
    (spaces : runLength (fun c => decide (c = ' ')) (x :: word ++ rest) =
      runLength (fun c => decide (c = ' ')) (x :: word)) :
    Settled rules (x :: word) rest := by
  intro rule inRules
  rcases List.mem_append.mp inRules with inLiterals | inPatterns
  · obtain ⟨lit, inLits, rfl⟩ := List.mem_map.mp inLiterals
    exact literal_settled (literals lit inLits)
  · have one : ∀ {p : Prop} [Decidable p], (if p then 0 else 1) ≤ (x :: word).length := by
      intro p _
      split
      · exact Nat.zero_le _
      · exact Nat.succ_le_succ (Nat.zero_le _)
    have one' : ∀ {p : Prop} [Decidable p], (if p then 1 else 0) ≤ (x :: word).length := by
      intro p _
      split
      · exact Nat.succ_le_succ (Nat.zero_le _)
      · exact Nat.zero_le _
    simp only [List.mem_cons, List.not_mem_nil, or_false] at inPatterns
    rcases inPatterns with rfl | rfl | rfl | rfl | rfl | rfl | rfl
    · exact ⟨hex, hexWord_le (x :: word)⟩
    · exact ⟨digits, runLength_le _⟩
    · exact ⟨id_, idWord_le (x :: word)⟩
    · exact ⟨variable_, variableWord_le (x :: word)⟩
    · exact ⟨rfl, one'⟩
    · exact ⟨spaces, runLength_le _⟩
    · exact ⟨by simp only [otherRule, List.cons_append, reduceCtorEq, false_or, List.head?_cons], one⟩

/-- A sign is settled where no literal that starts with it goes on. -/
theorem settled_sign {x : Char} {word rest : List Char}
    (plain : x.isAlpha = false ∧ x.isDigit = false ∧ x ≠ '$' ∧ x ≠ ' ')
    (literals : ∀ lit ∈ literalWords, lit.1.head? ≠ some x.toLower ∨
      ∀ h ∈ rest.head?, h.toLower ∉ lit.1.tail) : Settled rules (x :: word) rest := by
  obtain ⟨alpha, digit, dollar, space⟩ := plain
  have zero : x ≠ '0' := by
    rintro rfl
    cases digit
  refine settled_rules literals ?_ ?_ ?_ ?_ ?_
  · rw [List.cons_append, hexWord_other zero, hexWord_other zero]
  · rw [List.cons_append, runLength, runLength, digit]
    rfl
  · rw [List.cons_append, idWord, idWord, alpha]
    rfl
  · rw [List.cons_append, variableWord_other dollar, variableWord_other dollar]
  · rw [List.cons_append, runLength, runLength, decide_eq_false space]
    rfl

/-- A name is settled where it stops. -/
theorem settled_id {word rest : List Char} (whole : idWord word = word.length)
    (nonempty : word ≠ []) (stops : Stops rest) : Settled rules word rest := by
  cases word with
  | nil => exact absurd rfl nonempty
  | cons x word =>
    have alpha : x.isAlpha = true := by
      rw [idWord] at whole
      split at whole
      · next alpha => exact alpha
      · cases whole
    have dollar : x ≠ '$' := by
      rintro rfl
      cases alpha
    have space : x ≠ ' ' := by
      rintro rfl
      cases alpha
    refine settled_rules (fun lit inLits => .inr (literals_stopped stops inLits))
      (hexWord_append nonempty stops) (runLength_append (stops_digit stops)) ?_ ?_ ?_
    · rw [idWord_append whole nonempty stops, whole]
    · rw [List.cons_append, variableWord_other dollar, variableWord_other dollar]
    · rw [List.cons_append, runLength, runLength, decide_eq_false space]
      rfl

/-! ## The tokens -/

theorem foldl_toDigits {base : Nat} (big : 1 < base) (small : base ≤ 16) (value : Nat) :
    (Nat.toDigits base value).foldl (fun v c => v * base + digitValue c) 0 = value := by
  have digit : ∀ d < 16, digitValue (Nat.digitChar d) = d := by decide
  induction value using Nat.strongRecOn with
  | ind value ih =>
    by_cases last : value < base
    · rw [Nat.toDigits_of_lt_base last]
      show 0 * base + digitValue (Nat.digitChar value) = value
      rw [digit value (by omega)]
      omega
    · have more : base ≤ value := Nat.not_lt.mp last
      have less : value % base < base := Nat.mod_lt _ (by omega)
      rw [Nat.toDigits_of_base_le big more, List.foldl_append,
        ih (value / base) (Nat.div_lt_self (by omega) big)]
      show value / base * base + digitValue (Nat.digitChar (value % base)) = value
      rw [digit _ (by omega), Nat.mul_comm]
      exact Nat.div_add_mod value base

theorem toDigits_xdigit (value : Nat) : ∀ c ∈ Nat.toDigits 16 value, isXdigit c = true := by
  have digit : ∀ d < 16, isXdigit (Nat.digitChar d) = true := by decide
  induction value using Nat.strongRecOn with
  | ind value ih =>
    intro c inDigits
    by_cases last : value < 16
    · rw [Nat.toDigits_of_lt_base last] at inDigits
      rw [List.mem_singleton.mp inDigits]
      exact digit value last
    · rw [Nat.toDigits_of_base_le (by decide) (Nat.not_lt.mp last)] at inDigits
      rcases List.mem_append.mp inDigits with inFront | inLast
      · exact ih (value / 16) (Nat.div_lt_self (by omega) (by decide)) c inFront
      · rw [List.mem_singleton.mp inLast]
        exact digit _ (Nat.mod_lt _ (by decide))

theorem strtol_toDigits {base : Nat} (big : 1 < base) (small : base ≤ 16) (value : UInt32) :
    UInt32.ofNat (strtol base (Nat.toDigits base value.toNat)) = value := by
  have bound := value.toNat_lt
  rw [strtol, foldl_toDigits big small, Nat.min_eq_left (by omega), UInt32.ofNat_toNat]

theorem numberText_first (base : Nat) (value : UInt32) :
    ∃ d word, numberText base value = d :: word ∧ d.isDigit = true := by
  unfold numberText
  split
  · rcases digits : Nat.toDigits 10 value.toNat with _ | ⟨d, word⟩
    · exact absurd digits Nat.toDigits_ne_nil
    · exact ⟨d, word, rfl, Nat.isDigit_of_mem_toDigits (by decide) (by decide)
        (digits ▸ List.mem_cons_self)⟩
  · exact ⟨'0', _, rfl, rfl⟩

theorem newlineRule_le (s : List Char) : newlineRule.word s ≤ 1 := by
  unfold newlineRule
  dsimp only
  split <;> omega

theorem otherRule_le (s : List Char) : otherRule.word s ≤ 1 := by
  unfold otherRule
  dsimp only
  split <;> omega

/-- The rules behind the numbers take at most one character where no name and no space starts. -/
theorem others_le {x : Char} {word : List Char}
    (plain : x.isAlpha = false ∧ x ≠ '$' ∧ x ≠ ' ') :
    ∀ rule ∈ [stringRule, variableRule, newlineRule, spaceRule, otherRule],
      rule.word (x :: word) ≤ 1 := by
  have id_ : stringRule.word (x :: word) = 0 := by
    show idWord (x :: word) = 0
    rw [idWord, plain.1]
    rfl
  have spaces : spaceRule.word (x :: word) = 0 := by
    show runLength (fun c => decide (c = ' ')) (x :: word) = 0
    rw [runLength, decide_eq_false plain.2.2]
    rfl
  intro rule inRules
  simp only [List.mem_cons, List.not_mem_nil, or_false] at inRules
  rcases inRules with rfl | rfl | rfl | rfl | rfl
  · rw [id_]
    exact Nat.zero_le 1
  · exact Nat.le_trans (Nat.le_of_eq (variableWord_other plain.2.1)) (Nat.zero_le 1)
  · exact newlineRule_le _
  · rw [spaces]
    exact Nat.zero_le 1
  · exact otherRule_le _

theorem isDigit_plain {d : Char} (digit : d.isDigit = true) :
    d.isAlpha = false ∧ d ≠ '$' ∧ d ≠ ' ' := by
  refine ⟨?_, ?_, ?_⟩
  · rw [Char.isDigit, Bool.and_eq_true, decide_eq_true_iff, decide_eq_true_iff] at digit
    have bound := UInt32.le_iff_toNat_le.mp digit.2
    have constants : '9'.val.toNat = 57 ∧ 'A'.val.toNat = 65 ∧ 'a'.val.toNat = 97 :=
      ⟨rfl, rfl, rfl⟩
    have letters : d.isAlpha = (decide (d.val ≥ 'A'.val ∧ d.val ≤ 'Z'.val) ||
        (decide (d.val ≥ 'a'.val) && decide (d.val ≤ 'z'.val))) := rfl
    rcases alpha : d.isAlpha with _ | _
    · rfl
    · simp only [letters, Bool.or_eq_true, Bool.and_eq_true, decide_eq_true_eq, ge_iff_le,
        UInt32.le_iff_toNat_le] at alpha
      omega
  · rintro rfl
    cases digit
  · rintro rfl
    cases digit

theorem rules_eq (front back : List (ScanRule Char Token))
    (split : [hexRule, decimalRule, stringRule, variableRule, newlineRule, spaceRule, otherRule] =
      front ++ back) :
    rules = ((literalWords.map fun (word, token) => literal Char.toLower word token) ++ front) ++
      back := by
  rw [List.append_assoc, ← split]
  rfl

/-- A pattern rule takes a word if the literals and the pattern rules in front of it have none, and
those behind it none that is longer. -/
theorem longest_pattern (front : List (ScanRule Char Token)) (rule : ScanRule Char Token)
    {back : List (ScanRule Char Token)}
    (split : [hexRule, decimalRule, stringRule, variableRule, newlineRule, spaceRule, otherRule] =
      front ++ rule :: back) {x : Char} {input : List Char}
    (starts : x.isDigit = true ∨ x = '$' ∨ x = ' ')
    (none_ : ∀ rule' ∈ front, rule'.word (x :: input) = 0)
    (whole : rule.word (x :: input) = (x :: input).length)
    (shorter : ∀ rule' ∈ back, rule'.word (x :: input) ≤ (x :: input).length) :
    longest rules (x :: input) = ((x :: input).length, rule.token (x :: input)) := by
  rw [rules_eq front (rule :: back) split, longest_at, whole, List.take_length]
  · intro rule' inRules
    rcases List.mem_append.mp inRules with inLiterals | inFront
    · exact literals_none input starts rule' inLiterals
    · exact none_ rule' inFront
  · rw [whole]
    exact Nat.succ_ne_zero _
  · rw [whole]
    exact shorter

/-- A number with its base is one token. -/
theorem longest_number (base : Nat) (value : UInt32) :
    longest rules (numberText base value) =
      ((numberText base value).length, some (.number value)) := by
  unfold numberText
  split
  · have all : ∀ c ∈ Nat.toDigits 10 value.toNat, c.isDigit = true := fun c inDigits =>
      Nat.isDigit_of_mem_toDigits (by decide) (by decide) inDigits
    have number := strtol_toDigits (by decide : 1 < 10) (by decide) value
    rcases digits : Nat.toDigits 10 value.toNat with _ | ⟨d, word⟩
    · exact absurd digits Nat.toDigits_ne_nil
    rw [digits] at all number
    have digit : d.isDigit = true := all d List.mem_cons_self
    have hex : hexWord (d :: word) = 0 := by
      by_cases zero : d = '0'
      · subst zero
        rcases word with _ | ⟨x, word⟩
        · exact hexWord_single _
        · have x_digit := all x (List.mem_cons_of_mem _ List.mem_cons_self)
          rw [hexWord, if_neg]
          rintro ⟨lower, -⟩
          rw [toLower_of_isDigit x_digit] at lower
          rw [lower] at x_digit
          cases x_digit
      · exact hexWord_other zero
    rw [longest_pattern [hexRule] decimalRule rfl (.inl digit) ?_
      (runLength_all all) ?_]
    · rw [← number]
      rfl
    · intro rule inRules
      rw [List.mem_singleton.mp inRules]
      exact hex
    · exact fun rule inRules => Nat.le_trans (others_le (isDigit_plain digit) rule inRules)
        (Nat.succ_le_succ (Nat.zero_le _))
  · have number := strtol_toDigits (by decide : 1 < 16) (by decide) value
    have all := runLength_all (toDigits_xdigit value.toNat)
    have some_ : (Nat.toDigits 16 value.toNat).length ≠ 0 :=
      Nat.ne_of_gt Nat.length_toDigits_pos
    show longest rules ('0' :: 'x' :: Nat.toDigits 16 value.toNat) = _
    rw [longest_pattern [] hexRule rfl (.inl rfl) nofun ?_ ?_]
    · show (_, some (Token.number (UInt32.ofNat (strtol 16 (Nat.toDigits 16 value.toNat))))) = _
      rw [number]
      rfl
    · show hexWord ('0' :: 'x' :: Nat.toDigits 16 value.toNat) = _
      rw [hexWord, if_pos ⟨rfl, by rw [all]; exact some_⟩, all]
      rfl
    · intro rule inRules
      rcases List.mem_cons.mp inRules with rfl | inRules
      · exact runLength_le _
      · exact Nat.le_trans (others_le (by decide) rule inRules)
          (Nat.succ_le_succ (Nat.zero_le _))

/-- A variable is one token. -/
theorem longest_variable (name : VariableName) :
    longest rules ('$' :: name.chars) = (name.chars.length + 1, some (.variable name)) := by
  have some_ : idWord name.chars ≠ 0 := by
    rw [name.isId]
    exact fun none_ => name.nonempty (List.eq_nil_of_length_eq_zero none_)
  rw [longest_pattern [hexRule, decimalRule, stringRule] variableRule rfl (.inr (.inl rfl))
    ?_ ?_ ?_]
  · show (_, some (variableToken name.chars)) = _
    rw [variableToken, dif_pos ⟨name.nonempty, name.isId⟩]
    rfl
  · intro rule inRules
    simp only [List.mem_cons, List.not_mem_nil, or_false] at inRules
    rcases inRules with rfl | rfl | rfl <;> rfl
  · show variableWord ('$' :: name.chars) = _
    rw [variableWord_dollar, if_neg some_, name.isId, List.length_cons]
  · intro rule inRules
    simp only [List.mem_cons, List.not_mem_nil, or_false] at inRules
    rcases inRules with rfl | rfl | rfl
    · exact Nat.le_trans (newlineRule_le _) (Nat.succ_le_succ (Nat.zero_le _))
    · exact Nat.zero_le _
    · exact Nat.le_trans (otherRule_le _) (Nat.succ_le_succ (Nat.zero_le _))

/-! ## One token after the other -/

theorem scanAll_token {word rest : List Char} {token : Option Token} (nonempty : word ≠ [])
    (settled : Settled rules word rest) (first : longest rules word = (word.length, token)) :
    scanAll rules (word ++ rest) = token.toList ++ scanAll rules rest :=
  scanAll_word nonempty (by rw [longest_settled settled, first])

theorem scanAll_number (base : Nat) (value : UInt32) {rest : List Char} (stops : Stops rest) :
    scanAll rules (numberText base value ++ rest) = .number value :: scanAll rules rest := by
  obtain ⟨d, word, shape, digit⟩ := numberText_first base value
  obtain ⟨alpha, dollar, space⟩ := isDigit_plain digit
  have nonempty : numberText base value ≠ [] := by rw [shape]; exact List.cons_ne_nil _ _
  refine scanAll_token nonempty ?_ (longest_number base value)
  rw [shape] at nonempty ⊢
  refine settled_rules (fun lit inLits => .inr (literals_stopped stops inLits))
    (hexWord_append nonempty stops) (runLength_append (stops_digit stops)) ?_ ?_ ?_
  · rw [List.cons_append, idWord, idWord, alpha]
    rfl
  · rw [List.cons_append, variableWord_other dollar, variableWord_other dollar]
  · rw [List.cons_append, runLength, runLength, decide_eq_false space]
    rfl

theorem scanAll_variable (name : VariableName) {rest : List Char} (stops : Stops rest) :
    scanAll rules ('$' :: name.chars ++ rest) = .variable name :: scanAll rules rest := by
  refine scanAll_token (List.cons_ne_nil _ _) ?_ (longest_variable name)
  refine settled_rules (fun lit inLits => .inr (literals_stopped stops inLits)) rfl rfl rfl ?_ rfl
  rw [List.cons_append, variableWord_dollar, variableWord_dollar,
    idWord_append name.isId name.nonempty stops, name.isId]

theorem scanAll_string {word rest : List Char} (whole : idWord word = word.length)
    (nonempty : word ≠ []) (scanned : longest rules word = (word.length, some (.string word)))
    (stops : Stops rest) : scanAll rules (word ++ rest) = .string word :: scanAll rules rest :=
  scanAll_token nonempty (settled_id whole nonempty stops) scanned

/-- The signs that are printed and their tokens. -/
def printedSigns : List (List Char × Option Token) :=
  ([.add, .sub, .mul, .div, .mod, .leftShift, .rightShift, .equalTo, .notEqualTo, .lessThan,
    .greaterThan, .lessThanOrEqualTo, .greaterThanOrEqualTo, .bitwiseAnd, .bitwiseXor, .bitwiseOr,
    .logicalAnd, .logicalOr] : List BinaryOp).map (fun op => (op.string, some op.token)) ++
  [(['('], some (.char '(')), ([')'], some (.char ')')), (['['], some (.char '[')),
   ([']'], some (.char ']')), ([':'], some (.char ':')), (['!'], some (.negate .logicalNot)),
   (['~'], some (.negate .bitwiseNot)), ([' '], none)]

theorem longest_printedSigns : printedSigns.all (fun sign =>
    longest rules sign.1 = (sign.1.length, sign.2)) = true := by
  simp only [rules, literalWords, commandWords, List.map_cons, List.map_nil, List.flatMap_cons,
    List.flatMap_nil, List.cons_append, List.nil_append, String.reduceToList]
  decide +kernel

theorem longest_sign {word : List Char} {token : Option Token}
    (printed : (word, token) ∈ printedSigns) : longest rules word = (word.length, token) :=
  of_decide_eq_true (List.all_eq_true.mp longest_printedSigns (word, token) printed)

theorem scanAll_operator (op : BinaryOp) {rest : List Char} (stops : Stops rest) :
    scanAll rules (op.string ++ rest) = op.token :: scanAll rules rest := by
  have first : longest rules op.string = (op.string.length, some op.token) :=
    longest_sign (by cases op <;> decide)
  have settled : Settled rules op.string rest := by
    cases op
    all_goals
      exact settled_sign (by decide) fun lit inLits => .inr (literals_stopped stops inLits)
  refine scanAll_token ?_ settled first
  cases op <;> exact List.cons_ne_nil _ _

theorem scanAll_char {c : Char} {token : Token}
    (isOne : c ∈ ['(', ')', '[', ']', '~', '-', ':'])
    (printed : ([c], some token) ∈ printedSigns) (rest : List Char) :
    scanAll rules (c :: rest) = token :: scanAll rules rest := by
  have plain : ['(', ')', '[', ']', '~', '-', ':'].all (fun c =>
      c.isAlpha = false && c.isDigit = false && c ≠ '$' && c ≠ ' ' && c.toLower = c) = true := by
    decide
  have facts := List.all_eq_true.mp plain c isOne
  simp only [Bool.and_eq_true, decide_eq_true_iff] at facts
  obtain ⟨⟨⟨⟨alpha, digit⟩, dollar⟩, space⟩, lower⟩ := facts
  show scanAll rules ([c] ++ rest) = (some token).toList ++ scanAll rules rest
  refine scanAll_token (List.cons_ne_nil c []) (settled_sign ⟨alpha, digit, dollar, space⟩ ?_)
    (longest_sign printed)
  intro lit inLits
  have alone := List.all_eq_true.mp (literal_shape inLits).1.2 c isOne
  simp only [Bool.or_eq_true, decide_eq_true_iff] at alone
  rw [lower]
  rcases alone with other | ends
  · exact .inl other
  · refine .inr fun h _ inTail => ?_
    rw [ends] at inTail
    cases inTail

theorem scanAll_not {rest : List Char} (other : ∀ h ∈ rest.head?, h ≠ '=') :
    scanAll rules ('!' :: rest) = .negate .logicalNot :: scanAll rules rest := by
  show scanAll rules (['!'] ++ rest) = (some _).toList ++ scanAll rules rest
  refine scanAll_token (List.cons_ne_nil '!' []) (settled_sign (by decide) ?_) (longest_sign (by decide))
  intro lit inLits
  have goesOn := (literal_shape inLits).2
  simp only [Bool.or_eq_true, decide_eq_true_iff, List.all_eq_true] at goesOn
  rcases goesOn with differs | equals
  · exact .inl differs
  · exact .inr fun h here inTail => other h here (toLower_eq_equals (equals _ inTail))

theorem scanAll_space {rest : List Char} (other : ∀ h ∈ rest.head?, h ≠ ' ') :
    scanAll rules (' ' :: rest) = scanAll rules rest := by
  show scanAll rules ([' '] ++ rest) = (none : Option Token).toList ++ scanAll rules rest
  refine scanAll_token (List.cons_ne_nil ' ' []) ?_ (longest_sign (by decide))
  refine settled_rules (fun lit inLits => .inl ?_) ?_ rfl rfl rfl ?_
  · obtain ⟨c, word, shape, -, -, space⟩ := literal_head inLits
    rw [shape]
    exact fun same => space (Option.some.inj same)
  · rw [List.cons_append, hexWord_other (by decide), hexWord_other (by decide)]
  · exact runLength_append fun h here => decide_eq_false (other h here)

/-! ## A whole expression -/

/-- What a printed expression starts with. -/
def Starts (s : List Char) : Prop := ∃ c t, s = c :: t ∧ c ≠ ' ' ∧ c ≠ '='

theorem Starts.append {s : List Char} (starts : Starts s) (rest : List Char) : Starts (s ++ rest) := by
  obtain ⟨c, t, rfl, other⟩ := starts
  exact ⟨c, t ++ rest, rfl, other⟩

theorem starts_bracketed {s : List Char} (starts : Starts s) (brackets : Bool) :
    Starts (bracketed brackets s) := by
  cases brackets with
  | false => exact starts
  | true => exact ⟨'(', ' ' :: (s ++ [' ', ')']), rfl, by decide⟩

theorem Starts.space {s : List Char} (starts : Starts s) : ∀ h ∈ s.head?, h ≠ ' ' := by
  obtain ⟨c, t, rfl, space, -⟩ := starts
  intro h here
  cases here
  exact space

theorem Starts.equals {s : List Char} (starts : Starts s) : ∀ h ∈ s.head?, h ≠ '=' := by
  obtain ⟨c, t, rfl, -, equals⟩ := starts
  intro h here
  cases here
  exact equals

theorem starts_id {word : List Char} (whole : idWord word = word.length) (nonempty : word ≠ []) :
    Starts word := by
  cases word with
  | nil => exact absurd rfl nonempty
  | cons c word =>
    refine ⟨c, word, rfl, ?_, ?_⟩
    · rintro rfl
      cases whole
    · rintro rfl
      cases whole

variable (vars : SystemVariables n) (base : Nat)

theorem text_unary (op : UnaryOp) (operand : Expression n) :
    (Expression.unary op operand).text vars.names base =
      op.strings.1 ++ bracketed (op.brackets operand) (operand.text vars.names base) ++
        op.strings.2 := rfl

theorem text_binary (op : BinaryOp) (operand1 operand2 : Expression n) :
    (Expression.binary op operand1 operand2).text vars.names base =
      bracketed (bracketsNecessary op operand1) (operand1.text vars.names base) ++
        ([' '] ++ op.string ++ [' ']) ++
        bracketed (bracketsNecessary op operand2) (operand2.text vars.names base) := rfl

theorem starts_text (exp : Expression n) : Starts (exp.text vars.names base) := by
  induction exp with
  | integer value =>
    obtain ⟨d, word, shape, digit⟩ := numberText_first base value
    refine ⟨d, word, shape, (isDigit_plain digit).2.2, ?_⟩
    rintro rfl
    cases digit
  | unary op operand ih =>
    rw [text_unary]
    cases op
    all_goals exact ⟨_, _, rfl, by decide⟩
  | binary op operand1 operand2 ih1 ih2 =>
    rw [text_binary, List.append_assoc]
    exact (starts_bracketed ih1 _).append _
  | systemVariable index =>
    show Starts ((vars.names index).1 ++ [':'] ++ (vars.names index).2)
    rw [List.append_assoc]
    exact (starts_id (vars.isId index).1 (vars.nonempty index).1).append _
  | «variable» name => exact ⟨'$', name.chars, rfl, by decide⟩

theorem scanAll_bracketed {s : List Char} {tokens : List Token} (starts : Starts s)
    (scanned : ∀ rest, Stops rest → scanAll rules (s ++ rest) = tokens ++ scanAll rules rest)
    (brackets : Bool) {rest : List Char} (stops : Stops rest) :
    scanAll rules (bracketed brackets s ++ rest) =
      bracketedTokens brackets tokens ++ scanAll rules rest := by
  cases brackets with
  | false => exact scanned rest stops
  | true =>
    have shape : bracketed true s ++ rest = '(' :: ' ' :: (s ++ (' ' :: ')' :: rest)) := by
      simp [bracketed]
    have shape' : bracketedTokens true tokens ++ scanAll rules rest =
        .char '(' :: (tokens ++ .char ')' :: scanAll rules rest) := by
      simp [bracketedTokens]
    have closing : ∀ h ∈ (')' :: rest).head?, h ≠ ' ' := by
      intro h here
      cases here
      decide
    rw [shape, shape', scanAll_char (by decide) (by decide : (['('], some (.char '(')) ∈ _),
      scanAll_space (starts.append _).space, scanned _ (stops_cons _ (.inl rfl)),
      scanAll_space closing,
      scanAll_char (by decide) (by decide : ([')'], some (.char ')')) ∈ _)]

/-- A printed expression is scanned into the tokens that its parts stand for. -/
theorem scanAll_text (exp : Expression n) {rest : List Char} (stops : Stops rest) :
    scanAll rules (exp.text vars.names base ++ rest) =
      exp.tokens vars.names ++ scanAll rules rest := by
  induction exp generalizing rest with
  | integer value => exact scanAll_number base value stops
  | unary op operand ih =>
    have starts := starts_bracketed (starts_text vars base operand) (op.brackets operand)
    have inner := fun {rest} (stops : Stops rest) =>
      scanAll_bracketed (starts_text vars base operand) (fun _ => ih) (op.brackets operand) stops
    cases op with
    | logicalNot =>
      have shape : (Expression.unary .logicalNot operand).text vars.names base ++ rest =
          '!' :: (bracketed (UnaryOp.logicalNot.brackets operand)
            (operand.text vars.names base) ++ rest) := by
        simp [text_unary, UnaryOp.strings]
      rw [shape, scanAll_not (starts.append rest).equals, inner stops]
      simp [Expression.tokens, UnaryOp.tokens]
    | bitwiseNot =>
      have shape : (Expression.unary .bitwiseNot operand).text vars.names base ++ rest =
          '~' :: (bracketed (UnaryOp.bitwiseNot.brackets operand)
            (operand.text vars.names base) ++ rest) := by
        simp [text_unary, UnaryOp.strings]
      rw [shape, scanAll_char (by decide)
        (by decide : (['~'], some (.negate .bitwiseNot)) ∈ _), inner stops]
      simp [Expression.tokens, UnaryOp.tokens]
    | minus =>
      have shape : (Expression.unary .minus operand).text vars.names base ++ rest =
          '-' :: (bracketed (UnaryOp.minus.brackets operand)
            (operand.text vars.names base) ++ rest) := by
        simp [text_unary, UnaryOp.strings]
      rw [shape, scanAll_char (by decide) (by decide : (['-'], some (.char '-')) ∈ _),
        inner stops]
      simp [Expression.tokens, UnaryOp.tokens]
    | dereference =>
      have shape : (Expression.unary .dereference operand).text vars.names base ++ rest =
          '[' :: (bracketed (UnaryOp.dereference.brackets operand)
            (operand.text vars.names base) ++ (']' :: rest)) := by
        simp [text_unary, UnaryOp.strings]
      rw [shape, scanAll_char (by decide) (by decide : (['['], some (.char '[')) ∈ _),
        inner (stops_cons _ (.inr (.inl rfl))),
        scanAll_char (by decide) (by decide : ([']'], some (.char ']')) ∈ _)]
      simp [Expression.tokens, UnaryOp.tokens]
  | binary op operand1 operand2 ih1 ih2 =>
    have starts2 := starts_bracketed (starts_text vars base operand2)
      (bracketsNecessary op operand2)
    have shape : (Expression.binary op operand1 operand2).text vars.names base ++ rest =
        bracketed (bracketsNecessary op operand1) (operand1.text vars.names base) ++
          (' ' :: (op.string ++ (' ' :: (bracketed (bracketsNecessary op operand2)
            (operand2.text vars.names base) ++ rest)))) := by
      simp [text_binary]
    have operator_ : ∀ s : List Char, ∀ h ∈ (op.string ++ s).head?, h ≠ ' ' := by
      intro s h here
      cases op
      all_goals
        cases here
        decide
    rw [shape, scanAll_bracketed (starts_text vars base operand1) (fun _ => ih1) _
      (stops_cons _ (.inl rfl)), scanAll_space (operator_ _),
      scanAll_operator op (stops_cons _ (.inl rfl)), scanAll_space (starts2.append rest).space,
      scanAll_bracketed (starts_text vars base operand2) (fun _ => ih2) _ stops]
    simp [Expression.tokens]
  | systemVariable index =>
    have shape : (Expression.systemVariable index).text vars.names base ++ rest =
        (vars.names index).1 ++ (':' :: ((vars.names index).2 ++ rest)) := by
      show (vars.names index).1 ++ [':'] ++ (vars.names index).2 ++ rest = _
      simp
    rw [shape, scanAll_string (vars.isId index).1 (vars.nonempty index).1 (vars.scanned index).1
      (stops_cons _ (.inr (.inr rfl))), scanAll_char (by decide)
      (by decide : ([':'], some (.char ':')) ∈ _), scanAll_string (vars.isId index).2
      (vars.nonempty index).2 (vars.scanned index).2 stops]
    rfl
  | «variable» name => exact scanAll_variable name stops

end FuseX.Debugger
