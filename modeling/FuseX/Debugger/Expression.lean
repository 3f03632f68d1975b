import FuseX.Lib.Scanner
import Mathlib.Algebra.Ring.Nat

/-!
# Debugger expressions

The expression trees of `expression.c` with what they evaluate to and how they are printed, the
words that the scanner of `commandl.l` has for them, and the grammar of `commandy.y`.

The grammar is ambiguous, and `yacc` settles it by the declared precedences: after an operand,
what is on the stack is reduced as long as its rule is not below the token that comes.
-/

namespace FuseX.Debugger

open Lib

/-! ## Trees -/

inductive UnaryOp : Type
  | logicalNot | bitwiseNot | minus | dereference
  deriving DecidableEq

inductive BinaryOp : Type
  | add | sub | mul | div | mod | leftShift | rightShift | equalTo | notEqualTo
  | lessThan | greaterThan | lessThanOrEqualTo | greaterThanOrEqualTo
  | bitwiseAnd | bitwiseXor | bitwiseOr | logicalAnd | logicalOr
  deriving DecidableEq

/-- The letters, digits and quotes of an `ID` behind its first letter. -/
def isIdChar (c : Char) : Bool := c.isAlpha || c.isDigit || c = '\''

/-- How far an `ID` goes on: a space needs a backslash. -/
def idTail : List Char → Nat
  | [] => 0
  | '\\' :: ' ' :: s => idTail s + 2
  | c :: s => if isIdChar c then idTail s + 1 else 0

/-- `[a-z]([a-z0-9']|\\[ ])*` -/
def idWord : List Char → Nat
  | [] => 0
  | c :: s => if c.isAlpha then idTail s + 1 else 0

/-- The name of a variable. It comes from the scanner, which matches an `ID`. -/
structure VariableName where
  chars : List Char
  nonempty : chars ≠ []
  isId : idWord chars = chars.length
  deriving DecidableEq

/-- `debugger_expression`, over `n` system variables. -/
inductive Expression (n : Nat) : Type
  | integer (value : UInt32)
  | unary (op : UnaryOp) (operand : Expression n)
  | binary (op : BinaryOp) (operand1 operand2 : Expression n)
  | systemVariable (index : Fin n)
  | variable (name : VariableName)
  deriving DecidableEq

variable {n : Nat}

/-! ## Evaluation -/

/-- What an expression is evaluated in. -/
structure Environment (n : Nat) where
  systemVariableGet : Fin n → UInt32
  variableGet : VariableName → UInt32
  readbyte : UInt16 → UInt8

def truth (b : Bool) : UInt32 := if b then 1 else 0

/-- `evaluate_unaryop` -/
def UnaryOp.evaluate (readbyte : UInt16 → UInt8) (op : UnaryOp) (value : UInt32) : UInt32 :=
  match op with
  | .logicalNot => truth (value = 0)
  | .bitwiseNot => ~~~value
  | .minus => -value
  | .dereference => (readbyte value.toUInt16).toUInt32

/-- `evaluate_binaryop` -/
def BinaryOp.evaluate (op : BinaryOp) (value1 value2 : UInt32) : UInt32 :=
  match op with
  | .add => value1 + value2
  | .sub => value1 - value2
  | .mul => value1 * value2
  | .div => if value2 = 0 then 0 else value1 / value2
  | .mod => if value2 = 0 then 0 else value1 % value2
  | .leftShift => if 32 ≤ value2 then 0 else value1 <<< value2
  | .rightShift => if 32 ≤ value2 then 0 else value1 >>> value2
  | .equalTo => truth (value1 = value2)
  | .notEqualTo => truth (value1 ≠ value2)
  | .greaterThan => truth (value2 < value1)
  | .lessThan => truth (value1 < value2)
  | .lessThanOrEqualTo => truth (value1 ≤ value2)
  | .greaterThanOrEqualTo => truth (value2 ≤ value1)
  | .bitwiseAnd => value1 &&& value2
  | .bitwiseXor => value1 ^^^ value2
  | .bitwiseOr => value1 ||| value2
  | .logicalAnd => truth (value1 ≠ 0 && value2 ≠ 0)
  | .logicalOr => truth (value1 ≠ 0 || value2 ≠ 0)

/-- `debugger_expression_evaluate` -/
def Expression.evaluate (env : Environment n) : Expression n → UInt32
  | .integer value => value
  | .unary op operand => op.evaluate env.readbyte (operand.evaluate env)
  | .binary op operand1 operand2 =>
      op.evaluate (operand1.evaluate env) (operand2.evaluate env)
  | .systemVariable index => env.systemVariableGet index
  | .variable name => env.variableGet name

/-! ## Printing -/

/-- `unaryop_precedence` -/
def UnaryOp.precedence : UnaryOp → Nat
  | .logicalNot | .bitwiseNot | .minus => 10
  | .dereference => 11

/-- `binaryop_precedence` -/
def BinaryOp.precedence : BinaryOp → Nat
  | .logicalOr => 0
  | .logicalAnd => 1
  | .bitwiseOr => 2
  | .bitwiseXor => 3
  | .bitwiseAnd => 4
  | .equalTo | .notEqualTo => 5
  | .lessThan | .greaterThan | .lessThanOrEqualTo | .greaterThanOrEqualTo => 6
  | .leftShift | .rightShift => 7
  | .add | .sub => 8
  | .mul | .div | .mod => 9

/-- The `precedence` of a tree, as its constructor sets it. -/
def Expression.precedence : Expression n → Nat
  | .unary op _ => op.precedence
  | .binary op _ _ => op.precedence
  | .integer _ | .systemVariable _ | .variable _ => 12

/-- `is_non_associative` -/
def BinaryOp.isNonAssociative : BinaryOp → Bool
  | .add | .mul | .logicalAnd | .logicalOr | .bitwiseAnd | .bitwiseXor | .bitwiseOr => false
  | .sub | .div | .mod | .leftShift | .rightShift | .equalTo | .notEqualTo
  | .lessThan | .greaterThan | .lessThanOrEqualTo | .greaterThanOrEqualTo => true

/-- `brackets_necessary`. Only binary operations have the precedence of a binary operation. -/
def bracketsNecessary (top : BinaryOp) (operand : Expression n) : Bool :=
  if operand.precedence < top.precedence then true
  else if top.precedence = operand.precedence then
    top.isNonAssociative || match operand with
      | .binary op _ _ => op.isNonAssociative
      | _ => false
  else false

/-- The strings that `deparse_unaryop` puts around its operand. -/
def UnaryOp.strings : UnaryOp → List Char × List Char
  | .logicalNot => (['!'], [])
  | .bitwiseNot => (['~'], [])
  | .minus => (['-'], [])
  | .dereference => (['['], [']'])

/-- The `operation_string` of `deparse_binaryop`. -/
def BinaryOp.string : BinaryOp → List Char
  | .add => ['+']
  | .sub => ['-']
  | .mul => ['*']
  | .div => ['/']
  | .mod => ['%']
  | .leftShift => ['<', '<']
  | .rightShift => ['>', '>']
  | .equalTo => ['=', '=']
  | .notEqualTo => ['!', '=']
  | .lessThan => ['<']
  | .greaterThan => ['>']
  | .lessThanOrEqualTo => ['<', '=']
  | .greaterThanOrEqualTo => ['>', '=']
  | .bitwiseAnd => ['&']
  | .bitwiseXor => ['^']
  | .bitwiseOr => ['|']
  | .logicalAnd => ['&', '&']
  | .logicalOr => ['|', '|']

def bracketed (brackets : Bool) (operand : List Char) : List Char :=
  if brackets then ['(', ' '] ++ operand ++ [' ', ')'] else operand

/-- Whether `deparse_unaryop` puts brackets around its operand. -/
def UnaryOp.brackets (op : UnaryOp) (operand : Expression n) : Bool :=
  op ≠ .dereference && operand.precedence < op.precedence

/-- A number in `debugger_output_base`. -/
def numberText (base : Nat) (value : UInt32) : List Char :=
  if base = 10 then Nat.toDigits 10 value.toNat else ['0', 'x'] ++ Nat.toDigits 16 value.toNat

/-- `debugger_expression_deparse`, where `fit` is what each `snprintf` leaves of its text. -/
def Expression.deparseWith (fit : List Char → List Char) (names : Fin n → List Char × List Char)
    (base : Nat) : Expression n → List Char
  | .integer value => fit (numberText base value)
  | .unary op operand =>
      fit (op.strings.1 ++ bracketed (op.brackets operand) (operand.deparseWith fit names base) ++
        op.strings.2)
  | .binary op operand1 operand2 =>
      fit (bracketed (bracketsNecessary op operand1) (operand1.deparseWith fit names base) ++
        ([' '] ++ op.string ++ [' ']) ++
        bracketed (bracketsNecessary op operand2) (operand2.deparseWith fit names base))
  | .systemVariable index => fit ((names index).1 ++ [':'] ++ (names index).2)
  | .variable name => fit ('$' :: name.chars)

/-- Printing to a buffer of `length` bytes. -/
def Expression.deparse (names : Fin n → List Char × List Char) (base length : Nat)
    (exp : Expression n) : List Char :=
  exp.deparseWith (List.take (length - 1)) names base

/-- The printed form when there is room for it. -/
def Expression.text (names : Fin n → List Char × List Char) (base : Nat) (exp : Expression n) :
    List Char :=
  exp.deparseWith id names base

/-! ## The scanner -/

inductive Keyword : Type
  | base | «break» | «continue» | commands | condition | clear | delete | disassemble | event
  | finish | «if» | ignore | next | out | port | print | read | set | step | tbreak | time | write
  deriving DecidableEq

inductive Token : Type
  | char (c : Char)
  | negate (op : UnaryOp)
  | equality (op : BinaryOp)
  | comparison (op : BinaryOp)
  | leftShift
  | rightShift
  | logicalAnd
  | logicalOr
  | keyword (k : Keyword)
  | number (value : UInt32)
  | string (s : List Char)
  | variable (name : VariableName)
  | error
  deriving DecidableEq

/-- The words for commands, in the order of the rules. -/
def commandWords : List (Keyword × List String) :=
  [(.base, ["ba", "bas", "base"]),
   (.break, ["br", "bre", "brea", "break", "breakp", "breakpo", "breakpoi", "breakpoin",
     "breakpoint"]),
   (.continue, ["co", "con", "cont", "contin", "continu", "continue"]),
   (.commands, ["com", "comm", "comma", "comman", "command", "commands"]),
   (.condition, ["cond", "condi", "condit", "conditi", "conditio", "condition"]),
   (.clear, ["cl", "cle", "clea", "clear"]),
   (.delete, ["del", "dele", "delet", "delete"]),
   (.disassemble, ["di", "dis", "disa", "disas", "disass", "disasse", "disassm", "disassmb",
     "diasassmbl", "disassemble"]),
   (.event, ["ev", "eve", "even", "event"]),
   (.finish, ["fi", "fin", "fini", "finis", "finish"]),
   (.if, ["if"]),
   (.ignore, ["ig", "ign", "igno", "ignor", "ignore"]),
   (.next, ["n", "ne", "nex", "next"]),
   (.out, ["o", "ou", "out"]),
   (.port, ["p", "po", "por", "port"]),
   (.print, ["pr", "pri", "prin", "print"]),
   (.read, ["re", "rea", "read"]),
   (.set, ["se", "set"]),
   (.step, ["s", "st", "ste", "step"]),
   (.tbreak, ["t", "tb", "tbr", "tbre", "tbrea", "tbreak", "tbreakp", "tbreakpo", "tbreakpoi",
     "tbreakpoin", "tbreakpoint"]),
   (.time, ["ti", "tim", "time"]),
   (.write, ["w", "wr", "wri", "writ", "write"])]

/-- The words for operators. -/
def operatorWords : List (List Char × Token) :=
  [(['('], .char '('), ([')'], .char ')'), (['['], .char '['), ([']'], .char ']'),
   (['!'], .negate .logicalNot), (['~'], .negate .bitwiseNot),
   (['=', '='], .equality .equalTo), (['!', '='], .equality .notEqualTo),
   (['<', '<'], .leftShift), (['>', '>'], .rightShift),
   (['<'], .comparison .lessThan), (['>'], .comparison .greaterThan),
   (['<', '='], .comparison .lessThanOrEqualTo), (['>', '='], .comparison .greaterThanOrEqualTo),
   (['+'], .char '+'), (['-'], .char '-'), (['*'], .char '*'), (['/'], .char '/'),
   (['&'], .char '&'), (['^'], .char '^'), (['|'], .char '|'),
   (['&', '&'], .logicalAnd), (['|', '|'], .logicalOr), ([':'], .char ':')]

/-- The literal words with their tokens. -/
def literalWords : List (List Char × Token) :=
  commandWords.flatMap (fun (k, words) => words.map fun word => (word.toList, .keyword k)) ++
    operatorWords

def isXdigit (c : Char) : Bool := c.isDigit || 'a' ≤ c.toLower && c.toLower ≤ 'f'

def digitValue (c : Char) : Nat :=
  if c.isDigit then c.toNat - '0'.toNat else c.toLower.toNat - 'a'.toNat + 10

/-- `strtol`, with a `long` of 64 bits. -/
def strtol (base : Nat) (digits : List Char) : Nat :=
  min (digits.foldl (fun v c => v * base + digitValue c) 0) (2 ^ 63 - 1)

/-- `0x[[:xdigit:]]+` -/
def hexWord : List Char → Nat
  | '0' :: x :: s =>
      if x.toLower = 'x' ∧ runLength isXdigit s ≠ 0 then runLength isXdigit s + 2 else 0
  | _ => 0

def variableWord : List Char → Nat
  | '$' :: s => if idWord s = 0 then 0 else idWord s + 1
  | _ => 0

/-- The token of a `VARIABLE`. -/
def variableToken (name : List Char) : Token :=
  if h : name ≠ [] ∧ idWord name = name.length then .variable ⟨name, h.1, h.2⟩ else .error

def hexRule : ScanRule Char Token where
  word := hexWord
  token w := some (.number (UInt32.ofNat (strtol 16 (w.drop 2))))

/-- `[[:digit:]]+`, by `atoi`. -/
def decimalRule : ScanRule Char Token where
  word := runLength Char.isDigit
  token w := some (.number (UInt32.ofNat (strtol 10 w)))

/-- `{ID}`, without its backslashes. -/
def stringRule : ScanRule Char Token where
  word := idWord
  token w := some (.string (w.filter (· ≠ '\\')))

/-- `${ID}` -/
def variableRule : ScanRule Char Token where
  word := variableWord
  token w := some (variableToken (w.drop 1))

def newlineRule : ScanRule Char Token where
  word s := if s.head? = some '\n' then 1 else 0
  token _ := some (.char '\n')

/-- `[ ]+` -/
def spaceRule : ScanRule Char Token where
  word := runLength (· = ' ')
  token _ := none

/-- `.` -/
def otherRule : ScanRule Char Token where
  word s := if s = [] ∨ s.head? = some '\n' then 0 else 1
  token _ := some .error

/-- The rules of `commandl.l`, outside of the lines of a `commands` command. -/
def rules : List (ScanRule Char Token) :=
  (literalWords.map fun (word, token) => literal Char.toLower word token) ++
    [hexRule, decimalRule, stringRule, variableRule, newlineRule, spaceRule, otherRule]

/-! ## The grammar -/

/-- The precedences that `commandy.y` declares for its binary operators, all of them `%left`. -/
def BinaryOp.level : BinaryOp → Nat
  | .logicalOr => 1
  | .logicalAnd => 2
  | .bitwiseOr => 3
  | .bitwiseXor => 4
  | .bitwiseAnd => 5
  | .equalTo | .notEqualTo => 6
  | .lessThan | .greaterThan | .lessThanOrEqualTo | .greaterThanOrEqualTo => 7
  | .leftShift | .rightShift => 8
  | .add | .sub => 9
  | .mul | .div | .mod => 10

/-- `NEGATE` -/
def negateLevel : Nat := 11

/-- The token of a rule `expression token expression`. -/
def Token.binaryOp : Token → Option BinaryOp
  | .char '+' => some .add
  | .char '-' => some .sub
  | .char '*' => some .mul
  | .char '/' => some .div
  | .char '%' => some .mod
  | .leftShift => some .leftShift
  | .rightShift => some .rightShift
  | .equality op => some op
  | .comparison op => some op
  | .char '&' => some .bitwiseAnd
  | .char '^' => some .bitwiseXor
  | .char '|' => some .bitwiseOr
  | .logicalAnd => some .logicalAnd
  | .logicalOr => some .logicalOr
  | _ => none

/-- What is on the stack in front of an operand: an open bracket, a sign (none for `+`), or an
operand with its operator. -/
inductive Frame (n : Nat) : Type
  | paren
  | bracket
  | sign (op : Option UnaryOp)
  | operator (op : BinaryOp) (operand1 : Expression n)

def signed (op : Option UnaryOp) (operand : Expression n) : Expression n :=
  match op with
  | none => operand
  | some op => .unary op operand

/-- The reductions before a token of the level `lookahead` is shifted. -/
def reduce (lookahead : Nat) : List (Frame n) → Expression n → List (Frame n) × Expression n
  | .sign op :: stack, exp =>
      if lookahead ≤ negateLevel then reduce lookahead stack (signed op exp)
      else (.sign op :: stack, exp)
  | .operator op operand1 :: stack, exp =>
      if lookahead ≤ op.level then reduce lookahead stack (.binary op operand1 exp)
      else (.operator op operand1 :: stack, exp)
  | stack, exp => (stack, exp)

/-- `debugger_system_variable_find` -/
def systemVariableFind (names : Fin n → List Char × List Char) (type detail : List Char) :
    Option (Fin n) :=
  (List.finRange n).find? fun i =>
    type.map Char.toLower = (names i).1.map Char.toLower &&
      detail.map Char.toLower = (names i).2.map Char.toLower

/-- The parser of an `expression` that goes up to the end: on the stack, and behind an operand
if there is one. A token that no rule takes is a syntax error, and an unknown system variable
aborts. -/
def parse (names : Fin n → List Char × List Char) :
    List Token → List (Frame n) → Option (Expression n) → Option (Expression n)
  | .number value :: tokens, stack, none => parse names tokens stack (some (.integer value))
  | .string type :: .char ':' :: .string detail :: tokens, stack, none =>
      (systemVariableFind names type detail).bind fun i =>
        parse names tokens stack (some (.systemVariable i))
  | .variable name :: tokens, stack, none => parse names tokens stack (some (.variable name))
  | .char '(' :: tokens, stack, none => parse names tokens (.paren :: stack) none
  | .char '[' :: tokens, stack, none => parse names tokens (.bracket :: stack) none
  | .char '+' :: tokens, stack, none => parse names tokens (.sign none :: stack) none
  | .char '-' :: tokens, stack, none => parse names tokens (.sign (some .minus) :: stack) none
  | .negate op :: tokens, stack, none => parse names tokens (.sign (some op) :: stack) none
  | _, _, none => none
  | [], stack, some exp =>
      match reduce 0 stack exp with
      | ([], exp) => some exp
      | _ => none
  | .char ')' :: tokens, stack, some exp =>
      match reduce 0 stack exp with
      | (.paren :: stack, exp) => parse names tokens stack (some exp)
      | _ => none
  | .char ']' :: tokens, stack, some exp =>
      match reduce 0 stack exp with
      | (.bracket :: stack, exp) => parse names tokens stack (some (.unary .dereference exp))
      | _ => none
  | token :: tokens, stack, some exp =>
      match token.binaryOp with
      | none => none
      | some op =>
          let (stack, exp) := reduce op.level stack exp
          parse names tokens (.operator op exp :: stack) none

/-! ## The parser at brackets and at the end -/

section

variable {names : Fin n → List Char × List Char} {tokens : List Token} {stack stack' : List (Frame n)}
  {exp exp' : Expression n}

theorem parse_paren :
    parse names (.char '(' :: tokens) stack none = parse names tokens (.paren :: stack) none := rfl

theorem parse_bracket :
    parse names (.char '[' :: tokens) stack none = parse names tokens (.bracket :: stack) none := rfl

theorem parse_closeParen (closed : reduce 0 stack exp = (.paren :: stack', exp')) :
    parse names (.char ')' :: tokens) stack (some exp) = parse names tokens stack' (some exp') := by
  rw [parse, closed]

theorem parse_closeBracket (closed : reduce 0 stack exp = (.bracket :: stack', exp')) :
    parse names (.char ']' :: tokens) stack (some exp) =
      parse names tokens stack' (some (.unary .dereference exp')) := by
  rw [parse, closed]

theorem parse_end (reduced : reduce 0 stack exp = ([], exp')) :
    parse names [] stack (some exp) = some exp' := by
  rw [parse, reduced]

theorem parse_systemVariable {type detail : List Char} {index : Fin n}
    (found : systemVariableFind names type detail = some index) :
    parse names (.string type :: .char ':' :: .string detail :: tokens) stack none =
      parse names tokens stack (some (.systemVariable index)) := by
  rw [parse, found, Option.bind_some]

end

end FuseX.Debugger
