import FuseX.Lib.Scans
import Mathlib.Data.Int.Init
import Mathlib.Algebra.Ring.Nat

/-!
# The words of an operation

`engine_argv_parse` cuts the line of an engine call into words, in the buffer it is given: it looks
for the end of a word, with its quotations, ends it with a zero, and goes over it once more to take
the quotes out. `words` says what the words of a line are.

An access outside of the buffer has no result.
-/

namespace FuseX.Engines.Argv

open Lib

abbrev Buffer : Type := List UInt8

def space : UInt8 := 32

def singleQuote : UInt8 := 39

def doubleQuote : UInt8 := 34

def isQuote (c : UInt8) : Bool :=
  c = singleQuote || c = doubleQuote

/-! ## What the words are -/

mutual

/-- The words of a line, from between two words; `none` if a quotation is left open. -/
def words : Buffer → Option (List Buffer)
  | [] => some []
  | c :: line =>
      if c = space then words line
      else if isQuote c then wordsIn [] (some c) line
      else wordsIn [c] none line

/-- The words of a line, from behind the characters of a word, in a quotation or not. -/
def wordsIn (word : Buffer) : Option UInt8 → Buffer → Option (List Buffer)
  | none, [] => some [word]
  | none, c :: line =>
      if c = space then (words line).map (word :: ·)
      else if isQuote c then wordsIn word (some c) line
      else wordsIn (word ++ [c]) none line
  | some _, [] => none
  | some quote, c :: line =>
      if c = quote then wordsIn word none line else wordsIn (word ++ [c]) (some quote) line

end

/-- A quote that is not in a word. -/
def quoteFor (word : Buffer) : UInt8 :=
  if singleQuote ∈ word then doubleQuote else singleQuote

/-- A word in quotes. -/
def quoted (word : Buffer) : Buffer :=
  quoteFor word :: word ++ [quoteFor word]

/-- A line of words in quotes. -/
def quotedLine (args : List Buffer) : Buffer :=
  [space].intercalate (args.map quoted)

/-! ## The buffer -/

/-- A write to the buffer. -/
def write (buf : Buffer) (i : Nat) (c : UInt8) : Option Buffer :=
  if i < buf.length then some (buf.set i c) else none

/-- The loop of `collapse_quotes`: what is at `r` is moved to `w`. -/
def collapseLoop : Nat → Buffer → Nat → Nat → UInt8 → Option Buffer
  | 0, _, _, _, _ => none
  | fuel + 1, buf, w, r, q =>
      match buf[r]? with
      | none => none
      | some c =>
          if c = 0 then write buf w 0
          else if q ≠ 0 then
            if c = q then collapseLoop fuel buf w (r + 1) 0
            else (write buf w c).bind fun buf => collapseLoop fuel buf (w + 1) (r + 1) q
          else if isQuote c then collapseLoop fuel buf w (r + 1) c
          else (write buf w c).bind fun buf => collapseLoop fuel buf (w + 1) (r + 1) q

/-- `collapse_quotes`. -/
def collapseQuotes (buf : Buffer) (start : Nat) : Option Buffer :=
  collapseLoop (buf.length + 1) buf start start 0

/-- The loop over the spaces in front of a word, with the characters that are left. -/
def skipSpaces (buf : Buffer) : Nat → Nat → Option Nat
  | 0, i => some i
  | left + 1, i =>
      match buf[i]? with
      | none => none
      | some c => if c = space then skipSpaces buf left (i + 1) else some i

/-- The loop to the end of a word, with the characters that are left: where it ends, and
`quote`. -/
def findEnd (buf : Buffer) : Nat → Nat → UInt8 → Option (Nat × UInt8)
  | 0, i, quote => some (i, quote)
  | left + 1, i, quote =>
      match buf[i]? with
      | none => none
      | some c =>
          if quote ≠ 0 then findEnd buf left (i + 1) (if c = quote then 0 else quote)
          else if c = space then some (i, quote)
          else findEnd buf left (i + 1) (if isQuote c then c else quote)

/-- A turn of `engine_argv_parse` at the start of a word: the buffer with the word cut out, and where
to go on, unless a quotation is left open. -/
def takeWord (n : Nat) (buf : Buffer) (start : Nat) : Option (Buffer × Option Nat) :=
  (findEnd buf (n - start) start 0).bind fun (last, quote) =>
  if quote ≠ 0 then some (buf, none)
  else
    (buf[last]?).bind fun tmp =>
    (write buf last 0).bind fun buf =>
    (collapseQuotes buf start).bind fun buf =>
    some (buf, some (if tmp = space then last + 1 else last))

/-- The loop of `engine_argv_parse`: the buffer it leaves and, if it does not fail, `argv`. -/
def parseLoop (n : Nat) (maxArgv : Int) :
    Nat → Buffer → Nat → List Nat → Option (Buffer × Option (List Nat))
  | 0, _, _, _ => none
  | fuel + 1, buf, i, argv =>
      if n ≤ i then some (buf, some argv)
      else
        (skipSpaces buf (n - i) i).bind fun start =>
        if n ≤ start then some (buf, some argv)
        else
          (takeWord n buf start).bind fun (buf, next) =>
          match next with
          | none => some (buf, none)
          | some i =>
              if maxArgv ≤ argv.length then some (buf, none)
              else parseLoop n maxArgv fuel buf i (argv ++ [start])

/-- A length as an `int`, if there are any characters then. -/
def intLength (length : Nat) : Nat :=
  ((length : Int).bmod (2 ^ 32)).toNat

/-- `engine_argv_parse`. -/
def engineArgvParse (buf : Buffer) (maxArgv : Int) : Option (Buffer × Option (List Nat)) :=
  (stringAt 0 buf).bind fun line =>
    parseLoop (intLength line.length) maxArgv (buf.length + 1) buf 0 []

end FuseX.Engines.Argv
