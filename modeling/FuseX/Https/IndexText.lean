import FuseX.Https.DirCache
import FuseX.Lib.Pieces

/-!
# The text of a directory's index

An `index.txt` has a line for each entry, of words such as `type=file name=a.tap size=48`.
`parseIndexTxt` reads it twice: to count the lines that name an entry, and to fill an array of
that size. What a line says about its entry is stated from its words, in `statedEntry`.

The text is bytes, and a place in it is the text from there on. A body comes in the parts in
which it was transferred, into a buffer of a fixed size.
-/

namespace FuseX.Https

open Lib

/-! ## Lines and words -/

def isBlank (c : Char) : Bool := c = ' ' || c = '\t'

def isLineEnd (c : Char) : Bool := c = '\n' || c = '\r'

/-- What `isspace` is true of. -/
def isSpace (c : Char) : Bool := isBlank c || isLineEnd c || c = '\x0b' || c = '\x0c'

def ulongMax : Nat := 2 ^ 64 - 1

/-- The digits at the front. -/
def decimal (text : Text) : Nat :=
  (text.takeWhile Char.isDigit).foldl (fun n c => 10 * n + (c.toNat - '0'.toNat)) 0

/-- `strtoul(…, NULL, 10)` -/
def strtoul (text : Text) : Nat :=
  let text := text.dropWhile isSpace
  let negative := text.head? = some '-'
  let n := decimal (if negative ∨ text.head? = some '+' then text.tail else text)
  if ulongMax < n then ulongMax else if negative then (ulongMax + 1 - n) % (ulongMax + 1) else n

/-- What is read of the line: `type`, `name` and `size`. -/
structure Fields where
  type : Text := []
  name : Text := []
  size : UInt32 := 0
  deriving DecidableEq

def typeSize : Nat := 16

def nameSize : Nat := 256

/-- A key with its value, and the line from that value on. -/
def Fields.put (key value after : Text) (f : Fields) : Fields :=
  if key = "type".toList then (if value.length < typeSize then { f with type := value } else f)
  else if key = "name".toList then
    (if value.length < nameSize then { f with name := value } else f)
  else if key = "size".toList then { f with size := UInt32.ofNat (strtoul after) }
  else f

def isKey (c : Char) : Bool := !(c = '=' || isBlank c)

def isValue (c : Char) : Bool := !(isBlank c || isLineEnd c)

/-- The loop over the pairs of a line. -/
def readPairs (p : Text) (f : Fields) : Fields :=
  let keyStart := p.dropWhile isBlank
  if (keyStart.head?.all isLineEnd) = true then f
  else
    match _after : keyStart.dropWhile isKey with
    | '=' :: valueStart =>
        readPairs (valueStart.dropWhile isValue)
          (f.put (keyStart.takeWhile isKey) (valueStart.takeWhile isValue) valueStart)
    | _ => f
termination_by p.length
decreasing_by
  have behindValue := List.length_dropWhile_le isValue valueStart
  have behindKey := List.length_dropWhile_le isKey keyStart
  have front : keyStart.length ≤ p.length := List.length_dropWhile_le isBlank p
  rw [_after, List.length_cons] at behindKey
  omega

/-- How much of a name an entry holds. -/
def entryNameMax : Nat := 63

/-- `parse_index_line_to_entry` -/
def parseIndexLineToEntry (line : Text) : Option Entry :=
  let f := readPairs line {}
  let entry : Entry := { name := f.name.take entryNameMax, isDir := false, size := 0 }
  if f.type = "dir".toList then some { entry with isDir := true }
  else if f.type = "file".toList then some { entry with size := f.size }
  else none

/-! ## The two passes -/

/-- What there is memory for: the handle of the directory, the buffer, the array and each of
the entries that the second pass asks for. -/
structure Allocation where
  handle : Bool := true
  buffer : Bool := true
  array : Bool := true
  entry : Nat → Bool := fun _ => true

/-- Where a pass is: `entry_idx`, what it has put into the array, and how many entries it has
asked for. -/
structure Pass where
  entryIdx : UInt8 := 0
  entries : List Entry := []
  asked : Nat := 0

/-- The size of `line`. -/
def lineSize : Nat := 256

/-- What `line` holds of a line, as a C string. -/
def lineText (line : Text) : Text := (line.take (lineSize - 1)).takeWhile (· ≠ '\x00')

/-- One line; with no array it is only counted. There is no pass when memory runs out. -/
def Pass.takeLine (memory : Nat → Bool) (maxEntries : UInt8) (array : Bool) (line : Text)
    (s : Pass) : Option Pass :=
  if line = [] then some s
  else if 0 < maxEntries ∧ array then
    if memory s.asked then
      match parseIndexLineToEntry (lineText line) with
      | some entry =>
          some { entryIdx := s.entryIdx + 1, entries := s.entries ++ [entry], asked := s.asked + 1 }
      | none => some { s with asked := s.asked + 1 }
    else none
  else
    match parseIndexLineToEntry (lineText line) with
    | some _ => some { s with entryIdx := s.entryIdx + 1 }
    | none => some s

def skipChar (c : Char) (buffer : Text) : Text :=
  if buffer.head? = some c then buffer.tail else buffer

/-- Behind the end of a line. -/
def skipLineEnd (buffer : Text) : Text := skipChar '\n' (skipChar '\r' buffer)

theorem skipChar_length (c : Char) (buffer : Text) :
    (skipChar c buffer).length ≤ buffer.length := by
  rw [skipChar]
  split
  · rw [List.length_tail]
    exact Nat.sub_le _ _
  · exact Nat.le_refl _

theorem skipLineEnd_length (buffer : Text) : (skipLineEnd buffer).length ≤ buffer.length :=
  (skipChar_length _ _).trans (skipChar_length _ _)

/-- `https_parse_index_txt`, from a place in the buffer on. -/
def parseIndexTxt (memory : Nat → Bool) (maxEntries : UInt8) (array : Bool) (buffer : Text)
    (s : Pass) : Option Pass :=
  if maxEntries = 0 ∨ s.entryIdx < maxEntries then
    match _start : buffer.dropWhile fun c => isBlank c || isLineEnd c with
    | [] => some s
    | c :: rest =>
        let lineStart := c :: rest
        (s.takeLine memory maxEntries array (piece isLineEnd lineStart)).bind
          (parseIndexTxt memory maxEntries array (skipLineEnd (behind isLineEnd lineStart)))
  else some s
termination_by buffer.length
decreasing_by
  have stays := dropWhile_head _start
  have shorter := List.length_dropWhile_le (fun c => isBlank c || isLineEnd c) buffer
  have lineEnd := skipLineEnd_length (behind isLineEnd (c :: rest))
  have line : (behind isLineEnd rest).length ≤ rest.length := behind_length rest
  rw [behind_cons (Bool.or_eq_false_iff.mp stays).2] at *
  rw [_start, List.length_cons] at shorter
  omega

/-! ## From the request to the directory -/

/-- `xfs_https_index_buffer_acquire` -/
def indexBufferSize : Nat := 2048

/-- `httpc_get_buffer_cb`: the next part of a body, behind what the buffer holds already. -/
def getBufferCb (used part : Text) : Option Text :=
  if indexBufferSize < part.length + used.length then none else some (used ++ part)

/-- `httpc_get_buffer`, for a body that comes in these parts. -/
def httpcGetBuffer (parts : List Text) : Option Text := parts.foldlM getBufferCb []

/-- A request for an `index.txt`: why it cannot be made (`io` when nothing is mounted, `inval`
for its address), and the parts in which the body is transferred, if it is. -/
structure Request where
  refused : Option Failure := none
  body : Option (List Text)

def maxIndexEntries : Nat := 128

/-- `https_fetch_and_parse_index` -/
def fetchAndParseIndex (request : Request) (memory : Allocation) : Index :=
  match request.refused with
  | some failure => .error failure
  | none =>
      if memory.buffer = false then .error .nomem
      else
        match request.body.bind httpcGetBuffer with
        | none => .error .noent
        | some buffer =>
            match parseIndexTxt memory.entry 0 false buffer {} with
            | none => .error .io
            | some counted =>
                let entryCount := min counted.entryIdx.toNat maxIndexEntries
                if entryCount = 0 then .ok []
                else if memory.array = false then .error .nomem
                else
                  match parseIndexTxt memory.entry (UInt8.ofNat entryCount) true buffer {} with
                  | none => .error .nomem
                  | some parsed => .ok (parsed.entries.take parsed.entryIdx.toNat)

/-- `struct xfs_handle_https_dir_t` -/
structure DirHandle where
  dirEntries : List Entry
  dirEntriesPos : Nat := 0

/-- `https_opendir`, without what it puts into the cache. -/
def opendir (request : Request) (memory : Allocation) : Except Failure DirHandle :=
  if memory.handle = false then .error .nomem
  else (fetchAndParseIndex request memory).map fun entries => { dirEntries := entries }

/-- `https_readdir`: nothing at the end of the directory. -/
def DirHandle.readdir (dir : DirHandle) : Option (Stat × DirHandle) :=
  (dir.dirEntries[dir.dirEntriesPos]?).map fun entry =>
    (entry.stat, { dir with dirEntriesPos := dir.dirEntriesPos + 1 })

/-- What so many calls of `https_readdir` give. -/
def DirHandle.read : Nat → DirHandle → List Stat
  | 0, _ => []
  | calls + 1, dir =>
      match dir.readdir with
      | none => DirHandle.read calls dir
      | some (info, dir) => info :: DirHandle.read calls dir

end FuseX.Https
