import FuseX.Lib.Json

/-!
# The JSON writer

`json.c` writes JSON to a file as its functions are called: it keeps, for each of the lists and
objects it is in, of which there may be 16, whether something has been written there and whether
it is an object. A write may fail at any time, after some of its bytes.
-/

namespace FuseX.Automation

open Lib.Json

/-! ## The file -/

structure File : Type where
  bytes : List UInt8
  /-- `ferror` -/
  failed : Bool
  /-- What the writes to come will do: those that fail first write so many bytes. -/
  failures : Nat → Option Nat

/-- `fputc`, `fputs` and `fprintf`: whether they fail. -/
def File.put (file : File) (text : List UInt8) : File × Bool :=
  match file.failures 0 with
  | none =>
      ({ file with bytes := file.bytes ++ text, failures := fun n => file.failures (n + 1) }, false)
  | some written =>
      ({ bytes := file.bytes ++ text.take written
         failed := true
         failures := fun n => file.failures (n + 1) }, true)

/-! ## The writer -/

/-- `sizeof( json->first )`. -/
def levels : Nat := 16

/-- `automation_json`. -/
structure Json : Type where
  file : File
  first : Nat → Bool
  object : Nat → Bool
  depth : Nat
  error : Bool

/-- `automation_json_init`. -/
def automationJsonInit (file : File) : Json where
  file := file
  first := fun _ => false
  object := fun _ => false
  depth := 0
  error := false

namespace Json

/-- A write of which the result is not looked at. -/
def put (json : Json) (text : List UInt8) : Json :=
  { json with file := (json.file.put text).1 }

/-- A write of which the result is noted. -/
def putChecked (json : Json) (text : List UInt8) : Json :=
  { json with file := (json.file.put text).1, error := json.error || (json.file.put text).2 }

/-- Note an error of the file. -/
def checkFile (json : Json) : Json :=
  { json with error := json.error || json.file.failed }

/-- Something is written at this level. -/
def begun (json : Json) : Json :=
  { json with
    first := fun level => if level = json.depth - 1 then false else json.first level }

/-- A level below, of a list or an object. -/
def deeper (json : Json) (object : Bool) : Json :=
  { json with
    first := fun level => if level = json.depth then true else json.first level
    object := fun level => if level = json.depth then object else json.object level
    depth := json.depth + 1 }

def fail (json : Json) : Json :=
  { json with error := true }

/-- The level above. -/
def up (json : Json) : Json :=
  { json with depth := json.depth - 1 }

end Json

/-- The digit of `%x`, in ASCII. -/
def hexDigit (n : UInt8) : UInt8 :=
  if n < 10 then 48 + n else 87 + n

/-- The cases of `string`. -/
def escape (p : UInt8) : List UInt8 :=
  match p with
  | 34 => [92, 34]
  | 92 => [92, 92]
  | 8 => [92, 98]
  | 12 => [92, 102]
  | 10 => [92, 110]
  | 13 => [92, 114]
  | 9 => [92, 116]
  | _ => if p < 0x20 then [92, 117, 48, 48, hexDigit (p / 16), hexDigit (p % 16)] else [p]

/-- The loop of `string`. -/
def stringLoop (json : Json) : List UInt8 → Json
  | [] => json
  | p :: text => if p = 0 then json else stringLoop (json.put (escape p)) text

/-- `string`. -/
def string (json : Json) (text : List UInt8) : Json :=
  ((stringLoop (json.putChecked [34]) text).putChecked [34]).checkFile

/-- `member`; a name that is not looked at may be `NULL`. -/
def member (json : Json) (name : List UInt8) : Json :=
  if json.depth ≠ 0 then
    let json := if json.first (json.depth - 1) then json else json.put [44]
    let json := json.begun
    if json.object (json.depth - 1) then (string json name).put [58] else json
  else json

/-- `begin`. -/
def begin (json : Json) (name : List UInt8) (object : Bool) : Json :=
  let json := member json name
  if levels ≤ json.depth then json.fail
  else (json.put [if object then 123 else 91]).deeper object

/-- `automation_json_object_begin`. -/
def automationJsonObjectBegin (json : Json) (name : List UInt8) : Json :=
  begin json name true

/-- `automation_json_array_begin`. -/
def automationJsonArrayBegin (json : Json) (name : List UInt8) : Json :=
  begin json name false

/-- `automation_json_end`. -/
def automationJsonEnd (json : Json) : Json :=
  if json.depth = 0 then json.fail
  else
    let json := json.up
    json.put [if json.object json.depth then 125 else 93]

/-- `automation_json_string`. -/
def automationJsonString (json : Json) (name value : List UInt8) : Json :=
  string (member json name) value

/-- `automation_json_ulong`. -/
def automationJsonUlong (json : Json) (name : List UInt8) (value : Nat) : Json :=
  (member json name).putChecked ((Nat.toDigits 10 value).map fun c => UInt8.ofNat c.toNat)

/-- `automation_json_boolean`. -/
def automationJsonBoolean (json : Json) (name : List UInt8) (value : Bool) : Json :=
  (member json name).putChecked
    (if value then [116, 114, 117, 101] else [102, 97, 108, 115, 101])

/-- `automation_json_error`. -/
def automationJsonError (json : Json) : Bool :=
  json.error || json.file.failed || json.depth ≠ 0

/-! ## Calls -/

inductive Call : Type
  | objectBegin (name : List UInt8)
  | arrayBegin (name : List UInt8)
  | finish
  | string (name value : List UInt8)
  | ulong (name : List UInt8) (value : Nat)
  | boolean (name : List UInt8) (value : Bool)

def call (json : Json) : Call → Json
  | .objectBegin name => automationJsonObjectBegin json name
  | .arrayBegin name => automationJsonArrayBegin json name
  | .finish => automationJsonEnd json
  | .string name value => automationJsonString json name value
  | .ulong name value => automationJsonUlong json name value
  | .boolean name value => automationJsonBoolean json name value

def run (json : Json) (calls : List Call) : Json :=
  calls.foldl call json

/-- The level after some calls, unless there is an end too many. -/
def levelAfter : Nat → List Call → Option Nat
  | level, [] => some level
  | level, .objectBegin _ :: calls => levelAfter (level + 1) calls
  | level, .arrayBegin _ :: calls => levelAfter (level + 1) calls
  | 0, .finish :: _ => none
  | level + 1, .finish :: calls => levelAfter level calls
  | level, _ :: calls => levelAfter level calls

/-- Each begin has its end. -/
def Balanced (calls : List Call) : Prop :=
  levelAfter 0 calls = some 0

/-! ## Trees -/

/-- UTF-8. -/
def utf8 (chars : List Char) : List UInt8 :=
  chars.flatMap String.utf8EncodeChar

mutual

/-- The calls for a value, a member of that name if it is in an object. -/
def valueCalls (name : List UInt8) : Value → List Call
  | .string chars => [.string name (utf8 chars)]
  | .number n => [.ulong name n]
  | .boolean b => [.boolean name b]
  | .array items => .arrayBegin name :: (itemsCalls items ++ [.finish])
  | .object members => .objectBegin name :: (membersCalls members ++ [.finish])

def itemsCalls : Items → List Call
  | .nil => []
  | .cons value items => valueCalls [] value ++ itemsCalls items

def membersCalls : Members → List Call
  | .nil => []
  | .cons name value members => valueCalls (utf8 name) value ++ membersCalls members

end

mutual

/-- How deep the lists and objects of a value go. -/
def height : Value → Nat
  | .string _ => 0
  | .number _ => 0
  | .boolean _ => 0
  | .array items => itemsHeight items + 1
  | .object members => membersHeight members + 1

def itemsHeight : Items → Nat
  | .nil => 0
  | .cons value items => max (height value) (itemsHeight items)

def membersHeight : Members → Nat
  | .nil => 0
  | .cons _ value members => max (height value) (membersHeight members)

end

mutual

/-- The strings can be given as C strings: none has a zero in it. -/
def Plain : Value → Prop
  | .string chars => '\x00' ∉ chars
  | .number _ => True
  | .boolean _ => True
  | .array items => PlainItems items
  | .object members => PlainMembers members

def PlainItems : Items → Prop
  | .nil => True
  | .cons value items => Plain value ∧ PlainItems items

def PlainMembers : Members → Prop
  | .nil => True
  | .cons name value members => '\x00' ∉ name ∧ Plain value ∧ PlainMembers members

end

end FuseX.Automation
