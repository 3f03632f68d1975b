import FuseX.Lib.Packed

/-!
# The Spectranet configuration page

The last flash page holds the configuration: a total size, sections (an id, the
size of the items, the items) and the terminator `FF FF`. An item is its id,
whose two top bits are its type, and its data.

The functions here are those of `spectranet.c` on the page's memory, in which
addresses count from the page's start. A walk over sections whose sizes lead it
back to a place it was at does not return; `none` stands for that.
-/

namespace FuseX.Spectranet

open Lib

/-- `SPECTRANET_CONFIG_PAGE_SIZE`. -/
def configPageSize : Nat := 4096

/-- `CONFIG_ITEM_TYPE_MASK`. -/
def typeMask : UInt8 := 0xC0

/-- `CONFIG_ITEM_TYPE_STRING`. -/
def typeString : UInt8 := 0x00

/-- `CONFIG_ITEM_TYPE_BYTE`. -/
def typeByte : UInt8 := 0x80

/-- `CONFIG_ITEM_TYPE_INT`. -/
def typeInt : UInt8 := 0xC0

/-- The bytes of a C string, without the one that ends it. -/
structure CString : Type where
  bytes : List UInt8
  noNul : 0 ∉ bytes

namespace Config

variable (memory : Nat → UInt8)

/-! ## Words and sections -/

/-- `read_uint16`. -/
def readUint16 (offset : Nat) : Nat :=
  (memory offset).toNat + 256 * (memory (offset + 1)).toNat

/-- The bytes of a little-endian word. -/
def uint16Bytes (value : Nat) : List UInt8 :=
  [UInt8.ofNat value, UInt8.ofNat (value / 256)]

/-- `write_uint16`. -/
def writeUint16 (offset value : Nat) : Nat → UInt8 :=
  overwrite memory offset (uint16Bytes value)

/-- The loop over the sections that `find_section` and
`find_section_insertion_point` share: where it stops, and whether at the section.
A pointer can only take `configPageSize` values before one comes back. -/
def walkSections (totalSize : Nat) (sectionId : UInt16) : Nat → Nat → Option (Bool × Nat)
  | 0, _ => none
  | fuel + 1, pointer =>
      if pointer < totalSize ∧ pointer < configPageSize - 4 then
        if readUint16 memory pointer = sectionId.toNat then some (true, pointer)
        else
          walkSections totalSize sectionId fuel
            ((pointer + 4 + readUint16 memory (pointer + 2)) % 2 ^ 16)
      else some (false, pointer)

/-- `find_section`: where the section's size stands, and the size. -/
def findSection (sectionId : UInt16) : Option (Option (Nat × Nat)) := do
  let (found, pointer) ← walkSections memory (readUint16 memory 0) sectionId configPageSize 2
  return if found then some (pointer + 2, readUint16 memory (pointer + 2)) else none

/-- `find_section_insertion_point`. -/
def findSectionInsertionPoint (sectionId : UInt16) : Option Nat := do
  let totalSize := readUint16 memory 0
  if totalSize = 0 ∨ totalSize = 0xFFFF ∨ configPageSize ≤ totalSize then return 2
  let (_, pointer) ← walkSections memory totalSize sectionId configPageSize 2
  return pointer

/-- `ensure_section_exists`: the memory, and the section as `find_section` has it. -/
def ensureSectionExists (sectionId : UInt16) :
    Option ((Nat → UInt8) × Option (Nat × Nat)) := do
  match ← findSection memory sectionId with
  | some existing => return (memory, some existing)
  | none =>
    let totalSize := readUint16 memory 0
    let memory := if totalSize = 0 ∨ totalSize = 0xFFFF then writeUint16 memory 0 2 else memory
    let insertOffset ← findSectionInsertionPoint memory sectionId
    if configPageSize - 2 < insertOffset + 4 + 2 then return (memory, none)
    let memory := writeUint16 memory insertOffset sectionId.toNat
    let memory := writeUint16 memory (insertOffset + 2) 0
    let newTotalSize := insertOffset + 4
    let memory := writeUint16 memory 0 newTotalSize
    return (overwrite memory newTotalSize [0xFF, 0xFF], some (insertOffset + 2, 0))

/-- `append_item_to_section`: the memory, and whether there was space. The data
are the bytes there are, of which `dataSize` are copied. -/
def appendItemToSection (start sectionSize : Nat) (itemId : UInt8) (data : List UInt8)
    (dataSize : Nat) : (Nat → UInt8) × Bool :=
  let newItemSize := (1 + dataSize) % 2 ^ 16
  let newSectionSize := (sectionSize + newItemSize) % 2 ^ 16
  let totalSize := readUint16 memory 0
  if configPageSize < start - 2 + 2 + 2 + newSectionSize then (memory, false)
  else
    let item := start + 2 + sectionSize
    let memory := overwrite memory item [itemId]
    let memory := overwrite memory (item + 1) (data.take dataSize)
    let memory := writeUint16 memory start newSectionSize
    let newTotalSize := (start + 2 + newSectionSize) % 2 ^ 16
    if totalSize < newTotalSize then
      let memory := writeUint16 memory 0 newTotalSize
      (overwrite memory newTotalSize [0xFF, 0xFF], true)
    else (memory, true)

/-! ## Items -/

/-- Where a string ends that starts at `pointer`, with so many bytes to look at. -/
def stringEnd : Nat → Nat → Nat
  | 0, pointer => pointer
  | left + 1, pointer => if memory pointer ≠ 0 then stringEnd left (pointer + 1) else pointer

/-- The loop of `find_item`: the item's type, where its data are and their size.
Each turn goes on by a byte at least. -/
def findItemLoop (stop : Nat) (itemId : UInt8) : Nat → Nat → Option (UInt8 × Nat × Nat)
  | 0, _ => none
  | fuel + 1, pointer =>
      if stop ≤ pointer then none
      else
        let current := memory pointer
        let type := current &&& typeMask
        let pointer := pointer + 1
        if current = itemId then
          if type = typeString then
            some (type, pointer, stringEnd memory (stop - pointer) pointer - pointer + 1)
          else if type = typeByte then some (type, pointer, 1)
          else if type = typeInt then some (type, pointer, 2)
          else none
        else if type = typeString then
          findItemLoop stop itemId fuel (stringEnd memory (stop - pointer) pointer + 1)
        else if type = typeByte then findItemLoop stop itemId fuel (pointer + 1)
        else if type = typeInt then findItemLoop stop itemId fuel (pointer + 2)
        else findItemLoop stop itemId fuel pointer

/-- `find_item`. -/
def findItem (start sectionSize : Nat) (itemId : UInt8) : Option (UInt8 × Nat × Nat) :=
  findItemLoop memory (start + 2 + sectionSize) itemId sectionSize (start + 2)

/-- The bytes from a place on. -/
def readBytes (start count : Nat) : List UInt8 :=
  (List.range count).map fun i => memory (start + i)

/-- The lookup that all getters begin with; the inner `none` is their `-1`. -/
def lookup (sectionId : UInt16) (itemId type : UInt8) : Option (Option (Nat × Nat)) := do
  match ← findSection memory sectionId with
  | none => return none
  | some (start, sectionSize) =>
    match findItem memory start sectionSize itemId with
    | none => return none
    | some (itemType, place, size) => return if itemType = type then some (place, size) else none

/-! ## Getters and setters -/

/-- `spectranet_config_get_string`: the C string in the caller's buffer. -/
def getString (sectionId : UInt16) (itemId : UInt8) (bufferSize : Nat) :
    Option (Option (List UInt8)) := do
  if bufferSize = 0 then return none
  match ← lookup memory sectionId itemId typeString with
  | none => return none
  | some (place, size) =>
    let copySize := if size < bufferSize then size else bufferSize - 1
    return some ((readBytes memory place copySize).takeWhile (· ≠ 0))

/-- `spectranet_config_get_byte`. -/
def getByte (sectionId : UInt16) (itemId : UInt8) : Option (Option UInt8) := do
  match ← lookup memory sectionId itemId typeByte with
  | none => return none
  | some (place, _) => return some (memory place)

/-- `spectranet_config_get_int`. -/
def getInt (sectionId : UInt16) (itemId : UInt8) : Option (Option Nat) := do
  match ← lookup memory sectionId itemId typeInt with
  | none => return none
  | some (place, _) => return some (readUint16 memory place)

/-- `spectranet_config_set_string`: the memory, and whether it reports success. -/
def setString (sectionId : UInt16) (itemId : UInt8) (value : CString) :
    Option ((Nat → UInt8) × Bool) := do
  match ← ensureSectionExists memory sectionId with
  | (memory, none) => return (memory, false)
  | (memory, some (start, sectionSize)) =>
    let length := value.bytes.length
    match findItem memory start sectionSize itemId with
    | none =>
      return appendItemToSection memory start sectionSize (itemId ||| typeString)
        (value.bytes ++ [0]) ((length + 1) % 2 ^ 16)
    | some (itemType, place, size) =>
      if itemType ≠ typeString then return (memory, false)
      else if size < length + 1 then return (memory, false)
      else return (overwrite (overwrite memory place value.bytes) (place + length) [0], true)

/-- `spectranet_config_set_byte`. -/
def setByte (sectionId : UInt16) (itemId value : UInt8) : Option ((Nat → UInt8) × Bool) := do
  match ← ensureSectionExists memory sectionId with
  | (memory, none) => return (memory, false)
  | (memory, some (start, sectionSize)) =>
    match findItem memory start sectionSize itemId with
    | none => return appendItemToSection memory start sectionSize (itemId ||| typeByte) [value] 1
    | some (itemType, place, _) =>
      if itemType ≠ typeByte then return (memory, false)
      else return (overwrite memory place [value], true)

end Config

end FuseX.Spectranet
