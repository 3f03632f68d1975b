import FuseX.Xfs.Path
import Mathlib.Data.Fin.Basic
import Mathlib.Data.List.FinRange
import Mathlib.Logic.Function.Basic

/-!
# Mounts and handles

The mount table, the handle table and the commands of `xfs.c` that work on
them. A command is the register contents it arrives with, together with the
answers its engine gives.

* `XfsEvent` records what the handlers do with a mount index: reading a slot of
  `xfs_mounted_engines`, and calling an engine through it;
* an access past the table and a call through an empty slot are undefined in
  the source, so the state stops there (`halted`);
* `xfsStep` is one command, or `xfs_free`.
-/

namespace FuseX.Xfs

/-! ## Tables -/

/-- `enum xfs_handle_type_t`. -/
inductive XfsHandleType : Type
  | none
  | file
  | dir
  deriving DecidableEq, Repr

/-- The mount an engine opened a handle for: its slot, its engine and the
instance of that mount. -/
structure OpenedBy : Type where
  slot : UInt8
  engine : XfsEngine
  mountData : Option Nat
  deriving DecidableEq, Repr

/-- `struct xfs_handle_t`. `data` is the engine's own; it stands for the mount
that filled it in. -/
structure XfsHandle : Type where
  type : XfsHandleType := .none
  ownerMount : UInt8 := 0
  dirPosition : UInt32 := 0
  dirPath : CString := []
  data : Option OpenedBy := none
  deriving DecidableEq, Repr

/-- The engine functions that take a handle. -/
inductive EngineOp : Type
  | open (path : CString) (flags : UInt16)
  | read (size : UInt16)
  | write (size : UInt16)
  | close
  | lseek (offset : Int32) (whence : UInt8)
  | opendir (path : CString)
  | readdir
  | telldir
  | seekdir (position : UInt32)
  | closedir
  | freeHandle
  deriving DecidableEq

/-- What a handler does with a mount index. `target` is the mount the call
reaches and `opener` the mount that opened the handle, if one did. -/
inductive XfsEvent : Type
  | slotRead (mountPoint : UInt8)
  | call (op : EngineOp) (mountPoint : UInt8) (target : Option (XfsEngine × Option Nat))
      (opener : Option OpenedBy)
  deriving DecidableEq

structure XfsState : Type where
  mounts : Fin xfsMaxMounts → XfsEngineMount := fun _ => {}
  identities : Fin xfsMaxMounts → Option (List CString) := fun _ => none
  handles : Fin xfsMaxFds → XfsHandle := fun _ => {}
  nextInstance : Nat := 0
  result : Int16 := 0
  status : XfsStatus := .idle
  fileHandle : UInt8 := 0
  position : UInt32 := 0
  trace : List XfsEvent := []
  halted : Bool := false

/-! ## Commands -/

/-- `registers->arguments` as the command reads it. -/
inductive XfsCommand : Type
  | mount (protocol hostname path username password : CString)
  | umount
  | open (path : CString) (flags : UInt16)
  | read (size : UInt16)
  | write (size : UInt16)
  | close
  | opendir (path : CString)
  | readdir (position : UInt32) (operation : UInt8)
  | closedir
  | lseek (offset : Int32) (whence : UInt8)
  deriving DecidableEq

/-- What the engine and the allocator answer during one command: the value the
engine function returns, what a `telldir` stores and returns, and whether
`xfs_extra_ram_alloc` succeeded. -/
structure EngineAnswer : Type where
  result : Int32 := 0
  tellPosition : UInt32 := 0
  tellResult : Int16 := 0
  allocated : Bool := true
  deriving DecidableEq

structure XfsRequest : Type where
  command : XfsCommand
  mountPoint : UInt8 := 0
  fileHandle : UInt8 := 0
  answer : EngineAnswer := {}
  deriving DecidableEq

inductive XfsAction : Type
  | command (request : XfsRequest)
  | free
  deriving DecidableEq

/-! ## Accesses -/

namespace XfsState

def emit (s : XfsState) (event : XfsEvent) : XfsState :=
  { s with trace := s.trace ++ [event] }

def setHandle (s : XfsState) (h : Fin xfsMaxFds) (value : XfsHandle) : XfsState :=
  { s with handles := Function.update s.handles h value }

def setMount (s : XfsState) (mp : Fin xfsMaxMounts) (value : XfsEngineMount) : XfsState :=
  { s with mounts := Function.update s.mounts mp value }

def setIdentity (s : XfsState) (mp : Fin xfsMaxMounts) (value : Option (List CString)) :
    XfsState :=
  { s with identities := Function.update s.identities mp value }

def complete (s : XfsState) (result : Int16) : XfsState :=
  { s with result := result, status := .complete }

def fail (s : XfsState) (result : Int16) : XfsState :=
  { s with result := result, status := .error }

/-- The result registers of a handler that ends with an error code or zero. -/
def finish (s : XfsState) (err : Int16) : XfsState :=
  if err ≠ 0 then s.fail err else s.complete 0

end XfsState

/-- A mount register as an index of the mount table. -/
def mountIndex (mountPoint : UInt8) : Option (Fin xfsMaxMounts) :=
  if inRange : mountPoint.toNat < xfsMaxMounts then some ⟨mountPoint.toNat, inRange⟩ else none

/-- `get_handle`. -/
def getHandle (handle : UInt8) : Option (Fin xfsMaxFds) :=
  if inRange : 1 ≤ handle.toNat ∧ handle.toNat ≤ xfsMaxFds then
    some ⟨handle.toNat - 1, by omega⟩
  else none

/-- The mount a call through `xfs_mounted_engines[mountPoint]` reaches. -/
def XfsState.targetOf (s : XfsState) (mountPoint : UInt8) : Option (XfsEngine × Option Nat) := do
  let mp ← mountIndex mountPoint
  let engine ← (s.mounts mp).engine
  return (engine, (s.mounts mp).mountData)

/-- A read of `xfs_mounted_engines[mountPoint]`. -/
def XfsState.readSlot (s : XfsState) (mountPoint : UInt8) : XfsState :=
  let s := s.emit (.slotRead mountPoint)
  if (mountIndex mountPoint).isNone then { s with halted := true } else s

/-- `mounted_engine->engine->op(mounted_engine, h, …)`. -/
def XfsState.engineCall (s : XfsState) (op : EngineOp) (mountPoint : UInt8)
    (h : Fin xfsMaxFds) : XfsState :=
  let target := s.targetOf mountPoint
  let s := s.emit (.call op mountPoint target (s.handles h).data)
  if target.isNone then { s with halted := true } else s

/-- `allocate_handle`: the first free handle. -/
def allocateHandle (s : XfsState) (type : XfsHandleType) : Option (Fin xfsMaxFds × XfsState) :=
  match (List.finRange xfsMaxFds).find? fun i => (s.handles i).type = .none with
  | none => none
  | some i =>
      some (i, s.setHandle i { s.handles i with type := type, ownerMount := 0xFF, data := none })

/-- `free_handle`. -/
def freeHandle (s : XfsState) (h : Fin xfsMaxFds) (mountPoint : UInt8) : XfsState :=
  let s := s.readSlot mountPoint
  if s.halted then s
  else
    let s := if (s.targetOf mountPoint).isSome then s.engineCall .freeHandle mountPoint h else s
    s.setHandle h { s.handles h with type := .none, ownerMount := 0xFF, data := none }

/-- `xfs_close_handles_for_mount`. -/
def xfsCloseHandlesForMount (s : XfsState) (mp : Fin xfsMaxMounts) : XfsState :=
  (List.finRange xfsMaxFds).foldl
    (fun s hi =>
      if (s.handles hi).type ≠ .none ∧ (s.handles hi).ownerMount.toNat = mp then
        freeHandle s hi (UInt8.ofNat mp)
      else s)
    s

/-! ## Handlers -/

/-- `xfs_compat_local_mount_engine`. -/
def xfsCompatLocalMountEngine (hostname path : CString) : Option XfsEngine :=
  if path ≠ [] ∧ path ≠ bytes "/" then none
  else if hostname = bytes "ram" then some .overlay
  else none

/-- The engine that `xfs_handle_mount` selects. -/
def mountEngine (protocol hostname path : CString) : Option XfsEngine :=
  if protocol = bytes "xfs" then xfsCompatLocalMountEngine hostname path
  else if protocol = bytes "https" then some .https
  else if protocol = bytes "http" then some .http
  else if protocol = bytes "sftp" then some .sftp
  else none

/-- `xfs_handle_mount`; `fields` are protocol, host, path, user and password. -/
def xfsHandleMount (s : XfsState) (r : XfsRequest) (protocol hostname path : CString)
    (fields : List CString) : XfsState :=
  match mountIndex r.mountPoint with
  | none => s.fail XfsError.inval.code
  | some mp =>
      if (s.mounts mp).engine.isSome then
        if s.identities mp = some fields then s.complete 0 else s.fail XfsError.exist.code
      else
        match mountEngine protocol hostname path with
        | none => s.fail XfsError.inval.code
        | some engine =>
            if !r.answer.allocated then s.fail XfsError.nomem.code
            else if r.answer.result.toInt16 ≠ 0 then s.fail r.answer.result.toInt16
            else
              let mount : XfsEngineMount :=
                { engine := some engine, mountData := some s.nextInstance, cwd := some [slash] }
              ({ (s.setMount mp mount).setIdentity mp (some fields) with
                nextInstance := s.nextInstance + 1 }).complete 0

/-- `engine->unmount`: each engine closes the handles of the mount and drops its
data; the overlay does so only when it has data. -/
def engineUnmount (s : XfsState) (mp : Fin xfsMaxMounts) : XfsState :=
  if (s.mounts mp).engine = some .overlay ∧ (s.mounts mp).mountData = none then s
  else
    let s := xfsCloseHandlesForMount s mp
    s.setMount mp { s.mounts mp with mountData := none }

/-- `xfs_handle_umount`. -/
def xfsHandleUmount (s : XfsState) (r : XfsRequest) : XfsState :=
  match mountIndex r.mountPoint with
  | none => s.fail XfsError.inval.code
  | some mp =>
      if (s.mounts mp).engine.isNone then (s.setIdentity mp none).complete 0
      else (((engineUnmount s mp).setMount mp {}).setIdentity mp none).complete 0

/-- The engine flags `xfs_handle_open` derives from the register's. -/
def xfsOpenFlags (flags : UInt16) : UInt16 :=
  let accmode := flags &&& 0x0003
  let xfsFlags : UInt16 := if accmode = 2 then 2 else if accmode = 3 then 3 else 1
  let xfsFlags := if flags &&& 0x0008 ≠ 0 then xfsFlags ||| 0x0800 else xfsFlags
  let xfsFlags := if flags &&& 0x0100 ≠ 0 then xfsFlags ||| 0x0100 else xfsFlags
  if flags &&& 0x0200 ≠ 0 then xfsFlags ||| (0x0100 ||| 0x0400) else xfsFlags

/-- A handle the engine opened for the mount in slot `mp`. -/
def XfsState.markOpened (s : XfsState) (mountPoint : UInt8) (mp : Fin xfsMaxMounts)
    (engine : XfsEngine) (h : Fin xfsMaxFds) : XfsHandle :=
  { s.handles h with
    ownerMount := mountPoint, data := some ⟨mountPoint, engine, (s.mounts mp).mountData⟩ }

/-- `xfs_handle_open` and `xfs_handle_opendir` once a handle is allocated: resolve
the path and let the engine open it. `opened` is what the command itself sets in
the handle. -/
def openAllocated (s : XfsState) (r : XfsRequest) (mp : Fin xfsMaxMounts) (engine : XfsEngine)
    (h : Fin xfsMaxFds) (path : CString) (op : CString → EngineOp)
    (opened : CString → XfsHandle → XfsHandle) : XfsState :=
  match xfsResolvePath (s.mounts mp) path xfsPathMax with
  | .error err => (freeHandle s h r.mountPoint).fail err.code
  | .ok resolved =>
      let s := s.engineCall (op resolved) r.mountPoint h
      if r.answer.result.toInt16 ≠ 0 then
        (freeHandle s h r.mountPoint).fail r.answer.result.toInt16
      else
        let s := s.setHandle h (opened resolved (s.markOpened r.mountPoint mp engine h))
        { s.complete 0 with fileHandle := UInt8.ofNat (h + 1) }

/-- The part `xfs_handle_open` and `xfs_handle_opendir` share. -/
def openHandle (s : XfsState) (r : XfsRequest) (type : XfsHandleType) (path : CString)
    (op : CString → EngineOp) (opened : CString → XfsHandle → XfsHandle) : XfsState :=
  let s := s.readSlot r.mountPoint
  match mountIndex r.mountPoint with
  | none => s
  | some mp =>
      match (s.mounts mp).engine with
      | none => s.fail XfsError.io.code
      | some engine =>
          match allocateHandle s type with
          | none => s.fail XfsError.nomem.code
          | some (h, s) => openAllocated s r mp engine h path op opened

/-- `xfs_handle_open`. -/
def xfsHandleOpen (s : XfsState) (r : XfsRequest) (path : CString) (flags : UInt16) : XfsState :=
  openHandle s r .file path (fun resolved => .open resolved (xfsOpenFlags flags))
    fun _ h => h

/-- `xfs_handle_opendir`. -/
def xfsHandleOpendir (s : XfsState) (r : XfsRequest) (path : CString) : XfsState :=
  openHandle s r .dir path .opendir
    fun resolved h => { h with dirPosition := 0, dirPath := resolved.take (xfsPathMax - 1) }

/-- The handle a command names, when it is of the type the command needs. -/
def XfsState.handleOfType (s : XfsState) (handle : UInt8) (type : XfsHandleType) :
    Option (Fin xfsMaxFds) :=
  (getHandle handle).filter fun h => (s.handles h).type = type

/-- `xfs_handle_read` and `xfs_handle_write`: one engine call whose count is cut
to the result register's sixteen bits. -/
def handleTransfer (s : XfsState) (r : XfsRequest) (op : EngineOp) : XfsState :=
  match s.handleOfType r.fileHandle .file with
  | none => s.fail XfsError.badf.code
  | some h =>
      let s := s.engineCall op r.mountPoint h
      if s.halted then s
      else if r.answer.result.toInt16 < 0 then s.fail r.answer.result.toInt16
      else s.complete r.answer.result.toInt16

def xfsHandleRead (s : XfsState) (r : XfsRequest) (size : UInt16) : XfsState :=
  handleTransfer s r (.read size)

def xfsHandleWrite (s : XfsState) (r : XfsRequest) (size : UInt16) : XfsState :=
  handleTransfer s r (.write size)

/-- `xfs_handle_lseek`. -/
def xfsHandleLseek (s : XfsState) (r : XfsRequest) (offset : Int32) (whence : UInt8) : XfsState :=
  match s.handleOfType r.fileHandle .file with
  | none => s.fail XfsError.badf.code
  | some h =>
      let s := s.engineCall (.lseek offset whence) r.mountPoint h
      if s.halted then s
      else if r.answer.result < 0 then s.fail r.answer.result.toInt16
      else s.complete 0

/-- `xfs_handle_close`, which accepts a handle of any type. -/
def xfsHandleClose (s : XfsState) (r : XfsRequest) : XfsState :=
  match getHandle r.fileHandle with
  | none => s.fail XfsError.badf.code
  | some h =>
      match (s.handles h).type with
      | .none => let s := freeHandle s h r.mountPoint
                 if s.halted then s else s.complete 0
      | .file => let s := s.engineCall .close r.mountPoint h
                 if s.halted then s
                 else (freeHandle s h r.mountPoint).finish r.answer.result.toInt16
      | .dir => let s := s.engineCall .closedir r.mountPoint h
                if s.halted then s
                else (freeHandle s h r.mountPoint).finish r.answer.result.toInt16

/-- `xfs_handle_closedir`. -/
def xfsHandleClosedir (s : XfsState) (r : XfsRequest) : XfsState :=
  match s.handleOfType r.fileHandle .dir with
  | none => s.fail XfsError.badf.code
  | some h =>
      let s := s.engineCall .closedir r.mountPoint h
      if s.halted then s
      else (freeHandle s h r.mountPoint).finish r.answer.result.toInt16

/-- A successful `telldir` stores the position in the handle and the registers. -/
def storePosition (s : XfsState) (h : Fin xfsMaxFds) (position : UInt32) : XfsState :=
  { s.setHandle h { s.handles h with dirPosition := position } with position := position }

/-- `xfs_handle_readdir`. -/
def xfsHandleReaddir (s : XfsState) (r : XfsRequest) (position : UInt32) (operation : UInt8) :
    XfsState :=
  match s.handleOfType r.fileHandle .dir with
  | none => s.fail XfsError.badf.code
  | some h =>
      if operation = 1 then
        let s := s.engineCall (.seekdir position) r.mountPoint h
        if s.halted then s
        else if r.answer.result.toInt16 ≠ 0 then s.fail r.answer.result.toInt16
        else (storePosition s h position).complete 0
      else if operation = 2 then
        let s := s.engineCall .telldir r.mountPoint h
        if s.halted then s
        else if r.answer.tellResult ≠ 0 then s.fail r.answer.tellResult
        else (storePosition s h r.answer.tellPosition).complete 0
      else if operation ≠ 0 then s.fail XfsError.inval.code
      else
        let s := s.engineCall .readdir r.mountPoint h
        if s.halted then s
        else if r.answer.result.toInt16 < 0 then s.fail r.answer.result.toInt16
        else if r.answer.result.toInt16 = 0 then s.complete 1
        else
          let s := s.engineCall .telldir r.mountPoint h
          if r.answer.tellResult ≠ 0 then s.fail r.answer.tellResult
          else (storePosition s h r.answer.tellPosition).complete 0

/-- `xfs_handle_command` on the commands above. -/
def xfsHandleCommand (s : XfsState) (r : XfsRequest) : XfsState :=
  let s := { s with result := 0, status := .busy }
  match r.command with
  | .mount protocol hostname path username password =>
      xfsHandleMount s r protocol hostname path [protocol, hostname, path, username, password]
  | .umount => xfsHandleUmount s r
  | .open path flags => xfsHandleOpen s r path flags
  | .read size => xfsHandleRead s r size
  | .write size => xfsHandleWrite s r size
  | .close => xfsHandleClose s r
  | .opendir path => xfsHandleOpendir s r path
  | .readdir position operation => xfsHandleReaddir s r position operation
  | .closedir => xfsHandleClosedir s r
  | .lseek offset whence => xfsHandleLseek s r offset whence

/-- One slot of `xfs_free`. -/
def freeSlot (s : XfsState) (mp : Fin xfsMaxMounts) : XfsState :=
  let s := if (s.mounts mp).engine.isSome then engineUnmount s mp else s
  (s.setMount mp {}).setIdentity mp none

/-- `xfs_free`. -/
def xfsFree (s : XfsState) : XfsState :=
  let s := (List.finRange xfsMaxMounts).foldl freeSlot s
  { s with handles := fun _ => {} }

/-- One command or one `xfs_free`, unless an earlier access was undefined. -/
def xfsStep (s : XfsState) : XfsAction → Option XfsState
  | .command r => if s.halted then none else some (xfsHandleCommand s r)
  | .free => if s.halted then none else some (xfsFree s)

end FuseX.Xfs
