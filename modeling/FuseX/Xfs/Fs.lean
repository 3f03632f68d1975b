import FuseX.Lib.Tree
import FuseX.Xfs.Path

/-!
# The host file system engine

`xfs_fs.c` serves a directory of the host. The host is a tree of names, and the
`Posix` operations are the calls the engine makes of it: they either change the
tree and succeed, or report an `errno` and leave it as it was.

A path is the list of its names; `pathText` is the text the engines receive.
File contents count only by what the path operations read of them. Times,
permissions, links and the supply of descriptors are left out.
-/

namespace FuseX.Xfs

open Lib

/-! ## Paths -/

/-- A name a directory can list. -/
@[ext] structure Name : Type where
  val : CString
  property : IsName val
  deriving DecidableEq

/-- The canonical text of an absolute path. -/
def pathText (path : List Name) : CString :=
  CanonicalPath.render ⟨path.map (·.val), by
    intro name member
    obtain ⟨proper, -, rfl⟩ := List.mem_map.mp member
    exact proper.property⟩

/-- The path fits a path buffer, as every path a command hands on does. -/
def PathFits (path : List Name) : Prop :=
  (pathText path).length < xfsPathMax

instance (path : List Name) : Decidable (PathFits path) :=
  inferInstanceAs (Decidable (_ < _))

/-- Bytes of a name a `struct xfs_stat_info` has room for. -/
def statNameMax : Nat := 63

/-- `strncpy` into the name of a `struct xfs_stat_info`. -/
def statName (name : CString) : CString :=
  name.take statNameMax

/-! ## Open flags -/

def xfsOAccmode : UInt32 := 3
def xfsOWronly : UInt32 := 2
def xfsORdwr : UInt32 := 3
def xfsOCreat : UInt32 := 0x0100
def xfsOTrunc : UInt32 := 0x0400
def xfsOAppend : UInt32 := 0x0800

def hasFlag (flags mask : UInt32) : Bool :=
  flags &&& mask != 0

/-- The access mode asks for writing. -/
def writeMode (flags : UInt32) : Bool :=
  flags &&& xfsOAccmode == xfsOWronly || flags &&& xfsOAccmode == xfsORdwr

/-! ## The host -/

abbrev HostNode : Type := Tree Name (List UInt8)

/-- The `open` flags the engine passes on; `O_APPEND` does not matter to the
call itself. -/
structure HostOpenFlags : Type where
  write : Bool
  creat : Bool
  trunc : Bool

namespace Posix

/-- The node at a path: `ENOENT` for a missing name, `ENOTDIR` behind a file. -/
def lookup (host : HostNode) (path : List Name) : Except XfsError HostNode :=
  match host.walk path with
  | .ok node => .ok node
  | .error .missing => .error .noent
  | .error .notDir => .error .notdir

/-- `open`; an existing directory opens for reading only. -/
def openFile (host : HostNode) (path : List Name) (flags : HostOpenFlags) :
    Except XfsError HostNode :=
  match lookup host path with
  | .ok (.dir _) =>
      if flags.write || flags.creat || flags.trunc then .error .isdir else .ok host
  | .ok (.file _) =>
      if flags.trunc then .ok (host.modify (fun _ => .file []) path) else .ok host
  | .error .noent =>
      if flags.creat then
        match path.getLast?, lookup host path.dropLast with
        | some name, .ok (.dir _) => .ok (host.place path.dropLast name (.file []))
        | some _, .ok (.file _) => .error .notdir
        | some _, .error err => .error err
        | none, _ => .error .noent
      else .error .noent
  | .error err => .error err

/-- `unlink`. -/
def unlink (host : HostNode) (path : List Name) : Except XfsError HostNode :=
  match path.getLast?, lookup host path with
  | some name, .ok (.file _) => .ok (host.remove path.dropLast name)
  | _, .ok (.dir _) => .error .isdir
  | none, .ok (.file _) => .error .busy
  | _, .error err => .error err

/-- `mkdir`. -/
def mkdir (host : HostNode) (path : List Name) : Except XfsError HostNode :=
  match path.getLast? with
  | none => .error .exist
  | some name =>
      match lookup host path.dropLast with
      | .ok (.dir entries) =>
          if (entries.lookup name).isSome then .error .exist
          else .ok (host.place path.dropLast name (.dir []))
      | .ok (.file _) => .error .notdir
      | .error err => .error err

/-- `rmdir`. -/
def rmdir (host : HostNode) (path : List Name) : Except XfsError HostNode :=
  match path.getLast?, lookup host path with
  | some name, .ok (.dir []) => .ok (host.remove path.dropLast name)
  | some _, .ok (.dir (_ :: _)) => .error .notempty
  | some _, .ok (.file _) => .error .notdir
  | none, .ok _ => .error .busy
  | _, .error err => .error err

/-- May `source` take the place of `target`? -/
def replaceable (source : HostNode) : Option HostNode → Except XfsError Unit
  | none => .ok ()
  | some (.file _) => if source.isDir then .error .notdir else .ok ()
  | some (.dir entries) =>
      if !source.isDir then .error .isdir
      else if entries = [] then .ok ()
      else .error .notempty

/-- `rename`. Both parents are looked up first, then the loops are excluded,
then what stands at the new path. -/
def rename (host : HostNode) (old new : List Name) : Except XfsError HostNode :=
  match old.getLast?, new.getLast? with
  | some oldName, some newName => do
      let source ← lookup host old
      match ← lookup host new.dropLast with
      | .file _ => .error .notdir
      | .dir entries =>
          if old = new then .ok host
          else if old <+: new then .error .inval
          else if new <+: old then .error .notempty
          else do
            replaceable source (entries.lookup newName)
            .ok ((host.remove old.dropLast oldName).place new.dropLast newName source)
  | _, _ => .error .busy

end Posix

/-! ## The engine -/

/-- A mount of the engine: the host and `xfs_base_path`. -/
structure FsMount : Type where
  host : HostNode
  base : List Name

/-- `build_path`. -/
def buildPath (mount : FsMount) (path : List Name) : List Name :=
  mount.base ++ path

/-- What a call did to the host behind the mount. -/
def FsMount.finish (mount : FsMount) :
    Except XfsError HostNode → Except XfsError Unit × FsMount
  | .ok host => (.ok (), { mount with host := host })
  | .error err => (.error err, mount)

/-- The stat record of a node. -/
def fsStatInfo (node : HostNode) (name : CString) : XfsStatInfo :=
  match node with
  | .dir _ => { type := .dir, storage := .flash, size := 0, name := statName name }
  | .file content =>
      { type := .reg, storage := .flash, size := .ofNat content.length, name := statName name }

/-- `fs_stat`; the name is what follows the last slash of the path. -/
def fsStat (mount : FsMount) (path : List Name) : Except XfsError XfsStatInfo :=
  match Posix.lookup mount.host (buildPath mount path) with
  | .ok node => .ok (fsStatInfo node ((path.getLast?.map (·.val)).getD []))
  | .error err => .error err

/-- `fs_readdir` on one entry of the host: names that start with a dot are
passed over. -/
def fsReaddirEntry (entry : Name × HostNode) : Option XfsStatInfo :=
  if entry.1.val.head? = some dot then none else some (fsStatInfo entry.2 entry.1.val)

/-- `fs_opendir` and the records `fs_readdir` then returns, the parent first. -/
def fsOpendir (mount : FsMount) (path : List Name) : Except XfsError (List XfsStatInfo) :=
  match Posix.lookup mount.host (buildPath mount path) with
  | .ok (.dir entries) =>
      .ok ({ type := .dir, storage := .flash, size := 0, name := [dot, dot] } ::
        entries.filterMap fsReaddirEntry)
  | .ok (.file _) => .error .notdir
  | .error err => .error err

/-- `fs_open`; `XFS_O_CREAT` forces read-write access. -/
def fsOpen (mount : FsMount) (path : List Name) (flags : UInt32) :
    Except XfsError Unit × FsMount :=
  mount.finish (Posix.openFile mount.host (buildPath mount path)
    { write := writeMode flags || hasFlag flags xfsOCreat
      creat := hasFlag flags xfsOCreat
      trunc := hasFlag flags xfsOTrunc })

/-- `fs_unlink`. -/
def fsUnlink (mount : FsMount) (path : List Name) : Except XfsError Unit × FsMount :=
  mount.finish (Posix.unlink mount.host (buildPath mount path))

/-- `fs_mkdir`. -/
def fsMkdir (mount : FsMount) (path : List Name) : Except XfsError Unit × FsMount :=
  mount.finish (Posix.mkdir mount.host (buildPath mount path))

/-- `fs_rmdir`. -/
def fsRmdir (mount : FsMount) (path : List Name) : Except XfsError Unit × FsMount :=
  mount.finish (Posix.rmdir mount.host (buildPath mount path))

/-- `fs_rename`. -/
def fsRename (mount : FsMount) (old new : List Name) : Except XfsError Unit × FsMount :=
  mount.finish (Posix.rename mount.host (buildPath mount old) (buildPath mount new))

end FuseX.Xfs
