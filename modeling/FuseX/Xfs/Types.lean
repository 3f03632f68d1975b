import Mathlib.Data.List.Basic

/-!
# XFS vocabulary

The constants and small types of `xfs.h` that the XFS modules share. A C string
is the list of its bytes before the terminating NUL.
-/

namespace FuseX.Xfs

/-- The bytes of a C string, without its terminator. -/
abbrev CString := List UInt8

/-- The bytes of a literal, for paths written out in examples. -/
def bytes (text : String) : CString :=
  text.toList.map fun c => c.toNat.toUInt8

/-- `enum xfs_error`, with the `errno` values engines pass on unchanged. -/
inductive XfsError : Type
  | io
  | corrupt
  | noent
  | exist
  | notdir
  | isdir
  | notempty
  | badf
  | fbig
  | inval
  | nospc
  | nomem
  | busy
  | noattr
  | nametoolong
  | errno (code : Nat)
  deriving DecidableEq, Repr

/-- The value of the error in the result register. -/
def XfsError.code : XfsError → Int16
  | .io => -5
  | .corrupt => -84
  | .noent => -2
  | .exist => -17
  | .notdir => -20
  | .isdir => -21
  | .notempty => -39
  | .badf => -9
  | .fbig => -27
  | .inval => -22
  | .nospc => -28
  | .nomem => -12
  | .busy => -16
  | .noattr => -61
  | .nametoolong => -36
  | .errno code => -Int16.ofNat code

/-- `XFS_STATUS_*`. -/
inductive XfsStatus : Type
  | idle
  | busy
  | complete
  | error
  deriving DecidableEq, Repr

/-- `enum xfs_type`. -/
inductive XfsType : Type
  | reg
  | dir
  deriving DecidableEq, Repr

/-- `FS_STORAGE_*`. -/
inductive FsStorage : Type
  | ram
  | flash
  | system
  | usb
  deriving DecidableEq, Repr

/-- `struct xfs_stat_info`. -/
structure XfsStatInfo : Type where
  type : XfsType
  storage : FsStorage
  size : UInt32
  atime : UInt32 := 0
  mtime : UInt32 := 0
  ctime : UInt32 := 0
  name : CString
  deriving DecidableEq, Repr

/-- `XFS_PATH_MAX`: the size of every path buffer, terminator included. -/
def xfsPathMax : Nat := 256

/-- The four slots of `xfs_mounted_engines`. -/
def xfsMaxMounts : Nat := 4

/-- `XFS_MAX_FDS`. -/
def xfsMaxFds : Nat := 16

/-- The engines `xfs_handle_mount` can select. -/
inductive XfsEngine : Type
  | overlay
  | https
  | http
  | sftp
  deriving DecidableEq, Repr

/-- `struct xfs_engine_mount_t`. `mountData` is the backend's own pointer; it
stands for the mount instance the backend created. -/
structure XfsEngineMount : Type where
  engine : Option XfsEngine := none
  mountData : Option Nat := none
  cwd : Option CString := none
  deriving DecidableEq, Repr

end FuseX.Xfs
