import FuseX.Lib.Reader
import FuseX.Xfs.Transfer
import FuseX.Xfs.Fs

/-!
# Copying a file

`engine_cp_call` copies a file of a mount, or a range of it, to a file of the RAM file system, which is a
directory of the host. The engine of the source is a parameter: it opens a file, and its reads return pieces
of what is left of it. What the host makes of the requests for the destination comes with the call.

Paths go to the host as they are written, so that `.`, `..` and repeated slashes are left to it: `namei` is
its walk over the segments. The host has no links, and a path is shorter than its limit.
-/

namespace FuseX.Engines.Cp

open Lib Xfs Xfs.Transfer

/-! ## Numbers -/

def isSpace (c : UInt8) : Bool :=
  c = 32 || (9 ≤ c && c ≤ 13)

/-- The value of a digit. -/
def digitValue (c : UInt8) : Nat :=
  if 48 ≤ c ∧ c ≤ 57 then c.toNat - 48
  else if 97 ≤ c ∧ c ≤ 122 then c.toNat - 87
  else if 65 ≤ c ∧ c ≤ 90 then c.toNat - 55
  else 36

/-- `strtoul`: the value, whether it is out of range, and what follows the number. -/
def strtoul (text : CString) (base : Nat) : Nat × Bool × CString :=
  let unspaced := text.dropWhile isSpace
  let negative := unspaced.head? = some 45
  let unsigned := if negative ∨ unspaced.head? = some 43 then unspaced.tail else unspaced
  let number :=
    match unsigned with
    | 48 :: x :: c :: rest =>
      if base = 16 ∧ (x = 120 ∨ x = 88) ∧ digitValue c < 16 then c :: rest else unsigned
    | _ => unsigned
  let digits := number.takeWhile (digitValue · < base)
  if digits = [] then (0, false, text)
  else
    let value := digits.foldl (fun value c => value * base + digitValue c) 0
    let rest := number.drop digits.length
    if 2 ^ 64 ≤ value then (2 ^ 64 - 1, true, rest)
    else (if negative then (2 ^ 64 - value) % 2 ^ 64 else value, false, rest)

def int32Max : Nat := 2 ^ 31 - 1

/-- `parse_nonnegative`. -/
def parseNonnegative (text : CString) : Option Nat :=
  if text = [] ∨ text.head? = some 45 then none
  else
    let base := match text with
      | 48 :: x :: _ => if x = 120 ∨ x = 88 then 16 else 10
      | _ => 10
    match strtoul text base with
    | (parsed, range, rest) => if range ∨ rest ≠ [] ∨ int32Max < parsed then none else some parsed

/-! ## Paths -/

/-- `engine_fs_parse_mount_spec`: the mount and the path, with the default mount where none is named. -/
def parseMountSpec (defaultMount : Nat) (spec : CString) : Option (Nat × CString) :=
  let p := spec.dropWhile (· = 32)
  let named : Nat × CString := match p with
    | d :: 58 :: rest => if 48 ≤ d ∧ d ≤ 57 then (d.toNat - 48, rest) else (defaultMount, p)
    | _ => (defaultMount, p)
  if named.2 = [] then none else if 4 ≤ named.1 then none else some named

/-- Leading slashes do not count. -/
def stripSlashes (path : CString) : CString :=
  path.dropWhile (· = slash)

/-- The walk of the host over the segments of a path: every one is looked for in a directory. -/
def nameiSegments (host : HostNode) : List Name → List CString → Except XfsError (List Name)
  | here, [] => .ok here
  | here, segment :: rest =>
    match Posix.lookup host here with
    | .error err => .error err
    | .ok (.file _) => .error .notdir
    | .ok (.dir _) =>
      if proper : IsName segment then nameiSegments host (here ++ [⟨segment, proper⟩]) rest
      else if segment = [dot, dot] then nameiSegments host here.dropLast rest
      else nameiSegments host here rest

/-- Where the host finds the text of a path. -/
def namei (mount : FsMount) (path : CString) : Except XfsError (List Name) :=
  nameiSegments mount.host mount.base (path.splitOn slash)

/-! ## Engines -/

/-- The engine of a mount, as far as it is told apart. -/
inductive EngineKind : Type
  | overlay | ram | other
deriving DecidableEq

/-- A mounted engine: how it opens a file for reading, and how it reads. -/
structure SourceMount (σ : Type) : Type where
  kind : EngineKind
  reader : Reader XfsError UInt8 σ
  openRead : FsMount → CString → Except XfsError σ

/-- What a call meets: the mounts, and what the host makes of the requests for the destination. -/
structure Setting (σ : Type) : Type where
  defaultMount : Nat
  mounts : Nat → Option (SourceMount σ)
  ramMounts : Bool
  unlinkFails : Option XfsError
  openFails : Option XfsError
  writes : Nat → Answer
  closes : Bool

variable {σ : Type}

/-- `engine_fs_ram_source_aliases_destination`. -/
def Setting.ramSourceAliasesDestination (setting : Setting σ) (index : Nat) (source destination : CString) :
    Bool :=
  match setting.mounts index with
  | none => false
  | some mounted => mounted.kind ≠ .other && stripSlashes source = stripSlashes destination

/-! ## The destination -/

/-- `fs_unlink`. -/
def Setting.unlink (setting : Setting σ) (mount : FsMount) (path : CString) : Except XfsError Unit × FsMount :=
  match setting.unlinkFails with
  | some err => (.error err, mount)
  | none =>
    match namei mount path with
    | .error err => (.error err, mount)
    | .ok place => mount.finish (Posix.unlink mount.host place)

/-- `fs_open` with `XFS_O_WRONLY | XFS_O_CREAT | XFS_O_TRUNC`; the open file is known by its place. -/
def Setting.openTruncated (setting : Setting σ) (mount : FsMount) (path : CString) :
    Except XfsError (List Name) × FsMount :=
  match setting.openFails with
  | some err => (.error err, mount)
  | none =>
    match namei mount path with
    | .error err => (.error err, mount)
    | .ok place =>
      match Posix.openFile mount.host place { write := true, creat := true, trunc := true } with
      | .error err => (.error err, mount)
      | .ok host => (.ok place, { mount with host := host })

/-- `engine_fs_ram_open_write`. -/
def Setting.ramOpenWrite (setting : Setting σ) (mount : FsMount) (path : CString) :
    Option (List Name) × FsMount :=
  match setting.unlink mount path with
  | (.ok (), mount) | (.error .noent, mount) =>
    match setting.openTruncated mount path with
    | (.ok place, mount) => (some place, mount)
    | (.error _, mount) => (none, mount)
  | (.error _, mount) => (none, mount)

/-- The bytes behind a file. -/
def appendTo (bytes : List UInt8) : HostNode → HostNode
  | .file content => .file (content ++ bytes)
  | .dir entries => .dir entries

/-- `fs_write` at the end of the file: how many bytes are written, if it does not fail. -/
def ramWrite (mount : FsMount) (place : List Name) (answer : Answer) (bytes : List UInt8) :
    Option Nat × FsMount :=
  match answer.fails with
  | some _ => (none, mount)
  | none =>
    let written := bytes.take answer.limit
    (some written.length, { mount with host := mount.host.modify (appendTo written) place })

/-! ## `engine_cp_call` -/

/-- `CP_BUFFER_SIZE`. -/
def cpBufferSize : Nat := 4096

/-- The loop that copies; `argc` is 3 where `ranged` holds. -/
def copyLoop (setting : Setting σ) (reader : Reader XfsError UInt8 σ) (place : List Name) (ranged : Bool) :
    Nat → σ → Nat → Nat → FsMount → Option (Int × FsMount)
  | 0, _, _, _, _ => none
  | rounds + 1, source, remaining, copied, mount =>
    let requested := if remaining < cpBufferSize then remaining else cpBufferSize
    if requested = 0 then some (0, mount)
    else
      match reader.read source requested with
      | (.error _, _) => some (-2, mount)
      | (.ok [], _) => some (if ranged then -2 else 0, mount)
      | (.ok (byte :: bytes), source) =>
        match ramWrite mount place (setting.writes copied) (byte :: bytes) with
        | (none, mount) => some (-2, mount)
        | (some written, mount) =>
          if written ≠ (byte :: bytes).length then some (-2, mount)
          else
            copyLoop setting reader place ranged rounds source
              (if ranged then remaining - (byte :: bytes).length else remaining)
              (copied + (byte :: bytes).length) mount

/-- The range that the arguments behind the name of the command ask for, if they are right. -/
def parseRange : List CString → Option (Option (Nat × Nat))
  | [_] => some none
  | [_, first, second] =>
    match parseNonnegative first, parseNonnegative second with
    | some offset, some count => if int32Max - offset < count then none else some (some (offset, count))
    | _, _ => none
  | _ => none

/-- The source and the range, where the arguments are right. -/
def Setting.parse (setting : Setting σ) (input output : CString) (argv : List CString) :
    Option (Nat × CString × Option (Nat × Nat)) :=
  match parseMountSpec setting.defaultMount input with
  | none => none
  | some (index, path) =>
    if output = [] ∨ 58 ∈ output then none
    else
      match parseRange argv with
      | none => none
      | some range => some (index, path, range)

/-- `engine_cp_call`, with the number of rounds that a loop is followed for. -/
def Setting.engineCpCall (setting : Setting σ) (rounds : Nat) (mount : FsMount) (input output : CString)
    (argv : List CString) : Option (Int × FsMount) :=
  match setting.parse input output argv with
  | none => some (-3, mount)
  | some (index, path, range) =>
    if setting.ramSourceAliasesDestination index path output then some (-3, mount)
    else
      match setting.mounts index with
      | none => some (-2, mount)
      | some mounted =>
        match mounted.openRead mount path with
        | .error _ => some (-2, mount)
        | .ok source =>
          match mounted.reader.skip cpBufferSize rounds source ((range.map Prod.fst).getD 0) with
          | none => none
          | some none => some (-2, mount)
          | some (some source) =>
            if !setting.ramMounts then some (-2, mount)
            else
              match setting.ramOpenWrite mount output with
              | (none, mount) => some (-2, mount)
              | (some place, mount) =>
                (copyLoop setting mounted.reader place range.isSome rounds source
                    ((range.map Prod.snd).getD (2 ^ 32 - 1)) 0 mount).map
                  fun outcome => (if setting.closes then outcome.1 else -2, outcome.2)

end FuseX.Engines.Cp
