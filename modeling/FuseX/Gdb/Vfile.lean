import FuseX.Gdb.Packets
import FuseX.Lib.Scans

/-!
# The file requests of a debugger

`vfile.c` serves the packets `vFile:` and `vSpectranext:`. A request is read where it was
received: the input buffer holds the packet, a NUL if there is room for one, and behind it
whatever earlier packets have left. The subcommands cut their arguments out of that memory
by hand, `args` being a pointer and `n` a length, and answer from a response buffer that is
used again as well.

The file system is a parameter: a state, and what it answers to a call.
-/

namespace FuseX.Gdb

open Lib

abbrev Bytes := List UInt8

def text (s : String) : Bytes := s.toList.map ascii

def decimal (n : Nat) : Bytes := (Nat.toDigits 10 n).map ascii

def hexadecimal (n : Nat) : Bytes := (Nat.toDigits 16 n).map ascii

/-! ## The file system -/

/-- `struct xfs_stat_info` -/
structure XfsStatInfo where
  isDir : Bool := false
  size : UInt32 := 0
  name : Bytes := []

/-- `struct xfs_stats` -/
structure XfsStats where
  totalKnown : UInt8 := 0
  usedKnown : UInt8 := 0
  freeKnown : UInt8 := 0
  totalBytes : UInt64 := 0
  usedBytes : UInt64 := 0
  freeBytes : UInt64 := 0

/-- What is called in `xfs_overlay_engine`. -/
inductive XfsCall : Type
  | mount
  | stats
  | open (path : Bytes) (flags : Nat)
  | read (size : Nat)
  | write (data : Bytes)
  | close
  | opendir (path : Bytes)
  | readdir
  | closedir
  | freeHandle
  | stat (path : Bytes)
  | unlink (path : Bytes)
  | mkdir (path : Bytes)
  | rmdir (path : Bytes)
  | rename (oldPath newPath : Bytes)
  deriving DecidableEq

/-- What a call returns, and what it stores through its pointers. -/
structure XfsReply where
  result : Int := 0
  data : Bytes := []
  info : XfsStatInfo := {}
  stats : XfsStats := {}

/-- A file system. What it reports as read it has stored, and its errors are of 16 bits. -/
structure XfsEngine (σ : Type) where
  call : σ → XfsCall → σ × XfsReply
  stored : ∀ s size, (call s (.read size)).2.result ≤ (call s (.read size)).2.data.length
  errors : ∀ s size, -0x8000 ≤ (call s (.read size)).2.result

/-- `xfs_errno_to_gdb_errno` -/
def xfsErrnoToGdbErrno (xfsErr : Int) : Nat :=
  if xfsErr = 0 then 0
  else if xfsErr = -5 then 5
  else if xfsErr = -84 then 5
  else if xfsErr = -2 then 2
  else if xfsErr = -17 then 17
  else if xfsErr = -20 then 20
  else if xfsErr = -21 then 21
  else if xfsErr = -39 then 39
  else if xfsErr = -9 then 9
  else if xfsErr = -27 then 27
  else if xfsErr = -22 then 22
  else if xfsErr = -28 then 28
  else if xfsErr = -12 then 12
  else 5

/-! ## Arguments -/

/-- What a slice of the arguments comes to: `none` is a read behind the end of the memory,
`some none` is a malformed argument. -/
abbrev Arg (α : Type) : Type := Option (Option α)

def Arg.andThen {α β : Type} (arg : Arg α) (f : α → Arg β) : Arg β :=
  arg.bind fun
    | none => some none
    | some x => f x

/-- `parse_hex_u32`: the number so far and whether there is a digit, then the memory from `p`
on and how far it is to `end`. -/
def parseHexU32 (v : UInt32) (any : Bool) : Bytes → Nat → Arg (UInt32 × Bytes × Nat)
  | p, 0 => some (if any then some (v, p, 0) else none)
  | [], _ + 1 => none
  | c :: p, left + 1 =>
      match hexNib c with
      | none => some (if any then some (v, c :: p, left + 1) else none)
      | some n => parseHexU32 (v <<< 4 ||| UInt32.ofNat n) true p left

/-- A number and the comma behind it. -/
def parseField (p : Bytes) (left : Nat) : Arg (UInt32 × Bytes × Nat) :=
  (parseHexU32 0 false p left).andThen fun
    | (v, c :: p, left + 1) => some (if c = ascii ',' then some (v, p, left) else none)
    | _ => some none

/-- Pairs of hex digits. -/
def hexPairs : Bytes → Option Bytes
  | [] => some []
  | [_] => none
  | hi :: lo :: hex => do
      let h ← hexNib hi
      let l ← hexNib lo
      let out ← hexPairs hex
      some (UInt8.ofNat (h <<< 4 ||| l) :: out)

/-- `hex_decode_string` once the length is known. What it decodes is a C string. -/
def decodeHex (outSize : Nat) (hex : Bytes) : Option Bytes :=
  if hex.length % 2 ≠ 0 ∨ outSize ≤ hex.length / 2 then none
  else (hexPairs hex).map fun out => out.takeWhile (· ≠ 0)

/-- `hex_decode_string` -/
def hexDecodeString (hex : Bytes) (outSize : Nat) : Arg Bytes :=
  (stringAt 0 hex).map (decodeHex outSize)

/-- `hex_char_to_val` -/
def hexCharToVal (c : UInt8) : Nat := (hexNib c).getD 0

/-- `hex_to_bin` -/
def hexToBin (hex : Bytes) : Nat → Bytes
  | 0 => []
  | dataLen + 1 =>
      UInt8.ofNat (hexCharToVal (hex.getD 0 0) <<< 4 ||| hexCharToVal (hex.getD 1 0)) ::
        hexToBin (hex.drop 2) dataLen

/-! ## The response buffer -/

def responseBufSize : Nat := 0x20000

/-- Bytes stored at the start of the buffer. -/
def store (data buf : Bytes) : Bytes := data ++ buf.drop data.length

/-- `snprintf` into the buffer. -/
def snprintf (response buf : Bytes) : Bytes :=
  store (response.take (responseBufSize - 1) ++ [0]) buf

/-- The digits of `bin_to_hex`. -/
def upperDigit (n : UInt8) : UInt8 := (text "0123456789ABCDEF").getD n.toNat 0

/-- The loop of `bin_to_hex` over its own input, from the last byte down. -/
def encodeDown : Nat → Bytes → Bytes
  | 0, buf => buf
  | idx + 1, buf =>
      let byte := buf.getD idx 0
      encodeDown idx ((buf.set (idx * 2) (upperDigit (byte >>> 4))).set (idx * 2 + 1)
        (upperDigit (byte &&& 0x0F)))

/-- `bin_to_hex` in place. -/
def binToHex (len : Nat) (buf : Bytes) : Bytes :=
  (encodeDown len buf).set (len * 2) 0

/-- `hex_encode_string` -/
def hexEncodeString (s : Bytes) (outSize : Nat) : Bytes :=
  (s.take (if outSize ≤ s.length * 2 then (outSize - 1) / 2 else s.length)).flatMap
    fun (c : UInt8) =>
      [hexDigits.getD (c >>> 4).toNat 0, hexDigits.getD (c &&& 0x0F).toNat 0]

/-! ## The server -/

inductive HandleType : Type
  | none
  | file
  | dir
  deriving DecidableEq

/-- What a request leads to outside of the server. -/
inductive VfileEvent : Type
  | call (call : XfsCall)
  | message (response : Bytes)
  | scheduleReset
  | scheduleAutoboot
  deriving DecidableEq

/-- What `vfile.c` keeps, the file system, and what has happened so far. -/
structure Vfile (σ : Type) where
  fs : σ
  mounted : Bool := false
  handle : HandleType := .none
  filePosition : UInt32 := 0
  events : List VfileEvent := []

variable {σ : Type}

def Vfile.log (event : VfileEvent) (v : Vfile σ) : Vfile σ :=
  { v with events := v.events ++ [event] }

def Vfile.call (engine : XfsEngine σ) (call : XfsCall) (v : Vfile σ) : Vfile σ × XfsReply :=
  let (fs, reply) := engine.call v.fs call
  ({ v with fs := fs }.log (.call call), reply)

/-- `vfile_ext_ensure_mounted` -/
def Vfile.ensureMounted (engine : XfsEngine σ) (v : Vfile σ) : Vfile σ × Bool :=
  if v.mounted then (v, true)
  else
    let (v, reply) := v.call engine .mount
    if reply.result = 0 then ({ v with mounted := true }, true) else (v, false)

/-- `clear_handle` -/
def Vfile.clearHandle (engine : XfsEngine σ) (v : Vfile σ) : Vfile σ × Int :=
  let (v, result) := match v.handle with
    | .none => (v, 0)
    | .file => ((v.call engine .close).1, (v.call engine .close).2.result)
    | .dir => ((v.call engine .closedir).1, (v.call engine .closedir).2.result)
  ({ (v.call engine .freeHandle).1 with handle := .none, filePosition := 0 }, result)

/-- The handle that is still there when another one is opened. -/
def Vfile.dropHandle (engine : XfsEngine σ) (v : Vfile σ) : Vfile σ :=
  if v.handle = .none then v else (v.clearHandle engine).1

def fileError (errno : Nat) : Bytes := text "F-1," ++ decimal errno

def spectranextError (errno : Nat) : Bytes := text "E" ++ decimal errno

/-- The state after a subcommand and its response. -/
abbrev Answer (σ : Type) : Type := Vfile σ × Bytes

/-! ### vFile -/

/-- The flags of `open` in the file system's terms. -/
def xfsFlags (flags : UInt32) : Nat :=
  let accmode := if flags &&& 3 = 1 then 2 else if flags &&& 3 = 2 then 3 else 1
  let append := if flags &&& 8 ≠ 0 then 0x0800 else 0
  let creat := if flags &&& 0x0100 ≠ 0 then 0x0100 else 0
  let trunc := if flags &&& 0x0200 ≠ 0 then 0x0500 else 0
  accmode ||| append ||| creat ||| trunc

/-- `<fd>,<flags>,<mode>,<path>` -/
def openArgs (args : Bytes) (n : Nat) : Arg (UInt32 × Bytes) :=
  (parseField args n).andThen fun (_, p, left) =>
    (parseField p left).andThen fun (flags, p, left) =>
      (parseField p left).andThen fun (_, p, _) =>
        (hexDecodeString p 128).map (Option.map fun path => (flags, path))

/-- `handle_vfile_open` -/
def handleVfileOpen (engine : XfsEngine σ) (v : Vfile σ) (args : Bytes) (n : Nat) :
    Option (Answer σ) :=
  let (v, mounted) := v.ensureMounted engine
  if mounted = false then some (v, fileError 5)
  else
    let v := v.dropHandle engine
    (openArgs args n).map fun
      | none => (v, fileError 22)
      | some (flags, path) =>
          let (v, reply) := v.call engine (.open path (xfsFlags flags))
          if reply.result = 0 then ({ v with handle := .file, filePosition := 0 }, text "F1")
          else (v, fileError (xfsErrnoToGdbErrno reply.result))

/-- `handle_vfile_close` -/
def handleVfileClose (engine : XfsEngine σ) (v : Vfile σ) (args : Bytes) (n : Nat) :
    Option (Answer σ) :=
  (parseHexU32 0 false args n).map fun
    | none => (v, fileError 22)
    | some _ =>
        if v.handle ≠ .file then (v, fileError 9)
        else
          let (v, result) := v.clearHandle engine
          if result ≠ 0 then (v, fileError (xfsErrnoToGdbErrno result)) else (v, text "F0")

/-- `<fd>,<count>` -/
def preadArgs (args : Bytes) (n : Nat) : Arg UInt32 :=
  (parseField args n).andThen fun (_, p, left) =>
    (parseHexU32 0 false p left).map (Option.map (·.1))

/-- The conversion of what `read` and `write` return to `int16_t`. -/
def toInt16 (n : Int) : Int := Int.bmod n 0x10000

/-- `handle_vfile_pread` -/
def handleVfilePread (engine : XfsEngine σ) (v : Vfile σ) (buf args : Bytes) (n : Nat) :
    Option (Answer σ × Bytes) :=
  if v.handle ≠ .file then some ((v, fileError 9), buf)
  else (preadArgs args n).bind fun
    | none => some ((v, fileError 22), buf)
    | some count =>
        let (v, reply) := v.call engine (.read (min count.toNat ((responseBufSize - 1) / 2)))
        let buf := store reply.data buf
        let bytesRead := toInt16 reply.result
        if bytesRead < 0 then
          some ((v, fileError (xfsErrnoToGdbErrno bytesRead)), buf)
        else
          let available := responseBufSize - 1
          let bytesToEncode :=
            if available < bytesRead.toNat * 2 then available / 2 else bytesRead.toNat
          let v := { v with filePosition := v.filePosition + UInt32.ofNat bytesToEncode }
          let buf := binToHex bytesToEncode buf
          (stringAt 0 buf).map fun response => ((v, response), buf)

/-- `<fd>,<hex-data>`: where the data is and how many digits there are. -/
def pwriteArgs (args : Bytes) (n : Nat) : Arg (Bytes × Nat) :=
  if n = 0 then some none
  else (parseField args n).andThen fun (_, p, hexLen) =>
    some (if hexLen = 0 ∨ hexLen % 2 ≠ 0 then none else some (p, hexLen))

/-- `handle_vfile_pwrite`. The length of the conversion is of 16 bits. -/
def handleVfilePwrite (engine : XfsEngine σ) (v : Vfile σ) (buf args : Bytes) (n : Nat) :
    Option (Answer σ × Bytes) :=
  if v.handle ≠ .file then some ((v, fileError 9), buf)
  else (pwriteArgs args n).map fun
    | none => ((v, fileError 22), buf)
    | some (p, hexLen) =>
        let decodedLen := min (hexLen / 2) responseBufSize
        let buf := store (hexToBin p (decodedLen % 0x10000)) buf
        let (v, reply) := v.call engine (.write (buf.take decodedLen))
        let bytesWritten := toInt16 reply.result
        if bytesWritten < 0 then ((v, fileError (xfsErrnoToGdbErrno bytesWritten)), buf)
        else
          let v := { v with filePosition := v.filePosition + UInt32.ofNat bytesWritten.toNat }
          ((v, text "F" ++ hexadecimal bytesWritten.toNat), buf)

/-- A subcommand whose argument is a path: what it calls, and how it answers. -/
def onPath (error : Nat → Bytes) (outSize : Nat) (call : Bytes → XfsCall)
    (answer : XfsReply → Bytes) (engine : XfsEngine σ) (v : Vfile σ) (args : Bytes) :
    Option (Answer σ) :=
  let (v, mounted) := v.ensureMounted engine
  if mounted = false then some (v, error 5)
  else (hexDecodeString args outSize).map fun
    | none => (v, error 22)
    | some path =>
        let (v, reply) := v.call engine (call path)
        (v, answer reply)

/-- What a call without any other result is answered with. -/
def okOr (error : Nat → Bytes) (ok : Bytes) (reply : XfsReply) : Bytes :=
  if reply.result = 0 then ok else error (xfsErrnoToGdbErrno reply.result)

/-- `handle_vfile_size` -/
def handleVfileSize (engine : XfsEngine σ) (v : Vfile σ) (args : Bytes) : Option (Answer σ) :=
  onPath fileError 256 .stat
    (fun reply => okOr fileError (text "F" ++ hexadecimal reply.info.size.toNat) reply)
    engine v args

/-- `handle_vfile_exists` -/
def handleVfileExists (engine : XfsEngine σ) (v : Vfile σ) (args : Bytes) : Option (Answer σ) :=
  onPath fileError 256 .stat
    (fun reply => if reply.result = -2 then text "F,0" else okOr fileError (text "F,1") reply)
    engine v args

/-- `handle_vfile_unlink` -/
def handleVfileUnlink (engine : XfsEngine σ) (v : Vfile σ) (args : Bytes) : Option (Answer σ) :=
  onPath fileError 256 .unlink (okOr fileError (text "F0")) engine v args

/-! ### vSpectranext -/

/-- `handle_vspectranext_reboot`, which has sent its response itself. -/
def handleVspectranextReboot (v : Vfile σ) : Vfile σ :=
  (v.log (.message (text "OK"))).log .scheduleReset

/-- `handle_vspectranext_autoboot` -/
def handleVspectranextAutoboot (v : Vfile σ) : Answer σ :=
  (v.log .scheduleAutoboot, text "OK")

/-- The text of `status`. -/
def statusText (stats : XfsStats) : Bytes :=
  text "OK;version=1;fs.total_known=" ++ decimal stats.totalKnown.toNat ++
  text ";fs.used_known=" ++ decimal stats.usedKnown.toNat ++
  text ";fs.free_known=" ++ decimal stats.freeKnown.toNat ++
  text ";fs.total=" ++ decimal stats.totalBytes.toNat ++
  text ";fs.used=" ++ decimal stats.usedBytes.toNat ++
  text ";fs.free=" ++ decimal stats.freeBytes.toNat ++
  text ";usb.present=0;usb.mounted=0;usb.total=0;usb.free_known=0;usb.used=0;usb.free=0"

/-- `handle_vspectranext_status` -/
def handleVspectranextStatus (engine : XfsEngine σ) (v : Vfile σ) (buf : Bytes) :
    Option (Answer σ × Bytes) :=
  let (v, mounted) := v.ensureMounted engine
  if mounted = false then some ((v, text "E5"), buf)
  else
    let (v, reply) := v.call engine .stats
    if reply.result ≠ 0 ∧ reply.result ≠ -61 then
      some ((v, spectranextError (xfsErrnoToGdbErrno reply.result)), buf)
    else
      let buf := snprintf (statusText reply.stats) buf
      (stringAt 0 buf).map fun response => ((v, response), buf)

/-- `handle_vspectranext_opendir` -/
def handleVspectranextOpendir (engine : XfsEngine σ) (v : Vfile σ) (args : Bytes) :
    Option (Answer σ) :=
  let (v, mounted) := v.ensureMounted engine
  if mounted = false then some (v, spectranextError 5)
  else
    let v := v.dropHandle engine
    (hexDecodeString args 256).map fun
      | none => (v, spectranextError 22)
      | some path =>
          let (v, reply) := v.call engine (.opendir path)
          if reply.result = 0 then ({ v with handle := .dir }, text "OK")
          else (v, spectranextError (xfsErrnoToGdbErrno reply.result))

/-- The text of an entry. -/
def entryText (info : XfsStatInfo) : Bytes :=
  text "FOK," ++ hexEncodeString (info.name.takeWhile (· ≠ 0)) 512 ++
  text (if info.isDir then ",D," else ",F,") ++ hexadecimal info.size.toNat

/-- `handle_vspectranext_readdir` -/
def handleVspectranextReaddir (engine : XfsEngine σ) (v : Vfile σ) (buf : Bytes) :
    Option (Answer σ × Bytes) :=
  if v.handle ≠ .dir then some ((v, spectranextError 9), buf)
  else
    let (v, reply) := v.call engine .readdir
    if reply.result < 0 then
      some ((v, spectranextError (xfsErrnoToGdbErrno reply.result)), buf)
    else if reply.result = 0 then some ((v, []), buf)
    else
      let buf := snprintf (entryText reply.info) buf
      (stringAt 0 buf).map fun response => ((v, response), buf)

/-- `handle_vspectranext_closedir` -/
def handleVspectranextClosedir (engine : XfsEngine σ) (v : Vfile σ) : Answer σ :=
  if v.handle ≠ .dir then (v, spectranextError 9)
  else
    let (v, result) := v.clearHandle engine
    if result ≠ 0 then (v, spectranextError (xfsErrnoToGdbErrno result)) else (v, text "OK")

/-- `<old-path>,<new-path>`: the comma is looked for as far as `n` goes, and the new path is
read up to its NUL. -/
def mvArgs (args : Bytes) (n : Nat) : Arg (Bytes × Bytes) :=
  Arg.andThen (within (ascii ',') args n) fun (oldPathHex, p) =>
    if 512 ≤ oldPathHex.length then some none
    else (hexDecodeString (oldPathHex ++ [0]) 256).andThen fun oldPath =>
      (hexDecodeString p 256).map (Option.map fun newPath => (oldPath, newPath))

/-- `handle_vspectranext_mv` -/
def handleVspectranextMv (engine : XfsEngine σ) (v : Vfile σ) (args : Bytes) (n : Nat) :
    Option (Answer σ) :=
  let (v, mounted) := v.ensureMounted engine
  if mounted = false then some (v, spectranextError 5)
  else (mvArgs args n).map fun
    | none => (v, spectranextError 22)
    | some (oldPath, newPath) =>
        let (v, reply) := v.call engine (.rename oldPath newPath)
        (v, okOr spectranextError (text "OK") reply)

/-- `handle_vspectranext_mkdir` -/
def handleVspectranextMkdir (engine : XfsEngine σ) (v : Vfile σ) (args : Bytes) :
    Option (Answer σ) :=
  onPath spectranextError 256 .mkdir (okOr spectranextError (text "OK")) engine v args

/-- `handle_vspectranext_rmdir` -/
def handleVspectranextRmdir (engine : XfsEngine σ) (v : Vfile σ) (args : Bytes) :
    Option (Answer σ) :=
  onPath spectranextError 256 .rmdir (okOr spectranextError (text "OK")) engine v args

/-! ### The dispatchers -/

inductive Subcommand : Type
  | open | close | pread | pwrite | size | exists | unlink
  | reboot | autoboot | status | opendir | readdir | closedir | mv | mkdir | rmdir
  deriving DecidableEq

/-- The comparisons of the `File:` branch. -/
def fileSubcommand (subcmd : Bytes) : Option Subcommand :=
  if subcmd = text "open" then some .open
  else if subcmd = text "close" then some .close
  else if subcmd = text "pread" then some .pread
  else if subcmd = text "pwrite" then some .pwrite
  else if subcmd = text "size" then some .size
  else if subcmd = text "exists" then some .exists
  else if subcmd = text "unlink" then some .unlink
  else none

/-- The comparisons of the `Spectranext:` branch. -/
def spectranextSubcommand (subcmd : Bytes) : Option Subcommand :=
  if subcmd = text "reboot" then some .reboot
  else if subcmd = text "autoboot" then some .autoboot
  else if subcmd = text "status" then some .status
  else if subcmd = text "opendir" then some .opendir
  else if subcmd = text "readdir" then some .readdir
  else if subcmd = text "closedir" then some .closedir
  else if subcmd = text "mv" then some .mv
  else if subcmd = text "mkdir" then some .mkdir
  else if subcmd = text "rmdir" then some .rmdir
  else none

/-- What the dispatcher makes of a request: a subcommand with its `actual_args` and
`actual_args_len`. -/
inductive Dispatched : Type
  | tooLong (error : Bytes)
  | unknown
  | run (subcommand : Subcommand) (args : Bytes) (n : Nat)

def Dispatched.of (subcommand : Option Subcommand) (args : Bytes) (n : UInt32) : Dispatched :=
  match subcommand with
  | none => .unknown
  | some subcommand => .run subcommand args n.toNat

/-- `vfile_handle_v` up to the call of the handler. Behind a colon the arguments are a part of
the name; the `File:` branch measures them, the `Spectranext:` branch takes their place in the
name from the length of what lies behind the semicolon. -/
def dispatch (name args : Bytes) (n : UInt32) : Option Dispatched :=
  if (text "File:").isPrefixOf name then
    (charAt 0 (ascii ':') (name.drop 5)).bind fun
      | some (subcmd, actualArgs) =>
          if 64 ≤ subcmd.length then some (.tooLong (fileError 22))
          else (stringAt 0 actualArgs).map fun s =>
            .of (fileSubcommand subcmd) actualArgs (UInt32.ofNat s.length)
      | none => (stringAt 0 (name.drop 5)).map fun subcmd => .of (fileSubcommand subcmd) args n
  else if (text "Spectranext:").isPrefixOf name then
    (charAt 0 (ascii ':') (name.drop 12)).bind fun
      | some (subcmd, actualArgs) =>
          if 64 ≤ subcmd.length then some (.tooLong (spectranextError 22))
          else some (.of (spectranextSubcommand subcmd) actualArgs
            (n - UInt32.ofNat (12 + subcmd.length + 1)))
      | none =>
          (stringAt 0 (name.drop 12)).map fun subcmd => .of (spectranextSubcommand subcmd) args n
  else some .unknown

/-- A handler that leaves the response buffer alone. -/
def besides (buf : Bytes) (answer : Answer σ) : (Vfile σ × Option Bytes) × Bytes :=
  ((answer.1, some answer.2), buf)

/-- The handler of a subcommand. -/
def runSubcommand (engine : XfsEngine σ) (v : Vfile σ) (buf args : Bytes) (n : Nat) :
    Subcommand → Option ((Vfile σ × Option Bytes) × Bytes)
  | .open => (handleVfileOpen engine v args n).map (besides buf)
  | .close => (handleVfileClose engine v args n).map (besides buf)
  | .pread => (handleVfilePread engine v buf args n).map fun (answer, buf) => besides buf answer
  | .pwrite => (handleVfilePwrite engine v buf args n).map fun (answer, buf) => besides buf answer
  | .size => (handleVfileSize engine v args).map (besides buf)
  | .exists => (handleVfileExists engine v args).map (besides buf)
  | .unlink => (handleVfileUnlink engine v args).map (besides buf)
  | .reboot => some ((handleVspectranextReboot v, none), buf)
  | .autoboot => some (besides buf (handleVspectranextAutoboot v))
  | .status => (handleVspectranextStatus engine v buf).map fun (answer, buf) => besides buf answer
  | .opendir => (handleVspectranextOpendir engine v args).map (besides buf)
  | .readdir =>
      (handleVspectranextReaddir engine v buf).map fun (answer, buf) => besides buf answer
  | .closedir => some (besides buf (handleVspectranextClosedir engine v))
  | .mv => (handleVspectranextMv engine v args n).map (besides buf)
  | .mkdir => (handleVspectranextMkdir engine v args).map (besides buf)
  | .rmdir => (handleVspectranextRmdir engine v args).map (besides buf)

/-- `vfile_handle_v` from the call of the handler on. -/
def runDispatched (engine : XfsEngine σ) (v : Vfile σ) (buf : Bytes) :
    Dispatched → Option ((Vfile σ × Option Bytes) × Bytes)
  | .tooLong error => some (besides buf (v, error))
  | .unknown => some (besides buf (v, []))
  | .run subcommand args n => runSubcommand engine v buf args n subcommand

/-- The cut of `process_vpacket` at the semicolon, and the dispatcher. -/
def dispatchVpacket (payload : Bytes) : Option Dispatched :=
  (charAt 0 (ascii ';') payload).bind fun
    | some (name, args) => (stringAt 0 args).bind fun s =>
        dispatch (name ++ 0 :: args) args (UInt32.ofNat s.length)
    | none => dispatch payload [0] 0

/-- `process_vpacket` for a packet of these two kinds: the state and the response buffer
afterwards. -/
def processVpacket (engine : XfsEngine σ) (v : Vfile σ) (buf payload : Bytes) :
    Option (Vfile σ × Bytes) :=
  (dispatchVpacket payload).bind fun dispatched =>
    (runDispatched engine v buf dispatched).map fun
      | ((v, some response), buf) => (v.log (.message response), buf)
      | ((v, none), buf) => (v, buf)

end FuseX.Gdb
