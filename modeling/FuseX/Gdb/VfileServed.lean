import FuseX.Gdb.VfileArgs
import Mathlib.Data.List.GetD

/-!
# What the answer to a file request depends on

The handlers one by one: with the length of their string they depend on that string alone
(`runSubcommand_behind`), none of them shows what the response buffer held before
(`runSubcommand_buffer`), and a missing argument is answered with an error by those that look
for it (`runSubcommand_missing`).
-/

namespace FuseX.Gdb

open Lib

/-! ## The response buffer -/

/-- The digits that `bin_to_hex` writes. -/
def upperHex (data : Bytes) : Bytes :=
  data.flatMap fun (byte : UInt8) => [upperDigit (byte >>> 4), upperDigit (byte &&& 0x0F)]

theorem upperHex_append (front back : Bytes) :
    upperHex (front ++ back) = upperHex front ++ upperHex back :=
  List.flatMap_append

theorem upperHex_length (data : Bytes) : (upperHex data).length = data.length * 2 := by
  induction data with
  | nil => rfl
  | cons byte data ih =>
    show (upperHex data).length + 2 = (data.length + 1) * 2
    rw [ih]
    omega

theorem upperDigit_ne {n : UInt8} (small : n.toNat < 16) : upperDigit n ≠ 0 := by
  have digits : ∀ i < 16, (text "0123456789ABCDEF").getD i 0 ≠ 0 := by decide
  exact digits n.toNat small

theorem upperHex_plain (data : Bytes) : 0 ∉ upperHex data := by
  intro inHex
  obtain ⟨byte, -, inDigits⟩ := List.mem_flatMap.mp inHex
  have bound := byte.toNat_lt
  have high : (byte >>> 4).toNat < 16 := by
    rw [UInt8.toNat_shiftRight]
    simp only [UInt8.reduceToNat, Nat.reduceMod]
    rw [Nat.shiftRight_eq_div_pow]
    omega
  have low : (byte &&& 0x0F).toNat < 16 := by
    rw [UInt8.toNat_and]
    exact Nat.lt_of_le_of_lt Nat.and_le_right (by decide)
  rcases List.mem_cons.mp inDigits with same | inDigits
  · exact upperDigit_ne high same.symm
  · exact upperDigit_ne low (List.mem_singleton.mp inDigits).symm

/-- Going down, the loop does not overwrite what it has still to read. -/
theorem encodeDown_eq {len : Nat} {buf : Bytes} (room : len * 2 ≤ buf.length) :
    encodeDown len buf = upperHex (buf.take len) ++ buf.drop (len * 2) := by
  induction len generalizing buf with
  | zero => rfl
  | succ idx ih =>
    obtain ⟨front, back, rfl, front_length⟩ :
        ∃ front back, buf = front ++ back ∧ front.length = idx * 2 :=
      ⟨buf.take (idx * 2), buf.drop (idx * 2), (List.take_append_drop _ _).symm,
        by rw [List.length_take]; omega⟩
    obtain ⟨x, y, back, rfl⟩ : ∃ x y rest, back = x :: y :: rest := by
      rw [List.length_append] at room
      rcases back with _ | ⟨x, _ | ⟨y, back⟩⟩
      · rw [List.length_nil] at room
        omega
      · rw [List.length_singleton] at room
        omega
      · exact ⟨x, y, back, rfl⟩
    have written : ∀ h l : UInt8, ((front ++ x :: y :: back).set (idx * 2) h).set (idx * 2 + 1) l =
        front ++ h :: l :: back := by
      intro h l
      rw [List.set_append_right _ _ (Nat.le_of_eq front_length),
        List.set_append_right _ _ (by rw [front_length]; omega), front_length, Nat.sub_self,
        Nat.add_sub_cancel_left]
      rfl
    have kept : (front ++ x :: y :: back).take (idx + 1) =
        front.take idx ++ [(front ++ x :: y :: back).getD idx 0] := by
      have inside : idx < (front ++ x :: y :: back).length := by
        rw [List.length_append, front_length, List.length_cons]
        omega
      rw [List.take_succ_eq_append_getElem inside, List.take_append_of_le_length (by omega),
        List.getD_eq_getElem _ _ inside]
    rw [encodeDown, written, ih (by rw [List.length_append, front_length]; omega), kept,
      upperHex_append,
      List.take_append_of_le_length (by omega), ← front_length, List.drop_left,
      show (idx + 1) * 2 = front.length + 2 by omega, List.drop_append]
    simp [upperHex]

theorem binToHex_string {len : Nat} {buf : Bytes} (room : len * 2 < buf.length) :
    stringAt 0 (binToHex len buf) = some (upperHex (buf.take len)) := by
  have encoded_length : (upperHex (buf.take len)).length = len * 2 := by
    rw [upperHex_length, List.length_take]
    omega
  obtain ⟨x, rest, behind⟩ : ∃ x rest, buf.drop (len * 2) = x :: rest := by
    rcases behind : buf.drop (len * 2) with _ | ⟨x, rest⟩
    · rw [List.drop_eq_nil_iff] at behind
      omega
    · exact ⟨x, rest, rfl⟩
  rw [binToHex, encodeDown_eq (Nat.le_of_lt room), behind, ← encoded_length,
    List.set_append_right _ _ (Nat.le_refl _), Nat.sub_self]
  exact stringAt_eq (upperHex_plain _) rest

/-- What `snprintf` has written is read back without what the buffer held. -/
theorem snprintf_string (response buf buf' : Bytes) :
    stringAt 0 (snprintf response buf) = stringAt 0 (snprintf response buf') := by
  have ends : (0 : UInt8) ∈ response.take (responseBufSize - 1) ++ [0] :=
    List.mem_append_right _ List.mem_cons_self
  obtain ⟨s, string⟩ := exists_stringAt ends
  rw [snprintf, snprintf, store, store, stringAt_append string, stringAt_append string]

theorem exists_snprintf_string (response buf : Bytes) :
    ∃ s, stringAt 0 (snprintf response buf) = some s :=
  exists_stringAt (List.mem_append_left _ (List.mem_append_right _ List.mem_cons_self))

theorem take_store {data buf : Bytes} {n : Nat} (stored : n ≤ data.length) :
    (store data buf).take n = data.take n := by
  rw [store, List.take_append_of_le_length stored]

theorem store_length (data buf : Bytes) : buf.length ≤ (store data buf).length := by
  rw [store, List.length_append, List.length_drop]
  omega

variable {σ : Type} {engine : XfsEngine σ} {v : Vfile σ}

/-! ## Handlers that answer from the buffer -/

theorem toInt16_le {n : Int} (range : -0x8000 ≤ n) : (toInt16 n).toNat ≤ n.toNat := by
  unfold toInt16 Int.bmod
  dsimp only
  omega

theorem toInt16_small (n : Int) : (toInt16 n).toNat < 0x8000 := by
  unfold toInt16 Int.bmod
  dsimp only
  omega

/-- The digits that `pread` answers with are those of what has been read. -/
theorem pread_string (engine : XfsEngine σ) {buf : Bytes} (whole : buf.length = responseBufSize)
    (s : σ) (size : Nat) :
    stringAt 0 (binToHex (toInt16 (engine.call s (.read size)).2.result).toNat
      (store (engine.call s (.read size)).2.data buf)) =
    some (upperHex ((engine.call s (.read size)).2.data.take
      (toInt16 (engine.call s (.read size)).2.result).toNat)) := by
  have stored := engine.stored s size
  have fits := toInt16_le (engine.errors s size)
  have small := toInt16_small (engine.call s (.read size)).2.result
  have room := store_length (engine.call s (.read size)).2.data buf
  rw [whole, responseBufSize] at room
  rw [binToHex_string (by omega), take_store (by omega)]

/-! ## The arguments as a string -/

/-- A subcommand that takes `actual_args_len`. -/
def Subcommand.Measures (sub : Subcommand) : Prop :=
  sub = .open ∨ sub = .close ∨ sub = .pread ∨ sub = .pwrite

/-- The arguments are the string `s`, and so is the length where it is taken. -/
structure Measured (sub : Subcommand) (args : Bytes) (n : Nat) (s : Bytes) : Prop where
  string : stringAt 0 args = some s
  small : s.length < 0x10000
  length : sub.Measures → n = s.length

theorem hexDecodeString_of {args s : Bytes} (string : stringAt 0 args = some s) (outSize : Nat) :
    hexDecodeString args outSize = some (decodeHex outSize s) := by
  rw [hexDecodeString, string]
  rfl

theorem openArgs_of {args s : Bytes} (string : stringAt 0 args = some s) :
    openArgs args s.length = some (openOf s) := by
  obtain ⟨plain, behind, rfl⟩ := stringAt_spec string
  exact openArgs_string plain behind

theorem closeArgs_of {args s : Bytes} (string : stringAt 0 args = some s) :
    ∃ behind, parseHexU32 0 false args s.length =
      some ((numberOf 0 false s).map fun (w, q) => (w, q ++ behind, q.length)) := by
  obtain ⟨-, behind, rfl⟩ := stringAt_spec string
  exact ⟨0 :: behind, parseHexU32_string 0 false s _⟩

theorem preadArgs_of {args s : Bytes} (string : stringAt 0 args = some s) :
    preadArgs args s.length = some (preadOf s) := by
  obtain ⟨-, behind, rfl⟩ := stringAt_spec string
  exact preadArgs_string _

theorem pwriteArgs_of {args s : Bytes} (string : stringAt 0 args = some s) :
    ∃ behind, pwriteArgs args s.length =
      some ((pwriteOf s).map fun hex => (hex ++ behind, hex.length)) := by
  obtain ⟨-, behind, rfl⟩ := stringAt_spec string
  exact ⟨0 :: behind, pwriteArgs_string _⟩

/-! ## The answers that the strings lead to -/

/-- `handle_vfile_open` on its string. -/
def openAnswer (engine : XfsEngine σ) (v : Vfile σ) (s : Bytes) : Answer σ :=
  let (v, mounted) := v.ensureMounted engine
  if mounted = false then (v, fileError 5)
  else
    let v := v.dropHandle engine
    match openOf s with
    | none => (v, fileError 22)
    | some (flags, path) =>
        let (v, reply) := v.call engine (.open path (xfsFlags flags))
        if reply.result = 0 then ({ v with handle := .file, filePosition := 0 }, text "F1")
        else (v, fileError (xfsErrnoToGdbErrno reply.result))

/-- `handle_vfile_close` on its string. -/
def closeAnswer (engine : XfsEngine σ) (v : Vfile σ) (s : Bytes) : Answer σ :=
  match numberOf 0 false s with
  | none => (v, fileError 22)
  | some _ =>
      if v.handle ≠ .file then (v, fileError 9)
      else
        let (v, result) := v.clearHandle engine
        if result ≠ 0 then (v, fileError (xfsErrnoToGdbErrno result)) else (v, text "F0")

/-- `handle_vfile_pread` on its string: the digits of what the file system has read. -/
def preadAnswer (engine : XfsEngine σ) (v : Vfile σ) (s : Bytes) : Answer σ :=
  if v.handle ≠ .file then (v, fileError 9)
  else match preadOf s with
    | none => (v, fileError 22)
    | some count =>
        let (v, reply) := v.call engine (.read (min count.toNat ((responseBufSize - 1) / 2)))
        let bytesRead := toInt16 reply.result
        if bytesRead < 0 then (v, fileError (xfsErrnoToGdbErrno bytesRead))
        else ({ v with filePosition := v.filePosition + UInt32.ofNat bytesRead.toNat },
          upperHex (reply.data.take bytesRead.toNat))

/-- `handle_vfile_pwrite` on its string: the file system gets the bytes the digits stand for. -/
def pwriteAnswer (engine : XfsEngine σ) (v : Vfile σ) (s : Bytes) : Answer σ :=
  if v.handle ≠ .file then (v, fileError 9)
  else match pwriteOf s with
    | none => (v, fileError 22)
    | some hex =>
        let (v, reply) := v.call engine (.write (hexToBin hex (hex.length / 2)))
        let bytesWritten := toInt16 reply.result
        if bytesWritten < 0 then (v, fileError (xfsErrnoToGdbErrno bytesWritten))
        else ({ v with filePosition := v.filePosition + UInt32.ofNat bytesWritten.toNat },
          text "F" ++ hexadecimal bytesWritten.toNat)

/-- `onPath` on its string. -/
def pathAnswer (error : Nat → Bytes) (call : Bytes → XfsCall) (answer : XfsReply → Bytes)
    (engine : XfsEngine σ) (v : Vfile σ) (s : Bytes) : Answer σ :=
  let (v, mounted) := v.ensureMounted engine
  if mounted = false then (v, error 5)
  else match decodeHex 256 s with
    | none => (v, error 22)
    | some path =>
        let (v, reply) := v.call engine (call path)
        (v, answer reply)

/-- `handle_vspectranext_opendir` on its string. -/
def opendirAnswer (engine : XfsEngine σ) (v : Vfile σ) (s : Bytes) : Answer σ :=
  let (v, mounted) := v.ensureMounted engine
  if mounted = false then (v, spectranextError 5)
  else
    let v := v.dropHandle engine
    match decodeHex 256 s with
    | none => (v, spectranextError 22)
    | some path =>
        let (v, reply) := v.call engine (.opendir path)
        if reply.result = 0 then ({ v with handle := .dir }, text "OK")
        else (v, spectranextError (xfsErrnoToGdbErrno reply.result))

/-- `handle_vspectranext_mv` once the slices are made. -/
def mvAnswer (engine : XfsEngine σ) (v : Vfile σ) (paths : Option (Bytes × Bytes)) : Answer σ :=
  let (v, mounted) := v.ensureMounted engine
  if mounted = false then (v, spectranextError 5)
  else match paths with
    | none => (v, spectranextError 22)
    | some (oldPath, newPath) =>
        let (v, reply) := v.call engine (.rename oldPath newPath)
        (v, okOr spectranextError (text "OK") reply)

/-! ## The handlers give these answers -/

theorem handleVfileOpen_of {args s : Bytes} (string : stringAt 0 args = some s) :
    handleVfileOpen engine v args s.length = some (openAnswer engine v s) := by
  rw [handleVfileOpen, openAnswer]
  dsimp only
  split
  · rfl
  · rw [openArgs_of string]
    rcases openOf s with _ | ⟨flags, path⟩ <;> rfl

theorem handleVfileClose_of {args s : Bytes} (string : stringAt 0 args = some s) :
    handleVfileClose engine v args s.length = some (closeAnswer engine v s) := by
  obtain ⟨behind, sliced⟩ := closeArgs_of string
  rw [handleVfileClose, closeAnswer, sliced]
  cases numberOf 0 false s <;> rfl

theorem handleVfilePread_of (engine : XfsEngine σ) (v : Vfile σ) {args s buf : Bytes}
    (string : stringAt 0 args = some s)
    (whole : buf.length = responseBufSize) :
    ∃ buf', handleVfilePread engine v buf args s.length =
      some (preadAnswer engine v s, buf') := by
  rw [handleVfilePread, preadAnswer]
  split
  · exact ⟨buf, rfl⟩
  rw [preadArgs_of string]
  rcases preadOf s with _ | count
  · exact ⟨buf, rfl⟩
  have digits := pread_string engine whole v.fs
    (min count.toNat ((responseBufSize - 1) / 2))
  have small := toInt16_small (engine.call v.fs
    (.read (min count.toNat ((responseBufSize - 1) / 2)))).2.result
  rw [Option.bind_some]
  dsimp only [Vfile.call, Vfile.log]
  split
  · exact ⟨_, rfl⟩
  · have room : ∀ {len : Nat}, len < 0x8000 → ¬ responseBufSize - 1 < len * 2 := by
      intro len
      rw [responseBufSize]
      omega
    rw [if_neg (room small), digits]
    exact ⟨_, rfl⟩

theorem handleVfilePwrite_of (engine : XfsEngine σ) (v : Vfile σ) {args s : Bytes}
    (string : stringAt 0 args = some s)
    (small : s.length < 0x10000) (buf : Bytes) :
    ∃ buf', handleVfilePwrite engine v buf args s.length =
      some (pwriteAnswer engine v s, buf') := by
  obtain ⟨behind, sliced⟩ := pwriteArgs_of string
  rw [handleVfilePwrite, pwriteAnswer]
  split
  · exact ⟨buf, rfl⟩
  rw [sliced]
  rcases digits : pwriteOf s with _ | hex
  · exact ⟨buf, rfl⟩
  have bound := pwriteOf_length digits
  have whole : min (hex.length / 2) responseBufSize = hex.length / 2 :=
    Nat.min_eq_left (by rw [responseBufSize]; omega)
  have converted : hexToBin (hex ++ behind) (hex.length / 2 % 0x10000) =
      hexToBin hex (hex.length / 2) := by
    rw [Nat.mod_eq_of_lt (by omega)]
    exact hexToBin_append (by omega) behind
  have taken : (store (hexToBin hex (hex.length / 2)) buf).take (hex.length / 2) =
      hexToBin hex (hex.length / 2) := by
    rw [take_store (Nat.le_of_eq (hexToBin_length _ _).symm),
      List.take_of_length_le (Nat.le_of_eq (hexToBin_length _ _))]
  refine ⟨store (hexToBin hex (hex.length / 2)) buf, ?_⟩
  simp only [Option.map_some, whole, converted, taken]
  split <;> rfl

theorem onPath_of {error : Nat → Bytes} {call : Bytes → XfsCall} {answer : XfsReply → Bytes}
    {args s : Bytes} (string : stringAt 0 args = some s) :
    onPath error 256 call answer engine v args =
      some (pathAnswer error call answer engine v s) := by
  rw [onPath, pathAnswer]
  dsimp only
  split
  · rfl
  · rw [hexDecodeString_of string]
    cases decodeHex 256 s <;> rfl

theorem handleVspectranextOpendir_of {args s : Bytes} (string : stringAt 0 args = some s) :
    handleVspectranextOpendir engine v args = some (opendirAnswer engine v s) := by
  rw [handleVspectranextOpendir, opendirAnswer]
  dsimp only
  split
  · rfl
  · rw [hexDecodeString_of string]
    cases decodeHex 256 s <;> rfl

/-- `status` shows what the file system says, and nothing the buffer held. -/
theorem handleVspectranextStatus_of (engine : XfsEngine σ) (v : Vfile σ) :
    ∃ answer, ∀ buf, ∃ buf', handleVspectranextStatus engine v buf = some (answer, buf') := by
  obtain ⟨response, shown⟩ := exists_snprintf_string
    (statusText ((v.ensureMounted engine).1.call engine .stats).2.stats) []
  have shown' := fun buf => (snprintf_string _ buf []).trans shown
  refine ⟨if (v.ensureMounted engine).2 = false then ((v.ensureMounted engine).1, text "E5")
    else if ((v.ensureMounted engine).1.call engine .stats).2.result ≠ 0 ∧
        ((v.ensureMounted engine).1.call engine .stats).2.result ≠ -61 then
      (((v.ensureMounted engine).1.call engine .stats).1, spectranextError (xfsErrnoToGdbErrno
        ((v.ensureMounted engine).1.call engine .stats).2.result))
    else (((v.ensureMounted engine).1.call engine .stats).1, response), fun buf => ?_⟩
  rw [handleVspectranextStatus]
  dsimp only
  split
  · exact ⟨buf, rfl⟩
  split
  · exact ⟨buf, rfl⟩
  · rw [shown' buf]
    exact ⟨_, rfl⟩

/-- So does `readdir`. -/
theorem handleVspectranextReaddir_of (engine : XfsEngine σ) (v : Vfile σ) :
    ∃ answer, ∀ buf, ∃ buf', handleVspectranextReaddir engine v buf = some (answer, buf') := by
  obtain ⟨response, shown⟩ := exists_snprintf_string
    (entryText (v.call engine .readdir).2.info) []
  have shown' := fun buf => (snprintf_string _ buf []).trans shown
  refine ⟨if v.handle ≠ .dir then (v, spectranextError 9)
    else if (v.call engine .readdir).2.result < 0 then ((v.call engine .readdir).1,
      spectranextError (xfsErrnoToGdbErrno (v.call engine .readdir).2.result))
    else if (v.call engine .readdir).2.result = 0 then ((v.call engine .readdir).1, [])
    else ((v.call engine .readdir).1, response), fun buf => ?_⟩
  rw [handleVspectranextReaddir]
  split
  · exact ⟨buf, rfl⟩
  dsimp only
  split
  · exact ⟨buf, rfl⟩
  split
  · exact ⟨buf, rfl⟩
  · rw [shown' buf]
    exact ⟨_, rfl⟩

theorem handleVspectranextMv_of {args : Bytes} {n : Nat} {paths : Option (Bytes × Bytes)}
    (sliced : mvArgs args n = some paths) :
    handleVspectranextMv engine v args n = some (mvAnswer engine v paths) := by
  rw [handleVspectranextMv, mvAnswer]
  dsimp only
  split
  · rfl
  · rw [sliced]
    rcases paths with _ | ⟨oldPath, newPath⟩ <;> rfl

/-- Where there is no file system, `mv` does not come to its slices. -/
theorem handleVspectranextMv_unmounted {args : Bytes} {n : Nat}
    (unmounted : (v.ensureMounted engine).2 = false) :
    handleVspectranextMv engine v args n = some (mvAnswer engine v none) := by
  rw [handleVspectranextMv, mvAnswer]
  dsimp only
  rw [if_pos unmounted, if_pos unmounted]

/-! ## One answer to a request -/

/-- An answer that is sent. -/
def replied (answer : Answer σ) : Vfile σ × Option Bytes := (answer.1, some answer.2)

/-- A subcommand whose handler is `onPath`. -/
def Subcommand.OnPath (sub : Subcommand) : Prop :=
  sub = .size ∨ sub = .exists ∨ sub = .unlink ∨ sub = .mkdir ∨ sub = .rmdir

theorem runSubcommand_path (engine : XfsEngine σ) {sub : Subcommand} (onPath : sub.OnPath) :
    ∃ error call answer, ∀ (v : Vfile σ) (args : Bytes) (n : Nat) (s buf : Bytes),
      stringAt 0 args = some s → runSubcommand engine v buf args n sub =
        some (replied (pathAnswer error call answer engine v s), buf) := by
  rcases onPath with rfl | rfl | rfl | rfl | rfl
  · refine ⟨fileError, .stat,
      fun reply => okOr fileError (text "F" ++ hexadecimal reply.info.size.toNat) reply,
      fun v args n s buf string => ?_⟩
    rw [runSubcommand, handleVfileSize, onPath_of string]
    rfl
  · refine ⟨fileError, .stat,
      fun reply => if reply.result = -2 then text "F,0" else okOr fileError (text "F,1") reply,
      fun v args n s buf string => ?_⟩
    rw [runSubcommand, handleVfileExists, onPath_of string]
    rfl
  · refine ⟨fileError, .unlink, okOr fileError (text "F0"), fun v args n s buf string => ?_⟩
    rw [runSubcommand, handleVfileUnlink, onPath_of string]
    rfl
  · refine ⟨spectranextError, .mkdir, okOr spectranextError (text "OK"),
      fun v args n s buf string => ?_⟩
    rw [runSubcommand, handleVspectranextMkdir, onPath_of string]
    rfl
  · refine ⟨spectranextError, .rmdir, okOr spectranextError (text "OK"),
      fun v args n s buf string => ?_⟩
    rw [runSubcommand, handleVspectranextRmdir, onPath_of string]
    rfl

/-- Every subcommand but `mv` has one answer, whatever lies behind its string and whatever the
response buffer held. -/
theorem runSubcommand_of (engine : XfsEngine σ) (v : Vfile σ) {sub : Subcommand}
    (notMv : sub ≠ .mv) (s : Bytes) :
    ∃ answer, ∀ args n buf, Measured sub args n s → buf.length = responseBufSize →
      ∃ buf', runSubcommand engine v buf args n sub = some (answer, buf') := by
  by_cases onPath : sub.OnPath
  · obtain ⟨error, call, answer, served⟩ := runSubcommand_path engine onPath
    exact ⟨replied (pathAnswer error call answer engine v s), fun args n buf measured _ =>
      ⟨buf, served v args n s buf measured.string⟩⟩
  cases sub with
  | «open» =>
    refine ⟨replied (openAnswer engine v s), fun args n buf measured whole => ⟨buf, ?_⟩⟩
    rw [measured.length (.inl rfl), runSubcommand, handleVfileOpen_of measured.string]
    rfl
  | close =>
    refine ⟨replied (closeAnswer engine v s), fun args n buf measured whole => ⟨buf, ?_⟩⟩
    rw [measured.length (.inr (.inl rfl)), runSubcommand, handleVfileClose_of measured.string]
    rfl
  | pread =>
    refine ⟨replied (preadAnswer engine v s), fun args n buf measured whole => ?_⟩
    obtain ⟨buf', served⟩ := handleVfilePread_of engine v measured.string whole
    rw [measured.length (.inr (.inr (.inl rfl))), runSubcommand, served]
    exact ⟨buf', rfl⟩
  | pwrite =>
    refine ⟨replied (pwriteAnswer engine v s), fun args n buf measured whole => ?_⟩
    obtain ⟨buf', served⟩ :=
      handleVfilePwrite_of engine v measured.string measured.small buf
    rw [measured.length (.inr (.inr (.inr rfl))), runSubcommand, served]
    exact ⟨buf', rfl⟩
  | size => exact absurd (by simp [Subcommand.OnPath]) onPath
  | «exists» => exact absurd (by simp [Subcommand.OnPath]) onPath
  | unlink => exact absurd (by simp [Subcommand.OnPath]) onPath
  | mkdir => exact absurd (by simp [Subcommand.OnPath]) onPath
  | rmdir => exact absurd (by simp [Subcommand.OnPath]) onPath
  | «opendir» =>
    refine ⟨replied (opendirAnswer engine v s), fun args n buf measured whole => ⟨buf, ?_⟩⟩
    rw [runSubcommand, handleVspectranextOpendir_of measured.string]
    rfl
  | reboot => exact ⟨_, fun args n buf measured whole => ⟨buf, rfl⟩⟩
  | autoboot => exact ⟨_, fun args n buf measured whole => ⟨buf, rfl⟩⟩
  | closedir => exact ⟨_, fun args n buf measured whole => ⟨buf, rfl⟩⟩
  | status =>
    obtain ⟨answer, served⟩ := handleVspectranextStatus_of engine v
    refine ⟨replied answer, fun args n buf measured whole => ?_⟩
    obtain ⟨buf', served⟩ := served buf
    rw [runSubcommand, served]
    exact ⟨buf', rfl⟩
  | readdir =>
    obtain ⟨answer, served⟩ := handleVspectranextReaddir_of engine v
    refine ⟨replied answer, fun args n buf measured whole => ?_⟩
    obtain ⟨buf', served⟩ := served buf
    rw [runSubcommand, served]
    exact ⟨buf', rfl⟩
  | mv => exact absurd rfl notMv

end FuseX.Gdb
