import FuseX.Nic.FileRead
import FuseX.Xfs.TransferBounds

/-!
# Where file reads of the controller go

A read of a file gives a slice of it and moves on behind it; the loop puts slice behind slice in
the file and in memory. The check of the destination leaves the loop room for all it may copy.
-/

namespace FuseX.Nic.FileRead

open Lib Xfs
open Xfs.Transfer (HostFile Answer ReadResult fsRead errorCode bytesAt)

/-! ## Slices -/

theorem bytesAt_append (content : List UInt8) (position first rest : Nat) :
    bytesAt content position first ++ bytesAt content (position + first) rest =
      bytesAt content position (first + rest) := by
  rw [bytesAt, bytesAt, bytesAt, ← List.drop_drop, List.take_add]

/-- A slice is the slice of its own length. -/
theorem bytesAt_self (content : List UInt8) (position size : Nat) :
    bytesAt content position size =
      bytesAt content position (bytesAt content position size).length := by
  rw [Transfer.bytesAt_length, bytesAt, bytesAt, ← List.length_drop]
  by_cases enough : size ≤ (content.drop position).length
  · rw [Nat.min_eq_left enough]
  · rw [Nat.min_eq_right (by omega), List.take_length, List.take_of_length_le (by omega)]

/-! ## Files -/

def OverlayFile.position : OverlayFile → Nat
  | .ram file => file.position
  | .romfs _ file => file.offset.toNat

/-- A ROM file is read within its size. -/
def OverlayFile.Sound : OverlayFile → Prop
  | .ram _ => True
  | .romfs _ file => file.Sound

/-- A read fails, or gives the slice at the position and moves behind it. -/
inductive ReadEffect (size : Nat) (file : OverlayFile) : ReadResult OverlayFile → Prop
  | refused {count : Int32} {after : OverlayFile} (negative : count < 0) :
    ReadEffect size file { count, file := after }
  | moved {count : Int32} {data : List UInt8} {after : OverlayFile}
      (nonneg : ¬ count < 0) (number : count.toUInt32.toNat = data.length)
      (fits : data.length ≤ size)
      (slice : data = bytesAt file.content file.position data.length)
      (same : after.content = file.content)
      (moves : after.position = file.position + data.length) (sound : after.Sound) :
    ReadEffect size file { count, data, file := after }

namespace ReadEffect

variable {size : Nat} {file : OverlayFile} {r : ReadResult OverlayFile}

theorem failed (effect : ReadEffect size file r) (negative : r.count < 0) : r.data = [] := by
  cases effect with
  | refused => rfl
  | moved nonneg => exact absurd negative nonneg

theorem succeeded (effect : ReadEffect size file r) (nonneg : ¬ r.count < 0) :
    r.count.toUInt32 = UInt32.ofNat r.data.length ∧ r.count.toUInt32.toNat = r.data.length ∧
      r.data.length ≤ size ∧ r.data = bytesAt file.content file.position r.data.length ∧
      r.file.content = file.content ∧ r.file.position = file.position + r.data.length ∧
      r.file.Sound := by
  cases effect with
  | refused negative => exact absurd negative nonneg
  | moved _ number fits slice same moves sound =>
    refine ⟨?_, number, fits, slice, same, moves, sound⟩
    rw [← number, UInt32.ofNat_toNat]

end ReadEffect

theorem count_small {n : Nat} (small : n ≤ pageLength) :
    ¬ Int32.ofNat n < 0 ∧ (Int32.ofNat n).toUInt32.toNat = n := by
  have short : n < 2 ^ 31 := by
    rw [pageLength] at small
    omega
  have number : (Int32.ofNat n).toInt = n := Int32.toInt_ofNat_of_lt short
  have nonneg : ¬ Int32.ofNat n < 0 := by
    rw [Int32.lt_iff_toInt_lt, number, Int32.toInt_zero]
    omega
  refine ⟨nonneg, ?_⟩
  have word := RomImage.toUInt32_toNat nonneg
  rw [number] at word
  exact Int.ofNat.inj word

theorem errorCode_negative {err : XfsError} (negative : err.code < 0) : errorCode err < 0 := by
  rw [Int16.lt_iff_toInt_lt] at negative
  rw [errorCode, Int32.lt_iff_toInt_lt, Int16.toInt_toInt32]
  exact negative

theorem fsRead_effect (answer : Answer) (file : HostFile) {size : UInt32}
    (short : size.toNat ≤ pageLength) :
    ReadEffect size.toNat (.ram file) ((fsRead answer file size).map .ram) := by
  rw [fsRead]
  split
  · exact .refused (errorCode_negative (by decide))
  · split
    · rename_i errno _
      exact .refused (errorCode_negative (Transfer.errno_negative errno))
    · have most : (bytesAt file.content file.position (min size.toNat answer.limit)).length ≤
          size.toNat := by
        rw [Transfer.bytesAt_length]
        omega
      obtain ⟨nonneg, number⟩ := count_small (most.trans short)
      exact .moved nonneg number most (bytesAt_self _ _ _) rfl rfl True.intro

theorem romfsRead_effect {image : List UInt8} (fs : RomImage.Ramfs image) {file : RomImage.File}
    (sound : file.Sound) (answer : Answer) {size : UInt32} (short : size.toNat ≤ pageLength) :
    ReadEffect size.toNat (.romfs fs file) ((OverlayFile.romfs fs file).read answer size) := by
  obtain ⟨missing, law⟩ := RomImage.romfsRead_law fs sound size
  rw [OverlayFile.read]
  cases found : RomImage.ramfsFileData fs file.entry with
  | none =>
    rw [missing found]
    exact .refused (errorCode_negative (by decide))
  | some place =>
    obtain ⟨slice, length, count, entry, moves⟩ := law place found
    have most : (RomImage.romfsRead fs file size).data.length ≤ size.toNat := by omega
    obtain ⟨nonneg, number⟩ := count_small (most.trans short)
    rw [← count] at nonneg number
    have content : (OverlayFile.romfs fs file).content =
        bytesAt image place file.entry.size.toNat := by
      rw [OverlayFile.content, found]
    refine .moved nonneg number most ?_ ?_ moves ?_
    · rw [content]
      conv_lhs => rw [slice]
      conv_rhs => rw [slice]
      exact bytesAt_self _ _ _
    · rw [OverlayFile.content, OverlayFile.content, entry]
    · exact RomImage.perform_sound fs (.read size) sound

theorem read_effect (answer : Answer) {file : OverlayFile} (sound : file.Sound) {size : UInt32}
    (short : size.toNat ≤ pageLength) :
    ReadEffect size.toNat file (file.read answer size) := by
  cases file with
  | ram file => exact fsRead_effect answer file short
  | romfs fs file => exact romfsRead_effect fs sound answer short

theorem bytesAt_min {content : List UInt8} {limit : Nat} (short : content.length ≤ limit)
    (position size : Nat) :
    bytesAt content (min position limit) size = bytesAt content position size := by
  by_cases within : position ≤ limit
  · rw [Nat.min_eq_left within]
  · rw [Nat.min_eq_right (by omega), bytesAt, bytesAt, List.drop_of_length_le short,
      List.drop_of_length_le (by omega)]

theorem content_length {image : List UInt8} (fs : RomImage.Ramfs image) (file : RomImage.File) :
    (OverlayFile.romfs fs file).content.length ≤ file.entry.size.toNat := by
  rw [OverlayFile.content]
  split
  · rw [Transfer.bytesAt_length]
    exact Nat.min_le_left _ _
  · exact Nat.zero_le _

/-- A seek that succeeds leads to the bytes from the offset on. -/
theorem lseekSet_effect (answer : Answer) (file : OverlayFile) {offset : UInt32}
    (small : offset.toNat < 2 ^ 31)
    (succeeds : ¬ (file.lseekSet answer offset.toInt32).1 < 0) :
    (file.lseekSet answer offset.toInt32).2.Sound ∧
      ∀ size, bytesAt (file.lseekSet answer offset.toInt32).2.content
          (file.lseekSet answer offset.toInt32).2.position size =
        bytesAt file.content offset.toNat size := by
  cases file with
  | ram file =>
    refine ⟨True.intro, fun size => ?_⟩
    rw [OverlayFile.lseekSet, fsLseekSet] at succeeds ⊢
    cases fails : answer.fails with
    | some errno =>
      rw [fails] at succeeds
      exact absurd (errorCode_negative (Transfer.errno_negative errno)) succeeds
    | none =>
      have number := RomImage.toInt32_toInt small
      have nonneg : ¬ offset.toInt32 < 0 := by
        rw [Int32.lt_iff_toInt_lt, number, Int32.toInt_zero]
        omega
      dsimp only
      rw [if_neg nonneg]
      rfl
  | romfs fs file =>
    have number := RomImage.toInt32_toInt small
    obtain ⟨-, lands⟩ := @RomImage.seekFrom_lands file 0 offset.toInt32 (by decide)
      (by rw [number, Int32.toInt_zero]; omega)
    rw [number, Int32.toInt_zero] at lands
    obtain ⟨-, entry, -, position⟩ := lands (by omega)
    change ¬ (RomImage.seekFrom file 0 offset.toInt32).result < 0 at succeeds
    change (RomImage.seekFrom file 0 offset.toInt32).file.Sound ∧ ∀ size,
      bytesAt (OverlayFile.romfs fs (RomImage.seekFrom file 0 offset.toInt32).file).content
        (RomImage.seekFrom file 0 offset.toInt32).file.offset.toNat size =
      bytesAt (OverlayFile.romfs fs file).content offset.toNat size
    constructor
    · rw [RomImage.File.Sound, UInt32.le_iff_toNat_le, position, entry]
      omega
    · intro size
      have same : (OverlayFile.romfs fs (RomImage.seekFrom file 0 offset.toInt32).file).content =
          (OverlayFile.romfs fs file).content := by
        rw [OverlayFile.content, OverlayFile.content, entry]
      rw [same, position, ← bytesAt_min (content_length fs file) offset.toNat]
      congr 1
      omega

/-! ## Copying -/

/-- Where a chunk is to go. -/
def startPlace (host : Host) (toController : Bool) (page : UInt8) (pageOffset : Nat) : Nat :=
  if toController then host.workspace + pageOffset - workspaceOffset host.channel
  else host.ram + (page.toNat - ramPageFirst.toNat) * pageLength + pageOffset

/-- The rest of a copy ends within the page it starts in, or within the RAM. -/
def HasRoom (toController : Bool) (page : UInt8) (pageOffset remaining : Nat) : Prop :=
  if toController then pageOffset + remaining ≤ pageLength
  else ramPageFirst.toNat ≤ page.toNat ∧
    (page.toNat - ramPageFirst.toNat) * pageLength + pageOffset + remaining ≤ ramLength

/-- A slice of the file has been put into memory, and its length added to the count. -/
def Copies (content : List UInt8) (position place room : Nat) (done after : Progress) : Prop :=
  ∃ copied : List UInt8, copied = bytesAt content position copied.length ∧
    copied.length ≤ room ∧ after.memory = overwrite done.memory place copied ∧
    after.bytesRead = done.bytesRead + UInt32.ofNat copied.length

namespace Copies

variable {content : List UInt8} {position place room : Nat} {done after : Progress}

theorem nothing (memory : after.memory = done.memory) (count : after.bytesRead = done.bytesRead) :
    Copies content position place room done after := by
  refine ⟨[], rfl, Nat.zero_le _, ?_, ?_⟩
  · rw [overwrite_nil, memory]
  · rw [count]
    exact (UInt32.add_zero _).symm

theorem one {data : List UInt8} (slice : data = bytesAt content position data.length)
    (fits : data.length ≤ room) (memory : after.memory = overwrite done.memory place data)
    (count : after.bytesRead = done.bytesRead + UInt32.ofNat data.length) :
    Copies content position place room done after :=
  ⟨data, slice, fits, memory, count⟩

/-- A slice and the slice behind it are one; where nothing is left its place does not matter. -/
theorem trans {middle : Progress} {data : List UInt8} {place' rest : Nat}
    (slice : data = bytesAt content position data.length)
    (memory : middle.memory = overwrite done.memory place data)
    (count : middle.bytesRead = done.bytesRead + UInt32.ofNat data.length)
    (fits : data.length + rest ≤ room) (follows : rest = 0 ∨ place' = place + data.length)
    (last : Copies content (position + data.length) place' rest middle after) :
    Copies content position place room done after := by
  obtain ⟨copied, slice', fits', memory', count'⟩ := last
  refine ⟨data ++ copied, ?_, ?_, ?_, ?_⟩
  · rw [List.length_append, ← bytesAt_append, ← slice, ← slice']
  · rw [List.length_append]
    omega
  · rcases follows with none_ | behind
    · obtain rfl : copied = [] := List.length_eq_zero_iff.mp (by omega)
      rw [memory', overwrite_nil, memory, List.append_nil]
    · rw [memory', memory, behind, overwrite_append]
  · rw [count', count, List.length_append, UInt32.ofNat_add, UInt32.add_assoc]

end Copies

theorem chunkPlace_start {host : Host} {toController : Bool} {page : UInt8}
    {pageOffset place : Nat} (found : chunkPlace host toController page pageOffset = some place) :
    place = startPlace host toController page pageOffset := by
  rw [chunkPlace] at found
  rw [startPlace]
  split at found
  · rename_i controller
    rw [if_pos controller]
    exact (Option.some.inj found).symm
  · rename_i ram
    rw [if_neg ram]
    rw [spectranetRamPage] at found
    split at found
    · cases found
    · exact (Option.some.inj found).symm

theorem chunkSize_cases (remaining pageOffset : Nat) :
    chunkSize remaining pageOffset = remaining ∧ remaining ≤ pageLength - pageOffset ∨
      chunkSize remaining pageOffset = pageLength - pageOffset ∧
        pageLength - pageOffset ≤ remaining := by
  rw [chunkSize]
  split
  · left
    omega
  · right
    omega

theorem chunkSize_word (remaining pageOffset : Nat) :
    chunkSize remaining pageOffset ≤ remaining ∧
      (UInt32.ofNat (chunkSize remaining pageOffset)).toNat = chunkSize remaining pageOffset ∧
      (UInt32.ofNat (chunkSize remaining pageOffset)).toNat ≤ pageLength := by
  have most : chunkSize remaining pageOffset ≤ remaining ∧
      chunkSize remaining pageOffset ≤ pageLength := by
    rcases chunkSize_cases remaining pageOffset with ⟨size, _⟩ | ⟨size, _⟩
    · omega
    · omega
  have small : pageLength < 2 ^ 32 := by decide
  have number := UInt32.toNat_ofNat_of_lt' (most.2.trans_lt small)
  exact ⟨most.1, number, number.le.trans most.2⟩

theorem next_page {index pageOffset remaining : Nat} (positive : 0 < remaining)
    (high : index * 4096 + pageOffset + remaining ≤ 131072) : (index + 1) * 4096 ≤ 131072 := by
  omega

theorem next_page_rest {index pageOffset remaining : Nat} (inPage : pageOffset < 4096)
    (beyond : 4096 - pageOffset ≤ remaining) :
    (index + 1) * 4096 + (remaining - (4096 - pageOffset)) =
      index * 4096 + pageOffset + remaining := by
  omega

/-- Behind a full chunk there is room for the rest, and its place is the next one. -/
theorem next_room {host : Host} {toController : Bool} {page : UInt8} {pageOffset remaining : Nat}
    (inPage : pageOffset < pageLength) (some_ : ¬ remaining = 0)
    (room : HasRoom toController page pageOffset remaining) :
    HasRoom toController (page + 1) 0 (remaining - chunkSize remaining pageOffset) ∧
      (remaining - chunkSize remaining pageOffset = 0 ∨
        startPlace host toController (page + 1) 0 =
          startPlace host toController page pageOffset + chunkSize remaining pageOffset) := by
  rw [HasRoom] at room ⊢
  cases toController with
  | true =>
    rw [if_pos rfl] at room ⊢
    have whole : remaining - chunkSize remaining pageOffset = 0 := by
      rcases chunkSize_cases remaining pageOffset with ⟨size, _⟩ | ⟨size, _⟩
      · omega
      · omega
    rw [whole]
    exact ⟨Nat.zero_le _, .inl rfl⟩
  | false =>
    obtain ⟨low, high⟩ := room
    have first : ramPageFirst.toNat = 192 := rfl
    have length : pageLength = 4096 := rfl
    have whole : ramLength = 131072 := rfl
    rw [first] at low high
    rw [length] at inPage
    rw [length, whole] at high
    obtain ⟨index, number⟩ : ∃ index, page.toNat - 192 = index := ⟨_, rfl⟩
    have next : (page + 1).toNat = page.toNat + 1 := by
      rw [UInt8.toNat_add, UInt8.toNat_one, Nat.mod_eq_of_lt (by omega)]
    have nextNumber : page.toNat + 1 - 192 = index + 1 := by omega
    rw [number] at high
    rw [if_neg Bool.false_ne_true, startPlace, startPlace, if_neg Bool.false_ne_true,
      if_neg Bool.false_ne_true, next, first, length, whole, number, nextNumber]
    refine ⟨⟨by omega, ?_⟩, ?_⟩
    · rcases chunkSize_cases remaining pageOffset with ⟨size, -⟩ | ⟨size, beyond⟩
      · rw [size, Nat.sub_self, Nat.add_zero, Nat.add_zero]
        exact next_page (Nat.pos_of_ne_zero some_) high
      · rw [length] at size beyond
        rw [size, Nat.add_zero, next_page_rest inPage beyond]
        exact high
    · rcases chunkSize_cases remaining pageOffset with ⟨size, -⟩ | ⟨size, -⟩
      · left
        rw [size, Nat.sub_self]
      · right
        rw [size, length]
        omega

theorem copyLoop_copies (answers : Answers) (host : Host) (toController : Bool) (n : Nat)
    {file : OverlayFile} (sound : file.Sound) (page : UInt8) (pageOffset : Fin pageLength)
    (remaining : Nat) (room : HasRoom toController page pageOffset remaining) (done : Progress) :
    Copies file.content file.position (startPlace host toController page pageOffset) remaining
      done (copyLoop answers host toController n file page pageOffset remaining done) := by
  fun_induction copyLoop answers host toController n file page pageOffset remaining done with
  | case1 => exact .nothing rfl rfl
  | case2 => exact .nothing rfl rfl
  | case3 n file page pageOffset remaining done some_ place found chunk r memory negative =>
    obtain ⟨-, -, short⟩ := chunkSize_word remaining pageOffset
    have empty : r.data = [] := (read_effect (answers.reads n) sound short).failed negative
    refine .nothing ?_ rfl
    change overwrite done.memory place r.data = done.memory
    rw [empty, overwrite_nil]
  | case4 n file page pageOffset remaining done some_ place found chunk r memory nonneg
      bytesRead notFull =>
    obtain ⟨most, number, short⟩ := chunkSize_word remaining pageOffset
    obtain ⟨count, -, fits, slice, -⟩ :=
      (read_effect (answers.reads n) sound short).succeeded nonneg
    rw [number] at fits
    refine .one slice (fits.trans most) ?_ ?_
    · rw [← chunkPlace_start found]
    · exact congrArg (done.bytesRead + ·) count
  | case5 n file page pageOffset remaining done some_ place found chunk r memory nonneg
      bytesRead full ih =>
    obtain ⟨most, number, short⟩ := chunkSize_word remaining pageOffset
    obtain ⟨count, length, fits, slice, same, moves, sound'⟩ :=
      (read_effect (answers.reads n) sound short).succeeded nonneg
    rw [number] at fits
    have whole : r.count.toUInt32.toNat = chunkSize remaining pageOffset := by
      change ¬ r.count.toUInt32.toNat < chunkSize remaining pageOffset at full
      change r.data.length ≤ chunkSize remaining pageOffset at fits
      change r.count.toUInt32.toNat = r.data.length at length
      omega
    obtain ⟨room', follows⟩ := @next_room host _ _ _ _ pageOffset.isLt some_ room
    rw [← whole] at room' follows
    have rest := ih sound' room'
    rw [same, moves] at rest
    refine .trans slice ?_ (congrArg (done.bytesRead + ·) count) ?_ ?_ rest
    · rw [← chunkPlace_start found]
    · change r.data.length + (remaining - r.count.toUInt32.toNat) ≤ remaining
      change r.count.toUInt32.toNat = r.data.length at length
      omega
    · rw [length] at follows ⊢
      exact follows

/-! ## The command -/

/-- Where the request wants its data. -/
def targetPlace (host : Host) (request : Request) : Nat :=
  startPlace host (request.targetFirstPage = controllerPage) request.targetFirstPage
    request.targetFirstPageOffset.toNat

/-- The requested range is in the request's workspace behind the fields of the request, or in
the RAM. -/
def TargetAllowed (host : Host) (request : Request) : Prop :=
  if request.targetFirstPage = controllerPage then
    host.workspace + 0x100 ≤ targetPlace host request ∧
      targetPlace host request + request.maximumData.toNat ≤ host.workspace + workspaceSize
  else
    ramPageFirst ≤ request.targetFirstPage ∧ request.targetFirstPage ≤ ramPageLast ∧
      host.ram ≤ targetPlace host request ∧
      targetPlace host request + request.maximumData.toNat ≤ host.ram + ramLength

/-- What the check of the destination gives. -/
theorem DestinationFits.room {host : Host} {request : Request}
    (inPage : request.targetFirstPageOffset.toNat < pageLength)
    (fits : DestinationFits host request) :
    TargetAllowed host request ∧
      HasRoom (request.targetFirstPage = controllerPage) request.targetFirstPage
        request.targetFirstPageOffset.toNat request.maximumData.toNat := by
  rw [DestinationFits] at fits
  rw [TargetAllowed, targetPlace, startPlace, HasRoom]
  by_cases controller : request.targetFirstPage = controllerPage
  · rw [if_pos controller] at fits
    obtain ⟨low, high, room⟩ := fits
    have base : workspaceOffset host.channel + workspaceSize ≤ pageLength := by
      rw [workspaceOffset]
      split
      · decide
      · decide
    rw [if_pos controller, if_pos (decide_eq_true controller),
      if_pos (decide_eq_true controller)]
    refine ⟨⟨?_, ?_⟩, ?_⟩
    · omega
    · omega
    · omega
  · rw [if_neg controller] at fits
    by_cases window : ramPageFirst ≤ request.targetFirstPage ∧
        request.targetFirstPage ≤ ramPageLast
    · rw [if_pos window] at fits
      have off : ¬ (decide (request.targetFirstPage = controllerPage)) = true := by
        simpa using controller
      rw [if_neg controller, if_neg off, if_neg off]
      have low : 192 ≤ request.targetFirstPage.toNat := UInt8.le_iff_toNat_le.mp window.1
      have high : request.targetFirstPage.toNat ≤ 223 := UInt8.le_iff_toNat_le.mp window.2
      have first : ramPageFirst.toNat = 192 := rfl
      have length : pageLength = 4096 := rfl
      have whole : ramLength = 131072 := rfl
      rw [first, length, whole] at fits
      rw [length] at inPage
      rw [first, length, whole]
      refine ⟨⟨window.1, window.2, ?_, ?_⟩, low, ?_⟩
      · omega
      · omega
      · omega
    · rw [if_neg window] at fits
      exact fits.elim

/-- What a request owes: its data are a slice of the file that starts at its position, no longer
than asked for; they go to the requested range if that is allowed, nothing else is written but
the count, and the count is theirs. -/
def FileReadLaw (answers : Answers) (host : Host) (memory : Memory) (out : Executed) : Prop :=
  let request := requestIn memory host.workspace
  (0 ∉ request.sourceFilename → out.memory = memory) ∧
    (¬ DestinationFits host request → out.status = statusError) ∧
    (0 ∈ request.sourceFilename → ∃ copied : List UInt8,
      out.memory = overwrite (overwrite memory (targetPlace host request) copied)
        (host.workspace + bytesReadOffset) (bytes32 (UInt32.ofNat copied.length)) ∧
      (u32In out.memory (host.workspace + bytesReadOffset)).toNat = copied.length ∧
      copied.length ≤ request.maximumData.toNat ∧
      (copied = [] ∨
        TargetAllowed host request ∧
          ∃ file, answers.opened (request.sourceFilename.takeWhile (· ≠ 0)) = .ok file ∧
            copied = bytesAt file.content request.sourceOffset.toNat copied.length))

/-- `spectranext_xfs_read` copies nothing, or a slice of the opened file to an allowed target. -/
theorem xfsRead_copies (answers : Answers) (host : Host) (path : List UInt8) (request : Request)
    (memory : Memory) :
    let read := spectranextXfsRead answers host path request memory
    (¬ DestinationFits host request → read.err ≠ 0) ∧
      (read.memory = memory ∧ read.bytesRead = 0 ∨
        TargetAllowed host request ∧ ∃ file, answers.opened path = .ok file ∧
          Copies file.content request.sourceOffset.toNat (targetPlace host request)
            request.maximumData.toNat { memory } read) := by
  intro read
  have result : read = spectranextXfsRead answers host path request memory := rfl
  have inval : XfsError.inval.code ≠ 0 := by decide
  rw [spectranextXfsRead] at result
  split at result
  · rw [result]
    exact ⟨fun _ => inval, .inl ⟨rfl, rfl⟩⟩
  rename_i accepted
  split at result
  · rw [result]
    exact ⟨fun _ => inval, .inl ⟨rfl, rfl⟩⟩
  rename_i fits
  rw [Classical.not_not] at fits
  refine ⟨fun misfit => absurd fits misfit, ?_⟩
  split at result
  · rw [result]
    exact .inl ⟨rfl, rfl⟩
  split at result
  · rw [result]
    exact .inl ⟨rfl, rfl⟩
  rename_i file opened
  dsimp only at result
  split at result
  · -- the seek has failed: only the error of the close may follow
    split at result
    · rw [result]
      exact .inl ⟨rfl, rfl⟩
    · rw [result]
      exact .inl ⟨rfl, rfl⟩
  rename_i succeeds
  obtain ⟨allowed, room⟩ := fits.room (by omega)
  obtain ⟨sound, slices⟩ := lseekSet_effect answers.seek file (by omega) succeeds
  obtain ⟨copied, slice, short, written, count⟩ :=
    copyLoop_copies answers host (request.targetFirstPage = controllerPage) 0 sound
      request.targetFirstPage ⟨request.targetFirstPageOffset.toNat, by omega⟩
      request.maximumData.toNat room { memory }
  rw [slices] at slice
  right
  refine ⟨allowed, file, opened, copied, slice, short, ?_⟩
  split at result
  · rw [result]
    exact ⟨written, count⟩
  · rw [result]
    exact ⟨written, count⟩

theorem bytes_of_word (v : BitVec 32) :
    ((v.setWidth 8).setWidth 16 ||| ((v >>> 8).setWidth 8).setWidth 16 <<< 8).setWidth 32 |||
      (((v >>> 16).setWidth 8).setWidth 16 |||
        ((v >>> 24).setWidth 8).setWidth 16 <<< 8).setWidth 32 <<< 16 = v := by
  apply BitVec.eq_of_getLsbD_eq
  intro i low
  simp only [BitVec.getLsbD_or, BitVec.getLsbD_setWidth, BitVec.getLsbD_shiftLeft,
    BitVec.getLsbD_ushiftRight]
  grind

/-- A number that is written reads back. -/
theorem u32In_overwrite (memory : Memory) (place : Nat) (n : UInt32) :
    u32In (overwrite memory place (bytes32 n)) place = n := by
  have byte : ∀ k, overwrite memory place (bytes32 n) (place + k) =
      ((bytes32 n)[k]?).getD (memory (place + k)) := by
    intro k
    rw [overwrite_from (by omega), Nat.add_sub_cancel_left]
  have first := byte 0
  rw [Nat.add_zero] at first
  rw [u32In, u16In, u16In, Nat.add_assoc, byte, byte, byte, first]
  exact congrArg UInt32.ofBitVec (bytes_of_word n.toBitVec)

/-- Whatever a guest asks for, whatever file is found and whatever the host answers. -/
theorem file_read_bounds (answers : Answers) (host : Host) (memory : Memory) :
    FileReadLaw answers host memory (executeXfsRead answers host memory) := by
  obtain ⟨request, isRequest⟩ : ∃ request, request = requestIn memory host.workspace := ⟨_, rfl⟩
  rw [FileReadLaw, ← isRequest]
  have result : executeXfsRead answers host memory =
      if 0 ∈ request.sourceFilename then
        let read := spectranextXfsRead answers host (request.sourceFilename.takeWhile (· ≠ 0))
          request memory
        { memory := overwrite read.memory (host.workspace + bytesReadOffset)
            (bytes32 read.bytesRead)
          status := if read.err = 0 then statusSuccess else statusError }
      else { memory, status := statusError } := by
    rw [isRequest]
    rfl
  by_cases ended : 0 ∈ request.sourceFilename
  · rw [if_pos ended] at result
    obtain ⟨misfit, copies⟩ := xfsRead_copies answers host
      (request.sourceFilename.takeWhile (· ≠ 0)) request memory
    rw [result]
    refine ⟨fun missing => absurd ended missing, fun bad => if_neg (misfit bad), fun _ => ?_⟩
    dsimp only
    rw [u32In_overwrite]
    rcases copies with ⟨written, count⟩ | ⟨allowed, file, opened, copied, slice, short, written,
      count⟩
    · rw [written, count]
      exact ⟨[], by rw [overwrite_nil]; rfl, rfl, Nat.zero_le _, .inl rfl⟩
    · rw [written, count]
      have number : (0 + UInt32.ofNat copied.length) = UInt32.ofNat copied.length :=
        UInt32.zero_add _
      refine ⟨copied, ?_, ?_, short, .inr ⟨allowed, file, opened, slice⟩⟩
      · rw [number]
      · rw [number, UInt32.toNat_ofNat_of_lt' (short.trans_lt request.maximumData.toNat_lt)]
  · rw [if_neg ended] at result
    rw [result]
    exact ⟨fun _ => rfl, fun _ => rfl, fun found => absurd found ended⟩

end FuseX.Nic.FileRead
