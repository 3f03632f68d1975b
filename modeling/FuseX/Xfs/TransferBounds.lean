import FuseX.Xfs.Transfer

/-!
# Which transfers keep to the workspace

Neither command compares the size with the workspace. So what matters is how many bytes move:
what is asked for, unless the file has less to give or takes less (`available`, `accepts`).
`engineRead_effect` and `engineWrite_effect` say all that the five engines do; the commands
follow from them.
-/

namespace FuseX.Xfs.Transfer

open Lib

/-! ## What a file gives and takes -/

/-- The bytes a file has for a read, as far as the other end gives them. -/
def available (answer : Answer) : OpenFile → Nat
  | .overlay (.ram file) =>
      if file.readable && answer.fails.isNone then
        min (file.content.length - file.position) answer.limit
      else 0
  | .overlay (.romfs file) => (file.data.map (·.length)).getD 0 - file.offset
  | .https file => (file.download.map (·.available)).getD 0
  | .sftp file =>
      if answer.fails.isNone then
        min ((file.content.map (·.length)).getD 0 - file.position) answer.limit
      else 0

/-- The bytes a file takes of a write. -/
def accepts (answer : Answer) : OpenFile → Nat
  | .overlay (.ram file) => if file.writable && answer.fails.isNone then answer.limit else 0
  | .overlay (.romfs _) => 0
  | .https _ => 0
  | .sftp file => if file.content.isSome && answer.fails.isNone then answer.limit else 0

/-- Where the bytes of a write go. -/
def writeStart : OpenFile → Nat
  | .overlay (.ram file) => if file.append then file.content.length else file.position
  | file => file.position

/-! ## What the engines do -/

/-- An engine refuses with an error, or moves as many bytes as it can. -/
inductive ReadEffect (answer : Answer) (size : Nat) (file : OpenFile) :
    ReadResult OpenFile → Prop
  | refused {err : Int16} {after : OpenFile} (negative : err < 0)
      (stays : after.position = file.position) (nothing : available answer file = 0) :
      ReadEffect answer size file { count := err.toInt32, file := after }
  | moved {data : List UInt8} {after : OpenFile}
      (length : data.length = min size (available answer file))
      (moves : after.position = file.position + data.length) :
      ReadEffect answer size file { count := Int32.ofNat data.length, data, file := after }

inductive WriteEffect (answer : Answer) (size : Nat) (file : OpenFile) :
    WriteResult OpenFile → Prop
  | refused {err : Int16} {after : OpenFile} (negative : err < 0)
      (stays : after.position = file.position) (nothing : accepts answer file = 0) :
      WriteEffect answer size file { count := err.toInt32, file := after }
  | moved {taken : Nat} {after : OpenFile} (isTaken : taken = min size (accepts answer file))
      (moves : after.position = if taken = 0 then file.position else writeStart file + taken) :
      WriteEffect answer size file { count := Int32.ofNat taken, taken, file := after }

theorem errno_negative (errno : Errno) : XfsError.code (.errno errno.val) < 0 := by
  obtain ⟨n, positive, small⟩ := errno
  have number : (Int16.ofNat n).toInt = n := Int16.toInt_ofNat_of_lt (by omega)
  rw [Int16.lt_iff_toInt_lt, XfsError.code, Int16.toInt_neg, number, Int16.toInt_zero,
    Int.bmod_eq_of_le (by omega) (by omega)]
  omega

theorem bytesAt_length (content : List UInt8) (position size : Nat) :
    (bytesAt content position size).length = min size (content.length - position) := by
  rw [bytesAt, List.length_take, List.length_drop]

theorem peek_length (h : Http.Download) (take : Nat) : (h.peek take).length = take := by
  rw [Http.Download.peek, List.length_append, List.length_map, List.length_map, List.length_range,
    List.length_range]
  omega

theorem fsRead_effect (answer : Answer) (file : HostFile) (size : UInt32) :
    ReadEffect answer size.toNat (.overlay (.ram file))
      ((fsRead answer file size).map fun file => .overlay (.ram file)) := by
  cases readable : file.readable with
  | false =>
    rw [fsRead, if_pos readable]
    refine .refused (by decide) rfl ?_
    rw [available, readable]
    rfl
  | true =>
    rw [fsRead, if_neg (by rw [readable]; exact Bool.noConfusion)]
    cases fails : answer.fails with
    | some errno =>
      refine .refused (errno_negative errno) rfl ?_
      rw [available, fails, readable]
      rfl
    | none =>
      refine .moved ?_ rfl
      rw [bytesAt_length, available, fails, readable]
      simp only [Option.isNone_none, Bool.and_true, if_true]
      omega

theorem romfsRead_effect (answer : Answer) (file : RomFile) (size : UInt32) :
    ReadEffect answer size.toNat (.overlay (.romfs file))
      ((romfsRead file size).map fun file => .overlay (.romfs file)) := by
  rw [romfsRead]
  cases found : file.data with
  | none =>
    refine .refused (by decide) rfl ?_
    rw [available, found]
    exact Nat.zero_sub _
  | some data =>
    have has : available answer (.overlay (.romfs file)) = data.length - file.offset := by
      rw [available, found]
      rfl
    have least : (if (if file.offset < data.length then data.length - file.offset else 0)
        < size.toNat then (if file.offset < data.length then data.length - file.offset else 0)
        else size.toNat) = min size.toNat (data.length - file.offset) := by
      split <;> split <;> omega
    have length : (bytesAt data file.offset (min size.toNat (data.length - file.offset))).length
        = min size.toNat (data.length - file.offset) := by
      rw [bytesAt_length]
      omega
    dsimp only
    rw [least]
    have effect : ReadEffect answer size.toNat (.overlay (.romfs file))
        { count := Int32.ofNat (bytesAt data file.offset
            (min size.toNat (data.length - file.offset))).length
          data := bytesAt data file.offset (min size.toNat (data.length - file.offset))
          file := .overlay (.romfs
            { file with offset := file.offset + min size.toNat (data.length - file.offset) }) } :=
      .moved (by rw [length, has]) (by rw [length]; rfl)
    rw [length, found] at effect
    exact effect

theorem downloadTake_eq {h : Http.Download} {size : UInt32} (short : size.toNat < 2 ^ 16) :
    downloadTake h size = min size.toNat h.available := by
  rw [downloadTake]
  split
  · next zero =>
    rw [zero]
    exact (Nat.zero_min _).symm
  · rw [Nat.min_eq_left (show size.toNat ≤ 2 ^ 31 - 1 by omega)]

/-- A read moves on by what it takes. -/
theorem position_advance {file : HttpsFile} {h : Http.Download} (opened : file.download = some h)
    {take : Nat} (within : take ≤ h.available) {file' : HttpsFile}
    (opened' : file'.download = some (h.advance take)) (same : file'.received = file.received) :
    file'.position = file.position + take := by
  have buffered := file.buffered h opened
  rw [HttpsFile.position, HttpsFile.position, opened, opened', same]
  rw [Http.Download.available] at within
  dsimp only
  rw [Http.Download.advance]
  by_cases nothing : take = 0
  · rw [if_pos nothing, nothing]
    rfl
  · rw [if_neg nothing]
    by_cases retain : h.retain = true
    · rw [if_pos retain, if_pos retain, if_pos retain]
    · rw [if_neg retain] at within
      rw [if_neg retain, if_neg retain, if_neg retain]
      dsimp only
      omega

theorem httpsRead_effect (answer : Answer) (file : HttpsFile) {size : UInt32}
    (short : size.toNat < 2 ^ 16) :
    ReadEffect answer size.toNat (.https file) ((httpsRead file size).map .https) := by
  rw [httpsRead]
  split
  · next closed =>
    refine .refused (by decide) rfl ?_
    rw [available, closed]
    rfl
  · next h opened =>
    have has : available answer (.https file) = h.available := by
      rw [available, opened]
      rfl
    have take : downloadTake h size = min size.toNat h.available := downloadTake_eq short
    dsimp only
    split
    · next failed =>
      refine .refused (by decide) rfl ?_
      have some_ : size.toNat ≠ 0 := fun zero => failed.2.1 (UInt32.toNat_inj.mp zero)
      have nothing := failed.1
      rw [take] at nothing
      omega
    · have within : downloadTake h size ≤ h.available := take.trans_le (Nat.min_le_right _ _)
      have effect : ∀ file' : HttpsFile, file'.download = some (h.advance (downloadTake h size)) →
          file'.received = file.received → ReadEffect answer size.toNat (.https file)
            { count := Int32.ofNat (h.peek (downloadTake h size)).length
              data := h.peek (downloadTake h size), file := .https file' } := by
        intro file' opened' same
        refine .moved (by rw [peek_length, take, has]) ?_
        rw [peek_length]
        exact position_advance opened within opened' same
      rw [peek_length] at effect
      exact effect _ rfl rfl

theorem sftpRead_effect (answer : Answer) (file : SftpFile) (size : UInt32) :
    ReadEffect answer size.toNat (.sftp file) ((sftpRead answer file size).map .sftp) := by
  rw [sftpRead]
  cases found : file.content with
  | none =>
    refine .refused (by decide) rfl ?_
    rw [available, found]
    simp
  | some content =>
    cases fails : answer.fails with
    | some errno =>
      refine .refused (by decide) rfl ?_
      rw [available, fails]
      rfl
    | none =>
      refine .moved ?_ rfl
      rw [bytesAt_length, available, fails, found]
      simp only [Option.isNone_none, if_true, Option.map_some, Option.getD_some]
      omega

theorem engineRead_effect (answer : Answer) {size : UInt32} (short : size.toNat < 2 ^ 16)
    (file : OpenFile) : ReadEffect answer size.toNat file (engineRead answer size file) := by
  cases file with
  | overlay child =>
    cases child with
    | ram file => exact fsRead_effect answer file size
    | romfs file => exact romfsRead_effect answer file size
  | https file => exact httpsRead_effect answer file short
  | sftp file => exact sftpRead_effect answer file size

theorem engineWrite_effect (answer : Answer) (buffer : Nat → UInt8) (size : UInt32)
    (file : OpenFile) : WriteEffect answer size.toNat file (engineWrite answer buffer size file) := by
  cases file with
  | overlay child =>
    cases child with
    | ram file =>
      rw [engineWrite, fsWrite]
      cases writable : file.writable with
      | false =>
        rw [if_pos rfl]
        refine .refused (by decide) rfl ?_
        rw [accepts, writable]
        rfl
      | true =>
        rw [if_neg Bool.noConfusion]
        cases fails : answer.fails with
        | some errno =>
          refine .refused (errno_negative errno) rfl ?_
          rw [accepts, fails, writable]
          rfl
        | none =>
          have takes : accepts answer (.overlay (.ram file)) = answer.limit := by
            rw [accepts, fails, writable]
            rfl
          dsimp only
          split
          · next nothing =>
            exact .moved (by rw [takes, nothing]) rfl
          · next some_ =>
            refine .moved (by rw [takes]) ?_
            rw [if_neg some_]
            rfl
    | romfs file => exact .refused (by decide) rfl rfl
  | https file => exact .refused (by decide) rfl rfl
  | sftp file =>
    rw [engineWrite, sftpWrite]
    cases found : file.content with
    | none =>
      refine .refused (by decide) rfl ?_
      rw [accepts, found]
      rfl
    | some content =>
      cases fails : answer.fails with
      | some errno =>
        refine .refused (by decide) rfl ?_
        rw [accepts, found, fails]
        rfl
      | none =>
        have takes : accepts answer (.sftp file) = answer.limit := by
          rw [accepts, fails, found]
          rfl
        refine .moved (by rw [takes]) ?_
        change file.position + min size.toNat answer.limit
          = if min size.toNat answer.limit = 0 then file.position
            else file.position + min size.toNat answer.limit
        split
        · next nothing => rw [nothing, Nat.add_zero]
        · rfl

/-! ## What is reported -/

/-- A command that completes reports by how much the position has moved; one that ends in an
error leaves it. -/
def Reports (file : OpenFile) (out : Outcome) : Prop :=
  (out.status = .complete → out.result.toInt = (out.file.position : Int) - file.position)
    ∧ (out.status = .error → out.file.position = file.position)

/-- No byte changes but the first ones of the workspace, and the report is right. -/
def ReadLaw (answer : Answer) (file : OpenFile) (size : UInt16) : Prop :=
  ∀ memory : Nat → UInt8,
    (∀ place, ¬ (workspaceOffset ≤ place
        ∧ place < workspaceOffset + min size.toNat workspaceSize) →
      (xfsHandleRead answer file size memory).memory place = memory place)
    ∧ Reports file (xfsHandleRead answer file size memory)

/-- No byte is taken but those of the workspace, and the report is right. -/
def WriteLaw (answer : Answer) (file : OpenFile) (size : UInt16) : Prop :=
  ∀ memory : Nat → UInt8,
    (∀ place, place ∈ (xfsHandleWrite answer file size memory).consumed →
      workspaceOffset ≤ place ∧ place < workspaceOffset + workspaceSize)
    ∧ Reports file (xfsHandleWrite answer file size memory)

theorem report_refused {err : Int16} (negative : err < 0) :
    report err.toInt32 = (err, .error) := by
  have back : err.toInt32.toInt16 = err := Int16.toInt16_toInt32 err
  rw [report, back]
  exact if_pos negative

/-- A count below the sign bit of sixteen bits is reported as it is. -/
theorem report_moved {count : Nat} (small : count < 2 ^ 15) :
    report (Int32.ofNat count) = (Int16.ofNat count, .complete) := by
  have cut : (Int32.ofNat count).toInt16 = Int16.ofNat count := Int32.toInt16_ofNat
  have number : (Int16.ofNat count).toInt = count := Int16.toInt_ofNat_of_lt small
  have positive : ¬ Int16.ofNat count < 0 := by
    rw [Int16.lt_iff_toInt_lt, number, Int16.toInt_zero]
    omega
  rw [report, cut]
  exact if_neg positive

theorem reports_refused {file : OpenFile} {out : Outcome} {err : Int16} (negative : err < 0)
    (status : out.status = (report err.toInt32).2) (stays : out.file.position = file.position) :
    Reports file out := by
  rw [report_refused negative] at status
  refine ⟨fun complete => ?_, fun _ => stays⟩
  rw [status] at complete
  exact XfsStatus.noConfusion complete

theorem reports_moved {file : OpenFile} {out : Outcome} {count : Nat} (small : count < 2 ^ 15)
    (result : out.result = (report (Int32.ofNat count)).1)
    (status : out.status = (report (Int32.ofNat count)).2) :
    Reports file out ↔ out.file.position = file.position + count := by
  have number : (Int16.ofNat count).toInt = count := Int16.toInt_ofNat_of_lt small
  rw [report_moved small] at result status
  rw [Reports, result, status, number]
  constructor
  · rintro ⟨moves, -⟩
    have moves := moves rfl
    omega
  · intro moves
    refine ⟨fun _ => ?_, fun failed => XfsStatus.noConfusion failed⟩
    omega

/-! ## The two commands -/

theorem size_short (size : UInt16) : size.toUInt32.toNat < 2 ^ 16 := by
  rw [UInt16.toNat_toUInt32]
  exact size.toNat_lt

theorem read_iff (answer : Answer) (file : OpenFile) (size : UInt16) :
    ReadLaw answer file size ↔ size.toNat ≤ workspaceSize ∨ available answer file ≤ workspaceSize := by
  have effect := engineRead_effect answer (size_short size) file
  rw [UInt16.toNat_toUInt32] at effect
  simp only [ReadLaw, xfsHandleRead]
  generalize engineRead answer size.toUInt32 file = r at effect
  rcases effect with @⟨err, after, negative, stays, nothing⟩ | @⟨data, after, length, moves⟩
  · refine ⟨fun _ => .inr (by rw [nothing]; exact Nat.zero_le _), fun _ memory => ⟨?_, ?_⟩⟩
    · intro place _
      exact congrFun (overwrite_nil _) place
    · exact reports_refused negative rfl stays
  · constructor
    · intro law
      by_contra long
      rw [not_or, Nat.not_le, Nat.not_le] at long
      have past : workspaceSize < data.length := by omega
      -- the first byte behind the workspace is the one read, whatever was there
      have same : ∀ before : UInt8, data[workspaceSize] = before := by
        intro before
        have kept := (law fun _ => before).1 (workspaceOffset + workspaceSize) (by omega)
        rw [overwrite_from (Nat.le_add_right _ _), Nat.add_sub_cancel_left,
          List.getElem?_eq_getElem past, Option.getD_some] at kept
        exact kept
      have differ : (0 : UInt8) ≠ 1 := by decide
      exact differ ((same 0).symm.trans (same 1))
    · intro bound memory
      have short : data.length ≤ min size.toNat workspaceSize := by omega
      have small : data.length < 2 ^ 15 := by
        have := Nat.le_trans short (Nat.min_le_right _ _)
        rw [workspaceSize] at this
        omega
      refine ⟨fun place outside => ?_, (reports_moved small rfl rfl).mpr moves⟩
      apply overwrite_elsewhere
      rintro ⟨low, high⟩
      exact outside ⟨low, high.trans_le (Nat.add_le_add_left short _)⟩

theorem write_iff (answer : Answer) (file : OpenFile) (size : UInt16) :
    WriteLaw answer file size ↔
      (size.toNat ≤ workspaceSize ∨ accepts answer file ≤ workspaceSize)
        ∧ (writeStart file = file.position ∨ size = 0 ∨ accepts answer file = 0) := by
  have zero : size = 0 ↔ size.toNat = 0 := UInt16.toNat_inj.symm
  simp only [WriteLaw, xfsHandleWrite, zero]
  constructor
  · intro law
    obtain ⟨within, reports⟩ := law fun _ => 0
    have effect := engineWrite_effect answer (fun _ => 0) size.toUInt32 file
    rw [UInt16.toNat_toUInt32] at effect
    generalize engineWrite answer (fun _ => 0) size.toUInt32 file = r at effect within reports
    rcases effect with ⟨negative, stays, nothing⟩ | ⟨isTaken, moves⟩
    · exact ⟨.inr (by rw [nothing]; exact Nat.zero_le _), .inr (.inr nothing)⟩
    · rename_i taken after
      have short : taken ≤ workspaceSize := by
        by_contra long
        have last := within (workspaceOffset + (taken - 1))
          (List.mem_map_of_mem (List.mem_range.mpr (Nat.sub_one_lt (by omega))))
        omega
      have small : taken < 2 ^ 15 := Nat.lt_of_le_of_lt short (by decide)
      have reported := (reports_moved small rfl rfl).mp reports
      refine ⟨by omega, ?_⟩
      dsimp only at reported
      rw [moves] at reported
      split at reported <;> omega
  · rintro ⟨bound, place⟩ memory
    have effect := engineWrite_effect answer (fun i => memory (workspaceOffset + i))
      size.toUInt32 file
    rw [UInt16.toNat_toUInt32] at effect
    generalize engineWrite answer (fun i => memory (workspaceOffset + i)) size.toUInt32 file = r
      at effect
    rcases effect with ⟨negative, stays, nothing⟩ | ⟨isTaken, moves⟩
    · refine ⟨fun place taken => ?_, reports_refused negative rfl stays⟩
      exact absurd taken List.not_mem_nil
    · rename_i taken after
      have short : taken ≤ workspaceSize := by omega
      have small : taken < 2 ^ 15 := Nat.lt_of_le_of_lt short (by decide)
      refine ⟨fun place consumed => ?_, (reports_moved small rfl rfl).mpr ?_⟩
      · obtain ⟨i, inside, rfl⟩ := List.mem_map.mp consumed
        have inside : i < taken := List.mem_range.mp inside
        omega
      · dsimp only
        rw [moves]
        split <;> omega

/-- A read keeps to the workspace and reports by how much the position moved exactly when no
more bytes move than the workspace has; a write when besides the bytes go where the position
is, or none goes. -/
theorem transfer_iff (answer : Answer) (file : OpenFile) (size : UInt16) :
    (ReadLaw answer file size ↔
      size.toNat ≤ workspaceSize ∨ available answer file ≤ workspaceSize)
    ∧ (WriteLaw answer file size ↔
      (size.toNat ≤ workspaceSize ∨ accepts answer file ≤ workspaceSize)
        ∧ (writeStart file = file.position ∨ size = 0 ∨ accepts answer file = 0)) :=
  ⟨read_iff answer file size, write_iff answer file size⟩

/-- A file of an image that is longer than any read. -/
def longFile : OpenFile := .overlay (.romfs { data := some (List.replicate 65535 0) })

theorem image_available (answer : Answer) (data : List UInt8) :
    available answer (.overlay (.romfs { data := some data })) = data.length := by
  simp only [available, Option.map_some, Option.getD_some, Nat.sub_zero]

theorem longFile_available (answer : Answer) : available answer longFile = 65535 :=
  (image_available answer (List.replicate 65535 0)).trans List.length_replicate

/-- What a read of 40000 bytes returns from a file of that length. -/
theorem long_read {data : List UInt8} (length : data.length = 65535) :
    (engineRead { limit := 0 } (40000 : UInt16).toUInt32
        (.overlay (.romfs { data := some data }))).count = Int32.ofNat 40000 ∧
      (engineRead { limit := 0 } (40000 : UInt16).toUInt32
        (.overlay (.romfs { data := some data }))).file.position = 40000 := by
  simp only [engineRead, romfsRead, ReadResult.map, length]
  exact ⟨rfl, rfl⟩

/-- A read of 2000 bytes goes past the workspace, one of 40000 moves the position and is reported
as an error, and a write of 2000 bytes takes bytes behind the workspace. -/
theorem transfer_passes_workspace :
    ¬ ReadLaw { limit := 0 } longFile 2000
    ∧ (∀ memory, (xfsHandleRead { limit := 0 } longFile 40000 memory).status = .error
      ∧ (xfsHandleRead { limit := 0 } longFile 40000 memory).result.toInt = -25536
      ∧ (xfsHandleRead { limit := 0 } longFile 40000 memory).file.position = 40000)
    ∧ ¬ WriteLaw { limit := 2000 } (.overlay (.ram { content := [] })) 2000 := by
  have asked : (2000 : UInt16).toNat = 2000 := by decide
  refine ⟨fun law => ?_, fun memory => ?_, fun law => ?_⟩
  · have bound := (read_iff _ _ _).mp law
    rw [asked, longFile_available, workspaceSize] at bound
    omega
  · have length : (List.replicate 65535 (0 : UInt8)).length = 65535 := List.length_replicate
    obtain ⟨count, moved⟩ := long_read length
    rw [longFile]
    generalize List.replicate 65535 (0 : UInt8) = data at count moved
    refine ⟨?_, ?_, ?_⟩
    · rw [xfsHandleRead, count]
      change (report (Int32.ofNat 40000)).2 = .error
      decide
    · rw [xfsHandleRead, count]
      change (report (Int32.ofNat 40000)).1.toInt = -25536
      decide
    · exact moved
  · have bound := ((write_iff _ _ _).mp law).1
    rw [asked, workspaceSize] at bound
    have takes : accepts { limit := 2000 } (.overlay (.ram { content := [] })) = 2000 := rfl
    rw [takes] at bound
    omega

end FuseX.Xfs.Transfer
