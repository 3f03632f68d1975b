import FuseX.Xfs.Transfer

/-!
# The image of the ROM file system

`ramfs_mount` takes an image as it is in memory and checks its header; `ramfs_file_data` looks an
entry of its table up; `romfs_read` and `romfs_lseek` of `xfs_romfs.c` move about in a file.

* an image is a list of bytes, its numbers are little-endian and `size_t` has 64 bits;
* a `Ramfs` is what the mount accepts: the table is behind the header, the data area behind the
  table, and both end within the image;
* the entries themselves are not looked at by the mount: each read does so;
* an addition of `int32_t` that overflows wraps, and the law of the seek says nothing about it.
-/

namespace FuseX.Xfs.RomImage

open Transfer

/-! ## The image -/

def u16At (bytes : List UInt8) (place : Nat) : UInt16 :=
  (bytes.getD place 0).toUInt16 ||| (bytes.getD (place + 1) 0).toUInt16 <<< 8

def u32At (bytes : List UInt8) (place : Nat) : UInt32 :=
  (u16At bytes place).toUInt32 ||| (u16At bytes (place + 2)).toUInt32 <<< 16

/-- `ramfs_header_t` -/
structure Header : Type where
  magic : UInt32
  version : UInt16
  entrySize : UInt16
  entryCount : UInt32
  dataOffset : UInt32
  dataSize : UInt32
  deriving DecidableEq

/-- `sizeof(ramfs_header_t)` and `sizeof(ramfs_entry_t)` -/
def headerBytes : Nat := 20
def entryBytes : Nat := 208

def headerAt (image : List UInt8) : Header where
  magic := u32At image 0
  version := u16At image 4
  entrySize := u16At image 6
  entryCount := u32At image 8
  dataOffset := u32At image 12
  dataSize := u32At image 16

/-- `ramfs_entry_t`, but for the texts and the time. -/
structure Entry : Type where
  type : UInt8
  offset : UInt32
  size : UInt32
  deriving DecidableEq

/-- `fs->entries[index]`; the texts of parent and name have 128 and 64 bytes. -/
def entryAt (image : List UInt8) (index : Nat) : Entry :=
  let start := headerBytes + index * entryBytes
  { type := image.getD (start + 192) 0
    offset := u32At image (start + 196)
    size := u32At image (start + 200) }

def ramfsMagic : UInt32 := 0x46524e53
def ramfsVersion : UInt16 := 1
def ramfsTypeReg : UInt8 := 1
def ramfsTypeDir : UInt8 := 2

/-! ## Mounting -/

/-- `table_end` of `ramfs_mount` -/
def tableEnd (header : Header) : UInt64 := 20 + header.entryCount.toUInt64 * 208

/-- Where the data area ends. -/
def dataEnd (header : Header) : UInt64 := header.dataOffset.toUInt64 + header.dataSize.toUInt64

theorem tableEnd_toNat (header : Header) :
    (tableEnd header).toNat = headerBytes + header.entryCount.toNat * entryBytes := by
  have count := header.entryCount.toNat_lt
  simp only [tableEnd, headerBytes, entryBytes, UInt64.toNat_add, UInt64.toNat_mul,
    UInt32.toNat_toUInt64, UInt64.reduceToNat]
  omega

theorem dataEnd_toNat (header : Header) :
    (dataEnd header).toNat = header.dataOffset.toNat + header.dataSize.toNat := by
  have start := header.dataOffset.toNat_lt
  have size := header.dataSize.toNat_lt
  simp only [dataEnd, UInt64.toNat_add, UInt32.toNat_toUInt64]
  omega

/-- A mounted image. -/
structure Ramfs (image : List UInt8) : Type where
  header : Header
  read : header = headerAt image
  table_before_data :
    headerBytes + header.entryCount.toNat * entryBytes ≤ header.dataOffset.toNat
  data_inside : header.dataOffset.toNat + header.dataSize.toNat ≤ image.length

/-- `ramfs_mount` -/
def ramfsMount (image : List UInt8) : Option (Ramfs image) :=
  let header := headerAt image
  if image.length < headerBytes then none
  else if header.magic ≠ ramfsMagic ∨ header.version ≠ ramfsVersion ∨
      header.entrySize.toNat ≠ entryBytes then none
  else if refused : image.length < (tableEnd header).toNat ∨
      header.dataOffset.toUInt64 < tableEnd header ∨
      image.length < (dataEnd header).toNat then none
  else
    some
      { header, read := rfl
        table_before_data := by
          rw [← tableEnd_toNat, ← UInt32.toNat_toUInt64, ← UInt64.le_iff_toNat_le,
            ← UInt64.not_lt]
          exact fun before => refused (.inr (.inl before))
        data_inside := by
          rw [← dataEnd_toNat]
          exact Nat.le_of_not_lt fun beyond => refused (.inr (.inr beyond)) }

variable {image : List UInt8}

/-- `ramfs_file_data`: where in the image the data of the entry starts. -/
def ramfsFileData (fs : Ramfs image) (entry : Entry) : Option Nat :=
  if entry.type ≠ ramfsTypeReg then none
  else if fs.header.dataSize.toUInt64 < entry.offset.toUInt64 + entry.size.toUInt64 then none
  else some (fs.header.dataOffset.toNat + entry.offset.toNat)

/-- The range of the entry's data is in the image, and behind its table. -/
def DataInside (fs : Ramfs image) (entry : Entry) (place : Nat) : Prop :=
  headerBytes + fs.header.entryCount.toNat * entryBytes ≤ place ∧
    place + entry.size.toNat ≤ image.length

/-- The table has the entry in the image. -/
theorem Ramfs.entry_inside (fs : Ramfs image) {index : Nat}
    (listed : index < fs.header.entryCount.toNat) :
    headerBytes + index * entryBytes + entryBytes ≤ image.length := by
  have table := fs.table_before_data
  have data := fs.data_inside
  simp only [headerBytes, entryBytes] at *
  omega

theorem ramfsFileData_inside {fs : Ramfs image} {entry : Entry} {place : Nat}
    (found : ramfsFileData fs entry = some place) : DataInside fs entry place := by
  rw [ramfsFileData] at found
  split at found
  · cases found
  · split at found
    · cases found
    · rename_i within
      cases found
      have size := entry.size.toNat_lt
      have offset := entry.offset.toNat_lt
      rw [UInt64.not_lt, UInt64.le_iff_toNat_le, UInt64.toNat_add, UInt32.toNat_toUInt64,
        UInt32.toNat_toUInt64, UInt32.toNat_toUInt64, Nat.mod_eq_of_lt (by omega)] at within
      have table := fs.table_before_data
      have data := fs.data_inside
      constructor
      · omega
      · omega

/-! ## Files -/

/-- `xfs_romfs_file_handle_t` -/
structure File : Type where
  entry : Entry
  offset : UInt32 := 0
  deriving DecidableEq

/-- What a call returns, what it has put into the buffer, and the file after that. -/
structure Outcome : Type where
  result : Int32
  data : List UInt8 := []
  file : File
  deriving DecidableEq

def refuse (err : XfsError) (file : File) : Outcome := { result := errorCode err, file }

/-- `romfs_read` -/
def romfsRead (fs : Ramfs image) (file : File) (size : UInt32) : Outcome :=
  match ramfsFileData fs file.entry with
  | none => refuse .io file
  | some data =>
      let available :=
        if file.offset < file.entry.size then file.entry.size - file.offset else 0
      let size := if available < size then available else size
      { result := size.toInt32
        data := (image.drop (data + file.offset.toNat)).take size.toNat
        file := { file with offset := file.offset + size } }

def seekSet : UInt8 := 0
def seekCur : UInt8 := 1
def seekEnd : UInt8 := 2

/-- `romfs_lseek` from the place that `whence` names -/
def seekFrom (file : File) (base offset : Int32) : Outcome :=
  let next := base + offset
  if next < 0 then refuse .inval file
  else
    let next := if file.entry.size < next.toUInt32 then file.entry.size.toInt32 else next
    { result := next, file := { file with offset := next.toUInt32 } }

/-- `romfs_lseek` -/
def romfsLseek (file : File) (offset : Int32) (whence : UInt8) : Outcome :=
  if whence = seekSet then seekFrom file 0 offset
  else if whence = seekCur then seekFrom file file.offset.toInt32 offset
  else if whence = seekEnd then seekFrom file file.entry.size.toInt32 offset
  else refuse .inval file

inductive Action : Type
  | read (size : UInt32)
  | seek (offset : Int32) (whence : UInt8)

def perform (fs : Ramfs image) (file : File) : Action → Outcome
  | .read size => romfsRead fs file size
  | .seek offset whence => romfsLseek file offset whence

/-- The file that `romfs_open` makes of an entry, after some calls. -/
def fileAfter (fs : Ramfs image) (entry : Entry) (acts : List Action) : File :=
  acts.foldl (fun file act => (perform fs file act).file) { entry }

/-! ## Reads -/

/-- What a read owes: without data in the image an error; else as many of the bytes of the
entry's range as are asked for and left, from the position on. -/
def ReadLaw (fs : Ramfs image) (file : File) (size : UInt32) (r : Outcome) : Prop :=
  (ramfsFileData fs file.entry = none → r = refuse .io file) ∧
    ∀ place, ramfsFileData fs file.entry = some place →
      r.data = bytesAt (bytesAt image place file.entry.size.toNat) file.offset.toNat size.toNat ∧
        r.data.length = min size.toNat (file.entry.size.toNat - file.offset.toNat) ∧
        r.result = Int32.ofNat r.data.length ∧
        r.file.entry = file.entry ∧
        r.file.offset.toNat = file.offset.toNat + r.data.length

/-- The position is in the file. -/
def File.Sound (file : File) : Prop := file.offset ≤ file.entry.size

/-- The length that is copied, in the arithmetic of the source. -/
theorem readSize_toNat {file : File} (sound : file.Sound) (size : UInt32) :
    let available :=
      if file.offset < file.entry.size then file.entry.size - file.offset else 0
    (if available < size then available else size).toNat =
      min size.toNat (file.entry.size.toNat - file.offset.toNat) := by
  rw [File.Sound, UInt32.le_iff_toNat_le] at sound
  have available : (if file.offset < file.entry.size then file.entry.size - file.offset
      else 0).toNat = file.entry.size.toNat - file.offset.toNat := by
    split
    · rename_i before
      exact UInt32.toNat_sub_of_le _ _ (UInt32.le_of_lt before)
    · rename_i behind
      rw [UInt32.lt_iff_toNat_lt] at behind
      have none_ : (0 : UInt32).toNat = 0 := rfl
      omega
  intro left
  rw [← available]
  change (if left < size then left else size).toNat = min size.toNat left.toNat
  split
  · rename_i less
    rw [UInt32.lt_iff_toNat_lt] at less
    omega
  · rename_i enough
    rw [UInt32.lt_iff_toNat_lt] at enough
    omega

theorem romfsRead_law (fs : Ramfs image) {file : File} (sound : file.Sound) (size : UInt32) :
    ReadLaw fs file size (romfsRead fs file size) := by
  constructor
  · intro missing
    rw [romfsRead, missing]
  · intro place found
    obtain ⟨-, inside⟩ := ramfsFileData_inside found
    have copied := readSize_toNat sound size
    rw [romfsRead, found]
    dsimp only at copied ⊢
    generalize (if (if file.offset < file.entry.size then file.entry.size - file.offset else 0)
      < size then _ else size) = taken at copied ⊢
    have whole := file.entry.size.toNat_lt
    rw [File.Sound, UInt32.le_iff_toNat_le] at sound
    have length : ((image.drop (place + file.offset.toNat)).take taken.toNat).length =
        taken.toNat := by
      rw [List.length_take, List.length_drop]
      omega
    refine ⟨?_, by rw [length, copied], ?_, rfl, ?_⟩
    · rw [bytesAt, bytesAt, List.drop_take, List.drop_drop, List.take_take, copied]
    · rw [length, ← UInt32.toInt32_ofNat', UInt32.ofNat_toNat]
    · rw [length, UInt32.toNat_add, Nat.mod_eq_of_lt (by omega)]

/-! ## Seeks -/

/-- The place an offset counts from. -/
def seekBase (file : File) (whence : UInt8) : Option Nat :=
  if whence = seekSet then some 0
  else if whence = seekCur then some file.offset.toNat
  else if whence = seekEnd then some file.entry.size.toNat
  else none

/-- The sum of base and offset and its parts are numbers of the source's `int32_t`. -/
def SumFits (base : Nat) (offset : Int32) : Prop :=
  base < 2 ^ 31 ∧ base + offset.toInt < 2 ^ 31

/-- Seeking to a sum: an error before the start of the file, else the sum, or the end of the
file if the sum is behind it. -/
def LandsAt (file : File) (sum : Int) (r : Outcome) : Prop :=
  (sum < 0 → r = refuse .inval file) ∧
    (0 ≤ sum →
      r.data = [] ∧ r.file.entry = file.entry ∧
        r.result.toInt = min sum file.entry.size.toNat ∧
        r.file.offset.toNat = min sum.toNat file.entry.size.toNat)

/-- What a seek owes: an error where it does not know the base, else the way to the sum. -/
def SeekLaw (file : File) (offset : Int32) (whence : UInt8) (r : Outcome) : Prop :=
  (seekBase file whence = none → r = refuse .inval file) ∧
    ∀ base, seekBase file whence = some base → SumFits base offset →
      LandsAt file (base + offset.toInt) r

theorem toInt32_toInt {n : UInt32} (small : n.toNat < 2 ^ 31) : n.toInt32.toInt = n.toNat := by
  have word : n.toInt32.toInt = n.toBitVec.toInt := rfl
  rw [word, BitVec.toInt_eq_toNat_of_lt (by rw [UInt32.toNat_toBitVec]; omega),
    UInt32.toNat_toBitVec]

theorem toUInt32_toNat {n : Int32} (nonneg : ¬ n < 0) : (n.toUInt32.toNat : Int) = n.toInt := by
  rw [Int32.not_lt] at nonneg
  rw [Int32.toNat_toUInt32_of_le nonneg]
  rw [Int32.le_iff_toInt_le] at nonneg
  exact Int.toNat_of_nonneg nonneg

/-- A sum that fits is the sum. -/
theorem add_toInt {base offset : Int32} (low : 0 ≤ base.toInt)
    (fits : base.toInt + offset.toInt < 2 ^ 31) :
    (base + offset).toInt = base.toInt + offset.toInt := by
  have least := offset.le_toInt
  rw [Int32.toInt_add]
  exact Int.bmod_eq_of_le (by omega) (by omega)

theorem seekFrom_sound {file : File} (base offset : Int32) (sound : file.Sound) :
    (seekFrom file base offset).file.Sound := by
  rw [seekFrom]
  split
  · exact sound
  · rename_i nonneg
    dsimp only [File.Sound]
    split
    · rw [UInt32.toUInt32_toInt32]
      exact UInt32.le_refl _
    · rename_i within
      exact UInt32.not_lt.mp within

/-- A seek from a base that is a number of the source's `int32_t`. -/
theorem seekFrom_lands {file : File} {base offset : Int32} (low : 0 ≤ base.toInt)
    (fits : base.toInt + offset.toInt < 2 ^ 31) :
    LandsAt file (base.toInt + offset.toInt) (seekFrom file base offset) := by
  have sum := add_toInt low fits
  have sign : base + offset < 0 ↔ base.toInt + offset.toInt < 0 := by
    rw [Int32.lt_iff_toInt_lt, sum]
    rfl
  constructor
  · intro negative
    rw [seekFrom]
    exact if_pos (sign.mpr negative)
  · intro nonneg
    have stays : ¬ base + offset < 0 := fun less => by
      have := sign.mp less
      omega
    have place := toUInt32_toNat stays
    rw [sum] at place
    rw [seekFrom, if_neg stays]
    refine ⟨rfl, rfl, ?_⟩
    dsimp only
    split
    · rename_i beyond
      rw [UInt32.lt_iff_toNat_lt] at beyond
      rw [toInt32_toInt (by omega), UInt32.toUInt32_toInt32]
      constructor
      · omega
      · omega
    · rename_i within
      rw [UInt32.lt_iff_toNat_lt] at within
      rw [sum]
      constructor
      · omega
      · omega

theorem romfsLseek_sound {file : File} (offset : Int32) (whence : UInt8) (sound : file.Sound) :
    (romfsLseek file offset whence).file.Sound := by
  rw [romfsLseek]
  split
  · exact seekFrom_sound _ _ sound
  · split
    · exact seekFrom_sound _ _ sound
    · split
      · exact seekFrom_sound _ _ sound
      · exact sound

theorem romfsLseek_law (file : File) (offset : Int32) (whence : UInt8) :
    SeekLaw file offset whence (romfsLseek file offset whence) := by
  have lands : ∀ {base : Int32} {place : Nat}, base.toInt = place → SumFits place offset →
      LandsAt file (place + offset.toInt) (seekFrom file base offset) := by
    intro base place same fits
    rw [← same]
    exact seekFrom_lands (by omega) (by rw [same]; exact fits.2)
  rw [SeekLaw, seekBase, romfsLseek]
  by_cases set : whence = seekSet
  · rw [if_pos set, if_pos set]
    refine ⟨nofun, ?_⟩
    rintro base ⟨⟩ fits
    exact lands rfl fits
  rw [if_neg set, if_neg set]
  by_cases cur : whence = seekCur
  · rw [if_pos cur, if_pos cur]
    refine ⟨nofun, ?_⟩
    rintro base ⟨⟩ fits
    exact lands (toInt32_toInt fits.1) fits
  rw [if_neg cur, if_neg cur]
  by_cases end_ : whence = seekEnd
  · rw [if_pos end_, if_pos end_]
    refine ⟨nofun, ?_⟩
    rintro base ⟨⟩ fits
    exact lands (toInt32_toInt fits.1) fits
  · rw [if_neg end_, if_neg end_]
    exact ⟨fun _ => rfl, nofun⟩

/-! ## Runs -/

theorem perform_sound (fs : Ramfs image) {file : File} (act : Action) (sound : file.Sound) :
    (perform fs file act).file.Sound := by
  cases act with
  | seek offset whence => exact romfsLseek_sound offset whence sound
  | read size =>
    obtain ⟨refused, law⟩ := romfsRead_law fs sound size
    change (romfsRead fs file size).file.Sound
    cases found : ramfsFileData fs file.entry with
    | none =>
      rw [refused found]
      exact sound
    | some place =>
      obtain ⟨-, length, -, entry, position⟩ := law place found
      rw [File.Sound, UInt32.le_iff_toNat_le] at sound ⊢
      rw [entry, position, length]
      omega

theorem perform_entry (fs : Ramfs image) (file : File) (act : Action) :
    (perform fs file act).file.entry = file.entry := by
  have from_ : ∀ base offset, (seekFrom file base offset).file.entry = file.entry := by
    intro base offset
    rw [seekFrom]
    split
    · rfl
    · rfl
  cases act with
  | read size =>
    rw [perform, romfsRead]
    split
    · rfl
    · rfl
  | seek offset whence =>
    rw [perform, romfsLseek]
    split
    · exact from_ _ _
    · split
      · exact from_ _ _
      · split
        · exact from_ _ _
        · rfl

theorem fileAfter_entry (fs : Ramfs image) (entry : Entry) (acts : List Action) :
    (fileAfter fs entry acts).entry = entry := by
  induction acts using List.reverseRec with
  | nil => rfl
  | append_singleton acts act ih =>
    rw [fileAfter, List.foldl_append]
    exact (perform_entry fs _ act).trans ih

theorem fileAfter_sound (fs : Ramfs image) (entry : Entry) (acts : List Action) :
    (fileAfter fs entry acts).Sound := by
  induction acts using List.reverseRec with
  | nil => exact UInt32.zero_le
  | append_singleton acts act ih =>
    rw [fileAfter, List.foldl_append]
    exact perform_sound fs act ih

/-- The entry is in the image, and so is the range of its data where the image gives it out;
after any calls on the file the position is in the file and the next call is as it should be. -/
structure Safe (fs : Ramfs image) (index : Nat) : Prop where
  listed : headerBytes + index * entryBytes + entryBytes ≤ image.length
  data : ∀ place, ramfsFileData fs (entryAt image index) = some place →
    DataInside fs (entryAt image index) place
  position : ∀ acts,
    (fileAfter fs (entryAt image index) acts).entry = entryAt image index ∧
      (fileAfter fs (entryAt image index) acts).offset ≤ (entryAt image index).size
  reads : ∀ acts size, ReadLaw fs (fileAfter fs (entryAt image index) acts) size
    (romfsRead fs (fileAfter fs (entryAt image index) acts) size)
  seeks : ∀ acts offset whence,
    SeekLaw (fileAfter fs (entryAt image index) acts) offset whence
      (romfsLseek (fileAfter fs (entryAt image index) acts) offset whence)

/-- Whatever image is mounted, its files can be read and sought in. -/
theorem romfs_safe (image : List UInt8) :
    ∀ fs ∈ ramfsMount image, ∀ index < fs.header.entryCount.toNat, Safe fs index := by
  intro fs _ index listed
  have sound := fileAfter_sound fs (entryAt image index)
  exact
    { listed := fs.entry_inside listed
      data := fun _ found => ramfsFileData_inside found
      position := by
        intro acts
        have entry := fileAfter_entry fs (entryAt image index) acts
        have within := sound acts
        rw [File.Sound, entry] at within
        exact ⟨entry, within⟩
      reads := fun acts size => romfsRead_law fs (sound acts) size
      seeks := fun _ offset whence => romfsLseek_law _ offset whence }

/-! ## An image -/

/-- Two regular files: four bytes of data, and a range that is not in the image. -/
def sampleImage : List UInt8 :=
  [0x53, 0x4e, 0x52, 0x46, 1, 0, 208, 0, 2, 0, 0, 0, 0xb4, 1, 0, 0, 4, 0, 0, 0]
    ++ List.replicate 192 0 ++ [1, 0, 0, 0, 0, 0, 0, 0, 4, 0, 0, 0, 0, 0, 0, 0]
    ++ List.replicate 192 0 ++ [1, 0, 0, 0, 0xff, 0xff, 0xff, 0xff, 4, 0, 0, 0, 0, 0, 0, 0]
    ++ [1, 2, 3, 4]

theorem sampleImage_mounts : (ramfsMount sampleImage).isSome := by
  decide +kernel

theorem sampleImage_header : headerAt sampleImage =
    { magic := ramfsMagic, version := ramfsVersion, entrySize := 208, entryCount := 2,
      dataOffset := 436, dataSize := 4 } := by
  decide

theorem romfs_safe_sample : ∃ fs : Ramfs sampleImage,
    ramfsMount sampleImage = some fs ∧ Safe fs 0 := by
  obtain ⟨fs, mounted⟩ := Option.isSome_iff_exists.mp sampleImage_mounts
  refine ⟨fs, mounted, romfs_safe sampleImage fs mounted 0 ?_⟩
  rw [fs.read, sampleImage_header]
  decide

/-- The mount accepts a regular file that is not in the image, and the seek refuses a place
before the start of the file. -/
theorem mount_keeps_stray_file : ∃ fs : Ramfs sampleImage,
    ramfsMount sampleImage = some fs ∧
      1 < fs.header.entryCount.toNat ∧ (entryAt sampleImage 1).type = ramfsTypeReg ∧
      sampleImage.length < fs.header.dataOffset.toNat + (entryAt sampleImage 1).offset.toNat ∧
      romfsLseek { entry := entryAt sampleImage 0 } (-1) seekSet =
        refuse .inval { entry := entryAt sampleImage 0 } := by
  obtain ⟨fs, mounted⟩ := Option.isSome_iff_exists.mp sampleImage_mounts
  refine ⟨fs, mounted, ?_⟩
  rw [fs.read, sampleImage_header]
  decide +kernel

end FuseX.Xfs.RomImage
