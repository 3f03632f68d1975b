import FuseX.Disk.TrdosCatalogue

/-!
# Inserting the boot loader

The program that `insertBootLoader` makes runs what its quotes enclose (`ran_loader`). The
insertion is nothing unless `Inserts` holds, and when the first free sector is on the disk it
writes the program, the entry and the descriptor each to its own sector (`Loaded.inserted`).
-/

namespace FuseX.Disk.Trdos

open Lib TrackWriter

/-! ## The program -/

/-- `head` with the boot loader. -/
def loaderSector (name : List UInt8) : Nat → UInt8 :=
  overwrite (fun _ => 0) 0 (beta128BootLoader name ++ trailingData)

variable {name : List UInt8}

theorem length_loader (named : name.length = 8) : (beta128BootLoader name).length = 32 := by
  rw [beta128BootLoader, List.length_append, List.length_append, named]
  rfl

theorem nextChunk_loader (named : name.length = 8) :
    (nextChunk (beta128BootLoader name) 0).1 = beta128BootLoader name ++ trailingData := by
  have length := length_loader named
  have body : ((beta128BootLoader name).drop 0).take 256 = beta128BootLoader name := by
    rw [List.drop_zero, List.take_of_length_le (by rw [length]; decide)]
  rw [nextChunk, body]
  simp only [length]
  rfl

theorem literal_name (named : List UInt8) :
    literal (named ++ [0x22, 0x0d]) = some named ↔ (0x22 : UInt8) ∉ named ∧ (0x0d : UInt8) ∉ named := by
  induction named with
  | nil => decide
  | cons c named ih =>
    rw [List.cons_append, literal]
    by_cases quote : c = 0x22
    · simp [quote]
    · by_cases enter : c = 0x0d
      · simp [enter]
      · rw [if_neg quote, if_neg enter]
        simp only [Option.map_eq_some_iff, List.cons.injEq, true_and, exists_eq_right, List.mem_cons, not_or]
        rw [ih]
        exact ⟨fun ⟨quoteless, enterless⟩ =>
            ⟨⟨fun same => quote same.symm, quoteless⟩, fun same => enter same.symm, enterless⟩,
          fun ⟨⟨_, quoteless⟩, _, enterless⟩ => ⟨quoteless, enterless⟩⟩

/-- A string is what stands before the quote. -/
theorem literal_front {line string : List UInt8} (ends : literal line = some string) :
    ∃ rest, line = string ++ rest := by
  induction line generalizing string with
  | nil => cases ends
  | cons c line ih =>
    rw [literal] at ends
    split at ends
    · cases ends
      exact ⟨_, rfl⟩
    split at ends
    · cases ends
    · obtain ⟨front, inner, rfl⟩ := Option.map_eq_some_iff.mp ends
      obtain ⟨rest, rfl⟩ := ih inner
      exact ⟨rest, rfl⟩

/-- The program runs what its quotes enclose. -/
theorem ran_loader (named : name.length = 8) :
    ran (readStrip (loaderSector name) 0 256) = literal (name ++ [0x22, 0x0d]) := by
  have holds : Holds (loaderSector name) 0 (loaderFront ++ (name ++ [0x22, 0x0d]) ++ trailingData) := by
    have written := @Holds.overwritten UInt8 (fun _ => 0) 0 (beta128BootLoader name ++ trailingData)
    rw [beta128BootLoader, List.append_assoc loaderFront] at written
    exact written
  obtain ⟨front, trailing⟩ := Holds.append.mp holds
  obtain ⟨front, line⟩ := Holds.append.mp front
  have length : (name ++ [0x22, 0x0d]).length = 10 := by
    rw [List.length_append, named]
    rfl
  have total : 0 + (loaderFront ++ (name ++ [0x22, 0x0d])).length = 32 := by
    rw [List.length_append, length]
    rfl
  have front : readStrip (loaderSector name) 0 22 = loaderFront := front.read
  have line := line.read
  have trailing := trailing.read
  rw [length] at line
  rw [total] at trailing
  have whole : (readStrip (loaderSector name) 0 256).take 22 = readStrip (loaderSector name) 0 22 := by
    rw [← List.drop_zero (l := readStrip (loaderSector name) 0 256), part_readStrip (by decide)]
  rw [ran, whole, part_readStrip (by decide), part_readStrip (by decide), front]
  rw [if_pos ⟨rfl, trailing⟩]
  exact congrArg literal line

/-! ## The writes -/

variable {contents : Nat → List UInt8} {disk : DiskT} {memory : Nat → Surface} {spec : Spec}

theorem DiskT.cylinders_write (disk : DiskT) (t slot : Nat) (head : Nat → UInt8) :
    (disk.write t slot head).cylinders = disk.cylinders :=
  rfl

/-- The loader is one sector long. -/
theorem insertBasicFile_loader (named : name.length = 8) (few : spec.fileCount.toNat < 128)
    (room : 1 ≤ spec.freeSectors.toNat) :
    insertBasicFile disk spec (beta128BootLoader name) =
      let t := spec.firstFreeTrack.toNat
      let written := disk.write t (slotOf spec.firstFreeSector.toNat) (loaderSector name)
      let s := (spec.firstFreeSector.toNat + 1) % 16
      if s = 0 then
        if disk.cylinders ≤ t + 1 then written else writeCatalogue written spec 32 1 0 (t + 1)
      else writeCatalogue written spec 32 1 s t := by
  have below : ¬ 128 ≤ spec.fileCount := by
    rw [UInt8.le_iff_toNat_le]
    exact Nat.not_le.mpr few
  have length := length_loader named
  have one : ((beta128BootLoader name).length + trailingData.length + 255) / 256 = 1 := by
    rw [length]
    rfl
  simp only [insertBasicFile, one, if_neg below, if_neg (Nat.not_lt.mpr room), writeFile, nextChunk_loader named,
    DiskT.cylinders_write]
  by_cases last : (spec.firstFreeSector.toNat + 1) % 16 = 0
  · rw [if_pos last, if_pos last]
    by_cases behind : disk.cylinders ≤ spec.firstFreeTrack.toNat + 1
    · rw [if_pos behind, if_pos behind]
      rfl
    · rw [if_neg behind, if_neg behind, last, length]
      rfl
  · rw [if_neg last, if_neg last, length]
    rfl

/-! ## What is read -/

theorem readSpec_congr {src src' : Nat → UInt8} (same : ∀ k < 256, src k = src' k) :
    readSpec src = readSpec src' := by
  have password : readStrip src 234 9 = readStrip src' 234 9 :=
    readStrip_congr fun k below => same _ (by omega)
  have label : readStrip src 245 8 = readStrip src' 245 8 :=
    readStrip_congr fun k below => same _ (by omega)
  rw [readSpec, readSpec, password, label, same 0 (by decide), same 231 (by decide), same 225 (by decide),
    same 226 (by decide), same 227 (by decide), same 228 (by decide), same 229 (by decide), same 230 (by decide),
    same 244 (by decide)]

theorem toNat_word (low high : UInt8) : (word low high).toNat = low.toNat + high.toNat * 0x100 := by
  have first := low.toNat_lt
  have second := high.toNat_lt
  rw [word, UInt16.toNat_ofNat']
  exact Nat.mod_eq_of_lt (by omega)

/-- What the specification says is what the descriptor says. -/
theorem readSpec_some (read : readSpec (descriptor contents) = some spec) :
    16 * spec.firstFreeTrack.toNat + spec.firstFreeSector.toNat = firstFree contents ∧
      spec.firstFreeTrack = descriptor contents 226 ∧ spec.firstFreeSector = descriptor contents 225 ∧
      spec.fileCount.toNat = fileCount contents ∧ spec.freeSectors.toNat = freeCount contents := by
  unfold readSpec at read
  split at read
  · cases read
  split at read
  · cases read
  · cases read
    exact ⟨rfl, rfl, rfl, rfl, toNat_word _ _⟩

theorem readFatFrom_congr {signed : Bool} {entries entries' : Nat → Nat → UInt8} {left n : Nat} {info : BootInfo}
    (same : ∀ i, n ≤ i → i < n + left → ∀ k < 16, entries i k = entries' i k) :
    readFatFrom signed entries n left info = readFatFrom signed entries' n left info := by
  induction left generalizing n info with
  | zero => rfl
  | succ left ih =>
    have here := same n (Nat.le_refl n) (by omega)
    have rest : ∀ info, readFatFrom signed entries (n + 1) left info = readFatFrom signed entries' (n + 1) left info :=
      fun info => ih fun i above below => same i (by omega) (by omega)
    have name : readStrip (entries n) 0 8 = readStrip (entries' n) 0 8 :=
      readStrip_congr fun k below => here _ (by omega)
    have read : readDirent (entries n) = readDirent (entries' n) := by
      rw [readDirent, readDirent, name, here 8 (by decide), here 9 (by decide), here 10 (by decide),
        here 11 (by decide), here 12 (by decide), here 13 (by decide), here 14 (by decide), here 15 (by decide)]
    rw [readFatFrom, readFatFrom, here 0 (by decide), read, rest]

/-- When the boot loader is inserted: the descriptor is one of TR-DOS, there is room, and the catalogue
has BASIC files but no boot file. -/
structure Inserts (signed : Bool) (contents : Nat → List UInt8) : Prop where
  read : (readSpec (descriptor contents)).isSome
  few : fileCount contents < 128
  room : 0 < freeCount contents
  noBoot : (fat signed contents).haveBootFile = false
  basic : 1 ≤ (fat signed contents).basicFilesCount

variable {signed : Bool}

theorem Loaded.system (loaded : Loaded disk contents memory) :
    TrdTrack disk.sides 0 (disk.track 0) contents := by
  have track := loaded.track 0 (Nat.lt_of_lt_of_le (by decide) loaded.tracks_pos)
  exact track.congr fun k _ => congrArg contents (by omega)

theorem Loaded.seeks_spec (loaded : Loaded disk contents memory) :
    ((seekData (disk.track 0) 9).bind fun d => readSpec (dataAt d)) = readSpec (descriptor contents) := by
  rw [loaded.system.seeks (show 8 < 16 by decide), Option.bind_some]
  exact readSpec_congr fun k below => loaded.system.byte (by decide) below

theorem Loaded.reads_fat (loaded : Loaded disk contents memory) :
    readFat signed (dataAt { disk.track 0 with i := dataPlace 0 }) sectorLen = fat signed contents := by
  apply readFatFrom_congr
  intro n _ few k below
  have sector : n / 16 < 16 := by omega
  have slot : slotOf (n / 16) = 2 * (n / 16) := by
    rw [slotOf]
    omega
  have place : dataPlace 0 + (n / 16 * sectorLen * 2 + n % 16 * 16 + k) =
      dataPlace (n / 16) + (n % 16 * 16 + k) := by
    rw [dataPlace, dataPlace, slot, show slotOf 0 = 0 from rfl]
    ring
  have byte := loaded.system.byte sector (show n % 16 * 16 + k < 256 by omega)
  rw [← place] at byte
  have part : (entry contents n).getD k 0 = (contents (n / 16)).getD (n % 16 * 16 + k) 0 := by
    rw [entry, List.getD_eq_getElem?_getD, List.getElem?_take_of_lt below, List.getElem?_drop,
      List.getD_eq_getElem?_getD]
  rw [part]
  exact byte

theorem insertBootLoader_none (loaded : Loaded disk contents memory) (nothing : ¬ Inserts signed contents) :
    insertBootLoader signed disk = disk := by
  rw [insertBootLoader, loaded.seeks_spec, loaded.system.seeks (show 0 < 16 by decide)]
  cases read : readSpec (descriptor contents) with
  | none => rfl
  | some spec =>
    obtain ⟨_, _, _, files, free⟩ := readSpec_some read
    simp only [loaded.reads_fat]
    split
    · rfl
    rename_i few
    split
    · rfl
    rename_i room
    split
    · rfl
    rename_i noBoot
    split
    · rename_i basic
      refine absurd ⟨by rw [read]; rfl, ?_, ?_, Bool.eq_false_iff.mpr noBoot, basic⟩ nothing
      · rw [UInt8.le_iff_toNat_le] at few
        rw [← files]
        exact Nat.not_le.mp few
      · rw [← free]
        exact Nat.pos_of_ne_zero fun zero => room (UInt16.toNat_inj.mp zero)
    · rfl

theorem insertBootLoader_some (loaded : Loaded disk contents memory) (inserts : Inserts signed contents) :
    ∃ spec, readSpec (descriptor contents) = some spec ∧
      insertBootLoader signed disk =
        insertBasicFile disk spec (beta128BootLoader (fat signed contents).firstBasicFile) := by
  obtain ⟨spec, read⟩ := Option.isSome_iff_exists.mp inserts.read
  obtain ⟨_, _, _, files, free⟩ := readSpec_some read
  have few : ¬ 128 ≤ spec.fileCount := by
    rw [UInt8.le_iff_toNat_le, files]
    exact Nat.not_le.mpr inserts.few
  have room : spec.freeSectors ≠ 0 := by
    rintro zero
    rw [zero] at free
    exact Nat.ne_of_gt inserts.room free.symm
  refine ⟨spec, read, ?_⟩
  rw [insertBootLoader, loaded.seeks_spec, loaded.system.seeks (show 0 < 16 by decide), read]
  simp only [loaded.reads_fat, if_neg few, if_neg room, inserts.noBoot, if_pos inserts.basic]
  rfl

/-! ## What is written -/

/-- The specification with one file more. -/
def Spec.added (spec : Spec) (nSec s t : Nat) : Spec :=
  { spec with
    fileCount := spec.fileCount + 1
    freeSectors := spec.freeSectors - UInt16.ofNat nSec
    firstFreeSector := UInt8.ofNat s
    firstFreeTrack := UInt8.ofNat t }

/-- The sectors after `writeCatalogue`. -/
def catalogued (contents : Nat → List UInt8) (spec : Spec) (size nSec s t : Nat) : Nat → List UInt8 :=
  let fatSector := spec.fileCount.toNat / 16
  let head := writeDirent (overwrite (fun _ => 0) 0 (contents fatSector)) (spec.fileCount.toNat % 16 * 16)
    (fileEntry spec size nSec)
  Function.update (Function.update contents fatSector (readStrip head 0 256)) 8
    (readStrip (writeSpec (spec.added nSec s t)) 0 256)

theorem Loaded.catalogued {size nSec s t : Nat} (loaded : Loaded disk contents memory)
    (few : spec.fileCount.toNat < 128) :
    Loaded (writeCatalogue disk spec size nSec s t) (catalogued contents spec size nSec s t) memory := by
  have positive : 0 < disk.tracks := Nat.lt_of_lt_of_le (by decide) loaded.tracks_pos
  have sector : spec.fileCount.toNat / 16 < 16 := by omega
  have copied : catalogueSector disk (spec.fileCount.toNat / 16) =
      overwrite (fun _ => 0) 0 (contents (spec.fileCount.toNat / 16)) := by
    have read := loaded.system.reads sector
    rw [dataPlace] at read
    rw [catalogueSector, read]
  have entered := loaded.write positive sector
    (writeDirent (overwrite (fun _ => 0) 0 (contents (spec.fileCount.toNat / 16)))
      (spec.fileCount.toNat % 16 * 16) (fileEntry spec size nSec))
  have described := entered.write positive (show 8 < 16 by decide) (writeSpec (spec.added nSec s t))
  rw [Nat.zero_mul, Nat.zero_add, Nat.zero_add] at described
  rw [writeCatalogue, copied]
  exact described

/-- The sectors after the boot loader has been inserted. -/
def inserted (contents : Nat → List UInt8) (spec : Spec) (name : List UInt8) (s t : Nat) : Nat → List UInt8 :=
  catalogued (Function.update contents (firstFree contents) (readStrip (loaderSector name) 0 256)) spec 32 1 s t

/-- The first free sector is the last one that the loop of `insertBasicFile` comes to. -/
def lastSector (cylinders : Nat) (contents : Nat → List UInt8) : Prop :=
  (descriptor contents 225).toNat = 15 ∧ cylinders ≤ (descriptor contents 226).toNat + 1

/-- What the insertion comes to when the first free sector is on the disk. -/
theorem Loaded.inserted (loaded : Loaded disk contents memory) (named : name.length = 8)
    (read : readSpec (descriptor contents) = some spec) (few : fileCount contents < 128)
    (room : 0 < freeCount contents) (sector : (descriptor contents 225).toNat < 16)
    (inside : (descriptor contents 226).toNat < disk.tracks) :
    (lastSector disk.cylinders contents →
      Loaded (insertBasicFile disk spec (beta128BootLoader name))
        (Function.update contents (firstFree contents) (readStrip (loaderSector name) 0 256)) memory) ∧
    (¬ lastSector disk.cylinders contents →
      ∃ s t, s < 16 ∧ t < 256 ∧ 16 * t + s = firstFree contents + 1 ∧
        Loaded (insertBasicFile disk spec (beta128BootLoader name)) (inserted contents spec name s t)
          memory) := by
  obtain ⟨_, track, place, files, free⟩ := readSpec_some read
  rw [← files] at few
  rw [← free] at room
  rw [insertBasicFile_loader named few room, track, place]
  have first : (descriptor contents 226).toNat * 16 + (descriptor contents 225).toNat = firstFree contents := by
    rw [firstFree]
    omega
  have written := loaded.write inside sector (loaderSector name)
  rw [first] at written
  have most := loaded.tracks_le
  refine ⟨fun last => ?_, fun more => ?_⟩
  · simp only [last.1, if_pos last.2]
    rw [last.1] at written
    exact written
  · simp only
    by_cases turn : ((descriptor contents 225).toNat + 1) % 16 = 0
    · have fifteen : (descriptor contents 225).toNat = 15 := by omega
      have next : ¬ disk.cylinders ≤ (descriptor contents 226).toNat + 1 := fun behind => more ⟨fifteen, behind⟩
      rw [if_pos turn, if_neg next]
      exact ⟨0, _, by decide, by omega, by omega, written.catalogued few⟩
    · rw [if_neg turn]
      exact ⟨_, _, Nat.mod_lt _ (by decide), UInt8.toNat_lt _, by omega, written.catalogued few⟩

/-- Behind the disk, only the first free track is written. -/
theorem insertBasicFile_behind {i : Nat} (named : name.length = 8) (few : spec.fileCount.toNat < 128)
    (room : 1 ≤ spec.freeSectors.toNat) (system : i ≠ 0) (other : i ≠ spec.firstFreeTrack.toNat) :
    (insertBasicFile disk spec (beta128BootLoader name)).track i = disk.track i := by
  rw [insertBasicFile_loader named few room]
  simp only
  split
  · split
    · exact DiskT.track_write_ne other
    · rw [writeCatalogue, DiskT.track_write_ne system, DiskT.track_write_ne system]
      exact DiskT.track_write_ne other
  · rw [writeCatalogue, DiskT.track_write_ne system, DiskT.track_write_ne system]
    exact DiskT.track_write_ne other

/-- There it is written. -/
theorem insertBasicFile_free (named : name.length = 8) (few : spec.fileCount.toNat < 128)
    (room : 1 ≤ spec.freeSectors.toNat) (system : spec.firstFreeTrack.toNat ≠ 0) :
    (insertBasicFile disk spec (beta128BootLoader name)).track spec.firstFreeTrack.toNat =
      (disk.write spec.firstFreeTrack.toNat (slotOf spec.firstFreeSector.toNat) (loaderSector name)).track
        spec.firstFreeTrack.toNat := by
  rw [insertBasicFile_loader named few room]
  simp only
  split
  · split
    · rfl
    · rw [writeCatalogue, DiskT.track_write_ne system, DiskT.track_write_ne system]
  · rw [writeCatalogue, DiskT.track_write_ne system, DiskT.track_write_ne system]

end FuseX.Disk.Trdos
