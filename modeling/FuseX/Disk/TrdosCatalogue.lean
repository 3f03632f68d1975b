import FuseX.Disk.TrdosTracks
import Mathlib.Data.List.TakeWhile

/-!
# Catalogues of TR-DOS disks

What a TR-DOS disk says of its files, from the bytes of its sectors: the catalogue in
the first eight sectors, the descriptor in the ninth. `Consistent` is a descriptor that
agrees with the catalogue, and `Booted` a disk with one entry more, for a program that
runs the first BASIC file.

`fat_eq` is that `trdos_read_fat` goes over the entries of the catalogue, and `entry_written`
that writing an entry changes that entry only.
-/

namespace FuseX.Disk.Trdos

open Lib TrackWriter

/-! ## Entries -/

/-- Entry `n` of the catalogue. -/
def entry (contents : Nat → List UInt8) (n : Nat) : List UInt8 :=
  ((contents (n / 16)).drop (n % 16 * 16)).take 16

/-- An entry that is in use: of a file or of a deleted one. -/
def used (e : List UInt8) : Bool :=
  e.getD 0 0 ≠ 0

/-- The entries up to the first one that is not in use. -/
def catalogue (contents : Nat → List UInt8) : List (List UInt8) :=
  ((List.range 128).map (entry contents)).takeWhile used

def nameOf (e : List UInt8) : List UInt8 :=
  e.take 8

/-- The entry of a BASIC file. -/
def isBasic (e : List UInt8) : Bool :=
  1 < e.getD 0 0 ∧ e.getD 8 0 = 0x42

/-- The length of a file in sectors. -/
def lengthOf (e : List UInt8) : Nat :=
  (e.getD 13 0).toNat

/-- The first sector of a file, counted from the start of the disk. -/
def firstSectorOf (e : List UInt8) : Nat :=
  16 * (e.getD 15 0).toNat + (e.getD 14 0).toNat

/-! ## The descriptor -/

def descriptor (contents : Nat → List UInt8) (k : Nat) : UInt8 :=
  (contents 8).getD k 0

def fileCount (contents : Nat → List UInt8) : Nat :=
  (descriptor contents 228).toNat

def freeCount (contents : Nat → List UInt8) : Nat :=
  (descriptor contents 229).toNat + (descriptor contents 230).toNat * 0x100

/-- The first free sector, counted from the start of the disk. -/
def firstFree (contents : Nat → List UInt8) : Nat :=
  16 * (descriptor contents 226).toNat + (descriptor contents 225).toNat

/-- The descriptor agrees with the catalogue: it has as many files as there are entries, and the
sectors behind those of the files are free. -/
structure Consistent (tracks : Nat) (contents : Nat → List UInt8) : Prop where
  count : fileCount contents = (catalogue contents).length
  rest : ∀ n, fileCount contents ≤ n → n < 128 → used (entry contents n) = false
  sector : (descriptor contents 225).toNat < 16
  behind : 16 ≤ firstFree contents
  free : firstFree contents + freeCount contents ≤ 16 * tracks
  files : ∀ e ∈ catalogue contents, 16 ≤ firstSectorOf e ∧
    firstSectorOf e + lengthOf e ≤ firstFree contents

/-! ## Programs -/

/-- A string of BASIC up to its closing quote, on one line. -/
def literal : List UInt8 → Option (List UInt8)
  | [] => none
  | c :: cs =>
    if c = 0x22 then some []
    else if c = 0x0d then none
    else (literal cs).map (c :: ·)

/-- The file that the program in a sector runs, from line 1 on. -/
def ran (sector : List UInt8) : Option (List UInt8) :=
  if sector.take 22 = loaderFront ∧ (sector.drop 32).take 4 = trailingData then
    literal ((sector.drop 22).take 10)
  else none

/-! ## What the insertion has to come to -/

/-- Every sector that is not free is as it was. -/
def Unchanged (tracks : Nat) (before after : Nat → List UInt8) : Prop :=
  ∀ n < 16 * tracks, ¬ (firstFree before ≤ n ∧ n < firstFree before + freeCount before) →
    after n = before n

/-- There is one entry more, for a program in a sector that was free; the files are as they were, and
the descriptor agrees with the new catalogue. -/
def Booted (tracks : Nat) (before after : Nat → List UInt8) : Prop :=
  ∃ e first, catalogue after = catalogue before ++ [e] ∧
    (nameOf e = bootName ∧ e.getD 8 0 = 0x42 ∧ lengthOf e = 1 ∧ firstSectorOf e = firstFree before) ∧
    0 < freeCount before ∧
    ((catalogue before).find? isBasic = some first ∧
      ran (after (firstFree before)) = some (nameOf first)) ∧
    (∀ old ∈ catalogue before, ∀ n, firstSectorOf old ≤ n → n < firstSectorOf old + lengthOf old →
      after n = before n) ∧
    Consistent tracks after ∧ fileCount after = fileCount before + 1 ∧
    freeCount after + 1 = freeCount before ∧ firstFree after = firstFree before + 1

/-! ## Catalogues -/

variable {contents contents' : Nat → List UInt8}

theorem takeWhile_range {α : Type*} {f : Nat → α} {p : α → Bool} {m n : Nat} (few : m ≤ n)
    (all : ∀ i < m, p (f i) = true) (last : m < n → p (f m) = false) :
    ((List.range n).map f).takeWhile p = (List.range m).map f := by
  obtain ⟨k, rfl⟩ := Nat.exists_eq_add_of_le few
  have front : ∀ x ∈ (List.range m).map f, p x = true := by
    intro x member
    obtain ⟨i, below, rfl⟩ := List.mem_map.mp member
    exact all i (List.mem_range.mp below)
  rw [List.range_add, List.map_append, List.takeWhile_append_of_pos front]
  cases k with
  | zero => simp
  | succ k =>
    rw [List.range_succ_eq_map, List.map_cons, List.map_cons, List.takeWhile_cons_of_neg, List.append_nil]
    rw [Nat.add_zero, last (by omega)]
    exact Bool.false_ne_true

theorem catalogue_take (contents : Nat → List UInt8) :
    catalogue contents = (List.range (min (catalogue contents).length 128)).map (entry contents) := by
  rw [← List.take_range, List.map_take]
  exact List.prefix_iff_eq_take.mp (List.takeWhile_prefix used)

theorem catalogue_used {e : List UInt8} (member : e ∈ catalogue contents) : used e = true :=
  List.mem_takeWhile_imp member

/-- The entries of a consistent disk are those that are counted. -/
theorem Consistent.entries {tracks : Nat} (consistent : Consistent tracks contents) :
    catalogue contents = (List.range (fileCount contents)).map (entry contents) := by
  have few : (catalogue contents).length ≤ 128 := by
    rw [catalogue_take contents, List.length_map, List.length_range]
    exact Nat.min_le_right _ _
  have taken := catalogue_take contents
  rw [Nat.min_eq_left few, ← consistent.count] at taken
  exact taken

/-- An entry is added behind the last one. -/
theorem Consistent.catalogue_added {tracks : Nat} {e : List UInt8} (consistent : Consistent tracks contents)
    (few : fileCount contents < 128) (inUse : used e = true)
    (added : ∀ n < 128, entry contents' n = if n = fileCount contents then e else entry contents n) :
    catalogue contents' = catalogue contents ++ [e] := by
  have inside : (List.range (fileCount contents + 1)).map (entry contents') = catalogue contents ++ [e] := by
    rw [List.range_succ, List.map_append, List.map_singleton, added _ few, if_pos rfl, consistent.entries]
    congr 1
    apply List.map_congr_left
    intro n member
    have below := List.mem_range.mp member
    rw [added n (Nat.lt_trans below few), if_neg (Nat.ne_of_lt below)]
  rw [← inside]
  apply takeWhile_range few
  · intro n below
    rw [added n (Nat.lt_of_lt_of_le below few)]
    split
    · exact inUse
    · apply @catalogue_used contents
      rw [consistent.entries]
      exact List.mem_map_of_mem (List.mem_range.mpr (by omega))
  · intro more
    rw [added _ more, if_neg (Nat.succ_ne_self _)]
    exact consistent.rest _ (Nat.le_succ _) more

/-! ## Reading the catalogue -/

/-- What `trdos_read_fat` finds in the catalogue. -/
def fat (signed : Bool) (contents : Nat → List UInt8) : BootInfo :=
  readFatFrom signed (fun n k => (entry contents n).getD k 0) 0 128 ⟨false, 0, []⟩

/-- An entry as `trdos_read_dirent` reads it. -/
def dirent (e : List UInt8) : Dirent :=
  readDirent fun k => e.getD k 0

/-- An entry that `trdos_read_fat` takes for a BASIC file. -/
def basicEntry (signed : Bool) (e : List UInt8) : Bool :=
  basicFile signed (dirent e)

theorem readFatFrom_eq {signed : Bool} {left n : Nat} {info : BootInfo} :
    readFatFrom signed (fun n k => (entry contents n).getD k 0) n left info =
      (((List.range' n left).map (entry contents)).takeWhile used).foldl
        (fun info e => info.see signed (dirent e)) info := by
  induction left generalizing n info with
  | zero => rfl
  | succ left ih =>
    rw [readFatFrom, List.range'_succ, List.map_cons]
    by_cases empty : (entry contents n).getD 0 0 = 0
    · rw [if_pos empty, List.takeWhile_cons_of_neg]
      · rfl
      · simp only [used, ne_eq, empty, not_true_eq_false, decide_false, Bool.false_eq_true, not_false_eq_true]
    · rw [if_neg empty, ih, List.takeWhile_cons_of_pos (by simpa [used] using empty), List.foldl_cons]
      rfl

/-- `trdos_read_fat` goes over the entries of the catalogue. -/
theorem fat_eq (signed : Bool) (contents : Nat → List UInt8) :
    fat signed contents =
      (catalogue contents).foldl (fun info e => info.see signed (dirent e)) ⟨false, 0, []⟩ := by
  rw [fat, readFatFrom_eq, catalogue, List.range_eq_range']

variable {signed : Bool} {info : BootInfo}

theorem firstBasicFile_kept (entries : List (List UInt8)) (found : 0 < info.basicFilesCount) :
    (entries.foldl (fun info e => info.see signed (dirent e)) info).firstBasicFile = info.firstBasicFile := by
  induction entries generalizing info with
  | nil => rfl
  | cons e entries ih =>
    rw [List.foldl_cons]
    by_cases basic : basicFile signed (dirent e) = true
    · rw [BootInfo.see, if_pos basic, ih (Nat.succ_pos _)]
      exact if_neg (Nat.ne_of_gt found)
    · rw [BootInfo.see, if_neg basic, ih found]

/-- The first BASIC file is the one whose name is taken. -/
theorem firstBasicFile_found (entries : List (List UInt8)) (fresh : info.basicFilesCount = 0)
    (some : 1 ≤ (entries.foldl (fun info e => info.see signed (dirent e)) info).basicFilesCount) :
    ∃ e, entries.find? (basicEntry signed) = Option.some e ∧
      (entries.foldl (fun info e => info.see signed (dirent e)) info).firstBasicFile =
        (dirent e).filename := by
  induction entries generalizing info with
  | nil =>
    change 1 ≤ info.basicFilesCount at some
    omega
  | cons e entries ih =>
    rw [List.foldl_cons] at some ⊢
    by_cases basic : basicEntry signed e = true
    · refine ⟨e, List.find?_cons_of_pos basic, ?_⟩
      rw [BootInfo.see, if_pos (show basicFile signed (dirent e) = true from basic), firstBasicFile_kept entries (Nat.succ_pos _)]
      exact if_pos fresh
    · rw [BootInfo.see, if_neg (show ¬ basicFile signed (dirent e) = true from basic)] at some ⊢
      rw [List.find?_cons_of_neg basic]
      exact ih fresh some

theorem basicEntry_iff (e : List UInt8) :
    basicEntry signed e = true ↔ isBasic e = true ∧ (signed = true → e.getD 0 0 < 0x80) := by
  have head : (dirent e).filename.headD 0 = e.getD 0 0 := rfl
  have extension : (dirent e).fileExtension = e.getD 8 0 := rfl
  simp only [basicEntry, basicFile, isBasic, head, extension, decide_eq_true_eq]
  exact ⟨fun ⟨more, char, basic⟩ => ⟨⟨more, basic⟩, char⟩, fun ⟨⟨more, basic⟩, char⟩ => ⟨more, char, basic⟩⟩

theorem filename_dirent {e : List UInt8} (long : 8 ≤ e.length) : (dirent e).filename = nameOf e := by
  apply List.ext_getElem
  · rw [nameOf, List.length_take, Nat.min_eq_left long]
    exact @length_readStrip UInt8 (fun k => e.getD k 0) 0 8
  · intro k below _
    have below : k < 8 := by
      rw [show (dirent e).filename.length = 8 from @length_readStrip UInt8 (fun k => e.getD k 0) 0 8] at below
      exact below
    have inside : k < e.length := Nat.lt_of_lt_of_le below long
    simp only [dirent, readDirent, readStrip, nameOf, List.getElem_map, List.getElem_range, List.getElem_take,
      Nat.zero_add, List.getD_eq_getElem?_getD, List.getElem?_eq_getElem inside, Option.getD_some]

/-! ## Writing the catalogue -/

theorem length_bytes {e : Dirent} (named : e.filename.length = 8) : e.bytes.length = 16 := by
  rw [Dirent.bytes, List.length_append, named]
  rfl

/-- The bytes of a sector stand where it is copied to. -/
theorem read_copied {sector : List UInt8} {skipped taken : Nat} (inside : skipped + taken ≤ sector.length) :
    readStrip (overwrite (fun _ => 0) 0 sector) skipped taken = (sector.drop skipped).take taken := by
  have copied := (@Holds.overwritten UInt8 (fun _ => 0) 0 sector).read
  have part := @part_readStrip UInt8 (overwrite (fun _ => 0) 0 sector) 0 sector.length skipped taken inside
  rw [copied, Nat.zero_add] at part
  exact part.symm

/-- Writing an entry to a sector of the catalogue changes that entry only. -/
theorem entry_written {f j : Nat} (sized : (contents f).length = 256) (small : j < 16) {e : Dirent}
    (named : e.filename.length = 8) (n : Nat) :
    entry (Function.update contents f
        (readStrip (writeDirent (overwrite (fun _ => 0) 0 (contents f)) (j * 16) e) 0 256)) n =
      if n = f * 16 + j then e.bytes else entry contents n := by
  have length := length_bytes named
  rw [entry]
  rcases eq_or_ne (n / 16) f with rfl | other
  · have inside : n % 16 * 16 + 16 ≤ 256 := by omega
    rw [Function.update_self, part_readStrip inside, Nat.zero_add, writeDirent]
    by_cases here : n % 16 = j
    · subst here
      rw [if_pos (by omega), ← length]
      exact Holds.overwritten.read
    · rw [if_neg (by omega), entry, ← read_copied (by rw [sized]; exact inside)]
      apply readStrip_congr
      intro k below
      rw [overwrite_elsewhere (by rw [length]; omega)]
  · rw [Function.update_of_ne other, if_neg (by omega), entry]

end FuseX.Disk.Trdos
