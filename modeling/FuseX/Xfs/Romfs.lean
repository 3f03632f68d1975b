import Mathlib.Data.List.DropRight
import Mathlib.Data.List.Find
import Mathlib.Data.List.Nodup
import FuseX.Xfs.Fs

/-!
# The ROM file system engine

`xfs_romfs.c` serves the flat entry table of an image that `ramfs.c` searches:
every entry names the directory it is in by the text of its path.

An image is a `RamfsImage`: its table describes a tree. The parent of an entry
is the root or a directory of the table, no two entries have one path, and the
names and parents fit their fields.
-/

namespace FuseX.Xfs

open Lib

/-! ## The image -/

/-- `RAMFS_NAME_MAX` and `RAMFS_PARENT_MAX`, terminators included. -/
def ramfsNameMax : Nat := 64
def ramfsParentMax : Nat := 128

/-- `ramfs_entry_t`. The place of the data is left out. -/
structure RamfsEntry : Type where
  parent : CString
  name : CString
  type : XfsType
  size : UInt32
  mtime : UInt32 := 0
  deriving DecidableEq, Repr

/-- The text `entry_full_path` writes. -/
def RamfsEntry.fullText (entry : RamfsEntry) : CString :=
  if entry.parent = [slash] then slash :: entry.name
  else entry.parent ++ slash :: entry.name

/-- `entry_full_path`. -/
def entryFullPath (entry : RamfsEntry) (outSize : Nat) : Option CString :=
  if entry.fullText.length < outSize then some entry.fullText else none

/-- The entry table of a mounted image. -/
structure RamfsImage : Type where
  entries : List RamfsEntry
  named : ∀ entry ∈ entries, IsName entry.name ∧ entry.name.length < ramfsNameMax
  parented : ∀ entry ∈ entries, entry.parent.length < ramfsParentMax ∧
    (entry.parent = [slash] ∨
      ∃ above ∈ entries, above.type = .dir ∧ above.fullText = entry.parent)
  unique : (entries.map (·.fullText)).Nodup

/-! ## The table search -/

/-- `normalize_path`: one slash in front, none at the end, cut to the buffer. -/
def normalizePath (path : CString) (outSize : Nat) : CString :=
  if path = [] ∨ path = [slash] then [slash]
  else
    let copied := (path.dropWhile (· == slash)).take (outSize - 2)
    slash :: copied.rdropWhile (· == slash)

/-- `ramfs_find`. -/
def ramfsFind (image : RamfsImage) (path : CString) : Option RamfsEntry :=
  let wanted := normalizePath path xfsPathMax
  if wanted = [slash] then none
  else image.entries.find? fun entry => entryFullPath entry xfsPathMax = some wanted

/-- `ramfs_opendir`: the path a later `ramfs_readdir` compares with. -/
def ramfsOpendir (image : RamfsImage) (path : CString) : Option CString :=
  let wanted := normalizePath path xfsPathMax
  if wanted = [slash] then some wanted
  else
    match ramfsFind image wanted with
    | some entry => if entry.type = .dir then some wanted else none
    | none => none

/-- The entries `ramfs_readdir` returns after an `ramfs_opendir`. -/
def ramfsReaddir (image : RamfsImage) (dirPath : CString) : List RamfsEntry :=
  image.entries.filter (·.parent = dirPath)

/-! ## The engine -/

/-- The record `romfs_stat` and `romfs_readdir` fill in from an entry. -/
def romfsStatInfo (entry : RamfsEntry) : XfsStatInfo where
  type := entry.type
  storage := .system
  size := entry.size
  mtime := entry.mtime
  ctime := entry.mtime
  name := statName entry.name

/-- `romfs_stat`. -/
def romfsStat (image : RamfsImage) (path : CString) : Except XfsError XfsStatInfo :=
  if path = [] ∨ path = [slash] then
    .ok { type := .dir, storage := .system, size := 0, name := [slash] }
  else
    match ramfsFind image path with
    | some entry => .ok (romfsStatInfo entry)
    | none => .error .noent

/-- `romfs_opendir` and the records `romfs_readdir` then returns. -/
def romfsOpendir (image : RamfsImage) (path : CString) : Except XfsError (List XfsStatInfo) :=
  match ramfsOpendir image path with
  | some dirPath => .ok ((ramfsReaddir image dirPath).map romfsStatInfo)
  | none => .error .noent

/-- `romfs_open`: anything but reading is refused. -/
def romfsOpen (image : RamfsImage) (path : CString) (flags : UInt32) : Except XfsError Unit :=
  if writeMode flags || hasFlag flags xfsOCreat || hasFlag flags xfsOTrunc ||
      hasFlag flags xfsOAppend then
    .error (.errno 100)
  else
    match ramfsFind image path with
    | none => .error .noent
    | some entry => if entry.type = .dir then .error .isdir else .ok ()

/-- `romfs_unlink`, `romfs_mkdir`, `romfs_rmdir`, `romfs_rename`. -/
def romfsUnlink : Except XfsError Unit := .error .inval
def romfsMkdir : Except XfsError Unit := .error .inval
def romfsRmdir : Except XfsError Unit := .error .inval
def romfsRename : Except XfsError Unit := .error .inval

/-! ## Canonical paths -/

theorem pathText_root : pathText [] = [slash] := rfl

theorem pathText_of_ne_nil {path : List Name} (nonroot : path ≠ []) :
    pathText path = join slash (path.map (·.val)) := by
  have named : path.map (·.val) ≠ [] := mt List.map_eq_nil_iff.mp nonroot
  rw [pathText, CanonicalPath.render, if_neg named]

theorem pathText_child (parent : List Name) (name : Name) :
    pathText (parent ++ [name]) = join slash (parent.map (·.val)) ++ slash :: name.val := by
  rw [pathText_of_ne_nil (by simp)]
  simp

theorem slash_not_mem (name : Name) : slash ∉ name.val :=
  name.property.2.2.2

theorem pathText_ne_nil (path : List Name) : pathText path ≠ [] := by
  by_cases root : path = []
  · subst root
    simp [pathText_root]
  · rcases List.eq_nil_or_concat' path with rfl | ⟨parent, name, rfl⟩
    · exact absurd rfl root
    · simp [pathText_child]

theorem pathText_child_ne_slash (parent : List Name) (name : Name) :
    pathText (parent ++ [name]) ≠ [slash] := by
  intro same
  rw [pathText_child] at same
  have nameEmpty : name.val = [] := by
    rcases List.append_eq_singleton_iff.mp same with ⟨-, tail⟩ | ⟨-, tail⟩
    · exact (List.cons.inj tail).2
    · cases tail
  exact name.property.1 nameEmpty

theorem pathText_ne_slash {path : List Name} (nonroot : path ≠ []) : pathText path ≠ [slash] := by
  rcases List.eq_nil_or_concat' path with rfl | ⟨parent, name, rfl⟩
  · exact absurd rfl nonroot
  · exact pathText_child_ne_slash parent name

/-- Two texts with the same last component have the same front. -/
theorem append_slash_inj {front front' last last' : CString} (free : slash ∉ last)
    (free' : slash ∉ last') (same : front ++ slash :: last = front' ++ slash :: last') :
    front = front' ∧ last = last' := by
  rcases List.append_eq_append_iff.mp same with ⟨middle, rfl, tail⟩ | ⟨middle, rfl, tail⟩
  · cases middle with
    | nil => exact ⟨by simp, by simpa using tail⟩
    | cons head middle =>
      have member : slash ∈ last := by
        have := congrArg List.tail tail
        simp only [List.tail_cons, List.cons_append] at this
        rw [this]
        simp
      exact absurd member free
  · cases middle with
    | nil => exact ⟨by simp, by simpa using tail.symm⟩
    | cons head middle =>
      have member : slash ∈ last' := by
        have := congrArg List.tail tail
        simp only [List.tail_cons, List.cons_append] at this
        rw [this]
        simp
      exact absurd member free'

/-- Below the root a canonical text is one slash and a text that neither starts
nor ends with one. -/
theorem pathText_shape {path : List Name} (nonroot : path ≠ []) :
    ∃ text, pathText path = slash :: text ∧ text.head? ≠ some slash ∧
      text.getLast? ≠ some slash := by
  obtain ⟨first, rest, rfl⟩ := List.exists_cons_of_ne_nil nonroot
  refine ⟨first.val ++ join slash (rest.map (·.val)), ?_, ?_, ?_⟩
  · rw [pathText_of_ne_nil (by simp)]
    rfl
  · rcases head : first.val with _ | ⟨byte, bytes⟩
    · exact absurd head first.property.1
    · intro starts
      have member : slash ∈ first.val := by
        rw [head]
        simp at starts
        simp [starts]
      exact slash_not_mem first member
  · rcases List.eq_nil_or_concat' rest with rfl | ⟨middle, last, rfl⟩
    · intro ends
      exact slash_not_mem first (List.mem_of_getLast? (by simpa using ends))
    · intro ends
      have splits : first.val ++ join slash ((middle ++ [last]).map (·.val)) =
          (first.val ++ join slash (middle.map (·.val)) ++ [slash]) ++ last.val := by simp
      rw [splits, List.getLast?_append_of_ne_nil _ last.property.1] at ends
      exact slash_not_mem last (List.mem_of_getLast? ends)

/-- `normalize_path` keeps a canonical path that fits the buffer. -/
theorem normalizePath_pathText {path : List Name} (fits : PathFits path) :
    normalizePath (pathText path) xfsPathMax = pathText path := by
  by_cases root : path = []
  · subst root
    rfl
  obtain ⟨text, shape, start, finish⟩ := pathText_shape root
  have nonroot := pathText_ne_slash root
  have short : text.length ≤ xfsPathMax - 2 := by
    rw [PathFits, shape, List.length_cons] at fits
    simp only [xfsPathMax] at fits ⊢
    omega
  have kept : (pathText path).dropWhile (· == slash) = text := by
    rw [shape, List.dropWhile_cons_of_pos (by simp)]
    cases text with
    | nil => rfl
    | cons byte text => rw [List.dropWhile_cons_of_neg (by simpa using start)]
  have nonempty : pathText path ≠ [] := by simp [shape]
  rw [normalizePath, if_neg (by simp [nonroot, nonempty])]
  dsimp only
  rw [kept, List.take_of_length_le short, List.rdropWhile_eq_self_iff.mpr, ← shape]
  intro filled ends
  exact finish (by rw [List.getLast?_eq_getLast_of_ne_nil filled]; simpa using ends)

/-! ## The table as a tree -/

namespace RamfsImage

/-- The entry whose path this is. -/
def entryAt (image : RamfsImage) (path : List Name) : Option RamfsEntry :=
  image.entries.find? (·.fullText = pathText path)

variable {image : RamfsImage}

theorem entryFullPath_eq {entry : RamfsEntry} (member : entry ∈ image.entries) :
    entryFullPath entry xfsPathMax = some entry.fullText := by
  have nameFits := (image.named entry member).2
  have parentFits := (image.parented entry member).1
  have bounded : entry.fullText.length < xfsPathMax := by
    rw [RamfsEntry.fullText]
    simp only [ramfsNameMax, ramfsParentMax, xfsPathMax] at nameFits parentFits ⊢
    split <;> simp <;> omega
  rw [entryFullPath, if_pos bounded]

theorem parent_ne_nil {entry : RamfsEntry} (member : entry ∈ image.entries) :
    entry.parent ≠ [] := by
  rcases (image.parented entry member).2 with root | ⟨above, -, -, same⟩
  · simp [root]
  · rw [← same, RamfsEntry.fullText]
    split <;> simp

/-- An entry has the path of a child exactly if it names the parent and the
child. -/
theorem fullText_child_iff {entry : RamfsEntry} (member : entry ∈ image.entries)
    (parent : List Name) (name : Name) :
    entry.fullText = pathText (parent ++ [name]) ↔
      entry.parent = pathText parent ∧ entry.name = name.val := by
  have free := (image.named entry member).1.2.2.2
  have parentNonempty := parent_ne_nil member
  rw [pathText_child, RamfsEntry.fullText]
  by_cases root : parent = []
  · subst root
    rw [pathText_root]
    constructor
    · intro same
      split at same
      · next atRoot => exact ⟨atRoot, by simpa using same⟩
      · next below =>
        have split := append_slash_inj free (slash_not_mem name) same
        exact absurd split.1 parentNonempty
    · rintro ⟨atRoot, same⟩
      rw [if_pos atRoot, same]
      rfl
  · rw [pathText_of_ne_nil root]
    have frontNonempty : join slash (parent.map (·.val)) ≠ [] := by
      rw [← pathText_of_ne_nil root]
      exact pathText_ne_nil parent
    constructor
    · intro same
      split at same
      · have split := @append_slash_inj [] _ _ _ free (slash_not_mem name) same
        exact absurd split.1.symm frontNonempty
      · exact append_slash_inj free (slash_not_mem name) same
    · rintro ⟨below, same⟩
      have notRoot : entry.parent ≠ [slash] := by
        rw [below, ← pathText_of_ne_nil root]
        exact pathText_ne_slash root
      rw [if_neg notRoot, below, same]

theorem ramfsFind_pathText {path : List Name} (fits : PathFits path) (nonroot : path ≠ []) :
    ramfsFind image (pathText path) = image.entryAt path := by
  rw [ramfsFind, normalizePath_pathText fits, if_neg (pathText_ne_slash nonroot), entryAt]
  refine List.find?_congr fun entry member => ?_
  rw [entryFullPath_eq member]
  simp

/-- Two entries of the table with one path are the same entry. -/
theorem eq_of_fullText_eq {entry other : RamfsEntry} (member : entry ∈ image.entries)
    (otherMember : other ∈ image.entries) (same : entry.fullText = other.fullText) :
    entry = other :=
  List.inj_on_of_nodup_map image.unique member otherMember same

/-- What is found at a child lies in a directory of the table. -/
theorem parent_of_entryAt {parent : List Name} {name : Name} {entry : RamfsEntry}
    (found : image.entryAt (parent ++ [name]) = some entry) :
    parent = [] ∨ ∃ above, image.entryAt parent = some above ∧ above.type = .dir := by
  have member := List.mem_of_find?_eq_some found
  have same := List.find?_some found
  rw [decide_eq_true_eq, fullText_child_iff member] at same
  by_cases root : parent = []
  · exact .inl root
  refine .inr ?_
  rcases (image.parented entry member).2 with atRoot | ⟨above, aboveMember, isDir, text⟩
  · exact absurd (same.1.symm.trans atRoot) (pathText_ne_slash root)
  · cases located : image.entryAt parent with
    | none =>
      have missing := List.find?_eq_none.mp located above aboveMember
      exact absurd (text.trans same.1) (by simpa using missing)
    | some other =>
      have otherText := List.find?_some located
      rw [decide_eq_true_eq] at otherText
      have equal := eq_of_fullText_eq (List.mem_of_find?_eq_some located) aboveMember
        (otherText.trans (same.1.symm.trans text.symm))
      exact ⟨other, rfl, equal ▸ isDir⟩

end RamfsImage

end FuseX.Xfs
