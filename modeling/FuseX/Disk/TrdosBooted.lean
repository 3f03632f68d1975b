import FuseX.Disk.TrdosBoot

/-!
# Disks with a boot loader

A consistent disk with the boot loader is `Booted` when the name of its first BASIC file can
stand in the program (`booted_inserted`).

`trdos_boot_loader` says for which images the insertion keeps to the disk and comes to that.
The first free track is not compared with the tracks of the disk, and the name of the
first BASIC file is put between quotes as it is.
-/

namespace FuseX.Disk.Trdos

open Lib TrackWriter

variable {name : List UInt8} {contents : Nat → List UInt8} {disk : DiskT} {memory : Nat → Surface}
  {spec : Spec} {signed : Bool}

/-! ## The disk with the boot loader -/

theorem toNat_bytes (w : UInt16) :
    (w &&& 0xff).toUInt8.toNat + (w >>> 8).toUInt8.toNat * 0x100 = w.toNat := by
  have low : (w &&& 0xff).toUInt8.toNat = w.toNat % 256 := by
    rw [UInt16.toNat_toUInt8, UInt16.toNat_and, show (0xff : UInt16).toNat = 2 ^ 8 - 1 from rfl,
      Nat.and_two_pow_sub_one_eq_mod, Nat.mod_mod]
  have high : (w >>> 8).toUInt8.toNat = w.toNat / 256 := by
    rw [UInt16.toNat_toUInt8, UInt16.toNat_shiftRight]
    show w.toNat >>> 8 % 256 = w.toNat / 256
    have small := w.toNat_lt
    rw [Nat.shiftRight_eq_div_pow]
    omega
  rw [low, high]
  omega

/-- The descriptor after the boot loader has been inserted. -/
theorem descriptor_inserted {s t : Nat} (low : s < 16) (small : t < 256) (few : spec.fileCount.toNat < 128)
    (room : 1 ≤ spec.freeSectors.toNat) :
    fileCount (inserted contents spec name s t) = spec.fileCount.toNat + 1 ∧
      freeCount (inserted contents spec name s t) + 1 = spec.freeSectors.toNat ∧
      (descriptor (inserted contents spec name s t) 225).toNat = s ∧
      (descriptor (inserted contents spec name s t) 226).toNat = t := by
  have field : ∀ k < 256, descriptor (inserted contents spec name s t) k = writeSpec (spec.added 1 s t) k := by
    intro k below
    rw [descriptor, inserted, catalogued, Function.update_self, getD_readStrip below, Nat.zero_add]
  have one : (UInt16.ofNat 1).toNat = 1 := rfl
  have free := toNat_bytes (spec.freeSectors - UInt16.ofNat 1)
  have less : UInt16.ofNat 1 ≤ spec.freeSectors := UInt16.le_iff_toNat_le.mpr room
  rw [UInt16.toNat_sub_of_le _ _ less, one] at free
  refine ⟨?_, ?_, ?_, ?_⟩
  · rw [fileCount, field 228 (by decide)]
    show (spec.fileCount + 1).toNat = _
    rw [UInt8.toNat_add]
    show (spec.fileCount.toNat + 1) % 256 = _
    omega
  · rw [freeCount, field 229 (by decide), field 230 (by decide)]
    show (_ &&& 0xff).toUInt8.toNat + (_ >>> 8).toUInt8.toNat * 0x100 + 1 = _
    exact (congrArg (· + 1) free).trans (Nat.sub_add_cancel room)
  · rw [field 225 (by decide)]
    show (UInt8.ofNat s).toNat = s
    rw [UInt8.toNat_ofNat']
    exact Nat.mod_eq_of_lt (by omega)
  · rw [field 226 (by decide)]
    show (UInt8.ofNat t).toNat = t
    rw [UInt8.toNat_ofNat']
    exact Nat.mod_eq_of_lt small

/-- Other sectors are as they were. -/
theorem inserted_ne {s t n : Nat} (other : n ≠ firstFree contents) (behind : 9 ≤ n)
    (few : spec.fileCount.toNat < 128) : inserted contents spec name s t n = contents n := by
  rw [inserted, catalogued, Function.update_of_ne (by omega), Function.update_of_ne (by omega),
    Function.update_of_ne other]

theorem entry_update_ne {m n : Nat} {sector : List UInt8} (other : n / 16 ≠ m) :
    entry (Function.update contents m sector) n = entry contents n := by
  rw [entry, entry, Function.update_of_ne other]

theorem entry_inserted {s t n : Nat} (sized : ∀ m < 8, (contents m).length = 256)
    (behind : 16 ≤ firstFree contents) (few : spec.fileCount.toNat < 128) (below : n < 128) :
    entry (inserted contents spec name s t) n =
      if n = spec.fileCount.toNat then (fileEntry spec 32 1).bytes else entry contents n := by
  have sector : spec.fileCount.toNat / 16 < 8 := by omega
  have kept : Function.update contents (firstFree contents) (readStrip (loaderSector name) 0 256)
      (spec.fileCount.toNat / 16) = contents (spec.fileCount.toNat / 16) :=
    Function.update_of_ne (by omega) _ _
  rw [inserted, catalogued, entry_update_ne (by omega), entry_written, Nat.div_add_mod', entry_update_ne]
  · omega
  · rw [kept]
    exact sized _ sector
  · exact Nat.mod_lt _ (by decide)
  · rfl

theorem entry_length {n : Nat} (sized : ∀ m < 8, (contents m).length = 256) (below : n < 128) :
    (entry contents n).length = 16 := by
  rw [entry, List.length_take, List.length_drop, sized _ (by omega)]
  omega

theorem length_nameOf {e : List UInt8} (sized : ∀ m < 8, (contents m).length = 256)
    (member : e ∈ catalogue contents) : 8 ≤ e.length ∧ (nameOf e).length = 8 := by
  obtain ⟨n, below, rfl⟩ := List.mem_map.mp ((List.takeWhile_prefix used).subset member)
  have length := entry_length sized (List.mem_range.mp below)
  rw [nameOf, List.length_take, length]
  exact ⟨by decide, rfl⟩

/-- The file whose name is taken. -/
theorem Inserts.named (inserts : Inserts signed contents) (sized : ∀ m < 8, (contents m).length = 256) :
    ∃ e, (catalogue contents).find? (basicEntry signed) = some e ∧
      (fat signed contents).firstBasicFile = nameOf e := by
  have basic := inserts.basic
  rw [fat_eq] at basic
  obtain ⟨e, found, name⟩ := firstBasicFile_found (catalogue contents) rfl basic
  rw [filename_dirent (length_nameOf sized (List.mem_of_find?_eq_some found)).1] at name
  refine ⟨_, found, ?_⟩
  rw [fat_eq]
  exact name

/-- The name of the first BASIC file can stand in the program, and the file is found when `char` is
signed. -/
def Runnable (signed : Bool) (contents : Nat → List UInt8) : Prop :=
  ∃ first, (catalogue contents).find? isBasic = some first ∧ (signed = true → first.getD 0 0 < 0x80) ∧
    (0x22 : UInt8) ∉ nameOf first ∧ (0x0d : UInt8) ∉ nameOf first

theorem runnable_iff {e : List UInt8} (sized : ∀ m < 8, (contents m).length = 256)
    (found : (catalogue contents).find? (basicEntry signed) = some e) :
    Runnable signed contents ↔ ∃ first, (catalogue contents).find? isBasic = some first ∧
      literal (nameOf e ++ [0x22, 0x0d]) = some (nameOf first) := by
  have head : ∀ e : List UInt8, (nameOf e).getD 0 0 = e.getD 0 0 := by
    intro e
    rw [nameOf, List.getD_eq_getElem?_getD, List.getElem?_take_of_lt (by decide), List.getD_eq_getElem?_getD]
  refine exists_congr fun first => and_congr_right fun first_found => ⟨?_, fun runs => ?_⟩
  · rintro ⟨char, quoteless, enterless⟩
    obtain ⟨basic, front, back, split, none⟩ := List.find?_eq_some_iff_append.mp first_found
    have same : (catalogue contents).find? (basicEntry signed) = some first := by
      refine List.find?_eq_some_iff_append.mpr
        ⟨(basicEntry_iff first).mpr ⟨basic, char⟩, front, back, split, fun old member => ?_⟩
      have plain := none old member
      rw [Bool.not_eq_true', Bool.eq_false_iff] at plain ⊢
      exact fun basic => plain ((basicEntry_iff old).mp basic).1
    obtain rfl : e = first := Option.some.inj (found.symm.trans same)
    exact (literal_name _).mpr ⟨quoteless, enterless⟩
  · obtain ⟨rest, line⟩ := literal_front runs
    have length := (length_nameOf sized (List.mem_of_find?_eq_some found)).2
    have first_length := (length_nameOf sized (List.mem_of_find?_eq_some first_found)).2
    obtain ⟨same, _⟩ := List.append_inj line (length.trans first_length.symm)
    rw [same] at runs
    refine ⟨fun char => ?_, (literal_name _).mp runs⟩
    rw [← head, ← same, head]
    exact ((basicEntry_iff e).mp (List.find?_some found)).2 char

/-- What the insertion comes to on a consistent disk. -/
theorem booted_inserted {tracks s t : Nat} {e : List UInt8} (consistent : Consistent tracks contents)
    (sized : ∀ m < 8, (contents m).length = 256) (read : readSpec (descriptor contents) = some spec)
    (few : fileCount contents < 128) (room : 0 < freeCount contents)
    (found : (catalogue contents).find? (basicEntry signed) = some e) (low : s < 16) (small : t < 256)
    (next : 16 * t + s = firstFree contents + 1) :
    Booted tracks contents (inserted contents spec (nameOf e) s t) ↔ Runnable signed contents := by
  obtain ⟨free, _, _, files, sectors⟩ := readSpec_some read
  have behind := consistent.behind
  have named := (length_nameOf sized (List.mem_of_find?_eq_some found)).2
  obtain ⟨count, less, sector, track⟩ := @descriptor_inserted (nameOf e) contents spec s t low small
    (by rw [files]; exact few) (by rw [sectors]; exact room)
  rw [files] at count
  rw [sectors] at less
  have entries : ∀ n < 128, entry (inserted contents spec (nameOf e) s t) n =
      if n = fileCount contents then (fileEntry spec 32 1).bytes else entry contents n := by
    intro n below
    rw [entry_inserted sized behind (by rw [files]; exact few) below, files]
  have whole := consistent.catalogue_added few (show used (fileEntry spec 32 1).bytes = true from rfl) entries
  have place : firstFree (inserted contents spec (nameOf e) s t) = firstFree contents + 1 := by
    rw [firstFree, sector, track, next]
  have start : firstSectorOf (fileEntry spec 32 1).bytes = firstFree contents := free
  have program : ran (inserted contents spec (nameOf e) s t (firstFree contents)) =
      literal (nameOf e ++ [0x22, 0x0d]) := by
    rw [inserted, catalogued, Function.update_of_ne (by omega), Function.update_of_ne (by omega),
      Function.update_self, ran_loader named]
  have inside := consistent.free
  have after : Consistent tracks (inserted contents spec (nameOf e) s t) := by
    refine ⟨?_, ?_, ?_, ?_, ?_, ?_⟩
    · rw [count, whole, List.length_append, ← consistent.count]
      rfl
    · intro n above below
      rw [entries n below, if_neg (by omega)]
      exact consistent.rest n (by omega) below
    · rw [sector]
      exact low
    · omega
    · omega
    · intro old member
      rw [whole] at member
      rw [place]
      rcases List.mem_append.mp member with member | member
      · have ends := consistent.files old member
        exact ⟨ends.1, Nat.le_succ_of_le ends.2⟩
      · obtain rfl := List.mem_singleton.mp member
        rw [start]
        exact ⟨behind, Nat.le_refl _⟩
  rw [runnable_iff sized found]
  constructor
  · rintro ⟨_, first, _, _, _, ⟨first_found, runs⟩, _⟩
    rw [program] at runs
    exact ⟨first, first_found, runs⟩
  · rintro ⟨first, first_found, runs⟩
    refine ⟨_, first, whole, ⟨rfl, rfl, rfl, start⟩, room, ⟨first_found, ?_⟩, ?_, after, count, less, place⟩
    · rw [program]
      exact runs
    · intro old member n above below
      have ends := consistent.files old member
      exact inserted_ne (by omega) (by omega) (by rw [files]; exact few)

/-- The catalogue is not as it was. -/
theorem inserted_changes {tracks s t : Nat} (consistent : Consistent tracks contents)
    (sized : ∀ m < 8, (contents m).length = 256) (files : spec.fileCount.toNat = fileCount contents)
    (few : fileCount contents < 128) : ¬ Unchanged tracks contents (inserted contents spec name s t) := by
  intro unchanged
  have behind := consistent.behind
  have inside := consistent.free
  have same := unchanged (fileCount contents / 16) (by omega) (by omega)
  have changed := @entry_inserted name contents spec s t (fileCount contents) sized behind
    (by rw [files]; exact few) few
  rw [if_pos files.symm, entry, same] at changed
  have free : used (entry contents (fileCount contents)) = false :=
    consistent.rest _ (Nat.le_refl _) few
  rw [entry, changed] at free
  cases free

/-! ## The law -/

/-- What the insertion has to be for an image, whatever is in the memory behind the disk. -/
def Law (signed : Bool) (file : List UInt8) : Prop :=
  ∀ memory disk, loadTrd file memory = some disk →
    (∀ i, disk.tracks ≤ i → ((insertBootLoader signed disk).track i).track = (disk.track i).track ∧
      ((insertBootLoader signed disk).track i).clocks = (disk.track i).clocks) ∧
    (Consistent disk.tracks (contentsOf disk) →
      Unchanged disk.tracks (contentsOf disk) (contentsOf (insertBootLoader signed disk)) ∨
        Booted disk.tracks (contentsOf disk) (contentsOf (insertBootLoader signed disk)))

/-- When nothing is inserted, or the first free track is one of the disk and the program runs, if it is
not in the last sector that the loop comes to. -/
def Sound (signed : Bool) (file : List UInt8) : Prop :=
  ∀ g, geometry file = some g →
    let contents := imageContents file (g.sides * g.cylinders)
    Inserts signed contents →
      (descriptor contents 226).toNat < g.sides * g.cylinders ∧
        (Consistent (g.sides * g.cylinders) contents →
          lastSector g.cylinders contents ∨ Runnable signed contents)

theorem Loaded.sized (loaded : Loaded disk contents memory) : ∀ m < 8, (contents m).length = 256 :=
  fun _ below => loaded.system.sized (Nat.lt_trans below (by decide))

/-- The disk on which the boot loader is inserted, when the first free track is one of it. -/
theorem Loaded.effect (loaded : Loaded disk contents memory) (inserts : Inserts signed contents)
    (consistent : Consistent disk.tracks contents) :
    (lastSector disk.cylinders contents →
      Unchanged disk.tracks contents (contentsOf (insertBootLoader signed disk))) ∧
    (¬ lastSector disk.cylinders contents →
      (Unchanged disk.tracks contents (contentsOf (insertBootLoader signed disk)) ∨
        Booted disk.tracks contents (contentsOf (insertBootLoader signed disk)) ↔
          Runnable signed contents)) := by
  obtain ⟨spec, read, result⟩ := insertBootLoader_some loaded inserts
  obtain ⟨e, found, name⟩ := inserts.named loaded.sized
  have named := (length_nameOf loaded.sized (List.mem_of_find?_eq_some found)).2
  obtain ⟨_, _, _, files, _⟩ := readSpec_some read
  have room := inserts.room
  have free := consistent.free
  have inside : (descriptor contents 226).toNat < disk.tracks := by
    rw [firstFree] at free
    omega
  obtain ⟨last, more⟩ := loaded.inserted named read inserts.few room consistent.sector inside
  rw [result, name]
  constructor
  · intro here
    rw [(last here).found]
    intro n _ used
    exact Function.update_of_ne (fun same => used ⟨Nat.le_of_eq same.symm, by omega⟩) _ _
  · intro other
    obtain ⟨s, t, low, small, next, written⟩ := more other
    rw [written.found, or_iff_right (inserted_changes consistent loaded.sized files inserts.few)]
    exact booted_inserted consistent loaded.sized read inserts.few room found low small next

theorem Loaded.keeps (loaded : Loaded disk contents memory) (inserts : Inserts signed contents)
    (inside : (descriptor contents 226).toNat < disk.tracks) {i : Nat} (behind : disk.tracks ≤ i) :
    (insertBootLoader signed disk).track i = disk.track i := by
  obtain ⟨spec, read, result⟩ := insertBootLoader_some loaded inserts
  obtain ⟨e, found, name⟩ := inserts.named loaded.sized
  have named := (length_nameOf loaded.sized (List.mem_of_find?_eq_some found)).2
  obtain ⟨_, track, _, files, free⟩ := readSpec_some read
  rw [result, name]
  have few := inserts.few
  have room := inserts.room
  apply insertBasicFile_behind named
  · rw [files]
    exact few
  · rw [free]
    exact room
  · omega
  · rw [track]
    omega

/-- Memory of zeros, where a long track seems to be. -/
def blankMemory : Nat → Surface :=
  fun _ => ⟨fun _ => 0, fun _ => false, 65535, 0⟩

theorem slotOf_byte {s : Nat} (byte : s < 256) : slotOf s ≤ 45 := by
  rw [slotOf]
  omega

/-- Behind the disk a mark is written. -/
theorem Loaded.spills (loaded : Loaded disk contents blankMemory) (inserts : Inserts signed contents)
    (outside : disk.tracks ≤ (descriptor contents 226).toNat) :
    ((insertBootLoader signed disk).track (descriptor contents 226).toNat).track ≠ fun _ => 0 := by
  obtain ⟨spec, read, result⟩ := insertBootLoader_some loaded inserts
  obtain ⟨e, found, name⟩ := inserts.named loaded.sized
  have named := (length_nameOf loaded.sized (List.mem_of_find?_eq_some found)).2
  obtain ⟨_, track, _, files, free⟩ := readSpec_some read
  have few := inserts.few
  have room := inserts.room
  have positive := loaded.tracks_pos
  rw [result, name, ← track]
  rw [← track] at outside
  rw [insertBasicFile_free named (by rw [files]; exact few) (by rw [free]; exact room) (by omega)]
  rw [DiskT.track_write, loaded.behind _ outside]
  have low := slotOf_byte (UInt8.toNat_lt spec.firstFreeSector)
  have place : gapTrd.len 1 + slotOf spec.firstFreeSector.toNat * sectorLen + lenPreDam + 334 < 65535 := by
    have sizes : gapTrd.len 1 = 10 ∧ sectorLen = 378 ∧ lenPreDam = 44 := ⟨rfl, rfl, rfl⟩
    rw [sizes.1, sizes.2.1, sizes.2.2]
    omega
  generalize gapTrd.len 1 + slotOf spec.firstFreeSector.toNat * sectorLen + lenPreDam = start at place
  have added := @dataAdd_room gapTrd { blankMemory spec.firstFreeTrack.toNat with i := start }
    (.data (loaderSector (nameOf e))) 256 false false none (fun _ => length_readStrip 0 256)
    (show start + 22 + 12 + 3 + 1 < 65535 by omega)
    (by
      rw [length_dataField, Source.length_field]
      exact place)
  rw [added]
  intro blank
  have holds := @Surface.holds_track { blankMemory spec.firstFreeTrack.toNat with i := start }
    (dataField gapTrd false false ((Source.data (loaderSector (nameOf e))).field 256 none))
  rw [blank, map_fst_dataField, List.append_assoc, Holds.append] at holds
  have mark := holds.1 12 (by decide)
  cases mark

/-- A boot loader that keeps to the disk has its first free track there. -/
theorem Law.inside {file : List UInt8} {g : Geometry} (law : Law signed file) (accepted : geometry file = some g)
    (inserts : Inserts signed (imageContents file (g.sides * g.cylinders))) :
    (descriptor (imageContents file (g.sides * g.cylinders)) 226).toNat < g.sides * g.cylinders := by
  obtain ⟨disk, loads, sides, cylinders, loaded⟩ := loadTrd_loaded accepted blankMemory
  have tracks : disk.tracks = g.sides * g.cylinders := by
    rw [DiskT.tracks, sides, cylinders]
  rw [← tracks] at loaded inserts ⊢
  by_contra above
  have behind := Nat.not_lt.mp above
  apply loaded.spills inserts behind
  rw [((law _ disk loads).1 _ behind).1, loaded.behind _ behind]
  rfl

/-- **The boot loader is inserted as it should be for just the images of which the first free track is
on the disk and the first BASIC file has a name that can be run.** -/
theorem trdos_boot_loader (signed : Bool) (file : List UInt8) : Law signed file ↔ Sound signed file := by
  constructor
  · intro law g accepted
    have inside := @law.inside _ _ g accepted
    obtain ⟨disk, loads, sides, cylinders, loaded⟩ := loadTrd_loaded accepted blankMemory
    have tracks : disk.tracks = g.sides * g.cylinders := by
      rw [DiskT.tracks, sides, cylinders]
    rw [← tracks] at loaded
    have result := (law _ disk loads).2
    rw [loaded.found] at result
    rw [← tracks] at inside ⊢
    rw [← cylinders]
    intro contents inserts
    refine ⟨inside inserts, fun consistent => ?_⟩
    by_cases last : lastSector disk.cylinders contents
    · exact .inl last
    · exact .inr (((loaded.effect inserts consistent).2 last).mp (result consistent))
  · intro sound memory disk loads
    cases accepted : geometry file with
    | none =>
      rw [loadTrd, accepted] at loads
      cases loads
    | some g =>
      obtain ⟨disk', loads', sides, cylinders, loaded⟩ := loadTrd_loaded accepted memory
      obtain rfl : disk = disk' := Option.some.inj (loads.symm.trans loads')
      have tracks : disk.tracks = g.sides * g.cylinders := by
        rw [DiskT.tracks, sides, cylinders]
      have sound := sound g accepted
      simp only at sound
      rw [← tracks, ← cylinders] at sound
      rw [← tracks] at loaded
      rw [loaded.found]
      by_cases inserts : Inserts signed (imageContents file disk.tracks)
      · obtain ⟨inside, runs⟩ := sound inserts
        refine ⟨fun i behind => ?_, fun consistent => ?_⟩
        · rw [loaded.keeps inserts inside behind]
          exact ⟨rfl, rfl⟩
        · obtain ⟨last, more⟩ := loaded.effect inserts consistent
          rcases runs consistent with here | runnable
          · exact .inl (last here)
          · by_cases here : lastSector disk.cylinders (imageContents file disk.tracks)
            · exact .inl (last here)
            · exact (more here).mpr runnable
      · rw [insertBootLoader_none loaded inserts, loaded.found]
        exact ⟨fun _ _ => ⟨rfl, rfl⟩, fun _ => .inl fun _ _ _ => rfl⟩

/-- An image with one BASIC file and a descriptor that has its first free sector on track 255. -/
def farFree : List UInt8 :=
  [0x67, 0x61, 0x6d, 0x65, 0x20, 0x20, 0x20, 0x20, 0x42, 0, 0, 0, 0, 1, 0, 1] ++ List.replicate 2032 0 ++
    (List.replicate 225 0 ++ [0, 0xff, 0x16, 1, 100, 0, 0x10] ++ List.replicate 24 0)

theorem farFree_spills : ¬ Law true farFree := by
  intro law
  have inside := law.inside (show geometry farFree = some ⟨2, 80⟩ by decide +kernel)
    ⟨by decide +kernel, by decide +kernel, by decide +kernel, by decide, by decide⟩
  revert inside
  decide +kernel

end FuseX.Disk.Trdos
