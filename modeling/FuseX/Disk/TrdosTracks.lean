import FuseX.Disk.Trdos

/-!
# The tracks of a TR-DOS image

Every track of a loaded image is generated, and so formatted with sixteen sectors of
the image (`loadTrd_formatted`). On such a track a sector is found where the boot
loader computes it to be, and writing its data field again changes the bytes of that
sector only.
-/

namespace FuseX.Disk.Trdos

open Lib TrackWriter

/-! ## One track -/

variable {sides idx : Nat} {d : Surface} {contents : Nat → List UInt8}

theorem slotOf_eq : ∀ k < 16, ((nextSlot 16 2)^[k] (0, 0)).1 = slotOf k := by
  decide

theorem slotOf_lt {k : Nat} (below : k < 16) : slotOf k < 16 := by
  rw [slotOf]
  omega

theorem permutes_trd : (trackParams sides idx).Permutes :=
  ⟨trdos_slots.1, fun j k less below => trdos_slots.2 k below j less⟩

/-- A track of a disk with two sides at most, and at most 256 cylinders. -/
theorem regular_trd (few : idx % sides < 2) (low : idx / sides < 256) : (trackParams sides idx).Regular :=
  ⟨standard_gapOf _, bytes_of few low (by decide) (by decide), permutes_trd⟩

/-- Where the boot loader writes a data field. -/
theorem fieldPlace_trd {k : Nat} (below : k < 16) :
    (trackParams sides idx).fieldPlace k = gapTrd.len 1 + slotOf k * sectorLen + lenPreDam := by
  have slot : (trackParams sides idx).slot k = slotOf k := slotOf_eq k below
  have place : (trackParams sides idx).place k = gapTrd.len 1 + slotOf k * sectorLen := by
    rw [Params.place, slot]
    rfl
  rw [Params.fieldPlace, place]
  rfl

/-- A track of the disk with the given sectors, of 6250 bytes. -/
structure TrdTrack (sides idx : Nat) (d : Surface) (contents : Nat → List UInt8) : Prop where
  formatted : (trackParams sides idx).Formatted d contents
  regular : (trackParams sides idx).Regular
  long : d.cBpt = 6250

theorem TrdTrack.sized (track : TrdTrack sides idx d contents) {k : Nat} (below : k < 16) :
    (contents k).length = 256 :=
  track.formatted.sized k below

/-- Where the data of a sector is. -/
def dataPlace (k : Nat) : Nat :=
  gapTrd.len 1 + slotOf k * sectorLen + lenPreData

theorem dataPlace_eq {k : Nat} (below : k < 16) :
    (trackParams sides idx).fieldPlace k + (gapTrd.syncLen + gapTrd.marks.length + 1) = dataPlace k := by
  rw [fieldPlace_trd below, dataPlace, lenPreData]
  exact Nat.add_assoc _ _ _

/-- A sector is sought by its number. -/
theorem TrdTrack.seeks (track : TrdTrack sides idx d contents) {k : Nat} (below : k < 16) :
    seekData d (k + 1) = some { d with i := dataPlace k } := by
  obtain ⟨marked, _, _⟩ := track.formatted.data track.regular below
  have found := track.formatted.seeks track.regular below
  have number : (trackParams sides idx).sectorBase + k = k + 1 := Nat.add_comm 1 k
  rw [number] at found
  rw [seekData, found, Option.bind_some, marked, Option.map_some]
  rw [← @dataPlace_eq sides idx k below]
  rfl

/-- Its bytes are there. -/
theorem TrdTrack.reads (track : TrdTrack sides idx d contents) {k : Nat} (below : k < 16) :
    readStrip d.track (dataPlace k) 256 = contents k := by
  obtain ⟨_, _, read⟩ := track.formatted.data track.regular below
  rw [← @dataPlace_eq sides idx k below]
  exact read

theorem TrdTrack.byte (track : TrdTrack sides idx d contents) {k n : Nat} (below : k < 16)
    (inside : n < 256) : d.track (dataPlace k + n) = (contents k).getD n 0 := by
  rw [← track.reads below, getD_readStrip inside]

/-- The data field of a sector is written again. -/
theorem TrdTrack.write (track : TrdTrack sides idx d contents) {k : Nat} (below : k < 16)
    (head : Nat → UInt8) :
    TrdTrack sides idx
      (dataAdd gapTrd (.data head) (256 : Nat) false false none
        { d with i := gapTrd.len 1 + slotOf k * sectorLen + lenPreDam }).2.1
      (Function.update contents k (readStrip head 0 256)) := by
  have slot := slotOf_lt below
  have field : (Source.data head).field 256 none = readStrip head 0 256 := by
    rw [Source.field]
    show readStrip head 0 256 ++ List.replicate (256 - (readStrip head 0 256).length) _ = _
    rw [length_readStrip, Nat.sub_self, List.replicate_zero, List.append_nil]
  have long := track.long
  have place : gapTrd.len 1 + slotOf k * sectorLen + lenPreDam + 334 < 6250 := by
    have sizes : gapTrd.len 1 = 10 ∧ sectorLen = 378 ∧ lenPreDam = 44 := ⟨rfl, rfl, rfl⟩
    rw [sizes.1, sizes.2.1, sizes.2.2]
    omega
  have added := @dataAdd_room gapTrd { d with i := gapTrd.len 1 + slotOf k * sectorLen + lenPreDam }
    (.data head) 256 false false none (fun _ => length_readStrip 0 256)
    (by
      show gapTrd.len 1 + slotOf k * sectorLen + lenPreDam + 22 + 12 + 3 + 1 < d.cBpt
      rw [long]
      exact Nat.lt_trans (Nat.add_lt_add_left (by decide : 38 < 334) _) place)
    (by
      rw [length_dataField, Source.length_field]
      show gapTrd.len 1 + slotOf k * sectorLen + lenPreDam + (12 + 3 + 1 + (256 + 2) + 60) < d.cBpt
      rw [long]
      exact place)
  rw [added, field]
  have patched := track.formatted.patch permutes_trd below (@length_readStrip _ head 0 256)
  rw [fieldPlace_trd below] at patched
  exact ⟨patched, track.regular, long⟩

/-! ## All tracks -/

/-- Sector `n` of an image, filled up where the image ends. -/
def imageSector (file : List UInt8) (n : Nat) : List UInt8 :=
  let there := (file.drop (n * 256)).take 256
  there ++ List.replicate (256 - there.length) 0

theorem after_add (source : Source) (len a b : Nat) :
    (source.after len a).after len b = source.after len (a + b) := by
  induction b with
  | zero => rfl
  | succ b ih => rw [Source.after, ih, ← Nat.add_assoc, Source.after]

theorem field_image (file : List UInt8) (n : Nat) :
    ((Source.buffer ⟨file, 0, Nat.zero_le _⟩).after 256 n).field 256 (some 0) = imageSector file n := by
  rw [field_after, inputBytes, imageSector]
  rfl

/-- A track is generated with the next sixteen sectors. -/
theorem generated_trd {source : Source} (few : idx % sides < 2) (low : idx / sides < 256) :
    ∃ d, (trackParams sides idx).trackgen newTrack source = (false, d, source.after 256 16) ∧
      TrdTrack sides idx d fun k => (source.after 256 k).field 256 (some 0) := by
  have slots : ∀ k < 16, (trackParams sides idx).slot k < 16 := fun k below => by
    have slot : (trackParams sides idx).slot k = slotOf k := slotOf_eq k below
    rw [slot]
    exact slotOf_lt below
  have length : (trackParams sides idx).slen = 378 := rfl
  have success : ((trackParams sides idx).trackgen newTrack source).1 = false := by
    refine Params.trackgen_room (p := trackParams sides idx) (d := newTrack) rfl (fun none => by cases none)
      (show 22 ≤ 256 + 2 + 60 by decide) (show 10 < 6250 by decide) ?_ ?_
    · intro k below
      have slot := slots k below
      rw [length]
      show 10 + (trackParams sides idx).slot k * 378 + 378 < 6250
      omega
    · rw [length]
      show 10 + 16 * 378 ≤ 6250
      decide
  obtain ⟨d, source', success⟩ := success_of success
  have generated := Params.trackgen_ok (fun _ => rfl) success
  obtain rfl := Params.trackgen_source success
  exact ⟨d, success, generated.formatted permutes_trd, regular_trd few low, generated.cBpt⟩

/-- The tracks are generated with the sectors of the image in their order. -/
theorem generateTracks_ok {file : List UInt8} {left : Nat} {track : Nat → Surface} (sided : sides = 1 ∨ sides = 2)
    (low : idx + left ≤ sides * 256) :
    ∃ track', generateTracks sides idx left
        ((Source.buffer ⟨file, 0, Nat.zero_le _⟩).after 256 (idx * 16)) track = some track' ∧
      (∀ i, idx ≤ i → i < idx + left →
        TrdTrack sides i (track' i) fun k => imageSector file (i * 16 + k)) ∧
      ∀ i, i < idx ∨ idx + left ≤ i → track' i = track i := by
  induction left generalizing idx track with
  | zero => exact ⟨track, rfl, fun i above below => by omega, fun _ _ => rfl⟩
  | succ left ih =>
    have positive : 0 < sides := by omega
    have few : idx % sides < 2 := Nat.lt_of_lt_of_le (Nat.mod_lt _ positive) (by omega)
    have small : idx / sides < 256 := Nat.div_lt_of_lt_mul (by omega)
    obtain ⟨d, success, here⟩ := @generated_trd sides idx
      ((Source.buffer ⟨file, 0, Nat.zero_le _⟩).after 256 (idx * 16)) few small
    simp only [after_add, field_image] at success here
    rw [← Nat.succ_mul] at success
    obtain ⟨track', rest, behind, others⟩ := @ih (idx + 1) (Function.update track idx d) (by omega)
    refine ⟨track', ?_, fun i above below => ?_, fun i outside => ?_⟩
    · rw [generateTracks, success]
      exact rest
    · rcases Nat.eq_or_lt_of_le above with rfl | later
      · rw [others idx (.inl (Nat.lt_succ_self idx)), Function.update_self]
        exact here
      · exact behind i later (by omega)
    · rw [others i (by omega), Function.update_of_ne (by omega)]

theorem moreTracks_le {length i : Nat} (low : i ≤ 83) : moreTracks sides length i ≤ 83 := by
  fun_induction moreTracks sides length i with
  | case1 i below _ => exact Nat.le_of_lt below
  | case2 i below _ ih => exact ih below
  | case3 i _ => exact low

theorem le_moreTracks (length i : Nat) : i ≤ moreTracks sides length i := by
  fun_induction moreTracks sides length i with
  | case1 i _ _ => exact Nat.le_refl i
  | case2 i _ _ ih => exact Nat.le_of_succ_le ih
  | case3 i _ => exact Nat.le_refl i

/-- The geometries of TR-DOS images. -/
theorem geometry_bounds {file : List UInt8} {g : Geometry} (accepted : geometry file = some g) :
    (g.sides = 1 ∨ g.sides = 2) ∧ 40 ≤ g.cylinders ∧ g.cylinders ≤ 83 := by
  unfold geometry at accepted
  split at accepted
  · cases accepted
  split at accepted
  · cases accepted
  simp only at accepted
  split at accepted
  · cases accepted
  · cases accepted
    refine ⟨?_, ?_⟩
    · simp only
      split
      · exact .inl rfl
      · exact .inr rfl
    · simp only
      generalize (if file.getD (8 * 256 + 227) 0 &&& 0x08 ≠ 0 then 1 else 2) = sides
      have standard : ∀ c, c = 40 ∨ c = 80 → 40 ≤ (if sides * c * 16 * 256 < file.length then
            moreTracks sides file.length (c + 1) else c) ∧
          (if sides * c * 16 * 256 < file.length then moreTracks sides file.length (c + 1) else c) ≤ 83 := by
        intro c known
        split
        · have least := @le_moreTracks sides file.length (c + 1)
          have most := @moreTracks_le sides file.length (c + 1) (by omega)
          omega
        · omega
      apply standard
      split
      · exact .inl rfl
      · exact .inr rfl

/-- The sectors of an image, on so many tracks. -/
def imageContents (file : List UInt8) (tracks n : Nat) : List UInt8 :=
  if n < 16 * tracks then imageSector file n else []

/-- A loaded disk: its tracks have the sectors of the image, and behind them is the memory. -/
structure Loaded (disk : DiskT) (contents : Nat → List UInt8) (memory : Nat → Surface) : Prop where
  sides : disk.sides = 1 ∨ disk.sides = 2
  cylinders : 40 ≤ disk.cylinders ∧ disk.cylinders ≤ 83
  track : ∀ i < disk.tracks, TrdTrack disk.sides i (disk.track i) fun k => contents (i * 16 + k)
  past : ∀ n, 16 * disk.tracks ≤ n → contents n = []
  behind : ∀ i, disk.tracks ≤ i → disk.track i = memory i

theorem TrdTrack.congr {contents' : Nat → List UInt8} (track : TrdTrack sides idx d contents)
    (same : ∀ k < 16, contents k = contents' k) : TrdTrack sides idx d contents' where
  formatted :=
    { front := track.formatted.front
      room := track.formatted.room
      fits := track.formatted.fits
      sized := fun k below => by
        rw [← same k below]
        exact track.formatted.sized k below
      sectors := fun k below => by
        rw [← same k below]
        exact track.formatted.sectors k below }
  regular := track.regular
  long := track.long

theorem loadTrd_loaded {file : List UInt8} {g : Geometry} (accepted : geometry file = some g)
    (memory : Nat → Surface) :
    ∃ disk, loadTrd file memory = some disk ∧ disk.sides = g.sides ∧ disk.cylinders = g.cylinders ∧
      Loaded disk (imageContents file (g.sides * g.cylinders)) memory := by
  obtain ⟨sided, least, most⟩ := geometry_bounds accepted
  have few : 0 + g.sides * g.cylinders ≤ g.sides * 256 := by
    rw [Nat.zero_add]
    exact Nat.mul_le_mul_left _ (by omega)
  obtain ⟨track, generated, inside, outside⟩ := @generateTracks_ok g.sides 0 file _ memory sided few
  rw [Nat.zero_add] at inside outside
  refine ⟨⟨g.sides, g.cylinders, track⟩, ?_, rfl, rfl, sided, ⟨least, most⟩, ?_, ?_, ?_⟩
  · rw [loadTrd, accepted, Option.bind_some]
    have start : (Source.buffer ⟨file, 0, Nat.zero_le _⟩).after 256 (0 * 16) =
      .buffer ⟨file, 0, Nat.zero_le _⟩ := rfl
    rw [start] at generated
    rw [generated]
    rfl
  · intro i below
    refine (inside i (Nat.zero_le i) below).congr fun k low => ?_
    have inside : i * 16 + k < 16 * (g.sides * g.cylinders) := by
      change i < g.sides * g.cylinders at below
      omega
    exact (if_pos inside).symm
  · intro n above
    exact if_neg (Nat.not_lt.mpr above)
  · intro i above
    exact outside i (.inr above)

/-! ## Loaded disks -/

/-- The sectors of a disk, as they are found on its tracks. -/
def contentsOf (disk : DiskT) (n : Nat) : List UInt8 :=
  if n < 16 * disk.tracks then
    match seekData (disk.track (n / 16)) (n % 16 + 1) with
    | none => []
    | some d => readStrip d.track d.i 256
  else []

variable {disk : DiskT} {memory : Nat → Surface}

theorem Loaded.tracks_pos (loaded : Loaded disk contents memory) : 40 ≤ disk.tracks := by
  obtain ⟨least, _⟩ := loaded.cylinders
  rw [DiskT.tracks]
  rcases loaded.sides with one | two
  · rw [one, Nat.one_mul]
    exact least
  · rw [two]
    omega

theorem Loaded.tracks_le (loaded : Loaded disk contents memory) : disk.tracks ≤ 166 := by
  obtain ⟨_, most⟩ := loaded.cylinders
  rw [DiskT.tracks]
  rcases loaded.sides with one | two
  · rw [one, Nat.one_mul]
    omega
  · rw [two]
    omega

theorem Loaded.found (loaded : Loaded disk contents memory) : contentsOf disk = contents := by
  funext n
  rw [contentsOf]
  by_cases inside : n < 16 * disk.tracks
  · have track := loaded.track (n / 16) (Nat.div_lt_of_lt_mul inside)
    have below := Nat.mod_lt n (show 0 < 16 by decide)
    rw [if_pos inside, track.seeks below]
    have read := track.reads below
    rw [Nat.div_add_mod'] at read
    exact read
  · rw [if_neg inside, loaded.past n (Nat.not_lt.mp inside)]

theorem DiskT.track_write (disk : DiskT) (t slot : Nat) (head : Nat → UInt8) :
    (disk.write t slot head).track t =
      (dataAdd gapTrd (.data head) (256 : Nat) false false none
        { disk.track t with i := gapTrd.len 1 + slot * sectorLen + lenPreDam }).2.1 := by
  rw [DiskT.write]
  exact Function.update_self _ _ _

theorem DiskT.track_write_ne {t slot i : Nat} {head : Nat → UInt8} (other : i ≠ t) :
    (disk.write t slot head).track i = disk.track i := by
  rw [DiskT.write]
  exact Function.update_of_ne other _ _

/-- A sector is written again. -/
theorem Loaded.write (loaded : Loaded disk contents memory) {t k : Nat} (inside : t < disk.tracks)
    (below : k < 16) (head : Nat → UInt8) :
    Loaded (disk.write t (slotOf k) head)
      (Function.update contents (t * 16 + k) (readStrip head 0 256)) memory where
  sides := loaded.sides
  cylinders := loaded.cylinders
  track i low := by
    rcases eq_or_ne i t with rfl | other
    · have written := (loaded.track i inside).write below head
      rw [DiskT.track_write]
      refine written.congr fun j _ => ?_
      rcases eq_or_ne j k with rfl | apart
      · rw [Function.update_self, Function.update_self]
      · rw [Function.update_of_ne apart, Function.update_of_ne fun same => apart (Nat.add_left_cancel same)]
    · rw [DiskT.track_write_ne other]
      refine (loaded.track i low).congr fun j small => ?_
      rw [Function.update_of_ne (by omega)]
  past n above := by
    change 16 * disk.tracks ≤ n at above
    rw [Function.update_of_ne (by omega)]
    exact loaded.past n above
  behind i above := by
    change disk.tracks ≤ i at above
    rw [DiskT.track_write_ne (by omega)]
    exact loaded.behind i above

end FuseX.Disk.Trdos
