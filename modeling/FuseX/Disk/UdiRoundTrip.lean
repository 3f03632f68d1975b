import FuseX.Disk.UdiPack
import FuseX.Lib.Loops

/-!
# UDI images are read back

The file that `write_udi` makes is its header, the blocks of the tracks and the
checksum (`udiFile`). `udiScan_spec` and `udiRead_spec` follow the two loops of
`open_udi` over the blocks. The slots that `open_udi` makes have the room of the
longest track, and a compressed block needs six bytes more than its data: it may
be too long for the slot, in memory and in the reader (`roundTrip_iff`).
-/

namespace FuseX.Disk

open Lib

/-! ## The statement -/

/-- A disk in memory: the tracks fit in the bytes that are allocated for one. -/
structure WellFormed (d : Disk) : Prop where
  sides : 1 ≤ d.sides ∧ d.sides ≤ 2
  cylinders : 1 ≤ d.cylinders ∧ d.cylinders ≤ 86
  count : d.tracks.length = d.sides * d.cylinders
  slots : ∀ s ∈ d.tracks, s.length = d.tlen
  lengths : ∀ s ∈ d.tracks, 1 ≤ s.cBpt ∧ s.cBpt ≤ d.bpt
  room : 3 + d.bpt + 3 * clen d.bpt ≤ d.tlen

/-- The tracks are the same: lengths, data, clock, FM and weak marks. -/
structure SameTracks (d d' : Disk) : Prop where
  sides : d'.sides = d.sides
  cylinders : d'.cylinders = d.cylinders
  tracks : List.Forall₂ (fun s s' => s'.cBpt = s.cBpt ∧ s'.track = s.track) d.tracks d'.tracks

/-- `disk_write` of a UDI image. -/
def diskWriteUdi (zlib : Zlib) (d : Disk) : Except Stop (List UInt8 × Disk) :=
  writeUdi zlib (updateTracksMode d)

/-- No write leaves its slot, the disk is as before, and so is the file opened. -/
def RoundTrip (zlib : Zlib) (d : Disk) : Prop :=
  ∃ file d' d'', diskWriteUdi zlib d = .ok (file, d') ∧ openUdi zlib file = .ok d'' ∧
    SameTracks d d' ∧ SameTracks d d''

/-- The length of the longest track. -/
def Disk.longest (d : Disk) : Nat :=
  (d.tracks.map Slot.cBpt).foldl max 0

/-- Where a track is compressed, the compressed bytes and six more fit in a slot
of the longest track. -/
def Fits (zlib : Zlib) (d : Disk) : Prop :=
  ∀ s ∈ d.tracks, ∀ data, zlib.compress s.track.packed = some data → 1 ≤ data.length →
    data.length ≤ 65535 → data.length < s.track.packed.length →
    3 + data.length ≤ d.longest + 3 * clen d.longest

/-! ## The file -/

/-- A block in the file. -/
def Block.record (b : Block) : List UInt8 :=
  [b.type, UInt8.ofNat b.len, UInt8.ofNat (b.len / 256)] ++ b.body

theorem udiLen_carries {s : Slot} {t : Track} {zlib : Zlib} {bpt : Nat} (sized : t.Sized bpt)
    (carries : Carries (t.block zlib) s) : udiLen s = (t.block zlib).body.length := by
  have notCompressed : t.type ≠ 0xf0 := (typeOf_bits _ _).2.2.2.2
  rw [udiLen, carries.ttyp, carries.cBpt]
  rcases block_cases zlib t with ⟨plain, -⟩ | ⟨data, -, nonempty, -, -, block⟩
  · rw [plain, if_neg notCompressed, packed_length sized, ← sized.data]
  · rw [block, if_pos rfl]
    simp only [List.length_append, List.length_cons, List.length_nil]
    omega

/-- What is written for a slot is its block. -/
theorem udiRecord_carries {s : Slot} {t : Track} {zlib : Zlib} {bpt : Nat} (sized : t.Sized bpt)
    (carries : Carries (t.block zlib) s) : udiRecord s = (t.block zlib).record := by
  rw [udiRecord, Block.record, udiLen_carries sized carries, carries.body, carries.ttyp,
    ← carries.cBpt, s.ofNat_cBpt.1, s.ofNat_cBpt.2]

/-- The file of some blocks. -/
def udiFile (d : Disk) (blocks : List Block) : List UInt8 :=
  let body := udiHead d (16 + (blocks.map fun b => 3 + b.body.length).sum) ++
    blocks.flatMap Block.record
  body ++ bytes4 (body.foldl crcUdi (BitVec.allOnes 32)).toNat

/-! ## Writing -/

/-- The blocks of a disk. -/
def Disk.blocks (zlib : Zlib) (d : Disk) : List Block :=
  d.tracks.map fun s => s.track.block zlib

section Writing

variable {d : Disk} {zlib : Zlib}

theorem clen_mono {m n : Nat} (le : m ≤ n) : clen m ≤ clen n := by
  simp only [clen]
  split_ifs <;> omega

theorem WellFormed.roomy (wf : WellFormed d) {s : Slot} (member : s ∈ d.tracks) : s.Roomy := by
  have lengths := wf.lengths s member
  have slots := wf.slots s member
  have room := wf.room
  have mono := clen_mono lengths.2
  rw [Slot.Roomy]
  omega

/-- The tracks with their types, packed and compressed, where there is room. -/
theorem writeUdi_tracks (wf : WellFormed d) (zlib : Zlib) :
    (∀ s ∈ d.tracks, ∃ s', udiPack (updateMode s) = .ok s' ∧
      ((3 + (s.track.block zlib).body.length ≤ d.tlen →
        ∃ s'', udiCompress zlib s' = .ok s'' ∧ s''.length = d.tlen ∧
          Carries (s.track.block zlib) s'') ∧
      (d.tlen < 3 + (s.track.block zlib).body.length →
        udiCompress zlib s' = .error .outside))) := by
  intro s member
  have roomy := wf.roomy member
  obtain ⟨ttyp, cBpt, length, track⟩ := updateMode_spec (wf.lengths s member).1 roomy
  have roomy' : (updateMode s).Roomy := by
    rw [Slot.Roomy, cBpt, length]
    exact roomy
  obtain ⟨s', packed, length', cBpt', ttyp', body⟩ := udiPack_spec roomy' (by rw [ttyp, track])
  have sized : s.track.Sized s'.cBpt := by
    rw [cBpt', cBpt]
    exact sized_track roomy
  have compressed := @udiCompress_spec s' s.track zlib
    (by rw [Slot.Roomy, cBpt', cBpt, length', length]; exact roomy)
    (by rw [cBpt', cBpt]; exact (wf.lengths s member).1) sized (by rw [ttyp', ttyp])
    (by rw [ttyp', cBpt', body, track])
  rw [length', length, wf.slots s member] at compressed
  exact ⟨s', packed, compressed⟩

theorem foldl_max_le {ns : List Nat} {start bound : Nat} :
    ns.foldl max start ≤ bound ↔ start ≤ bound ∧ ∀ n ∈ ns, n ≤ bound := by
  induction ns generalizing start with
  | nil => simp
  | cons n ns ih =>
    rw [List.foldl_cons, ih, Nat.max_le, List.forall_mem_cons]
    tauto

theorem cBpt_le_longest {s : Slot} (member : s ∈ d.tracks) : s.cBpt ≤ d.longest :=
  (foldl_max_le.mp (Nat.le_refl _)).2 _ (List.mem_map_of_mem member)

theorem WellFormed.longest_le (wf : WellFormed d) : d.longest ≤ d.bpt := by
  refine foldl_max_le.mpr ⟨Nat.zero_le _, fun n member => ?_⟩
  obtain ⟨s, slot, rfl⟩ := List.mem_map.mp member
  exact (wf.lengths s slot).2

/-- The slots have the room of the longest track. -/
theorem WellFormed.longest_room (wf : WellFormed d) : 3 + d.longest + 3 * clen d.longest ≤ d.tlen := by
  have le := wf.longest_le
  have mono := clen_mono le
  have room := wf.room
  omega

/-- From slots that carry the blocks the tracks are made again. -/
theorem restore {slots : List Slot} {tlen : Nat} (wf : WellFormed d)
    (room : 3 + d.longest + 3 * clen d.longest ≤ tlen)
    (carry : List.Forall₂ (fun s s' => s ∈ d.tracks ∧ s'.length = tlen ∧
      Carries (s.track.block zlib) s') d.tracks slots) :
    ∃ tracks tracks', slots.mapM (udiUncompress zlib) = .ok tracks ∧
      tracks.mapM udiUnpack = .ok tracks' ∧
      List.Forall₂ (fun s s' => s'.cBpt = s.cBpt ∧ s'.track = s.track) d.tracks tracks' := by
  obtain ⟨tracks, loop, all⟩ := mapM_ok (f := udiUncompress zlib) (Q := fun s s' => s ∈ d.tracks ∧
      s'.length = tlen ∧ s'.cBpt = s.cBpt ∧ s'.ttyp = s.track.type ∧
      s'.read 0 (udiTlen s.track.type s.cBpt) = s.track.packed) carry (by
      rintro s s' ⟨member, length, carries⟩
      have le := cBpt_le_longest member
      have mono := clen_mono le
      obtain ⟨s'', done, length', rest⟩ := udiUncompress_spec carries (sized_track (wf.roomy member))
        s.cBpt_lt (by omega)
      exact ⟨s'', done, member, length'.trans length, rest⟩)
  obtain ⟨tracks', loop', all'⟩ := mapM_ok (f := udiUnpack) (Q := fun s s' => s'.cBpt = s.cBpt ∧
      s'.track = s.track) all (by
      rintro s s' ⟨member, length, cBpt, ttyp, packed⟩
      have le := cBpt_le_longest member
      have mono := clen_mono le
      obtain ⟨s'', done, -, cBpt', track⟩ := udiUnpack_spec (s := s') (t := s.track)
        (by rw [Slot.Roomy, cBpt, length]; omega)
        (by rw [cBpt]; exact sized_track (wf.roomy member)) ttyp (by rw [ttyp, cBpt]; exact packed)
      exact ⟨s'', done, cBpt'.trans cBpt, track⟩)
  exact ⟨tracks, tracks', loop, loop', all'⟩

/-- The file of a disk, when each block has room in memory. -/
theorem diskWriteUdi_ok (wf : WellFormed d)
    (room : ∀ s ∈ d.tracks, 3 + (s.track.block zlib).body.length ≤ d.tlen) :
    ∃ d', diskWriteUdi zlib d = .ok (udiFile d (d.blocks zlib), d') ∧ SameTracks d d' := by
  obtain ⟨tracks₁, loop₁, all₁⟩ := mapM_ok (f := udiPack) (Q := fun s s' => s ∈ d.tracks ∧
      ∃ s'', udiCompress zlib s' = .ok s'' ∧ s''.length = d.tlen ∧ Carries (s.track.block zlib) s'')
    (forall₂_map (g := updateMode)) (by
      rintro s x ⟨member, rfl⟩
      obtain ⟨s', packed, compress, -⟩ := writeUdi_tracks wf zlib s member
      exact ⟨s', packed, member, compress (room s member)⟩)
  obtain ⟨tracks₂, loop₂, all₂⟩ := mapM_ok (f := udiCompress zlib) (Q := fun s s'' => s ∈ d.tracks ∧
      s''.length = d.tlen ∧ Carries (s.track.block zlib) s'') all₁ (by
      rintro s s' ⟨member, s'', done, length, carries⟩
      exact ⟨s'', done, member, length, carries⟩)
  obtain ⟨tracks₃, tracks₄, loop₃, loop₄, all₄⟩ := restore wf wf.longest_room all₂
  have lens : (tracks₂.map fun s => 3 + udiLen s) =
      (d.blocks zlib).map fun b => 3 + b.body.length := by
    rw [Disk.blocks, List.map_map]
    refine map_eq_of_forall₂ all₂ fun s s' related => ?_
    rw [udiLen_carries (sized_track (wf.roomy related.1)) related.2.2]
    rfl
  have records : tracks₂.flatMap udiRecord = (d.blocks zlib).flatMap Block.record := by
    rw [List.flatMap_def, List.flatMap_def, Disk.blocks, List.map_map]
    refine congrArg List.flatten (map_eq_of_forall₂ all₂ fun s s' related => ?_)
    exact udiRecord_carries (sized_track (wf.roomy related.1)) related.2.2
  refine ⟨{ updateTracksMode d with tracks := tracks₄ }, ?_, rfl, rfl, all₄⟩
  simp only [diskWriteUdi, writeUdi, updateTracksMode, loop₁, loop₂, loop₃, loop₄, bind, Except.bind,
    pure, Except.pure, lens, records]
  rfl

/-- A block without room in memory is written outside its slot. -/
theorem diskWriteUdi_outside (wf : WellFormed d)
    (tight : ∃ s ∈ d.tracks, d.tlen < 3 + (s.track.block zlib).body.length) :
    diskWriteUdi zlib d = .error .outside := by
  obtain ⟨tracks₁, loop₁, all₁⟩ := mapM_ok (f := udiPack) (Q := fun s s' =>
      (3 + (s.track.block zlib).body.length ≤ d.tlen → ∃ s'', udiCompress zlib s' = .ok s'') ∧
      (d.tlen < 3 + (s.track.block zlib).body.length → udiCompress zlib s' = .error .outside))
    (forall₂_map (g := updateMode)) (by
      rintro s x ⟨member, rfl⟩
      obtain ⟨s', packed, compress, outside⟩ := writeUdi_tracks wf zlib s member
      refine ⟨s', packed, fun room => ?_, outside⟩
      obtain ⟨s'', done, -⟩ := compress room
      exact ⟨s'', done⟩)
  have stop : tracks₁.mapM (udiCompress zlib) = .error .outside :=
    mapM_error all₁ (fun s s' related fits => related.1 (Nat.le_of_not_lt fits))
      (fun s s' related stops => related.2 stops) tight
  simp only [diskWriteUdi, writeUdi, updateTracksMode, loop₁, stop, bind, Except.bind]

end Writing

/-! ## Reading -/

/-- A block of a track of `bpt` bytes. -/
inductive Block.Of (bpt : Nat) : Block → Prop
  | plain (fm weak : Bool) {body : List UInt8} (length : body.length = udiTlen (typeOf fm weak) bpt) :
    Of bpt ⟨typeOf fm weak, bpt, body⟩
  | compressed {type : UInt8} {data : List UInt8} (some : 1 ≤ data.length)
    (word : data.length ≤ 65535) : Of bpt ⟨0xf0, data.length - 1,
      [type, UInt8.ofNat bpt, UInt8.ofNat (bpt / 256)] ++ data⟩

theorem block_of {t : Track} {bpt : Nat} (zlib : Zlib) (sized : t.Sized bpt) :
    (t.block zlib).Of bpt := by
  rcases block_cases zlib t with ⟨plain, -⟩ | ⟨data, -, some, word, -, block⟩
  · rw [plain, sized.data]
    exact .plain _ _ (packed_length sized)
  · rw [block, sized.data]
    exact .compressed some word

section Reading

variable {front back : List UInt8} {b : Block} {bpt : Nat}

/-- A byte behind a front. -/
theorem getD_behind (front back : List UInt8) (i : Nat) :
    (front ++ back).getD (front.length + i) 0 = back.getD i 0 := by
  rw [List.getD_eq_getElem?_getD, List.getElem?_append_right (Nat.le_add_right _ _),
    Nat.add_sub_cancel_left, List.getD_eq_getElem?_getD]

/-- A word of two bytes. -/
theorem word_ofNat {n : Nat} (word : n < 2 ^ 16) :
    (UInt8.ofNat n).toNat + 256 * (UInt8.ofNat (n / 256)).toNat = n := by
  rw [UInt8.toNat_ofNat', UInt8.toNat_ofNat']
  omega

theorem Block.Of.len_lt (block : b.Of bpt) (word : bpt < 2 ^ 16) : b.len < 2 ^ 16 := by
  cases block with
  | plain => exact word
  | compressed =>
    dsimp only
    omega

/-- What the loops see of a block. -/
theorem block_seen (block : b.Of bpt) (word : bpt < 2 ^ 16) :
    (front ++ (b.record ++ back)).getD front.length 0 = b.type ∧
      wordAt (front ++ (b.record ++ back)) (front.length + 1) = b.len ∧
      window (front ++ (b.record ++ back)) (front.length + 3) b.body.length = b.body := by
  refine ⟨?_, ?_, ?_⟩
  · have here := getD_behind front (b.record ++ back) 0
    rw [Nat.add_zero] at here
    rw [here]
    rfl
  · rw [wordAt, byteAt, byteAt, getD_behind, Nat.add_assoc, getD_behind]
    exact word_ofNat (block.len_lt word)
  · have parts : front ++ (b.record ++ back) =
        (front ++ [b.type, UInt8.ofNat b.len, UInt8.ofNat (b.len / 256)]) ++ (b.body ++ back) := by
      simp [Block.record]
    have place : front.length + 3 =
        (front ++ [b.type, UInt8.ofNat b.len, UInt8.ofNat (b.len / 256)]).length := by
      simp
    rw [parts, place]
    exact window_append

theorem Block.length_record (b : Block) : b.record.length = 3 + b.body.length := by
  simp [Block.record]
  omega

theorem typeOf_known (fm weak : Bool) : (typeOf fm weak).toNat ∈ udiTypes ∧
    (typeOf fm weak).toNat ≠ 0x83 ∧ (typeOf fm weak).toNat ≠ 0xf0 := by
  revert fm weak
  decide

theorem udiScan_done {file : List UInt8} {eof tracks fuel i index longest : Nat}
    (ended : ¬ (i < tracks ∧ index < eof)) :
    udiScan file eof tracks fuel i index longest = .ok longest := by
  cases fuel <;> rw [udiScan, if_pos ended]

theorem udiRead_done {file : List UInt8} {eof bpt fuel i index : Nat} {tracks : List Slot}
    (ended : ¬ (i < tracks.length ∧ index < eof)) :
    udiRead file eof bpt fuel i index tracks = .ok tracks := by
  cases fuel <;> rw [udiRead, if_pos ended]

/-- One turn of the first loop. -/
theorem udiScan_block (block : b.Of bpt) (word : bpt < 2 ^ 16) (behind : 4 ≤ back.length)
    {tracks fuel i longest : Nat} (more : i < tracks) :
    udiScan (front ++ (b.record ++ back)) ((front ++ (b.record ++ back)).length - 4) tracks
        (fuel + 1) i front.length longest =
      udiScan (front ++ (b.record ++ back)) ((front ++ (b.record ++ back)).length - 4) tracks
        fuel (i + 1) (front ++ b.record).length (max longest bpt) := by
  obtain ⟨type, len, -⟩ := @block_seen front back b bpt block word
  have length := b.length_record
  have whole : (front ++ (b.record ++ back)).length = front.length + (3 + b.body.length) + back.length := by
    rw [List.length_append, List.length_append, length]
    omega
  have next : (front ++ b.record).length = front.length + (3 + b.body.length) := by
    rw [List.length_append, length]
  rw [udiScan, if_neg (by rw [whole]; omega)]
  dsimp only
  rw [if_neg (by rw [whole]; omega), byteAt, type, len, next]
  cases block with
  | plain fm weak size =>
    obtain ⟨known, notMultiple, notCompressed⟩ := typeOf_known fm weak
    dsimp only at size ⊢
    rw [if_neg (not_not.mpr known), if_neg notMultiple, if_neg (fun both => notCompressed both.1),
      if_neg notCompressed]
    dsimp only
    rw [← size, buffseek, if_neg (by rw [whole]; dsimp only; omega)]
  | @compressed type' data some low =>
    have bytes : wordAt (front ++ ((Block.mk 0xf0 (data.length - 1)
        ([type', UInt8.ofNat bpt, UInt8.ofNat (bpt / 256)] ++ data)).record ++ back))
        (front.length + 4) = bpt := by
      rw [wordAt, byteAt, byteAt, getD_behind, Nat.add_assoc, getD_behind]
      exact word_ofNat word
    have known : ¬ (0xf0 : UInt8).toNat ∉ udiTypes := by decide
    have notMultiple : (0xf0 : UInt8).toNat ≠ 0x83 := by decide
    have isCompressed : (0xf0 : UInt8).toNat = 0xf0 := by decide
    rw [if_neg known, if_neg notMultiple, if_neg (by rw [whole]; simp; omega), if_pos isCompressed]
    dsimp only
    rw [bytes, buffseek, if_neg (by rw [whole]; simp; omega)]
    dsimp only
    congr 1
    simp
    omega

/-- The first loop finds the longest track. -/
theorem udiScan_spec {blocks : List Block} {bpts : List Nat}
    (all : List.Forall₂ (fun bpt b => bpt < 2 ^ 16 ∧ Block.Of bpt b) bpts blocks)
    (behind : 4 ≤ back.length) {tracks fuel i longest : Nat} (count : i + blocks.length = tracks)
    (enough : blocks.length ≤ fuel) :
    udiScan (front ++ (blocks.flatMap Block.record ++ back))
        ((front ++ (blocks.flatMap Block.record ++ back)).length - 4) tracks fuel i front.length
        longest = .ok (bpts.foldl max longest) := by
  induction all generalizing front fuel i longest with
  | nil =>
    exact udiScan_done (by rw [List.length_nil] at count; omega)
  | @cons bpt b bpts blocks here _ ih =>
    rw [List.length_cons] at count enough
    obtain ⟨fuel, rfl⟩ : ∃ n, fuel = n + 1 := ⟨fuel - 1, by omega⟩
    have file : front ++ ((b :: blocks).flatMap Block.record ++ back) =
        front ++ (b.record ++ (blocks.flatMap Block.record ++ back)) := by
      rw [List.flatMap_cons, List.append_assoc]
    have rest := @ih (front ++ b.record) fuel (i + 1) (max longest bpt) (by omega) (by omega)
    rw [List.append_assoc front] at rest
    rw [file, udiScan_block here.2 here.1 (by rw [List.length_append]; omega) (by omega), rest,
      List.foldl_cons]

/-- One turn of the second loop: the block is read into its slot, if it has room. -/
theorem udiRead_block (block : b.Of bpt) (word : bpt < 2 ^ 16) (behind : 4 ≤ back.length)
    {longest fuel : Nat} {done slots : List Slot} {s : Slot} (room : 3 + longest ≤ s.length) :
    (3 + b.body.length ≤ s.length → ∃ s', Carries b s' ∧ s'.length = s.length ∧
      udiRead (front ++ (b.record ++ back)) ((front ++ (b.record ++ back)).length - 4) longest
          (fuel + 1) done.length front.length (done ++ s :: slots) =
        udiRead (front ++ (b.record ++ back)) ((front ++ (b.record ++ back)).length - 4) longest
          fuel (done ++ [s']).length (front ++ b.record).length (done ++ [s'] ++ slots)) ∧
    (s.length < 3 + b.body.length →
      udiRead (front ++ (b.record ++ back)) ((front ++ (b.record ++ back)).length - 4) longest
          (fuel + 1) done.length front.length (done ++ s :: slots) = .error .outside) := by
  obtain ⟨type, len, body⟩ := @block_seen front back b bpt block word
  have length := b.length_record
  have whole : (front ++ (b.record ++ back)).length = front.length + (3 + b.body.length) + back.length := by
    rw [List.length_append, List.length_append, length]
    omega
  have slot : (done ++ s :: slots).getD done.length [] = s := by
    rw [List.getD_eq_getElem?_getD, List.getElem?_append_right (Nat.le_refl _), Nat.sub_self]
    rfl
  have set : ∀ s' s'' : Slot, ((done ++ s :: slots).set done.length s').set done.length s'' =
      done ++ [s''] ++ slots := by
    intro s' s''
    rw [List.set_set, List.set_append_right _ _ (Nat.le_refl _), Nat.sub_self, List.set_cons_zero,
      List.append_assoc, List.singleton_append]
  have tlen : (if b.type = 0xf0 then b.len + 4 else udiTlen b.type b.len) = b.body.length := by
    cases block with
    | plain fm weak size =>
      rw [if_neg (typeOf_bits fm weak).2.2.2.2]
      exact size.symm
    | compressed some word =>
      rw [if_pos rfl]
      simp
      omega
  have notMultiple : b.type ≠ 0x83 := by
    cases block with
    | plain fm weak size =>
      intro same
      exact (typeOf_known fm weak).2.1 (congrArg UInt8.toNat same)
    | compressed some word => exact show (0xf0 : UInt8) ≠ 0x83 by decide
  obtain ⟨s₁, fill, wrote₁⟩ := Slot.write_spec (s := s) 0 (List.replicate longest 0x4e)
    (by rw [List.length_replicate]; omega)
  obtain ⟨ttyp, cBpt, length₂⟩ := Slot.header_set s₁ b.type (show 3 ≤ s₁.length by
    rw [wrote₁.length]; omega) (block.len_lt word)
  rw [udiRead, if_neg (by rw [whole, List.length_append, List.length_cons]; omega)]
  simp only [slot, fill, bind, Except.bind, type, len, notMultiple, if_false, tlen]
  rw [if_neg (by rw [whole]; omega), body]
  constructor
  · intro fits
    obtain ⟨s', read, wrote⟩ := Slot.write_spec (s := (s₁.setType b.type).setLen b.len) 0 b.body
      (by rw [length₂, wrote₁.length]; omega)
    have size : s'.length = s.length := wrote.length.trans (length₂.trans wrote₁.length)
    refine ⟨s', ⟨by rw [size]; exact fits, wrote.ttyp.trans ttyp, wrote.cBpt.trans cBpt,
      wrote.written⟩, size, ?_⟩
    have next : (front ++ b.record).length = front.length + 3 + b.body.length := by
      rw [List.length_append, length, Nat.add_assoc]
    have turns : (done ++ [s']).length = done.length + 1 := List.length_append
    rw [read, next, turns]
    dsimp only
    rw [set]
  · intro tight
    rw [Slot.write, if_neg (by rw [length₂, wrote₁.length]; omega)]

/-- The second loop reads the blocks into the slots. -/
theorem udiRead_spec {blocks : List Block} {bpts : List Nat} {slots : List Slot}
    (all : List.Forall₂ (fun bpt b => bpt < 2 ^ 16 ∧ Block.Of bpt b) bpts blocks)
    (behind : 4 ≤ back.length) {longest tlen fuel : Nat} {done : List Slot}
    (count : slots.length = blocks.length) (sizes : ∀ s ∈ slots, s.length = tlen)
    (room : 3 + longest ≤ tlen) (enough : blocks.length ≤ fuel) :
    ((∀ b ∈ blocks, 3 + b.body.length ≤ tlen) →
      ∃ slots', udiRead (front ++ (blocks.flatMap Block.record ++ back))
          ((front ++ (blocks.flatMap Block.record ++ back)).length - 4) longest fuel done.length
          front.length (done ++ slots) = .ok (done ++ slots') ∧
        List.Forall₂ (fun b s => s.length = tlen ∧ Carries b s) blocks slots') ∧
    ((∃ b ∈ blocks, tlen < 3 + b.body.length) →
      udiRead (front ++ (blocks.flatMap Block.record ++ back))
        ((front ++ (blocks.flatMap Block.record ++ back)).length - 4) longest fuel done.length
        front.length (done ++ slots) = .error .outside) := by
  induction all generalizing front fuel done slots with
  | nil =>
    obtain rfl := List.length_eq_zero_iff.mp count
    refine ⟨fun _ => ⟨[], udiRead_done (by simp), .nil⟩, fun tight => ?_⟩
    obtain ⟨b, member, -⟩ := tight
    cases member
  | @cons bpt b bpts blocks here _ ih =>
    cases slots with
    | nil => cases count
    | cons s slots =>
      rw [List.length_cons] at enough
      obtain ⟨fuel, rfl⟩ : ∃ n, fuel = n + 1 := ⟨fuel - 1, by omega⟩
      have file : front ++ ((b :: blocks).flatMap Block.record ++ back) =
          front ++ (b.record ++ (blocks.flatMap Block.record ++ back)) := by
        rw [List.flatMap_cons, List.append_assoc]
      have size := sizes s List.mem_cons_self
      obtain ⟨reads, stops⟩ := @udiRead_block front (blocks.flatMap Block.record ++ back) b bpt here.2
        here.1 (by rw [List.length_append]; omega) longest fuel done slots s (by omega)
      rw [file]
      by_cases fits : 3 + b.body.length ≤ tlen
      · obtain ⟨s', carries, size', turn⟩ := reads (by omega)
        rw [turn]
        have rest := @ih (front ++ b.record) slots fuel (done ++ [s']) (Nat.succ.inj count)
          (fun s member => sizes s (List.mem_cons_of_mem _ member)) (by omega)
        rw [List.append_assoc front] at rest
        constructor
        · intro all
          obtain ⟨slots', loop, carry⟩ := rest.1 fun b member => all b (List.mem_cons_of_mem _ member)
          refine ⟨s' :: slots', ?_, .cons ⟨size'.trans size, carries⟩ carry⟩
          rw [loop, List.append_assoc]
          rfl
        · rintro ⟨b', member, tight⟩
          rcases List.mem_cons.mp member with rfl | later
          · omega
          · exact rest.2 ⟨b', later, tight⟩
      · exact ⟨fun all => absurd (all b List.mem_cons_self) fits, fun _ => stops (by omega)⟩

end Reading

/-! ## The whole file -/

section File

variable {d : Disk} {zlib : Zlib}

/-- Four bytes, read as two words. -/
theorem bytes4_words {n : Nat} (word : n < 2 ^ 32) :
    (UInt8.ofNat n).toNat + 256 * (UInt8.ofNat (n / 2 ^ 8)).toNat +
      2 ^ 16 * ((UInt8.ofNat (n / 2 ^ 16)).toNat + 256 * (UInt8.ofNat (n / 2 ^ 24)).toNat) = n := by
  simp only [UInt8.toNat_ofNat']
  omega

theorem Block.Of.length_le {b : Block} {bpt : Nat} (block : b.Of bpt) (word : bpt < 2 ^ 16) :
    3 + b.body.length ≤ 100000 := by
  have bitmap : clen bpt ≤ 8192 := by
    rw [clen]
    split_ifs <;> omega
  cases block with
  | plain fm weak size =>
    dsimp only
    rw [size, udiTlen_typeOf]
    split_ifs <;> omega
  | compressed some low =>
    simp only [List.length_append, List.length_cons, List.length_nil]
    omega

theorem sum_le {ns : List Nat} {bound : Nat} (le : ∀ n ∈ ns, n ≤ bound) :
    ns.sum ≤ ns.length * bound := by
  induction ns with
  | nil => simp
  | cons n ns ih =>
    have here := le n List.mem_cons_self
    have rest := ih fun n' member => le n' (List.mem_cons_of_mem _ member)
    rw [List.sum_cons, List.length_cons, Nat.add_one_mul]
    omega

/-- The blocks of the tracks, in their order. -/
theorem WellFormed.blocks_of (wf : WellFormed d) (zlib : Zlib) :
    List.Forall₂ (fun bpt b => bpt < 2 ^ 16 ∧ Block.Of bpt b) (d.tracks.map Slot.cBpt)
      (d.blocks zlib) := by
  rw [Disk.blocks, List.forall₂_map_left_iff, List.forall₂_map_right_iff, List.forall₂_same]
  exact fun s member => ⟨s.cBpt_lt, block_of zlib (sized_track (wf.roomy member))⟩

theorem WellFormed.len_lt (wf : WellFormed d) (zlib : Zlib) :
    16 + ((d.blocks zlib).map fun b => 3 + b.body.length).sum < 2 ^ 32 := by
  have each : ∀ n ∈ (d.blocks zlib).map fun b => 3 + b.body.length, n ≤ 100000 := by
    intro n member
    obtain ⟨b, block, rfl⟩ := List.mem_map.mp member
    obtain ⟨s, slot, rfl⟩ := List.mem_map.mp block
    exact (block_of zlib (sized_track (wf.roomy slot))).length_le s.cBpt_lt
  have whole := sum_le each
  have count := wf.count
  have sides := wf.sides.2
  have cylinders := wf.cylinders.2
  have most : d.sides * d.cylinders ≤ 2 * 86 := Nat.mul_le_mul sides cylinders
  have length : (d.blocks zlib).length = d.sides * d.cylinders := by
    rw [Disk.blocks, List.length_map, count]
  rw [List.length_map, length] at whole
  omega

theorem Slot.length_setLen (s : Slot) (len : Nat) : (s.setLen len).length = s.length := by
  rw [Slot.setLen, List.length_set, List.length_set]

theorem diskUpdateTlens_slots (d : Disk) {tlen : Nat} (sizes : ∀ s ∈ d.tracks, s.length = tlen) :
    ∀ s ∈ (diskUpdateTlens d).tracks, s.length = tlen := by
  intro s member
  obtain ⟨s', slot, rfl⟩ := List.mem_map.mp member
  split
  · rw [Slot.length_setLen, sizes s' slot]
  · exact sizes s' slot

/-- The slots of a disk whose slot length is given. -/
theorem diskAlloc_spec {sides cylinders tlen : Nat} (some : 0 < sides * cylinders * tlen) :
    ∃ tracks, diskAlloc { sides, cylinders, bpt := 0, tlen, density := .diskDensAuto, tracks := [] } =
        .ok { sides, cylinders, bpt := 0, tlen, density := .diskDensAuto, tracks } ∧
      tracks.length = sides * cylinders ∧ ∀ s ∈ tracks, s.length = tlen := by
  have alloc : diskAlloc { sides, cylinders, bpt := 0, tlen, density := .diskDensAuto, tracks := [] } =
      if sides * cylinders * tlen = 0 then .error (.status .diskGeom)
      else .ok (diskUpdateTlens { sides, cylinders, bpt := 0, tlen, density := .diskDensAuto
                                  tracks := List.replicate (sides * cylinders)
                                    (List.replicate tlen 0) }) := rfl
  rw [alloc, if_neg (by omega)]
  refine ⟨_, rfl, ?_, ?_⟩
  · rw [List.length_map, List.length_replicate]
  · refine diskUpdateTlens_slots _ fun s member => ?_
    rw [(List.mem_replicate.mp member).2, List.length_replicate]

/-- The file opened: its tracks, where each block has room in a slot of the longest. -/
theorem openUdi_udiFile (wf : WellFormed d) :
    ((∀ b ∈ d.blocks zlib, 3 + b.body.length ≤ 3 + d.longest + 3 * clen d.longest) →
      ∃ d', openUdi zlib (udiFile d (d.blocks zlib)) = .ok d' ∧ SameTracks d d') ∧
    ((∃ b ∈ d.blocks zlib, 3 + d.longest + 3 * clen d.longest < 3 + b.body.length) →
      openUdi zlib (udiFile d (d.blocks zlib)) = .error .outside) := by
  have len_lt := wf.len_lt zlib
  have all := wf.blocks_of zlib
  generalize sum : 16 + ((d.blocks zlib).map fun b => 3 + b.body.length).sum = len at len_lt
  generalize head_ : udiHead d len = head
  have headLength : head.length = 16 := by
    rw [← head_]
    rfl
  generalize body_ : head ++ (d.blocks zlib).flatMap Block.record = body
  generalize crc_ : body.foldl crcUdi (BitVec.allOnes 32) = crc
  have bodyLength : body.length = len := by
    rw [← body_, List.length_append, headLength, List.length_flatMap, ← sum]
    simp only [Block.length_record]
  have file : udiFile d (d.blocks zlib) = body ++ bytes4 crc.toNat := by
    rw [udiFile, sum, head_, body_, crc_]
  have fileLength : (body ++ bytes4 crc.toNat).length - 4 = len := by
    rw [List.length_append, bodyLength]
    rfl
  have eof : wordAt (body ++ bytes4 crc.toNat) 4 + 2 ^ 16 * wordAt (body ++ bytes4 crc.toNat) 6 =
      len := by
    rw [← body_, ← head_]
    exact bytes4_words len_lt
  have checksum : BitVec.ofNat 32 (wordAt (body ++ bytes4 crc.toNat) len +
      2 ^ 16 * wordAt (body ++ bytes4 crc.toNat) (len + 2)) = crc := by
    have byte : ∀ i, byteAt (body ++ bytes4 crc.toNat) (len + i) = byteAt (bytes4 crc.toNat) i := by
      intro i
      rw [byteAt, ← bodyLength, getD_behind, byteAt]
    have last : byteAt (bytes4 crc.toNat) 0 + 256 * byteAt (bytes4 crc.toNat) 1 + 2 ^ 16 *
        (byteAt (bytes4 crc.toNat) 2 + 256 * byteAt (bytes4 crc.toNat) 3) = crc.toNat :=
      bytes4_words crc.isLt
    have first := byte 0
    rw [Nat.add_zero] at first
    rw [wordAt, wordAt, Nat.add_assoc len 2 1, first, byte, byte, byte, last, BitVec.ofNat_toNat,
      BitVec.setWidth_eq]
  have sides : byteAt (body ++ bytes4 crc.toNat) 10 + 1 = d.sides := by
    have here : byteAt (body ++ bytes4 crc.toNat) 10 = (UInt8.ofNat (d.sides - 1)).toNat := by
      rw [← body_, ← head_]
      rfl
    have bounds := wf.sides
    rw [here, UInt8.toNat_ofNat']
    omega
  have cylinders : byteAt (body ++ bytes4 crc.toNat) 9 + 1 = d.cylinders := by
    have here : byteAt (body ++ bytes4 crc.toNat) 9 = (UInt8.ofNat (d.cylinders - 1)).toNat := by
      rw [← body_, ← head_]
      rfl
    have bounds := wf.cylinders
    rw [here, UInt8.toNat_ofNat']
    omega
  have geom : geomCheck d.sides d.cylinders = .ok () := by
    have bounds := wf.sides
    have bounds' := wf.cylinders
    exact if_neg (by omega)
  have count : (d.blocks zlib).length = d.sides * d.cylinders := by
    rw [Disk.blocks, List.length_map, wf.count]
  have positive : 0 < d.sides * d.cylinders := Nat.mul_pos wf.sides.1 wf.cylinders.1
  have split : body ++ bytes4 crc.toNat =
      head ++ ((d.blocks zlib).flatMap Block.record ++ bytes4 crc.toNat) := by
    rw [← body_, List.append_assoc]
  have scan := @udiScan_spec head (bytes4 crc.toNat) _ _ all (Nat.le_refl 4) _
    (d.sides * d.cylinders + (body ++ bytes4 crc.toNat).length + 1) 0 0 (Nat.zero_add _) (by omega)
  rw [← split, fileLength, headLength, count] at scan
  have some : 1 ≤ d.longest := by
    obtain ⟨s, member⟩ := List.exists_mem_of_length_pos (show 0 < d.tracks.length by rw [wf.count]; exact positive)
    exact Nat.le_trans (wf.lengths s member).1 (cBpt_le_longest member)
  obtain ⟨slots, alloc, slotCount, sizes⟩ := @diskAlloc_spec d.sides d.cylinders
    (3 + d.longest + 3 * clen d.longest) (Nat.mul_pos positive (by omega))
  have read := @udiRead_spec head (bytes4 crc.toNat) _ _ slots all (Nat.le_refl 4) d.longest _
    (d.sides * d.cylinders + (body ++ bytes4 crc.toNat).length + 1) [] (by rw [slotCount, count])
    sizes (by omega) (by omega)
  rw [← split, fileLength, headLength, List.nil_append] at read
  rw [file]
  have front : openUdi zlib (body ++ bytes4 crc.toNat) = (do
      let tracks ← udiRead (body ++ bytes4 crc.toNat) len d.longest
        (d.sides * d.cylinders + (body ++ bytes4 crc.toNat).length + 1) 0 16 slots
      let tracks ← tracks.mapM (udiUncompress zlib)
      let tracks ← tracks.mapM udiUnpack
      return { sides := d.sides, cylinders := d.cylinders, bpt := d.longest
               tlen := 3 + d.longest + 3 * clen d.longest, density := .diskDensAuto, tracks }) := by
    have taken : (body ++ bytes4 crc.toNat).take len = body := List.take_left' bodyLength
    rw [openUdi]
    dsimp only
    rw [eof, fileLength, if_neg (by omega), taken, crc_, checksum, if_neg (by simp), sides, cylinders,
      geom]
    simp only [bind, Except.bind, scan]
    rw [show (d.tracks.map Slot.cBpt).foldl max 0 = d.longest from rfl, if_neg (by omega), alloc]
  rw [front]
  constructor
  · intro room
    obtain ⟨slots', loop, carry⟩ := read.1 fun b member => by
      have here := room b member
      omega
    rw [List.nil_append] at loop
    rw [Disk.blocks, List.forall₂_map_left_iff] at carry
    obtain ⟨tracks, tracks', loop', loop'', all'⟩ := restore wf (Nat.le_refl _) (forall₂_mem carry)
    simp only [List.length_nil] at loop
    rw [loop]
    simp only [bind, Except.bind, loop', loop'', pure, Except.pure]
    exact ⟨_, rfl, rfl, rfl, all'⟩
  · intro tight
    simp only [List.length_nil] at read
    rw [read.2 tight]
    rfl

/-! ## The round trip -/

/-- The condition is that each block has room in a slot of the longest track. -/
theorem fits_iff (wf : WellFormed d) : Fits zlib d ↔
    ∀ s ∈ d.tracks, (s.track.block zlib).body.length ≤ d.longest + 3 * clen d.longest := by
  constructor
  · intro fits s member
    rcases block_cases zlib s.track with ⟨plain, -⟩ | ⟨data, made, some, word, short, block⟩
    · have sized := sized_track (wf.roomy member)
      have le := cBpt_le_longest member
      have mono := clen_mono le
      rw [plain]
      dsimp only
      rw [packed_length sized, Track.type, udiTlen_typeOf]
      split_ifs <;> omega
    · have here := fits s member data made some word short
      rw [block]
      simp only [List.length_append, List.length_cons, List.length_nil]
      omega
  · intro room s member data made some word short
    have here := room s member
    rcases block_cases zlib s.track with ⟨-, large⟩ | ⟨data', made', -, -, -, block⟩
    · have skipped := large data made
      omega
    · obtain rfl := Option.some.inj (made.symm.trans made')
      rw [block] at here
      simp only [List.length_append, List.length_cons, List.length_nil] at here
      omega

/-- A disk goes to a UDI image and back exactly when the compressed tracks fit. -/
theorem roundTrip_iff (zlib : Zlib) (d : Disk) (wf : WellFormed d) :
    RoundTrip zlib d ↔ Fits zlib d := by
  rw [fits_iff wf]
  have memory := wf.longest_room
  have blocks : ∀ {P : Block → Prop}, (∀ b ∈ d.blocks zlib, P b) ↔
      ∀ s ∈ d.tracks, P (s.track.block zlib) := by
    intro P
    rw [Disk.blocks, List.forall_mem_map]
  obtain ⟨reads, stops⟩ := @openUdi_udiFile d zlib wf
  constructor
  · rintro ⟨file, d', d'', write, read, -, -⟩
    by_cases room : ∀ s ∈ d.tracks, 3 + (s.track.block zlib).body.length ≤ d.tlen
    · obtain ⟨d₁, write', -⟩ := diskWriteUdi_ok wf room
      rw [write] at write'
      cases write'
      intro s member
      by_contra tight
      have stop := stops ⟨_, List.mem_map_of_mem member, by omega⟩
      rw [read] at stop
      cases stop
    · obtain ⟨s, member, tight⟩ : ∃ s ∈ d.tracks, d.tlen < 3 + (s.track.block zlib).body.length := by
        by_contra none
        refine room fun s member => ?_
        by_contra tight
        exact none ⟨s, member, by omega⟩
      have stop := diskWriteUdi_outside wf ⟨s, member, tight⟩
      rw [write] at stop
      cases stop
  · intro room
    obtain ⟨d', write, same⟩ := @diskWriteUdi_ok d zlib wf fun s member => by
      have here := room s member
      omega
    obtain ⟨d'', read, same'⟩ := reads (blocks.mpr fun s member => by
      have here := room s member
      omega)
    exact ⟨_, d', d'', write, read, same, same'⟩

end File

/-! ## A track of eight bytes -/

/-- A disk of one track that has clock, FM and weak marks. -/
def oneTrack : Disk where
  sides := 1
  cylinders := 1
  bpt := 8
  tlen := 14
  density := .diskDensAuto
  tracks := [[8, 0, 0] ++ [0xa1, 0xfe, 0, 0, 1, 1, 0x4e, 0x4e] ++ [0x01] ++ [0x80] ++ [0x40]]

/-- A compressor that makes the track one byte shorter. -/
def shortZlib : Zlib where
  compress input := if input = [0xa1, 0xfe, 0, 0, 1, 1, 0x4e, 0x4e, 0x01, 0x80, 0x40] then
    some [0, 1, 2, 3, 4, 5, 6, 7, 8, 9] else none
  inflate input olength := if input = [0, 1, 2, 3, 4, 5, 6, 7, 8, 9] ∧ olength = 11 then
    some [0xa1, 0xfe, 0, 0, 1, 1, 0x4e, 0x4e, 0x01, 0x80, 0x40] else none
  length_inflate := by
    intro input olength output made
    obtain ⟨⟨-, rfl⟩, rfl⟩ := Option.ite_none_right_eq_some.mp made |>.imp id Option.some.inj
    rfl
  inflate_compress := by
    intro input output made
    obtain ⟨rfl, rfl⟩ := Option.ite_none_right_eq_some.mp made |>.imp id Option.some.inj
    rfl

theorem wellFormed_oneTrack : WellFormed oneTrack where
  sides := by decide
  cylinders := by decide
  count := rfl
  slots := by decide
  lengths := by decide
  room := by decide

theorem roundTrip_iff_oneTrack : RoundTrip shortZlib oneTrack ↔ Fits shortZlib oneTrack :=
  roundTrip_iff shortZlib oneTrack wellFormed_oneTrack

/-- The compressed track is written over the end of its slot. -/
theorem short_track_outside : ¬ RoundTrip shortZlib oneTrack := by
  rintro ⟨file, d', d'', write, -⟩
  have stop : diskWriteUdi shortZlib oneTrack = .error .outside := rfl
  rw [write] at stop
  cases stop

end FuseX.Disk
