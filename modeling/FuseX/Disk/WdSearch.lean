import FuseX.Disk.WdFdc
import FuseX.Disk.Sectors

/-!
# The search for a sector

`read_id` and `wd_fdc_type_ii_seek` on a track that has a sector with standard gaps.
Positions count on over the index hole, so each step of a search is a step to a
larger position. The sync bytes of the sector stop every field that begins in front
of it, so no step passes the address mark of the sector; and the revolution counter
and the turns of the position always make the same sum.
-/

namespace FuseX.Disk.Wd

open Fdd

/-! ## A controller at a position -/

/-- The registers that a search and a transfer leave alone. -/
def rest (f : WdFdc) : WdFdc :=
  { f with
    idMark := .none, idTrack := 0, idHead := 0, idSector := 0, idLength := 0
    sectorLength := 0, ddam := false, rev := 0, crc := 0
    statusRegister := { f.statusRegister with crcerr := false } }

/-- The next byte of the track is at `x`, and the rest is as given. -/
structure Here (f : WdFdc) (l : FddLines) (t : TrackSlot) (x : Nat) (s : Wd) : Prop where
  rest_eq : rest s.f = f
  lines : s.d.toFddLines = l
  track : s.d.track = t
  at_x : s.d.At x

/-- In a search, revolutions left and turns made have the sum `c`. -/
structure Seek (f : WdFdc) (l : FddLines) (t : TrackSlot) (c : Int) (x : Nat) (s : Wd) : Prop
    extends Here f l t x s where
  turns : s.f.rev + (x / t.cBpt : Nat) = c

theorem succ_div_cases (n x : Nat) (pos : 0 < n) :
    (x + 1) / n = if (x + 1) % n = 0 then x / n + 1 else x / n := by
  rw [Nat.succ_div]
  by_cases divides : n ∣ x + 1
  · rw [if_pos divides, if_pos (Nat.mod_eq_zero_of_dvd divides)]
  · rw [if_neg divides, if_neg fun zero => divides (Nat.dvd_of_mod_eq_zero zero)]
    rfl

section Steps

variable {f : WdFdc} {l : FddLines} {t : TrackSlot} {c : Int} {x y : Nat} {s : Wd}

theorem Here.set (here : Here f l t x s) {f' : WdFdc} (same : rest f' = rest s.f) :
    Here f l t x { s with f := f' } where
  rest_eq := same.trans here.rest_eq
  lines := here.lines
  track := here.track
  at_x := here.at_x

theorem Here.set_rest (here : Here f l t x s) {f' f'' : WdFdc} (rest_eq : rest f' = f'') :
    Here f'' l t x { s with f := f' } where
  rest_eq := rest_eq
  lines := here.lines
  track := here.track
  at_x := here.at_x

theorem Seek.set (seek : Seek f l t c x s) {f' : WdFdc} (same : rest f' = rest s.f)
    (same_rev : f'.rev = s.f.rev) : Seek f l t c x { s with f := f' } where
  toHere := seek.toHere.set same
  turns := by
    rw [← seek.turns, ← same_rev]

section Online

variable (online : l.online = true) (some_byte : 0 < t.cBpt)

include online some_byte

theorem Here.read_spec (here : Here f l t x s) : ReadFrom s.d x (read s).d := by
  apply readData_spec _ _ here.at_x
  · rw [here.lines]
    exact online
  · rw [cBpt, here.track]
    exact some_byte

theorem read_here (here : Here f l t x s) :
    Here f l t (x + 1) (read s) ∧ Reads (t.cellAt x) (read s).d.data := by
  have spec := here.read_spec online some_byte
  constructor
  · exact
      { rest_eq := here.rest_eq
        lines := spec.lines.trans here.lines
        track := spec.track.trans here.track
        at_x := spec.at_next }
  · have reads := spec.reads
    rw [cBpt, here.track] at reads
    exact reads

theorem readRev_seek (seek : Seek f l t c x s) :
    Seek f l t c (x + 1) (readRev s) ∧ Reads (t.cellAt x) (readRev s).d.data ∧
      (readRev s).f.crc = s.f.crc := by
  have spec := seek.toHere.read_spec online some_byte
  obtain ⟨here, reads⟩ := read_here online some_byte seek.toHere
  have turns := seek.turns
  have index := spec.index
  have div := succ_div_cases t.cBpt x some_byte
  rw [cBpt, seek.track] at index
  by_cases hole : (x + 1) % t.cBpt = 0
  · rw [if_pos hole] at div
    have read_eq : readRev s = { read s with f.rev := s.f.rev - 1 } :=
      if_pos (by rw [index]; exact decide_eq_true hole)
    rw [read_eq]
    refine ⟨{ toHere := here.set rfl, turns := ?_ }, reads, rfl⟩
    rw [div]
    push_cast
    omega
  · rw [if_neg hole] at div
    have read_eq : readRev s = read s :=
      if_neg (by rw [index, decide_eq_false hole]; exact Bool.false_ne_true)
    rw [read_eq]
    refine ⟨{ toHere := here, turns := ?_ }, reads, rfl⟩
    rw [div]
    exact turns

/-! ## Marks -/

omit online some_byte in
/-- A run of marks that begins at `x` ends at some `y`, and the byte behind it is read. -/
theorem skipMarks_spec {P : Nat → Wd → Prop} {step : Wd → Wd}
    (steps : ∀ {x s}, P x s → P (x + 1) (step s) ∧ Reads (t.cellAt x) (step s).d.data)
    (n : Nat) {x : Nat} {s : Wd} (here : P (x + 1) s) (mark : Reads (t.cellAt x) 0xffa1) :
    ∃ y, x ≤ y ∧ y ≤ x + n ∧ P (y + 2) (skipMarks step (n + 1) s) ∧
      (∀ j, x ≤ j → j ≤ y → Reads (t.cellAt j) 0xffa1) ∧
      Reads (t.cellAt (y + 1)) (skipMarks step (n + 1) s).d.data ∧
      ((skipMarks step (n + 1) s).d.data = 0xffa1 → y = x + n) := by
  induction n generalizing x s with
  | zero =>
    obtain ⟨next, reads⟩ := steps here
    have skip : skipMarks step 1 s = step s := by
      simp only [skipMarks, ite_self]
    rw [skip]
    refine ⟨x, Nat.le_refl x, Nat.le_refl x, next, ?_, reads, fun _ => rfl⟩
    intro j from_x to_x
    rw [show j = x by omega]
    exact mark
  | succ n ih =>
    obtain ⟨next, reads⟩ := steps here
    rw [skipMarks]
    by_cases again : (step s).d.data = 0xffa1
    · rw [if_pos again]
      obtain ⟨y, from_x, to_n, here', run, last, full⟩ := ih next (by rwa [again] at reads)
      refine ⟨y, by omega, by omega, here', ?_, last, fun mark' => by rw [full mark']; omega⟩
      intro j from_j to_y
      rcases Nat.eq_or_lt_of_le from_j with rfl | later
      · exact mark
      · exact run j later to_y
    · rw [if_neg again]
      refine ⟨x, Nat.le_refl x, by omega, next, ?_, reads, fun mark' => absurd mark' again⟩
      intro j from_x to_x
      rw [show j = x by omega]
      exact mark

end Online

end Steps

/-! ## ID fields -/

/-- Where the ID address mark is, from the sync bytes on. -/
def markOffset (mfm : Bool) : Nat :=
  if mfm then 15 else 6

/-- The last position from which a scan finds the ID address mark. -/
def lastStart (mfm : Bool) : Nat :=
  if mfm then 14 else 6

section Sector

variable {f : WdFdc} {l : FddLines} {t : TrackSlot} {c : Int} {x y p : Nat} {s : Wd}
  {id : IdValues}

/-- The sync bytes of an ID field. -/
theorem sync_zero {mfm : Bool} {image : List Nat} (holds : t.Holds p (sync mfm ++ image)) {k : Nat}
    (k_lt : k < if mfm then 12 else 6) : Firm (t.cellAt (p + k)) 0x00 := by
  apply holds k
  cases mfm with
  | true =>
    have k_lt : k < 12 := k_lt
    rw [sync, if_pos rfl, List.append_assoc, List.getElem?_append_left (by simpa using k_lt),
      List.getElem?_replicate, if_pos k_lt]
  | false =>
    have k_lt : k < 6 := k_lt
    rw [sync, if_neg Bool.false_ne_true, List.getElem?_append_left (by simpa using k_lt),
      List.getElem?_replicate, if_pos k_lt]

/-- The marks of an MFM field. -/
theorem sync_mark {image : List Nat} (holds : t.Holds p (sync true ++ image)) {k : Nat}
    (k_ge : 12 ≤ k) (k_lt : k < 15) : Firm (t.cellAt (p + k)) 0xffa1 := by
  apply holds k
  rw [List.getElem?_append_left (by rw [length_sync]; exact k_lt), sync, if_pos rfl,
    List.getElem?_append_right (by simpa using k_ge), List.getElem?_replicate,
    if_pos (by simp; omega)]

/-- The address mark of a field. -/
theorem field_mark {mfm : Bool} {mark : Nat} {data : List Nat}
    (holds : t.Holds p (sync mfm ++ field mfm mark data)) :
    Firm (t.cellAt (p + markOffset mfm)) (addressMark mfm mark) := by
  apply holds (markOffset mfm)
  rw [List.getElem?_append_right (by rw [length_sync]; exact Nat.le_refl _),
    length_sync, markOffset, Nat.sub_self]
  rfl

/-- A scan from `x` reads an address mark at `y`, or passes what is there; but not the
sector that begins at `p`. -/
structure MarkScan (f : WdFdc) (l : FddLines) (t : TrackSlot) (c : Int) (mfm : Bool) (p x y : Nat)
    (found : Bool) (s : Wd) : Prop where
  from_x : x ≤ y
  behind_run : found = true → mfm = true → x < y
  seek : Seek f l t c (y + 1) s
  passed : found = false → y + 1 ≤ p + lastStart mfm
  place : found = true → y < p ∨ y = p + markOffset mfm
  crc : found = true → s.f.crc = crcFdc (crcStart mfm) (UInt8.ofNat 0xfe)
  run : found = true → mfm = true → Reads (t.cellAt (y + (t.cBpt - 1))) 0xffa1
  mark : found = true → Reads (t.cellAt y) (addressMark mfm 0xfe)

theorem Seek.dden (seek : Seek f l t c x s) : s.f.dden = f.dden := by
  rw [← seek.rest_eq]
  rfl

section Online

variable (online : l.online = true) (some_byte : 0 < t.cBpt)

include online some_byte

theorem readIdMark_mfm (mfm : f.dden = true) (holds : t.Holds p (idImage true id))
    (start : x ≤ p + lastStart true) (seek : Seek f l t c x s) :
    ∃ y, MarkScan f l t c true p x y (readIdMark s).1 (readIdMark s).2 := by
  have zero : ∀ k < 12, Firm (t.cellAt (p + k)) 0x00 := fun k k_lt => sync_zero holds k_lt
  have marks : ∀ k, 12 ≤ k → k < 15 → Firm (t.cellAt (p + k)) 0xffa1 :=
    fun k k_ge k_lt => sync_mark holds k_ge k_lt
  have address : Firm (t.cellAt (p + 15)) (addressMark true 0xfe) := @field_mark t p true _ _ holds
  have start : x ≤ p + 14 := start
  obtain ⟨next, reads, -⟩ := readRev_seek online some_byte seek
  rw [readIdMark, if_pos (seek.dden.trans mfm)]
  by_cases mark : (readRev s).d.data = 0xffa1
  · rw [if_neg (not_not.mpr mark)]
    rw [mark] at reads
    obtain ⟨y, from_x, to_n, here, run, last, full⟩ := skipMarks_spec
      (fun {x s} (seek : Seek f l t c x s) =>
        ⟨(readRev_seek online some_byte seek).1, (readRev_seek online some_byte seek).2.1⟩)
      3 next reads
    have not_zero : ∀ k < 12, ¬ (x ≤ p + k ∧ p + k ≤ y) := fun k k_lt between => by
      have found := (zero k k_lt).eq_of_reads (run (p + k) between.1 between.2)
      omega
    have not_address : ¬ (x ≤ p + 15 ∧ p + 15 ≤ y) := fun between => by
      have found := address.eq_of_reads (run (p + 15) between.1 between.2)
      rw [addressMark, if_pos rfl] at found
      omega
    generalize skipMarks readRev 4 s.readRev = s' at here last full
    have here' : Seek f l t c (y + 1 + 1) (crcAdd (crcPresetAm s')) := here.set rfl rfl
    have before : Reads (t.cellAt (y + 1 + (t.cBpt - 1))) 0xffa1 := by
      rw [@TrackSlot.cellAt_congr t _ y
        (by rw [show y + 1 + (t.cBpt - 1) = y + t.cBpt by omega, Nat.add_mod_right])]
      exact run y from_x (Nat.le_refl y)
    have crc : s'.d.data = 0x00fe →
        (crcAdd (crcPresetAm s')).f.crc = crcFdc (crcStart true) (UInt8.ofNat 0xfe) := by
      intro data
      rw [crcAdd, show (crcPresetAm s').d.data = s'.d.data from rfl, data]
      rfl
    -- the run is in front of the sector, or it is the one of its ID field
    have place : y + 1 ≤ p ∨ (y = p + 14 ∧ s'.d.data = 0x00fe) := by
      rcases Nat.lt_or_ge x p with before_p | behind_p
      · have inside := not_zero 0 (by decide)
        omega
      · have from_marks : p + 12 ≤ x := by
          by_contra short
          apply not_zero (x - p) (by omega)
          omega
        have to_marks : y ≤ p + 14 := by
          by_contra long
          apply not_address
          omega
        rcases Nat.eq_or_lt_of_le to_marks with rfl | in_run
        · exact Or.inr ⟨rfl, address.eq_of_reads last⟩
        · have mark' := marks (y + 1 - p) (by omega) (by omega)
          rw [show p + (y + 1 - p) = y + 1 by omega] at mark'
          have ends := full (mark'.eq_of_reads last)
          omega
    refine ⟨y + 1,
      { from_x := by omega
        behind_run := fun _ _ => by omega
        seek := here'
        passed := ?_
        place := ?_
        crc := fun found => crc (of_decide_eq_true found)
        run := fun _ _ => before
        mark := fun found => by
          rw [show addressMark true 0xfe = s'.d.data from (of_decide_eq_true found).symm]
          exact last }⟩
    · intro not_found
      have not_fe := of_decide_eq_false not_found
      rcases place with in_front | ⟨-, fe⟩
      · show y + 1 + 1 ≤ p + 14
        omega
      · exact absurd fe not_fe
    · intro found
      have fe : s'.d.data = 0x00fe := of_decide_eq_true found
      rcases place with in_front | ⟨rfl, -⟩
      · left
        by_contra at_p
        have first := zero 0 (by decide)
        rw [show p + 0 = y + 1 by omega] at first
        have is_zero := first.eq_of_reads last
        omega
      · exact Or.inr rfl
  · rw [if_pos mark]
    refine ⟨x,
      { from_x := Nat.le_refl x
        behind_run := fun found => Bool.noConfusion found
        seek := next
        passed := fun _ => ?_
        place := fun found => Bool.noConfusion found
        crc := fun found => Bool.noConfusion found
        run := fun found => Bool.noConfusion found
        mark := fun found => Bool.noConfusion found }⟩
    show x + 1 ≤ p + 14
    by_contra last
    apply mark
    have mark' := marks 14 (by decide) (by decide)
    rw [show p + 14 = x by omega] at mark'
    exact mark'.eq_of_reads reads

theorem readIdMark_fm (fm : f.dden = false) (holds : t.Holds p (idImage false id))
    (start : x ≤ p + lastStart false) (seek : Seek f l t c x s) :
    ∃ y, MarkScan f l t c false p x y (readIdMark s).1 (readIdMark s).2 := by
  have zero : ∀ k < 6, Firm (t.cellAt (p + k)) 0x00 := fun k k_lt => sync_zero holds k_lt
  have address : Firm (t.cellAt (p + 6)) (addressMark false 0xfe) := @field_mark t p false _ _ holds
  have start : x ≤ p + 6 := start
  obtain ⟨next, reads, crc⟩ := readRev_seek online some_byte
    (show Seek f l t c x (crcPreset s) from seek.set rfl rfl)
  rw [readIdMark, if_neg (by rw [seek.dden, fm]; exact Bool.false_ne_true)]
  generalize readRev (crcPreset s) = s' at next reads crc
  have crc_eq : (crcAdd s').f.crc = crcFdc 0xffff (UInt8.ofNat s'.d.data) := by
    rw [crcAdd, crc]
    rfl
  refine ⟨x,
    { from_x := Nat.le_refl x
      behind_run := fun _ mfm => Bool.noConfusion mfm
      seek := next.set rfl rfl
      passed := fun not_found => ?_
      place := fun found => ?_
      crc := fun found => ?_
      run := fun _ mfm => Bool.noConfusion mfm
      mark := fun found => ?_ }⟩
  · have not_fe := of_decide_eq_false not_found
    show x + 1 ≤ p + 6
    by_contra last
    apply not_fe
    rw [show p + 6 = x by omega] at address
    exact address.eq_of_reads reads
  · have fe : s'.d.data = 0xfffe := of_decide_eq_true found
    by_contra place
    have place : ¬ (x < p ∨ x = p + 6) := place
    have is_zero := zero (x - p) (by omega)
    rw [show p + (x - p) = x by omega] at is_zero
    have found := is_zero.eq_of_reads reads
    omega
  · have fe : s'.d.data = 0xfffe := of_decide_eq_true found
    rw [crc_eq, fe]
    rfl
  · have fe : s'.d.data = 0xfffe := of_decide_eq_true found
    rwa [fe] at reads

/-! ## A field that is read -/

omit online some_byte in
theorem readIdByte_id (s : Wd) :
    (readIdByte s).f.idTrack = s.f.idTrack ∧ (readIdByte s).f.idHead = s.f.idHead ∧
    (readIdByte s).f.idSector = s.f.idSector ∧ (readIdByte s).f.idLength = s.f.idLength ∧
    (readIdByte s).f.sectorLength = s.f.sectorLength ∧
    (readIdByte s).f.nonIbmLenCode = s.f.nonIbmLenCode := by
  rw [readIdByte, readRev]
  split <;> exact ⟨rfl, rfl, rfl, rfl, rfl, rfl⟩

theorem readIdByte_seek (seek : Seek f l t c x s) :
    Seek f l t c (x + 1) (readIdByte s) ∧ Reads (t.cellAt x) (readIdByte s).d.data ∧
      (readIdByte s).f.crc = crcFdc s.f.crc (UInt8.ofNat (readIdByte s).d.data) := by
  obtain ⟨next, reads, crc⟩ := readRev_seek online some_byte seek
  refine ⟨next.set rfl rfl, reads, ?_⟩
  rw [← crc]
  rfl

/-- A byte of an ID field and the register it goes to. -/
def store (set : Nat → WdFdc → WdFdc) (s : Wd) : Wd :=
  { readIdByte s with f := set (readIdByte s).d.data (readIdByte s).f }

theorem store_seek (set : Nat → WdFdc → WdFdc) (seek : Seek f l t c x s)
    (same : ∀ data f', rest (set data f') = rest f' ∧ (set data f').rev = f'.rev ∧
      (set data f').crc = f'.crc) :
    Seek f l t c (x + 1) (store set s) ∧
      ∃ data, Reads (t.cellAt x) data ∧ (store set s).f = set data (readIdByte s).f ∧
        (store set s).f.crc = crcFdc s.f.crc (UInt8.ofNat data) := by
  obtain ⟨next, reads, crc⟩ := readIdByte_seek online some_byte seek
  obtain ⟨same_rest, same_rev, same_crc⟩ := same (readIdByte s).d.data (readIdByte s).f
  exact ⟨next.set same_rest same_rev, _, reads, rfl, same_crc.trans crc⟩

/-- An ID field that is read behind its mark at `y`. -/
structure IdField (f : WdFdc) (l : FddLines) (t : TrackSlot) (c : Int) (y : Nat) (crc : UInt16)
    (result : Nat) (s : Wd) : Prop where
  seek : Seek f l t c (y + 7) s
  mark : s.f.idMark = .id
  track : Reads (t.cellAt (y + 1)) s.f.idTrack
  head : Reads (t.cellAt (y + 2)) s.f.idHead
  sector : Reads (t.cellAt (y + 3)) s.f.idSector
  length : Reads (t.cellAt (y + 4)) s.f.idLength
  sector_length : s.f.sectorLength = lengthOf f.nonIbmLenCode s.f.idLength
  checksum : ∃ crc1 crc2, Reads (t.cellAt (y + 5)) crc1 ∧ Reads (t.cellAt (y + 6)) crc2 ∧
    result = if crcList crc [s.f.idTrack, s.f.idHead, s.f.idSector, s.f.idLength, crc1, crc2] = 0
      then 0 else 2
  crcerr : s.f.statusRegister.crcerr = decide (result ≠ 0)

theorem readIdField_spec (seek : Seek f l t c (y + 1) s) :
    IdField f l t c y s.f.crc (readIdField s).1 (readIdField s).2 := by
  obtain ⟨seek₁, track, reads₁, f₁, crc₁⟩ := store_seek online some_byte
    (fun data f => { f with idTrack := data }) seek fun _ _ => ⟨rfl, rfl, rfl⟩
  generalize first : store (fun data f => { f with idTrack := data }) s = s₁ at seek₁ f₁ crc₁
  obtain ⟨seek₂, head, reads₂, f₂, crc₂⟩ := store_seek online some_byte
    (fun data f => { f with idHead := data }) seek₁ fun _ _ => ⟨rfl, rfl, rfl⟩
  generalize second : store (fun data f => { f with idHead := data }) s₁ = s₂ at seek₂ f₂ crc₂
  obtain ⟨seek₃, sector, reads₃, f₃, crc₃⟩ := store_seek online some_byte
    (fun data f => { f with idSector := data }) seek₂ fun _ _ => ⟨rfl, rfl, rfl⟩
  generalize third : store (fun data f => { f with idSector := data }) s₂ = s₃ at seek₃ f₃ crc₃
  obtain ⟨seek₄, length, reads₄, f₄, crc₄⟩ := store_seek online some_byte
    (fun data f =>
      { f with idLength := data, sectorLength := lengthOf f.nonIbmLenCode data })
    seek₃ fun _ _ => ⟨rfl, rfl, rfl⟩
  generalize fourth : store (fun data f =>
    { f with idLength := data, sectorLength := lengthOf f.nonIbmLenCode data }) s₃ = s₄
    at seek₄ f₄ crc₄
  obtain ⟨seek₅, reads₅, crc₅⟩ := readIdByte_seek online some_byte seek₄
  have id₅ := readIdByte_id s₄
  generalize fifth : readIdByte s₄ = s₅ at seek₅ reads₅ crc₅ id₅
  obtain ⟨seek₆, reads₆, crc₆⟩ := readIdByte_seek online some_byte seek₅
  have id₆ := readIdByte_id s₅
  generalize sixth : readIdByte s₅ = s₆ at seek₆ reads₆ crc₆ id₆
  have field_eq : readIdField s = if s₆.f.crc ≠ 0
      then (2, { s₆ with f.statusRegister.crcerr := true, f.idMark := .id })
      else (0, { s₆ with f.statusRegister.crcerr := false, f.idMark := .id }) := by
    subst first second third fourth fifth sixth
    rfl
  have track_eq : s₆.f.idTrack = track := by
    rw [id₆.1, id₅.1, f₄, (readIdByte_id s₃).1, f₃, (readIdByte_id s₂).1, f₂,
      (readIdByte_id s₁).1, f₁]
  have head_eq : s₆.f.idHead = head := by
    rw [id₆.2.1, id₅.2.1, f₄, (readIdByte_id s₃).2.1, f₃, (readIdByte_id s₂).2.1, f₂]
  have sector_eq : s₆.f.idSector = sector := by
    rw [id₆.2.2.1, id₅.2.2.1, f₄, (readIdByte_id s₃).2.2.1, f₃]
  have length_eq : s₆.f.idLength = length := by
    rw [id₆.2.2.2.1, id₅.2.2.2.1, f₄]
  have code : (readIdByte s₃).f.nonIbmLenCode = f.nonIbmLenCode := by
    rw [(readIdByte_id s₃).2.2.2.2.2, ← seek₃.rest_eq]
    rfl
  have sector_length : s₆.f.sectorLength = lengthOf f.nonIbmLenCode length := by
    rw [id₆.2.2.2.2.1, id₅.2.2.2.2.1, f₄, ← code]
  have crc_eq : s₆.f.crc
      = crcList s.f.crc [track, head, sector, length, s₅.d.data, s₆.d.data] := by
    rw [crc₆, crc₅, crc₄, crc₃, crc₂, crc₁]
    rfl
  rw [field_eq]
  by_cases valid : s₆.f.crc = 0
  · rw [if_neg (not_not.mpr valid)]
    exact
      { seek := seek₆.set rfl rfl
        mark := rfl
        track := track_eq ▸ reads₁
        head := head_eq ▸ reads₂
        sector := sector_eq ▸ reads₃
        length := length_eq ▸ reads₄
        sector_length := by rw [← length_eq] at sector_length; exact sector_length
        checksum := ⟨_, _, reads₅, reads₆, by
          rw [track_eq, head_eq, sector_eq, length_eq, ← crc_eq, if_pos valid]⟩
        crcerr := rfl }
  · rw [if_pos valid]
    exact
      { seek := seek₆.set rfl rfl
        mark := rfl
        track := track_eq ▸ reads₁
        head := head_eq ▸ reads₂
        sector := sector_eq ▸ reads₃
        length := length_eq ▸ reads₄
        sector_length := by rw [← length_eq] at sector_length; exact sector_length
        checksum := ⟨_, _, reads₅, reads₆, by
          rw [track_eq, head_eq, sector_eq, length_eq, ← crc_eq, if_neg valid]⟩
        crcerr := rfl }

/-! ## One call of `read_id` -/

omit online some_byte in
/-- The cells of a valid ID field, from its address mark on. -/
theorem id_cells {mfm : Bool} (holds : t.Holds p (idImage mfm id)) :
    ∃ crc1 crc2, t.Holds (p + markOffset mfm)
        [addressMark mfm 0xfe, id.track, id.head, id.sector, id.length, crc1, crc2] ∧
      crcList (crcStart mfm) [0xfe, id.track, id.head, id.sector, id.length, crc1, crc2] = 0 := by
  have field := (TrackSlot.holds_append.mp holds).2
  rw [length_sync] at field
  exact ⟨_, _, field, crcList_own (crcStart mfm) [0xfe, id.track, id.head, id.sector, id.length]⟩

omit online some_byte in
theorem mod_ne_of_lt {n a b : Nat} (less : a < b) (close : b < a + n) : a % n ≠ b % n := by
  intro same
  have divides : n ∣ b - a := Nat.dvd_of_mod_eq_zero (Nat.sub_mod_eq_zero_of_mod_eq same.symm)
  have far := Nat.le_of_dvd (by omega) divides
  omega

end Online

/-- The command is for this ID field. -/
def Names (f : WdFdc) (v : IdValues) : Prop :=
  mismatch { f with idTrack := v.track, idHead := v.head, idSector := v.sector } = false

/-- A sector that the command is for stands at `p`, and no other. -/
structure Only (f : WdFdc) (t : TrackSlot) (p : Nat) (id : IdValues) : Prop where
  holds : t.Holds p (idImage f.dden id)
  names : Names f id
  only : ∀ z v, IdReads t f.dden z v → Names f v →
    z % t.cBpt = (p + markOffset f.dden) % t.cBpt

/-- The values in the registers are the ones of the sector. -/
structure Found (f : WdFdc) (id : IdValues) (s : Wd) : Prop where
  mark : s.f.idMark = .id
  sector_length : s.f.sectorLength = lengthOf f.nonIbmLenCode id.length
  crcerr : s.f.statusRegister.crcerr = false

/-- The search is still in front of the sector. -/
structure Passed (mfm : Bool) (p y result : Nat) (s : Wd) : Prop where
  before : y ≤ p + lastStart mfm
  fails : result ≠ 0 ∨ mismatch s.f = true

/-- The search is behind the sector's ID field. -/
structure Behind (f : WdFdc) (mfm : Bool) (p y : Nat) (id : IdValues) (result : Nat) (s : Wd) :
    Prop where
  place : y = p + markOffset mfm + 7
  succeeds : result = 0 ∧ mismatch s.f = false
  found : Found f id s

theorem Seek.mismatch_eq (seek : Seek f l t c x s) :
    mismatch s.f = mismatch { f with
      idTrack := s.f.idTrack, idHead := s.f.idHead, idSector := s.f.idSector } := by
  rw [← seek.rest_eq]
  rfl

section Online

variable (online : l.online = true) (some_byte : 0 < t.cBpt)

include online some_byte

theorem readIdMark_spec (holds : t.Holds p (idImage f.dden id))
    (start : x ≤ p + lastStart f.dden) (seek : Seek f l t c x s) :
    ∃ y, MarkScan f l t c f.dden p x y (readIdMark s).1 (readIdMark s).2 := by
  cases density : f.dden with
  | true =>
    rw [density] at holds start
    exact readIdMark_mfm online some_byte density holds start seek
  | false =>
    rw [density] at holds start
    exact readIdMark_fm online some_byte density holds start seek

/-- An ID field in front of the sector is not the one the command is for. -/
theorem passed_field (sector : Only f t p id) (near : p + lastStart f.dden < x + t.cBpt)
    (scan : MarkScan f l t c f.dden p x y true s) (in_front : y < p) :
    Passed f.dden p (y + 7) (readIdField s).1 (readIdField s).2 := by
  have field := readIdField_spec online some_byte scan.seek
  have offsets : markOffset f.dden = 15 ∧ lastStart f.dden = 14 ∧ f.dden = true ∨
      markOffset f.dden = 6 ∧ lastStart f.dden = 6 := by
    cases f.dden
    · exact Or.inr ⟨rfl, rfl⟩
    · exact Or.inl ⟨rfl, rfl, rfl⟩
  refine ⟨by omega, ?_⟩
  by_contra matching
  rw [not_or, not_not, Bool.not_eq_true] at matching
  obtain ⟨result, same⟩ := matching
  obtain ⟨crc1, crc2, reads1, reads2, checksum⟩ := field.checksum
  rw [result, scan.crc rfl, ← crcList_cons] at checksum
  have valid := by_contra fun wrong => Nat.zero_ne_add_one 1 (checksum.trans (if_neg wrong))
  rw [field.seek.mismatch_eq] at same
  have twice := sector.only y ⟨_, _, _, _⟩
    ⟨scan.run rfl, scan.mark rfl, field.track, field.head, field.sector, field.length,
      crc1, crc2, reads1, reads2, valid⟩ same
  have from_x := scan.from_x
  refine mod_ne_of_lt ?_ ?_ twice
  · omega
  · rcases offsets with ⟨mark, last, mfm⟩ | ⟨mark, last⟩
    · have behind := scan.behind_run rfl mfm
      omega
    · omega

/-- The ID field of the sector is found. -/
theorem found_field (sector : Only f t p id)
    (scan : MarkScan f l t c f.dden p x y true s) (here : y = p + markOffset f.dden) :
    Behind f f.dden p (y + 7) id (readIdField s).1 (readIdField s).2 := by
  have field := readIdField_spec online some_byte scan.seek
  obtain ⟨crc1, crc2, cells, valid⟩ := id_cells sector.holds
  rw [← here] at cells
  simp only [TrackSlot.holds_cons, Nat.add_assoc, Nat.reduceAdd] at cells
  obtain ⟨-, track, head, sector_, length, first, second, -⟩ := cells
  have track_eq := track.eq_of_reads field.track
  have head_eq := head.eq_of_reads field.head
  have sector_eq := sector_.eq_of_reads field.sector
  have length_eq := length.eq_of_reads field.length
  obtain ⟨found1, found2, reads1, reads2, checksum⟩ := field.checksum
  rw [track_eq, head_eq, sector_eq, length_eq, first.eq_of_reads reads1,
    second.eq_of_reads reads2, scan.crc rfl, ← crcList_cons] at checksum
  have result : (readIdField s).1 = 0 := checksum.trans (if_pos valid)
  refine ⟨by omega, ⟨result, ?_⟩, field.mark, ?_, ?_⟩
  · rw [field.seek.mismatch_eq, track_eq, head_eq, sector_eq]
    exact sector.names
  · rw [field.sector_length, length_eq]
  · rw [field.crcerr, result]
    rfl

/-- A search goes on in front of the sector or ends behind its ID field. -/
def Progress (f : WdFdc) (t : TrackSlot) (p : Nat) (id : IdValues) (y result : Nat) (s : Wd) :
    Prop :=
  Passed f.dden p y result s ∨ Behind f f.dden p y id result s

theorem readIdLoop_spec (sector : Only f t p id) (i : Int) (fuel : Nat)
    (enough : p + lastStart f.dden < x + fuel) (start : x ≤ p + lastStart f.dden)
    (near : p + lastStart f.dden < x + t.cBpt) (seek : Seek f l t c x s) :
    ∃ y result s', readIdLoop i fuel s = some (result, s') ∧ Seek f l t c y s' ∧ x ≤ y ∧
      (s.f.rev = i → x < y) ∧ Progress f t p id y result s' := by
  induction fuel generalizing x s with
  | zero => omega
  | succ fuel ih =>
    rw [readIdLoop]
    by_cases same_turn : s.f.rev = i
    · rw [if_neg (not_not.mpr same_turn)]
      obtain ⟨y, scan⟩ := readIdMark_spec online some_byte sector.holds start seek
      rcases marked : readIdMark s with ⟨found, s₁⟩
      rw [marked] at scan
      have from_x := scan.from_x
      cases found with
      | false =>
        have passed := scan.passed rfl
        obtain ⟨y', result, s', loop, seek', later, -, progress⟩ := ih (by omega) passed (by omega)
          scan.seek
        exact ⟨y', result, s', loop, seek', by omega, fun _ => by omega, progress⟩
      | true =>
        have field := readIdField_spec online some_byte scan.seek
        refine ⟨y + 7, _, _, rfl, field.seek, by omega, fun _ => by omega, ?_⟩
        rcases scan.place rfl with in_front | here
        · exact Or.inl (passed_field online some_byte sector near scan in_front)
        · exact Or.inr (found_field online some_byte sector scan here)
    · rw [if_pos same_turn]
      exact ⟨x, 1, s, rfl, seek, Nat.le_refl x, fun same => absurd same same_turn,
        Or.inl ⟨start, Or.inl one_ne_zero⟩⟩

theorem readIdFn_spec (sector : Only f t p id) (fuel : Nat)
    (enough : p + lastStart f.dden < x + fuel) (start : x ≤ p + lastStart f.dden)
    (near : p + lastStart f.dden < x + t.cBpt) (seek : Seek f l t c x s) (turns_left : 0 < s.f.rev) :
    ∃ y result s', readIdFn fuel s = some (result, s') ∧ Seek f l t c y s' ∧ x < y ∧
      Progress f t p id y result s' := by
  obtain ⟨y, result, s', loop, seek', -, later, progress⟩ := readIdLoop_spec online some_byte sector
    s.f.rev fuel enough start near
    (show Seek f l t c x { s with f := { s.f with idMark := .none } } from seek.set rfl rfl)
  refine ⟨y, result, s', ?_, seek', later rfl, progress⟩
  rw [readIdFn, if_neg (not_le.mpr turns_left)]
  exact loop

/-! ## The search of a command -/

/-- The search has the ID field of the sector, or is in front of it and has no ID. -/
def Searched (f : WdFdc) (p x : Nat) (id : IdValues) (y : Nat) (s : Wd) : Prop :=
  (s.f.idMark = .none ∧ x < y ∧ y ≤ p + lastStart f.dden) ∨
  (y = p + markOffset f.dden + 7 ∧ Found f id s)

/-- The loop of the search ends at the sector, or with a wait. -/
theorem search_spec (sector : Only f t p id) (fuel n : Nat)
    (enough : p + lastStart f.dden < x + fuel) (turns : p + lastStart f.dden < x + n)
    (start : x ≤ p + lastStart f.dden) (near : p + lastStart f.dden < x + t.cBpt)
    (many : ((p + lastStart f.dden) / t.cBpt : Nat) < c) (seek : Seek f l t c x s) :
    ∃ y s' waits, Seek f l t c y s' ∧ Searched f p x id y s' ∧
      (waits = false → s'.f.idMark ≠ .none) ∧
      search fuel n s
        = some (waits, if waits then { s' with f := { s'.f with fdcEvent := true } } else s') := by
  induction n generalizing x s with
  | zero => omega
  | succ n ih =>
    have turns_left : 0 < s.f.rev := by
      have turns := seek.turns
      have earlier : x / t.cBpt ≤ (p + lastStart f.dden) / t.cBpt := Nat.div_le_div_right start
      omega
    obtain ⟨y, result, s₁, read, seek₁, later, progress⟩ := readIdFn_spec online some_byte sector
      fuel enough start near seek turns_left
    rw [search, if_neg (ne_of_gt turns_left), read]
    rcases progress with passed | behind
    · have fails := passed.fails
      have seek₂ : Seek f l t c y { s₁ with f := { s₁.f with idMark := .none } } :=
        seek₁.set rfl rfl
      simp only [if_pos fails]
      by_cases waits : 0 < delay s₁.d s.d.next
      · rw [if_pos waits]
        exact ⟨y, _, true, seek₂, Or.inl ⟨rfl, later, passed.before⟩,
          fun no_wait => Bool.noConfusion no_wait, rfl⟩
      · rw [if_neg waits, if_neg (not_not.mpr rfl)]
        obtain ⟨y', s', waits', seek', searched, marked, loop⟩ := ih (by omega) (by omega)
          passed.before (by omega) seek₂
        refine ⟨y', s', waits', seek', ?_, marked, loop⟩
        rcases searched with ⟨none, later', before⟩ | found
        · exact Or.inl ⟨none, Nat.lt_trans later later', before⟩
        · exact Or.inr found
    · obtain ⟨place, ⟨succeeds, matching⟩, found⟩ := behind
      have holds : ¬ (result ≠ 0 ∨ mismatch s₁.f = true) := by
        rw [succeeds, matching]
        decide
      have marked : s₁.f.idMark ≠ .none := by
        rw [found.mark]
        decide
      simp only [if_neg holds]
      by_cases waits : 0 < delay s₁.d s.d.next
      · rw [if_pos waits]
        exact ⟨y, s₁, true, seek₁, Or.inr ⟨place, found⟩, fun _ => marked, rfl⟩
      · rw [if_neg waits, if_pos marked]
        exact ⟨y, s₁, false, seek₁, Or.inr ⟨place, found⟩, fun _ => marked, rfl⟩

/-! ## Waits -/

omit online some_byte in
theorem fdcEvent_clear {s : Wd} (clear : s.f.fdcEvent = false) :
    { s with f := { s.f with fdcEvent := false } } = s := by
  rcases s with ⟨f, d⟩
  rcases f
  cases clear
  rfl

/-- A command that has no transfer yet. -/
structure Seeking (f : WdFdc) : Prop where
  no_search : f.readId = false
  no_event : f.fdcEvent = false
  no_request : f.datarq = false
  busy : f.state ≠ .none
  status_type : f.statusType = .type2
  settled : f.type.headLoadLine = true → f.hlt = true

/-- `wd_fdc_type_ii_seek`, when the ID is found. -/
def beginTransfer (s : Wd) : Wd :=
  if s.f.state = .read then beginRead s else beginWrite s

/-- No event is due before the processor acts. -/
def Quiet (s : Wd) : Prop :=
  s.f.fdcEvent = false ∧ (s.f.timeoutEvent = false ∨ s.f.datarq = true)

omit online some_byte in
theorem serve_quiet {s : Wd} (quiet : Quiet s) (fuel n : Nat) : serve fuel (n + 1) s = some s := by
  obtain ⟨no_event, no_timeout⟩ := quiet
  have no_timeout : (s.f.timeoutEvent && !s.f.datarq) = false := by
    rcases no_timeout with clear | request
    · rw [clear, Bool.false_and]
    · rw [request, Bool.not_true, Bool.and_false]
  rw [serve, no_event, no_timeout]
  rfl

omit online some_byte in
/-- An event in a search goes on with the search. -/
theorem event_seek (seeking : Seeking f) (here : Here { f with readId := true } l t x s)
    (fuel : Nat) : event fuel { s with f := { s.f with fdcEvent := true } } = typeIISeek fuel s := by
  have no_event : s.f.fdcEvent = false := by
    rw [← seeking.no_event, ← show (rest s.f).fdcEvent = f.fdcEvent by rw [here.rest_eq]]
    rfl
  have state : s.f.state ≠ .none := by
    rw [show s.f.state = (rest s.f).state from rfl, here.rest_eq]
    exact seeking.busy
  have datarq : s.f.datarq = false := by
    rw [show s.f.datarq = (rest s.f).datarq from rfl, here.rest_eq]
    exact seeking.no_request
  have readId : s.f.readId = true := by
    rw [show s.f.readId = (rest s.f).readId from rfl, here.rest_eq]
  have status_type : s.f.statusType = .type2 := by
    rw [show s.f.statusType = (rest s.f).statusType from rfl, here.rest_eq]
    exact seeking.status_type
  have settled : s.f.type.headLoadLine = true → s.f.hlt = true := by
    rw [show s.f.type = (rest s.f).type from rfl, show s.f.hlt = (rest s.f).hlt from rfl,
      here.rest_eq]
    exact seeking.settled
  have engaged : engage s = s := by
    apply if_neg
    rintro ⟨line, -, -, loose⟩
    rw [settled line] at loose
    cases loose
  have spun : spunUp s = s := by
    apply if_neg
    rintro ⟨-, -, type1⟩
    rw [status_type] at type1
    cases type1
  have same : spunUp (engage { s with f := { s.f with fdcEvent := false } }) = s := by
    rw [fdcEvent_clear no_event, engaged, spun]
  show dispatch fuel (spunUp (engage { s with f := { s.f with fdcEvent := false } })) = _
  rw [same, dispatch, if_neg state, if_neg (by rw [datarq]; exact Bool.false_ne_true), if_pos readId]

omit online some_byte in
theorem typeIISeek_found {s : Wd} (found : s.f.idMark ≠ .none) (fuel : Nat) :
    typeIISeek fuel s
      = some (beginTransfer { s with f := { s.f with fdcEvent := false, readId := false } }) := by
  rw [typeIISeek]
  simp only [if_neg found, beginTransfer]
  split <;> rfl

omit online some_byte in
theorem typeIISeek_search {s : Wd} (no_id : s.f.idMark = .none) {fuel : Nat} {waits : Bool}
    {s' : Wd} (searched : search fuel fuel
      { s with f := { s.f with fdcEvent := false, readId := true } } = some (waits, s'))
    (marked : waits = false → s'.f.idMark ≠ .none) :
    typeIISeek fuel s
      = some (if waits then s'
          else beginTransfer { s' with f := { s'.f with readId := false } }) := by
  rw [typeIISeek]
  simp only [if_pos no_id, searched]
  cases waits with
  | true => rfl
  | false =>
    simp only [if_neg (marked rfl), beginTransfer, Bool.false_eq_true, if_false]
    split <;> rfl

omit online some_byte in
theorem Seeking.rest_search (seeking : Seeking f) {b : Bool} {f' : WdFdc}
    (same : rest f' = { f with readId := b }) (b' : Bool) :
    rest { f' with fdcEvent := false, readId := b' } = { f with readId := b' } := by
  have no_event := seeking.no_event
  calc rest { f' with fdcEvent := false, readId := b' }
      = { rest f' with fdcEvent := false, readId := b' } := rfl
    _ = { f with fdcEvent := false, readId := b' } := by rw [same]
    _ = { f with readId := b' } := by rw [← no_event]

omit online some_byte in
theorem Seeking.readId_self (seeking : Seeking f) : { f with readId := false } = f := by
  rw [← seeking.no_search]

omit online some_byte in
/-- The ID is in the registers: the transfer begins. -/
theorem found_serves (seeking : Seeking f) {b : Bool}
    (here : Here { f with readId := b } l t x s) (found : Found f id s) (fuel : Nat) :
    ∃ s', Here f l t x s' ∧ Found f id s' ∧ ∀ n, Quiet (beginTransfer s') →
      (typeIISeek fuel s).bind (serve fuel (n + 1)) = some (beginTransfer s') := by
  refine ⟨{ s with f := { s.f with fdcEvent := false, readId := false } },
    here.set_rest ?_, ⟨found.mark, found.sector_length, found.crcerr⟩, ?_⟩
  · rw [seeking.rest_search here.rest_eq, seeking.readId_self]
  · intro n quiet
    have marked : s.f.idMark ≠ .none := by
      rw [found.mark]
      decide
    rw [typeIISeek_found marked, Option.bind_some, serve_quiet quiet]

/-- The search of a command ends at its sector, after some waits. -/
theorem seek_serves (sector : Only f t p id) (seeking : Seeking f) (fuel : Nat) {b : Bool}
    (enough : p + lastStart f.dden < x + fuel) (start : x ≤ p + lastStart f.dden)
    (near : p + lastStart f.dden < x + t.cBpt)
    (many : ((p + lastStart f.dden) / t.cBpt : Nat) < c)
    (seek : Seek { f with readId := b } l t c x s) (no_id : s.f.idMark = .none) :
    ∃ s', Here f l t (p + markOffset f.dden + 7) s' ∧ Found f id s' ∧
      ∀ n, p + lastStart f.dden < x + n → Quiet (beginTransfer s') →
        (typeIISeek fuel s).bind (serve fuel (n + 1)) = some (beginTransfer s') := by
  generalize bound : p + lastStart f.dden + 1 - x = k
  induction k using Nat.strong_induction_on generalizing x s b with
  | _ k ih =>
    subst bound
    have seek₀ : Seek { f with readId := true } l t c x
        { s with f := { s.f with fdcEvent := false, readId := true } } :=
      { toHere := seek.toHere.set_rest (seeking.rest_search seek.rest_eq true), turns := seek.turns }
    obtain ⟨y, s₁, waits, seek₁, searched, marked, loop⟩ := search_spec online some_byte
      (show Only { f with readId := true } t p id from ⟨sector.holds, sector.names, sector.only⟩)
      fuel fuel enough enough start near many seek₀
    cases waits with
    | false =>
      rcases searched with ⟨none, -, -⟩ | ⟨rfl, found⟩
      · exact absurd none (marked rfl)
      · refine ⟨{ s₁ with f := { s₁.f with readId := false } }, seek₁.toHere.set_rest ?_,
          ⟨found.mark, found.sector_length, found.crcerr⟩, ?_⟩
        · calc rest { s₁.f with readId := false }
              = { rest s₁.f with readId := false } := rfl
            _ = { f with readId := false } := by rw [seek₁.rest_eq]
            _ = f := seeking.readId_self
        · intro n enough_n quiet
          rw [typeIISeek_search no_id loop marked, Option.bind_some]
          exact serve_quiet quiet fuel n
    | true =>
      have goes_on : ∀ n, (typeIISeek fuel s).bind (serve fuel (n + 1))
          = (typeIISeek fuel s₁).bind (serve fuel n) := by
        intro n
        rw [typeIISeek_search no_id loop (fun no_wait => Bool.noConfusion no_wait),
          Option.bind_some]
        show serve fuel (n + 1) { s₁ with f := { s₁.f with fdcEvent := true } } = _
        rw [serve, if_pos rfl, event_seek seeking seek₁.toHere]
      rcases searched with ⟨none, later, before⟩ | ⟨rfl, found⟩
      · obtain ⟨s', here, found, serves⟩ := ih _ (by omega) (by omega) before (by omega) seek₁ none rfl
        refine ⟨s', here, found, fun n enough_n quiet => ?_⟩
        obtain ⟨m, rfl⟩ : ∃ m, n = m + 1 := ⟨n - 1, by omega⟩
        rw [goes_on]
        exact serves m (by omega) quiet
      · obtain ⟨s', here, found, serves⟩ := found_serves seeking seek₁.toHere
          (show Found f id s₁ from ⟨found.mark, found.sector_length, found.crcerr⟩) fuel
        refine ⟨s', here, found, fun n enough_n quiet => ?_⟩
        obtain ⟨m, rfl⟩ : ∃ m, n = m + 1 := ⟨n - 1, by omega⟩
        rw [goes_on]
        exact serves m quiet

end Online

end Sector

end FuseX.Disk.Wd
