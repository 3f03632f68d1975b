import FuseX.Disk.TrackScan

/-!
# Generating a track

`trackgen` writes the sectors of a track in the order of their numbers, each in the
slot that the interleave gives it. `sectorsAdd_ok` is what the loop leaves: every
sector in its slot, where the slots are different ones, and the rest of the track as
it was.

`LoaderCall` are the calls of the image loaders, with everything they take from a
header.
-/

namespace FuseX.Disk.TrackWriter

open Lib

/-! ## The source -/

/-- `calc_sectorlen`: the density is not used. -/
def calcSectorlen (g : Gap) (sectorLength : Nat) : Nat :=
  g.syncLen + g.marks.length + 7 + g.len 2 + (g.syncLen + g.marks.length + 1) + sectorLength + 2 + g.len 3

/-- `calc_lenid`. -/
def calcLenid (sectorLength : Nat) : Nat :=
  if 0x80 < sectorLength then calcLenid (sectorLength / 2) + 1 else 0
termination_by sectorLength

/-- The slot of the next sector, and `i`, which counts the slots skipped. -/
def nextSlot (sectors interleave : Nat) (slot : Nat × Nat) : Nat × Nat :=
  let pos := slot.1 + interleave
  if pos < sectors then (pos, slot.2)
  else
    let pos := pos - sectors              -- wrap around
    if pos ≤ slot.2 then (pos + 1, slot.2 + 1) else (pos, slot.2)

/-- The arguments of `trackgen`. -/
structure Params : Type where
  head : Nat
  track : Nat
  sectorBase : Nat
  sectors : Nat
  sectorLength : Nat
  preindex : Bool
  gap : Gap
  interleave : Nat
  autofill : Option UInt8

namespace Params

variable (p : Params)

/-- `slen`. -/
def slen : Nat :=
  calcSectorlen p.gap p.sectorLength

/-- The slot of the next sector, and `i`. -/
def step : Nat × Nat → Nat × Nat :=
  nextSlot p.sectors p.interleave

/-- `id_add` and `data_add` of a sector. -/
def sectorAdd (s : Nat) (d : Surface) (source : Source) : Bool × Surface × Source :=
  let added := idAdd p.gap p.head p.track s (calcLenid p.sectorLength) false d
  if added.1 then (true, added.2, source)
  else dataAdd p.gap source p.sectorLength false false p.autofill added.2

/-- The loop of `trackgen`, over the sectors left. -/
def sectorsAdd (idx : Nat) : Nat → Nat → Nat × Nat → Surface → Source → Bool × Surface × Source
  | 0, _, _, d, source => (false, d, source)
  | sectors + 1, s, slot, d, source =>
    let added := p.sectorAdd s { d with i := idx + slot.1 * p.slen } source
    if added.1 then added else sectorsAdd idx sectors (s + 1) (p.step slot) added.2.1 added.2.2

/-- `trackgen`. -/
def trackgen (d : Surface) (source : Source) : Bool × Surface × Source :=
  let start := if p.preindex then preindexAdd p.gap { d with i := 0 } else (false, { d with i := 0 })
  if start.1 then (true, start.2, source)
  else
    let post := postindexAdd p.gap start.2
    if post.1 then (true, post.2, source)
    else
      let idx := post.2.i
      let added := p.sectorsAdd idx p.sectors p.sectorBase (0, 0) post.2 source
      if added.1 then added
      else
        let gapped := gap4Add p.gap { added.2.1 with i := idx + p.sectors * p.slen }
        (gapped.1, gapped.2, added.2.2)

end Params

/-- A call of an image loader for a track of `c_bpt` bytes, with what it derives from its header. -/
inductive LoaderCall : Params → Nat → Prop where
  /-- `disk_preformat`: a disk of any density -/
  | preformat {head track sectorBase cBpt : Nat} : head < 2 → track < 256 →
      sectorBase = 0xff ∨ sectorBase = 0xfe →
      LoaderCall ⟨head, track, sectorBase, 1, 128, false, gapOf gapMinimalMfm, 1, some 0xff⟩ cBpt
  /-- `open_img_mgt_opd` of an IMG or MGT image -/
  | img {head track sectors sectorLength : Nat} : head < 2 → track < 256 →
      (sectors, sectorLength) ∈ [(10, 512), (18, 256)] →
      LoaderCall ⟨head, track, 1, sectors, sectorLength, false, gapOf gapMgtPlusd, 1, none⟩ 6250
  /-- `open_img_mgt_opd` of an OPD image -/
  | opd {head track sectors sectorLength : Nat} : head < 2 → track < 256 →
      (sectors, sectorLength) ∈ [(10, 512), (18, 256)] →
      LoaderCall ⟨head, track, 0, sectors, sectorLength, false, gapOf gapMgtPlusd, 13, none⟩ 6250
  /-- `open_d40_d80` -/
  | d40 {head track sectors : Nat} : head < 2 → track < 256 → sectors ≤ 127 →
      LoaderCall ⟨head, track, 1, sectors, 512, false, gapOf gapMgtPlusd, 1, none⟩ 6250
  /-- `open_sad`: the length is a byte of the header, in units of 64 -/
  | sad {head track : Nat} {preindex : Bool} (sectors length : UInt8) : head < 2 → track < 256 →
      LoaderCall ⟨head, track, 1, sectors.toNat, length.toNat * 64, preindex, gapOf gapMgtPlusd, 1, none⟩
        6250
  /-- `open_trd` and `open_scl` -/
  | trd {head track : Nat} : head < 2 → track < 256 →
      LoaderCall ⟨head, track, 1, 16, 256, false, gapOf gapTrdos, 2, some 0⟩ 6250

/-! ## The input -/

/-- The bytes of the input for sector `k`. -/
def inputBytes (buffer : Buffer) (len : Nat) (autofill : Option UInt8) (k : Nat) : List UInt8 :=
  let there := (buffer.ahead.drop (k * len)).take len
  there ++ List.replicate (len - there.length) (autofill.getD 0)

/-- The source behind `k` sectors. -/
def Source.after (source : Source) (len : Nat) : Nat → Source
  | 0 => source
  | k + 1 => ((source.after len k).read len).2

theorem after_buffer (buffer : Buffer) (len k : Nat) :
    ∃ b, (Source.buffer buffer).after len k = .buffer b ∧ b.ahead = buffer.ahead.drop (k * len) := by
  induction k with
  | zero => exact ⟨buffer, rfl, by rw [Nat.zero_mul, List.drop_zero]⟩
  | succ k ih =>
    obtain ⟨b, after, ahead⟩ := ih
    refine ⟨(b.read len).2, by rw [Source.after, after]; rfl, ?_⟩
    have moved : (b.read len).2.ahead = b.ahead.drop len := by
      show b.file.drop (b.index + min len b.avail) = (b.file.drop b.index).drop len
      rw [List.drop_drop]
      rcases Nat.le_total len b.avail with enough | short
      · rw [Nat.min_eq_left enough]
      · rw [Nat.min_eq_right short, List.drop_eq_nil_of_le, List.drop_eq_nil_of_le]
        · rw [Buffer.avail] at short
          omega
        · rw [Buffer.avail]
          omega
    rw [moved, ahead, List.drop_drop, Nat.succ_mul]

theorem field_after (buffer : Buffer) (len : Nat) (autofill : Option UInt8) (k : Nat) :
    ((Source.buffer buffer).after len k).field len autofill = inputBytes buffer len autofill k := by
  obtain ⟨b, after, ahead⟩ := after_buffer buffer len k
  rw [after, inputBytes, ← ahead]
  rfl

theorem after_succ (source : Source) (len k : Nat) :
    source.after len (k + 1) = (source.read len).2.after len k := by
  induction k with
  | zero => rfl
  | succ k ih => rw [Source.after, ih, Source.after]

/-! ## The sectors -/

theorem length_sectorSpots (g : Gap) (h t s l : Nat) (bytes : List UInt8) :
    (sectorSpots g h t s l bytes).length = calcSectorlen g bytes.length := by
  rw [sectorSpots, List.length_append, length_idField, length_dataField, idLen, calcSectorlen]
  omega

/-- Different slots of one size do not overlap. -/
theorem slots_apart {a b size : Nat} (different : a ≠ b) :
    a * size + size ≤ b * size ∨ b * size + size ≤ a * size := by
  rcases Nat.lt_or_gt_of_ne different with below | above
  · left
    rw [← Nat.succ_mul]
    exact Nat.mul_le_mul_right size below
  · right
    rw [← Nat.succ_mul]
    exact Nat.mul_le_mul_right size above

namespace Params

variable {p : Params} {d d' : Surface} {source source' : Source}

/-- What is added for sector `s`. -/
def spots (p : Params) (s : Nat) (source : Source) : List Spot :=
  sectorSpots p.gap p.head p.track s (calcLenid p.sectorLength) (source.field p.sectorLength p.autofill)

@[simp] theorem length_spots (s : Nat) : (p.spots s source).length = p.slen := by
  rw [spots, length_sectorSpots, Source.length_field, slen]

theorem sectorAdd_ok {s : Nat} (added : p.sectorAdd s d source = (false, d', source')) :
    d' = d.emit (p.spots s source) ∧ d.i + p.slen < d.cBpt ∧
      source' = (source.read p.sectorLength).2 ∧
      (p.autofill = none → (source.read p.sectorLength).1.length = p.sectorLength) := by
  unfold sectorAdd at added
  rcases result : idAdd p.gap p.head p.track s (calcLenid p.sectorLength) false d with ⟨error, d₁⟩
  simp only [result] at added
  cases error with
  | true => cases added
  | false =>
    obtain ⟨id, _⟩ := idAdd_ok result
    obtain ⟨data, room, behind, enough⟩ := dataAdd_ok added
    have whole : d' = d.emit (p.spots s source) := by
      rw [data, id, Surface.emit_emit]
      rfl
    refine ⟨whole, ?_, behind, enough⟩
    rw [whole, id, Surface.i_emit, length_spots] at room
    exact room

/-- The slot of sector `k`. -/
def slot (p : Params) (k : Nat) : Nat :=
  (p.step^[k] (0, 0)).1

/-- What the loop leaves for the sectors from one on: `place` is where their slots are. -/
structure Added (p : Params) (sectors s : Nat) (place : Nat → Nat) (d d' : Surface) (source : Source) :
    Prop where
  cBpt : d'.cBpt = d.cBpt
  fits : ∀ j < sectors, place j + p.slen < d.cBpt
  outside : ∀ q, (∀ j < sectors, ¬ (place j ≤ q ∧ q < place j + p.slen)) → d'.spot q = d.spot q
  enough : p.autofill = none → ∀ j < sectors,
    ((source.after p.sectorLength j).read p.sectorLength).1.length = p.sectorLength
  holds : (∀ j k, j < k → k < sectors →
      place j + p.slen ≤ place k ∨ place k + p.slen ≤ place j) →
    (∀ j < sectors, ∀ q, place j ≤ q → q < place j + p.slen → d.clocks q = false) →
    ∀ j < sectors, Holds d'.spot (place j) (p.spots (s + j) (source.after p.sectorLength j))

/-- A sector in front of what the rest of the loop leaves. -/
theorem Added.cons {sectors s : Nat} {place : Nat → Nat} {d₁ : Surface}
    (first : d₁ = ({ d with i := place 0 } : Surface).emit (p.spots s source))
    (room : place 0 + p.slen < d.cBpt)
    (filled : p.autofill = none → (source.read p.sectorLength).1.length = p.sectorLength)
    (rest : Added p sectors (s + 1) (fun j => place (j + 1)) d₁ d' (source.read p.sectorLength).2) :
    Added p (sectors + 1) s place d d' source := by
  have same : d₁.cBpt = d.cBpt := by rw [first]; rfl
  have elsewhere : ∀ q, ¬ (place 0 ≤ q ∧ q < place 0 + p.slen) → d₁.spot q = d.spot q := by
    intro q outside
    rw [first, Surface.spot_elsewhere]
    · rfl
    · rw [length_spots]
      exact outside
  refine ⟨rest.cBpt.trans same, ?_, ?_, ?_, ?_⟩
  · intro j below
    cases j with
    | zero => exact room
    | succ j => exact same ▸ rest.fits j (Nat.lt_of_succ_lt_succ below)
  · intro q outside
    rw [rest.outside q fun j below => outside (j + 1) (Nat.succ_lt_succ below)]
    exact elsewhere q (outside 0 (Nat.succ_pos _))
  · intro none j below
    cases j with
    | zero => exact filled none
    | succ j =>
      rw [after_succ]
      exact rest.enough none j (Nat.lt_of_succ_lt_succ below)
  · intro apart fresh j below
    cases j with
    | zero =>
      have stands : Holds d₁.spot (place 0) (p.spots s source) := by
        rw [first]
        apply Surface.holds_spot
        intro q low high
        rw [length_spots] at high
        exact fresh 0 below q low high
      -- the later sectors are written elsewhere
      apply stands.of_same
      intro q low high
      rw [length_spots] at high
      apply rest.outside
      rintro k inside ⟨low', high'⟩
      have away := apart 0 (k + 1) (Nat.succ_pos k) (Nat.succ_lt_succ inside)
      omega
    | succ j =>
      have stands := rest.holds
        (fun j k less inside => apart (j + 1) (k + 1) (Nat.succ_lt_succ less) (Nat.succ_lt_succ inside))
        (fun k inside q low high => by
          have away := apart 0 (k + 1) (Nat.succ_pos k) (Nat.succ_lt_succ inside)
          have still : d₁.clocks q = d.clocks q := congrArg Prod.snd (elsewhere q (by omega))
          rw [still]
          exact fresh (k + 1) (Nat.succ_lt_succ inside) q low high) j (Nat.lt_of_succ_lt_succ below)
      rw [after_succ, ← Nat.add_assoc, Nat.add_right_comm]
      exact stands

/-- What the loop leaves. -/
theorem sectorsAdd_ok {idx sectors s : Nat} {slot : Nat × Nat}
    (added : p.sectorsAdd idx sectors s slot d source = (false, d', source')) :
    Added p sectors s (fun j => idx + (p.step^[j] slot).1 * p.slen) d d' source := by
  induction sectors generalizing s slot d source with
  | zero =>
    cases added
    exact ⟨rfl, fun _ below => absurd below (Nat.not_lt_zero _), fun _ _ => rfl,
      fun _ _ below => absurd below (Nat.not_lt_zero _),
      fun _ _ _ below => absurd below (Nat.not_lt_zero _)⟩
  | succ sectors ih =>
    rw [sectorsAdd] at added
    rcases result : p.sectorAdd s { d with i := idx + slot.1 * p.slen } source with ⟨error, d₁, source₁⟩
    simp only [result] at added
    cases error with
    | true => cases added
    | false =>
      obtain ⟨first, room, behind, filled⟩ := sectorAdd_ok result
      have rest := ih added
      rw [behind] at rest
      exact Added.cons first room filled rest

/-- The loop takes the bytes of its sectors off the source. -/
theorem sectorsAdd_source {idx sectors s : Nat} {slot : Nat × Nat}
    (added : p.sectorsAdd idx sectors s slot d source = (false, d', source')) :
    source' = source.after p.sectorLength sectors := by
  induction sectors generalizing s slot d source with
  | zero =>
    cases added
    rfl
  | succ sectors ih =>
    rw [sectorsAdd] at added
    rcases result : p.sectorAdd s { d with i := idx + slot.1 * p.slen } source with ⟨error, d₁, source₁⟩
    simp only [result] at added
    cases error with
    | true => cases added
    | false =>
      rw [ih added, (sectorAdd_ok result).2.2.1, after_succ]

/-- A sector that has room is added: the gap behind its ID is not longer than what follows it. -/
theorem sectorAdd_room {s : Nat} (fills : p.autofill ≠ none)
    (short : p.gap.len 2 ≤ p.sectorLength + 2 + p.gap.len 3) (room : d.i + p.slen < d.cBpt) :
    p.sectorAdd s d source = (false, d.emit (p.spots s source), (source.read p.sectorLength).2) := by
  rw [slen, calcSectorlen] at room
  have id : idAdd p.gap p.head p.track s (calcLenid p.sectorLength) false d =
      (false, d.emit (idField p.gap p.head p.track s (calcLenid p.sectorLength) false)) :=
    idAdd_room (by rw [length_idField, idLen]; omega)
  have data := @dataAdd_room p.gap
    (d.emit (idField p.gap p.head p.track s (calcLenid p.sectorLength) false)) source p.sectorLength false false
    p.autofill (fun none => absurd none fills)
    (by
      rw [Surface.i_emit, length_idField, idLen]
      show _ < d.cBpt
      omega)
    (by
      rw [Surface.i_emit, length_idField, idLen, length_dataField, Source.length_field]
      show _ < d.cBpt
      omega)
  unfold sectorAdd
  simp only [id]
  rw [if_neg (by decide), data, Surface.emit_emit]
  rfl

theorem sectorsAdd_room {idx sectors s : Nat} {slot : Nat × Nat} (fills : p.autofill ≠ none)
    (short : p.gap.len 2 ≤ p.sectorLength + 2 + p.gap.len 3)
    (room : ∀ j < sectors, idx + (p.step^[j] slot).1 * p.slen + p.slen < d.cBpt) :
    (p.sectorsAdd idx sectors s slot d source).1 = false := by
  induction sectors generalizing s slot d source with
  | zero => rfl
  | succ sectors ih =>
    rw [sectorsAdd]
    have first : p.sectorAdd s { d with i := idx + slot.1 * p.slen } source = _ :=
      sectorAdd_room fills short (room 0 (Nat.succ_pos _))
    simp only [first]
    rw [if_neg (by decide)]
    exact ih fun j below => room (j + 1) (Nat.succ_lt_succ below)

end Params

end FuseX.Disk.TrackWriter
