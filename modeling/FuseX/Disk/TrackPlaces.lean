import FuseX.Disk.TrackGen
import Mathlib.Data.Fintype.EquivFin

/-!
# Where a generated track has its sectors

A track that `trackgen` has generated is a front, the slots side by side and the last
gap. Where the interleave gives every sector a slot of its own, a seek for a sector
comes through the front and the slots before its own, none of which has its ID, and
finds it; the data mark behind the ID leads to its bytes.

`trackgen_places` is the whole for the calls of the image loaders.
-/

namespace FuseX.Disk.TrackWriter

open Lib

namespace Params

variable {p : Params} {d d' : Surface} {source source' : Source} {buffer : Buffer}

/-! ## Slots -/

/-- Every sector has a slot of its own. -/
structure Permutes (p : Params) : Prop where
  slots : ∀ k < p.sectors, p.slot k < p.sectors
  own : ∀ j k, j < k → k < p.sectors → p.slot j ≠ p.slot k

/-- So every slot has a sector. -/
theorem Permutes.onto (permutes : p.Permutes) {q : Nat} (below : q < p.sectors) :
    ∃ k < p.sectors, p.slot k = q := by
  let f : Fin p.sectors → Fin p.sectors := fun k => ⟨p.slot k, permutes.slots k k.isLt⟩
  have injective : Function.Injective f := by
    intro j k same
    have slots : p.slot j = p.slot k := congrArg Fin.val same
    rcases Nat.lt_trichotomy j k with less | same | more
    · exact absurd slots (permutes.own j k less k.isLt)
    · exact Fin.ext same
    · exact absurd slots.symm (permutes.own k j more j.isLt)
  obtain ⟨k, here⟩ := Finite.injective_iff_surjective.mp injective ⟨q, below⟩
  exact ⟨k, k.isLt, congrArg Fin.val here⟩

/-- Without interleave the slots are in the order of the sectors. -/
theorem slot_plain (plain : p.interleave = 1) {k : Nat} (below : k < p.sectors) :
    p.step^[k] (0, 0) = (k, 0) := by
  induction k with
  | zero => rfl
  | succ k ih =>
    rw [Function.iterate_succ_apply', ih (Nat.lt_of_succ_lt below), step, plain]
    exact if_pos below

theorem permutes_plain (plain : p.interleave = 1) : p.Permutes := by
  refine ⟨fun k below => ?_, fun j k less below => ?_⟩
  · rw [slot, slot_plain plain below]
    exact below
  · rw [slot, slot, slot_plain plain below, slot_plain plain (Nat.lt_trans less below)]
    exact Nat.ne_of_lt less

/-! ## The track -/

/-- What is in front of the sectors. -/
def front (p : Params) : List Spot :=
  (if p.preindex then plain (List.replicate (p.gap.len 0) p.gap.gap) ++ addressMark p.gap 0xfc else []) ++
    plain (List.replicate (p.gap.len 1) p.gap.gap)

theorem scanFlag_frontSpots (standard : p.gap.Standard) :
    scanFlag isIdMark false p.front = some false := by
  rw [front]
  split
  · rw [List.append_assoc, scanFlag_append (scanFlag_plain _),
      scanFlag_append (scanFlag_addressMark standard rfl (by decide))]
    exact scanFlag_plain _
  · exact scanFlag_plain _

/-- Where the slot of sector `k` is. -/
def place (p : Params) (k : Nat) : Nat :=
  p.front.length + p.slot k * p.slen

/-- A generated track. -/
structure Generated (p : Params) (d d' : Surface) (source : Source) : Prop where
  cBpt : d'.cBpt = d.cBpt
  room : p.front.length + p.sectors * p.slen ≤ d.cBpt
  fits : ∀ k < p.sectors, p.place k + p.slen < d.cBpt
  enough : p.autofill = none → ∀ k < p.sectors,
    ((source.after p.sectorLength k).read p.sectorLength).1.length = p.sectorLength
  front : p.Permutes → Holds d'.spot 0 p.front
  sectors : p.Permutes → ∀ k < p.sectors,
    Holds d'.spot (p.place k) (p.spots (p.sectorBase + k) (source.after p.sectorLength k))

/-- The front is added first. -/
theorem front_added {d₁ d₂ : Surface}
    (start : (if p.preindex then preindexAdd p.gap { d with i := 0 } else (false, { d with i := 0 })) =
      (false, d₁)) (post : postindexAdd p.gap d₁ = (false, d₂)) :
    d₂ = ({ d with i := 0 } : Surface).emit p.front := by
  have first : d₁ = ({ d with i := 0 } : Surface).emit
      (if p.preindex then plain (List.replicate (p.gap.len 0) p.gap.gap) ++ addressMark p.gap 0xfc
        else []) := by
    split at start
    · rename_i preindex
      rw [if_pos preindex]
      exact preindexAdd_ok start
    · rename_i none
      cases start
      rw [if_neg none, Surface.emit_nil]
  rw [(gapAdd_ok post).1, first, Surface.emit_emit]
  rfl

/-- The front and the last gap around the sectors. -/
theorem Generated.of_added {d₂ d₃ : Surface} (fresh : ∀ q, d.clocks q = false)
    (first : d₂ = ({ d with i := 0 } : Surface).emit p.front)
    (added : Added p p.sectors p.sectorBase p.place d₂ d₃ source)
    (room : p.front.length + p.sectors * p.slen ≤ d.cBpt) {gap : List Spot}
    (last : d' = ({ d₃ with i := p.front.length + p.sectors * p.slen } : Surface).emit gap) :
    p.Generated d d' source := by
  have same : d₂.cBpt = d.cBpt := by rw [first]; rfl
  have before : ∀ q, q < p.front.length + p.sectors * p.slen → d'.spot q = d₃.spot q := by
    intro q inside
    rw [last]
    exact Surface.spot_elsewhere _ fun within => Nat.not_lt.mpr within.1 inside
  refine ⟨?_, room, fun k below => same ▸ added.fits k below, added.enough, fun _ => ?_, ?_⟩
  · rw [last]
    exact added.cBpt.trans same
  · have stands : Holds d₂.spot 0 p.front := by
      rw [first]
      exact Surface.holds_spot _ fun q _ _ => fresh q
    apply stands.of_same
    intro q _ inside
    rw [Nat.zero_add] at inside
    rw [before q (Nat.lt_add_right _ inside)]
    apply added.outside
    rintro k _ ⟨low, _⟩
    exact Nat.not_lt.mpr (Nat.le_trans (Nat.le_add_right _ _) low) inside
  · intro permutes k below
    have apart : ∀ j k, j < k → k < p.sectors →
        p.place j + p.slen ≤ p.place k ∨ p.place k + p.slen ≤ p.place j := by
      intro j k less inside
      have away := @slots_apart _ _ p.slen (permutes.own j k less inside)
      rw [place, place]
      omega
    have clear : ∀ j < p.sectors, ∀ q, p.place j ≤ q → q < p.place j + p.slen → d₂.clocks q = false := by
      intro j _ q low _
      have outside : d₂.spot q = ({ d with i := 0 } : Surface).spot q := by
        rw [first]
        apply Surface.spot_elsewhere
        rintro ⟨_, high⟩
        exact Nat.not_lt.mpr (Nat.le_trans (Nat.le_add_right _ _) low) (by simpa using high)
      have still : d₂.clocks q = d.clocks q := congrArg Prod.snd outside
      rw [still, fresh]
    apply (added.holds apart clear k below).of_same
    intro q _ inside
    rw [length_spots] at inside
    apply before
    have slot := permutes.slots k below
    have within : p.slot k * p.slen + p.slen ≤ p.sectors * p.slen := by
      rw [← Nat.succ_mul]
      exact Nat.mul_le_mul_right _ slot
    rw [place] at inside
    omega

/-- What a successful call has been through. -/
theorem trackgen_cases (success : p.trackgen d source = (false, d', source')) :
    ∃ d₂ d₃, d₂ = ({ d with i := 0 } : Surface).emit p.front ∧
      p.sectorsAdd p.front.length p.sectors p.sectorBase (0, 0) d₂ source = (false, d₃, source') ∧
      gap4Add p.gap { d₃ with i := p.front.length + p.sectors * p.slen } = (false, d') := by
  unfold trackgen at success
  rcases start : (if p.preindex then preindexAdd p.gap { d with i := 0 } else (false, { d with i := 0 }))
    with ⟨error, d₁⟩
  simp only [start] at success
  cases error with
  | true => cases success
  | false =>
    rcases post : postindexAdd p.gap d₁ with ⟨error, d₂⟩
    simp only [post] at success
    cases error with
    | true => cases success
    | false =>
      have first := front_added start post
      have idx : d₂.i = p.front.length := by
        rw [first, Surface.i_emit, Nat.zero_add]
      rw [idx] at success
      rcases sectors : p.sectorsAdd p.front.length p.sectors p.sectorBase (0, 0) d₂ source
        with ⟨error, d₃, source₃⟩
      simp only [sectors] at success
      cases error with
      | true => cases success
      | false =>
        rcases gapped : gap4Add p.gap { d₃ with i := p.front.length + p.sectors * p.slen }
          with ⟨error, d₄⟩
        simp only [gapped] at success
        cases error with
        | true => cases success
        | false =>
          cases success
          exact ⟨d₂, d₃, first, sectors, gapped⟩

theorem trackgen_ok (fresh : ∀ q, d.clocks q = false) (success : p.trackgen d source = (false, d', source')) :
    p.Generated d d' source := by
  obtain ⟨d₂, d₃, first, sectors, gapped⟩ := trackgen_cases success
  have added := sectorsAdd_ok sectors
  obtain ⟨last, room⟩ := gap4Add_ok gapped
  have same : d₃.cBpt = d.cBpt := added.cBpt.trans (by rw [first]; rfl)
  exact Generated.of_added fresh first added (same ▸ room) last

/-- A track has the bytes of its sectors off the source. -/
theorem trackgen_source (success : p.trackgen d source = (false, d', source')) :
    source' = source.after p.sectorLength p.sectors := by
  obtain ⟨_, _, _, sectors, _⟩ := trackgen_cases success
  exact sectorsAdd_source sectors

/-- A track that has room for its sectors is generated. -/
theorem trackgen_room (plain_ : p.preindex = false) (fills : p.autofill ≠ none)
    (short : p.gap.len 2 ≤ p.sectorLength + 2 + p.gap.len 3) (gap : p.gap.len 1 < d.cBpt)
    (slots : ∀ k < p.sectors, p.gap.len 1 + p.slot k * p.slen + p.slen < d.cBpt)
    (room : p.gap.len 1 + p.sectors * p.slen ≤ d.cBpt) :
    (p.trackgen d source).1 = false := by
  have post : postindexAdd p.gap { d with i := 0 } = _ := gapAdd_room (by
    rw [Nat.zero_add]
    exact gap)
  unfold trackgen
  simp only [plain_, Bool.false_eq_true, if_false, post]
  rw [Surface.i_emit, length_plain, List.length_replicate, Nat.zero_add]
  rcases added : p.sectorsAdd (p.gap.len 1) p.sectors p.sectorBase (0, 0)
    (({ d with i := 0 } : Surface).emit (plain (List.replicate (p.gap.len 1) p.gap.gap))) source
    with ⟨error, d₃, source₃⟩
  obtain rfl : error = false :=
    (congrArg Prod.fst added).symm.trans (sectorsAdd_room fills short slots)
  have long : d₃.cBpt = d.cBpt := (sectorsAdd_ok added).cBpt
  simp only [Bool.false_eq_true, if_false]
  rw [gap4Add, if_neg]
  show ¬ d₃.cBpt < _
  rw [long]
  exact Nat.not_lt.mpr room

/-! ## Seeking -/

/-- The numbers of an ID are bytes. -/
structure Bytes (p : Params) : Prop where
  head : p.head < 256
  track : p.track < 256
  sectors : p.sectorBase + p.sectors ≤ 256
  lenid : calcLenid p.sectorLength < 256

/-- What makes the sectors of a track ones that can be told apart. -/
structure Regular (p : Params) : Prop where
  standard : p.gap.Standard
  bytes : p.Bytes
  permutes : p.Permutes

/-- Sector `k` with its bytes. -/
def sector (p : Params) (k : Nat) (bytes : List UInt8) : List Spot :=
  sectorSpots p.gap p.head p.track (p.sectorBase + k) (calcLenid p.sectorLength) bytes

/-- A track with its sectors, of the given bytes. -/
structure Formatted (p : Params) (d : Surface) (bytes : Nat → List UInt8) : Prop where
  front : Holds d.spot 0 p.front
  room : p.front.length ≤ d.cBpt
  fits : ∀ k < p.sectors, p.place k + p.slen < d.cBpt
  sized : ∀ k < p.sectors, (bytes k).length = p.sectorLength
  sectors : ∀ k < p.sectors, Holds d.spot (p.place k) (p.sector k (bytes k))

theorem Generated.formatted (generated : p.Generated d d' source) (permutes : p.Permutes) :
    p.Formatted d' fun k => (source.after p.sectorLength k).field p.sectorLength p.autofill where
  front := generated.front permutes
  room := by
    rw [generated.cBpt]
    exact Nat.le_trans (Nat.le_add_right _ _) generated.room
  fits k below := by
    rw [generated.cBpt]
    exact generated.fits k below
  sized k _ := Source.length_field _ _ _
  sectors := generated.sectors permutes

variable {contents : Nat → List UInt8}

theorem Formatted.length_sector (formatted : p.Formatted d contents) {k : Nat} (below : k < p.sectors) :
    (p.sector k (contents k)).length = p.slen := by
  rw [sector, length_sectorSpots, formatted.sized k below, slen]

/-- A seek comes past the slots of other sectors. -/
theorem Formatted.passes (formatted : p.Formatted d contents) (regular : p.Regular) {k : Nat}
    (below : k < p.sectors) {q : Nat} (upto : q ≤ p.slot k) :
    idSeek d (p.sectorBase + k) =
      idSeekFrom { d with i := p.front.length + q * p.slen } (p.sectorBase + k) := by
  induction q with
  | zero =>
    have front := idSeekFrom_pass (d := { d with i := 0 }) formatted.front
      (by
        rw [Nat.zero_add]
        exact formatted.room)
      (scanFlag_frontSpots regular.standard) (p.sectorBase + k)
    rw [idSeek, front, Nat.zero_mul, Nat.zero_add]
    rfl
  | succ q ih =>
    have slot := regular.permutes.slots k below
    obtain ⟨j, inside, here⟩ := regular.permutes.onto (Nat.lt_of_lt_of_le upto (Nat.le_of_lt slot))
    have other : j ≠ k := by
      rintro rfl
      omega
    have stands := formatted.sectors j inside
    rw [place, here] at stands
    have fits := formatted.fits j inside
    rw [place, here] at fits
    have numbers := regular.bytes.sectors
    have size := formatted.length_sector inside
    rw [ih (Nat.le_of_succ_le upto)]
    have past : idSeekFrom { d with i := p.front.length + q * p.slen } (p.sectorBase + k) = _ :=
      idSeekFrom_sector regular.standard stands
      (by
        show p.front.length + q * p.slen + _ ≤ d.cBpt
        rw [← sector, size]
        exact Nat.le_of_lt fits)
      (by
        rw [UInt8.toNat_ofNat_of_lt' (by show _ < 256; omega)]
        omega)
    rw [past, ← sector, size, Nat.succ_mul, ← Nat.add_assoc]

/-- A seek for a sector finds its ID. -/
theorem Formatted.seeks (formatted : p.Formatted d contents) (regular : p.Regular) {k : Nat}
    (below : k < p.sectors) :
    idSeek d (p.sectorBase + k) = some
      ({ head := p.head, track := p.track, sector := p.sectorBase + k, length := calcLenid p.sectorLength },
        { d with i := p.place k + idLen p.gap }) := by
  have stands := formatted.sectors k below
  have fits := formatted.fits k below
  have size := formatted.length_sector below
  have bytes := regular.bytes
  have numbers := bytes.sectors
  rw [sector, sectorSpots, List.length_append] at size
  have read := idRead_idField (d := { d with i := p.place k }) regular.standard (Holds.append.mp stands).1
    (by
      show p.place k + _ ≤ d.cBpt
      omega)
  rw [formatted.passes regular below (Nat.le_refl _), idSeekFrom_eq]
  show (idRead { d with i := p.place k }).bind _ = _
  rw [read, Option.bind_some]
  have byte : ∀ n, n < 256 → (UInt8.ofNat n).toNat = n := fun n small => UInt8.toNat_ofNat_of_lt' small
  rw [byte _ bytes.head, byte _ bytes.track, byte _ bytes.lenid, byte (p.sectorBase + k) (by omega)]
  rw [if_pos rfl]

/-- Where the data field of sector `k` begins. -/
def fieldPlace (p : Params) (k : Nat) : Nat :=
  p.place k + (idLen p.gap + p.gap.len 2)

theorem Formatted.field (formatted : p.Formatted d contents) {k : Nat} (below : k < p.sectors) :
    Holds d.spot (p.fieldPlace k) (dataField p.gap false false (contents k)) := by
  obtain ⟨_, field⟩ := Holds.append.mp (formatted.sectors k below)
  rw [length_idField] at field
  exact field

/-- The data behind the mark of a sector. -/
theorem Formatted.data (formatted : p.Formatted d contents) (regular : p.Regular) {k : Nat}
    (below : k < p.sectors) :
    datamarkRead { d with i := p.place k + idLen p.gap } =
        some (false, { d with i := p.fieldPlace k + (p.gap.syncLen + p.gap.marks.length + 1) }) ∧
      dataFieldCrc p.gap { d with i := p.fieldPlace k + (p.gap.syncLen + p.gap.marks.length + 1) }
        p.sectorLength = 0 ∧
      readStrip d.track (p.fieldPlace k + (p.gap.syncLen + p.gap.marks.length + 1)) p.sectorLength =
        contents k := by
  have size := formatted.sized k below
  have field := formatted.field below
  have marked := datamarkRead_sector (d := { d with i := p.place k }) regular.standard
    (formatted.sectors k below)
    (by
      rw [← sector, formatted.length_sector below]
      exact Nat.le_of_lt (formatted.fits k below))
  have crc := dataFieldCrc_dataField (d := { d with i := p.fieldPlace k }) field
  have track : Holds d.track (p.fieldPlace k) _ := field.map Prod.fst
  rw [map_fst_dataField] at track
  have read := track.part.read
  rw [size] at crc read
  rw [List.length_map, length_addressMark] at read
  refine ⟨?_, crc, read⟩
  rw [fieldPlace, ← Nat.add_assoc (p.place k)]
  exact marked

/-- The data field of a sector is written again with other bytes. -/
theorem Formatted.patch (formatted : p.Formatted d contents) (permutes : p.Permutes) {k : Nat}
    (below : k < p.sectors) {bytes : List UInt8} (sized : bytes.length = p.sectorLength) :
    p.Formatted (({ d with i := p.fieldPlace k } : Surface).emit (dataField p.gap false false bytes))
      (Function.update contents k bytes) := by
  have inside : p.place k + p.slen = p.fieldPlace k + (dataField p.gap false false bytes).length := by
    rw [length_dataField, sized, fieldPlace, slen, calcSectorlen, idLen]
    omega
  have elsewhere : ∀ q, q < p.fieldPlace k ∨ p.place k + p.slen ≤ q →
      (({ d with i := p.fieldPlace k } : Surface).emit (dataField p.gap false false bytes)).spot q =
        d.spot q := by
    intro q outside
    apply Surface.spot_elsewhere
    rintro ⟨low, high⟩
    rw [← inside] at high
    exact outside.elim (fun low' => Nat.not_lt.mpr low low') fun high' => Nat.not_lt.mpr high' high
  have behind : p.front.length ≤ p.place k := Nat.le_add_right _ _
  have start : p.place k ≤ p.fieldPlace k := Nat.le_add_right _ _
  refine ⟨?_, formatted.room, formatted.fits, fun j low => ?_, fun j low => ?_⟩
  · apply formatted.front.of_same
    intro q _ high
    exact elsewhere q (.inl (by omega))
  · rcases eq_or_ne j k with rfl | other
    · rw [Function.update_self]
      exact sized
    · rw [Function.update_of_ne other]
      exact formatted.sized j low
  · rcases eq_or_ne j k with rfl | other
    · rw [Function.update_self]
      refine Holds.append.mpr ⟨?_, ?_⟩
      · apply (Holds.append.mp (formatted.sectors j low)).1.of_same
        intro q _ high
        rw [length_idField] at high
        exact elsewhere q (.inl high)
      · rw [length_idField]
        exact Surface.holds_over { d with i := p.fieldPlace j } (formatted.field low)
          (map_snd_dataField ((formatted.sized j low).trans sized.symm))
    · rw [Function.update_of_ne other]
      apply (formatted.sectors j low).of_same
      intro q low' high
      rw [formatted.length_sector low] at high
      have away : p.place j + p.slen ≤ p.place k ∨ p.place k + p.slen ≤ p.place j := by
        rw [place, place]
        rcases Nat.lt_or_gt_of_ne other with less | more
        · have apart := @slots_apart _ _ p.slen (permutes.own j k less below)
          omega
        · have apart := @slots_apart _ _ p.slen (permutes.own k j more low)
          omega
      exact elsewhere q (by omega)

/-- The number of sector `k` is found between two places of the track: its ID says the geometry, both
checksums are right, and its bytes are those of the input. -/
def FoundAt (p : Params) (d : Surface) (buffer : Buffer) (k first last : Nat) : Prop :=
  ∃ id d₁ d₂, idSeek d (p.sectorBase + k) = some (id, d₁) ∧
    (id.head = p.head ∧ id.track = p.track ∧ id.sector = p.sectorBase + k ∧
      0x80 <<< id.length = p.sectorLength) ∧
    idCrc p.gap d₁ = 0 ∧ datamarkRead d₁ = some (false, d₂) ∧ dataFieldCrc p.gap d₂ p.sectorLength = 0 ∧
    readStrip d₂.track d₂.i p.sectorLength = inputBytes buffer p.sectorLength p.autofill k ∧
    d₁.i = first + idLen p.gap ∧ d₂.i + p.sectorLength + 2 + p.gap.len 3 = last

/-- Every sector is on the track, at a place of its own, with its bytes of the input; and the track
is saved as it was read. -/
def Placed (p : Params) (d : Surface) (buffer : Buffer) : Prop :=
  ∃ place : Nat → Nat,
    (∀ k < p.sectors, place k + p.slen ≤ d.cBpt ∧ FoundAt p d buffer k (place k) (place k + p.slen)) ∧
    (∀ j k, j < k → k < p.sectors → place j + p.slen ≤ place k ∨ place k + p.slen ≤ place j) ∧
    (p.autofill = none → ∀ k < p.sectors, (k + 1) * p.sectorLength ≤ buffer.avail) ∧
    savetrack d p.sectorBase p.sectors (calcLenid p.sectorLength) =
      some ((List.range p.sectors).flatMap (inputBytes buffer p.sectorLength p.autofill))

/-- The track is saved from any of its sectors on. -/
theorem Formatted.saves (formatted : p.Formatted d contents) (regular : p.Regular)
    (power : 0x80 <<< calcLenid p.sectorLength = p.sectorLength) {count k : Nat}
    (all : k + count = p.sectors) :
    savetrackFrom d (calcLenid p.sectorLength) (p.sectorBase + k) count =
      some ((List.range' k count).flatMap contents) := by
  induction count generalizing k with
  | zero => rfl
  | succ count ih =>
    have below : k < p.sectors := by omega
    obtain ⟨marked, _, read⟩ := formatted.data regular below
    have rest := @ih (k + 1) (by omega)
    rw [savetrackFrom, formatted.seeks regular below]
    simp only [marked]
    rw [Nat.add_assoc p.sectorBase, rest, dataWriteFile, power, read]
    rfl

/-- A generated track has its sectors where the length is one an ID can say. -/
theorem Generated.placed (generated : p.Generated d d' (.buffer buffer)) (regular : p.Regular)
    (power : 0x80 <<< calcLenid p.sectorLength = p.sectorLength) : Placed p d' buffer := by
  have formatted := generated.formatted regular.permutes
  simp only [field_after] at formatted
  refine ⟨p.place, fun k below => ?_, fun j k less below => ?_, fun none k below => ?_, ?_⟩
  · obtain ⟨marked, crc, read⟩ := formatted.data regular below
    refine ⟨Nat.le_of_lt (formatted.fits k below), _, _, _, formatted.seeks regular below,
      ⟨rfl, rfl, rfl, power⟩, ?_, marked, crc, read, rfl, ?_⟩
    · exact idCrc_idField (d := { d' with i := p.place k }) (Holds.append.mp (formatted.sectors k below)).1
    · show p.fieldPlace k + _ + _ + _ + _ = _
      rw [fieldPlace, slen, calcSectorlen, idLen]
      omega
  · have away := @slots_apart _ _ p.slen (regular.permutes.own j k less below)
    rw [place, place]
    omega
  · have enough := generated.enough none k below
    obtain ⟨b, after, ahead⟩ := after_buffer buffer p.sectorLength k
    rw [after] at enough
    have there : (b.ahead.take p.sectorLength).length = p.sectorLength := enough
    rw [ahead, List.length_take, List.length_drop, Buffer.length_ahead] at there
    rw [Nat.succ_mul]
    rcases Nat.eq_zero_or_pos p.sectorLength with zero | positive
    · rw [zero, Nat.mul_zero]
      exact Nat.zero_le _
    · omega
  · rw [savetrack, List.range_eq_range']
    exact formatted.saves regular power (Nat.zero_add _)

/-- No ID says another length. -/
theorem Placed.power {d : Surface} (placed : Placed p d buffer) (some : 0 < p.sectors) :
    ∃ n, p.sectorLength = 0x80 <<< n := by
  obtain ⟨place, each, _⟩ := placed
  obtain ⟨_, id, _, _, _, ⟨_, _, _, length⟩, _⟩ := each 0 some
  exact ⟨id.length, length.symm⟩

/-- Where there are no sectors there is nothing to find. -/
theorem placed_none {d : Surface} (none : p.sectors = 0) : Placed p d buffer := by
  refine ⟨fun _ => 0, fun k below => ?_, fun j k _ below => ?_, fun _ k below => ?_, ?_⟩
  · exact absurd (none ▸ below) (Nat.not_lt_zero k)
  · exact absurd (none ▸ below) (Nat.not_lt_zero k)
  · exact absurd (none ▸ below) (Nat.not_lt_zero k)
  · rw [none]
    rfl

end Params

/-! ## The calls of the loaders -/

open Params

theorem calcLenid_power (n : Nat) : calcLenid (0x80 <<< n) = n := by
  induction n with
  | zero => rw [calcLenid, if_neg (by decide)]
  | succ n ih =>
    have positive := Nat.two_pow_pos n
    have half : 0x80 <<< (n + 1) / 2 = 0x80 <<< n := by
      rw [Nat.shiftLeft_eq, Nat.shiftLeft_eq, Nat.pow_succ]
      omega
    rw [calcLenid, if_pos, half, ih]
    rw [Nat.shiftLeft_eq, Nat.pow_succ]
    omega

theorem calcLenid_le {len m : Nat} (small : len ≤ 0x80 * 2 ^ m) : calcLenid len ≤ m := by
  induction m generalizing len with
  | zero =>
    rw [calcLenid, if_neg (by simpa using small)]
  | succ m ih =>
    rw [calcLenid]
    split
    · exact Nat.succ_le_succ (ih (by rw [Nat.pow_succ] at small; omega))
    · exact Nat.zero_le _

theorem opus_slots : (∀ k < 18, ((nextSlot 18 13)^[k] (0, 0)).1 < 18) ∧
    ∀ k < 18, ∀ j < k, ((nextSlot 18 13)^[j] (0, 0)).1 ≠ ((nextSlot 18 13)^[k] (0, 0)).1 := by
  decide

theorem trdos_slots : (∀ k < 16, ((nextSlot 16 2)^[k] (0, 0)).1 < 16) ∧
    ∀ k < 16, ∀ j < k, ((nextSlot 16 2)^[j] (0, 0)).1 ≠ ((nextSlot 16 2)^[k] (0, 0)).1 := by
  decide

variable {p : Params} {d d' : Surface} {source' : Source} {buffer : Buffer}

/-- The fifth slot of an OPD image of ten sectors is behind the end of the track. -/
theorem opus_unfit {head track : Nat} (long : d.cBpt = 6250)
    (generated : Generated ⟨head, track, 0, 10, 512, false, gapOf gapMgtPlusd, 13, none⟩ d d' (.buffer buffer)) :
    False := by
  have fits := generated.fits 4 (show 4 < 10 by decide)
  have place : Params.place ⟨head, track, 0, 10, 512, false, gapOf gapMgtPlusd, 13, none⟩ 4 = 60 + 12 * 598 := rfl
  rw [place, long] at fits
  omega

/-- The two geometries of IMG, MGT and OPD images. -/
theorem geometry {sectors sectorLength : Nat} (image : (sectors, sectorLength) ∈ [(10, 512), (18, 256)]) :
    sectors = 10 ∧ sectorLength = 512 ∨ sectors = 18 ∧ sectorLength = 256 := by
  simpa using image

/-- The interleaves of the loaders give every sector a slot of its own. -/
theorem LoaderCall.permutes {cBpt : Nat} (call : LoaderCall p cBpt) (same : d.cBpt = cBpt)
    (generated : p.Generated d d' (.buffer buffer)) : p.Permutes := by
  cases call with
  | preformat _ _ _ => exact permutes_plain rfl
  | img _ _ _ => exact permutes_plain rfl
  | d40 _ _ _ => exact permutes_plain rfl
  | sad _ _ _ _ => exact permutes_plain rfl
  | trd _ _ => exact ⟨trdos_slots.1, fun j k less below => trdos_slots.2 k below j less⟩
  | opd _ _ image =>
    rcases geometry image with ⟨rfl, rfl⟩ | ⟨rfl, rfl⟩
    · exact (opus_unfit same generated).elim
    · exact ⟨opus_slots.1, fun j k less below => opus_slots.2 k below j less⟩

theorem bytes_of {head track sectorBase sectors sectorLength interleave : Nat} {preindex : Bool}
    {gap : Gap} {autofill : Option UInt8} (low : head < 2) (small : track < 256)
    (numbers : sectorBase + sectors ≤ 256) (short : sectorLength ≤ 0x80 * 2 ^ 7) :
    Bytes ⟨head, track, sectorBase, sectors, sectorLength, preindex, gap, interleave, autofill⟩ :=
  ⟨Nat.lt_trans low (by decide), small, numbers, Nat.lt_of_le_of_lt (calcLenid_le short) (by decide)⟩

theorem LoaderCall.bytes {cBpt : Nat} (call : LoaderCall p cBpt) : p.Bytes := by
  cases call with
  | preformat head track base => exact bytes_of head track (by omega) (by decide)
  | img head track image =>
    have known := geometry image
    exact bytes_of head track (by omega) (by omega)
  | opd head track image =>
    have known := geometry image
    exact bytes_of head track (by omega) (by omega)
  | d40 head track few => exact bytes_of head track (by omega) (by decide)
  | sad sectors length head track =>
    have few := sectors.toNat_lt
    have short := length.toNat_lt
    exact bytes_of head track (by omega) (by omega)
  | trd head track => exact bytes_of head track (by decide) (by decide)

theorem LoaderCall.standard {cBpt : Nat} (call : LoaderCall p cBpt) : p.gap.Standard := by
  cases call <;> exact standard_gapOf _

/-- **The sectors of a track are where their numbers are sought**, for all the image loaders: where a
track has sectors their length has to be one an ID can say. -/
theorem trackgen_places (call : LoaderCall p d.cBpt) (fresh : ∀ q, d.clocks q = false)
    (success : p.trackgen d (.buffer buffer) = (false, d', source')) :
    p.Placed d' buffer ↔ p.sectors = 0 ∨ ∃ n, p.sectorLength = 0x80 <<< n := by
  have generated := trackgen_ok fresh success
  constructor
  · intro placed
    rcases Nat.eq_zero_or_pos p.sectors with none | some
    · exact .inl none
    · exact .inr (placed.power some)
  · rintro (none | ⟨n, power⟩)
    · exact placed_none none
    · exact generated.placed ⟨call.standard, call.bytes, call.permutes rfl generated⟩
        (by rw [power, calcLenid_power])

/-- A new track of a double density disk. -/
def newTrack : Surface :=
  ⟨fun _ => 0, fun _ => false, 6250, 0⟩

theorem success_of {source : Source} (done : (p.trackgen d source).1 = false) :
    ∃ d' source', p.trackgen d source = (false, d', source') :=
  ⟨_, _, Prod.ext done rfl⟩

/-- The last track of a TRD image that ends in its second sector. -/
def trdBuffer : Buffer :=
  ⟨List.replicate 300 0xe5, 0, Nat.zero_le _⟩

theorem trackgen_places_trd :
    ∃ d' source', Params.trackgen ⟨0, 3, 1, 16, 256, false, gapOf gapTrdos, 2, some 0⟩ newTrack
        (.buffer trdBuffer) = (false, d', source') ∧
      (Params.Placed ⟨0, 3, 1, 16, 256, false, gapOf gapTrdos, 2, some 0⟩ d' trdBuffer ↔
        16 = 0 ∨ ∃ n, 256 = 0x80 <<< n) := by
  obtain ⟨d', source', success⟩ := @success_of ⟨0, 3, 1, 16, 256, false, gapOf gapTrdos, 2, some 0⟩
    newTrack (.buffer trdBuffer) (by decide +kernel)
  exact ⟨d', source', success, trackgen_places (.trd (by decide) (by decide)) (fun _ => rfl) success⟩

/-- A SAD image of one sector of 64 bytes, behind its header. -/
def sadBuffer : Buffer :=
  { file := [0x41, 0x6c, 0x65, 0x79, 0x27, 0x73, 0x20, 0x64, 0x69, 0x73, 0x6b, 0x20, 0x62, 0x61, 0x63,
      0x6b, 0x75, 0x70, 1, 1, 1, 1] ++ List.replicate 64 0xe5
    index := 22
    inside := by decide }

theorem sad_not_placed :
    LoaderCall ⟨0, 0, 1, 1, 64, false, gapOf gapMgtPlusd, 1, none⟩ newTrack.cBpt ∧
    ∃ d' source', Params.trackgen ⟨0, 0, 1, 1, 64, false, gapOf gapMgtPlusd, 1, none⟩ newTrack
        (.buffer sadBuffer) = (false, d', source') ∧
      ¬ Params.Placed ⟨0, 0, 1, 1, 64, false, gapOf gapMgtPlusd, 1, none⟩ d' sadBuffer := by
  refine ⟨.sad 1 1 (by decide) (by decide), ?_⟩
  obtain ⟨d', source', success⟩ := @success_of ⟨0, 0, 1, 1, 64, false, gapOf gapMgtPlusd, 1, none⟩
    newTrack (.buffer sadBuffer) (by decide)
  refine ⟨d', source', success, fun placed => ?_⟩
  obtain ⟨n, length⟩ := placed.power (by decide)
  have least : 0x80 ≤ 0x80 <<< n := by
    rw [Nat.shiftLeft_eq]
    exact Nat.le_mul_of_pos_right _ (Nat.two_pow_pos n)
  exact absurd (length ▸ least) (by decide)

end FuseX.Disk.TrackWriter
