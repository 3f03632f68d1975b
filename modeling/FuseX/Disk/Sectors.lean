import FuseX.Disk.Fdd

/-!
# Sectors on a track

What a sector looks like on a track, in FM and in MFM: sync bytes and marks, an ID
field with its checksum, a gap, and a data field with a checksum of its own.
Positions count on over the index hole.
-/

namespace FuseX.Disk

open Fdd

/-! ## Positions -/

namespace TrackSlot

variable (t : TrackSlot)

/-- The cell at a position, counted over any number of turns. -/
def cellAt (x : Nat) : Cell :=
  t.cell (x % t.cBpt)

/-- The data stand on the track from `x` on. -/
def Holds (x : Nat) (image : List Nat) : Prop :=
  ∀ k data, image[k]? = some data → Firm (t.cellAt (x + k)) data

variable {t}

theorem cellAt_congr {x y : Nat} (same : x % t.cBpt = y % t.cBpt) : t.cellAt x = t.cellAt y := by
  rw [cellAt, cellAt, same]

theorem Holds.congr {x y : Nat} {image : List Nat} (holds : t.Holds x image)
    (same : x % t.cBpt = y % t.cBpt) : t.Holds y image := by
  intro k data at_k
  have same_k : (x + k) % t.cBpt = (y + k) % t.cBpt := by
    rw [Nat.add_mod, same, ← Nat.add_mod]
  rw [← cellAt_congr same_k]
  exact holds k data at_k

theorem holds_append {x : Nat} {image image' : List Nat} :
    t.Holds x (image ++ image') ↔ t.Holds x image ∧ t.Holds (x + image.length) image' := by
  constructor
  · intro holds
    constructor
    · intro k data at_k
      have inside : k < image.length := (List.getElem?_eq_some_iff.mp at_k).1
      exact holds k data ((List.getElem?_append_left inside).trans at_k)
    · intro k data at_k
      rw [Nat.add_assoc]
      apply holds
      rw [List.getElem?_append_right (Nat.le_add_right _ _), Nat.add_sub_cancel_left]
      exact at_k
  · rintro ⟨first, second⟩ k data at_k
    rcases Nat.lt_or_ge k image.length with inside | behind
    · rw [List.getElem?_append_left inside] at at_k
      exact first k data at_k
    · rw [List.getElem?_append_right behind] at at_k
      have at_second := second _ _ at_k
      rwa [show x + image.length + (k - image.length) = x + k by omega] at at_second

theorem holds_cons {x data : Nat} {image : List Nat} :
    t.Holds x (data :: image) ↔ Firm (t.cellAt x) data ∧ t.Holds (x + 1) image := by
  rw [show data :: image = [data] ++ image from rfl, holds_append]
  apply and_congr_left
  intro _
  constructor
  · intro holds
    exact holds 0 data rfl
  · intro firm k found at_k
    rcases k with _ | k
    · cases at_k
      exact firm
    · cases at_k

theorem Holds.replicate {x n data : Nat} (holds : t.Holds x (List.replicate n data)) {k : Nat}
    (k_lt : k < n) : Firm (t.cellAt (x + k)) data :=
  holds k data (by rw [List.getElem?_replicate, if_pos k_lt])

end TrackSlot

/-! ## Fields -/

/-- The checksum of some data that are read, from a value of the register on. -/
def crcList (crc : UInt16) (data : List Nat) : UInt16 :=
  data.foldl (fun crc byte => crcFdc crc (UInt8.ofNat byte)) crc

/-- The register in front of an address mark. -/
def crcStart (mfm : Bool) : UInt16 :=
  if mfm then 0xcdb4 else 0xffff

/-- The bytes of a checksum. -/
def crcBytes (crc : UInt16) : List Nat :=
  [(crc >>> 8).toNat, (crc &&& 0xff).toNat]

/-- An address mark: in FM it has missing clock bits itself. -/
def addressMark (mfm : Bool) (mark : Nat) : Nat :=
  if mfm then mark else 0xff00 + mark

/-- What stands in front of an address mark. -/
def sync (mfm : Bool) : List Nat :=
  if mfm then List.replicate 12 0x00 ++ List.replicate 3 0xffa1 else List.replicate 6 0x00

/-- A field from its address mark on. -/
def field (mfm : Bool) (mark : Nat) (data : List Nat) : List Nat :=
  addressMark mfm mark :: (data ++ crcBytes (crcList (crcStart mfm) (mark :: data)))

/-- The values in an ID field. -/
structure IdValues : Type where
  track : Nat
  head : Nat
  sector : Nat
  length : Nat

/-- A valid ID field. -/
def idImage (mfm : Bool) (id : IdValues) : List Nat :=
  sync mfm ++ field mfm 0xfe [id.track, id.head, id.sector, id.length]

/-- The gap between ID field and data field. -/
def gap2 (mfm : Bool) : List Nat :=
  if mfm then List.replicate 22 0x4e else List.replicate 11 0xff

/-- A data field and the byte a write adds to it. -/
def dataImage (mfm deleted : Bool) (block : List UInt8) : List Nat :=
  sync mfm ++ field mfm (if deleted then 0xf8 else 0xfb) (block.map UInt8.toNat) ++ [0xff]

/-- A valid ID field can be read, with its address mark at `z`. -/
def IdReads (t : TrackSlot) (mfm : Bool) (z : Nat) (id : IdValues) : Prop :=
  (mfm = true → Reads (t.cellAt (z + (t.cBpt - 1))) 0xffa1) ∧
  Reads (t.cellAt z) (addressMark mfm 0xfe) ∧
  Reads (t.cellAt (z + 1)) id.track ∧ Reads (t.cellAt (z + 2)) id.head ∧
  Reads (t.cellAt (z + 3)) id.sector ∧ Reads (t.cellAt (z + 4)) id.length ∧
  ∃ crc1 crc2, Reads (t.cellAt (z + 5)) crc1 ∧ Reads (t.cellAt (z + 6)) crc2 ∧
    crcList (crcStart mfm) [0xfe, id.track, id.head, id.sector, id.length, crc1, crc2] = 0

/-- A position in an ID field with its address mark at `z`. -/
def inId (t : TrackSlot) (mfm : Bool) (z x : Nat) : Prop :=
  (mfm = true ∧ x % t.cBpt = (z + (t.cBpt - 1)) % t.cBpt) ∨
  ∃ k < 7, x % t.cBpt = (z + k) % t.cBpt

/-- Where the data field begins, from the sync bytes of the ID field on. -/
def dataOffset (mfm : Bool) : Nat :=
  if mfm then 44 else 24

/-- The bytes of a data field and the one behind it. -/
def dataLength (mfm : Bool) (len : Nat) : Nat :=
  (if mfm then 15 else 6) + 1 + len + 2 + 1

/-- A sector of `len` bytes with standard gaps stands at `p`, and its data field has
its place for itself. -/
structure Standard (t : TrackSlot) (mfm : Bool) (p : Nat) (id : IdValues) (len : Nat) : Prop where
  holds : t.Holds p (idImage mfm id ++ gap2 mfm)
  fits : dataOffset mfm + dataLength mfm len ≤ t.cBpt
  apart : ∀ z other, IdReads t mfm z other →
    ∀ k < dataLength mfm len, ¬ inId t mfm z (p + dataOffset mfm + k)

/-! ## Writes -/

/-- The data are written to the track, from `q` on. -/
structure Written (t : TrackSlot) (q : Nat) (image : List Nat) (t' : TrackSlot) : Prop where
  cBpt_eq : t'.cBpt = t.cBpt
  holds : t'.Holds q image
  rest : ∀ y, (∀ k < image.length, y % t.cBpt ≠ (q + k) % t.cBpt) → t'.cellAt y = t.cellAt y

/-- A byte, or a byte with missing clock bits. -/
def Datum (data : Nat) : Prop :=
  data < 0x100 ∨ (0xff00 ≤ data ∧ data < 0x10000)

theorem firm_put {data : Nat} (datum : Datum data) (fm : Bool) :
    Firm ⟨UInt8.ofNat data, data / 256 % 256 ≠ 0, fm, false⟩ data := by
  refine ⟨rfl, ?_⟩
  rw [UInt8.toNat_ofNat']
  rcases datum with byte | ⟨low, high⟩
  · rw [if_neg (by rw [decide_eq_true_iff]; omega)]
    omega
  · rw [if_pos (by rw [decide_eq_true_iff]; omega)]
    omega

theorem written_nil (t : TrackSlot) (q : Nat) : Written t q [] t where
  cBpt_eq := rfl
  holds := by
    intro k data at_k
    cases at_k
  rest := fun _ _ => rfl

/-- One byte more is written. -/
theorem Written.snoc {t t' : TrackSlot} {q : Nat} {image : List Nat} (written : Written t q image t')
    (room : image.length < t.cBpt) {data : Nat} (datum : Datum data) (fm : Bool) :
    Written t q (image ++ [data]) (t'.put ((q + image.length) % t'.cBpt) (UInt8.ofNat data)
      (data / 256 % 256 ≠ 0) fm) := by
  have same := written.cBpt_eq
  have pos : 0 < t'.cBpt := by omega
  have cell : ∀ y, (t'.put ((q + image.length) % t'.cBpt) (UInt8.ofNat data)
      (data / 256 % 256 ≠ 0) fm).cellAt y
      = if y % t'.cBpt = (q + image.length) % t'.cBpt then
          ⟨UInt8.ofNat data, data / 256 % 256 ≠ 0, fm, false⟩ else t'.cellAt y := by
    intro y
    rw [TrackSlot.cellAt, TrackSlot.cBpt_put, TrackSlot.cell_put _ _ _ _ (Nat.mod_lt _ pos)
      (Nat.mod_lt _ pos)]
    rfl
  refine ⟨(TrackSlot.cBpt_put t' _ _ _ fm).trans same, ?_, ?_⟩
  · intro k found at_k
    rw [cell]
    rcases Nat.lt_or_ge k image.length with inside | behind
    · rw [List.getElem?_append_left inside] at at_k
      have other : (q + k) % t'.cBpt ≠ (q + image.length) % t'.cBpt := by
        intro equal
        have divides := Nat.dvd_of_mod_eq_zero (Nat.sub_mod_eq_zero_of_mod_eq equal.symm)
        have far := Nat.le_of_dvd (by omega) divides
        omega
      rw [if_neg other]
      exact written.holds k found at_k
    · rw [List.getElem?_append_right behind, List.getElem?_singleton] at at_k
      have last : k = image.length := by
        by_contra later
        rw [if_neg (by omega)] at at_k
        cases at_k
      rw [last, Nat.sub_self, if_pos rfl] at at_k
      cases at_k
      rw [last, if_pos rfl]
      exact firm_put datum fm
  · intro y outside
    rw [List.length_append, List.length_singleton] at outside
    rw [cell, same, if_neg (outside image.length (by omega))]
    exact written.rest y fun k k_lt => outside k (by omega)

/-! ## Checksums -/

theorem crcList_cons (crc : UInt16) (byte : Nat) (data : List Nat) :
    crcList crc (byte :: data) = crcList (crcFdc crc (UInt8.ofNat byte)) data :=
  rfl

theorem crcList_append (crc : UInt16) (data data' : List Nat) :
    crcList crc (data ++ data') = crcList (crcList crc data) data' :=
  List.foldl_append

theorem ofNat_toNat (x : UInt16) : UInt8.ofNat x.toNat = x.toUInt8 := by
  apply UInt8.toNat_inj.mp
  rw [UInt8.toNat_ofNat', UInt16.toNat_toUInt8]

theorem crcList_crcBytes (crc : UInt16) : crcList crc (crcBytes crc) = 0 := by
  rw [crcBytes, crcList, List.foldl_cons, List.foldl_cons, List.foldl_nil, ofNat_toNat, ofNat_toNat]
  exact crcFdc_own crc

/-- The bytes of the checksum are right for the data in front of them. -/
theorem crcList_own (crc : UInt16) (data : List Nat) :
    crcList crc (data ++ crcBytes (crcList crc data)) = 0 := by
  rw [crcList_append, crcList_crcBytes]

/-! ## Lengths -/

theorem length_sync (mfm : Bool) : (sync mfm).length = if mfm then 15 else 6 := by
  cases mfm <;> rfl

theorem length_field (mfm : Bool) (mark : Nat) (data : List Nat) :
    (field mfm mark data).length = data.length + 3 := by
  simp [field, crcBytes]

theorem length_idImage (mfm : Bool) (id : IdValues) :
    (idImage mfm id).length = if mfm then 22 else 13 := by
  rw [idImage, List.length_append, length_sync, length_field]
  cases mfm <;> rfl

theorem length_gap2 (mfm : Bool) : (gap2 mfm).length = if mfm then 22 else 11 := by
  cases mfm <;> rfl

theorem length_dataImage (mfm deleted : Bool) (block : List UInt8) :
    (dataImage mfm deleted block).length = dataLength mfm block.length := by
  simp only [dataImage, List.length_append, length_sync, length_field, List.length_map,
    List.length_singleton, dataLength]
  omega

end FuseX.Disk
