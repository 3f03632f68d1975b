import FuseX.Disk.TrackWriter

/-!
# What is added to a track

A successful addition is one `emit`: its bytes stand on the track where the cursor
was, and the rest of the track is as before. So whatever is added piece by piece is
the `emit` of the pieces put together.
-/

namespace FuseX.Disk.TrackWriter

open Lib

/-! ## Lengths -/

@[simp] theorem length_plain (bytes : List UInt8) : (plain bytes).length = bytes.length := by
  simp [plain]

@[simp] theorem map_fst_plain (bytes : List UInt8) : (plain bytes).map Prod.fst = bytes := by
  simp [plain, Function.comp_def]

theorem plain_append (front back : List UInt8) : plain (front ++ back) = plain front ++ plain back :=
  List.map_append

@[simp] theorem length_addressMark (g : Gap) (mark : UInt8) :
    (addressMark g mark).length = g.syncLen + g.marks.length + 1 := by
  simp [addressMark, Nat.add_assoc]

@[simp] theorem length_idSpots (g : Gap) (h t s l : Nat) (crcError : Bool) :
    (idSpots g h t s l crcError).length = g.syncLen + g.marks.length + 7 := by
  simp [idSpots, idHeader]

@[simp] theorem length_dataSpots (g : Gap) (ddam crcError : Bool) (bytes : List UInt8) :
    (dataSpots g ddam crcError bytes).length = bytes.length + 2 := by
  simp [dataSpots, crcBytes]

/-! ## Emitting -/

namespace Surface

variable (d : Surface) {spots : List Spot}

@[simp] theorem i_emit : (d.emit spots).i = d.i + spots.length := rfl

@[simp] theorem cBpt_emit : (d.emit spots).cBpt = d.cBpt := rfl

@[simp] theorem emit_nil : d.emit [] = d := by
  unfold emit
  rw [List.map_nil, List.map_nil, overwrite_nil, overwrite_nil]
  simp

theorem emit_emit (spots spots' : List Spot) : (d.emit spots).emit spots' = d.emit (spots ++ spots') := by
  have bits : ∀ place, overwrite (fun _ => false) d.i ((spots ++ spots').map Prod.snd) place =
      (overwrite (fun _ => false) d.i (spots.map Prod.snd) place ||
        overwrite (fun _ => false) (d.i + spots.length) (spots'.map Prod.snd) place) := by
    intro place
    have length : (spots.map Prod.snd).length = spots.length := List.length_map _
    rw [List.map_append, ← length, ← overwrite_append]
    by_cases behind : d.i + (spots.map Prod.snd).length ≤ place
    · have front : overwrite (fun _ => false) d.i (spots.map Prod.snd) place = false :=
        overwrite_elsewhere fun inside => Nat.not_lt.mpr behind inside.2
      rw [overwrite_from behind, overwrite_from behind, front, Bool.false_or]
    · have back : overwrite (fun _ => false) (d.i + (spots.map Prod.snd).length)
          (spots'.map Prod.snd) place = false := overwrite_before (Nat.not_le.mp behind)
      rw [back, Bool.or_false]
      exact overwrite_before (Nat.not_le.mp behind)
  unfold emit
  simp only [Surface.mk.injEq]
  refine ⟨?_, ?_, trivial, ?_⟩
  · have length : (spots.map Prod.fst).length = spots.length := List.length_map _
    rw [List.map_append, ← length, overwrite_append]
  · funext place
    rw [bits place, Bool.or_assoc]
  · rw [List.length_append, Nat.add_assoc]

/-- The rest of the track is as before. -/
theorem spot_elsewhere {place : Nat} (outside : ¬ (d.i ≤ place ∧ place < d.i + spots.length)) :
    (d.emit spots).spot place = d.spot place := by
  have bytes : (d.emit spots).track place = d.track place :=
    overwrite_elsewhere (by simpa using outside)
  have bits : (d.emit spots).clocks place = d.clocks place := by
    have none : overwrite (fun _ => false) d.i (spots.map Prod.snd) place = false :=
      overwrite_elsewhere (by simpa using outside)
    show (d.clocks place || _) = d.clocks place
    rw [none, Bool.or_false]
  rw [spot, spot, bytes, bits]

/-- The bytes stand where the cursor was. -/
theorem holds_track : Holds (d.emit spots).track d.i (spots.map Prod.fst) :=
  Holds.overwritten

/-- Where no clock bit was set the clock bits stand there too. -/
theorem holds_spot
    (fresh : ∀ place, d.i ≤ place → place < d.i + spots.length → d.clocks place = false) :
    Holds (d.emit spots).spot d.i spots := by
  have bits : Holds (overwrite (fun _ => false) d.i (spots.map Prod.snd)) d.i (spots.map Prod.snd) :=
    Holds.overwritten
  intro k inside
  have byte := @holds_track d spots k (by simpa using inside)
  have bit := bits k (by simpa using inside)
  have clear := fresh (d.i + k) (Nat.le_add_right _ _) (Nat.add_lt_add_left inside _)
  have clock : (d.emit spots).clocks (d.i + k) = (spots[k]).2 := by
    show (d.clocks (d.i + k) || _) = _
    rw [clear, Bool.false_or, bit, List.getElem_map]
  rw [spot, byte, clock, List.getElem_map]

/-- Over spots with the same clock bits the new ones stand as well. -/
theorem holds_over {old : List Spot} (holds : Holds d.spot d.i old)
    (bits : old.map Prod.snd = spots.map Prod.snd) : Holds (d.emit spots).spot d.i spots := by
  have length : old.length = spots.length := by
    rw [← List.length_map Prod.snd, bits, List.length_map]
  have written : Holds (overwrite (fun _ => false) d.i (spots.map Prod.snd)) d.i (spots.map Prod.snd) :=
    Holds.overwritten
  intro k inside
  have byte := @holds_track d spots k (by simpa using inside)
  have bit := written k (by simpa using inside)
  have there : k < old.length := length ▸ inside
  have same : old[k].2 = spots[k].2 := by
    rw [← List.getElem_map Prod.snd (h := by simpa using there)]
    simp only [bits, List.getElem_map]
  have before : d.clocks (d.i + k) = (spots[k]).2 :=
    (congrArg Prod.snd (holds k there)).trans same
  have clock : (d.emit spots).clocks (d.i + k) = (spots[k]).2 := by
    show (d.clocks (d.i + k) || _) = _
    rw [before, bit, List.getElem_map, Bool.or_self]
  rw [spot, byte, clock, List.getElem_map]

end Surface

/-! ## Additions that succeed -/

variable {g : Gap} {d d' : Surface}

theorem gapAdd_ok {gap : Nat} (added : gapAdd g gap d = (false, d')) :
    d' = d.emit (plain (List.replicate (g.len gap) g.gap)) ∧ d.i + g.len gap < d.cBpt := by
  unfold gapAdd at added
  split at added
  · cases added
  · rename_i room
    cases added
    exact ⟨rfl, Nat.not_le.mp room⟩

theorem preindexAdd_ok (added : preindexAdd g d = (false, d')) :
    d' = d.emit (plain (List.replicate (g.len 0) g.gap) ++ addressMark g 0xfc) := by
  unfold preindexAdd at added
  split at added
  · cases added
  · rcases result : gapAdd g 0 d with ⟨error, d₁⟩
    rw [result] at added
    cases error with
    | true => cases added
    | false =>
      cases added
      rw [(gapAdd_ok result).1, Surface.emit_emit]

theorem gap4Add_ok (added : gap4Add g d = (false, d')) :
    d' = d.emit (plain (List.replicate (d.cBpt - d.i) g.gap)) ∧ d.i ≤ d.cBpt := by
  unfold gap4Add at added
  split at added
  · cases added
  · rename_i room
    cases added
    exact ⟨rfl, Nat.not_lt.mp room⟩

/-- What `id_add` adds. -/
def idField (g : Gap) (h t s l : Nat) (crcError : Bool) : List Spot :=
  idSpots g h t s l crcError ++ plain (List.replicate (g.len 2) g.gap)

theorem idAdd_ok {h t s l : Nat} {crcError : Bool} (added : idAdd g h t s l crcError d = (false, d')) :
    d' = d.emit (idField g h t s l crcError) ∧ d'.i < d.cBpt := by
  unfold idAdd at added
  split at added
  · cases added
  · obtain ⟨same, room⟩ := gapAdd_ok added
    rw [same, Surface.emit_emit]
    refine ⟨rfl, ?_⟩
    simpa [Nat.add_assoc] using room

/-- What `data_add` adds. -/
def dataField (g : Gap) (ddam crcError : Bool) (bytes : List UInt8) : List Spot :=
  addressMark g (dataMark ddam) ++ dataSpots g ddam crcError bytes ++
    plain (List.replicate (g.len 3) g.gap)

theorem datamarkAdd_ok {ddam : Bool} (added : datamarkAdd g ddam d = (false, d')) :
    d' = d.emit (addressMark g (dataMark ddam)) := by
  unfold datamarkAdd at added
  split at added
  · cases added
  · cases added
    rfl

@[simp] theorem Buffer.file_read (b : Buffer) (n : Nat) : (b.read n).2.file = b.file := rfl

theorem Buffer.index_read (b : Buffer) (n : Nat) : (b.read n).2.index = b.index + min n b.avail := rfl

theorem Buffer.avail_read (b : Buffer) (n : Nat) : (b.read n).2.avail = b.avail - n := by
  unfold avail
  rw [index_read, file_read, avail]
  omega

theorem Buffer.length_ahead (b : Buffer) : b.ahead.length = b.avail :=
  List.length_drop

/-- The bytes of a source, filled up. -/
def Source.field (source : Source) (len : Nat) (autofill : Option UInt8) : List UInt8 :=
  (source.read len).1 ++ List.replicate (len - (source.read len).1.length) (autofill.getD 0)

theorem Source.read_le (source : Source) (len : Nat) : (source.read len).1.length ≤ len := by
  cases source with
  | buffer b =>
    show (b.ahead.take len).length ≤ len
    rw [List.length_take]
    exact Nat.min_le_left _ _
  | data bytes => exact Nat.le_of_eq (length_readStrip 0 len)

@[simp] theorem Source.length_field (source : Source) (len : Nat) (autofill : Option UInt8) :
    (source.field len autofill).length = len := by
  have short := source.read_le len
  simp only [Source.field, List.length_append, List.length_replicate]
  omega

theorem dataAdd_ok {source source' : Source} {len : Nat} {ddam crcError : Bool} {autofill : Option UInt8}
    (added : dataAdd g source len ddam crcError autofill d = (false, d', source')) :
    d' = d.emit (dataField g ddam crcError (source.field len autofill)) ∧ d'.i < d.cBpt ∧
      source' = (source.read len).2 ∧ (autofill = none → (source.read len).1.length = len) := by
  have short := source.read_le len
  unfold dataAdd at added
  rcases result : datamarkAdd g ddam d with ⟨error, d₁⟩
  simp only [result, Int.toNat_natCast] at added
  split at added
  · cases added
  · rename_i marked
    rw [Bool.not_eq_true] at marked
    subst marked
    rw [if_neg (by omega)] at added
    split at added
    · cases added
    · split at added
      · cases added
      · rename_i enough
        rcases gapped : gapAdd g 3 (d₁.emit (dataSpots g ddam crcError (source.field len autofill)))
          with ⟨error, d₂⟩
        have whole : (source.read len).1 ++
            List.replicate (len - (source.read len).1.length) (autofill.getD 0) =
              source.field len autofill := rfl
        rw [whole, gapped] at added
        cases added
        obtain ⟨same, room⟩ := gapAdd_ok gapped
        have mark := datamarkAdd_ok result
        refine ⟨?_, ?_, rfl, fun none => ?_⟩
        · rw [same, mark, Surface.emit_emit, Surface.emit_emit, dataField, List.append_assoc]
        · rw [same]
          rw [mark] at room ⊢
          simpa using room
        · by_contra missing
          exact enough ⟨by omega, none⟩

/-! ## Additions that have room -/

theorem gapAdd_room {gap : Nat} (room : d.i + g.len gap < d.cBpt) :
    gapAdd g gap d = (false, d.emit (plain (List.replicate (g.len gap) g.gap))) :=
  if_neg (Nat.not_le.mpr room)

theorem idAdd_room {h t s l : Nat} {crcError : Bool}
    (room : d.i + (idField g h t s l crcError).length < d.cBpt) :
    idAdd g h t s l crcError d = (false, d.emit (idField g h t s l crcError)) := by
  rw [idField, List.length_append, length_idSpots, length_plain, List.length_replicate] at room
  rw [idAdd, if_neg (by omega), gapAdd_room, Surface.emit_emit, idField]
  rw [Surface.i_emit, length_idSpots, Surface.cBpt_emit]
  omega

theorem dataAdd_room {source : Source} {len : Nat} {ddam crcError : Bool} {autofill : Option UInt8}
    (enough : autofill = none → (source.read len).1.length = len)
    (mark : d.i + g.len 2 + g.syncLen + g.marks.length + 1 < d.cBpt)
    (room : d.i + (dataField g ddam crcError (source.field len autofill)).length < d.cBpt) :
    dataAdd g source len ddam crcError autofill d =
      (false, d.emit (dataField g ddam crcError (source.field len autofill)), (source.read len).2) := by
  rw [dataField, List.length_append, List.length_append, length_addressMark, length_dataSpots,
    Source.length_field, length_plain, List.length_replicate] at room
  have marked : datamarkAdd g ddam d = (false, d.emit (addressMark g (dataMark ddam))) :=
    if_neg (Nat.not_le.mpr mark)
  have filled : ¬ (0 < len - (source.read len).1.length ∧ autofill = none) := by
    rintro ⟨missing, none⟩
    rw [enough none] at missing
    omega
  have gapped : gapAdd g 3 ((d.emit (addressMark g (dataMark ddam))).emit
      (dataSpots g ddam crcError (source.field len autofill))) =
        (false, d.emit (dataField g ddam crcError (source.field len autofill))) := by
    rw [gapAdd_room, Surface.emit_emit, Surface.emit_emit, dataField, List.append_assoc]
    rw [Surface.i_emit, Surface.i_emit, length_addressMark, length_dataSpots, Source.length_field]
    show _ < d.cBpt
    omega
  unfold dataAdd
  simp only [marked, Int.toNat_natCast]
  rw [if_neg (by decide), if_neg (by omega), if_neg, if_neg filled]
  · have whole : (source.read len).1 ++
        List.replicate (len - (source.read len).1.length) (autofill.getD 0) = source.field len autofill := rfl
    rw [whole, gapped]
  · rw [Surface.i_emit, length_addressMark]
    show ¬ d.cBpt ≤ _
    omega

/-! ## Fields without data -/

/-- With a negative length there is no data, and no checksum. -/
theorem dataAdd_empty {source source' : Source} {len : Int} {ddam crcError : Bool}
    {autofill : Option UInt8} (negative : len < 0)
    (added : dataAdd g source len ddam crcError autofill d = (false, d', source')) :
    d' = d.emit (addressMark g (dataMark ddam) ++ plain (List.replicate (g.len 3) g.gap)) := by
  unfold dataAdd at added
  rcases result : datamarkAdd g ddam d with ⟨error, d₁⟩
  simp only [result, negative, if_true] at added
  split at added
  · cases added
  · rename_i marked
    rw [Bool.not_eq_true] at marked
    subst marked
    rcases gapped : gapAdd g 3 d₁ with ⟨error, d₂⟩
    rw [gapped] at added
    cases added
    rw [(gapAdd_ok gapped).1, datamarkAdd_ok result, Surface.emit_emit]

/-- The clock bits of a data field do not depend on its bytes. -/
theorem map_snd_dataField {ddam crcError : Bool} {bytes bytes' : List UInt8}
    (same : bytes.length = bytes'.length) :
    (dataField g ddam crcError bytes).map Prod.snd = (dataField g ddam crcError bytes').map Prod.snd := by
  have bits : ∀ bytes, (plain bytes).map Prod.snd = List.replicate bytes.length false := by
    intro bytes
    simp [plain, Function.comp_def]
  simp only [dataField, dataSpots, List.map_append, bits, List.length_append, same, crcBytes,
    List.length_cons, List.length_nil]

/-- The bytes of a data field: a mark, the data and its checksum, and the gap. -/
theorem map_fst_dataField (g : Gap) (ddam crcError : Bool) (bytes : List UInt8) :
    (dataField g ddam crcError bytes).map Prod.fst =
      (addressMark g (dataMark ddam)).map Prod.fst ++ bytes ++
        (crcBytes (dataCrc g ddam crcError bytes) ++ List.replicate (g.len 3) g.gap) := by
  rw [dataField, List.map_append, List.map_append, dataSpots, map_fst_plain, map_fst_plain]
  simp only [List.append_assoc]

end FuseX.Disk.TrackWriter
