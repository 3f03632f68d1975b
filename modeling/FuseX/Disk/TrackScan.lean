import FuseX.Disk.TrackSpots

/-!
# Scanning what was added

`scanFlag` is a scan over a list of spots: the flag it comes out with, unless it
stops in them. A scan of the track comes through spots that it does not stop in
(`markScan_pass`), so it is taken over the gaps, marks and data of a track piece by
piece, and finds an ID and its data where they were added.
-/

namespace FuseX.Disk.TrackWriter

open Lib

variable {g : Gap} {d : Surface} {stop : UInt8 → Bool}

/-! ## Over spots -/

/-- The flag of the scan behind the spots, unless it stops. -/
def scanFlag (stop : UInt8 → Bool) : Bool → List Spot → Option Bool
  | a1mark, [] => some a1mark
  | a1mark, spot :: spots =>
    if spot = (0xa1, true) then scanFlag stop true spots
    else if stop spot.1 ∧ (spot.2 ∨ a1mark) then none
    else scanFlag stop false spots

theorem scanFlag_append {a1mark a1mark' : Bool} {front back : List Spot}
    (passed : scanFlag stop a1mark front = some a1mark') :
    scanFlag stop a1mark (front ++ back) = scanFlag stop a1mark' back := by
  induction front generalizing a1mark with
  | nil =>
    cases passed
    rfl
  | cons spot front ih =>
    rw [scanFlag] at passed
    rw [List.cons_append, scanFlag]
    split at passed
    · rename_i mark
      rw [if_pos mark]
      exact ih passed
    · rename_i other
      rw [if_neg other]
      split at passed
      · cases passed
      · rename_i goes
        rw [if_neg goes]
        exact ih passed

/-- Bytes with all their clock bits do not stop a scan. -/
theorem scanFlag_plain (bytes : List UInt8) : scanFlag stop false (plain bytes) = some false := by
  induction bytes with
  | nil => rfl
  | cons byte bytes ih =>
    have other : ((byte, false) : Spot) ≠ (0xa1, true) := fun same => by cases (Prod.mk.inj same).2
    rw [plain, List.map_cons, scanFlag, if_neg other, if_neg (by simp)]
    exact ih

theorem markScan_pass {a1mark a1mark' : Bool} {spots : List Spot} (holds : Holds d.spot d.i spots)
    (room : d.i + spots.length ≤ d.cBpt) (passed : scanFlag stop a1mark spots = some a1mark') :
    markScan stop d a1mark = markScan stop { d with i := d.i + spots.length } a1mark' := by
  induction spots generalizing d a1mark with
  | nil =>
    cases passed
    rfl
  | cons spot spots ih =>
    obtain ⟨here, behind⟩ := Holds.cons.mp holds
    rw [List.length_cons] at room ⊢
    have inside : d.i < d.cBpt := by omega
    have byte : d.track d.i = spot.1 := congrArg Prod.fst here
    have clock : d.clocks d.i = spot.2 := congrArg Prod.snd here
    have next : ∀ flag, scanFlag stop flag spots = some a1mark' →
        markScan stop { d with i := d.i + 1 } flag =
          markScan stop { d with i := d.i + (spots.length + 1) } a1mark' := by
      intro flag goes
      have moved := ih (d := { d with i := d.i + 1 }) behind (by show d.i + 1 + _ ≤ d.cBpt; omega) goes
      rw [moved, Nat.add_right_comm]
      rfl
    rw [markScan, if_pos inside, here, byte, clock]
    rw [scanFlag] at passed
    split at passed
    · rename_i mark
      rw [if_pos mark]
      exact next true passed
    · rename_i other
      rw [if_neg other]
      split at passed
      · cases passed
      · rename_i goes
        rw [if_neg goes]
        exact next false passed

/-- A scan stops at a mark. -/
theorem markScan_here {a1mark : Bool} {mark : UInt8} {clock : Bool} (inside : d.i < d.cBpt)
    (here : d.spot d.i = (mark, clock)) (stops : stop mark = true) (other : mark ≠ 0xa1)
    (marked : clock = true ∨ a1mark = true) : markScan stop d a1mark = some d := by
  have byte : d.track d.i = mark := congrArg Prod.fst here
  have bit : d.clocks d.i = clock := congrArg Prod.snd here
  rw [markScan, if_pos inside, here, byte, bit, if_neg, if_pos ⟨stops, marked⟩]
  intro same
  exact other (Prod.mk.inj same).1

/-! ## Over address marks -/

/-- The mark byte of MFM is 0xa1: so it is in all of `gaps`. -/
def Gap.Standard (g : Gap) : Prop :=
  g.mark = none ∨ g.mark = some 0xa1

theorem standard_gapOf (gaptype : Fin 10) : (gapOf gaptype).Standard := by
  revert gaptype
  unfold Gap.Standard
  decide

/-- The spots in front of an address mark. -/
def markFront (g : Gap) : List Spot :=
  plain (List.replicate g.syncLen g.sync) ++ g.marks.map fun byte => (byte, true)

theorem addressMark_front (g : Gap) (mark : UInt8) :
    addressMark g mark = markFront g ++ [(mark, g.fm)] := rfl

@[simp] theorem length_markFront (g : Gap) : (markFront g).length = g.syncLen + g.marks.length := by
  simp [markFront]

/-- Behind the marks of MFM the flag is set. -/
theorem scanFlag_front (standard : g.Standard) :
    scanFlag stop false (markFront g) = some (!g.fm) := by
  rw [markFront, scanFlag_append (scanFlag_plain _)]
  rcases standard with fm | mfm
  · simp [Gap.marks, Gap.fm, fm, scanFlag]
  · simp [Gap.marks, Gap.fm, mfm, scanFlag]

/-- Another address mark does not stop a scan. -/
theorem scanFlag_addressMark (standard : g.Standard) {mark : UInt8} (goes : stop mark = false)
    (other : mark ≠ 0xa1) : scanFlag stop false (addressMark g mark) = some false := by
  rw [addressMark_front, scanFlag_append (scanFlag_front standard), scanFlag, if_neg, if_neg]
  · rfl
  · simp [goes]
  · intro same
    exact other (Prod.mk.inj same).1

/-- An address mark stops the scan for it. -/
theorem markScan_addressMark (standard : g.Standard) {mark : UInt8} (stops : stop mark = true)
    (other : mark ≠ 0xa1) (holds : Holds d.spot d.i (addressMark g mark))
    (room : d.i + (addressMark g mark).length ≤ d.cBpt) :
    markScan stop d false = some { d with i := d.i + (g.syncLen + g.marks.length) } := by
  rw [length_addressMark] at room
  rw [addressMark_front, Holds.append, length_markFront] at holds
  obtain ⟨front, last⟩ := holds
  have flag : scanFlag stop false (markFront g) = some (!g.fm) := scanFlag_front standard
  rw [markScan_pass front (by rw [length_markFront]; omega) flag, length_markFront]
  refine markScan_here ?_ (Holds.cons.mp last).1 stops other ?_
  · show d.i + (g.syncLen + g.marks.length) < d.cBpt
    omega
  · cases g.fm
    · exact .inr rfl
    · exact .inl rfl

/-! ## Over sectors -/

/-- What is added for a sector. -/
def sectorSpots (g : Gap) (h t s l : Nat) (bytes : List UInt8) : List Spot :=
  idField g h t s l false ++ dataField g false false bytes

/-- The length of an ID field without the gap. -/
def idLen (g : Gap) : Nat :=
  g.syncLen + g.marks.length + 7

theorem length_idField (g : Gap) (h t s l : Nat) (crcError : Bool) :
    (idField g h t s l crcError).length = idLen g + g.len 2 := by
  simp [idField, idLen]

theorem length_dataField (g : Gap) (ddam crcError : Bool) (bytes : List UInt8) :
    (dataField g ddam crcError bytes).length =
      g.syncLen + g.marks.length + 1 + (bytes.length + 2) + g.len 3 := by
  simp [dataField, Nat.add_assoc]

theorem idRead_pass {spots : List Spot} (holds : Holds d.spot d.i spots)
    (room : d.i + spots.length ≤ d.cBpt) (passed : scanFlag isIdMark false spots = some false) :
    idRead d = idRead { d with i := d.i + spots.length } := by
  rw [idRead, idRead, markScan_pass holds room passed]

/-- An ID field is read as it was added. -/
theorem idRead_idField (standard : g.Standard) {h t s l : Nat} {crcError : Bool}
    (holds : Holds d.spot d.i (idField g h t s l crcError))
    (room : d.i + (idField g h t s l crcError).length ≤ d.cBpt) :
    idRead d = some
      ({ track := (UInt8.ofNat t).toNat
         head := (UInt8.ofNat h).toNat
         sector := (UInt8.ofNat s).toNat
         length := (UInt8.ofNat l).toNat },
       { d with i := d.i + idLen g }) := by
  rw [length_idField, idLen] at room
  obtain ⟨mark, rest⟩ := Holds.append.mp (Holds.append.mp holds).1
  have scanned : markScan isIdMark d false = some { d with i := d.i + (g.syncLen + g.marks.length) } :=
    markScan_addressMark standard rfl (by decide) mark (by rw [length_addressMark]; omega)
  rw [length_addressMark] at rest
  have bytes : Holds d.track (d.i + (g.syncLen + g.marks.length + 1)) _ := rest.map Prod.fst
  rw [map_fst_plain, Holds.append] at bytes
  have byte : ∀ k (inside : k < 4),
      d.track (d.i + (g.syncLen + g.marks.length) + (k + 1)) = (idHeader h t s l)[k] := by
    intro k inside
    have here := bytes.1 k inside
    rw [Nat.add_assoc d.i, Nat.add_assoc _ 1, Nat.add_comm 1 k, ← Nat.add_assoc d.i] at here
    exact here
  rw [idRead, scanned]
  simp only [Option.map_some]
  rw [byte 0 (by decide), byte 1 (by decide), byte 2 (by decide), byte 3 (by decide)]
  rfl

theorem idSeekFrom_eq (s : Nat) : idSeekFrom d s =
    (idRead d).bind fun read => if read.1.sector = s then some read else idSeekFrom read.2 s := by
  rw [idSeekFrom]
  split
  · rename_i none
    rw [none]
    rfl
  · rename_i found
    rw [found]
    rfl

/-- A seek comes through spots without an ID. -/
theorem idSeekFrom_pass {spots : List Spot} (holds : Holds d.spot d.i spots)
    (room : d.i + spots.length ≤ d.cBpt) (passed : scanFlag isIdMark false spots = some false) (s : Nat) :
    idSeekFrom d s = idSeekFrom { d with i := d.i + spots.length } s := by
  rw [idSeekFrom_eq, idSeekFrom_eq, idRead_pass holds room passed]

/-- A seek comes past another sector. -/
theorem idSeekFrom_sector (standard : g.Standard) {h t s l sought : Nat} {bytes : List UInt8}
    (holds : Holds d.spot d.i (sectorSpots g h t s l bytes))
    (room : d.i + (sectorSpots g h t s l bytes).length ≤ d.cBpt)
    (other : (UInt8.ofNat s).toNat ≠ sought) :
    idSeekFrom d sought =
      idSeekFrom { d with i := d.i + (sectorSpots g h t s l bytes).length } sought := by
  have shape : sectorSpots g h t s l bytes = idSpots g h t s l false ++
      (plain (List.replicate (g.len 2) g.gap) ++ dataField g false false bytes) := by
    rw [sectorSpots, idField, List.append_assoc]
  have read := idRead_idField standard (Holds.append.mp holds).1
    (by rw [sectorSpots, List.length_append] at room; omega)
  have passed : scanFlag isIdMark false (plain (List.replicate (g.len 2) g.gap) ++
      dataField g false false bytes) = some false := by
    rw [scanFlag_append (scanFlag_plain _), dataField, List.append_assoc,
      scanFlag_append (scanFlag_addressMark standard rfl (by decide)), dataSpots,
      scanFlag_append (scanFlag_plain _)]
    exact scanFlag_plain _
  rw [shape, Holds.append, length_idSpots, ← idLen] at holds
  rw [shape, List.length_append, length_idSpots, ← idLen] at room ⊢
  have rest := idSeekFrom_pass (d := { d with i := d.i + idLen g }) holds.2
    (by rw [← Nat.add_assoc] at room; exact room) passed sought
  rw [idSeekFrom_eq, read, Option.bind_some, if_neg other, rest, ← Nat.add_assoc d.i]

/-- The data mark of a sector is found behind its ID. -/
theorem datamarkRead_sector (standard : g.Standard) {h t s l : Nat} {bytes : List UInt8}
    (holds : Holds d.spot d.i (sectorSpots g h t s l bytes))
    (room : d.i + (sectorSpots g h t s l bytes).length ≤ d.cBpt) :
    datamarkRead { d with i := d.i + idLen g } =
      some (false, { d with i := d.i + idLen g + g.len 2 + (g.syncLen + g.marks.length + 1) }) := by
  obtain ⟨id, field⟩ := Holds.append.mp holds
  obtain ⟨_, gap⟩ := Holds.append.mp id
  have mark := (Holds.append.mp (Holds.append.mp field).1).1
  rw [length_idSpots, ← idLen] at gap
  rw [length_idField, ← Nat.add_assoc] at mark
  rw [sectorSpots, List.length_append, length_idField, length_dataField] at room
  have scanned : markScan isDataMark { d with i := d.i + idLen g } false =
      some { d with i := d.i + idLen g + g.len 2 + (g.syncLen + g.marks.length) } := by
    rw [markScan_pass (d := { d with i := d.i + idLen g }) gap (by
      rw [length_plain, List.length_replicate]
      show d.i + idLen g + g.len 2 ≤ d.cBpt
      omega) (scanFlag_plain _)]
    rw [length_plain, List.length_replicate]
    exact markScan_addressMark (d := { d with i := d.i + idLen g + g.len 2 }) standard (by decide)
      (by decide) mark (by
        rw [length_addressMark]
        show d.i + idLen g + g.len 2 + _ ≤ d.cBpt
        omega)
  have data : d.track (d.i + idLen g + g.len 2 + (g.syncLen + g.marks.length)) = 0xfb := by
    rw [addressMark_front, Holds.append, length_markFront] at mark
    exact congrArg Prod.fst (Holds.cons.mp mark.2).1
  rw [datamarkRead, scanned]
  simp only [Option.map_some, data]
  rfl

/-! ## Checksums -/

/-- The checksum of the ID field in front of the cursor, and of its checksum bytes. -/
def idCrc (g : Gap) (d : Surface) : UInt16 :=
  (readStrip d.track (d.i - (g.marks.length + 7)) (g.marks.length + 7)).foldl crcFdc 0xffff

/-- The checksum of the data field of `len` bytes the cursor is at the first byte of, and of its
checksum bytes. -/
def dataFieldCrc (g : Gap) (d : Surface) (len : Nat) : UInt16 :=
  (readStrip d.track (d.i - (g.marks.length + 1)) (g.marks.length + 1 + len + 2)).foldl crcFdc 0xffff

theorem map_fst_addressMark (g : Gap) (mark : UInt8) :
    (addressMark g mark).map Prod.fst = List.replicate g.syncLen g.sync ++ (g.marks ++ [mark]) := by
  rw [addressMark, List.map_append, List.map_append, map_fst_plain, List.map_map, List.append_assoc]
  simp [Function.comp_def]

/-- A checksum behind what it is of leaves nothing. -/
theorem crcOf_own (g : Gap) (bytes : List UInt8) :
    (g.marks ++ bytes ++ crcBytes (crcOf g bytes)).foldl crcFdc 0xffff = 0 := by
  rw [List.foldl_append, List.foldl_append]
  exact crcFdc_own (crcOf g bytes)

theorem idCrc_idField {h t s l : Nat} (holds : Holds d.spot d.i (idField g h t s l false)) :
    idCrc g { d with i := d.i + idLen g } = 0 := by
  have bytes : Holds d.track d.i _ := holds.map Prod.fst
  have shape : (idField g h t s l false).map Prod.fst = List.replicate g.syncLen g.sync ++
      (g.marks ++ (0xfe :: idHeader h t s l) ++ crcBytes (crcOf g (0xfe :: idHeader h t s l))) ++
        List.replicate (g.len 2) g.gap := by
    rw [idField, idSpots, List.map_append, List.map_append, map_fst_plain, map_fst_plain,
      map_fst_addressMark]
    simp [crcBytes]
  rw [shape] at bytes
  have read := bytes.part.read
  have size : (g.marks ++ (0xfe :: idHeader h t s l) ++
      crcBytes (crcOf g (0xfe :: idHeader h t s l))).length = g.marks.length + 7 := by
    simp [idHeader, crcBytes]
  have start : d.i + idLen g - (g.marks.length + 7) = d.i + g.syncLen := by
    rw [idLen]
    omega
  rw [size, List.length_replicate] at read
  rw [idCrc]
  show (readStrip d.track (d.i + idLen g - _) _).foldl crcFdc 0xffff = 0
  rw [start, read, crcOf_own]

theorem dataFieldCrc_dataField {bytes : List UInt8} {ddam : Bool}
    (holds : Holds d.spot d.i (dataField g ddam false bytes)) :
    dataFieldCrc g { d with i := d.i + (g.syncLen + g.marks.length + 1) } bytes.length = 0 := by
  have track : Holds d.track d.i _ := holds.map Prod.fst
  have shape : (dataField g ddam false bytes).map Prod.fst = List.replicate g.syncLen g.sync ++
      (g.marks ++ (dataMark ddam :: bytes) ++ crcBytes (crcOf g (dataMark ddam :: bytes))) ++
        List.replicate (g.len 3) g.gap := by
    rw [map_fst_dataField, map_fst_addressMark]
    simp [dataCrc]
  rw [shape] at track
  have read := track.part.read
  have size : (g.marks ++ (dataMark ddam :: bytes) ++
      crcBytes (crcOf g (dataMark ddam :: bytes))).length = g.marks.length + 1 + bytes.length + 2 := by
    simp [crcBytes]
    omega
  have start : d.i + (g.syncLen + g.marks.length + 1) - (g.marks.length + 1) = d.i + g.syncLen := by
    omega
  rw [size, List.length_replicate] at read
  rw [dataFieldCrc]
  show (readStrip d.track (d.i + _ - _) _).foldl crcFdc 0xffff = 0
  rw [start, read, crcOf_own]

end FuseX.Disk.TrackWriter
