import FuseX.Disk.Fdd
import FuseX.Lib.Strip

/-!
# Writing and scanning tracks

The functions of `disk.c` the image loaders format a track with: each adds some
bytes at the cursor of the track and moves the cursor behind them, or reports
that the track is full. And the functions that find a sector again: they scan for
the bytes with missing clock bits.

A track is its data bytes, its clock bits and the cursor; the FM and weak bits are
not touched here.
-/

namespace FuseX.Disk.TrackWriter

open Lib

/-! ## The gaps -/

/-- `disk_gap_t`. -/
structure Gap : Type where
  gap : UInt8
  sync : UInt8
  syncLen : Nat
  /-- the mark byte of MFM, or none for FM -/
  mark : Option UInt8
  lens : List Nat

namespace Gap

/-- `len[ gap ]`. -/
def len (g : Gap) (gap : Nat) : Nat :=
  g.lens.getD gap 0

/-- `mark < 0`. -/
def fm (g : Gap) : Bool :=
  g.mark.isNone

/-- The mark, three times, or nothing. -/
def marks (g : Gap) : List UInt8 :=
  (List.replicate 3 g.mark).filterMap id

end Gap

/-- `gaps`. -/
def gaps : List Gap :=
  [ ⟨0x4e, 0x00, 12, some 0xa1, [ 0, 60, 22, 24]⟩,      -- MGT MFM
    ⟨0x4e, 0x00, 12, some 0xa1, [ 0, 10, 22, 60]⟩,      -- TRD MFM
    ⟨0xff, 0x00,  6, none,      [40, 26, 11, 27]⟩,      -- IBM3740 FM
    ⟨0x4e, 0x00, 12, some 0xa1, [80, 50, 22, 54]⟩,      -- IBM34 MFM
    ⟨0xff, 0x00,  6, none,      [ 0, 16, 11, 10]⟩,      -- MINIMAL FM
    ⟨0x4e, 0x00, 12, some 0xa1, [ 0, 32, 22, 24]⟩,      -- MINIMAL MFM
    ⟨0xff, 0x00,  6, none,      [ 8,  8, 11, 10]⟩,      -- 4k UPD765 FM
    ⟨0x4e, 0x00, 12, some 0xa1, [16, 16, 22, 24]⟩,      -- 8k UPD765 MFM
    ⟨0xff, 0x00,  6, none,      [ 0,  0,  0,  0]⟩,      -- CUSTOM FM
    ⟨0x4e, 0x00, 12, some 0xa1, [ 0,  0,  0,  0]⟩ ]     -- CUSTOM MFM

/-- The gap type is an index of `gaps`. -/
def gapOf (gaptype : Fin 10) : Gap :=
  gaps.get gaptype

def gapMgtPlusd : Fin 10 := 0
def gapTrdos : Fin 10 := 1
def gapMinimalFm : Fin 10 := 4
def gapMinimalMfm : Fin 10 := 5

/-! ## Tracks -/

/-- A byte of a track and its clock bit. -/
abbrev Spot := UInt8 × Bool

/-- The track the cursor of a `disk_t` is on. -/
structure Surface : Type where
  track : Nat → UInt8
  clocks : Nat → Bool
  cBpt : Nat
  i : Nat

namespace Surface

variable (d : Surface)

/-- A byte and its clock bit. -/
def spot (place : Nat) : Spot :=
  (d.track place, d.clocks place)

/-- Bytes are copied to the cursor, which does not move. -/
def copy (bytes : List UInt8) : Surface :=
  { d with track := overwrite d.track d.i bytes }

/-- Bytes are stored at the cursor, clock bits are set where there is one to set, and
the cursor moves behind them. -/
def emit (spots : List Spot) : Surface :=
  { d with
    track := overwrite d.track d.i (spots.map Prod.fst)
    clocks := fun place => d.clocks place || overwrite (fun _ => false) d.i (spots.map Prod.snd) place
    i := d.i + spots.length }

end Surface

/-- Bytes without a missing clock bit. -/
def plain (bytes : List UInt8) : List Spot :=
  bytes.map fun byte => (byte, false)

/-- The synchronisation bytes, the marks and an address mark: in FM the address mark itself
misses the clock bits. -/
def addressMark (g : Gap) (mark : UInt8) : List Spot :=
  plain (List.replicate g.syncLen g.sync) ++ g.marks.map (fun byte => (byte, true)) ++
    [(mark, g.fm)]

/-! ## Adding to a track

The Boolean of a result is the error the source returns. -/

/-- `gap_add`. -/
def gapAdd (g : Gap) (gap : Nat) (d : Surface) : Bool × Surface :=
  if d.cBpt ≤ d.i + g.len gap then (true, d)
  else (false, d.emit (plain (List.replicate (g.len gap) g.gap)))

/-- `preindex_len`. -/
def preindexLen (g : Gap) : Nat :=
  g.len 0 + g.syncLen + g.marks.length + 1

/-- `preindex_add`. -/
def preindexAdd (g : Gap) (d : Surface) : Bool × Surface :=
  if d.cBpt ≤ d.i + preindexLen g then (true, d)
  else
    let added := gapAdd g 0 d
    if added.1 then added else (false, added.2.emit (addressMark g 0xfc))

/-- `postindex_add`. -/
def postindexAdd (g : Gap) (d : Surface) : Bool × Surface :=
  gapAdd g 1 d

/-- `gap4_add`. -/
def gap4Add (g : Gap) (d : Surface) : Bool × Surface :=
  if d.cBpt < d.i then (true, d)
  else (false, d.emit (plain (List.replicate (d.cBpt - d.i) g.gap)))

/-- The checksum of the marks and what follows them. -/
def crcOf (g : Gap) (bytes : List UInt8) : UInt16 :=
  bytes.foldl crcFdc (g.marks.foldl crcFdc 0xffff)

/-- The two bytes of a checksum. -/
def crcBytes (crc : UInt16) : List UInt8 :=
  [(crc >>> 8).toUInt8, (crc &&& 0xff).toUInt8]

/-- The header of a sector. -/
def idHeader (h t s l : Nat) : List UInt8 :=
  [UInt8.ofNat t, UInt8.ofNat h, UInt8.ofNat s, UInt8.ofNat l]

/-- The address mark, the header and its checksum; `crc_error` records a wrong one. -/
def idSpots (g : Gap) (h t s l : Nat) (crcError : Bool) : List Spot :=
  let crc := crcOf g (0xfe :: idHeader h t s l)
  addressMark g 0xfe ++ plain (idHeader h t s l ++
    [(crc >>> 8).toUInt8, if crcError then (~~~crc &&& 0xff).toUInt8 else (crc &&& 0xff).toUInt8])

/-- `id_add`. -/
def idAdd (g : Gap) (h t s l : Nat) (crcError : Bool) (d : Surface) : Bool × Surface :=
  if d.cBpt ≤ d.i + g.syncLen + g.marks.length + 7 then (true, d)
  else gapAdd g 2 (d.emit (idSpots g h t s l crcError))

/-- The data mark, of deleted data or of data. -/
def dataMark (ddam : Bool) : UInt8 :=
  if ddam then 0xf8 else 0xfb

/-- `datamark_add`. -/
def datamarkAdd (g : Gap) (ddam : Bool) (d : Surface) : Bool × Surface :=
  if d.cBpt ≤ d.i + g.len 2 + g.syncLen + g.marks.length + 1 then (true, d)
  else (false, d.emit (addressMark g (dataMark ddam)))

/-! ## The input -/

/-- `buffer_t`: the index stays in the file. -/
structure Buffer : Type where
  file : List UInt8
  index : Nat
  inside : index ≤ file.length

namespace Buffer

variable (buffer : Buffer)

/-- `buffavail`. -/
def avail : Nat :=
  buffer.file.length - buffer.index

/-- The bytes from the index on. -/
def ahead : List UInt8 :=
  buffer.file.drop buffer.index

/-- The index behind `n` more bytes, which are there. -/
def skip (n : Nat) (there : n ≤ buffer.avail) : Buffer :=
  { file := buffer.file
    index := buffer.index + n
    inside := by
      have inside := buffer.inside
      unfold avail at there
      omega }

/-- `buffread` of as many of `n` bytes as there are. -/
def read (n : Nat) : List UInt8 × Buffer :=
  (buffer.ahead.take n, buffer.skip (min n buffer.avail) (Nat.min_le_right _ _))

end Buffer

/-- Where `data_add` takes its bytes from: the buffer, or the bytes of `data`. -/
inductive Source : Type where
  | buffer (buffer : Buffer)
  | data (data : Nat → UInt8)

/-- The index of the buffer. -/
def Source.index : Source → Nat
  | .buffer b => b.index
  | .data _ => 0

/-- As many of `len` bytes as there are, and the source behind them. -/
def Source.read : Source → Nat → List UInt8 × Source
  | .buffer b, len => ((b.read len).1, .buffer (b.read len).2)
  | .data bytes, len => (readStrip bytes 0 len, .data bytes)

/-- The checksum of a data field; `crc_error` messes it up. -/
def dataCrc (g : Gap) (ddam crcError : Bool) (bytes : List UInt8) : UInt16 :=
  let crc := crcOf g (dataMark ddam :: bytes)
  if crcError then crc ^^^ 1 else crc

/-- The data of a sector and its checksum. -/
def dataSpots (g : Gap) (ddam crcError : Bool) (bytes : List UInt8) : List Spot :=
  plain (bytes ++ crcBytes (dataCrc g ddam crcError bytes))

/-- `data_add`: without `autofill` a source that is too short is an error. -/
def dataAdd (g : Gap) (source : Source) (len : Int) (ddam crcError : Bool) (autofill : Option UInt8)
    (d : Surface) : Bool × Surface × Source :=
  let marked := datamarkAdd g ddam d
  if marked.1 then (true, marked.2, source)
  else if len < 0 then ((gapAdd g 3 marked.2).1, (gapAdd g 3 marked.2).2, source)
  else if marked.2.cBpt ≤ marked.2.i + len.toNat + 2 then (true, marked.2, source)
  else
    let (bytes, source) := source.read len.toNat
    let missing := len.toNat - bytes.length
    if 0 < missing ∧ autofill = none then (true, marked.2.copy bytes, source)
    else
      let filled := bytes ++ List.replicate missing (autofill.getD 0)
      let added := gapAdd g 3 (marked.2.emit (dataSpots g ddam crcError filled))
      (added.1, added.2, source)

/-! ## Scanning a track -/

/-- What an ID field says. -/
structure Id : Type where
  head : Nat
  track : Nat
  sector : Nat
  length : Nat

/-- The scan of `id_read` and `datamark_read`: to a byte that misses clock bits or follows an 0xa1
that does, and stops the scan. -/
def markScan (stop : UInt8 → Bool) (d : Surface) (a1mark : Bool) : Option Surface :=
  if d.i < d.cBpt then
    if d.spot d.i = (0xa1, true) then markScan stop { d with i := d.i + 1 } true
    else if stop (d.track d.i) ∧ (d.clocks d.i ∨ a1mark) then some d
    else markScan stop { d with i := d.i + 1 } false
  else none
termination_by d.cBpt - d.i

/-- An ID mark. -/
def isIdMark (byte : UInt8) : Bool :=
  byte = 0xfe

/-- A data mark, or any other mark from 0xf8 to 0xfe. -/
def isDataMark (byte : UInt8) : Bool :=
  0xf8 ≤ byte ∧ byte ≤ 0xfe

/-- `id_read`. -/
def idRead (d : Surface) : Option (Id × Surface) :=
  (markScan isIdMark d false).map fun d =>
    ({ track := (d.track (d.i + 1)).toNat
       head := (d.track (d.i + 2)).toNat
       sector := (d.track (d.i + 3)).toNat
       length := (d.track (d.i + 4)).toNat },
     { d with i := d.i + 7 })

/-- `datamark_read`: whether the data is deleted. -/
def datamarkRead (d : Surface) : Option (Bool × Surface) :=
  (markScan isDataMark d false).map fun d => (d.track d.i = 0xf8, { d with i := d.i + 1 })

theorem markScan_later {stop : UInt8 → Bool} {d d' : Surface} {a1mark : Bool}
    (found : markScan stop d a1mark = some d') :
    d.i < d.cBpt ∧ d.i ≤ d'.i ∧ d'.cBpt = d.cBpt := by
  fun_induction markScan stop d a1mark with
  | case1 d _ inside _ ih =>
    obtain ⟨_, later, same⟩ := ih found
    exact ⟨inside, Nat.le_of_succ_le later, same⟩
  | case2 d _ inside =>
    cases found
    exact ⟨inside, Nat.le_refl _, rfl⟩
  | case3 d _ inside _ _ ih =>
    obtain ⟨_, later, same⟩ := ih found
    exact ⟨inside, Nat.le_of_succ_le later, same⟩
  | case4 => cases found

theorem idRead_later {d d' : Surface} {id : Id} (found : idRead d = some (id, d')) :
    d.i < d.cBpt ∧ d.i < d'.i ∧ d'.cBpt = d.cBpt := by
  obtain ⟨d₁, scanned, same⟩ := Option.map_eq_some_iff.mp found
  obtain ⟨inside, later, track⟩ := markScan_later scanned
  cases same
  exact ⟨inside, Nat.lt_add_right 6 (Nat.lt_succ_of_le later), track⟩

/-- The loop of `id_seek`. -/
def idSeekFrom (d : Surface) (sector : Nat) : Option (Id × Surface) :=
  match _found : idRead d with
  | none => none
  | some (id, d') => if id.sector = sector then some (id, d') else idSeekFrom d' sector
termination_by d.cBpt - d.i
decreasing_by
  obtain ⟨inside, later, same⟩ := idRead_later _found
  omega

/-- `id_seek`: from the start of the track. -/
def idSeek (d : Surface) (sector : Nat) : Option (Id × Surface) :=
  idSeekFrom { d with i := 0 } sector

/-- `data_write_file`: the bytes at the cursor. -/
def dataWriteFile (d : Surface) (seclen : Nat) : List UInt8 :=
  readStrip d.track d.i (0x80 <<< seclen)

/-- The loop of `savetrack`: what it writes, or nothing where it gives up. -/
def savetrackFrom (d : Surface) (seclen : Nat) : Nat → Nat → Option (List UInt8)
  | _, 0 => some []
  | s, sectors + 1 =>
    match idSeek d s with
    | none => none
    | some (_, found) =>
      let written := match datamarkRead found with
        | none => []
        | some (_, marked) => dataWriteFile marked seclen
      (savetrackFrom d seclen (s + 1) sectors).map (written ++ ·)

/-- `savetrack`. -/
def savetrack (d : Surface) (sectorBase sectors seclen : Nat) : Option (List UInt8) :=
  savetrackFrom d seclen sectorBase sectors

end FuseX.Disk.TrackWriter
