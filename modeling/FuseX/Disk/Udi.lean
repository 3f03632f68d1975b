import FuseX.Disk.Slot

/-!
# UDI images

`write_udi` packs the bitmaps of each track that its type has behind the data,
compresses what becomes shorter, both in place, writes the file, and turns the
tracks back. `open_udi` scans the file for the longest track, reads the tracks
into slots and turns them back the same way.

The compressor is a parameter with the law that what it makes inflates again.
-/

namespace FuseX.Disk

open Lib

/-- `libspectrum_zlib_compress` and `libspectrum_zlib_inflate`, which may fail. The
latter fills a buffer of the given length. -/
structure Zlib : Type where
  compress : List UInt8 → Option (List UInt8)
  inflate : List UInt8 → Nat → Option (List UInt8)
  length_inflate : ∀ {input olength output}, inflate input olength = some output →
    output.length = olength
  inflate_compress : ∀ {input output}, compress input = some output →
    inflate output input.length = some input

/-! ## The type of a track -/

/-- `~b` of a byte, promoted to an `int`. -/
def complement (b : UInt8) : Int :=
  -(b.toNat : Int) - 1

/-- `update_tracks_mode`, of one track. -/
def updateMode (s : Slot) : Slot :=
  let n := clen s.cBpt
  let mfm := (s.read s.fm n).any fun b => complement b ≠ 0
  let fm := (s.read s.fm n).any fun b => b ≠ 0
  let weak := (s.read s.weak n).any fun b => b ≠ 0
  let s := if mfm ∧ ¬ fm then s.setType 0x00 else s
  let s := if ¬ mfm ∧ fm then s.setType 0x01 else s
  let s := if mfm ∧ fm then s.setType 0x02 else s
  if weak then s.setType (s.ttyp ||| 0x80) else s

/-- `update_tracks_mode`. -/
def updateTracksMode (d : Disk) : Disk :=
  { d with tracks := d.tracks.map updateMode }

/-! ## Packing -/

/-- `UDI_TLEN`. -/
def udiTlen (type : UInt8) (bpt : Nat) : Nat :=
  bpt + clen bpt * (1 + (if type &&& 0x02 ≠ 0 then 1 else 0) + (if type &&& 0x80 ≠ 0 then 1 else 0))

/-- `udi_pack_tracks`, of one track. -/
def udiPack (s : Slot) : Except Stop Slot := do
  let ttyp := s.ttyp
  let n := clen s.cBpt
  let tmp := s.cBpt
  let s ← s.copy tmp s.clocks n
  if ttyp = 0x00 ∨ ttyp = 0x01 then return s
  let tmp := tmp + n
  let s ← if ttyp &&& 0x02 ≠ 0 then s.copy tmp s.fm n else pure s
  let tmp := if ttyp &&& 0x02 ≠ 0 then tmp + n else tmp
  if ttyp &&& 0x80 = 0 then return s
  s.copy tmp s.weak n

/-- `mask` in `udi_unpack_tracks`. -/
def mask (bits : Nat) : UInt8 :=
  [0xff, 0x80, 0xc0, 0xe0, 0xf0, 0xf8, 0xfc, 0xfe].getD bits 0

/-- The FM marks of a track that has none of its own, in `udi_unpack_tracks`. -/
def fmMarks (ttyp : UInt8) (tlen : Nat) : List UInt8 :=
  let marks := List.replicate (clen tlen) (if ttyp &&& 0x01 ≠ 0 then 0xff else 0)
  if tlen % 8 ≠ 0 then
    marks.set (clen tlen - 1) (marks.getD (clen tlen - 1) 0 &&& mask (tlen % 8))
  else marks

/-- `udi_unpack_tracks`, of one track. -/
def udiUnpack (s : Slot) : Except Stop Slot := do
  let ttyp := s.ttyp
  let tlen := s.cBpt
  let n := clen tlen
  let tmp := tlen
  let tmp := if ttyp &&& 0x80 ≠ 0 then tmp + n else tmp
  let tmp := if ttyp &&& 0x02 ≠ 0 then tmp + n else tmp
  let s ←
    if ttyp &&& 0x80 ≠ 0 then s.copy s.weak tmp n
    else s.write s.weak (List.replicate n 0)
  let tmp := if ttyp &&& 0x80 ≠ 0 then tmp - n else tmp
  let s ←
    if ttyp &&& 0x02 ≠ 0 then s.copy s.fm tmp n
    else s.write s.fm (fmMarks ttyp tlen)
  let tmp := if ttyp &&& 0x02 ≠ 0 then tmp - n else tmp
  s.copy s.clocks tmp n

/-! ## Compression -/

/-- `udi_compress_tracks`, of one track. -/
def udiCompress (zlib : Zlib) (s : Slot) : Except Stop Slot :=
  if s.ttyp = 0xf0 then .ok s
  else
    let tlen := udiTlen s.ttyp s.cBpt
    match zlib.compress (s.read 0 tlen) with
    | none => .ok s
    | some data =>
        if data.length < 1 then .ok s
        else if 65535 < data.length ∨ tlen ≤ data.length then .ok s
        else do
          let s ← s.write 0 [s.ttyp, s.getD 0 0, s.getD 1 0]
          let s ← s.write 3 data
          return (s.setType 0xf0).setLen (data.length - 1)

/-- `udi_uncompress_tracks`, of one track. -/
def udiUncompress (zlib : Zlib) (s : Slot) : Except Stop Slot :=
  if s.ttyp ≠ 0xf0 then .ok s
  else
    let n := s.cBpt + 1
    let ttyp := (s.read 0 3).getD 0 0
    let bpt := ((s.read 0 3).getD 1 0).toNat + 256 * ((s.read 0 3).getD 2 0).toNat
    let tlen := udiTlen ttyp bpt
    let s := (s.setType ttyp).setLen bpt
    match zlib.inflate (s.read 3 n) tlen with
    | none => .error (.status .diskUnsup)
    | some data => s.write 0 data

/-! ## Writing -/

/-- A turn of the loop in `crc_udi`. -/
def crcBit (crc : BitVec 32) : BitVec 32 :=
  crc.sshiftRight 1 ^^^ (0xedb88320#32 &&& -(crc &&& 1#32))

/-- `crc_udi`. -/
def crcUdi (crc : BitVec 32) (data : UInt8) : BitVec 32 :=
  let crc := crc ^^^ (BitVec.allOnes 32 ^^^ data.toBitVec.setWidth 32)
  (List.range 8).foldl (fun crc _ => crcBit crc) crc ^^^ BitVec.allOnes 32

/-- Four bytes, the low one first. -/
def bytes4 (n : Nat) : List UInt8 :=
  [UInt8.ofNat n, UInt8.ofNat (n / 2 ^ 8), UInt8.ofNat (n / 2 ^ 16), UInt8.ofNat (n / 2 ^ 24)]

/-- The bytes of a track in the file, behind its three bytes of header. -/
def udiLen (s : Slot) : Nat :=
  if s.ttyp = 0xf0 then 4 + s.cBpt else udiTlen s.ttyp s.cBpt

/-- A track in the file. -/
def udiRecord (s : Slot) : List UInt8 :=
  [s.ttyp, s.getD 0 0, s.getD 1 0] ++ s.read 0 (udiLen s)

/-- The header of the file. -/
def udiHead (d : Disk) (len : Nat) : List UInt8 :=
  [0x55, 0x44, 0x49, 0x21] ++ bytes4 len ++
    [0x00, UInt8.ofNat (d.cylinders - 1), UInt8.ofNat (d.sides - 1), 0, 0, 0, 0, 0]

/-- `write_udi`: the file and the disk in memory. -/
def writeUdi (zlib : Zlib) (d : Disk) : Except Stop (List UInt8 × Disk) := do
  let tracks ← d.tracks.mapM udiPack
  let tracks ← tracks.mapM (udiCompress zlib)
  let len := 16 + (tracks.map fun s => 3 + udiLen s).sum
  let body := udiHead d len ++ tracks.flatMap udiRecord
  let file := body ++ bytes4 (body.foldl crcUdi (BitVec.allOnes 32)).toNat
  let tracks ← tracks.mapM (udiUncompress zlib)
  let tracks ← tracks.mapM udiUnpack
  return (file, { d with tracks })

/-! ## Reading -/

/-- A byte of the file. -/
def byteAt (file : List UInt8) (index : Nat) : Nat :=
  (file.getD index 0).toNat

/-- `buff[ 1 ] + 256 * buff[ 2 ]` and the like. -/
def wordAt (file : List UInt8) (index : Nat) : Nat :=
  byteAt file index + 256 * byteAt file (index + 1)

/-- `buffseek` from the index on. -/
def buffseek (file : List UInt8) (index offset : Nat) : Option Nat :=
  if file.length ≤ index + offset then none else some (index + offset)

/-- What is skipped behind a block of type 0x83. -/
def multipleLen (len : Nat) : Nat :=
  len / 8 * 8 * (len % 8)

/-- The types of blocks. -/
def udiTypes : List Nat :=
  [0x00, 0x01, 0x02, 0x80, 0x81, 0x82, 0x83, 0xf0]

/-- The first loop of `open_udi`: the length of the longest track. -/
def udiScan (file : List UInt8) (eof tracks : Nat) : Nat → Nat → Nat → Nat → Except Stop Nat
  | fuel, i, index, longest =>
      if ¬ (i < tracks ∧ index < eof) then .ok longest
      else match fuel with
      | 0 => .error .hang
      | fuel + 1 =>
          if file.length - index < 3 then .error (.status .diskOpen)
          else if byteAt file index ∉ udiTypes then .error (.status .diskUnsup)
          else if byteAt file index = 0x83 then
            if i = 0 then .error (.status .diskGeom)
            else match buffseek file index (multipleLen (wordAt file (index + 1))) with
            | none => .error (.status .diskOpen)
            | some index => udiScan file eof tracks fuel i index longest
          else if byteAt file index = 0xf0 ∧ file.length - index < 7 then .error (.status .diskOpen)
          else
            let (bpt, tlen) :=
              if byteAt file index = 0xf0 then
                (wordAt file (index + 4), 7 + wordAt file (index + 1))
              else
                (wordAt file (index + 1),
                  3 + udiTlen (file.getD index 0) (wordAt file (index + 1)))
            match buffseek file index tlen with
            | none => .error (.status .diskOpen)
            | some index => udiScan file eof tracks fuel (i + 1) index (max longest bpt)

/-- The second loop of `open_udi`: the tracks are read into their slots. -/
def udiRead (file : List UInt8) (eof bpt : Nat) : Nat → Nat → Nat → List Slot →
    Except Stop (List Slot)
  | fuel, i, index, tracks =>
      if ¬ (i < tracks.length ∧ index < eof) then .ok tracks
      else match fuel with
      | 0 => .error .hang
      | fuel + 1 => do
          let ttyp := file.getD index 0
          let len := wordAt file (index + 1)
          let s ← (tracks.getD i []).write 0 (List.replicate bpt 0x4e)
          let tracks := tracks.set i s
          if ttyp = 0x83 then
            let s := tracks.getD (i - 1) []
            let s ← s.write (s.weak + wordAt file (index + 3)) (List.replicate (len / 8) 0xff)
            let tracks := tracks.set (i - 1) s
            match buffseek file index (multipleLen len) with
            | none => udiRead file eof bpt fuel i index tracks
            | some index => udiRead file eof bpt fuel i index tracks
          else
            let tlen := if ttyp = 0xf0 then len + 4 else udiTlen ttyp len
            let s := (s.setType ttyp).setLen len
            let index := index + 3
            if file.length - index < tlen then
              udiRead file eof bpt fuel (i + 1) index (tracks.set i s)
            else
              let s ← s.write 0 (window file index tlen)
              udiRead file eof bpt fuel (i + 1) (index + tlen) (tracks.set i s)

/-- `open_udi`. -/
def openUdi (zlib : Zlib) (file : List UInt8) : Except Stop Disk := do
  let eof := wordAt file 4 + 2 ^ 16 * wordAt file 6
  if eof ≠ file.length - 4 then .error (.status .diskOpen)
  else if (file.take eof).foldl crcUdi (BitVec.allOnes 32) ≠
      BitVec.ofNat 32 (wordAt file eof + 2 ^ 16 * wordAt file (eof + 2)) then
    .error (.status .diskOpen)
  else
    let sides := byteAt file 10 + 1
    let cylinders := byteAt file 9 + 1
    geomCheck sides cylinders
    let fuel := sides * cylinders + file.length + 1
    let bpt ← udiScan file eof (sides * cylinders) fuel 0 16 0
    if bpt = 0 then .error (.status .diskGeom)
    else
      let d ← diskAlloc
        { sides, cylinders, bpt := 0, tlen := 3 + bpt + 3 * clen bpt
          density := .diskDensAuto, tracks := [] }
      let tracks ← udiRead file eof bpt fuel 0 16 d.tracks
      let tracks ← tracks.mapM (udiUncompress zlib)
      let tracks ← tracks.mapM udiUnpack
      return { d with bpt, tracks }

end FuseX.Disk
