import FuseX.Disk.TrackPlaces

/-!
# The boot loader of TR-DOS disks

`open_trd` generates the tracks of an image and, for auto-loading, inserts a BASIC
program that runs the first BASIC file of the disk: it writes the program to the first
free sector, adds an entry to the catalogue and changes the descriptor, each by
writing the data field of a sector again.

A disk is the tracks that `DISK_SET_TRACK_IDX` selects: the last of its own tracks is
followed by whatever is in the memory behind the disk data.
-/

namespace FuseX.Disk.Trdos

open Lib TrackWriter

/-! ## The filing system -/

/-- `trdos_spec_t`. -/
structure Spec : Type where
  firstFreeSector : UInt8
  firstFreeTrack : UInt8
  diskType : UInt8
  fileCount : UInt8
  freeSectors : UInt16
  id : UInt8
  password : List UInt8
  deletedFiles : UInt8
  diskLabel : List UInt8

/-- A word of two bytes, the low one first. -/
def word (low high : UInt8) : UInt16 :=
  UInt16.ofNat (low.toNat + high.toNat * 0x100)

/-- `trdos_read_spec`. -/
def readSpec (src : Nat → UInt8) : Option Spec :=
  if src 0 ≠ 0 then none
  else if src 231 ≠ 16 then none
  else some
    { firstFreeSector := src 225
      firstFreeTrack := src 226
      diskType := src 227
      fileCount := src 228
      freeSectors := word (src 229) (src 230)
      id := src 231
      password := readStrip src 234 9
      deletedFiles := src 244
      diskLabel := readStrip src 245 8 }

/-- `trdos_write_spec`: 256 bytes. -/
def writeSpec (spec : Spec) : Nat → UInt8 :=
  let dest := overwrite (fun _ => 0) 225
    [spec.firstFreeSector, spec.firstFreeTrack, spec.diskType, spec.fileCount,
      (spec.freeSectors &&& 0xff).toUInt8, (spec.freeSectors >>> 8).toUInt8, spec.id]
  overwrite (overwrite (overwrite dest 234 spec.password) 244 [spec.deletedFiles]) 245 spec.diskLabel

/-- `trdos_dirent_t`. -/
structure Dirent : Type where
  filename : List UInt8
  fileExtension : UInt8
  param1 : UInt16
  param2 : UInt16
  fileLength : UInt8
  startSector : UInt8
  startTrack : UInt8

/-- `trdos_read_dirent`; its error is that the first byte is 0. -/
def readDirent (src : Nat → UInt8) : Dirent where
  filename := readStrip src 0 8
  fileExtension := src 8
  param1 := word (src 9) (src 10)
  param2 := word (src 11) (src 12)
  fileLength := src 13
  startSector := src 14
  startTrack := src 15

/-- The bytes of an entry. -/
def Dirent.bytes (entry : Dirent) : List UInt8 :=
  entry.filename ++
    [entry.fileExtension, (entry.param1 &&& 0xff).toUInt8, (entry.param1 >>> 8).toUInt8,
      (entry.param2 &&& 0xff).toUInt8, (entry.param2 >>> 8).toUInt8, entry.fileLength,
      entry.startSector, entry.startTrack]

/-- `trdos_write_dirent`. -/
def writeDirent (dest : Nat → UInt8) (offset : Nat) (entry : Dirent) : Nat → UInt8 :=
  overwrite dest offset entry.bytes

/-- `trdos_boot_info_t`. -/
structure BootInfo : Type where
  haveBootFile : Bool
  basicFilesCount : Nat
  firstBasicFile : List UInt8

/-- "boot    ". -/
def bootName : List UInt8 :=
  [0x62, 0x6f, 0x6f, 0x74, 0x20, 0x20, 0x20, 0x20]

/-- A BASIC file, where `char` is signed or not: its name begins with a `char` that is greater
than 1. -/
def basicFile (signed : Bool) (entry : Dirent) : Bool :=
  let first := entry.filename.headD 0
  1 < first ∧ (signed = true → first < 0x80) ∧ entry.fileExtension = 0x42

/-- The turn of `trdos_read_fat` for an entry. -/
def BootInfo.see (signed : Bool) (info : BootInfo) (entry : Dirent) : BootInfo :=
  if basicFile signed entry then
    { haveBootFile := info.haveBootFile || entry.filename = bootName
      basicFilesCount := info.basicFilesCount + 1
      firstBasicFile := if info.basicFilesCount = 0 then entry.filename else info.firstBasicFile }
  else info

/-- The loops of `trdos_read_fat`, over the entries left: they end at the first empty one. -/
def readFatFrom (signed : Bool) (entries : Nat → Nat → UInt8) : Nat → Nat → BootInfo → BootInfo
  | _, 0, info => info
  | n, left + 1, info =>
    if entries n 0 = 0 then info
    else readFatFrom signed entries (n + 1) left (info.see signed (readDirent (entries n)))

/-- `trdos_read_fat`: the sectors are interleaved. -/
def readFat (signed : Bool) (sectors : Nat → UInt8) (seclen : Nat) : BootInfo :=
  readFatFrom signed (fun n k => sectors (n / 16 * seclen * 2 + n % 16 * 16 + k)) 0 128 ⟨false, 0, []⟩

/-! ## Disks -/

/-- The tracks of a `disk_t`, and the memory behind them. -/
structure DiskT : Type where
  sides : Nat
  cylinders : Nat
  track : Nat → Surface

/-- The number of tracks of the disk. -/
def DiskT.tracks (disk : DiskT) : Nat :=
  disk.sides * disk.cylinders

/-- The style of the gaps. -/
def gapTrd : Gap :=
  gapOf gapTrdos

/-- `slen`. -/
def sectorLen : Nat :=
  calcSectorlen gapTrd 256

/-- `len_pre_dam`. -/
def lenPreDam : Nat :=
  gapTrd.syncLen + gapTrd.marks.length + 7 + gapTrd.len 2

/-- `len_pre_data`. -/
def lenPreData : Nat :=
  lenPreDam + (gapTrd.syncLen + gapTrd.marks.length + 1)

/-- The slot of sector `s`: 1 9 2 10 3 ... -/
def slotOf (s : Nat) : Nat :=
  s % 8 * 2 + s / 8

/-- `data_add` behind the ID in a slot of a track; its error is not looked at. -/
def DiskT.write (disk : DiskT) (t slot : Nat) (head : Nat → UInt8) : DiskT :=
  let d := { disk.track t with i := gapTrd.len 1 + slot * sectorLen + lenPreDam }
  { disk with
    track := Function.update disk.track t (dataAdd gapTrd (.data head) (256 : Nat) false false none d).2.1 }

/-- The parameters behind a BASIC program: line 1. -/
def trailingData : List UInt8 :=
  [0x80, 0xaa, 0x01, 0x00]

/-- The bytes of the file for the next sector, and `n_copied` behind them. -/
def nextChunk (data : List UInt8) (nCopied : Nat) : List UInt8 × Nat :=
  let body := (data.drop nCopied).take 256
  let nCopied := nCopied + body.length
  let trailing :=
    if data.length ≤ nCopied then (trailingData.drop (nCopied - data.length)).take (256 - body.length)
    else []
  (body ++ trailing, nCopied + trailing.length)

/-- The loop that writes the file, over the sectors left: the next free sector, or the error exit
behind the last cylinder. -/
def writeFile (data : List UInt8) : Nat → Nat → Nat → Nat → DiskT → Except DiskT (Nat × Nat × DiskT)
  | 0, _, s, t, disk => .ok (s, t, disk)
  | left + 1, nCopied, s, t, disk =>
    let chunk := nextChunk data nCopied
    let disk := disk.write t (slotOf s) (overwrite (fun _ => 0) 0 chunk.1)
    let s := (s + 1) % 16
    if s = 0 then
      if disk.cylinders ≤ t + 1 then .error disk else writeFile data left chunk.2 s (t + 1) disk
    else writeFile data left chunk.2 s t disk

/-- The entry of the file. -/
def fileEntry (spec : Spec) (size nSec : Nat) : Dirent where
  filename := bootName
  fileExtension := 0x42
  param1 := UInt16.ofNat size
  param2 := UInt16.ofNat size
  fileLength := UInt8.ofNat nSec
  startSector := spec.firstFreeSector
  startTrack := spec.firstFreeTrack

/-- `head` with the catalogue sector. -/
def catalogueSector (disk : DiskT) (fatSector : Nat) : Nat → UInt8 :=
  overwrite (fun _ => 0) 0
    (readStrip (disk.track 0).track (gapTrd.len 1 + slotOf fatSector * sectorLen + lenPreData) 256)

/-- The catalogue and the descriptor after the file has been written. -/
def writeCatalogue (disk : DiskT) (spec : Spec) (size nSec s t : Nat) : DiskT :=
  let fatSector := spec.fileCount.toNat / 16
  let head := writeDirent (catalogueSector disk fatSector) (spec.fileCount.toNat % 16 * 16)
    (fileEntry spec size nSec)
  let spec :=
    { spec with
      fileCount := spec.fileCount + 1
      freeSectors := spec.freeSectors - UInt16.ofNat nSec
      firstFreeSector := UInt8.ofNat s
      firstFreeTrack := UInt8.ofNat t }
  (disk.write 0 (slotOf fatSector) head).write 0 1 (writeSpec spec)

/-- `trdos_insert_basic_file`. -/
def insertBasicFile (disk : DiskT) (spec : Spec) (data : List UInt8) : DiskT :=
  let nSec := (data.length + trailingData.length + 255) / 256
  if 128 ≤ spec.fileCount then disk
  else if spec.freeSectors.toNat < nSec then disk
  else
    match writeFile data nSec 0 spec.firstFreeSector.toNat spec.firstFreeTrack.toNat disk with
    | .error disk => disk
    | .ok (s, t, disk) => writeCatalogue disk spec data.length nSec s t

/-- `beta128_boot_loader` up to the name: 1 RANDOMIZE USR 15619: REM : RUN " -/
def loaderFront : List UInt8 :=
  [0x00, 0x01, 0x1c, 0x00, 0xf9, 0xc0, 0x31, 0x35, 0x36, 0x31, 0x39, 0x0e,
    0x00, 0x00, 0x03, 0x3d, 0x00, 0x3a, 0xea, 0x3a, 0xf7, 0x22]

/-- `beta128_boot_loader` with the name of a file. -/
def beta128BootLoader (name : List UInt8) : List UInt8 :=
  loaderFront ++ name ++ [0x22, 0x0d]

/-- `id_seek` and `datamark_read`: the cursor is at the data. -/
def seekData (d : Surface) (sector : Nat) : Option Surface :=
  (idSeek d sector).bind fun found => (datamarkRead found.2).map Prod.snd

/-- The bytes from the cursor on. -/
def dataAt (d : Surface) : Nat → UInt8 :=
  fun k => d.track (d.i + k)

/-- `trdos_insert_boot_loader`. -/
def insertBootLoader (signed : Bool) (disk : DiskT) : DiskT :=
  match (seekData (disk.track 0) 9).bind fun d => readSpec (dataAt d) with
  | none => disk
  | some spec =>
    if 128 ≤ spec.fileCount then disk
    else if spec.freeSectors = 0 then disk
    else
      match seekData (disk.track 0) 1 with
      | none => disk
      | some d =>
        let info := readFat signed (dataAt d) sectorLen
        if info.haveBootFile then disk
        else if 1 ≤ info.basicFilesCount then
          insertBasicFile disk spec (beta128BootLoader info.firstBasicFile)
        else disk

/-! ## Images -/

/-- The geometry of an image: the sides and the cylinders. -/
structure Geometry : Type where
  sides : Nat
  cylinders : Nat
deriving DecidableEq

/-- The loop for images with more tracks than a standard disk. -/
def moreTracks (sides length i : Nat) : Nat :=
  if i < 83 then if length ≤ sides * i * 16 * 256 then i else moreTracks sides length (i + 1) else i
termination_by 83 - i

/-- What `open_trd` makes of the descriptor and the length of a file. -/
def geometry (file : List UInt8) : Option Geometry :=
  if file.length ≤ 8 * 256 then none
  else if file.length - 8 * 256 < 256 then none
  else
    let diskType := file.getD (8 * 256 + 227) 0
    if file.getD (8 * 256 + 231) 0 ≠ 0x10 ∨ diskType < 0x16 ∨ 0x19 < diskType then none
    else
      let sides := if diskType &&& 0x08 ≠ 0 then 1 else 2
      let cylinders := if diskType &&& 0x01 ≠ 0 then 40 else 80
      some
        { sides
          cylinders :=
            if sides * cylinders * 16 * 256 < file.length then moreTracks sides file.length (cylinders + 1)
            else cylinders }

/-- The call of `trackgen` for a track. -/
def trackParams (sides idx : Nat) : Params :=
  ⟨idx % sides, idx / sides, 1, 16, 256, false, gapTrd, 2, some 0⟩

/-- The loops of `open_trd` over the cylinders and sides, over the tracks left. -/
def generateTracks (sides : Nat) : Nat → Nat → Source → (Nat → Surface) → Option (Nat → Surface)
  | _, 0, _, track => some track
  | idx, left + 1, source, track =>
    let generated := (trackParams sides idx).trackgen newTrack source
    if generated.1 then none
    else generateTracks sides (idx + 1) left generated.2.2 (Function.update track idx generated.2.1)

/-- `open_trd` before the boot loader, with the memory behind the disk data. -/
def loadTrd (file : List UInt8) (memory : Nat → Surface) : Option DiskT :=
  (geometry file).bind fun geometry =>
    (generateTracks geometry.sides 0 (geometry.sides * geometry.cylinders)
        (.buffer ⟨file, 0, Nat.zero_le _⟩) memory).map fun track =>
      { sides := geometry.sides, cylinders := geometry.cylinders, track }

end FuseX.Disk.Trdos
