import FuseX.Lib.Window
import Mathlib.Algebra.Ring.Nat

/-!
# Disks in memory

A disk is an array of slots of `tlen` bytes, one for each track. A slot has three
bytes for the length and the type of its track, then the track, and behind it
three bitmaps with a bit for each byte of the track: clock marks, FM marks and
weak marks. Where they start follows from the length (`DISK_SET_TRACK_IDX`).

A write outside the slot ends the function with `Stop.outside`.
-/

namespace FuseX.Disk

open Lib

/-! ## Results -/

/-- `disk_error_t`, without `DISK_OK`. -/
inductive DiskError : Type
  | diskImpl
  | diskMem
  | diskGeom
  | diskOpen
  | diskUnsup
  | diskRdonly
  | diskClose
  | diskWrfile
  | diskWrpart
  deriving DecidableEq

/-- How a function ends early. -/
inductive Stop : Type
  | status (error : DiskError)
  /-- a byte outside the memory of the function is written -/
  | outside
  /-- a loop goes on forever -/
  | hang
  deriving DecidableEq

/-! ## Slots -/

/-- `DISK_CLEN`: the bytes of a bitmap. -/
def clen (bpt : Nat) : Nat :=
  bpt / 8 + if bpt % 8 ≠ 0 then 1 else 0

/-- `track[ -3 ]` and what follows. -/
abbrev Slot : Type :=
  List UInt8

namespace Slot

variable (s : Slot)

/-- `c_bpt`: the bytes of the track. -/
def cBpt : Nat :=
  (s.getD 0 0).toNat + 256 * (s.getD 1 0).toNat

/-- `track[ -1 ]`. -/
def ttyp : UInt8 :=
  s.getD 2 0

/-- Where `clocks` is, from `track` on. -/
def clocks : Nat :=
  cBpt s

def fm : Nat :=
  clocks s + clen (cBpt s)

def weak : Nat :=
  fm s + clen (cBpt s)

/-- The bytes from `track + start` on. -/
def read (start n : Nat) : List UInt8 :=
  window s (3 + start) n

/-- A write from `track + start` on. -/
def write (start : Nat) (bytes : List UInt8) : Except Stop Slot :=
  if 3 + start + bytes.length ≤ s.length then .ok (splice s (3 + start) bytes)
  else .error .outside

/-- `memcpy` in the slot, where source and destination differ. -/
def copy (dst src n : Nat) : Except Stop Slot :=
  if dst = src then .ok s else write s dst (read s src n)

/-- A write to `track[ -1 ]`. -/
def setType (ttyp : UInt8) : Slot :=
  s.set 2 ttyp

/-- A write to `track[ -3 ]` and `track[ -2 ]`. -/
def setLen (len : Nat) : Slot :=
  (s.set 0 (UInt8.ofNat len)).set 1 (UInt8.ofNat (len / 256))

end Slot

/-! ## Disks -/

/-- `disk_dens_t`. -/
inductive DiskDens : Type
  | diskDensAuto
  | disk8Sd
  | disk8Dd
  | diskSd
  | diskDd
  | diskDdPlus
  | diskHd
  deriving DecidableEq

/-- `disk_bpt`. -/
def DiskDens.bpt : DiskDens → Nat
  | .diskDensAuto => 6250
  | .disk8Sd => 5208
  | .disk8Dd => 10416
  | .diskSd => 3125
  | .diskDd => 6250
  | .diskDdPlus => 6500
  | .diskHd => 12500

/-- `disk_t`. -/
structure Disk : Type where
  sides : Nat
  cylinders : Nat
  /-- bytes per track -/
  bpt : Nat
  /-- length of a slot -/
  tlen : Nat
  density : DiskDens
  /-- `data`, cut into slots -/
  tracks : List Slot

/-- `GEOM_CHECK`. -/
def geomCheck (sides cylinders : Nat) : Except Stop Unit :=
  if sides < 1 ∨ 2 < sides ∨ cylinders < 1 ∨ 86 < cylinders then .error (.status .diskGeom)
  else .ok ()

/-- `disk_update_tlens`. -/
def diskUpdateTlens (d : Disk) : Disk :=
  { d with tracks := d.tracks.map fun s => if Slot.cBpt s = 0 then Slot.setLen s d.bpt else s }

/-- The choice of the density in `disk_alloc`. -/
def allocDensity (d : Disk) : Except Stop Disk :=
  if d.density ≠ .diskDensAuto then .ok { d with bpt := d.density.bpt }
  else if 12500 < d.bpt then .error (.status .diskUnsup)
  else if 10416 < d.bpt then .ok { d with density := .diskHd, bpt := DiskDens.diskHd.bpt }
  else if 6500 < d.bpt then .ok { d with density := .disk8Dd, bpt := DiskDens.disk8Dd.bpt }
  else if 6250 < d.bpt then .ok { d with density := .diskDdPlus, bpt := DiskDens.diskDdPlus.bpt }
  else if 5208 < d.bpt then .ok { d with density := .diskDd, bpt := DiskDens.diskDd.bpt }
  else if 3125 < d.bpt then .ok { d with density := .disk8Sd, bpt := DiskDens.disk8Sd.bpt }
  else if 0 < d.bpt then .ok { d with density := .diskSd, bpt := DiskDens.diskSd.bpt }
  else .ok d

/-- `disk_alloc`. -/
def diskAlloc (d : Disk) : Except Stop Disk := do
  let d ← allocDensity d
  let d := if 0 < d.bpt then { d with tlen := 4 + d.bpt + 3 * clen d.bpt } else d
  if d.sides * d.cylinders * d.tlen = 0 then .error (.status .diskGeom)
  else
    .ok (diskUpdateTlens { d with
      tracks := List.replicate (d.sides * d.cylinders) (List.replicate d.tlen 0) })

end FuseX.Disk
