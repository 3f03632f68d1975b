import Mathlib.Data.UInt

/-!
# The tape traps

`tape_save_trap` and `tape_load_trap` do the work of the ROM's tape routines at once:
a block is the flag byte, the bytes and their parity. The loader leaves the registers as the ROM
would, with the carry flag for success.

* `Bus` is the memory the traps work on: `readbyte_internal` and `writebyte_internal`;
* the block is the one that is current when a pending pause has been consumed and metadata
  blocks are passed over; what becomes of the tape behind the load is left out, as are the
  register `R` and the bytes the tape has gone on by.
-/

namespace FuseX.Tape.Trap

/-- The memory of the emulated machine, with the page maps and devices behind it. -/
structure Bus (ω : Type) : Type where
  read : ω → UInt16 → UInt8
  write : ω → UInt16 → UInt8 → ω

/-! ## Registers and flags -/

/-- The registers the traps use; `a_` and `f_` are the alternate ones. -/
structure Registers : Type where
  a : UInt8
  f : UInt8
  b : UInt8
  c : UInt8
  h : UInt8
  l : UInt8
  de : UInt16
  ix : UInt16
  pc : UInt16
  a_ : UInt8
  f_ : UInt8

def flagC : UInt8 := 0x01
def flagN : UInt8 := 0x02
def flagP : UInt8 := 0x04
def flagV : UInt8 := flagP
def flag3 : UInt8 := 0x08
def flagH : UInt8 := 0x10
def flag5 : UInt8 := 0x20
def flagZ : UInt8 := 0x40
def flagS : UInt8 := 0x80

/-- The carry flag of a flags register. -/
def carry (f : UInt8) : Bool := f &&& flagC != 0

/-- `sz53_table` -/
def sz53 (i : UInt8) : UInt8 := (i &&& (flag3 ||| flag5 ||| flagS)) ||| if i = 0 then flagZ else 0

/-- `parity_table` -/
def parity (i : UInt8) : UInt8 :=
  if (List.range 8).foldl (fun odd k => odd ^^ i.toNat.testBit k) false then 0 else flagP

/-- `halfcarry_sub_table` -/
def halfcarrySub : List UInt8 := [0, 0, flagH, 0, flagH, 0, flagH, flagH]

/-- `overflow_sub_table` -/
def overflowSub : List UInt8 := [0, flagV, 0, 0, 0, 0, flagV, 0]

/-- The flags of `CP` -/
def cpFlags (a value : UInt8) : UInt8 :=
  let cptemp := a.toUInt16 - value.toUInt16
  let lookup := ((a &&& 0x88) >>> 3) ||| ((value &&& 0x88) >>> 2)
    ||| ((cptemp.toUInt8 &&& 0x88) >>> 1)
  (if cptemp &&& 0x100 ≠ 0 then flagC else if cptemp ≠ 0 then 0 else flagZ) ||| flagN
    ||| (halfcarrySub[(lookup &&& 0x07).toNat]?).getD 0
    ||| (overflowSub[(lookup >>> 4).toNat]?).getD 0
    ||| (value &&& (flag3 ||| flag5)) ||| (cptemp.toUInt8 &&& flagS)

/-- `CP` with the accumulator -/
def Registers.cp (r : Registers) (value : UInt8) : Registers := { r with f := cpFlags r.a value }

/-- `XOR` with the accumulator -/
def Registers.xor (r : Registers) (value : UInt8) : Registers :=
  let a := r.a ^^^ value
  { r with a, f := sz53 a ||| parity a }

/-- `INC` of `B` -/
def Registers.incB (r : Registers) : Registers :=
  let b := r.b + 1
  { r with
    b
    f := (r.f &&& flagC) ||| (if b = 0x80 then flagV else 0)
      ||| (if b &&& 0x0f ≠ 0 then 0 else flagH) ||| sz53 b }

/-! ## Saving -/

/-- The bytes from an address on, as many as asked for. -/
def readBytes {ω : Type} (bus : Bus ω) (w : ω) (address : UInt16) (count : Nat) : List UInt8 :=
  (List.range count).map fun i => bus.read w (address + UInt16.ofNat i)

/-- The parity of bytes, counted on from another. -/
def parityFrom (start : UInt8) (bytes : List UInt8) : UInt8 := bytes.foldl (· ^^^ ·) start

/-- The block of `tape_save_trap` -/
def tapeSaveTrap {ω : Type} (bus : Bus ω) (w : ω) (r : Registers) : List UInt8 :=
  let bytes := readBytes bus w r.ix r.de.toNat
  r.a :: bytes ++ [parityFrom r.a bytes]

/-! ## Loading -/

section

variable {ω : Type} (bus : Bus ω)

/-- `trap_load_finish` -/
def trapLoadFinish (r : Registers) (parity : UInt8) (processed : Nat) : Registers :=
  { r with
    c := 1
    h := parity
    de := r.de - UInt16.ofNat processed
    ix := r.ix + UInt16.ofNat processed }

/-- `trap_load_fail` -/
def trapLoadFail (r : Registers) (parity : UInt8) (processed : Nat) : Registers :=
  trapLoadFinish { r with f := r.f &&& ~~~flagC } parity processed

/-- Where a loop over the bytes has come to: their parity, their number, and the byte that
differs in memory if one does. -/
structure Progress : Type where
  parity : UInt8
  processed : Nat := 0
  differs : Option UInt8 := none

/-- `trap_verify_bytes` -/
def trapVerifyBytes (w : ω) (ix : UInt16) : List UInt8 → Progress → Progress
  | [], p => p
  | byte :: bytes, p =>
      let parity := p.parity ^^^ byte
      if byte ≠ bus.read w (ix + UInt16.ofNat p.processed) then
        { p with parity, differs := some byte }
      else trapVerifyBytes w ix bytes { p with parity, processed := p.processed + 1 }

/-- `trap_copy_bytes` -/
def trapCopyBytes (ix : UInt16) : List UInt8 → ω → Progress → ω × Progress
  | [], w, p => (w, p)
  | byte :: bytes, w, p =>
      trapCopyBytes ix bytes (bus.write w (ix + UInt16.ofNat p.processed) byte)
        { p with parity := p.parity ^^^ byte, processed := p.processed + 1 }

/-- `trap_check_parity`; the byte behind those that were read is the parity, if there is one. -/
def trapCheckParity (r : Registers) (p : Progress) (next : Option UInt8) : Registers :=
  match if r.de.toNat = p.processed then next else none with
  | some byte =>
      let parity := p.parity ^^^ byte
      trapLoadFinish { { r with a := parity }.cp 1 with b := 0xb0 } parity p.processed
  | none => trapLoadFail { r with b := 255, l := 1 }.incB p.parity p.processed

/-- `tape_trap_load_block` -/
def tapeTrapLoadBlock (block : List UInt8) (r : Registers) (w : ω) : Registers × ω :=
  match block with
  | [] => ({ r with l := 1, f_ := 1, f := r.f &&& ~~~flagC }, w)
  | flag :: data =>
      let read := min data.length r.de.toNat
      let verify := !carry r.f_
      let requestedFlag := r.a_
      let r : Registers := { r with a := 0, l := flag }
      if r.de = 0 then
        -- the zero-length block bug of the ROM
        (trapLoadFinish ({ r with b := 0xb0, a := flag }.cp 1) flag 0, w)
      else
        let r : Registers := { r with a_ := 0x01, f_ := 0x45, a := requestedFlag }.xor flag
        if r.a ≠ 0 then (trapLoadFail r flag 0, w)
        else
          let bytes := data.take read
          let r : Registers := { r with l := bytes.getLast?.getD r.l }
          if verify then
            let p := trapVerifyBytes bus w r.ix bytes { parity := flag }
            match p.differs with
            | some byte => (trapLoadFail { r with l := byte } p.parity p.processed, w)
            | none => (trapCheckParity r p data[read]?, w)
          else
            let (w, p) := trapCopyBytes bus r.ix bytes w { parity := flag }
            (trapCheckParity r p data[read]?, w)

/-- What `libspectrum` says of the tape: the current block, whether it and the next are ROM
blocks, and whether the block is at its pilot. -/
structure Deck : Type where
  block : List UInt8
  rom : Bool
  nextRom : Bool
  pilot : Bool

/-- `block_requires_playback` -/
def blockRequiresPlayback (deck : Deck) (r : Registers) : Bool :=
  if !deck.rom || !deck.pilot then true
  else
    let length := deck.block.length
    decide (r.de.toNat + 2 < length) || decide (length < r.de.toNat + 2) && !deck.nextRom

/-- `set_load_return_pc` -/
def loadReturnPc (timex : Bool) : UInt16 := if timex then 0x0136 else 0x05e2

/-- `tape_load_trap` where the traps are active; `none` when the tape is played. -/
def tapeLoadTrap (timex : Bool) (deck : Deck) (r : Registers) (w : ω) : Option (Registers × ω) :=
  if blockRequiresPlayback deck r then none
  else some (tapeTrapLoadBlock bus deck.block { r with pc := loadReturnPc timex } w)

end

end FuseX.Tape.Trap
