import FuseX.Lib.Runs
import Mathlib.Algebra.Ring.Nat

/-!
# The AM29F010 flash chip

The chip holds 128 KiB in sectors of 16 KiB. It is programmed and erased by writes to magic
addresses; `Flash.write` is the state machine that watches for them.
-/

namespace FuseX.Flash

def sizeOfFlashRom : Nat := 0x20000
def sizeOfFlashPage : Nat := 0x4000

inductive FlashState
  | reset
  | cycle2
  | cycle3
  | cycle4
  | cycle5
  | cycle6
  | program
  | autoselect
  deriving DecidableEq

/-- `flash_am29f010_t`. The chip's contents begin at offset 0. -/
structure Flash where
  flashState : FlashState := .reset
  memory : Nat → UInt8
  modified : Bool := false

/-- The arguments of `flash_am29f010_write`. -/
structure Write where
  page : UInt8
  address : UInt16
  b : UInt8

/-- `flash_offset` -/
def offset (page : UInt8) (address : UInt16) : Nat :=
  page.toNat * sizeOfFlashPage + address.toNat

def Write.offset (w : Write) : Nat := Flash.offset w.page w.address

def chipErase (self : Flash) : Flash :=
  { self with
    memory := fun o => if o < sizeOfFlashRom then 0xff else self.memory o
    modified := true }

/-- The offsets of a sector. -/
def InSector (page : UInt8) (o : Nat) : Prop :=
  page.toNat * sizeOfFlashPage ≤ o ∧ o < page.toNat * sizeOfFlashPage + sizeOfFlashPage

instance (page : UInt8) (o : Nat) : Decidable (InSector page o) :=
  inferInstanceAs (Decidable (_ ∧ _))

def sectorErase (page : UInt8) (self : Flash) : Flash :=
  { self with
    memory := fun o => if InSector page o then 0xff else self.memory o
    modified := true }

def program (w : Write) (self : Flash) : Flash :=
  { self with
    memory := fun o => if o = w.offset then w.b else self.memory o
    modified := true }

/-- `flash_am29f010_read` -/
def Flash.read (self : Flash) (page : UInt8) (address : UInt16) : UInt8 :=
  if self.flashState = .autoselect then
    if address &&& 0xff = 0x00 then 0x01
    else if address &&& 0xff = 0x01 then 0x20
    else if address &&& 0xff = 0x02 then 0x00
    else 0xff
  else self.memory (offset page address)

/-- The write drives `b` to `address`, as far as the chip decodes it. -/
def Write.At (w : Write) (address : UInt16) (b : UInt8) : Prop :=
  w.address &&& 0x7ff = address ∧ w.b = b

instance (w : Write) (address : UInt16) (b : UInt8) : Decidable (w.At address b) :=
  inferInstanceAs (Decidable (_ ∧ _))

/-- The `switch` of `flash_am29f010_write`. -/
def Flash.cycle (self : Flash) (w : Write) : Flash :=
  match self.flashState with
  | .reset => if w.At 0x555 0xaa then { self with flashState := .cycle2 } else self
  | .cycle2 => if w.At 0x2aa 0x55 then { self with flashState := .cycle3 } else self
  | .cycle3 =>
      if w.At 0x555 0xa0 then { self with flashState := .program }
      else if w.At 0x555 0x80 then { self with flashState := .cycle4 }
      else if w.At 0x555 0x90 then { self with flashState := .autoselect }
      else self
  | .cycle4 => if w.At 0x555 0xaa then { self with flashState := .cycle5 } else self
  | .cycle5 => if w.At 0x2aa 0x55 then { self with flashState := .cycle6 } else self
  | .cycle6 =>
      if w.At 0x555 0x10 then { chipErase self with flashState := .reset }
      else if w.b = 0x30 then { sectorErase w.page self with flashState := .reset }
      else self
  | .program => { program w self with flashState := .reset }
  | .autoselect => self

/-- `flash_am29f010_write` -/
def Flash.write (self : Flash) (w : Write) : Flash :=
  let self := self.cycle w
  if w.b = 0xf0 then { self with flashState := .reset } else self

end FuseX.Flash
