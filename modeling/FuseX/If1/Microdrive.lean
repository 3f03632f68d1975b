import Mathlib.Logic.Function.Basic

/-!
# Microdrives behind the Interface 1

The eight drives of `if1.c`. Each keeps the position of its head on the tape, how many bytes
have gone by since the head was last put at the start of a block, and for each block whether
its preamble has been written.

* a cartridge is libspectrum's: `CartridgeOps` is what the code uses of it, `Lawful` what the
  code relies on;
* the loops over the drives change each drive by itself, so a port's effect is one function on
  a drive; the byte that is read joins what the drives answer;
* of the RS-232 and network lines only what reaches the drives is kept.
-/

namespace FuseX.If1

/-! ## Cartridges -/

/-- `LIBSPECTRUM_MICRODRIVE_HEAD_LEN` -/
def headLen : Nat := 15

/-- `LIBSPECTRUM_MICRODRIVE_DATA_LEN` -/
def dataLen : Nat := 512

/-- `LIBSPECTRUM_MICRODRIVE_BLOCK_LEN` -/
def blockLen : Nat := headLen + headLen + dataLen + 1

/-- `LIBSPECTRUM_MICRODRIVE_BLOCK_MAX` -/
def blockMax : Nat := 254

/-- The `libspectrum_microdrive` functions on a cartridge `κ`; the flag of `mdrRead` is that the
image was read. -/
structure CartridgeOps (κ : Type) : Type where
  alloc : κ
  data : κ → Nat → UInt8
  setData : κ → Nat → UInt8 → κ
  cartridgeLen : κ → UInt8
  setCartridgeLen : κ → UInt8 → κ
  writeProtect : κ → Bool
  setWriteProtect : κ → Bool → κ
  mdrRead : κ → List UInt8 → Bool × κ

/-- The end of the tape. -/
def CartridgeOps.tapeEnd {κ : Type} (ops : CartridgeOps κ) (c : κ) : Nat :=
  (ops.cartridgeLen c).toNat * blockLen

/-- A byte is kept where it is put, apart from the rest of the cartridge. Of what a byte put on
a write-protected cartridge does nothing is said. -/
structure CartridgeOps.Lawful {κ : Type} (ops : CartridgeOps κ) : Prop where
  len_setData : ∀ c i v, ops.cartridgeLen (ops.setData c i v) = ops.cartridgeLen c
  writeProtect_setData : ∀ c i v, ops.writeProtect (ops.setData c i v) = ops.writeProtect c
  data_setData : ∀ c i v j, ops.writeProtect c = false → i < blockMax * blockLen →
    ops.data (ops.setData c i v) j = if j = i then v else ops.data c j
  len_setCartridgeLen : ∀ c len, ops.cartridgeLen (ops.setCartridgeLen c len) = len
  len_setWriteProtect : ∀ c wrprot,
    ops.cartridgeLen (ops.setWriteProtect c wrprot) = ops.cartridgeLen c
  data_setWriteProtect : ∀ c wrprot j, ops.data (ops.setWriteProtect c wrprot) j = ops.data c j
  len_mdrRead : ∀ c image, (ops.mdrRead c image).1 = true →
    0 < (ops.cartridgeLen (ops.mdrRead c image).2).toNat
      ∧ (ops.cartridgeLen (ops.mdrRead c image).2).toNat ≤ blockMax

/-! ## Drives -/

def syncNo : UInt8 := 0

def syncOk : UInt8 := 0xff

/-- `microdrive_t` -/
structure Drive (κ : Type) : Type where
  inserted : Bool := false
  modified : Bool := false
  motorOn : Bool := false
  headPos : Nat := 0
  transfered : Nat := 0
  maxBytes : Nat := 0
  pream : Nat → UInt8 := fun _ => 0
  last : UInt8 := 0
  gap : UInt8 := 0
  sync : UInt8 := 0
  cartridge : κ

section

variable {κ : Type} (ops : CartridgeOps κ)

/-- The drives a port's loop looks at. -/
def Drive.spins (d : Drive κ) : Bool := d.motorOn && d.inserted

/-- The index of the preamble: those of the header blocks come before those of the data. -/
def Drive.block (d : Drive κ) : Nat :=
  d.headPos / 543 + if d.maxBytes = 15 then 0 else 256

/-- `increment_head`, for a tape of that length -/
def nextHead (tapeEnd head : Nat) : Nat := if tapeEnd ≤ head + 1 then 0 else head + 1

def Drive.incrementHead (d : Drive κ) : Drive κ :=
  { d with headPos := nextHead (ops.tapeEnd d.cartridge) d.headPos }

/-- The start of a header or of a data block. -/
def Aligned (head : Nat) : Prop := head % blockLen = 0 ∨ head % blockLen = headLen

instance (head : Nat) : Decidable (Aligned head) := inferInstanceAs (Decidable (_ ∨ _))

/-- The loop of `microdrives_restart` -/
def blockStart (tapeEnd head : Nat) : Nat :=
  if Aligned head then head else blockStart tapeEnd (nextHead tapeEnd head)
termination_by (blockLen - head % blockLen) % blockLen
decreasing_by
  next off =>
    rw [Aligned, not_or] at off
    simp only [blockLen, headLen, dataLen, nextHead] at off ⊢
    split <;> omega

/-- What `microdrives_restart` does to a drive. -/
def Drive.restart (d : Drive κ) : Drive κ :=
  let head := blockStart (ops.tapeEnd d.cartridge) d.headPos
  { d with
    headPos := head
    transfered := 0
    maxBytes := if head % blockLen = 0 then headLen else headLen + dataLen + 1 }

/-! ## What a port does to a drive -/

def Drive.mdrIn (d : Drive κ) : Drive κ × UInt8 :=
  if d.spins then
    let d :=
      if d.transfered < d.maxBytes then
        { d with last := ops.data d.cartridge d.headPos }.incrementHead ops
      else d
    ({ d with transfered := d.transfered + 1 }, d.last)
  else (d, 0xff)

/-- The preambles after a byte has been written. -/
def Drive.preamOut (d : Drive κ) (val : UInt8) : Nat → UInt8 :=
  if d.transfered = 0 ∧ val = 0 then Function.update d.pream d.block 1
  else if 0 < d.transfered ∧ d.transfered < 10 ∧ val = 0 then
    Function.update d.pream d.block (d.pream d.block + 1)
  else if 9 < d.transfered ∧ d.transfered < 12 ∧ val = 0xff then
    Function.update d.pream d.block (d.pream d.block + 1)
  else if d.transfered = 12 ∧ d.pream d.block = 12 then Function.update d.pream d.block syncOk
  else d.pream

/-- The bytes behind the preamble go on the tape, as many as the block has. -/
def Drive.puts (d : Drive κ) : Bool :=
  d.spins && decide (11 < d.transfered) && decide (d.transfered < d.maxBytes + 12)

def Drive.mdrOut (d : Drive κ) (val : UInt8) : Drive κ :=
  if d.spins then
    let pream := d.preamOut val
    let d' :=
      if d.puts then
        { d with
          pream
          cartridge := ops.setData d.cartridge d.headPos val
          modified := true }.incrementHead ops
      else { d with pream }
    { d' with transfered := d.transfered + 1 }
  else d

/-- `GAP`, `SYNC` and `WPR` of a drive. -/
def Drive.ctrIn (d : Drive κ) : Drive κ × UInt8 :=
  if d.spins then
    let formatted : Drive κ × UInt8 :=
      if d.pream d.block = syncOk then
        if d.gap ≠ 0 then ({ d with gap := d.gap - 1 }, 0xff)
        else if d.sync ≠ 0 then ({ d with sync := d.sync - 1 }, 0xf9)
        else ({ d with gap := 15, sync := 15 }, 0xf9)
      else (d, 0xff)
    (formatted.1,
      if ops.writeProtect d.cartridge then formatted.2 &&& 0xfe else formatted.2)
  else (d, 0xff)

/-! ## Changing cartridges -/

/-- `RAND_MAX` -/
def randMax : Nat := 2147483647

abbrev Rand : Type := { n : Nat // n ≤ randMax }

/-- `rnd_factor` -/
def rndFactor : Nat := randMax / 4 * 4 / 19 + 1

/-- The length of a new cartridge, from the settings or from `rand`. -/
inductive NewLen : Type
  | random (a b c d : Rand)
  | setting (mdrLen : Int)

def NewLen.len : NewLen → UInt8
  | .random a b c d =>
      UInt8.ofNat (171 + (a.val / 4 + b.val / 4 + c.val / 4 + d.val / 4) / rndFactor)
  | .setting mdrLen =>
      UInt8.ofNat (if mdrLen < 10 then 10 else if (blockMax : Int) < mdrLen then blockMax
        else mdrLen.toNat)

/-- The loops over the blocks of `if1_mdr_new` and `if1_mdr_insert_internal`. -/
def fillPream (pream : Nat → UInt8) (len : UInt8) (mark : UInt8) : Nat → UInt8 := fun i =>
  if i < len.toNat ∨ 256 ≤ i ∧ i < 256 + len.toNat then mark else pream i

/-- `if1_mdr_new` -/
def Drive.mdrNew (d : Drive κ) (new : NewLen) : Drive κ :=
  let blank := (List.range (new.len.toNat * blockLen)).foldl (fun c i => ops.setData c i 0xff)
    (ops.setCartridgeLen d.cartridge new.len)
  { d with
    cartridge := ops.setWriteProtect blank false
    pream := fillPream d.pream (ops.cartridgeLen blank) syncNo
    inserted := true
    modified := true }

/-- What the user says to saving a cartridge that was changed, and whether it could be saved. -/
inductive Confirm : Type
  | save (written : Bool)
  | dontSave
  | cancel

/-- `if1_mdr_eject`; the flag is that the cartridge stays. -/
def Drive.eject (d : Drive κ) (confirm : Confirm) : Drive κ × Bool :=
  if d.inserted then
    if d.modified then
      match confirm with
      | .save true => ({ d with modified := false, inserted := false }, false)
      | .save false => (d, true)
      | .dontSave => ({ d with inserted := false }, false)
      | .cancel => (d, true)
    else ({ d with inserted := false }, false)
  else (d, false)

/-- What is inserted: a new cartridge, or an image, if the file can be read. -/
inductive Source : Type
  | blank (new : NewLen)
  | image (contents : List UInt8)
  | unreadable

/-- `if1_mdr_insert_internal` with the drive found -/
def Drive.insert (d : Drive κ) (source : Source) (confirm : Confirm) : Drive κ :=
  let (d, stays) := d.eject confirm
  if stays then d
  else
    match source with
    | .blank new => d.mdrNew ops new
    | .image contents =>
        let (read, cartridge) := ops.mdrRead d.cartridge contents
        if read then
          { d with
            cartridge
            inserted := true
            modified := false
            pream := fillPream d.pream (ops.cartridgeLen cartridge) syncOk }
        else { d with cartridge }
    | .unreadable => d

/-! ## The eight drives -/

structure State (κ : Type) : Type where
  drives : Fin 8 → Drive κ
  commsClk : Bool := false

def State.restart (s : State κ) : State κ := { s with drives := fun m => (s.drives m).restart ops }

/-- What the drives answer, joined. -/
def joined (answer : Fin 8 → UInt8) : UInt8 :=
  (List.finRange 8).foldl (fun ret m => ret &&& answer m) 0xff

def portMdrIn (s : State κ) : State κ × UInt8 :=
  ({ s with drives := fun m => ((s.drives m).mdrIn ops).1 },
    joined fun m => ((s.drives m).mdrIn ops).2)

def portMdrOut (s : State κ) (val : UInt8) : State κ :=
  { s with drives := fun m => (s.drives m).mdrOut ops val }

/-- `port_ctr_in`, with the lines `dtr` and `busy` -/
def portCtrIn (s : State κ) (dtr busy : Bool) : State κ × UInt8 :=
  let ret := joined fun m => ((s.drives m).ctrIn ops).2
  let ret := if dtr then ret else ret &&& 0xf7
  let ret := if busy then ret else ret &&& 0xef
  (State.restart ops { s with drives := fun m => ((s.drives m).ctrIn ops).1 }, ret)

/-- The motors after a clock edge: each takes over that of the drive before it. -/
def shifted (s : State κ) (val : UInt8) (m : Fin 8) : Bool :=
  if m = 0 then val &&& 0x01 = 0 else (s.drives (m - 1)).motorOn

/-- `port_ctr_out` -/
def portCtrOut (s : State κ) (val : UInt8) : State κ :=
  let drives :=
    if val &&& 0x02 = 0 ∧ s.commsClk = true then
      fun m => { s.drives m with motorOn := shifted s val m }
    else s.drives
  State.restart ops { drives, commsClk := val &&& 0x02 ≠ 0 }

/-- `microdrives_reset`, with the clock line of `if1_reset` -/
def microdrivesReset (s : State κ) : State κ :=
  { drives := fun m =>
      { s.drives m with headPos := 0, motorOn := false, gap := 15, sync := 15, transfered := 0 }
    commsClk := false }

/-- The drive an insert is for: the first empty one unless it is named. -/
def insertDrive (s : State κ) : Option Nat → Option (Fin 8)
  | none => (List.finRange 8).find? fun m => !(s.drives m).inserted
  | some which => if named : which < 8 then some ⟨which, named⟩ else none

def State.setDrive (s : State κ) (m : Fin 8) (d : Drive κ) : State κ :=
  { s with drives := Function.update s.drives m d }

inductive Action : Type
  | mdrIn
  | mdrOut (val : UInt8)
  | ctrIn (dtr busy : Bool)
  | ctrOut (val : UInt8)
  | netIn
  | netOut (plugged : Bool)
  | insert (which : Option Nat) (source : Source) (confirm : Confirm)
  | eject (which : Nat) (confirm : Confirm)
  | writeProtect (drive : Fin 8) (wrprot : Bool)
  | reset

def step (s : State κ) : Action → State κ
  | .mdrIn => (portMdrIn ops s).1
  | .mdrOut val => portMdrOut ops s val
  | .ctrIn dtr busy => (portCtrIn ops s dtr busy).1
  | .ctrOut val => portCtrOut ops s val
  | .netIn => s.restart ops
  | .netOut plugged => if plugged then s.restart ops else s
  | .insert which source confirm =>
      match insertDrive s which with
      | none => s
      | some m => s.setDrive m ((s.drives m).insert ops source confirm)
  | .eject which confirm =>
      if named : which < 8 then
        s.setDrive ⟨which, named⟩ ((s.drives ⟨which, named⟩).eject confirm).1
      else s
  | .writeProtect drive wrprot =>
      let d := s.drives drive
      s.setDrive drive
        { d with cartridge := ops.setWriteProtect d.cartridge wrprot, modified := true }
  | .reset => microdrivesReset s

/-- `if1_init` -/
def init : State κ := { drives := fun _ => { cartridge := ops.alloc } }

def run (s : State κ) (actions : List Action) : State κ := actions.foldl (step ops) s

end

end FuseX.If1
