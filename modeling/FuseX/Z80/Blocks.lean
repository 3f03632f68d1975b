import Mathlib.Data.BitVec

/-!
# The block instructions

The eight block instructions and their eight repeating forms, as `z80.pl` writes the code for
them: `LDI`, `CPI`, `INI` and `OUTI`, up through memory or down. A repeating form is its own
piece of code, which takes the program counter back to the instruction as long as there is
something left to do.

The memory is read and written without side effects, ROM is not written to, the ports are read
from a stream, and what is done with them is logged. Contention and the refresh register are left
out.
-/

namespace FuseX.Z80.Blocks

/-! ## The machine -/

/-- What is done with a port. -/
inductive PortAccess : Type
  | read (port : BitVec 16) (value : BitVec 8)
  | write (port : BitVec 16) (value : BitVec 8)
  deriving DecidableEq

structure Registers : Type where
  a : BitVec 8
  f : BitVec 8
  q : BitVec 8
  bc : BitVec 16
  de : BitVec 16
  hl : BitVec 16
  pc : BitVec 16
  memptr : BitVec 16
  deriving DecidableEq

/-- What is outside of the registers. -/
structure World : Type where
  memory : BitVec 16 → BitVec 8
  writable : BitVec 16 → Bool
  /-- What the ports will be read as. -/
  input : Nat → BitVec 8
  ports : List PortAccess

/-- `writebyte`. -/
def World.writebyte (world : World) (address : BitVec 16) (b : BitVec 8) : World :=
  if world.writable address then
    { world with memory := fun other => if other = address then b else world.memory other }
  else world

/-- `readport`. -/
def World.readport (world : World) (port : BitVec 16) : BitVec 8 × World :=
  (world.input 0,
    { world with
      input := fun n => world.input (n + 1)
      ports := world.ports ++ [.read port (world.input 0)] })

/-- `writeport`. -/
def World.writeport (world : World) (port : BitVec 16) (b : BitVec 8) : World :=
  { world with ports := world.ports ++ [.write port b] }

structure Machine : Type extends Registers where
  world : World

/-- `B`. -/
def highByte (w : BitVec 16) : BitVec 8 := w.extractLsb' 8 8

/-- `C` or `L`. -/
def lowByte (w : BitVec 16) : BitVec 8 := w.extractLsb' 0 8

/-- `B--`, in `BC`. -/
def decB (bc : BitVec 16) : BitVec 16 := (highByte bc - 1) ++ lowByte bc

/-- The two forms of an instruction: up through memory, or down. -/
inductive Direction : Type
  | up
  | down
  deriving DecidableEq

/-- `$modifier`. -/
def Direction.modify {w : Nat} : Direction → BitVec w → BitVec w
  | up, x => x + 1
  | down, x => x - 1

/-! ## Flags -/

/-- `halfcarry_sub_table`. -/
def halfcarrySubTable : BitVec 8 → BitVec 8
  | 2 => 0x10
  | 4 => 0x10
  | 6 => 0x10
  | 7 => 0x10
  | _ => 0

/-- The loop of `z80_init_tables` over the bits. -/
def parityOf : Nat → BitVec 8 → BitVec 8
  | 0, _ => 0
  | k + 1, j => (j &&& 1) ^^^ parityOf k (j >>> 1)

/-- `parity_table`. -/
def parityTable (i : BitVec 8) : BitVec 8 :=
  if parityOf 8 i = 0 then 0x04 else 0

/-- `sz53_table`. -/
def sz53Table (i : BitVec 8) : BitVec 8 :=
  if i = 0 then 0x40 else i &&& 0xa8

/-- `F` of `LDI`: of the byte with `A` added to it. -/
def ldiFlags (f bytetemp : BitVec 8) (bc : BitVec 16) : BitVec 8 :=
  (f &&& 0xc1) ||| (if bc ≠ 0 then 0x04 else 0) ||| (bytetemp &&& 0x08) |||
    (if bytetemp &&& 0x02 ≠ 0 then 0x20 else 0)

/-- `F` of `CPI`. -/
def cpiFlags (a f value : BitVec 8) (bc : BitVec 16) : BitVec 8 :=
  let bytetemp := a - value
  let lookup := ((a &&& 0x08) >>> 3) ||| ((value &&& 0x08) >>> 2) ||| ((bytetemp &&& 0x08) >>> 1)
  let f := (f &&& 0x01) ||| (if bc ≠ 0 then 0x04 ||| 0x02 else 0x02) |||
    halfcarrySubTable lookup ||| (if bytetemp ≠ 0 then 0 else 0x40) ||| (bytetemp &&& 0x80)
  let bytetemp := if f &&& 0x10 ≠ 0 then bytetemp - 1 else bytetemp
  f ||| ((bytetemp &&& 0x08) ||| (if bytetemp &&& 0x02 ≠ 0 then 0x20 else 0))

/-- `F` of `INI` and `OUTI`, of the byte, what is added to it, and `B`. -/
def ioFlags (temp temp2 b : BitVec 8) : BitVec 8 :=
  (if temp &&& 0x80 ≠ 0 then 0x02 else 0) ||| (if temp2 < temp then 0x10 ||| 0x01 else 0) |||
    (if parityTable ((temp2 &&& 0x07) ^^^ b) ≠ 0 then 0x04 else 0) ||| sz53Table b

/-! ## The instructions -/

variable (direction : Direction) (m : Machine)

/-- `ldi_ldd`. -/
def ldiLdd : Machine :=
  let bytetemp := m.world.memory m.hl
  let bc := m.bc - 1
  let world := m.world.writebyte m.de bytetemp
  let f := ldiFlags m.f (bytetemp + m.a) bc
  { m with bc, world, de := direction.modify m.de, hl := direction.modify m.hl, f, q := f }

/-- `ldir_lddr`. -/
def ldirLddr : Machine :=
  let bytetemp := m.world.memory m.hl
  let world := m.world.writebyte m.de bytetemp
  let bc := m.bc - 1
  let f := ldiFlags m.f (bytetemp + m.a) bc
  let (pc, memptr) := if bc ≠ 0 then (m.pc - 2, m.pc - 2 + 1) else (m.pc, m.memptr)
  { m with
    bc, world, f, q := f, pc, memptr, hl := direction.modify m.hl, de := direction.modify m.de }

/-- `cpi_cpd`. -/
def cpiCpd : Machine :=
  let value := m.world.memory m.hl
  let bc := m.bc - 1
  let f := cpiFlags m.a m.f value bc
  { m with hl := direction.modify m.hl, bc, f, q := f, memptr := direction.modify m.memptr }

/-- `cpir_cpdr`. -/
def cpirCpdr : Machine :=
  let value := m.world.memory m.hl
  let bc := m.bc - 1
  let f := cpiFlags m.a m.f value bc
  let (pc, memptr) :=
    if f &&& (0x04 ||| 0x40) = 0x04 then (m.pc - 2, m.pc - 2 + 1)
    else (m.pc, direction.modify m.memptr)
  { m with bc, f, q := f, pc, memptr, hl := direction.modify m.hl }

/-- `ini_ind`. -/
def iniInd : Machine :=
  let (initemp, world) := m.world.readport m.bc
  let world := world.writebyte m.hl initemp
  let memptr := direction.modify m.bc
  let bc := decB m.bc
  let initemp2 := direction.modify (initemp + lowByte bc)
  let f := ioFlags initemp initemp2 (highByte bc)
  { m with world, memptr, bc, hl := direction.modify m.hl, f, q := f }

/-- `inir_indr`. -/
def inirIndr : Machine :=
  let (initemp, world) := m.world.readport m.bc
  let world := world.writebyte m.hl initemp
  let memptr := direction.modify m.bc
  let bc := decB m.bc
  let initemp2 := direction.modify (initemp + lowByte bc)
  let f := ioFlags initemp initemp2 (highByte bc)
  let pc := if highByte bc ≠ 0 then m.pc - 2 else m.pc
  { m with world, memptr, bc, f, q := f, pc, hl := direction.modify m.hl }

/-- `outi_outd`. -/
def outiOutd : Machine :=
  let outitemp := m.world.memory m.hl
  let bc := decB m.bc
  let memptr := direction.modify bc
  let world := m.world.writeport bc outitemp
  let hl := direction.modify m.hl
  let outitemp2 := outitemp + lowByte hl
  let f := ioFlags outitemp outitemp2 (highByte bc)
  { m with bc, memptr, world, hl, f, q := f }

/-- `otir_otdr`. -/
def otirOtdr : Machine :=
  let outitemp := m.world.memory m.hl
  let bc := decB m.bc
  let memptr := direction.modify bc
  let world := m.world.writeport bc outitemp
  let hl := direction.modify m.hl
  let outitemp2 := outitemp + lowByte hl
  let f := ioFlags outitemp outitemp2 (highByte bc)
  let pc := if highByte bc ≠ 0 then m.pc - 2 else m.pc
  { m with bc, memptr, world, hl, f, q := f, pc }

/-! ## Running them -/

/-- What is done to a byte. -/
inductive Block : Type
  | ldi
  | cpi
  | ini
  | outi
  deriving DecidableEq

/-- The instruction for one byte. -/
def Block.single : Block → Direction → Machine → Machine
  | ldi => ldiLdd
  | cpi => cpiCpd
  | ini => iniInd
  | outi => outiOutd

/-- The code of the repeating instruction. -/
def Block.repeating : Block → Direction → Machine → Machine
  | ldi => ldirLddr
  | cpi => cpirCpdr
  | ini => inirIndr
  | outi => otirOtdr

/-- The second byte of the repeating instruction, from `opcodes_ed.dat`. -/
def Block.opcode : Block → Direction → BitVec 8
  | ldi, .up => 0xb0
  | cpi, .up => 0xb1
  | ini, .up => 0xb2
  | outi, .up => 0xb3
  | ldi, .down => 0xb8
  | cpi, .down => 0xb9
  | ini, .down => 0xba
  | outi, .down => 0xbb

/-- Where a byte is written. -/
def Block.target : Block → Machine → Option (BitVec 16)
  | ldi, m => some m.de
  | ini, m => some m.hl
  | _, _ => none

/-- The repeating instruction is at the program counter. -/
def Holds (block : Block) (direction : Direction) (m : Machine) : Prop :=
  m.world.memory m.pc = 0xed ∧ m.world.memory (m.pc + 1) = block.opcode direction

instance (block : Block) (direction : Direction) (m : Machine) :
    Decidable (Holds block direction m) :=
  inferInstanceAs (Decidable (_ ∧ _))

/-- The opcode loop at the repeating instruction, which is read anew each time: it repeats if the
program counter is where it was. Without the instruction there the loop does something else. -/
def repeatTurn (block : Block) (direction : Direction) (m : Machine) : Option (Machine × Bool) :=
  if Holds block direction m then
    let after := block.repeating direction { m with pc := m.pc + 2 }
    some (after, decide (after.pc = m.pc))
  else none

/-- The byte that is processed is the last: the counter is used up, or the compare matches. -/
def Last (block : Block) (direction : Direction) (m : Machine) : Prop :=
  match block with
  | .ldi => (block.single direction m).bc = 0
  | .cpi => (block.single direction m).bc = 0 ∨ m.world.memory m.hl = m.a
  | .ini | .outi => highByte (block.single direction m).bc = 0

instance (block : Block) (direction : Direction) (m : Machine) :
    Decidable (Last block direction m) :=
  match block with
  | .ldi => inferInstanceAs (Decidable (_ = _))
  | .cpi => inferInstanceAs (Decidable (_ ∨ _))
  | .ini => inferInstanceAs (Decidable (_ = _))
  | .outi => inferInstanceAs (Decidable (_ = _))

/-- One of the single instructions, until the last byte. -/
def singleTurn (block : Block) (direction : Direction) (m : Machine) : Option (Machine × Bool) :=
  some (block.single direction m, decide (¬ Last block direction m))

end FuseX.Z80.Blocks
