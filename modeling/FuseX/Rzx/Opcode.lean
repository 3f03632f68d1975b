import Mathlib.Algebra.Ring.Nat

/-!
# R as an instruction counter

The emulated R register has 16 bits: its low seven are those of the Z80's refresh
register, and together with `rzx_instructions_offset` it counts opcode fetches for a
recording. Every fetch of an opcode byte bumps it, and where the code takes a byte back or
loads R it makes up for it.

`endOpcode` is the code behind the label `end_opcode` of `z80_do_opcodes`, with the code
that `z80.pl` generates for the prefixes. `m1Cycles` counts the M1 cycles of an instruction
by the rules for its prefixes alone, and `endOpcode_counts` says that the two agree.
-/

namespace FuseX.Rzx

/-! ## The registers -/

/-- What a program can reach besides R. -/
structure Program where
  a : UInt8
  pc : UInt16
  memory : UInt16 → UInt8
  iff1 : Bool := false
  halted : Bool := false
  /-- -1 for never -/
  interruptsEnabledAt : Int := -1

structure Cpu extends Program where
  r : UInt16
  r7 : UInt8
  rzxInstructionsOffset : Int

/-! ## Opcodes -/

/-- The bytes of `opcodes_ddfd.dat`. -/
def ddfdOpcodes : List UInt8 :=
  [0x09, 0x19, 0x21, 0x22, 0x23, 0x24, 0x25, 0x26, 0x29, 0x2a, 0x2b, 0x2c, 0x2d, 0x2e, 0x34,
    0x35, 0x36, 0x39, 0x44, 0x45, 0x46, 0x4c, 0x4d, 0x4e, 0x54, 0x55, 0x56, 0x5c, 0x5d, 0x5e,
    0x60, 0x61, 0x62, 0x63, 0x64, 0x65, 0x66, 0x67, 0x68, 0x69, 0x6a, 0x6b, 0x6c, 0x6d, 0x6e,
    0x6f, 0x70, 0x71, 0x72, 0x73, 0x74, 0x75, 0x77, 0x7c, 0x7d, 0x7e, 0x84, 0x85, 0x86, 0x8c,
    0x8d, 0x8e, 0x94, 0x95, 0x96, 0x9c, 0x9d, 0x9e, 0xa4, 0xa5, 0xa6, 0xac, 0xad, 0xae, 0xb4,
    0xb5, 0xb6, 0xbc, 0xbd, 0xbe, 0xcb, 0xe1, 0xe3, 0xe5, 0xe9, 0xf9]

/-- The byte behind a prefix. -/
def shift (m : Cpu) : UInt8 × Cpu :=
  (m.memory m.pc, { m with pc := m.pc + 1, r := m.r + 1 })

/-- The opcodes behind ED. All but two do not know of R; what they do leaves `after`. -/
def edxx (after : Program) (opcode2 : UInt8) (m : Cpu) : Cpu :=
  if opcode2 = 0x4f then
    -- LD R,A
    { m with
      rzxInstructionsOffset := m.rzxInstructionsOffset + (m.r.toNat - m.a.toNat)
      r := m.a.toUInt16
      r7 := m.a }
  else if opcode2 = 0x5f then
    -- LD A,R
    { m with a := (m.r &&& 0x7f).toUInt8 ||| (m.r7 &&& 0x80) }
  else { m with toProgram := after }

/-- From the label `end_opcode` on. A prefix that changes nothing for the next opcode goes
back to the label. -/
def endOpcode (after : Program) : Nat → UInt8 → Cpu → Option Cpu
  | 0, _, _ => none
  | fuel + 1, opcode, m =>
      let m := { m with pc := m.pc + 1, r := m.r + 1 }
      if opcode = 0xcb then some { (shift m).2 with toProgram := after }
      else if opcode = 0xed then
        let (opcode2, m) := shift m
        some (edxx after opcode2 m)
      else if opcode = 0xdd ∨ opcode = 0xfd then
        let (opcode2, m) := shift m
        -- the displacement and the opcode behind DDCB are no opcode fetches
        if opcode2 ∈ ddfdOpcodes then some { m with toProgram := after }
        else endOpcode after fuel opcode2 { m with pc := m.pc - 1, r := m.r - 1 }
      else some { m with toProgram := after }

/-! ## M1 cycles -/

/-- The M1 cycles of an instruction that begins with `opcode`, and whether it is LD R,A.
A prefix is a fetch, and so is each opcode, but behind DDCB and FDCB the bytes are read. -/
def m1Cycles (memory : UInt16 → UInt8) : Nat → UInt8 → UInt16 → Option (Nat × Bool)
  | 0, _, _ => none
  | fuel + 1, opcode, pc =>
      if opcode = 0xcb then some (2, false)
      else if opcode = 0xed then some (2, memory pc = 0x4f)
      else if opcode = 0xdd ∨ opcode = 0xfd then
        if memory pc = 0xcb then some (2, false)
        else (m1Cycles memory fuel (memory pc) (pc + 1)).map fun rest => (rest.1 + 1, rest.2)
      else some (1, false)

/-- What an instruction does to the counter: its fetches are counted, and LD R,A keeps the
count. -/
structure Counts (m m' : Cpu) (fetches : Nat) (loads : Bool) : Prop where
  counted : loads = false → m'.r = m.r + UInt16.ofNat fetches ∧
    m'.rzxInstructionsOffset = m.rzxInstructionsOffset
  loaded : loads = true → m'.r = m.a.toUInt16 ∧
    m'.rzxInstructionsOffset =
      m.rzxInstructionsOffset + ((m.r + UInt16.ofNat fetches).toNat - m.a.toNat)

theorem Counts.taken_back {m m' : Cpu} {fetches : Nat} {loads : Bool}
    (counts : Counts { m with pc := m.pc + 1, r := m.r + 1 } m' fetches loads) :
    Counts m m' (fetches + 1) loads := by
  have more : m.r + 1 + UInt16.ofNat fetches = m.r + UInt16.ofNat (fetches + 1) := by
    rw [UInt16.ofNat_add, UInt16.add_assoc, UInt16.add_comm 1]
    rfl
  constructor
  · intro counted
    obtain ⟨r, offset⟩ := counts.counted counted
    exact ⟨r.trans more, offset⟩
  · intro loaded
    obtain ⟨r, offset⟩ := counts.loaded loaded
    refine ⟨r, offset.trans ?_⟩
    rw [← more]

/-- Two fetches. -/
theorem add_two (r : UInt16) : r + 1 + 1 = r + UInt16.ofNat 2 := by
  rw [UInt16.add_assoc]
  rfl

theorem unshifted {opcode2 : UInt8} (indexed : opcode2 ∈ ddfdOpcodes) :
    opcode2 ≠ 0xed ∧ ¬ (opcode2 = 0xdd ∨ opcode2 = 0xfd) := by
  have all : ddfdOpcodes.all (fun b => b ≠ 0xed ∧ ¬ (b = 0xdd ∨ b = 0xfd)) = true := by decide
  simpa using List.all_eq_true.mp all opcode2 indexed

theorem bits_indexed : (0xcb : UInt8) ∈ ddfdOpcodes := by decide

theorem m1Cycles_one {memory : UInt16 → UInt8} {fuel : Nat} {opcode : UInt8} {pc : UInt16}
    (no_bits : opcode ≠ 0xcb) (no_block : opcode ≠ 0xed)
    (not_prefixed : ¬ (opcode = 0xdd ∨ opcode = 0xfd)) :
    m1Cycles memory (fuel + 1) opcode pc = some (1, false) := by
  rw [m1Cycles, if_neg no_bits, if_neg no_block, if_neg not_prefixed]

/-- The code behind `end_opcode` bumps R for each M1 cycle, and corrects the offset where
R is loaded. -/
theorem endOpcode_counts {after : Program} {fuel : Nat} {opcode : UInt8} {m m' : Cpu}
    (run : endOpcode after fuel opcode m = some m') :
    ∃ fetches loads,
      m1Cycles m.memory (fuel + 1) opcode (m.pc + 1) = some (fetches, loads) ∧
        Counts m m' fetches loads := by
  induction fuel generalizing opcode m with
  | zero => cases run
  | succ fuel ih =>
    rw [endOpcode] at run
    by_cases bits : opcode = 0xcb
    · rw [if_pos bits] at run
      obtain rfl := Option.some.inj run
      exact ⟨2, false, by rw [m1Cycles, if_pos bits], fun _ => ⟨add_two m.r, rfl⟩, nofun⟩
    rw [if_neg bits] at run
    by_cases block : opcode = 0xed
    · rw [if_pos block] at run
      obtain rfl := Option.some.inj run
      refine ⟨2, m.memory (m.pc + 1) = 0x4f, by rw [m1Cycles, if_neg bits, if_pos block], ?_, ?_⟩
      · intro counted
        have no_load : ¬ m.memory (m.pc + 1) = 0x4f := of_decide_eq_false counted
        dsimp only [shift]
        rw [edxx, if_neg no_load]
        split <;> exact ⟨add_two m.r, rfl⟩
      · intro loaded
        have load : m.memory (m.pc + 1) = 0x4f := of_decide_eq_true loaded
        dsimp only [shift]
        rw [edxx, if_pos load]
        refine ⟨rfl, ?_⟩
        rw [← add_two]
    rw [if_neg block] at run
    by_cases index : opcode = 0xdd ∨ opcode = 0xfd
    · rw [if_pos index] at run
      dsimp only [shift] at run
      by_cases indexed : m.memory (m.pc + 1) ∈ ddfdOpcodes
      · rw [if_pos indexed] at run
        obtain rfl := Option.some.inj run
        refine ⟨2, false, ?_, fun _ => ⟨add_two m.r, rfl⟩, nofun⟩
        rw [m1Cycles, if_neg bits, if_neg block, if_pos index]
        split
        · rfl
        · rename_i no_bits
          obtain ⟨no_block, not_prefixed⟩ := unshifted indexed
          rw [m1Cycles_one no_bits no_block not_prefixed]
          rfl
      · rw [if_neg indexed, UInt16.add_sub_cancel, UInt16.add_sub_cancel] at run
        obtain ⟨fetches, loads, cycles, counts⟩ := ih run
        refine ⟨fetches + 1, loads, ?_, counts.taken_back⟩
        have no_bits : m.memory (m.pc + 1) ≠ 0xcb := fun same => indexed (same ▸ bits_indexed)
        rw [m1Cycles, if_neg bits, if_neg block, if_pos index, if_neg no_bits, cycles]
        rfl
    · rw [if_neg index] at run
      obtain rfl := Option.some.inj run
      exact ⟨1, false, m1Cycles_one bits block index, fun _ => ⟨rfl, rfl⟩, nofun⟩

end FuseX.Rzx
