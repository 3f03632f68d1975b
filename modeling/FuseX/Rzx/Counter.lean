import FuseX.Lib.Runs
import FuseX.Rzx.Opcode

/-!
# The instruction counter of a recording

While an RZX file is recorded or played back, `R + rzx_instructions_offset` counts the
opcode fetches since the last `rzx_counter_reset`. A run goes from opcode to opcode, with
interrupts, NMIs, ends of frames, and whatever else happens in between.

Next to the machine, a state holds what is observed of it: the fetches and the interrupt
acknowledges since the counter was reset, and the refresh register of a Z80.

The count is right in every run in which nothing loads R behind the counter's back
(`counter_ok`). `z80_reset` does, as do the debugger and a snapshot (`counter_wrong`).
-/

namespace FuseX.Rzx

open Lib

/-! ## The machine -/

inductive Mode
  | recording
  | playback
  deriving DecidableEq

/-- `machine_current->timings`. The interrupt line is low for 32 to 36 clocks, depending on
the machine. -/
structure Timings where
  interruptLength : Nat
  tstatesPerFrame : Nat
  short : interruptLength ≤ 100

structure State where
  cpu : Cpu
  mode : Mode
  tstates : Nat
  rzxInstructionCount : Nat := 0
  /-- Since the counter was reset. -/
  fetches : Nat := 0
  acknowledges : Nat := 0
  /-- The low seven bits of the Z80's R. -/
  refresh : Nat

/-- `rzx_counter_reset` -/
def rzxCounterReset (s : State) : State :=
  { s with
    cpu.r := s.cpu.r &&& 0x7f
    cpu.rzxInstructionsOffset := -(s.cpu.r &&& 0x7f).toNat
    fetches := 0
    acknowledges := 0 }

/-! ## Snapshots and frames -/

structure Snapshot where
  r : UInt8
  program : Program
  tstates : Nat

/-- `z80_from_snapshot`, and `tstates` from the ULA's. -/
def fromSnapshot (snap : Snapshot) (s : State) : State :=
  { s with
    cpu := { s.cpu with toProgram := snap.program, r := snap.r.toUInt16, r7 := snap.r }
    tstates := snap.tstates
    refresh := snap.r.toNat % 128 }

/-- What the file holds for the next frame. -/
structure Frame where
  count : Nat
  snap : Option Snapshot := none
  /-- `creator_has_broken_r7_restore` -/
  brokenR7Restore : Bool := false

/-- `rzx_frame`, as long as it goes on. -/
def rzxFrame (frame : Frame) (s : State) : State :=
  match s.mode with
  | .recording => rzxCounterReset s
  | .playback =>
      let s :=
        match frame.snap with
        | none => s
        | some snap =>
            let s := fromSnapshot snap s
            if frame.brokenR7Restore then { s with cpu.r7 := 0 } else s
      rzxCounterReset { s with rzxInstructionCount := frame.count }

/-- What is outside of the Z80 when it takes an interrupt: the vector, what the stack's
memory becomes, and the clocks of the memory. -/
structure Acknowledge where
  intdisable : Bool := false
  pc : UInt16 := 0x0038
  memory : UInt16 → UInt8
  wait : Nat := 6

/-- `z80_interrupt`, and whether it was accepted. -/
def z80Interrupt (timings : Timings) (ack : Acknowledge) (s : State) : State × Bool :=
  if s.cpu.iff1 = true ∧ s.tstates < timings.interruptLength ∧ ack.intdisable = false then
    if s.tstates = s.cpu.interruptsEnabledAt ∧
        (s.mode ≠ .playback ∨ s.rzxInstructionCount ≤ 4) then
      -- an event tries again behind the next opcode
      (s, false)
    else
      ({ s with
          cpu :=
            { s.cpu with
              pc := ack.pc
              memory := ack.memory
              iff1 := false
              halted := false
              r := s.cpu.r + 1
              rzxInstructionsOffset := s.cpu.rzxInstructionsOffset - 1 }
          tstates := s.tstates + 7 + ack.wait
          acknowledges := s.acknowledges + 1
          refresh := (s.refresh + 1) % 128 }, true)
  else (s, false)

/-- `spectrum_frame` -/
def spectrumFrame (timings : Timings) (s : State) : State :=
  let length := if s.mode = .playback then s.tstates else timings.tstatesPerFrame
  { s with
    tstates := s.tstates - length
    cpu.interruptsEnabledAt :=
      if 0 ≤ s.cpu.interruptsEnabledAt then s.cpu.interruptsEnabledAt - length
      else s.cpu.interruptsEnabledAt }

/-! ## Steps -/

inductive Act
  /-- One pass of `z80_do_opcodes`; the button of the Didaktik 80 puts a RST there. -/
  | opcode (fuel : Nat) (didaktik80Snap : Bool) (after : Program) (clocks : Nat)
  /-- `spectrum_do_frame_end` -/
  | frame (frame : Frame) (ack : Acknowledge)
  /-- `z80_interrupt_event_fn` -/
  | retrigger (frame : Frame) (ack : Acknowledge)
  /-- `z80_ei_delayed_interrupt_event_fn` -/
  | eiDelayed (frame : Frame) (ack : Acknowledge)
  /-- `z80_nmi` -/
  | nmi (suppressed : Bool) (ack : Acknowledge)
  /-- `rzx_sentinel` -/
  | sentinel
  /-- Whatever leaves R alone: the debugger, a device. -/
  | others (after : Program)
  /-- The debugger's `set tstates`. -/
  | setTstates (tstates : Nat)
  /-- `machine_reset`, as far as the Z80 goes. -/
  | machineReset (memory : UInt16 → UInt8)
  | loadSnapshot (snap : Snapshot)
  /-- The debugger's `set R`. -/
  | setR (value : UInt32)
  /-- The register write of the gdb server. -/
  | gdbSetR (value : UInt16)

/-- `z80_reset` -/
def z80Reset (memory : UInt16 → UInt8) (s : State) : State :=
  { s with
    cpu :=
      { s.cpu with
        toProgram := { a := 0xff, pc := 0, memory := memory }
        r := 0
        r7 := 0 }
    refresh := 0 }

def RZX_SENTINEL_TIME : Nat := 79000
def RZX_SENTINEL_TIME_REDUCE : Nat := 8000

variable (timings : Timings)

/-- An interrupt after which a recording stores a frame. -/
def interruptFrame (frame : Frame) (ack : Acknowledge) (s : State) : State :=
  match z80Interrupt timings ack s with
  | (s, true) => if s.mode = .playback then s else rzxFrame frame s
  | (s, false) => s

def step (s : State) : Act → Option State
  | .opcode fuel didaktik80Snap after clocks =>
      let opcode := if didaktik80Snap then 0xc7 else s.cpu.memory s.cpu.pc
      let cycles := (m1Cycles s.cpu.memory (fuel + 1) opcode (s.cpu.pc + 1)).getD (0, false)
      (endOpcode after fuel opcode s.cpu).map fun cpu =>
        { s with
          cpu := cpu
          tstates := s.tstates + clocks
          fetches := s.fetches + cycles.1
          refresh := if cycles.2 then s.cpu.a.toNat % 128 else (s.refresh + cycles.1) % 128 }
  | .frame frame ack =>
      some (z80Interrupt timings ack (spectrumFrame timings (rzxFrame frame s))).1
  | .retrigger frame ack =>
      if s.mode = .playback then some s else some (interruptFrame timings frame ack s)
  | .eiDelayed frame ack => some (interruptFrame timings frame ack s)
  | .nmi suppressed ack =>
      if suppressed then some s
      else
        some
          { s with
            cpu :=
              { s.cpu with
                pc := 0x0066
                memory := ack.memory
                iff1 := false
                halted := false
                r := s.cpu.r + 1 }
            tstates := s.tstates + 5 + ack.wait
            fetches := s.fetches + 1
            refresh := (s.refresh + 1) % 128 }
  | .sentinel =>
      if s.mode = .playback ∧ RZX_SENTINEL_TIME ≤ s.tstates then
        some
          { s with
            tstates := s.tstates - RZX_SENTINEL_TIME_REDUCE
            cpu.interruptsEnabledAt := s.cpu.interruptsEnabledAt - RZX_SENTINEL_TIME_REDUCE }
      else none
  | .others after => some { s with cpu.toProgram := after }
  | .setTstates tstates => some { s with tstates := tstates }
  | .machineReset memory => some (z80Reset memory s)
  | .loadSnapshot snap => some (fromSnapshot snap s)
  | .setR value =>
      some
        { s with
          cpu := { s.cpu with r := value.toUInt16, r7 := value.toUInt8 }
          refresh := value.toNat % 128 }
  | .gdbSetR value =>
      some
        { s with
          cpu := { s.cpu with r := value &&& 0x7f, r7 := (value &&& 0x80).toUInt8 }
          refresh := value.toNat % 128 }

/-- The state when a recording or its playback begins. -/
def start (mode : Mode) (cpu : Cpu) (tstates count : Nat) : State :=
  rzxCounterReset
    { cpu := cpu
      mode := mode
      tstates := tstates
      rzxInstructionCount := count
      refresh := cpu.r.toNat % 128 }

/-! ## The count -/

/-- The counter counts the fetches, as long as they are not too many for R, and R is the
refresh register. -/
structure CounterOk (s : State) : Prop where
  counts : s.fetches < 65000 → s.cpu.r.toNat + s.cpu.rzxInstructionsOffset = s.fetches
  refreshes : s.cpu.r.toNat % 128 = s.refresh

/-- R is loaded only with what it holds, and the clock does not go back. -/
def Compensated (s : State) : Act → Prop
  | .setTstates tstates => s.tstates ≤ tstates
  | .machineReset _ => s.cpu.r = 0
  | .loadSnapshot snap => s.cpu.r = snap.r.toUInt16 ∧ s.tstates ≤ snap.tstates
  | .setR value => s.cpu.r = value.toUInt16
  | .gdbSetR value => s.cpu.r = value &&& 0x7f
  | _ => True

instance (s : State) : (act : Act) → Decidable (Compensated s act)
  | .setTstates tstates => inferInstanceAs (Decidable (s.tstates ≤ tstates))
  | .machineReset _ => inferInstanceAs (Decidable (s.cpu.r = 0))
  | .loadSnapshot snap =>
      inferInstanceAs (Decidable (s.cpu.r = snap.r.toUInt16 ∧ s.tstates ≤ snap.tstates))
  | .setR value => inferInstanceAs (Decidable (s.cpu.r = value.toUInt16))
  | .gdbSetR value => inferInstanceAs (Decidable (s.cpu.r = value &&& 0x7f))
  | .opcode _ _ _ _ | .frame _ _ | .retrigger _ _ | .eiDelayed _ _ | .nmi _ _ | .sentinel
  | .others _ => inferInstanceAs (Decidable True)

/-- R does not wrap: it is not much more than what it has counted since it was reset or
loaded, and the interrupt line is low for a few acknowledges only. -/
structure CounterInv (s : State) : Prop where
  counts : s.fetches < 65000 → s.cpu.r.toNat + s.cpu.rzxInstructionsOffset = s.fetches ∧
    s.cpu.r.toNat ≤ 255 + s.fetches + s.acknowledges
  refreshes : s.cpu.r.toNat % 128 = s.refresh
  few : 7 * s.acknowledges ≤ timings.interruptLength + 6
  elapsed : 7 * s.acknowledges ≤ s.tstates

variable {timings} {s t : State}

theorem CounterInv.counterOk (inv : CounterInv timings s) : CounterOk s :=
  ⟨fun few => (inv.counts few).1, inv.refreshes⟩

/-- R, the offset and the observations are the same. -/
structure SameCount (s t : State) : Prop where
  r : t.cpu.r = s.cpu.r
  offset : t.cpu.rzxInstructionsOffset = s.cpu.rzxInstructionsOffset
  fetches : t.fetches = s.fetches
  acknowledges : t.acknowledges = s.acknowledges
  refresh : t.refresh = s.refresh

theorem CounterInv.same (inv : CounterInv timings s) (same : SameCount s t)
    (elapsed : 7 * s.acknowledges ≤ t.tstates) : CounterInv timings t := by
  obtain ⟨r, offset, fetches, acknowledges, refresh⟩ := same
  refine ⟨?_, ?_, ?_, ?_⟩
  · rw [r, offset, fetches, acknowledges]
    exact inv.counts
  · rw [r, refresh]
    exact inv.refreshes
  · rw [acknowledges]
    exact inv.few
  · rw [acknowledges]
    exact elapsed

/-- The counter is right when it has been reset. -/
theorem counterInv_reset (refreshes : s.cpu.r.toNat % 128 = s.refresh) :
    CounterInv timings (rzxCounterReset s) := by
  have low : (s.cpu.r &&& 0x7f).toNat = s.cpu.r.toNat % 128 :=
    (UInt16.toNat_and _ _).trans (Nat.and_two_pow_sub_one_eq_mod _ 7)
  refine ⟨fun _ => ?_, ?_, ?_, ?_⟩
  · show ((s.cpu.r &&& 0x7f).toNat : Int) + -(s.cpu.r &&& 0x7f).toNat = (0 : Nat) ∧
      (s.cpu.r &&& 0x7f).toNat ≤ 255 + 0 + 0
    omega
  · show (s.cpu.r &&& 0x7f).toNat % 128 = s.refresh
    omega
  · exact Nat.zero_le _
  · exact Nat.zero_le _

/-! ## Frames and interrupts -/

theorem counterInv_rzxFrame (frame : Frame) (refreshes : s.cpu.r.toNat % 128 = s.refresh) :
    CounterInv timings (rzxFrame frame s) := by
  unfold rzxFrame
  cases s.mode with
  | recording => exact counterInv_reset refreshes
  | playback =>
    apply counterInv_reset
    cases frame.snap with
    | none => exact refreshes
    | some snap =>
      dsimp only
      split <;> rfl

theorem acknowledges_rzxFrame (frame : Frame) (s : State) :
    (rzxFrame frame s).acknowledges = 0 := by
  unfold rzxFrame
  cases s.mode <;> rfl

theorem CounterInv.spectrumFrame (inv : CounterInv timings s) (no_interrupt : s.acknowledges = 0) :
    CounterInv timings (spectrumFrame timings s) := by
  refine inv.same ⟨rfl, rfl, rfl, rfl, rfl⟩ ?_
  rw [no_interrupt]
  exact Nat.zero_le _

/-- One more, short of the end of R. -/
theorem toNat_succ {r : UInt16} (short : r.toNat < 65535) : (r + 1).toNat = r.toNat + 1 := by
  rw [UInt16.toNat_add]
  exact Nat.mod_eq_of_lt (Nat.succ_lt_succ short)

theorem refresh_succ {r : UInt16} {refresh : Nat} (refreshes : r.toNat % 128 = refresh) :
    (r + 1).toNat % 128 = (refresh + 1) % 128 := by
  rw [UInt16.toNat_add]
  have one : (1 : UInt16).toNat = 1 := rfl
  omega

/-- The acknowledge is not counted. -/
theorem CounterInv.z80Interrupt (inv : CounterInv timings s) (ack : Acknowledge) :
    CounterInv timings (z80Interrupt timings ack s).1 := by
  unfold Rzx.z80Interrupt
  split
  · rename_i low
    split
    · exact inv
    · have short := timings.short
      have few := inv.few
      refine ⟨fun counted => ?_, refresh_succ inv.refreshes, ?_, ?_⟩
      · obtain ⟨sum, bound⟩ := inv.counts counted
        show ((s.cpu.r + 1).toNat : Int) + (s.cpu.rzxInstructionsOffset - 1) = s.fetches ∧
          (s.cpu.r + 1).toNat ≤ 255 + s.fetches + (s.acknowledges + 1)
        have counted' : s.fetches < 65000 := counted
        rw [toNat_succ (by omega)]
        omega
      · have elapsed := inv.elapsed
        show 7 * (s.acknowledges + 1) ≤ timings.interruptLength + 6
        omega
      · have elapsed := inv.elapsed
        show 7 * (s.acknowledges + 1) ≤ s.tstates + 7 + ack.wait
        omega
  · exact inv

theorem CounterInv.interruptFrame (inv : CounterInv timings s) (frame : Frame)
    (ack : Acknowledge) : CounterInv timings (interruptFrame timings frame ack s) := by
  unfold Rzx.interruptFrame
  have taken := inv.z80Interrupt ack
  generalize Rzx.z80Interrupt timings ack s = result at taken
  obtain ⟨t, accepted⟩ := result
  cases accepted with
  | false => exact taken
  | true =>
    dsimp only
    split
    · exact taken
    · exact counterInv_rzxFrame frame taken.refreshes

/-! ## Opcodes -/

theorem toNat_add_short {r : UInt16} {count : Nat} (short : r.toNat + count < 65536) :
    (r + UInt16.ofNat count).toNat = r.toNat + count := by
  rw [UInt16.toNat_add, UInt16.toNat_ofNat']
  omega

theorem refresh_add {r : UInt16} {refresh : Nat} (refreshes : r.toNat % 128 = refresh)
    (count : Nat) : (r + UInt16.ofNat count).toNat % 128 = (refresh + count) % 128 := by
  rw [UInt16.toNat_add, UInt16.toNat_ofNat']
  omega

theorem CounterInv.opcode (inv : CounterInv timings s) {fuel : Nat} {didaktik80Snap : Bool}
    {after : Program} {clocks : Nat}
    (stepEq : step timings s (.opcode fuel didaktik80Snap after clocks) = some t) :
    CounterInv timings t := by
  obtain ⟨cpu, run, rfl⟩ := Option.map_eq_some_iff.mp stepEq
  obtain ⟨fetches, loads, cycles, counts⟩ := endOpcode_counts run
  rw [cycles, Option.getD_some]
  have short := timings.short
  have few := inv.few
  have elapsed : 7 * s.acknowledges ≤ s.tstates + clocks := Nat.le_add_right_of_le inv.elapsed
  cases loads with
  | false =>
    obtain ⟨r, offset⟩ := counts.counted rfl
    refine ⟨fun counted => ?_, ?_, few, elapsed⟩
    · have counted' : s.fetches + fetches < 65000 := counted
      obtain ⟨sum, bound⟩ := inv.counts (by omega)
      dsimp only
      rw [r, offset, toNat_add_short (by omega)]
      omega
    · dsimp only
      rw [r]
      exact refresh_add inv.refreshes fetches
  | true =>
    obtain ⟨r, offset⟩ := counts.loaded rfl
    have byte : s.cpu.a.toNat < 256 := s.cpu.a.toNat_lt
    refine ⟨fun counted => ?_, ?_, few, elapsed⟩
    · have counted' : s.fetches + fetches < 65000 := counted
      obtain ⟨sum, bound⟩ := inv.counts (by omega)
      dsimp only
      rw [r, offset, toNat_add_short (by omega), UInt8.toNat_toUInt16]
      omega
    · dsimp only
      rw [r, UInt8.toNat_toUInt16]
      rfl

/-! ## Runs -/

theorem CounterInv.nmi (inv : CounterInv timings s) {suppressed : Bool} {ack : Acknowledge}
    (stepEq : step timings s (.nmi suppressed ack) = some t) : CounterInv timings t := by
  cases suppressed with
  | true =>
    cases stepEq
    exact inv
  | false =>
    cases stepEq
    have short := timings.short
    have few := inv.few
    refine ⟨fun counted => ?_, refresh_succ inv.refreshes, few,
      Nat.le_add_right_of_le (Nat.le_add_right_of_le inv.elapsed)⟩
    have counted' : s.fetches + 1 < 65000 := counted
    obtain ⟨sum, bound⟩ := inv.counts (by omega)
    dsimp only
    rw [toNat_succ (by omega)]
    omega

/-- What loads R with what it holds. -/
theorem CounterInv.loaded (inv : CounterInv timings s) {r : UInt16} (same : s.cpu.r = r)
    {t : State} (loads : t.cpu.r = r) (offset : t.cpu.rzxInstructionsOffset =
      s.cpu.rzxInstructionsOffset) (fetches : t.fetches = s.fetches)
    (acknowledges : t.acknowledges = s.acknowledges) (refresh : t.refresh = r.toNat % 128)
    (elapsed : s.tstates ≤ t.tstates) : CounterInv timings t := by
  refine inv.same ⟨loads.trans same.symm, offset, fetches, acknowledges, ?_⟩
    (Nat.le_trans inv.elapsed elapsed)
  rw [refresh, ← same]
  exact inv.refreshes

theorem step_counterInv {act : Act} (inv : CounterInv timings s) (compensated : Compensated s act)
    (stepEq : step timings s act = some t) : CounterInv timings t := by
  cases act with
  | opcode fuel didaktik80Snap after clocks => exact inv.opcode stepEq
  | frame frame ack =>
    cases stepEq
    have reset : CounterInv timings (rzxFrame frame s) := counterInv_rzxFrame frame inv.refreshes
    exact (reset.spectrumFrame (acknowledges_rzxFrame frame s)).z80Interrupt ack
  | retrigger frame ack =>
    rw [step] at stepEq
    split at stepEq
    · cases stepEq
      exact inv
    · cases stepEq
      exact inv.interruptFrame frame ack
  | eiDelayed frame ack =>
    cases stepEq
    exact inv.interruptFrame frame ack
  | nmi suppressed ack => exact inv.nmi stepEq
  | sentinel =>
    rw [step] at stepEq
    split at stepEq
    · rename_i late
      cases stepEq
      refine inv.same ⟨rfl, rfl, rfl, rfl, rfl⟩ ?_
      have short := timings.short
      have few := inv.few
      have late' : 79000 ≤ s.tstates := late.2
      show 7 * s.acknowledges ≤ s.tstates - 8000
      omega
    · cases stepEq
  | others after =>
    cases stepEq
    exact inv.same ⟨rfl, rfl, rfl, rfl, rfl⟩ inv.elapsed
  | setTstates tstates =>
    cases stepEq
    exact inv.same ⟨rfl, rfl, rfl, rfl, rfl⟩ (Nat.le_trans inv.elapsed compensated)
  | machineReset memory =>
    cases stepEq
    exact inv.loaded compensated rfl rfl rfl rfl rfl (Nat.le_refl _)
  | loadSnapshot snap =>
    cases stepEq
    refine inv.loaded compensated.1 rfl rfl rfl rfl ?_ compensated.2
    rw [UInt8.toNat_toUInt16]
    rfl
  | setR value =>
    cases stepEq
    refine inv.loaded compensated rfl rfl rfl rfl ?_ (Nat.le_refl _)
    show value.toNat % 128 = value.toUInt16.toNat % 128
    rw [UInt32.toNat_toUInt16]
    omega
  | gdbSetR value =>
    cases stepEq
    refine inv.loaded compensated rfl rfl rfl rfl ?_ (Nat.le_refl _)
    have low : (value &&& 0x7f).toNat = value.toNat % 128 :=
      (UInt16.toNat_and _ _).trans (Nat.and_two_pow_sub_one_eq_mod _ 7)
    show value.toNat % 128 = (value &&& 0x7f).toNat % 128
    rw [low, Nat.mod_mod]

/-- In every run in which nothing loads R behind the counter's back, the counter is right in
every state. -/
theorem counter_ok {mode : Mode} {cpu : Cpu} {tstates count : Nat} {acts : List Act}
    (run : Runs (step timings) Compensated (start mode cpu tstates count) acts s) :
    CounterOk s :=
  (run.invariant (counterInv_reset rfl) fun _ _ _ => step_counterInv).counterOk

def spectrum48 : Timings := ⟨32, 69888, by decide⟩

/-- `LD R,A`, `RLC (IX+1)`, `LD A,IXH` with a second DD, and `NOP`s. -/
def prefixes : Program :=
  { a := 0x55
    pc := 0
    memory := fun address =>
      [0xed, 0x4f, 0xdd, 0xcb, 0x01, 0x06, 0xdd, 0xdd, 0x7c].getD address.toNat 0 }

def prefixesCpu : Cpu := { toProgram := prefixes, r := 0x10, r7 := 0, rzxInstructionsOffset := 0 }

def prefixesActs : List Act :=
  [.opcode 1 false prefixes 9, .opcode 1 false { prefixes with pc := 6 } 23,
    .opcode 2 false { prefixes with pc := 9 } 12, .nmi false { memory := prefixes.memory }]

/-- Two, two and three fetches, and the NMI. -/
theorem counter_ok_prefixes :
    ∃ s, Runs (step spectrum48) Compensated (start .recording prefixesCpu 40 0) prefixesActs s ∧
      s.fetches = 8 ∧ CounterOk s := by
  have evaluates : (prefixesActs.foldlM (guarded (step spectrum48) Compensated)
      (start .recording prefixesCpu 40 0)).map (·.fetches) = some 8 := by decide
  obtain ⟨s, eval, fetches⟩ := Option.map_eq_some_iff.mp evaluates
  exact ⟨s, .of_guarded eval, fetches, counter_ok (.of_guarded eval)⟩

/-- A cartridge is inserted while the second `NOP` is due. -/
def insertCartridge : List Act :=
  let nops : Program := { prefixes with pc := 9 }
  [.others nops, .opcode 1 false { nops with pc := 10 } 4, .machineReset fun _ => 0,
    .opcode 1 false { nops with pc := 1 } 4]

/-- The reset sets R to 0, and the offset is still the one for the old R. -/
theorem counter_wrong :
    ¬ ∀ (timings : Timings) (mode : Mode) (cpu : Cpu) (tstates count : Nat) (acts : List Act)
      (s : State), Runs (step timings) anyStep (start mode cpu tstates count) acts s →
      CounterOk s := by
  intro always
  have evaluates : (insertCartridge.foldlM (step spectrum48) (start .recording prefixesCpu 40 0)).map
      (fun s => (s.fetches, s.cpu.r.toNat, s.cpu.rzxInstructionsOffset)) = some (2, 1, -16) := by
    decide
  obtain ⟨s, eval, values⟩ := Option.map_eq_some_iff.mp evaluates
  obtain ⟨fetches, r, offset⟩ : s.fetches = 2 ∧ s.cpu.r.toNat = 1 ∧
      s.cpu.rzxInstructionsOffset = -16 := by simpa using values
  have counts := (always spectrum48 .recording prefixesCpu 40 0 insertCartridge s
    (.of_foldlM eval)).counts (by omega)
  omega

end FuseX.Rzx
