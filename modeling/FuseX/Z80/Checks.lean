import FuseX.Lib.JumpChain
import Mathlib.Algebra.Ring.Nat
import Mathlib.Logic.Function.Basic

/-!
# The checks around an opcode

`z80_checks.h` lists checks with their conditions, and `z80_do_opcodes` has a body for
each: it pages a ROM in or out at certain addresses, ends the frame of a recording, or
traps into the debugger. In between, the opcode is fetched and executed.

What depends on more of the emulator than is modelled here comes in with each opcode, as
a `Turn`: what the opcode does, which breakpoints are hit, and what the debugger's user
leaves behind.
-/

namespace FuseX.Z80

open Lib

/-! ## The machine -/

/-- `debugger_mode`. -/
inductive DebuggerMode
  | inactive
  | active
  | halted
  deriving DecidableEq

/-- The devices of `multiface.c`. -/
inductive Multiface
  | mf1
  | mf128
  | mf3
  deriving DecidableEq

/-- The names of `z80_checks.h`. -/
inductive Check
  | profile
  | rzx
  | automation
  | debugger
  | beta
  | plusd
  | didaktik80
  | disciple
  | usource
  | uspeech
  | multiface
  | if1p
  | divideEarly
  | expansionBusEarly
  | evenm1
  | if1u
  | divideLate
  | expansionBusLate
  | opus
  | z80Iff2Read
  | didaktik80snap
  | svgCapture
  deriving DecidableEq

/-- The labels of `z80_checks.h`. -/
inductive Label
  | opcodeDelay
  | runOpcode
  | endOpcode
  deriving DecidableEq

/-- What the bodies call. -/
inductive Call
  | profileMap (pc : UInt16)
  | betaPage
  | betaUnpage
  | plusdPage
  | didaktik80Page
  | didaktik80Unpage
  | discipleNmiPage
  | disciplePage
  | usourceToggle
  | uspeechToggle
  | multifacePage (i : Multiface)
  | if1Page
  | if1Unpage
  | divideSetAutomap (state : Bool)
  | expansionBusM1Begin (pc : UInt16)
  | expansionBusM1End (pc : UInt16) (opcode : UInt8)
  | opusPage
  | opusUnpage
  | svgCapture
  deriving DecidableEq

inductive Entry
  | check (c : Check)
  | call (call : Call)
  | opcode (pc : UInt16) (opcode : UInt8)
  deriving DecidableEq

/-- What the conditions of the checks read. -/
structure Flags where
  profileActive : Bool := false
  rzxPlayback : Bool := false
  automationActive : Bool := false
  debuggerMode : DebuggerMode := .inactive
  /-- `is_debugger_enabled` -/
  gdbserverEnabled : Bool := false
  betaAvailable : Bool := false
  plusdAvailable : Bool := false
  didaktik80Available : Bool := false
  discipleAvailable : Bool := false
  usourceAvailable : Bool := false
  uspeechAvailable : Bool := false
  multifaceActivated : Multiface → Bool := fun _ => false
  if1Available : Bool := false
  divideEnabled : Bool := false
  expansionBusActive : Bool := false
  /-- `even_m1`, which `z80_do_opcodes` computes when it is called. -/
  evenM1 : Bool := false
  opusAvailable : Bool := false
  iff2Read : Bool := false
  didaktik80Snap : Bool := false
  svgCaptureActive : Bool := false

/-- What the bodies of the checks read of the paging. -/
structure Paging where
  betaActive : Bool := false
  betaPcMask : UInt16 := 0xff00
  betaPcValue : UInt16 := 0x3d00
  /-- `NOT_128_TYPE_OR_IS_48_TYPE` -/
  is48Type : Bool := true
  didaktik80Active : Bool := false
  opusActive : Bool := false
  multifaceAvailable : Multiface → Bool := fun _ => false
  multifaceActive : Multiface → Bool := fun _ => false
  ic8aQ : Multiface → Bool := fun _ => true
  ic8bQ : Multiface → Bool := fun _ => true

structure Machine where
  tstates : Nat
  eventNextEvent : Nat
  pc : UInt16
  /-- 16 bits, so that it can count instructions for a recording. -/
  r : UInt16 := 0
  rzxInstructionsOffset : Int := 0
  rzxInstructionCount : Nat := 0
  rzxSpectaculatorPlusdCompat : Bool := false
  tstatesPerFrame : Nat := 69888
  capabilityEvenM1 : Bool := false
  /-- `opcode` of `z80_do_opcodes`. -/
  opcode : UInt8 := 0
  flags : Flags := {}
  paging : Paging := {}
  log : List Entry := []

/-- The conditions of `z80_checks.h`. -/
def condition (c : Check) (m : Machine) : Bool :=
  match c with
  | .profile => m.flags.profileActive
  | .rzx => m.flags.rzxPlayback
  | .automation => m.flags.automationActive
  | .debugger => m.flags.debuggerMode ≠ .inactive || m.flags.gdbserverEnabled
  | .beta => m.flags.betaAvailable
  | .plusd => m.flags.plusdAvailable
  | .didaktik80 => m.flags.didaktik80Available
  | .disciple => m.flags.discipleAvailable
  | .usource => m.flags.usourceAvailable
  | .uspeech => m.flags.uspeechAvailable
  | .multiface =>
      m.flags.multifaceActivated .mf1 || m.flags.multifaceActivated .mf128 ||
        m.flags.multifaceActivated .mf3
  | .if1p | .if1u => m.flags.if1Available
  | .divideEarly | .divideLate => m.flags.divideEnabled
  | .expansionBusEarly | .expansionBusLate => m.flags.expansionBusActive
  | .evenm1 => m.flags.evenM1
  | .opus => m.flags.opusAvailable
  | .z80Iff2Read => m.flags.iff2Read
  | .didaktik80snap => m.flags.didaktik80Snap
  | .svgCapture => m.flags.svgCaptureActive

/-- The checks before the opcode is fetched. -/
def fetchSection : Section Check Label :=
  ⟨[.profile, .rzx, .automation, .debugger, .beta, .plusd, .didaktik80, .disciple, .usource,
    .uspeech, .multiface, .if1p, .divideEarly, .expansionBusEarly], .opcodeDelay⟩

def evenSection : Section Check Label :=
  ⟨[.evenm1], .runOpcode⟩

/-- The checks when the opcode is fetched. -/
def opcodeSection : Section Check Label :=
  ⟨[.if1u, .divideLate, .expansionBusLate, .opus, .z80Iff2Read, .didaktik80snap, .svgCapture],
    .endOpcode⟩

/-- `z80_checks.h` -/
def z80Checks : List (Section Check Label) := [fetchSection, evenSection, opcodeSection]

/-! ## Events and calls -/

def Machine.note (entry : Entry) (m : Machine) : Machine :=
  { m with log := m.log ++ [entry] }

/-- `event_add` -/
def eventAdd (time : Nat) (m : Machine) : Machine :=
  { m with eventNextEvent := min m.eventNextEvent time }

/-- The loop ends before the next opcode. -/
def Machine.Due (m : Machine) : Prop := ¬ m.tstates < m.eventNextEvent

instance (m : Machine) : Decidable m.Due := inferInstanceAs (Decidable (¬ _))

/-- A breakpoint is hit in an active debugger, whose commands leave `mode`. -/
def breakpoint (mode : DebuggerMode) (m : Machine) : Machine :=
  if m.flags.debuggerMode = .inactive then m
  else { m with flags.debuggerMode := mode }

/-! ## An opcode -/

/-- What an opcode does, one step after the other. -/
inductive Effect
  | wait (count : Nat)
  | jump (pc : UInt16)
  /-- R, and the offset that `LD R,A` corrects. -/
  | counter (r : UInt16) (offset : Int)
  /-- A port or the memory pages ROMs in or out. -/
  | paging (state : Paging)
  /-- Something queues an event. -/
  | event (time : Nat)
  /-- A breakpoint at an access or at the paging of a ROM. -/
  | breakpoint (mode : DebuggerMode)
  /-- `LD A,I` and `LD A,R` -/
  | readIff2
  /-- `readport_internal`, with the error of `rzx_playback_byte`. -/
  | readPort (error : Bool)

/-- `rzx_stop_playback( 1 )` -/
def rzxStopPlayback (m : Machine) : Machine :=
  let m := eventAdd m.tstatesPerFrame
    { m with flags.rzxPlayback := false, rzxSpectaculatorPlusdCompat := false }
  { m with tstates := min m.tstates m.tstatesPerFrame }

def Effect.apply (effect : Effect) (m : Machine) : Machine :=
  match effect with
  | .wait count => { m with tstates := m.tstates + count }
  | .jump pc => { m with pc := pc }
  | .counter r offset => { m with r := r, rzxInstructionsOffset := offset }
  | .paging state => { m with paging := state }
  | .event time => eventAdd time m
  | .breakpoint mode => Z80.breakpoint mode m
  | .readIff2 => eventAdd m.tstates { m with flags.iff2Read := true }
  | .readPort error =>
      if m.flags.rzxPlayback && error then
        -- the null event makes the loop pick up the change
        let m := rzxStopPlayback m
        eventAdd m.tstates m
      else m

/-- What comes in while one opcode is executed. -/
structure Turn where
  /-- The result of `automation_check_pc`. -/
  automationStops : Bool := false
  /-- What a trap into the debugger leaves behind. -/
  trap : Option Machine := none
  /-- What a breakpoint at the paging of a ROM leaves behind, for the check that pages. -/
  paged : Check → Option DebuggerMode := fun _ => none
  /-- The programmable trap of the Spectranet pulls /NMI. -/
  nmi : Bool := false
  /-- The clocks of the fetch. -/
  contendRead : Nat := 4
  /-- The byte that is fetched. -/
  opcode : UInt8 := 0
  effects : UInt8 → List Effect := fun _ => []

/-! ## The bodies -/

variable (turn : Turn)

/-- A call that may hit a breakpoint at the paging of a ROM. -/
def call (c : Check) (callee : Call) (m : Machine) : Machine :=
  let m := m.note (.call callee)
  match turn.paged c with
  | some mode => breakpoint mode m
  | none => m

/-- The first device that the button was pushed for. -/
def Machine.answering (m : Machine) : Option Multiface :=
  [Multiface.mf3, .mf128, .mf1].find? fun i =>
    m.paging.multifaceAvailable i && !m.paging.ic8bQ i

/-- `multiface_setic8` -/
def multifaceSetic8 (m : Machine) : Machine :=
  match m.answering with
  | none => m
  | some i =>
      let m :=
        { m with
          paging.ic8aQ := Function.update m.paging.ic8aQ i false
          flags.multifaceActivated := Function.update m.flags.multifaceActivated i false }
      -- `multiface_page`
      if m.paging.multifaceActive i then m
      else
        call turn .multiface (.multifacePage i)
          { m with paging.multifaceActive := Function.update m.paging.multifaceActive i true }

/-- The body of the check for the debugger. -/
def debuggerBody (m : Machine) : Machine :=
  if m.flags.debuggerMode = .inactive then m
  else
    match turn.trap with
    | none => m
    | some after => { after with log := m.log }

/-- The end of the frame in a recording. The sum is compared as a `size_t`. -/
def Machine.FrameEnds (m : Machine) : Prop :=
  m.rzxInstructionCount ≤ (UInt64.ofInt (m.r.toNat + m.rzxInstructionsOffset)).toNat

instance (m : Machine) : Decidable m.FrameEnds := inferInstanceAs (Decidable (_ ≤ _))

def bodyOf (c : Check) (m : Machine) : Outcome Machine :=
  match c with
  | .profile => .go (m.note (.call (.profileMap m.pc)))
  | .rzx => if m.FrameEnds then .leave (eventAdd m.tstates m) else .go m
  | .automation => if turn.automationStops then .leave m else .go m
  | .debugger => .go (debuggerBody turn m)
  | .beta =>
      if m.paging.betaActive then
        if m.paging.is48Type && 16384 ≤ m.pc then
          .go (call turn c .betaUnpage { m with paging.betaActive := false })
        else .go m
      else if m.pc &&& m.paging.betaPcMask = m.paging.betaPcValue ∧ m.paging.is48Type then
        .go (call turn c .betaPage { m with paging.betaActive := true })
      else .go m
  | .plusd =>
      if m.pc = 0x0008 ∨ m.pc = 0x0066 ∨ (m.pc = 0x003a ∧ !m.rzxSpectaculatorPlusdCompat) then
        .go (call turn c .plusdPage m)
      else .go m
  | .didaktik80 =>
      if m.pc = 0x0000 ∨ m.pc = 0x0008 then
        .go (call turn c .didaktik80Page { m with paging.didaktik80Active := true })
      else if m.pc = 0x1700 then
        .go (call turn c .didaktik80Unpage { m with paging.didaktik80Active := false })
      else .go m
  | .disciple =>
      if m.pc = 0x0066 then .go (call turn c .discipleNmiPage m)
      else if m.pc = 0x0001 ∨ m.pc = 0x0008 ∨ m.pc = 0x028e then
        .go (call turn c .disciplePage m)
      else .go m
  | .usource => if m.pc = 0x2bae then .go (m.note (.call .usourceToggle)) else .go m
  | .uspeech => if m.pc = 0x0038 then .go (call turn c .uspeechToggle m) else .go m
  | .multiface => if m.pc = 0x0066 then .go (multifaceSetic8 turn m) else .go m
  | .if1p =>
      if m.pc = 0x0008 ∨ m.pc = 0x1708 then .go (call turn c .if1Page m) else .go m
  | .divideEarly =>
      if m.pc &&& 0xff00 = 0x3d00 then .go (call turn c (.divideSetAutomap true) m) else .go m
  | .expansionBusEarly =>
      let m := call turn c (.expansionBusM1Begin m.pc) m
      .go (if turn.nmi then eventAdd 0 m else m)
  | .evenm1 =>
      if m.tstates % 2 = 1 then
        let m := { m with tstates := m.tstates + 1 }
        if m.tstates = m.eventNextEvent then .leave m else .go m
      else .go m
  | .if1u => if m.pc = 0x0700 then .go (call turn c .if1Unpage m) else .go m
  | .divideLate =>
      if m.pc &&& 0xfff8 = 0x1ff8 then .go (call turn c (.divideSetAutomap false) m)
      else if m.pc ∈ ([0x0000, 0x0008, 0x0038, 0x0066, 0x04c6, 0x0562] : List UInt16) then
        .go (call turn c (.divideSetAutomap true) m)
      else .go m
  | .expansionBusLate => .go (call turn c (.expansionBusM1End m.pc m.opcode) m)
  | .opus =>
      if m.paging.opusActive then
        if m.pc = 0x1748 then
          .go (call turn c .opusUnpage { m with paging.opusActive := false })
        else .go m
      else if m.pc = 0x0008 ∨ m.pc = 0x0048 ∨ m.pc = 0x1708 then
        .go (call turn c .opusPage { m with paging.opusActive := true })
      else .go m
  | .z80Iff2Read =>
      -- one opcode before the checks are evaluated again
      .go (eventAdd m.tstates { m with flags.iff2Read := false })
  | .didaktik80snap =>
      if m.pc = 0x0066 ∧ !m.paging.didaktik80Active then
        .go { m with opcode := 0xc7, flags.didaktik80Snap := false }
      else .go m
  | .svgCapture => .go (m.note (.call .svgCapture))

/-- A check that is performed. -/
def body (c : Check) (m : Machine) : Outcome Machine :=
  bodyOf turn c (m.note (.check c))

/-- The code behind the labels. -/
def code (l : Label) (m : Machine) : Outcome Machine :=
  match l with
  | .opcodeDelay => .go { m with tstates := m.tstates + turn.contendRead }
  | .runOpcode => .go { m with opcode := turn.opcode }
  | .endOpcode =>
      let m := m.note (.opcode m.pc m.opcode)
      .go ((turn.effects m.opcode).foldl (fun m effect => effect.apply m)
        { m with pc := m.pc + 1, r := m.r + 1 })

end FuseX.Z80
