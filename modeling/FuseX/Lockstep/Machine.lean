import FuseX.Lib.Paths
import FuseX.Lib.Runs
import FuseX.Rzx.Counter

/-!
# Recording and playback of an RZX file

A recording stores, for each frame, how many opcodes were fetched and which bytes were read
from ports. The playback has the program read these bytes and ends each frame when the
fetches are through; the clock of the host no longer decides.

What the Z80 does is a parameter here: an opcode reads ports, and then it leaves the
machine in some state. What is modelled is what the two modes do around it: the counter
and the stored frames, the ends of frames, and when `z80_interrupt` is called and what it
decides.
-/

namespace FuseX.Lockstep

open Lib

/-! ## The Z80 -/

/-- What an opcode leaves: the machine, how many fetches it took, and whether it was EI. -/
structure Executed (σ : Type*) : Type _ where
  next : σ
  fetches : Nat
  ei : Bool

/-- An opcode reads ports, one after the other, and goes on with what it reads. -/
inductive Instruction (σ : Type*) : Type _
  | done (next : σ) (prefixes : Nat) (ei : Bool)
  | readPort (continued : UInt8 → Instruction σ)

/-- With the bytes that the ports yield. What is not read is left. -/
def Instruction.run {σ : Type*} : Instruction σ → List UInt8 → Option (Executed σ × List UInt8)
  | .done next prefixes ei, bytes =>
      some ({ next := next, fetches := prefixes + 1, ei := ei }, bytes)
  | .readPort _, [] => none
  | .readPort continued, b :: bytes => (continued b).run bytes

/-- A Z80 with its memory and what else a program can reach. An interrupt that is accepted
switches interrupts off. -/
structure Z80 (σ : Type*) : Type _ where
  opcode : σ → Instruction σ
  iff1 : σ → Bool
  /-- `scld_last_dec.name.intdisable` -/
  intdisable : σ → Bool
  accept : σ → σ
  iff1_accept : ∀ s, iff1 (accept s) = false

/-- `machine_current->timings` -/
structure Timings extends Rzx.Timings where
  pulse : 0 < interruptLength

variable {σ : Type*}

/-- What happens, in the order it happens. A frame is through when the interrupt at its end
has been taken or not. -/
inductive Entry (σ : Type*) : Type _
  | exec (before : σ) (bytes : List UInt8) (executed : Executed σ)
  | interrupt (before : σ)
  | boundary (state : σ)

/-! ## Interrupts -/

inductive Answer
  | off
  | postponed
  | accepted
  deriving DecidableEq

variable (z : Z80 σ) (timings : Timings)

/-- Interrupts are enabled. -/
def Interruptible (s : σ) : Prop := z.iff1 s = true ∧ z.intdisable s = false

instance (s : σ) : Decidable (Interruptible z s) := inferInstanceAs (Decidable (_ ∧ _))

/-- What `z80_interrupt` decides. Behind EI it can postpone the interrupt. -/
def z80Interrupt (s : σ) (tstates : Nat) (interruptsEnabledAt : Int) (delays : Bool) : Answer :=
  if Interruptible z s ∧ tstates < timings.interruptLength then
    if tstates = interruptsEnabledAt ∧ delays = true then .postponed else .accepted
  else .off

/-- `z80.interrupts_enabled_at` when a frame of `length` clocks is over. -/
def frameEnabledAt (interruptsEnabledAt : Int) (length : Nat) : Int :=
  if 0 ≤ interruptsEnabledAt then interruptsEnabledAt - length else interruptsEnabledAt

/-! ## Recording -/

structure Recorder (σ : Type*) : Type _ where
  core : σ
  tstates : Nat
  interruptsEnabledAt : Int
  /-- When the pending events of EI-delayed interrupts are due. -/
  delayed : List Nat := []
  /-- `R + rzx_instructions_offset` -/
  instructions : Nat := 0
  /-- `rzx_in_bytes` -/
  inBytes : List UInt8 := []
  /-- What libspectrum has stored. -/
  frames : List (Nat × List UInt8) := []
  /-- The interrupt at the end of the last frame was postponed, and has not come yet. -/
  postponed : Bool := false
  log : List (Entry σ) := []

inductive RecordAct
  /-- An opcode that takes `clocks` and finds `ports`. -/
  | exec (clocks : Nat) (ports : List UInt8)
  /-- `z80_interrupt_event_fn`, some time behind EI. -/
  | retrigger (wait : Nat)
  /-- `z80_ei_delayed_interrupt_event_fn` -/
  | delayed (wait : Nat)
  /-- `spectrum_do_frame_end` -/
  | frameEnd (wait : Nat)

/-- `rzx_recording_frame` -/
def recordingFrame (r : Recorder σ) : Recorder σ :=
  { r with
    frames := r.frames ++ [(r.instructions, r.inBytes)]
    instructions := 0
    inBytes := [] }

def Recorder.answer (r : Recorder σ) : Answer :=
  z80Interrupt z timings r.core r.tstates r.interruptsEnabledAt true

/-- The interrupt is taken. -/
def Recorder.accept (wait : Nat) (r : Recorder σ) : Recorder σ :=
  { r with
    core := z.accept r.core
    tstates := r.tstates + 7 + wait
    log := r.log ++ [.interrupt r.core] }

/-- The interrupt is left to an event behind the next opcode. -/
def Recorder.postpone (r : Recorder σ) : Recorder σ :=
  { r with delayed := r.delayed ++ [r.tstates + 1] }

def Recorder.boundary (postponed : Bool) (r : Recorder σ) : Recorder σ :=
  { r with log := r.log ++ [.boundary r.core], postponed := postponed }

/-- An interrupt away from the end of a frame, after which a frame is stored. -/
def interruptFrame (wait : Nat) (r : Recorder σ) : Recorder σ :=
  match r.answer z timings with
  | .off => r
  | .postponed => r.postpone
  | .accepted => (recordingFrame (r.accept z wait)).boundary false

/-- `spectrum_frame` and `event_frame` -/
def Recorder.frame (r : Recorder σ) : Recorder σ :=
  { r with
    tstates := r.tstates - timings.tstatesPerFrame
    interruptsEnabledAt := frameEnabledAt r.interruptsEnabledAt timings.tstatesPerFrame
    delayed := r.delayed.map (· - timings.tstatesPerFrame) }

/-- The interrupt at the end of a frame. -/
def frameInterrupt (wait : Nat) (r : Recorder σ) : Recorder σ :=
  match r.answer z timings with
  | .off => r.boundary false
  | .postponed => r.postpone.boundary true
  | .accepted => (r.accept z wait).boundary false

/-- No event is due. -/
def NoneDue (tstates : Nat) (times : List Nat) : Prop := ∀ time ∈ times, tstates < time

instance (tstates : Nat) (times : List Nat) : Decidable (NoneDue tstates times) :=
  inferInstanceAs (Decidable (∀ _ ∈ _, _))

def recordStep (r : Recorder σ) : RecordAct → Option (Recorder σ)
  | .exec clocks ports =>
      if 0 < clocks ∧ r.tstates < timings.tstatesPerFrame ∧ NoneDue r.tstates r.delayed then
        match (z.opcode r.core).run ports with
        | some (executed, []) =>
            some
              { r with
                core := executed.next
                tstates := r.tstates + clocks
                interruptsEnabledAt :=
                  if executed.ei then (r.tstates + clocks : Nat) else r.interruptsEnabledAt
                instructions := r.instructions + executed.fetches
                inBytes := r.inBytes ++ ports
                log := r.log ++ [.exec r.core ports executed] }
        | _ => none
      else none
  | .retrigger wait => some (interruptFrame z timings wait r)
  | .delayed wait =>
      match r.delayed with
      | [] => none
      | time :: later =>
          if time ≤ r.tstates then some (interruptFrame z timings wait { r with delayed := later })
          else none
  | .frameEnd wait =>
      if timings.tstatesPerFrame ≤ r.tstates ∧ NoneDue r.tstates r.delayed then
        some (frameInterrupt z timings wait ((recordingFrame r).frame timings))
      else none

/-- A recording begins; the last EI was executed `since` clocks ago. -/
def recordStart (core : σ) (tstates since : Nat) (delayed : List Nat) : Recorder σ :=
  { core := core, tstates := tstates, interruptsEnabledAt := tstates - since, delayed := delayed }

/-! ## Playback -/

structure Player (σ : Type*) : Type _ where
  core : σ
  tstates : Nat
  interruptsEnabledAt : Int
  /-- When events are due that do nothing to the Z80: retriggered interrupts, which are
  ignored in playback, and those of devices. -/
  idle : List Nat := []
  /-- When the pending events of EI-delayed interrupts are due. -/
  delayed : List Nat := []
  /-- `R + rzx_instructions_offset` -/
  instructions : Nat := 0
  /-- Of the frame. -/
  rzxInstructionCount : Nat
  /-- The bytes of the frame that have not been read. -/
  input : List UInt8
  /-- The frames to come. -/
  frames : List (Nat × List UInt8)
  finished : Bool := false
  /-- The bytes of a frame did not fit its reads. -/
  desynchronised : Bool := false
  log : List (Entry σ) := []

inductive PlayAct
  | exec (clocks : Nat)
  /-- Events that are due and do nothing. -/
  | idle
  /-- A device queues an event. -/
  | queue (time : Nat)
  /-- `z80_ei_delayed_interrupt_event_fn` -/
  | delayed (wait : Nat)
  /-- `rzx_sentinel` -/
  | sentinel
  /-- The fetches of the frame are through: `spectrum_do_frame_end`. -/
  | frameEnd (wait : Nat)

def Player.answer (p : Player σ) : Answer :=
  z80Interrupt z timings p.core p.tstates p.interruptsEnabledAt (p.rzxInstructionCount ≤ 4)

/-- `z80_interrupt` -/
def Player.interrupt (wait : Nat) (p : Player σ) : Player σ :=
  match p.answer z timings with
  | .off => p
  | .postponed => { p with delayed := p.delayed ++ [p.tstates + 1] }
  | .accepted =>
      { p with
        core := z.accept p.core
        tstates := p.tstates + 7 + wait
        log := p.log ++ [.interrupt p.core] }

/-- `event_force_events`: what is due before the nominal end of the frame happens now, and
the clock goes along. -/
def forceEvents (wait : Nat) (p : Player σ) : Player σ :=
  let early := fun time : Nat => decide (time < timings.tstatesPerFrame)
  let p := (p.delayed.filter early).foldl
    (fun p time => Player.interrupt z timings wait { p with tstates := max p.tstates time })
    { p with delayed := p.delayed.filter fun time => !early time }
  { p with
    tstates := (p.idle.filter early).foldl max p.tstates
    idle := p.idle.filter fun time => !early time }

/-- `spectrum_frame` and `event_frame`, with the length that a frame has in playback. -/
def Player.frame (p : Player σ) : Player σ :=
  { p with
    tstates := 0
    interruptsEnabledAt := frameEnabledAt p.interruptsEnabledAt p.tstates
    idle := p.idle.map (· - p.tstates)
    delayed := p.delayed.map (· - p.tstates) }

/-- `playback_frame`. libspectrum refuses a frame whose bytes were not all read. -/
def nextFrame (wait : Nat) (p : Player σ) : Player σ :=
  if p.input ≠ [] then { p with desynchronised := true }
  else
    match p.frames with
    | [] => { p with finished := true }
    | (count, input) :: frames =>
        let p :=
          { p with
            rzxInstructionCount := count
            input := input
            frames := frames
            instructions := 0 }
        let p := p.frame.interrupt z timings wait
        { p with log := p.log ++ [.boundary p.core] }

def playStep (p : Player σ) (act : PlayAct) : Option (Player σ) :=
  if p.finished = true ∨ p.desynchronised = true then none
  else
    match act with
    | .exec clocks =>
        if 0 < clocks ∧ NoneDue p.tstates (p.idle ++ p.delayed) ∧
            p.instructions < p.rzxInstructionCount then
          match (z.opcode p.core).run p.input with
          | some (executed, rest) =>
              some
                { p with
                  core := executed.next
                  tstates := p.tstates + clocks
                  interruptsEnabledAt :=
                    if executed.ei then (p.tstates + clocks : Nat) else p.interruptsEnabledAt
                  idle := if executed.ei then p.idle ++ [p.tstates + clocks + 1] else p.idle
                  instructions := p.instructions + executed.fetches
                  input := rest
                  log := p.log ++
                    [.exec p.core (p.input.take (p.input.length - rest.length)) executed] }
          | none => some { p with desynchronised := true }
        else none
    | .idle => some { p with idle := p.idle.filter fun time => decide (p.tstates < time) }
    | .queue time => some { p with idle := p.idle ++ [time] }
    | .delayed wait =>
        match p.delayed with
        | [] => none
        | time :: later =>
            if time ≤ p.tstates then
              some (Player.interrupt z timings wait { p with delayed := later })
            else none
    | .sentinel =>
        if NoneDue p.tstates (p.idle ++ p.delayed) ∧ Rzx.RZX_SENTINEL_TIME ≤ p.tstates then
          some
            { p with
              tstates := p.tstates - Rzx.RZX_SENTINEL_TIME_REDUCE
              interruptsEnabledAt := p.interruptsEnabledAt - Rzx.RZX_SENTINEL_TIME_REDUCE }
        else none
    | .frameEnd wait =>
        if NoneDue p.tstates (p.idle ++ p.delayed) ∧ p.rzxInstructionCount ≤ p.instructions then
          some (nextFrame z timings wait (forceEvents z timings wait p))
        else none

/-- A playback begins, from the snapshot in which the recording began. A snapshot says
whether EI was the last opcode. -/
def playStart (core : σ) (tstates since : Nat) (frame : Nat × List UInt8)
    (frames : List (Nat × List UInt8)) : Player σ :=
  { core := core
    tstates := tstates
    interruptsEnabledAt := if since = 0 then (tstates : Int) else -1
    rzxInstructionCount := frame.1
    input := frame.2
    frames := frames }

/-! ## What goes well -/

/-- The interrupt at the end of a frame finds its pulse, or is postponed and then taken
before five fetches are through. -/
def RecordSteady (r : Recorder σ) : RecordAct → Prop
  | .exec _ _ => True
  | .retrigger _ => r.postponed = true → r.answer z timings = .accepted → r.instructions ≤ 4
  | .delayed _ => r.postponed = true →
      r.answer z timings ≠ .off ∧ (r.answer z timings = .accepted → r.instructions ≤ 4)
  | .frameEnd _ => r.postponed = false ∧
      (Interruptible z r.core → r.tstates - timings.tstatesPerFrame < timings.interruptLength)

/-- At the end of a frame behind EI no event moves the clock, and an interrupt that was
postponed comes before the pulse is over. -/
def PlaySteady (p : Player σ) : PlayAct → Prop
  | .delayed _ => Interruptible z p.core → p.tstates < timings.interruptLength
  | .frameEnd _ => Interruptible z p.core → p.tstates = p.interruptsEnabledAt →
      ∀ time ∈ p.idle ++ p.delayed, timings.tstatesPerFrame ≤ time
  | _ => True

end FuseX.Lockstep
