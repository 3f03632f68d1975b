import Mathlib.Algebra.Ring.Nat

/-!
# Timed breakpoints

A timed breakpoint stops the emulator at a time of the frame. It has a time that is reduced
with each frame, a flag that says whether it has triggered in this frame, and an event in
the queue that makes the debugger look. At the end of a frame those that have triggered
start again.

The commands of a breakpoint are left out, as are the events of other parts of the emulator.
-/

namespace FuseX.Debugger

/-! ## Breakpoints -/

inductive Life
  | permanent
  | oneShot
  deriving DecidableEq

/-- `value.time` -/
structure TimeValue where
  tstates : UInt32
  initialTstates : UInt32
  triggered : Bool := false
  deriving DecidableEq

structure Breakpoint where
  id : Nat
  /-- Breakpoints of other types have none. -/
  time : Option TimeValue
  ignore : Nat
  life : Life
  conditional : Bool
  /-- Numbers that are never used again, unlike `id`. -/
  serial : Nat
  /-- The first frame that the breakpoint as it stands has seen from the start. -/
  since : Nat
  deriving DecidableEq

/-- The time of a timed breakpoint that has not triggered. -/
def Breakpoint.waiting (bp : Breakpoint) : Option UInt32 :=
  match bp.time with
  | some time => if time.triggered then none else some time.tstates
  | none => none

/-- The condition of a timed breakpoint in `breakpoint_check`. -/
def Breakpoint.due (tstates : Nat) (bp : Breakpoint) : Bool :=
  match bp.time with
  | some time => !time.triggered && decide (time.tstates.toNat ≤ tstates)
  | none => false

def Breakpoint.setTriggered (bp : Breakpoint) : Breakpoint :=
  { bp with time := bp.time.map fun time => { time with triggered := true } }

/-- `debugger_breakpoint_trigger`, when the condition `holds`. -/
def Breakpoint.trigger (holds : Bool) (bp : Breakpoint) : Breakpoint × Bool :=
  if bp.ignore ≠ 0 then ({ bp with ignore := bp.ignore - 1 }, false)
  else (bp.setTriggered, !bp.conditional || holds)

/-! ## The debugger -/

inductive Mode
  | inactive
  | active
  | halted
  deriving DecidableEq

structure State where
  breakpoints : List Breakpoint := []
  mode : Mode := .inactive
  nextBreakpointId : Nat := 1
  removePending : Bool := false
  /-- The times of the pending breakpoint events. -/
  pending : List UInt32 := []
  tstates : Nat
  /-- No event has been handled since the last frame ended. -/
  between : Bool := false
  frame : Nat := 0
  added : Nat := 0
  /-- Which breakpoint has stopped the emulator in which frame. -/
  hits : List (Nat × Nat) := []

/-- The times for which there should be an event. -/
def State.waiting (s : State) : List UInt32 := s.breakpoints.filterMap (·.waiting)

/-- `breakpoint_add` -/
def add (time : Option UInt32) (ignore : Nat) (life : Life) (conditional : Bool) (s : State) :
    State :=
  { s with
    breakpoints := s.breakpoints ++
      [{ id := s.nextBreakpointId
         time := time.map fun tstates => { tstates := tstates, initialTstates := tstates }
         ignore := ignore
         life := life
         conditional := conditional
         serial := s.added
         since := s.frame }]
    nextBreakpointId := s.nextBreakpointId + 1
    added := s.added + 1
    mode := if s.mode = .inactive then .active else s.mode
    pending := time.toList ++ s.pending }

/-- Without the last breakpoint the debugger is not active. -/
def settle (s : State) : State :=
  { s with mode := if s.mode = .active ∧ s.breakpoints = [] then .inactive else s.mode }

/-- The loop over `remove_time` -/
def removeTime (bp : Breakpoint) (pending : List UInt32) : List UInt32 :=
  match bp.time with
  | some time => pending.erase time.tstates
  | none => pending

/-- `debugger_breakpoint_remove` -/
def remove (id : Nat) (s : State) : State :=
  match s.breakpoints.find? (·.id = id) with
  | none => s
  | some bp =>
      { settle { s with breakpoints := s.breakpoints.erase bp } with
        pending := removeTime bp s.pending }

/-- `debugger_breakpoint_clear`. Timed breakpoints have no address. -/
def clear (at_ : Nat → Bool) (s : State) : State :=
  let breakpoints := s.breakpoints.filter fun bp => bp.time.isSome || !at_ bp.id
  if breakpoints = s.breakpoints then s else settle { s with breakpoints := breakpoints }

/-- `debugger_breakpoint_remove_all` -/
def removeAll (s : State) : State :=
  { settle { s with breakpoints := [] } with nextBreakpointId := 1 }

/-- What is changed at a breakpoint counts from the next frame on. -/
def change (id : Nat) (f : Breakpoint → Breakpoint) (s : State) : State :=
  { s with
    breakpoints := s.breakpoints.map fun bp =>
      if bp.id = id then { f bp with since := s.frame + 1 } else bp }

/-- `debugger_breakpoint_ignore` -/
def setIgnore (id ignore : Nat) (s : State) : State :=
  change id (fun bp => { bp with ignore := ignore }) s

/-- `debugger_breakpoint_set_condition` -/
def setCondition (id : Nat) (conditional : Bool) (s : State) : State :=
  change id (fun bp => { bp with conditional := conditional }) s

/-- The loop of `debugger_check`, and which breakpoints stop the emulator. The gdbserver
takes over at the first one. -/
def scan (gdbserver : Bool) (isHit : Breakpoint → Bool) (holds : Nat → Bool) :
    List Breakpoint → List Breakpoint × List Nat
  | [] => ([], [])
  | bp :: rest =>
      if isHit bp then
        let (bp', stops) := bp.trigger (holds bp.serial)
        if stops then
          let kept := if bp.life = .oneShot then [] else [bp']
          if gdbserver then (kept ++ rest, [bp.serial])
          else
            let (rest, hits) := scan gdbserver isHit holds rest
            (kept ++ rest, bp.serial :: hits)
        else
          let (rest, hits) := scan gdbserver isHit holds rest
          (bp' :: rest, hits)
      else
        let (rest, hits) := scan gdbserver isHit holds rest
        (bp :: rest, hits)

/-- `debugger_check` -/
def check (gdbserver : Bool) (isHit : Breakpoint → Bool) (holds : Nat → Bool) (s : State) :
    State :=
  let s := if s.removePending then { removeAll s with removePending := false } else s
  match s.mode with
  | .inactive => s
  | .halted => s
  | .active =>
      let (breakpoints, hits) := scan gdbserver isHit holds s.breakpoints
      { s with
        breakpoints := breakpoints
        mode := if hits = [] then s.mode else .halted
        hits := s.hits ++ hits.map fun serial => (s.frame, serial) }

/-! ## Ends of frames -/

/-- `debugger_breakpoint_reduce_tstates` -/
def reduceTstates (length : UInt32) (s : State) : State :=
  if s.mode ≠ .active then s
  else
    { s with
      breakpoints := s.breakpoints.map fun bp =>
        { bp with
          time := bp.time.map fun time =>
            if time.triggered then time else { time with tstates := time.tstates - length } } }

/-- `add_time_event` -/
def Breakpoint.addTimeEvent (bp : Breakpoint) : Breakpoint × List UInt32 :=
  match bp.time with
  | some time =>
      if time.triggered then
        ({ bp with
            time := some { time with triggered := false, tstates := time.initialTstates } },
          [time.initialTstates])
      else (bp, [])
  | none => (bp, [])

/-- `debugger_add_time_events` -/
def addTimeEvents (s : State) : State :=
  { s with
    breakpoints := s.breakpoints.map (·.addTimeEvent.1)
    pending := s.breakpoints.flatMap (·.addTimeEvent.2) ++ s.pending }

/-- `spectrum_do_frame_end`. The interrupt takes some time. -/
def frameEnd (length : UInt32) (wait : Nat) (s : State) : State :=
  let s := { s with pending := s.pending.map (· - length) }
  let s := reduceTstates length s
  let s := { s with tstates := s.tstates - length.toNat + wait }
  { addTimeEvents s with frame := s.frame + 1, between := true }

/-! ## Steps -/

inductive Act
  | add (time : Option UInt32) (ignore : Nat) (life : Life) (conditional : Bool)
  | remove (id : Nat)
  | clear (at_ : Nat → Bool)
  | removeAll
  /-- `debugger_breakpoints_remove_pending` -/
  | removeLater
  | setIgnore (id ignore : Nat)
  | setCondition (id : Nat) (conditional : Bool)
  /-- `debugger_run` -/
  | run
  /-- A single step, or a stop by the user. -/
  | halt
  /-- An opcode, while no event is due. -/
  | opcode (clocks : Nat)
  /-- `debugger_check` for breakpoints of other types. -/
  | check (isHit : Nat → Bool) (holds : Nat → Bool)
  /-- The first event that is due is one of a breakpoint. -/
  | event (holds : Nat → Bool)
  /-- The first event that is due is the end of the frame. -/
  | frameEnd (wait : Nat)

/-- The machine's frame length, and whether the gdbserver debugs. -/
structure Machine where
  tstatesPerFrame : UInt32
  gdbserver : Bool

def step (m : Machine) (s : State) : Act → Option State
  | .add time ignore life conditional => some (add time ignore life conditional s)
  | .remove id => some (remove id s)
  | .clear at_ => some (clear at_ s)
  | .removeAll => some (removeAll s)
  | .removeLater => some { s with removePending := true }
  | .setIgnore id ignore => some (setIgnore id ignore s)
  | .setCondition id conditional => some (setCondition id conditional s)
  | .run => some { s with mode := if s.breakpoints = [] then .inactive else .active }
  | .halt => some { s with mode := .halted }
  | .opcode clocks =>
      if s.tstates < m.tstatesPerFrame.toNat ∧ s.pending.all (s.tstates < ·.toNat) then
        some { s with tstates := s.tstates + clocks, between := false }
      else none
  | .check isHit holds =>
      some (check m.gdbserver (fun bp => bp.time.isNone && isHit bp.serial) holds s)
  | .event holds =>
      match s.pending.min? with
      | some first =>
          if first.toNat ≤ s.tstates ∧ first ≤ m.tstatesPerFrame then
            some (check m.gdbserver (·.due s.tstates) holds
              { s with pending := s.pending.erase first, between := false })
          else none
      | none => none
  | .frameEnd wait =>
      if m.tstatesPerFrame.toNat ≤ s.tstates ∧ s.pending.all (m.tstatesPerFrame < ·) then
        some (frameEnd m.tstatesPerFrame wait s)
      else none

end FuseX.Debugger
