import FuseX.Events.Queue

/-!
# The tape deck

The edges of a playing tape are events: when one is handled, `libspectrum` is asked for the
next, and its event is added for the time that the last one was due plus its length. A stop
takes the event away and keeps the time that is left until it.

The tape itself is a parameter, and `libspectrum` delivers an edge whenever it is asked. What
the loader detection decides is left open: it may play, stop and accelerate at any time. The
sound, the microphone level, the status bar and the debugger are left out.
-/

namespace FuseX.Tape

open Events

/-- `flags` of an edge -/
structure EdgeFlags where
  block : Bool := false
  stop : Bool := false
  stop48 : Bool := false
  lengthShort : Bool := false
  lengthLong : Bool := false
  deriving DecidableEq

/-- `libspectrum_tape_edge` -/
structure Edge where
  tstates : UInt32
  flags : EdgeFlags
  deriving DecidableEq

/-- What is used of a `libspectrum_tape`. -/
structure Libspectrum (Tape : Type) where
  present : Tape → Bool
  getNextEdge : Tape → Edge × Tape
  /-- There may be no block of this number. -/
  nthBlock : Nat → Tape → Option Tape
  /-- The current block is a ROM block. -/
  romBlock : Tape → Bool

/-- The types that `event_register` has given. -/
structure EventTypes where
  tapeEdge : Nat
  tapeMicOff : Nat
  tapeEdge_registered : tapeEdge ≠ eventTypeNull
  micOff_other : tapeMicOff ≠ tapeEdge

structure Settings where
  tapeTraps : Bool
  rzxRecording : Bool
  memory128 : Bool
  tstatesPerFrame : UInt32
  deriving DecidableEq

structure State (Tape : Type) where
  events : Queue
  tstates : Nat
  tape : Tape
  settings : Settings
  tapePlaying : Bool := false
  tapeStopPending : Bool := false
  tapeAutoplay : Bool := false
  trapResumePending : Bool := false
  tapeAutoplayBlocked : Bool := false
  nextTapeEdgeTstates : UInt32 := 0
  lengthKnown1 : Bool := false
  lengthKnown2 : Bool := false
  /-- The T-states of the frames that have ended. -/
  elapsed : Nat := 0

section

variable {Tape : Type} (lib : Libspectrum Tape) (types : EventTypes)

/-- `tstates` as a `libspectrum_dword` -/
def State.dword (s : State Tape) : UInt32 := UInt32.ofNat s.tstates

/-- Whether `tape_play` does anything. -/
def playable (autoplay : Bool) (s : State Tape) : Bool :=
  lib.present s.tape && !(autoplay && s.tapeAutoplayBlocked)

/-- `tape_play` -/
def tapePlay (autoplay : Bool) (s : State Tape) : State Tape :=
  if playable lib autoplay s then
    { s with
      tapeAutoplayBlocked := autoplay && s.tapeAutoplayBlocked
      tapePlaying := true
      tapeAutoplay := autoplay && !s.trapResumePending
      tapeStopPending := false
      events := (s.events.eventRemoveType types.tapeMicOff).eventAdd
        (s.dword + s.nextTapeEdgeTstates) types.tapeEdge
      nextTapeEdgeTstates := 0 }
  else s

/-- `tape_do_play`. The tape trap calls `tape_play` only when the tape is not playing. -/
def tapeDoPlay (autoplay : Bool) (s : State Tape) : State Tape :=
  if s.tapePlaying then s else tapePlay lib types autoplay s

/-- `save_next_tape_edge` -/
def saveNextTapeEdge (now nextTapeEdge : UInt32) (ptr : Event) : UInt32 :=
  if ptr.type = types.tapeEdge then ptr.tstates - now else nextTapeEdge

/-- `tape_stop` -/
def tapeStop (s : State Tape) : State Tape :=
  if s.tapePlaying then
    { s with
      tapePlaying := false
      tapeStopPending := false
      nextTapeEdgeTstates :=
        s.events.eventList.foldl (saveNextTapeEdge types s.dword) s.nextTapeEdgeTstates
      events := (s.events.eventRemoveType types.tapeEdge).eventAdd
        (s.dword + s.settings.tstatesPerFrame) types.tapeMicOff }
  else s

/-- `tape_toggle_play` -/
def tapeTogglePlay (autoplay : Bool) (s : State Tape) : State Tape :=
  if s.tapePlaying then tapeStop types s else tapePlay lib types autoplay s

/-- `tape_select_block_no_update`, which `tape_select_block` calls. -/
def tapeSelectBlock (n : Nat) (s : State Tape) : State Tape :=
  match lib.nthBlock n s.tape with
  | none => { s with trapResumePending := false }
  | some tape =>
      { s with trapResumePending := false, tape := tape, tapeAutoplayBlocked := false }

/-- `tape_rewind` -/
def tapeRewind (s : State Tape) : State Tape :=
  if lib.present s.tape then tapeSelectBlock lib 0 s else s

/-- `tape_edge_requests_stop` -/
def tapeEdgeRequestsStop (s : State Tape) (edge : Edge) : Bool :=
  edge.flags.stop || edge.flags.stop48 && !s.settings.memory128

/-- `tape_handle_stop_request` -/
def tapeHandleStopRequest (edge : Edge) (s : State Tape) : State Tape :=
  if tapeEdgeRequestsStop s edge then
    { s with
      tapeStopPending := true
      tapeAutoplayBlocked := s.tapeAutoplayBlocked || edge.flags.stop && edge.flags.block }
  else s

/-- `tape_should_stop_for_rom_block` -/
def tapeShouldStopForRomBlock (s : State Tape) : Bool :=
  s.tapeAutoplay && s.settings.tapeTraps && !s.settings.rzxRecording && lib.romBlock s.tape

/-- Whether `tape_handle_block_end` looks at the block that comes. -/
def blockEnds (edge : Edge) (s : State Tape) : Bool := edge.flags.block && !s.tapeStopPending

/-- `tape_handle_block_end`, and whether it has stopped the tape. -/
def tapeHandleBlockEnd (edge : Edge) (s : State Tape) : State Tape × Bool :=
  if blockEnds edge s then
    let s := { s with trapResumePending := false }
    if tapeShouldStopForRomBlock lib s then (tapeStop types s, true) else (s, false)
  else (s, false)

/-- `loader_set_acceleration_flags` -/
def loaderSetAccelerationFlags (flags : EdgeFlags) (fromAcceleration : Bool) (s : State Tape) :
    State Tape :=
  { s with
    lengthKnown2 := flags.lengthShort || flags.lengthLong
    lengthKnown1 := s.lengthKnown1 && fromAcceleration }

/-- `tape_schedule_edge` -/
def tapeScheduleEdge (lastTstates : UInt32) (edge : Edge) (fromAcceleration : Bool)
    (s : State Tape) : State Tape :=
  loaderSetAccelerationFlags edge.flags fromAcceleration
    { s with events := s.events.eventAdd (lastTstates + edge.tstates) types.tapeEdge }

/-- What `tape_next_edge` does with the edge that it gets. -/
def tapeTakeEdge (lastTstates : UInt32) (fromAcceleration : Bool) (s : State Tape) : State Tape :=
  let (edge, tape) := lib.getNextEdge s.tape
  let s := tapeHandleStopRequest edge { s with tape := tape }
  let (s, stopped) := tapeHandleBlockEnd lib types edge s
  if stopped then s else tapeScheduleEdge types lastTstates edge fromAcceleration s

/-- `tape_next_edge` -/
def tapeNextEdge (lastTstates : UInt32) (fromAcceleration : Bool) (s : State Tape) : State Tape :=
  if s.tapeStopPending then tapeStop types s
  else if s.tapePlaying then tapeTakeEdge lib types lastTstates fromAcceleration s
  else s

/-- `do_acceleration`, which is called only while the tape is playing. -/
def doAcceleration (s : State Tape) : State Tape :=
  if s.tapePlaying then
    let s :=
      if s.lengthKnown1 then
        tapeNextEdge lib types s.dword true
          { s with events := s.events.eventRemoveType types.tapeEdge }
      else s
    { s with lengthKnown1 := s.lengthKnown2 }
  else s

/-! ## Steps -/

inductive Step (Tape : Type) : Type
  | play (autoplay : Bool)
  | stop
  | toggle (autoplay : Bool)
  | rewind
  | selectBlock (n : Nat)
  | accelerate
  /-- A turn of the loop of `event_do_events`. -/
  | event
  | frame (length : UInt32)
  | pass (tstates : Nat)
  /-- Other parts add and remove events of other types. -/
  | addEvent (eventTime : UInt32) (type : Nat)
  | removeEvents (type : Nat)
  | changeSettings (settings : Settings)
  /-- The tape traps and the tape browser move or replace the tape. -/
  | changeTape (tape : Tape) (trapResumePending : Bool)

/-- The next event, if it is due. -/
def dueEvent (s : State Tape) : Option (Event × Queue) :=
  if s.events.due s.tstates then s.events.take else none

def handleEvent (s : State Tape) : State Tape :=
  match dueEvent s with
  | none => s
  | some (ptr, events) =>
      let s := { s with events := events }
      if ptr.type = types.tapeEdge then tapeNextEdge lib types ptr.tstates false s else s

def step (s : State Tape) : Step Tape → State Tape
  | .play autoplay => tapeDoPlay lib types autoplay s
  | .stop => tapeStop types s
  | .toggle autoplay => tapeTogglePlay lib types autoplay s
  | .rewind => tapeRewind lib s
  | .selectBlock n => tapeSelectBlock lib n s
  | .accelerate => doAcceleration lib types s
  | .event => handleEvent lib types s
  -- `spectrum_frame` comes when the frame has passed and nothing is due
  | .frame length =>
      if length.toNat ≤ s.tstates ∧ s.events.due s.tstates = false then
        { s with
          events := s.events.eventFrame length
          tstates := s.tstates - length.toNat
          elapsed := s.elapsed + length.toNat }
      else s
  | .pass tstates => { s with tstates := s.tstates + tstates }
  | .addEvent eventTime type =>
      if type = types.tapeEdge then s else { s with events := s.events.eventAdd eventTime type }
  | .removeEvents type =>
      if type = types.tapeEdge then s else { s with events := s.events.eventRemoveType type }
  | .changeSettings settings => { s with settings := settings }
  | .changeTape tape trapResumePending =>
      { s with tape := tape, trapResumePending := trapResumePending }

def run (s : State Tape) (steps : List (Step Tape)) : State Tape :=
  steps.foldl (step lib types) s

/-- A deck that has not played yet. -/
structure Idle (s : State Tape) : Prop where
  ordered : s.events.Ordered
  stopped : s.tapePlaying = false
  quiet : s.events.timesOf types.tapeEdge = []
  fresh : s.nextTapeEdgeTstates = 0
  notPending : s.tapeStopPending = false

end

end FuseX.Tape
