import FuseX.Tape.Deck
import Mathlib.Algebra.Ring.Int.Defs
import Mathlib.Algebra.Ring.Nat

/-!
# The times of the edges

What the deck should do is said with times that count on over the ends of frames and have no
bounds (`Timeline`): a playing tape has one edge due, a stopped one has some time left until
it. `Effect` says what a step of the deck does to the pending edge, and `follows_step` that it
is what the timeline does, as long as the times fit into an unsigned word.

One of them need not: an edge that was late when the tape was stopped has less than no time
left, and when the tape plays again earlier in a frame than that, its time is before the frame.
-/

namespace FuseX.Tape

open Events Lib

/-! ## The timeline -/

inductive Timeline : Type
  | stopped (remaining : Int)
  | playing (due : Int)
  deriving DecidableEq

section

variable {Tape : Type} (lib : Libspectrum Tape) (types : EventTypes)

/-- The time since the emulator has started. -/
def State.now (s : State Tape) : Int := s.elapsed + s.tstates

/-- Whether an edge is taken from the tape in this step. -/
def takesEdge (s : State Tape) : Step Tape → Bool
  | .event =>
      match dueEvent s with
      | some (ptr, _) => ptr.type = types.tapeEdge
      | none => false
  | .accelerate => s.tapePlaying && s.lengthKnown1
  | _ => false

/-- The time that the length of the edge counts from: when the last one was due, or when it was
forced. -/
def countsFrom (s : State Tape) (due : Int) : Step Tape → Int
  | .accelerate => s.now
  | _ => due

def edgeLength (s : State Tape) : UInt32 := (lib.getNextEdge s.tape).1.tstates

/-- A tape that starts goes on with the time that was left, one that stops keeps it; an edge is
due its length after the last one, and if it is the last before the tape stops by itself, no
time is left. Nothing else moves an edge. -/
def Timeline.after (a : Step Tape) (s s' : State Tape) : Timeline → Timeline
  | .stopped remaining =>
      if s'.tapePlaying then .playing (s.now + remaining) else .stopped remaining
  | .playing due =>
      if takesEdge types s a then
        if s'.tapePlaying then .playing (countsFrom s due a + (edgeLength lib s).toNat)
        else .stopped 0
      else if s'.tapePlaying then .playing due
      else .stopped (due - s.now)

def Timeline.run (s : State Tape) (timeline : Timeline) : List (Step Tape) → Timeline
  | [] => timeline
  | a :: steps =>
      Timeline.run (step lib types s a) (timeline.after lib types a s (step lib types s a)) steps

/-- The times of the pending edge events. -/
def State.edgeTimes (s : State Tape) : List Int :=
  (s.events.timesOf types.tapeEdge).map fun time => s.elapsed + (time.toNat : Int)

/-- The deck is as the timeline has it: one edge pending, at its time, or none. -/
def Shows (s : State Tape) : Timeline → Prop
  | .playing due => s.tapePlaying = true ∧ s.edgeTimes types = [due]
  | .stopped _ => s.tapePlaying = false ∧ s.edgeTimes types = []

/-! ## When times fit -/

/-- The step starts the tape. -/
def starts (s : State Tape) : Step Tape → Bool
  | .play autoplay => playable lib autoplay s
  | .toggle autoplay => playable lib autoplay s
  | _ => false

/-- The tape goes on with the edge that is taken. -/
def goesOn (s : State Tape) : Bool :=
  let (edge, tape) := lib.getNextEdge s.tape
  let s' := tapeHandleStopRequest edge { s with tape := tape }
  !s.tapeStopPending && !(blockEnds edge s' && tapeShouldStopForRomBlock lib s')

/-- The time of an event that is added is not below zero, nor is it `2 ^ 32` or more. -/
def Fits (a : Step Tape) (s : State Tape) : Timeline → Prop
  | .stopped remaining => starts lib s a = true →
      0 ≤ s.tstates + remaining ∧ s.tstates + remaining < 2 ^ 32
  | .playing due => takesEdge types s a = true → goesOn lib s = true →
      countsFrom s due a - s.elapsed + (edgeLength lib s).toNat < 2 ^ 32

def FitsAll (s : State Tape) (timeline : Timeline) : List (Step Tape) → Prop
  | [] => True
  | a :: steps => Fits lib types a s timeline ∧
      FitsAll (step lib types s a) (timeline.after lib types a s (step lib types s a)) steps

/-! ## What a step does to the pending edge -/

variable {lib types} {s : State Tape}

def State.pending (types : EventTypes) (s : State Tape) : List UInt32 :=
  s.events.timesOf types.tapeEdge

/-- One edge is pending, or the tape is stopped. -/
structure Single (types : EventTypes) (s : State Tape) : Prop where
  ordered : s.events.Ordered
  pending : (s.tapePlaying = false ∧ s.pending types = []) ∨
    (s.tapePlaying = true ∧ ∃ time, s.pending types = [time])

/-- The word that the length of the edge is added to. -/
def wordFrom (s : State Tape) (time : UInt32) : Step Tape → UInt32
  | .accelerate => s.dword
  | _ => time

inductive Effect (lib : Libspectrum Tape) (types : EventTypes) (a : Step Tape)
    (s s' : State Tape) : Prop
  | quiet (none_ : s.tapePlaying = true → takesEdge types s a = false)
      (playing : s'.tapePlaying = s.tapePlaying)
      (left : s'.nextTapeEdgeTstates = s.nextTapeEdgeTstates)
      (times : s'.edgeTimes types = s.edgeTimes types)
  | started (was : s.tapePlaying = false) (start : starts lib s a = true)
      (playing : s'.tapePlaying = true) (left : s'.nextTapeEdgeTstates = 0)
      (pending : s'.pending types = [s.dword + s.nextTapeEdgeTstates])
      (elapsed : s'.elapsed = s.elapsed)
  | stopped (time : UInt32) (was : s.tapePlaying = true) (before : s.pending types = [time])
      (none_ : takesEdge types s a = false) (playing : s'.tapePlaying = false)
      (left : s'.nextTapeEdgeTstates = time - s.dword) (pending : s'.pending types = [])
  | ended (was : s.tapePlaying = true) (taken : takesEdge types s a = true)
      (playing : s'.tapePlaying = false) (left : s'.nextTapeEdgeTstates = s.nextTapeEdgeTstates)
      (pending : s'.pending types = [])
  | scheduled (time : UInt32) (was : s.tapePlaying = true) (before : s.pending types = [time])
      (taken : takesEdge types s a = true) (goes : goesOn lib s = true)
      (playing : s'.tapePlaying = true) (left : s'.nextTapeEdgeTstates = s.nextTapeEdgeTstates)
      (pending : s'.pending types = [wordFrom s time a + edgeLength lib s])
      (elapsed : s'.elapsed = s.elapsed)

theorem saveNextTapeEdge_none {list : List Event} {now left : UInt32}
    (none_ : timesWhere Event.type Event.tstates types.tapeEdge list = []) :
    list.foldl (saveNextTapeEdge types now) left = left := by
  induction list with
  | nil => rfl
  | cons ptr list ih =>
    rw [timesWhere_cons] at none_
    split at none_
    · cases none_
    · next other =>
      rw [List.foldl_cons, saveNextTapeEdge, if_neg other]
      exact ih none_

theorem saveNextTapeEdge_single {list : List Event} {time now left : UInt32}
    (single : timesWhere Event.type Event.tstates types.tapeEdge list = [time]) :
    list.foldl (saveNextTapeEdge types now) left = time - now := by
  induction list with
  | nil => cases single
  | cons ptr list ih =>
    rw [timesWhere_cons] at single
    rw [List.foldl_cons, saveNextTapeEdge]
    split at single
    · next isEdge =>
      obtain ⟨rfl, rest⟩ := List.cons.inj single
      rw [if_pos isEdge]
      exact saveNextTapeEdge_none rest
    · next other =>
      rw [if_neg other]
      exact ih single

theorem tapeStop_pending (playing : s.tapePlaying = true) :
    (tapeStop types s).tapePlaying = false ∧ (tapeStop types s).pending types = [] ∧
      (tapeStop types s).elapsed = s.elapsed := by
  unfold tapeStop
  rw [if_pos playing]
  refine ⟨rfl, ?_, rfl⟩
  show ((s.events.eventRemoveType types.tapeEdge).eventAdd _ types.tapeMicOff).timesOf _ = []
  rw [Queue.timesOf_eventAdd_other types.micOff_other,
    Queue.timesOf_eventRemoveType types.tapeEdge_registered]

theorem tapeStop_left_none (playing : s.tapePlaying = true) (none_ : s.pending types = []) :
    (tapeStop types s).nextTapeEdgeTstates = s.nextTapeEdgeTstates := by
  unfold tapeStop
  rw [if_pos playing]
  exact saveNextTapeEdge_none none_

theorem tapeStop_left {time : UInt32} (playing : s.tapePlaying = true)
    (pending : s.pending types = [time]) :
    (tapeStop types s).nextTapeEdgeTstates = time - s.dword := by
  unfold tapeStop
  rw [if_pos playing]
  exact saveNextTapeEdge_single pending

theorem ordered_tapeStop (ordered : s.events.Ordered) : (tapeStop types s).events.Ordered := by
  unfold tapeStop
  split
  · exact Queue.ordered_eventAdd (Queue.ordered_eventRemove ordered _) _ _
  · exact ordered

/-- A stop request changes flags only. -/
theorem tapeHandleStopRequest_same (edge : Edge) (s : State Tape) :
    (tapeHandleStopRequest edge s).events = s.events ∧
    (tapeHandleStopRequest edge s).tstates = s.tstates ∧
    (tapeHandleStopRequest edge s).elapsed = s.elapsed ∧
    (tapeHandleStopRequest edge s).tapePlaying = s.tapePlaying ∧
    (tapeHandleStopRequest edge s).nextTapeEdgeTstates = s.nextTapeEdgeTstates := by
  unfold tapeHandleStopRequest
  split <;> exact ⟨rfl, rfl, rfl, rfl, rfl⟩

/-- What a step says of the deck when the pending edge has been taken. -/
def Taken (types : EventTypes) (goes : Bool) (from_ length : UInt32)
    (s s' : State Tape) : Prop :=
  s'.nextTapeEdgeTstates = s.nextTapeEdgeTstates ∧ s'.elapsed = s.elapsed ∧
    ((goes = false ∧ s'.tapePlaying = false ∧ s'.pending types = []) ∨
      (goes = true ∧ s'.tapePlaying = true ∧ s'.pending types = [from_ + length]))

theorem Taken.congr {goes : Bool} {from_ length : UInt32} {s2 s' : State Tape}
    (taken : Taken types goes from_ length s2 s')
    (left : s2.nextTapeEdgeTstates = s.nextTapeEdgeTstates) (elapsed : s2.elapsed = s.elapsed) :
    Taken types goes from_ length s s' := by
  obtain ⟨left', elapsed', rest⟩ := taken
  exact ⟨left'.trans left, elapsed'.trans elapsed, rest⟩

theorem taken_stop {from_ length : UInt32} (playing : s.tapePlaying = true)
    (none_ : s.pending types = []) : Taken types false from_ length s (tapeStop types s) := by
  obtain ⟨stopped, pending, elapsed⟩ := @tapeStop_pending _ types s playing
  exact ⟨tapeStop_left_none playing none_, elapsed, .inl ⟨rfl, stopped, pending⟩⟩

theorem taken_schedule {last : UInt32} {edge : Edge} {forced : Bool} (playing : s.tapePlaying = true)
    (none_ : s.pending types = []) :
    Taken types true last edge.tstates s (tapeScheduleEdge types last edge forced s) :=
  ⟨rfl, rfl, .inr ⟨rfl, playing, Queue.timesOf_eventAdd none_ _⟩⟩

theorem tapeHandleBlockEnd_cases (lib : Libspectrum Tape) (types : EventTypes) (edge : Edge)
    (s : State Tape) :
    ((blockEnds edge s && tapeShouldStopForRomBlock lib s) = true ∧
      tapeHandleBlockEnd lib types edge s =
        (tapeStop types { s with trapResumePending := false }, true)) ∨
    ((blockEnds edge s && tapeShouldStopForRomBlock lib s) = false ∧
      ∃ resume, tapeHandleBlockEnd lib types edge s =
        ({ s with trapResumePending := resume }, false)) := by
  unfold tapeHandleBlockEnd
  by_cases ends : blockEnds edge s = true
  · rw [if_pos ends, ends, Bool.true_and]
    by_cases stops : tapeShouldStopForRomBlock lib s = true
    · exact .inl ⟨stops, if_pos stops⟩
    · exact .inr ⟨Bool.eq_false_iff.mpr stops, false, if_neg stops⟩
  · rw [if_neg ends, Bool.eq_false_iff.mpr ends]
    exact .inr ⟨rfl, s.trapResumePending, rfl⟩

/-- With no edge pending, the next one is scheduled or the tape stops. -/
theorem tapeNextEdge_taken (lib : Libspectrum Tape) (last : UInt32) (forced : Bool)
    (playing : s.tapePlaying = true)
    (none_ : s.pending types = []) :
    Taken types (goesOn lib s) last (edgeLength lib s) s
      (tapeNextEdge lib types last forced s) := by
  unfold tapeNextEdge goesOn
  by_cases stopPending : s.tapeStopPending = true
  · rw [if_pos stopPending, stopPending]
    exact taken_stop playing none_
  · rw [if_neg stopPending, if_pos playing]
    unfold tapeTakeEdge edgeLength
    generalize lib.getNextEdge s.tape = next
    obtain ⟨edge, tape⟩ := next
    dsimp only
    obtain ⟨events, -, elapsed, playing2, left⟩ :=
      tapeHandleStopRequest_same edge { s with tape := tape }
    generalize tapeHandleStopRequest edge { s with tape := tape } = s2 at *
    replace playing2 : s2.tapePlaying = true := playing2.trans playing
    have none2 : s2.pending types = [] := by
      rw [State.pending, events]
      exact none_
    rw [Bool.eq_false_iff.mpr stopPending]
    rcases tapeHandleBlockEnd_cases lib types edge s2 with ⟨stops, same⟩ | ⟨goes, resume, same⟩
    · rw [same, stops]
      exact (taken_stop (s := { s2 with trapResumePending := false }) playing2 none2).congr
        left elapsed
    · rw [same, goes]
      exact (taken_schedule (s := { s2 with trapResumePending := resume }) playing2 none2).congr
        left elapsed

/-! ### One step -/

theorem ordered_tapeNextEdge {last : UInt32} {forced : Bool} (ordered : s.events.Ordered) :
    (tapeNextEdge lib types last forced s).events.Ordered := by
  unfold tapeNextEdge tapeTakeEdge
  split
  · exact ordered_tapeStop ordered
  · split
    · generalize lib.getNextEdge s.tape = next
      obtain ⟨edge, tape⟩ := next
      dsimp only
      have ordered2 := ordered
      rw [← (tapeHandleStopRequest_same edge { s with tape := tape }).1] at ordered2
      generalize tapeHandleStopRequest edge { s with tape := tape } = s2 at *
      rcases tapeHandleBlockEnd_cases lib types edge s2 with ⟨-, same⟩ | ⟨-, resume, same⟩
      · rw [same]
        exact ordered_tapeStop (s := { s2 with trapResumePending := false }) ordered2
      · rw [same]
        exact Queue.ordered_eventAdd ordered2 _ _
    · exact ordered

theorem ordered_tapePlay {autoplay : Bool} (ordered : s.events.Ordered) :
    (tapePlay lib types autoplay s).events.Ordered := by
  unfold tapePlay
  split
  · exact Queue.ordered_eventAdd (Queue.ordered_eventRemove ordered _) _ _
  · exact ordered

theorem ordered_tapeSelectBlock {n : Nat} (ordered : s.events.Ordered) :
    (tapeSelectBlock lib n s).events.Ordered := by
  unfold tapeSelectBlock
  split <;> exact ordered

theorem ordered_dueEvent {ptr : Event} {events : Queue} (ordered : s.events.Ordered)
    (due : dueEvent s = some (ptr, events)) : events.Ordered := by
  unfold dueEvent at due
  split at due
  · exact Queue.ordered_take ordered due
  · cases due

theorem ordered_step (ordered : s.events.Ordered) (a : Step Tape) :
    (step lib types s a).events.Ordered := by
  cases a with
  | play autoplay =>
    rw [step, tapeDoPlay]
    split
    · exact ordered
    · exact ordered_tapePlay ordered
  | stop => exact ordered_tapeStop ordered
  | toggle autoplay =>
    rw [step, tapeTogglePlay]
    split
    · exact ordered_tapeStop ordered
    · exact ordered_tapePlay ordered
  | rewind =>
    rw [step, tapeRewind]
    split
    · exact ordered_tapeSelectBlock ordered
    · exact ordered
  | selectBlock n => exact ordered_tapeSelectBlock ordered
  | accelerate =>
    rw [step, doAcceleration]
    split
    · dsimp only
      split
      · exact ordered_tapeNextEdge (Queue.ordered_eventRemove ordered _)
      · exact ordered
    · exact ordered
  | event =>
    rw [step, handleEvent]
    split
    · exact ordered
    · next ptr events due =>
      have ordered' := ordered_dueEvent ordered due
      split
      · exact ordered_tapeNextEdge ordered'
      · exact ordered'
  | frame length =>
    rw [step]
    split
    · next passed =>
      have later : s.tstates < s.events.eventNextEvent.toNat :=
        Nat.not_le.mp (of_decide_eq_false passed.2)
      exact Queue.ordered_eventFrame ordered
        (Nat.le_trans passed.1 (Nat.le_of_lt later))
    · exact ordered
  | pass tstates => exact ordered
  | addEvent eventTime type =>
    rw [step]
    split
    · exact ordered
    · exact Queue.ordered_eventAdd ordered _ _
  | removeEvents type =>
    rw [step]
    split
    · exact ordered
    · exact Queue.ordered_eventRemove ordered _
  | changeSettings settings => exact ordered
  | changeTape tape trapResumePending => exact ordered

/-- The deck has done nothing to its pending edge. -/
theorem quiet_of_pending {a : Step Tape} {s' : State Tape} (none_ : takesEdge types s a = false)
    (playing : s'.tapePlaying = s.tapePlaying)
    (left : s'.nextTapeEdgeTstates = s.nextTapeEdgeTstates)
    (elapsed : s'.elapsed = s.elapsed) (pending : s'.pending types = s.pending types) :
    Effect lib types a s s' := by
  refine .quiet (fun _ => none_) playing left ?_
  rw [State.pending, State.pending] at pending
  rw [State.edgeTimes, State.edgeTimes, pending, elapsed]

theorem effect_tapePlay {autoplay : Bool} {a : Step Tape} (single : Single types s)
    (none_ : takesEdge types s a = false)
    (notPlaying : s.tapePlaying = false) (start : starts lib s a = playable lib autoplay s) :
    Effect lib types a s (tapePlay lib types autoplay s) := by
  unfold tapePlay
  split
  · next plays =>
    have quiet : s.pending types = [] := by
      rcases single.pending with ⟨-, quiet⟩ | ⟨playing, -⟩
      · exact quiet
      · exact absurd (notPlaying.symm.trans playing) Bool.false_ne_true
    refine .started notPlaying (start.trans plays) rfl rfl ?_ rfl
    refine Queue.timesOf_eventAdd ?_ _
    rw [Queue.timesOf_eventRemoveType_other types.micOff_other types.tapeEdge_registered]
    exact quiet
  · exact quiet_of_pending none_ rfl rfl rfl rfl

theorem effect_tapeStop {a : Step Tape} (single : Single types s)
    (none_ : takesEdge types s a = false) : Effect lib types a s (tapeStop types s) := by
  rcases single.pending with ⟨notPlaying, -⟩ | ⟨playing, time, pending⟩
  · unfold tapeStop
    rw [if_neg (Bool.eq_false_iff.mp notPlaying)]
    exact quiet_of_pending none_ rfl rfl rfl rfl
  · obtain ⟨stopped, quiet, -⟩ := @tapeStop_pending _ types s playing
    exact .stopped time playing pending none_ stopped (tapeStop_left playing pending) quiet

theorem effect_of_taken {a : Step Tape} {s' : State Tape} {time : UInt32}
    (pending : s.pending types = [time]) (playing : s.tapePlaying = true)
    (takes : takesEdge types s a = true)
    (taken : Taken types (goesOn lib s) (wordFrom s time a) (edgeLength lib s) s s') :
    Effect lib types a s s' := by
  obtain ⟨left, elapsed, ⟨-, stopped, quiet⟩ | ⟨goes, playing', next⟩⟩ := taken
  · exact .ended playing takes stopped left quiet
  · exact .scheduled time playing pending takes goes playing' left next elapsed

theorem goesOn_events (events : Queue) : goesOn lib { s with events := events } = goesOn lib s := by
  unfold goesOn tapeHandleStopRequest
  generalize lib.getNextEdge s.tape = next
  obtain ⟨edge, tape⟩ := next
  dsimp only
  have same : tapeEdgeRequestsStop { s with tape := tape, events := events } edge =
      tapeEdgeRequestsStop { s with tape := tape } edge := rfl
  rw [same]
  split <;> rfl

theorem effect_accelerate (single : Single types s) :
    Effect lib types .accelerate s (doAcceleration lib types s) := by
  unfold doAcceleration
  split
  · next playing =>
    dsimp only
    split
    · next known =>
      have takes : takesEdge types s .accelerate = true := by
        rw [takesEdge, playing, known]
        rfl
      obtain ⟨notPlaying, -⟩ | ⟨-, time, pending⟩ := single.pending
      · exact absurd (notPlaying.symm.trans playing) Bool.false_ne_true
      have removed := Queue.timesOf_eventRemoveType (q := s.events) types.tapeEdge_registered
      have taken := tapeNextEdge_taken lib s.dword true
        (s := { s with events := s.events.eventRemoveType types.tapeEdge }) playing removed
      rw [goesOn_events] at taken
      exact effect_of_taken pending playing takes (taken.congr rfl rfl)
    · next unknown =>
      have none_ : takesEdge types s .accelerate = false := by
        rw [takesEdge, Bool.eq_false_iff.mpr unknown, Bool.and_false]
      exact quiet_of_pending none_ rfl rfl rfl rfl
  · next notPlaying =>
    have none_ : takesEdge types s .accelerate = false := by
      rw [takesEdge, Bool.eq_false_iff.mpr notPlaying, Bool.false_and]
    exact quiet_of_pending none_ rfl rfl rfl rfl

theorem pending_dueEvent (types : EventTypes) {ptr : Event} {events : Queue} (due : dueEvent s = some (ptr, events)) :
    s.pending types = if ptr.type = types.tapeEdge then
      ptr.tstates :: events.timesOf types.tapeEdge else events.timesOf types.tapeEdge := by
  unfold dueEvent at due
  split at due
  · exact Queue.timesOf_take due
  · cases due

theorem effect_event (single : Single types s) :
    Effect lib types .event s (handleEvent lib types s) := by
  unfold handleEvent
  cases due : dueEvent s with
  | none =>
    have none_ : takesEdge types s .event = false := by rw [takesEdge, due]
    exact quiet_of_pending none_ rfl rfl rfl rfl
  | some found =>
    obtain ⟨ptr, events⟩ := found
    dsimp only
    have before := pending_dueEvent types due
    by_cases isEdge : ptr.type = types.tapeEdge
    · have takes : takesEdge types s .event = true := by
        rw [takesEdge, due]
        exact decide_eq_true isEdge
      rw [if_pos isEdge] at before ⊢
      obtain ⟨-, quiet⟩ | ⟨playing, time, pending⟩ := single.pending
      · rw [quiet] at before
        cases before
      · rw [pending] at before
        obtain ⟨rfl, rest⟩ := List.cons.inj before
        have taken := tapeNextEdge_taken lib ptr.tstates false
          (s := { s with events := events }) playing rest.symm
        rw [goesOn_events] at taken
        exact effect_of_taken pending playing takes (taken.congr rfl rfl)
    · have none_ : takesEdge types s .event = false := by
        rw [takesEdge, due]
        exact decide_eq_false isEdge
      rw [if_neg isEdge] at before ⊢
      exact quiet_of_pending none_ rfl rfl rfl before.symm

theorem effect_frame (single : Single types s) (length : UInt32) :
    Effect lib types (.frame length) s (step lib types s (.frame length)) := by
  rw [step]
  split
  · next passed =>
    refine .quiet (fun _ => rfl) rfl rfl ?_
    have later : s.tstates < s.events.eventNextEvent.toNat :=
      Nat.not_le.mp (of_decide_eq_false passed.2)
    unfold State.edgeTimes
    rw [Queue.timesOf_eventFrame, List.map_map]
    refine List.map_congr_left fun time pending => ?_
    have bound : length.toNat ≤ time.toNat := Nat.le_trans passed.1
      (Nat.le_trans (Nat.le_of_lt later) (single.ordered.le_timesOf pending))
    show ((s.elapsed + length.toNat : Nat) : Int) + ((time - length).toNat : Int) = _
    rw [UInt32.toNat_sub_of_le _ _ (UInt32.le_iff_toNat_le.mpr bound)]
    omega
  · exact quiet_of_pending rfl rfl rfl rfl rfl

theorem effect_tapeSelectBlock {n : Nat} {a : Step Tape} (none_ : takesEdge types s a = false) :
    Effect lib types a s (tapeSelectBlock lib n s) := by
  unfold tapeSelectBlock
  split <;> exact quiet_of_pending none_ rfl rfl rfl rfl

theorem effect_step (lib : Libspectrum Tape) (single : Single types s) (a : Step Tape) :
    Effect lib types a s (step lib types s a) := by
  cases a with
  | play autoplay =>
    rw [step, tapeDoPlay]
    split
    · exact quiet_of_pending rfl rfl rfl rfl rfl
    · next notPlaying =>
      exact effect_tapePlay single rfl (Bool.eq_false_iff.mpr notPlaying) rfl
  | stop => exact effect_tapeStop single rfl
  | toggle autoplay =>
    rw [step, tapeTogglePlay]
    split
    · exact effect_tapeStop single rfl
    · next notPlaying =>
      exact effect_tapePlay single rfl (Bool.eq_false_iff.mpr notPlaying) rfl
  | rewind =>
    rw [step, tapeRewind]
    split
    · exact effect_tapeSelectBlock rfl
    · exact quiet_of_pending rfl rfl rfl rfl rfl
  | selectBlock n => exact effect_tapeSelectBlock rfl
  | accelerate => exact effect_accelerate single
  | event => exact effect_event single
  | frame length => exact effect_frame single length
  | pass tstates => exact quiet_of_pending rfl rfl rfl rfl rfl
  | addEvent eventTime type =>
    rw [step]
    split
    · exact quiet_of_pending rfl rfl rfl rfl rfl
    · next other =>
      exact quiet_of_pending rfl rfl rfl rfl (Queue.timesOf_eventAdd_other other eventTime)
  | removeEvents type =>
    rw [step]
    split
    · exact quiet_of_pending rfl rfl rfl rfl rfl
    · next other =>
      exact quiet_of_pending rfl rfl rfl rfl
        (Queue.timesOf_eventRemoveType_other other types.tapeEdge_registered)
  | changeSettings settings => exact quiet_of_pending rfl rfl rfl rfl rfl
  | changeTape tape trapResumePending => exact quiet_of_pending rfl rfl rfl rfl rfl

theorem single_step (lib : Libspectrum Tape) (single : Single types s) (a : Step Tape) :
    Single types (step lib types s a) := by
  refine ⟨ordered_step single.ordered a, ?_⟩
  cases effect_step lib single a with
  | quiet none_ playing left times =>
    have length := congrArg List.length times
    rw [State.edgeTimes, State.edgeTimes, List.length_map, List.length_map] at length
    rw [playing]
    rcases single.pending with ⟨notPlaying, quiet⟩ | ⟨isPlaying, time, pending⟩
    · rw [State.pending] at quiet
      rw [quiet] at length
      exact .inl ⟨notPlaying, List.eq_nil_of_length_eq_zero length⟩
    · rw [State.pending] at pending
      rw [pending] at length
      exact .inr ⟨isPlaying, List.length_eq_one_iff.mp length⟩
  | started was start playing left pending elapsed => exact .inr ⟨playing, _, pending⟩
  | stopped time was before none_ playing left pending => exact .inl ⟨playing, pending⟩
  | ended was taken playing left pending => exact .inl ⟨playing, pending⟩
  | scheduled time was before taken goes playing left pending elapsed =>
    exact .inr ⟨playing, _, pending⟩

/-! ## The deck follows the timeline -/

theorem toNat_ofInt {i : Int} (low : 0 ≤ i) (high : i < 2 ^ 32) :
    ((UInt32.ofInt i).toNat : Int) = i := by
  unfold UInt32.ofInt
  rw [UInt32.toNat_ofNat']
  omega

theorem ofInt_natCast (n : Nat) : UInt32.ofInt n = UInt32.ofNat n := by
  refine UInt32.toNat_inj.mp ?_
  unfold UInt32.ofInt
  rw [UInt32.toNat_ofNat', UInt32.toNat_ofNat']
  omega

theorem ofInt_toNat (w : UInt32) : UInt32.ofInt w.toNat = w := by
  rw [ofInt_natCast, UInt32.ofNat_toNat]

theorem ofInt_sub (i j : Int) : UInt32.ofInt (i - j) = UInt32.ofInt i - UInt32.ofInt j := by
  rw [Int.sub_eq_add_neg, UInt32.ofInt_add, UInt32.ofInt_neg, UInt32.sub_eq_add_neg]

/-- The time that is left when the tape is stopped. -/
def Timeline.left : Timeline → Int
  | .stopped remaining => remaining
  | .playing _ => 0

structure Follows (types : EventTypes) (s : State Tape) (timeline : Timeline) : Prop where
  single : Single types s
  shown : Shows types s timeline
  left : s.nextTapeEdgeTstates = UInt32.ofInt timeline.left

theorem edgeTimes_single {time : UInt32} (pending : s.pending types = [time]) :
    s.edgeTimes types = [s.elapsed + (time.toNat : Int)] := by
  rw [State.pending] at pending
  rw [State.edgeTimes, pending]
  rfl

theorem edgeTimes_none (pending : s.pending types = []) : s.edgeTimes types = [] := by
  rw [State.pending] at pending
  rw [State.edgeTimes, pending]
  rfl

theorem wordFrom_eq (s : State Tape) (time : UInt32) (a : Step Tape) :
    0 ≤ countsFrom s (s.elapsed + time.toNat) a - s.elapsed ∧
      wordFrom s time a = UInt32.ofInt (countsFrom s (s.elapsed + time.toNat) a - s.elapsed) := by
  have others : (0 : Int) ≤ s.elapsed + time.toNat - s.elapsed ∧
      time = UInt32.ofInt (s.elapsed + time.toNat - s.elapsed) := by
    have same : (s.elapsed : Int) + time.toNat - s.elapsed = time.toNat := by omega
    rw [same, ofInt_toNat]
    exact ⟨Int.natCast_nonneg _, rfl⟩
  cases a with
  | accelerate =>
    have same : countsFrom s (s.elapsed + time.toNat) (.accelerate : Step Tape) - s.elapsed =
        s.tstates := by
      rw [countsFrom, State.now]
      omega
    rw [same, ofInt_natCast]
    exact ⟨Int.natCast_nonneg _, rfl⟩
  | _ => exact others

theorem follows_step {timeline : Timeline} (follows : Follows types s timeline) {a : Step Tape}
    (fits : Fits lib types a s timeline) :
    Follows types (step lib types s a) (timeline.after lib types a s (step lib types s a)) := by
  have single' := single_step lib follows.single a
  have effect := effect_step lib follows.single a
  have left := follows.left
  generalize step lib types s a = s' at *
  cases timeline with
  | stopped remaining =>
    obtain ⟨notPlaying, none_⟩ := follows.shown
    cases effect with
    | quiet _ playing left' times =>
      rw [Timeline.after, playing, if_neg (Bool.eq_false_iff.mp notPlaying)]
      exact ⟨single', ⟨playing.trans notPlaying, times.trans none_⟩, left'.trans left⟩
    | started was start playing left' pending elapsed =>
      obtain ⟨low, high⟩ := fits start
      rw [Timeline.after, if_pos playing]
      refine ⟨single', ⟨playing, ?_⟩, left'⟩
      have word : s.dword + s.nextTapeEdgeTstates = UInt32.ofInt (s.tstates + remaining) := by
        rw [left, UInt32.ofInt_add, ofInt_natCast]
        rfl
      rw [edgeTimes_single pending, word, toNat_ofInt low high, elapsed]
      unfold State.now
      rw [Int.add_assoc]
    | stopped _ was => exact absurd (notPlaying.symm.trans was) Bool.false_ne_true
    | ended was => exact absurd (notPlaying.symm.trans was) Bool.false_ne_true
    | scheduled _ was => exact absurd (notPlaying.symm.trans was) Bool.false_ne_true
  | playing due =>
    obtain ⟨isPlaying, one⟩ := follows.shown
    cases effect with
    | quiet none_ playing left' times =>
      rw [Timeline.after, none_ isPlaying, if_neg Bool.false_ne_true, playing, if_pos isPlaying]
      exact ⟨single', ⟨playing.trans isPlaying, times.trans one⟩, left'.trans left⟩
    | started was => exact absurd (was.symm.trans isPlaying) Bool.false_ne_true
    | stopped time was before none_ playing left' pending =>
      rw [edgeTimes_single before] at one
      obtain rfl := List.singleton_inj.mp one
      rw [Timeline.after, none_, if_neg Bool.false_ne_true, if_neg (Bool.eq_false_iff.mp playing)]
      refine ⟨single', ⟨playing, edgeTimes_none pending⟩, left'.trans ?_⟩
      have remains : (s.elapsed : Int) + time.toNat - s.now = time.toNat - s.tstates := by
        unfold State.now
        omega
      rw [Timeline.left, remains, ofInt_sub, ofInt_toNat, ofInt_natCast]
      rfl
    | ended was taken playing left' pending =>
      rw [Timeline.after, if_pos taken, if_neg (Bool.eq_false_iff.mp playing)]
      exact ⟨single', ⟨playing, edgeTimes_none pending⟩, left'.trans left⟩
    | scheduled time was before taken goes playing left' pending elapsed =>
      rw [edgeTimes_single before] at one
      have high := fits taken goes
      obtain rfl := List.singleton_inj.mp one
      rw [Timeline.after, if_pos taken, if_pos playing]
      refine ⟨single', ⟨playing, ?_⟩, left'.trans left⟩
      obtain ⟨low, word⟩ := wordFrom_eq s time a
      generalize countsFrom s (s.elapsed + time.toNat) a = from_ at *
      have sum : wordFrom s time a + edgeLength lib s =
          UInt32.ofInt (from_ - s.elapsed + (edgeLength lib s).toNat) := by
        rw [UInt32.ofInt_add, ofInt_toNat, word]
      rw [edgeTimes_single pending, sum, toNat_ofInt (by omega) high, elapsed]
      congr 1
      omega

end

end FuseX.Tape
