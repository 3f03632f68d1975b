import FuseX.Tape.Timeline

/-!
# Runs of the tape deck

In every run there is one pending edge event if the tape is playing, and none if it is not.
While the times fit, it is the one of the timeline, and a stop that is followed by a start moves
what is left of the tape by the time in between (`edges_on_time`).
-/

namespace FuseX.Tape

open Events

section

variable {Tape : Type} (lib : Libspectrum Tape) (types : EventTypes) {s : State Tape}

/-- Steps that are no operation of the tape deck. -/
def Step.leavesTape : Step Tape → Bool
  | .accelerate | .event | .frame _ | .pass _ | .addEvent _ _ | .removeEvents _
  | .changeSettings _ => true
  | _ => false

/-! ## Every run -/

variable {lib types}

theorem Idle.single (idle : Idle types s) : Single types s :=
  ⟨idle.ordered, .inl ⟨idle.stopped, idle.quiet⟩⟩

theorem Idle.follows (idle : Idle types s) : Follows types s (.stopped 0) where
  single := idle.single
  shown := ⟨idle.stopped, edgeTimes_none idle.quiet⟩
  left := idle.fresh

theorem single_run (single : Single types s) (steps : List (Step Tape)) :
    Single types (run lib types s steps) := by
  induction steps generalizing s with
  | nil => exact single
  | cons a steps ih => exact ih (single_step lib single a)

theorem follows_run {timeline : Timeline} (follows : Follows types s timeline)
    {steps : List (Step Tape)} (fits : FitsAll lib types s timeline steps) :
    Follows types (run lib types s steps) (timeline.run lib types s steps) := by
  induction steps generalizing s timeline with
  | nil => exact follows
  | cons a steps ih => exact ih (follows_step follows fits.1) fits.2

theorem run_concat (s : State Tape) (steps : List (Step Tape)) (a : Step Tape) :
    run lib types s (steps ++ [a]) = step lib types (run lib types s steps) a :=
  List.foldl_concat _ _ _ _

theorem timeline_concat (s : State Tape) (timeline : Timeline) (steps : List (Step Tape))
    (a : Step Tape) :
    timeline.run lib types s (steps ++ [a]) =
      (timeline.run lib types s steps).after lib types a (run lib types s steps)
        (step lib types (run lib types s steps) a) := by
  induction steps generalizing s timeline with
  | nil => rfl
  | cons b steps ih => exact ih _ _

theorem fitsAll_append {timeline : Timeline} {steps more : List (Step Tape)}
    (fits : FitsAll lib types s timeline (steps ++ more)) :
    FitsAll lib types s timeline steps ∧
      FitsAll lib types (run lib types s steps) (timeline.run lib types s steps) more := by
  induction steps generalizing s timeline with
  | nil => exact ⟨trivial, fits⟩
  | cons a steps ih =>
    obtain ⟨first, rest⟩ := fits
    obtain ⟨front, back⟩ := ih rest
    exact ⟨⟨first, front⟩, back⟩

/-! ## A stop and a start -/

/-- A stopped tape stays where it is. -/
theorem tape_step (lib : Libspectrum Tape) (single : Single types s) (stopped : s.tapePlaying = false) {a : Step Tape}
    (leaves : a.leavesTape = true) :
    (step lib types s a).tape = s.tape ∧ (step lib types s a).tapePlaying = false := by
  have notPlaying := Bool.eq_false_iff.mp stopped
  cases a with
  | accelerate =>
    rw [step, doAcceleration, if_neg notPlaying]
    exact ⟨rfl, stopped⟩
  | event =>
    rw [step, handleEvent]
    split
    · exact ⟨rfl, stopped⟩
    · next ptr events due =>
      have before : s.pending types = if ptr.type = types.tapeEdge then
          ptr.tstates :: events.timesOf types.tapeEdge else events.timesOf types.tapeEdge :=
        pending_dueEvent types due
      split
      · next isEdge =>
        rw [if_pos isEdge] at before
        rcases single.pending with ⟨-, quiet⟩ | ⟨playing, -⟩
        · rw [quiet] at before
          cases before
        · exact absurd playing notPlaying
      · exact ⟨rfl, stopped⟩
  | frame length =>
    rw [step]
    split <;> exact ⟨rfl, stopped⟩
  | addEvent eventTime type =>
    rw [step]
    split <;> exact ⟨rfl, stopped⟩
  | removeEvents type =>
    rw [step]
    split <;> exact ⟨rfl, stopped⟩
  | pass tstates => exact ⟨rfl, stopped⟩
  | changeSettings settings => exact ⟨rfl, stopped⟩
  | _ => cases leaves

theorem tape_run (lib : Libspectrum Tape) (single : Single types s) (stopped : s.tapePlaying = false)
    {between : List (Step Tape)} (leave : ∀ a ∈ between, a.leavesTape = true) (remaining : Int) :
    (run lib types s between).tape = s.tape ∧ (run lib types s between).tapePlaying = false ∧
      Timeline.run lib types s (.stopped remaining) between = .stopped remaining := by
  induction between generalizing s with
  | nil => exact ⟨rfl, stopped, rfl⟩
  | cons a between ih =>
    obtain ⟨tape, stopped'⟩ :=
      tape_step lib single stopped (leave a List.mem_cons_self)
    obtain ⟨rest, stopped'', timeline⟩ := ih (single_step lib single a) stopped'
      fun a' inRest => leave a' (List.mem_cons_of_mem _ inRest)
    refine ⟨rest.trans tape, stopped'', ?_⟩
    rw [Timeline.run, Timeline.after, if_neg (Bool.eq_false_iff.mp stopped')]
    exact timeline

/-- The first thing that is done to a tape that plays is to stop it. -/
theorem stop_step (lib : Libspectrum Tape) (types : EventTypes) (due : Int)
    (playing : s.tapePlaying = true) :
    (step lib types s .stop).tape = s.tape ∧ (step lib types s .stop).tapePlaying = false ∧
      Timeline.after lib types .stop s (step lib types s .stop) (.playing due) =
        .stopped (due - s.now) := by
  have stopped : (step lib types s .stop).tapePlaying = false := (tapeStop_pending playing).1
  refine ⟨?_, stopped, ?_⟩
  · rw [step, tapeStop, if_pos playing]
  · have none_ : takesEdge types s .stop = false := rfl
    rw [Timeline.after, none_, if_neg Bool.false_ne_true, if_neg (Bool.eq_false_iff.mp stopped)]

theorem start_step (types : EventTypes) {a : Step Tape} (stopped : s.tapePlaying = false)
    (start : starts lib s a = true) :
    (step lib types s a).tape = s.tape ∧ (step lib types s a).tapePlaying = true := by
  have notPlaying := Bool.eq_false_iff.mp stopped
  cases a with
  | play autoplay =>
    have plays : playable lib autoplay s = true := start
    rw [step, tapeDoPlay, if_neg notPlaying, tapePlay, if_pos plays]
    exact ⟨rfl, rfl⟩
  | toggle autoplay =>
    have plays : playable lib autoplay s = true := start
    rw [step, tapeTogglePlay, if_neg notPlaying, tapePlay, if_pos plays]
    exact ⟨rfl, rfl⟩
  | _ => cases start

/-- What remains of the tape comes later by the time between the stop and the start. -/
theorem resumed {due : Int} (follows : Follows types s (.playing due)) {between : List (Step Tape)}
    (leave : ∀ a ∈ between, a.leavesTape = true) {start : Step Tape}
    (starts_ : starts lib (run lib types s (.stop :: between)) start = true)
    (fits : FitsAll lib types s (.playing due) (.stop :: between ++ [start])) :
    (run lib types s (.stop :: between ++ [start])).tape = s.tape ∧
      Shows types (run lib types s (.stop :: between ++ [start]))
        (.playing (due + ((run lib types s (.stop :: between)).now - s.now))) := by
  obtain ⟨tape, stopped, timeline⟩ :=
    stop_step lib types due follows.shown.1
  obtain ⟨tape', stopped', timeline'⟩ :=
    tape_run lib (single_step lib follows.single .stop) stopped leave (due - s.now)
  obtain ⟨tape'', playing⟩ :
      (step lib types (run lib types s (.stop :: between)) start).tape =
          (run lib types s (.stop :: between)).tape ∧
        (step lib types (run lib types s (.stop :: between)) start).tapePlaying = true :=
    start_step types stopped' starts_
  have before : Timeline.run lib types s (.playing due) (.stop :: between) =
      .stopped (due - s.now) := by
    rw [Timeline.run, timeline]
    exact timeline'
  have shown := (follows_run follows fits).shown
  rw [timeline_concat, run_concat, before, Timeline.after] at shown
  rw [run_concat]
  refine ⟨tape''.trans (tape'.trans tape), ?_⟩
  rw [if_pos playing] at shown
  have moved : due + ((run lib types s (.stop :: between)).now - s.now) =
      (run lib types s (.stop :: between)).now + (due - s.now) := by omega
  rw [moved]
  exact shown

/-! ## Edges on time -/

/-- In every run there is one pending edge if the tape plays and none if it does not; while the
times fit it is due when the timeline says, and a tape that is stopped and started has the same
edges before it, each later by the time in between. -/
theorem edges_on_time (lib : Libspectrum Tape) (types : EventTypes) (s : State Tape)
    (idle : Idle types s) (steps : List (Step Tape)) :
    ((run lib types s steps).edgeTimes types).length =
        (if (run lib types s steps).tapePlaying then 1 else 0) ∧
    (FitsAll lib types s (.stopped 0) steps →
      Shows types (run lib types s steps) (Timeline.run lib types s (.stopped 0) steps)) ∧
    ∀ (due : Int) (between : List (Step Tape)) (start : Step Tape),
      (∀ a ∈ between, a.leavesTape = true) →
      starts lib (run lib types s (steps ++ .stop :: between)) start = true →
      FitsAll lib types s (.stopped 0) (steps ++ (.stop :: between ++ [start])) →
      Shows types (run lib types s steps) (.playing due) →
      (run lib types s (steps ++ (.stop :: between ++ [start]))).tape =
          (run lib types s steps).tape ∧
        Shows types (run lib types s (steps ++ (.stop :: between ++ [start])))
          (.playing (due + ((run lib types s (steps ++ .stop :: between)).now -
            (run lib types s steps).now))) := by
  refine ⟨?_, fun fits => (follows_run idle.follows fits).shown, ?_⟩
  · rw [State.edgeTimes, List.length_map]
    rcases (single_run idle.single steps).pending with ⟨stopped, none_⟩ | ⟨playing, time, one⟩
    · rw [State.pending] at none_
      rw [none_, stopped]
      rfl
    · rw [State.pending] at one
      rw [one, playing]
      rfl
  · intro due between start leave starts_ fits shown
    obtain ⟨front, back⟩ := fitsAll_append fits
    have follows := follows_run idle.follows front
    have joined : ∀ more, run lib types s (steps ++ more) =
        run lib types (run lib types s steps) more := fun more => List.foldl_append
    rw [joined] at starts_ ⊢
    rw [joined]
    cases timeline : Timeline.run lib types s (.stopped 0) steps with
    | stopped remaining =>
      rw [timeline] at follows
      exact absurd (follows.shown.1.symm.trans shown.1) Bool.false_ne_true
    | playing due' =>
      rw [timeline] at follows back
      have same : due' = due :=
        List.singleton_inj.mp (follows.shown.2.symm.trans shown.2)
      rw [same] at follows back
      exact resumed follows leave starts_ back

end

/-! ## A tape of equal edges -/

instance {Tape : Type} (lib : Libspectrum Tape) (types : EventTypes) (a : Step Tape)
    (s : State Tape) : (timeline : Timeline) → Decidable (Fits lib types a s timeline)
  | .stopped _ => inferInstanceAs (Decidable (_ → _ ∧ _))
  | .playing _ => inferInstanceAs (Decidable (_ → _ → _))

instance {Tape : Type} (types : EventTypes) (s : State Tape) :
    (timeline : Timeline) → Decidable (Shows types s timeline)
  | .stopped _ => inferInstanceAs (Decidable (_ ∧ _))
  | .playing _ => inferInstanceAs (Decidable (_ ∧ _))

def decideFitsAll {Tape : Type} (lib : Libspectrum Tape) (types : EventTypes) :
    (s : State Tape) → (timeline : Timeline) → (steps : List (Step Tape)) →
      Decidable (FitsAll lib types s timeline steps)
  | _, _, [] => inferInstanceAs (Decidable True)
  | s, timeline, a :: steps =>
      @instDecidableAnd (Fits lib types a s timeline) _ inferInstance
        (decideFitsAll lib types (step lib types s a) (timeline.after lib types a s _) steps)

instance {Tape : Type} (lib : Libspectrum Tape) (types : EventTypes) (s : State Tape)
    (timeline : Timeline) (steps : List (Step Tape)) :
    Decidable (FitsAll lib types s timeline steps) := decideFitsAll lib types s timeline steps

/-- Every edge takes a hundred T-states. -/
def equalEdges : Libspectrum Unit where
  present _ := true
  getNextEdge tape := ({ tstates := 100, flags := {} }, tape)
  nthBlock _ _ := none
  romBlock _ := false

def someTypes : EventTypes where
  tapeEdge := 1
  tapeMicOff := 2
  tapeEdge_registered := by decide
  micOff_other := by decide

def newDeck : State Unit where
  events := { eventList := [], eventNextEvent := eventNoEvents, added := 0 }
  tstates := 0
  tape := ()
  settings := { tapeTraps := false, rzxRecording := false, memory128 := false,
                tstatesPerFrame := 69888 }

theorem newDeck_idle : Idle someTypes newDeck :=
  ⟨⟨.nil, rfl⟩, rfl, rfl, rfl, rfl⟩

/-- A late edge, when the tape is stopped and started in one frame. -/
def stoppedLate : List (Step Unit) := [.play false, .event, .pass 105, .stop]

theorem stoppedLate_resumed :
    Shows someTypes (run equalEdges someTypes newDeck (stoppedLate ++ [.pass 50, .play false]))
      (.playing 150) :=
  have fits : FitsAll equalEdges someTypes newDeck (.stopped 0)
      (stoppedLate ++ [.pass 50, .play false]) := by decide
  (edges_on_time equalEdges someTypes newDeck newDeck_idle _).2.1 fits

/-- When it is started again two T-states into the next frame, the edge that was five late is
still to come for longer than sixty thousand frames. -/
theorem stoppedLate_lost :
    Timeline.run equalEdges someTypes newDeck (.stopped 0)
        (stoppedLate ++ [.event, .pass 69785, .frame 69888, .play false]) = .playing 69885 ∧
    (run equalEdges someTypes newDeck
        (stoppedLate ++ [.event, .pass 69785, .frame 69888, .play false])).edgeTimes someTypes =
      [69885 + 2 ^ 32] ∧
    ¬ Shows someTypes (run equalEdges someTypes newDeck
        (stoppedLate ++ [.event, .pass 69785, .frame 69888, .play false])) (.playing 69885) := by
  decide

end FuseX.Tape
