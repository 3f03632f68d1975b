import FuseX.PhantomTypist.Script

/-!
# The phantom typist performs its script

The state machine is related to a performance of the script: `Performs` says what the variables of the
typist are while it idles, waits, types a step or has been stopped, and every event that is `Allowed`
keeps it.
-/

namespace FuseX.PhantomTypist

open Lib

/-! ## Steps -/

theorem rowsRead_all (highByte : UInt8) : rowsRead 0xff highByte = 0xff := by
  unfold rowsRead
  split
  · apply UInt8.toBitVec_inj.mp
    simp only [UInt8.toBitVec_or]
    exact BitVec.allOnes_or
  · rfl

/-- The keys at the end of a frame. -/
def heldKeys (state : TypistState) (delay : Nat) : List Key :=
  if delay ≠ 0 ∨ state = .inactive ∨ state = .waiting then [] else keysOf state

/-- A frame in which the state does not change. -/
theorem frame_stays {typist : Typist} (same : typist.nextState = typist.state) :
    typist.frame =
      { typist with
        keyboardPortsRead := 0, delay := typist.delay - 1, keys := heldKeys typist.state (typist.delay - 1) } := by
  simp only [Typist.frame, Typist.change, same, Typist.updateKeyboard, heldKeys, ne_eq, not_true_eq_false,
    if_false]
  split <;> rfl

/-- A frame in which it does. -/
theorem frame_changes {typist : Typist} (changed : typist.nextState ≠ typist.state) :
    typist.frame =
      { typist with
        keyboardPortsRead := 0
        commandCount := countAfter typist.mode (typist.state, typist.commandCount)
        state := typist.nextState
        delay := (stateInfo typist.nextState).delayBeforeState - 1
        stops := if typist.nextState = .inactive then typist.stops + 1 else typist.stops
        keys := heldKeys typist.nextState ((stateInfo typist.nextState).delayBeforeState - 1) } := by
  simp only [Typist.frame, Typist.change, changed, Typist.updateKeyboard, heldKeys, ne_eq, not_false_eq_true,
    if_true, countAfter]
  split <;> rfl

/-! ## The relation -/

/-- What the variables are at a point of a performance, and what has been shown since the last activation. -/
inductive Performs : Performance → Typist → List (List Key) → Prop
  | idle {typist : Typist} {seen : List (List Key)} (state : typist.state = .inactive)
    (nextState : typist.nextState = .inactive) (delay : typist.delay = 0) (rows : typist.keyboardPortsRead = 0)
    (keys : typist.keys = []) (calls : typist.starts = typist.stops)
    (part : seen <+: visible (script typist.mode)) : Performs .idle typist seen
  | waiting {typist : Typist} (state : typist.state = .waiting)
    (nextState : typist.nextState =
      if typist.keyboardPortsRead = 0xff then firstState typist.mode else .waiting)
    (delay : typist.delay = 0) (count : typist.commandCount = 0) (keys : typist.keys = [])
    (calls : typist.starts = typist.stops + 1) :
    Performs (.waiting typist.mode typist.keyboardPortsRead) typist []
  | typing {typist : Typist} {before rest : List (TypistState × Nat)} {position : TypistState × Nat} {read : Bool}
    (place : positions typist.mode = before ++ position :: rest) (state : typist.state = position.1)
    (count : typist.commandCount = position.2) (early : read = true → typist.delay = 0)
    (nextState : typist.nextState = if read then nextOf typist.mode position.2 position.1 else position.1)
    (rows : typist.keyboardPortsRead = 0)
    (keys : typist.keys = if typist.delay = 0 then keysOf position.1 else [])
    (calls : typist.starts = typist.stops + 1) :
    Performs (.typing typist.mode ((position :: rest).map stepOf) typist.delay read) typist
      (visible (before.map stepOf) ++ if typist.delay = 0 then visible [stepOf position] else [])
  | stopped {typist : Typist} {seen : List (List Key)} (state : typist.state = .waiting)
    (nextState : typist.nextState = .inactive) (keys : typist.keys = [])
    (calls : typist.starts = typist.stops + 1) (part : seen <+: visible (script typist.mode)) :
    Performs .stopped typist seen

theorem performs_initial : Performs .idle initial [] :=
  .idle rfl rfl rfl rfl rfl rfl (List.nil_prefix)

/-- The events that the typist is made for: it is activated and reset while it is inactive, and no read
completes the half rows after a deactivation in the same frame. -/
def Allowed (typist : Typist) : Event → Prop
  | .ulaRead port =>
    ¬(typist.state = .waiting ∧ typist.nextState = .inactive ∧ typist.delay = 0 ∧
      rowsRead typist.keyboardPortsRead (port >>> 8).toUInt8 = 0xff)
  | .activate _ _ _ | .activateDisk | .reset => typist.isActive = false
  | .frame | .deactivate => True

/-! ## The places of a script -/

theorem leads_tail {mode : Mode} {before after : List (TypistState × Nat)} (nonempty : after ≠ [])
    (leading : leads mode (before ++ after) = true) : leads mode after = true := by
  induction before with
  | nil => exact leading
  | cons position before ih =>
    cases whole : before ++ after with
    | nil => exact absurd (List.append_eq_nil_iff.mp whole).2 nonempty
    | cons next rest =>
      rw [List.cons_append, whole] at leading
      simp only [leads, decide_eq_true_eq] at leading
      rw [whole] at ih
      exact ih leading.2

section Place

variable {mode : Mode} {before rest : List (TypistState × Nat)} {position next : TypistState × Nat}

theorem place_leads (place : positions mode = before ++ position :: rest) :
    leads mode (position :: rest) = true := by
  apply leads_tail (List.cons_ne_nil position rest)
  rw [← place]
  exact positions_leads mode

theorem place_active (place : positions mode = before ++ position :: rest) :
    position.1 ≠ .inactive ∧ position.1 ≠ .waiting := by
  have leading := place_leads place
  cases rest with
  | nil =>
    simp only [leads, decide_eq_true_eq] at leading
    exact ⟨leading.1, leading.2.1⟩
  | cons next rest =>
    simp only [leads, decide_eq_true_eq] at leading
    exact ⟨leading.1.1, leading.1.2.1⟩

theorem place_last (place : positions mode = before ++ [position]) :
    nextOf mode position.2 position.1 = .inactive := by
  have leading := place_leads place
  simp only [leads, decide_eq_true_eq] at leading
  exact leading.2.2

theorem place_next (place : positions mode = before ++ position :: next :: rest) :
    nextOf mode position.2 position.1 = next.1 ∧ next.1 ≠ position.1 ∧ next.2 = countAfter mode position ∧
      (1 < (stepOf next).delay ∨ keysOf next.1 ≠ keysOf position.1) := by
  have leading := place_leads place
  simp only [leads, decide_eq_true_eq] at leading
  obtain ⟨⟨-, -, leadsTo, different, -, counted, apart⟩, -⟩ := leading
  exact ⟨leadsTo, different, counted, apart⟩

/-- What has been shown at a place is a part of the script. -/
theorem place_shown (place : positions mode = before ++ position :: rest) (delay : Nat) :
    visible (before.map stepOf) ++ (if delay = 0 then visible [stepOf position] else []) <+:
      visible (script mode) := by
  have whole : visible (script mode) =
      visible (before.map stepOf) ++ (visible [stepOf position] ++ visible (rest.map stepOf)) := by
    rw [script_positions, place]
    simp [visible, List.filter_cons]
    split <;> rfl
  rw [whole]
  apply (List.prefix_append_right_inj _).mpr
  split
  · exact List.prefix_append _ _
  · exact List.nil_prefix

end Place

theorem positions_first (mode : Mode) :
    ∃ rest, positions mode = (firstState mode, 0) :: rest := by
  cases mode <;> exact ⟨_, rfl⟩

/-! ## One event -/

section Step

variable {performance : Performance} {typist : Typist} {seen : List (List Key)}

/-- Keys that did not change, or are none, are not shown anew. -/
theorem showStep_same {event : Event} (plain : event.activates = false)
    (same : (typist.step event).keys = typist.keys ∨ (typist.step event).keys = []) :
    (showStep (typist, seen) event).2 = seen := by
  simp only [showStep, plain, Bool.false_eq_true, if_false]
  rcases same with same | released
  · simp [same]
  · simp [released]

theorem performs_activated {mode : Mode} (performs : Performs performance typist seen)
    (inactive : typist.isActive = false) :
    Performs (.waiting mode 0) (typist.setStateWaiting mode) [] := by
  have state : typist.state = .inactive := by simpa [Typist.isActive] using inactive
  cases performs with
  | idle _ _ delay rows _ calls _ =>
    have waiting := @Performs.waiting (typist.setStateWaiting mode) rfl
      (by simp [Typist.setStateWaiting, rows]) delay rfl rfl (congrArg (· + 1) calls)
    rw [show (typist.setStateWaiting mode).keyboardPortsRead = 0 from rows] at waiting
    exact waiting
  | waiting waiting => exact absurd (waiting.symm.trans state) (by decide)
  | typing place current => exact absurd (current.symm.trans state) (place_active place).1
  | stopped waiting => exact absurd (waiting.symm.trans state) (by decide)

theorem performs_reset (performs : Performs performance typist seen) (inactive : typist.isActive = false) :
    Performs .idle typist.reset seen := by
  have state : typist.state = .inactive := by simpa [Typist.isActive] using inactive
  cases performs with
  | idle _ _ delay rows _ calls part => exact .idle rfl rfl delay rows rfl calls part
  | waiting waiting => exact absurd (waiting.symm.trans state) (by decide)
  | typing place current => exact absurd (current.symm.trans state) (place_active place).1
  | stopped waiting => exact absurd (waiting.symm.trans state) (by decide)

theorem performs_deactivated (performs : Performs performance typist seen) :
    Performs performance.stop typist.deactivate seen := by
  cases performs with
  | idle state nextState delay rows keys calls part =>
    have still : typist.deactivate = typist := by simp [Typist.deactivate, Typist.isActive, state]
    rw [still]
    exact .idle state nextState delay rows keys calls part
  | waiting state _ _ _ _ calls =>
    have stopping : typist.deactivate = { typist with state := .waiting, nextState := .inactive, keys := [] } := by
      simp [Typist.deactivate, Typist.isActive, state]
    rw [stopping]
    exact .stopped rfl rfl rfl calls List.nil_prefix
  | typing place state _ _ _ _ _ calls =>
    have stopping : typist.deactivate = { typist with state := .waiting, nextState := .inactive, keys := [] } := by
      simp [Typist.deactivate, Typist.isActive, state, (place_active place).1]
    rw [stopping]
    exact .stopped rfl rfl rfl calls (place_shown place typist.delay)
  | stopped state _ _ calls part =>
    have stopping : typist.deactivate = { typist with state := .waiting, nextState := .inactive, keys := [] } := by
      simp [Typist.deactivate, Typist.isActive, state]
    rw [stopping]
    exact .stopped rfl rfl rfl calls part

theorem performs_read {port : UInt16} (performs : Performs performance typist seen)
    (allowed : Allowed typist (.ulaRead port)) :
    Performs (performance.read port) (typist.ulaRead port) seen := by
  cases performs with
  | idle state nextState delay rows keys calls part =>
    have same : typist.ulaRead port = typist := by simp [Typist.ulaRead, delay, state]
    rw [same]
    exact .idle state nextState delay rows keys calls part
  | waiting state nextState delay count keys calls =>
    have reads : typist.ulaRead port = typist.processWaitingState (port >>> 8).toUInt8 := by
      simp [Typist.ulaRead, delay, state]
    rw [reads]
    simp only [Performance.read, Typist.processWaitingState]
    split
    · next all =>
      rw [all]
      exact @Performs.waiting { typist with keyboardPortsRead := 0xff, nextState := firstState typist.mode }
        state rfl delay count keys calls
    · next missing =>
      -- the rows were not all read before, for then they still would be
      have before : typist.keyboardPortsRead ≠ 0xff := by
        intro all
        exact missing (all ▸ rowsRead_all _)
      rw [if_neg before] at nextState
      exact @Performs.waiting
        { typist with keyboardPortsRead := rowsRead typist.keyboardPortsRead (port >>> 8).toUInt8 }
        state (by simp [missing, nextState]) delay count keys calls
  | @typing _ before rest position read place state count early nextState rows keys calls =>
    have active := place_active place
    by_cases delayed : typist.delay = 0
    · have reads : typist.ulaRead port = typist.processState := by
        simp only [Typist.ulaRead, delayed, ne_eq, not_true_eq_false, if_false, state]
        revert active
        cases position.1 <;> simp
      rw [reads]
      have typing := @Performs.typing typist.processState before rest position true place state count
        (fun _ => delayed) (by simp [Typist.processState, state, count]) rows keys calls
      have shows : typist.processState.delay = typist.delay := rfl
      rw [shows, delayed] at typing
      rw [delayed]
      exact typing
    · have same : typist.ulaRead port = typist := by simp [Typist.ulaRead, delayed]
      have unread : Performance.read port (.typing typist.mode ((position :: rest).map stepOf) typist.delay read) =
          .typing typist.mode ((position :: rest).map stepOf) typist.delay read := by
        cases waits : typist.delay with
        | zero => exact absurd waits delayed
        | succ wait => rfl
      rw [same, unread]
      exact .typing place state count early nextState rows keys calls
  | stopped state nextState keys calls part =>
    have still : (typist.ulaRead port).state = .waiting ∧ (typist.ulaRead port).nextState = .inactive ∧
        (typist.ulaRead port).keys = [] ∧ (typist.ulaRead port).starts = (typist.ulaRead port).stops + 1 ∧
        (typist.ulaRead port).mode = typist.mode := by
      by_cases delayed : typist.delay = 0
      · have missing : rowsRead typist.keyboardPortsRead (port >>> 8).toUInt8 ≠ 0xff :=
          fun all => allowed ⟨state, nextState, delayed, all⟩
        simp [Typist.ulaRead, delayed, state, Typist.processWaitingState, missing, nextState, keys, calls]
      · simp [Typist.ulaRead, delayed, state, nextState, keys, calls]
    obtain ⟨state', nextState', keys', calls', mode'⟩ := still
    exact .stopped state' nextState' keys' calls' (by rw [mode']; exact part)

/-- A step of the script begins at the end of a frame. -/
theorem performs_begin {before rest : List (TypistState × Nat)} {next : TypistState × Nat}
    (place : positions typist.mode = before ++ next :: rest) (nextState : typist.nextState = next.1)
    (changed : next.1 ≠ typist.state)
    (counted : next.2 = countAfter typist.mode (typist.state, typist.commandCount))
    (apart : 1 < (stepOf next).delay ∨ keysOf next.1 ≠ typist.keys ∨ keysOf next.1 = [])
    (calls : typist.starts = typist.stops + 1) (whole : seen = visible (before.map stepOf)) :
    Performs (.begin typist.mode ((next :: rest).map stepOf)) typist.frame
      (showStep (typist, seen) .frame).2 := by
  obtain ⟨active, awake⟩ := place_active place
  have after := @frame_changes typist (nextState ▸ changed)
  rw [nextState] at after
  rw [if_neg active, ← counted] at after
  have held : typist.frame.keys = if typist.frame.delay = 0 then keysOf next.1 else [] := by
    rw [after]
    by_cases waits : (stateInfo next.1).delayBeforeState - 1 = 0
    · simp [heldKeys, waits, active, awake]
    · simp [heldKeys, waits]
  have typing := @Performs.typing typist.frame before rest next false (by rw [after]; exact place)
    (by rw [after]) (by rw [after]) (by simp) (by rw [after]; simp) (by rw [after]) held
    (by rw [after]; exact calls)
  have shows : (showStep (typist, seen) .frame).2 =
      visible (before.map stepOf) ++ if typist.frame.delay = 0 then visible [stepOf next] else [] := by
    simp only [showStep, Event.activates, Bool.false_eq_true, if_false, Typist.step, held, whole]
    have wait : typist.frame.delay = (stepOf next).delay - 1 := by
      rw [after]
      rfl
    by_cases shown : typist.frame.delay = 0
    · have fresh : keysOf next.1 ≠ typist.keys ∨ keysOf next.1 = [] := by
        rcases apart with slow | fresh
        · omega
        · exact fresh
      rcases fresh with fresh | silent
      · simp [shown, fresh, visible, stepOf, List.filter_cons]
        split <;> simp_all
      · simp [shown, silent, visible, stepOf]
    · simp [shown]
  rw [shows]
  have mode : typist.frame.mode = typist.mode := by rw [after]
  have delay : typist.frame.delay = (stepOf next).delay - 1 := by rw [after]; rfl
  rw [mode] at typing
  show Performs (.typing typist.mode ((next :: rest).map stepOf) ((stepOf next).delay - 1) false) typist.frame _
  rw [← delay]
  exact typing

theorem performs_frame (performs : Performs performance typist seen) :
    Performs performance.frame typist.frame (showStep (typist, seen) .frame).2 := by
  cases performs with
  | idle state nextState delay rows keys calls part =>
    have after := @frame_stays typist (nextState.trans state.symm)
    have released : typist.frame.keys = [] := by simp [after, heldKeys, state]
    rw [@showStep_same typist seen .frame rfl (.inr released)]
    rw [after] at released ⊢
    exact .idle state nextState (by simp [delay]) rfl released calls part
  | waiting state nextState delay count keys calls =>
    by_cases all : typist.keyboardPortsRead = 0xff
    · obtain ⟨rest, places⟩ := positions_first typist.mode
      rw [if_pos all] at nextState
      simp only [Performance.frame, all, if_true]
      rw [script_positions, places]
      apply @performs_begin typist [] [] rest _ places nextState
      · rw [state]
        exact (@place_active typist.mode [] rest _ places).2
      · simp [countAfter, state, count]
      · rw [keys]
        exact .inr (ne_or_eq _ _)
      · exact calls
      · rfl
    · rw [if_neg all] at nextState
      have after := @frame_stays typist (nextState.trans state.symm)
      have released : typist.frame.keys = [] := by simp [after, heldKeys, state]
      rw [@showStep_same typist [] .frame rfl (.inr released)]
      simp only [Performance.frame, all, if_false]
      rw [after] at released ⊢
      exact @Performs.waiting
        { typist with
          keyboardPortsRead := 0, delay := typist.delay - 1, keys := heldKeys typist.state (typist.delay - 1) }
        state (by simp [nextState]) (by simp [delay]) count released calls
  | @typing _ before rest position read place state count early nextState rows keys calls =>
    cases read with
    | false =>
      -- the step goes on, and its keys appear when the delay is over
      have after := @frame_stays typist (nextState.trans state.symm)
      have delay : typist.frame.delay = typist.delay - 1 := by rw [after]
      have held : typist.frame.keys = if typist.frame.delay = 0 then keysOf position.1 else [] := by
        rw [after]
        obtain ⟨active, awake⟩ := place_active place
        by_cases waits : typist.delay - 1 = 0
        · simp [heldKeys, waits, state, active, awake]
        · simp [heldKeys, waits]
      have typing := @Performs.typing typist.frame before rest position false (by rw [after]; exact place)
        (by rw [after]; exact state) (by rw [after]; exact count) (by simp) (by rw [after]; simp [nextState])
        (by rw [after]) held (by rw [after]; exact calls)
      have mode : typist.frame.mode = typist.mode := by rw [after]
      have goesOn : Performance.frame (.typing typist.mode ((position :: rest).map stepOf) typist.delay false) =
          .typing typist.mode ((position :: rest).map stepOf) (typist.delay - 1) false := by
        cases typist.delay <;> rfl
      rw [mode, delay] at typing
      rw [delay] at held
      rw [goesOn]
      refine Eq.subst (motive := fun seen => Performs _ _ seen) ?_ typing
      simp only [showStep, Event.activates, Bool.false_eq_true, if_false, Typist.step, held, keys]
      by_cases now : typist.delay = 0
      · simp [now]
      · by_cases soon : typist.delay - 1 = 0
        · by_cases silent : keysOf position.1 = []
          · simp [now, soon, silent, visible, stepOf]
          · simp [now, soon, silent, visible, stepOf]
        · simp [now, soon]
    | true =>
      have now := early rfl
      rw [if_pos now] at keys
      simp only [if_true] at nextState
      rw [now, if_pos rfl]
      cases rest with
      | nil =>
        have ending := nextState.trans (place_last place)
        have changed : typist.nextState ≠ typist.state := by
          rw [ending, state]
          exact (place_active place).1.symm
        have after := frame_changes changed
        simp only [ending, if_true] at after
        have released : typist.frame.keys = [] := by simp [after, heldKeys]
        rw [@showStep_same typist _ .frame rfl (.inr released)]
        rw [after] at released ⊢
        have part := place_shown place 0
        rw [if_pos rfl] at part
        exact .idle rfl rfl rfl rfl released (by simp [calls]) part
      | cons next rest =>
        obtain ⟨leadsTo, different, counted, apart⟩ := place_next place
        have onwards : positions typist.mode = (before ++ [position]) ++ next :: rest := by
          rw [place, List.append_assoc, List.singleton_append]
        apply performs_begin onwards (nextState.trans leadsTo)
        · rw [state]
          exact different
        · rw [counted, state, count]
        · rw [keys]
          rcases apart with slow | fresh
          · exact .inl slow
          · exact .inr (.inl fresh)
        · exact calls
        · simp [visible]
  | stopped state nextState keys calls part =>
    have changed : typist.nextState ≠ typist.state := by
      rw [nextState, state]
      decide
    have after := frame_changes changed
    simp only [nextState, if_true] at after
    have released : typist.frame.keys = [] := by simp [after, heldKeys]
    rw [@showStep_same typist seen .frame rfl (.inr released)]
    rw [after] at released ⊢
    exact .idle rfl rfl rfl rfl released (by simp [calls]) part

theorem performs_step {event : Event} (performs : Performs performance typist seen)
    (allowed : Allowed typist event) :
    Performs (performance.step event) (typist.step event) (showStep (typist, seen) event).2 := by
  cases event with
  | ulaRead port =>
    have kept : (typist.ulaRead port).keys = typist.keys := by
      simp only [Typist.ulaRead, Typist.processWaitingState, Typist.processState]
      repeat' split
      all_goals rfl
    rw [@showStep_same typist seen (.ulaRead port) rfl (.inl kept)]
    exact performs_read performs allowed
  | frame => exact performs_frame performs
  | activate setting machine needsCode => exact performs_activated performs allowed
  | activateDisk => exact performs_activated performs allowed
  | deactivate =>
    have quiet : typist.deactivate.keys = typist.keys ∨ typist.deactivate.keys = [] := by
      unfold Typist.deactivate
      split
      · exact .inr rfl
      · exact .inl rfl
    rw [@showStep_same typist seen .deactivate rfl quiet]
    exact performs_deactivated performs
  | reset =>
    rw [@showStep_same typist seen .reset rfl (.inr rfl)]
    exact performs_reset performs allowed

end Step

/-! ## Runs -/

instance (typist : Typist) (event : Event) : Decidable (Allowed typist event) :=
  match event with
  | .ulaRead _ => inferInstanceAs (Decidable (¬_))
  | .activate _ _ _ | .activateDisk | .reset => inferInstanceAs (Decidable (_ = false))
  | .frame | .deactivate => inferInstanceAs (Decidable True)

/-- The typist after the events, which are all allowed. -/
def RunTo (events : List Event) (typist : Typist) : Prop :=
  Runs (fun typist event => some (typist.step event)) Allowed initial events typist

theorem performs_runTo {events : List Event} {typist : Typist} (run : RunTo events typist) :
    Performs (perform events) typist (shown events) ∧ (events.foldl showStep (initial, [])).1 = typist := by
  unfold RunTo at run
  induction run with
  | nil => exact ⟨performs_initial, rfl⟩
  | @snoc events before after event _ allowed stepEq ih =>
    obtain ⟨performs, seen⟩ := ih
    obtain rfl : before.step event = after := Option.some.inj stepEq
    have stepped := performs_step performs allowed
    have pair : events.foldl showStep (initial, []) = (before, shown events) := by
      rw [← seen]
      rfl
    unfold perform shown
    rw [List.foldl_append, List.foldl_append, pair]
    exact ⟨stepped, rfl⟩

/-- What is known at a point of a performance. -/
theorem performs_known {performance : Performance} {typist : Typist} {seen : List (List Key)}
    (performs : Performs performance typist seen) :
    typist.keys = performance.keys ∧ seen <+: visible (script typist.mode) ∧
      typist.starts = typist.stops + if typist.isActive then 1 else 0 := by
  cases performs with
  | idle state _ _ _ keys calls part => exact ⟨keys, part, by simp [Typist.isActive, state, calls]⟩
  | waiting state _ _ _ keys calls =>
    exact ⟨keys, List.nil_prefix, by simp [Typist.isActive, state, calls]⟩
  | @typing _ _ rest position read place state _ _ _ _ keys calls =>
    refine ⟨?_, place_shown place _, ?_⟩
    · rw [keys]
      cases typist.delay <;> rfl
    · simp [Typist.isActive, state, (place_active place).1, calls]
  | stopped state _ keys calls part => exact ⟨keys, part, by simp [Typist.isActive, state, calls]⟩

/-- A performance that idles or has been stopped. -/
def Performance.through : Performance → Prop
  | .idle | .stopped => True
  | _ => False

theorem through_step {performance : Performance} {event : Event} (through : performance.through)
    (plain : event.activates = false) : (performance.step event).through := by
  cases performance with
  | idle =>
    cases event with
    | activate | activateDisk => exact absurd plain Bool.noConfusion
    | ulaRead | frame | deactivate | reset => exact True.intro
  | stopped =>
    cases event with
    | activate | activateDisk => exact absurd plain Bool.noConfusion
    | ulaRead | frame | deactivate | reset => exact True.intro
  | waiting | typing => exact through.elim

theorem through_perform {front back : List Event} (through : (perform front).through)
    (plain : ∀ event ∈ back, event.activates = false) : (perform (front ++ back)).through := by
  induction back using List.reverseRec with
  | nil => rwa [List.append_nil]
  | append_singleton back event ih =>
    have before := ih fun event among => plain event (List.mem_append_left _ among)
    have stepped := through_step before (plain event (by simp))
    rw [← List.append_assoc]
    unfold perform at stepped ⊢
    rwa [List.foldl_append]

theorem runTo_run {events : List Event} {typist : Typist} (run : RunTo events typist) :
    PhantomTypist.run events = typist := by
  unfold RunTo at run
  induction run with
  | nil => rfl
  | snoc _ _ stepEq ih =>
    unfold PhantomTypist.run at ih ⊢
    rw [List.foldl_append, ih]
    exact Option.some.inj stepEq

theorem runTo_front {front back : List Event} {typist : Typist} (run : RunTo (front ++ back) typist) :
    ∃ middle, RunTo front middle := by
  induction back using List.reverseRec generalizing typist with
  | nil => exact ⟨typist, by rwa [List.append_nil] at run⟩
  | append_singleton back event ih =>
    rw [← List.append_assoc] at run
    obtain ⟨before, shorter, -⟩ := run.of_snoc
    exact ih shorter

/-- The keys held down are those of the performance that the events make; what has been shown since the last
activation begins the script of the mode; no key is held down from a deactivation, the end or a reset until
the next activation; and the calls of the timer match. -/
structure Scripted (events : List Event) (typist : Typist) : Prop where
  held : typist.keys = (perform events).keys
  part : shown events <+: visible (script typist.mode)
  quiet : ∀ front back, events = front ++ back →
    (∃ earlier, front = earlier ++ [.deactivate]) ∨ (run front).isActive = false →
    (∀ event ∈ back, event.activates = false) → typist.keys = []
  matched : typist.starts = typist.stops + if typist.isActive then 1 else 0

theorem through_keys {performance : Performance} (through : performance.through) : performance.keys = [] := by
  cases performance with
  | idle | stopped => rfl
  | waiting | typing => exact through.elim

theorem through_inactive {performance : Performance} {typist : Typist} {seen : List (List Key)}
    (performs : Performs performance typist seen) (inactive : typist.isActive = false) : performance.through := by
  have state : typist.state = .inactive := by simpa [Typist.isActive] using inactive
  cases performs with
  | idle | stopped => exact True.intro
  | waiting waiting => exact absurd (waiting.symm.trans state) (by decide)
  | typing place current => exact absurd (current.symm.trans state) (place_active place).1

theorem through_stop (performance : Performance) : performance.stop.through := by
  cases performance <;> exact True.intro

/-- In every run of allowed events the typist performs the script. -/
theorem performs_run {events : List Event} {typist : Typist} (run : RunTo events typist) :
    Scripted events typist := by
  obtain ⟨performs, -⟩ := performs_runTo run
  obtain ⟨held, part, matched⟩ := performs_known performs
  refine ⟨held, part, ?_, matched⟩
  rintro front back rfl ended plain
  have through : (perform front).through := by
    rcases ended with ⟨earlier, rfl⟩ | inactive
    · unfold perform
      rw [List.foldl_append]
      exact through_stop _
    · obtain ⟨middle, front'⟩ := runTo_front run
      rw [runTo_run front'] at inactive
      exact through_inactive (performs_runTo front').1 inactive
  rw [held]
  exact through_keys (through_perform through plain)

/-- The machine reads all the half rows. -/
def readsAll : List Event :=
  [0xfefe, 0xfdfe, 0xfbfe, 0xf7fe, 0xeffe, 0xdffe, 0xbffe, 0x7ffe].map .ulaRead

/-- A disk is loaded, up to the frame that shows Enter. -/
def diskLoad : List Event :=
  .activateDisk :: readsAll ++ [.frame, .frame, .frame]

theorem performs_run_disk : (run diskLoad).keys = [.enter] ∧ Scripted diskLoad (run diskLoad) :=
  ⟨rfl, performs_run (.of_guarded rfl)⟩

/-- It is deactivated after the half rows have been read, and one is read once more in the frame. -/
def rearmed : List Event :=
  .activateDisk :: readsAll ++ [.deactivate, .ulaRead 0xfefe, .frame, .frame, .frame]

/-- The typist types after a deactivation, and a reset leaves a start without its stop. -/
theorem not_scripted :
    ¬Scripted rearmed (run rearmed) ∧ ¬Scripted [.activateDisk, .reset] (run [.activateDisk, .reset]) := by
  constructor
  · intro scripted
    have silent := scripted.quiet (.activateDisk :: readsAll ++ [.deactivate])
      [.ulaRead 0xfefe, .frame, .frame, .frame] rfl (.inl ⟨_, rfl⟩) (by decide)
    exact absurd silent (by decide)
  · intro scripted
    exact absurd scripted.matched (by decide)

end FuseX.PhantomTypist
