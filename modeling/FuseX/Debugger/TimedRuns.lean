import FuseX.Lib.Balanced
import FuseX.Lib.Runs
import FuseX.Debugger.TimedBreakpoints

/-!
# Runs with timed breakpoints

Each timed breakpoint that has not triggered should have its event, or it will never
trigger again. This is so in every run in which no hit is ignored and the debugger is not
halted when an event is due or a frame ends (`breakpoints_kept`). A hit that is ignored uses
up the event, and neither the hit nor the end of the frame adds another one
(`breakpoints_lost`).
-/

namespace FuseX.Debugger

open Lib

/-! ## What should hold -/

/-- Between frames, each timed breakpoint that has not triggered has one event at its time. In
the middle of a frame none is late, and each that starts again with the frame has stopped
the emulator in each frame. -/
structure Kept (m : Machine) (s : State) : Prop where
  armed : s.between = true → ∀ time ∈ s.waiting, s.pending.count time = s.waiting.count time
  onTime : (∀ time ∈ s.pending, s.tstates < time.toNat) → s.tstates < m.tstatesPerFrame.toNat →
    ∀ time ∈ s.waiting, s.tstates < time.toNat
  everyFrame : ∀ bp ∈ s.breakpoints, bp.life = .permanent → bp.conditional = false →
    ∀ time, bp.time = some time → time.initialTstates ≤ m.tstatesPerFrame →
      ∀ f, bp.since ≤ f → f < s.frame → (f, bp.serial) ∈ s.hits

/-- A hit finds the debugger active and is not ignored; events that are left over are at no
time that a breakpoint is given. -/
def Steady (m : Machine) (s : State) : Act → Prop
  | .add (some time) _ _ _ => time ∈ s.pending → time ∈ s.waiting
  | .remove id => ∀ bp ∈ s.breakpoints.find? (·.id = id), ∀ time ∈ bp.time,
      time.triggered = true → time.tstates ∉ s.pending
  | .event _ => s.removePending = false → ∀ bp ∈ s.breakpoints, bp.due s.tstates = true →
      s.mode ≠ .halted ∧ bp.ignore = 0 ∧ ∀ time ∈ bp.time, time.tstates ≤ m.tstatesPerFrame
  | .frameEnd _ => (s.waiting = [] ∨ s.mode = .active) ∧
      ∀ bp ∈ s.breakpoints, ∀ time ∈ bp.time, time.triggered = true →
        time.initialTstates ∈ s.pending.map (· - m.tstatesPerFrame) →
        time.initialTstates ∈ s.waiting.map (· - m.tstatesPerFrame)
  | _ => True

/-! ## Breakpoints that wait -/

/-- The times of those that wait. -/
def waitingOf (breakpoints : List Breakpoint) : List UInt32 := breakpoints.filterMap (·.waiting)

@[simp] theorem waitingOf_nil : waitingOf [] = [] := rfl

@[simp] theorem waitingOf_cons (bp : Breakpoint) (rest : List Breakpoint) :
    waitingOf (bp :: rest) = bp.waiting.toList ++ waitingOf rest := by
  unfold waitingOf
  rw [List.filterMap_cons]
  cases bp.waiting <;> rfl

@[simp] theorem waitingOf_append (front back : List Breakpoint) :
    waitingOf (front ++ back) = waitingOf front ++ waitingOf back :=
  List.filterMap_append

theorem waiting_of_due {bp : Breakpoint} {tstates : Nat} (due : bp.due tstates = true) :
    ∃ time, bp.time = some time ∧ bp.waiting = some time.tstates ∧
      time.tstates.toNat ≤ tstates := by
  unfold Breakpoint.due at due
  cases timeEq : bp.time with
  | none => simp [timeEq] at due
  | some time =>
    simp only [timeEq, Bool.and_eq_true, Bool.not_eq_true', decide_eq_true_eq] at due
    refine ⟨time, rfl, ?_, due.2⟩
    simp [Breakpoint.waiting, timeEq, due.1]

theorem due_of_waiting {bp : Breakpoint} {tstates : Nat} {time : UInt32}
    (waiting : bp.waiting = some time) (notDue : ¬ bp.due tstates = true) :
    tstates < time.toNat := by
  unfold Breakpoint.waiting at waiting
  cases timeEq : bp.time with
  | none => simp [timeEq] at waiting
  | some value =>
    by_cases triggered : value.triggered = true
    · simp [timeEq, triggered] at waiting
    · obtain rfl : value.tstates = time := by simpa [timeEq, triggered] using waiting
      simpa [Breakpoint.due, timeEq, triggered] using notDue

@[simp] theorem setTriggered_waiting (bp : Breakpoint) : bp.setTriggered.waiting = none := by
  unfold Breakpoint.waiting Breakpoint.setTriggered
  cases bp.time <;> rfl

theorem trigger_of_ready {bp : Breakpoint} {holds : Bool} (ready : bp.ignore = 0) :
    bp.trigger holds = (bp.setTriggered, !bp.conditional || holds) := by
  unfold Breakpoint.trigger
  rw [if_neg (not_not_intro ready)]

/-! ## The scan -/

/-- Not late: at most the horizon. -/
def early (horizon : Nat) (time : UInt32) : Bool := decide (time.toNat ≤ horizon)

/-- A scan takes one at least of those that are due, and leaves the others. -/
structure Scanned (horizon : Nat) (before after : List Breakpoint) : Prop where
  late : ∀ time : UInt32, horizon < time.toNat →
    (waitingOf after).count time = (waitingOf before).count time
  due : (waitingOf after).countP (early horizon) ≤ (waitingOf before).countP (early horizon) - 1

theorem Scanned.cons_far {horizon : Nat} {bp : Breakpoint} {before after : List Breakpoint}
    (scanned : Scanned horizon before after)
    (far : ∀ time, bp.waiting = some time → early horizon time = false) :
    Scanned horizon (bp :: before) (bp :: after) where
  late time late := by
    simp only [waitingOf_cons, List.count_append, scanned.late time late]
  due := by
    have due := scanned.due
    cases waiting : bp.waiting with
    | none => simpa [waiting] using due
    | some time => simpa [waiting, far time waiting] using due

/-- The first one is taken, and it may be that others are as well. -/
theorem Scanned.cons_due {horizon : Nat} {bp : Breakpoint} {kept before after : List Breakpoint}
    {time : UInt32} (scanned : Scanned horizon before after ∨ after = before)
    (waiting : bp.waiting = some time) (soon : time.toNat ≤ horizon)
    (taken : waitingOf kept = []) : Scanned horizon (bp :: before) (kept ++ after) := by
  have first : early horizon time = true := decide_eq_true soon
  constructor
  · intro other late
    have different : time ≠ other := by
      rintro rfl
      omega
    have same : (waitingOf after).count other = (waitingOf before).count other := by
      rcases scanned with scanned | rfl
      · exact scanned.late other late
      · rfl
    simp [taken, waiting, same, different]
  · have less : (waitingOf after).countP (early horizon) ≤
        (waitingOf before).countP (early horizon) := by
      rcases scanned with scanned | rfl
      · exact Nat.le_trans scanned.due (Nat.sub_le _ _)
      · exact le_rfl
    simpa [taken, waiting, first] using less

theorem scan_due {gdbserver : Bool} {tstates horizon : Nat} {holds : Nat → Bool}
    (near : horizon ≤ tstates) (breakpoints : List Breakpoint)
    (ready : ∀ bp ∈ breakpoints, bp.due tstates = true →
      bp.ignore = 0 ∧ ∀ time ∈ bp.time, time.tstates.toNat ≤ horizon) :
    Scanned horizon breakpoints (scan gdbserver (·.due tstates) holds breakpoints).1 := by
  induction breakpoints with
  | nil => exact ⟨fun _ _ => rfl, Nat.zero_le _⟩
  | cons bp rest ih =>
    have rest' := ih fun other member => ready other (List.mem_cons_of_mem _ member)
    rw [scan]
    split
    next due =>
      obtain ⟨ignore, soon⟩ := ready bp List.mem_cons_self due
      obtain ⟨time, timeEq, waiting, -⟩ := waiting_of_due due
      have taken : waitingOf [bp.setTriggered] = [] := by simp
      have kept : waitingOf (if bp.life = .oneShot then [] else [bp.setTriggered]) = [] := by
        split
        · rfl
        · exact taken
      rw [trigger_of_ready ignore]
      dsimp only
      split
      · split
        · exact .cons_due (.inr rfl) waiting (soon time timeEq) kept
        · exact .cons_due (.inl rest') waiting (soon time timeEq) kept
      · exact .cons_due (.inl rest') waiting (soon time timeEq) taken
    next notDue =>
      refine rest'.cons_far fun time waiting => ?_
      have later := due_of_waiting waiting notDue
      exact decide_eq_false (by omega)

/-- What a scan leaves was there before, or is one that has triggered and, without a
condition, has stopped the emulator. -/
theorem scan_mem {gdbserver : Bool} {tstates : Nat} {holds : Nat → Bool}
    (breakpoints : List Breakpoint)
    (ready : ∀ bp ∈ breakpoints, bp.due tstates = true → bp.ignore = 0) :
    ∀ bp ∈ (scan gdbserver (·.due tstates) holds breakpoints).1, bp ∈ breakpoints ∨
      ∃ before ∈ breakpoints, bp = before.setTriggered ∧ (before.conditional = false →
        before.serial ∈ (scan gdbserver (·.due tstates) holds breakpoints).2) := by
  induction breakpoints with
  | nil => exact nofun
  | cons first rest ih =>
    have rest' := ih fun other member => ready other (List.mem_cons_of_mem _ member)
    have later : ∀ bp ∈ (scan gdbserver (·.due tstates) holds rest).1, ∀ hits : List Nat,
        (∀ serial ∈ (scan gdbserver (·.due tstates) holds rest).2, serial ∈ hits) →
        bp ∈ first :: rest ∨ ∃ before ∈ first :: rest, bp = before.setTriggered ∧
          (before.conditional = false → before.serial ∈ hits) := by
      intro bp member hits all
      rcases rest' bp member with same | ⟨before, there, rfl, stops⟩
      · exact .inl (List.mem_cons_of_mem _ same)
      · exact .inr ⟨before, List.mem_cons_of_mem _ there, rfl, fun plain => all _ (stops plain)⟩
    rw [scan]
    split
    next due =>
      rw [trigger_of_ready (ready first List.mem_cons_self due)]
      dsimp only
      have here : ∀ bp, ∀ hits : List Nat, bp = first.setTriggered →
          (first.conditional = false → first.serial ∈ hits) →
          bp ∈ first :: rest ∨ ∃ before ∈ first :: rest, bp = before.setTriggered ∧
            (before.conditional = false → before.serial ∈ hits) :=
        fun bp hits same stops => .inr ⟨first, List.mem_cons_self, same, stops⟩
      have kept : ∀ bp ∈ (if first.life = .oneShot then [] else [first.setTriggered]),
          bp = first.setTriggered := by
        intro bp member
        split at member
        · cases member
        · exact List.mem_singleton.mp member
      split
      · split
        · intro bp member
          rcases List.mem_append.mp member with member | member
          · exact here bp _ (kept bp member) fun _ => List.mem_cons_self
          · exact .inl (List.mem_cons_of_mem _ member)
        · intro bp member
          rcases List.mem_append.mp member with member | member
          · exact here bp _ (kept bp member) fun _ => List.mem_cons_self
          · exact later bp member _ fun serial there => List.mem_cons_of_mem _ there
      next stays =>
        intro bp member
        rcases List.mem_cons.mp member with same | member
        · refine here bp _ same fun plain => absurd ?_ stays
          rw [plain]
          rfl
        · exact later bp member _ fun serial there => there
    · intro bp member
      rcases List.mem_cons.mp member with rfl | member
      · exact .inl List.mem_cons_self
      · exact later bp member _ fun serial there => there

theorem waiting_of_other {bp : Breakpoint} (other : bp.time = none) : bp.waiting = none := by
  unfold Breakpoint.waiting
  rw [other]

theorem trigger_other {bp : Breakpoint} (holds : Bool) (other : bp.time = none) :
    (bp.trigger holds).1.time = none := by
  unfold Breakpoint.trigger
  split
  · exact other
  · simp [Breakpoint.setTriggered, other]

/-- A look at breakpoints of other types. -/
theorem scan_other (gdbserver : Bool) {isHit : Breakpoint → Bool} (holds : Nat → Bool)
    (other : ∀ bp, isHit bp = true → bp.time = none) (breakpoints : List Breakpoint) :
    waitingOf (scan gdbserver isHit holds breakpoints).1 = waitingOf breakpoints ∧
      ∀ bp ∈ (scan gdbserver isHit holds breakpoints).1, bp.time ≠ none → bp ∈ breakpoints := by
  induction breakpoints with
  | nil => exact ⟨rfl, nofun⟩
  | cons first rest ih =>
    obtain ⟨same, members⟩ := ih
    rw [scan]
    split
    next hit =>
      have none_ := other first hit
      have after := trigger_other (holds first.serial) none_
      have kept : ∀ tail, waitingOf tail = waitingOf rest →
          (∀ bp ∈ tail, bp.time ≠ none → bp ∈ rest) → ∀ head : List Breakpoint,
          (∀ bp ∈ head, bp.time = none) →
          waitingOf (head ++ tail) = waitingOf (first :: rest) ∧
            ∀ bp ∈ head ++ tail, bp.time ≠ none → bp ∈ first :: rest := by
        intro tail sameTail tailMembers head others
        constructor
        · have nothing : waitingOf head = [] := by
            unfold waitingOf
            rw [List.filterMap_eq_nil_iff]
            exact fun bp member => waiting_of_other (others bp member)
          rw [waitingOf_append, waitingOf_cons, nothing, waiting_of_other none_, sameTail]
          rfl
        · intro bp member timed
          rcases List.mem_append.mp member with member | member
          · exact absurd (others bp member) timed
          · exact List.mem_cons_of_mem _ (tailMembers bp member timed)
      have single : ∀ bp ∈ [(first.trigger (holds first.serial)).1], bp.time = none := by
        intro bp member
        rw [List.mem_singleton.mp member]
        exact after
      have dropped : ∀ bp ∈ (if first.life = .oneShot then []
          else [(first.trigger (holds first.serial)).1]), bp.time = none := by
        intro bp member
        split at member
        · cases member
        · exact single bp member
      dsimp only
      split
      · split
        · exact kept rest rfl (fun _ member _ => member) _ dropped
        · exact kept _ same members _ dropped
      · exact kept _ same members _ single
    · constructor
      · rw [waitingOf_cons, waitingOf_cons, same]
      · intro bp member timed
        rcases List.mem_cons.mp member with rfl | member
        · exact List.mem_cons_self
        · exact List.mem_cons_of_mem _ (members bp member timed)

/-! ## The invariant -/

/-- Until when events have been handled, unless they are due. -/
def horizon (m : Machine) (s : State) : Nat := min s.tstates m.tstatesPerFrame.toNat

/-- A breakpoint that starts again with each frame has stopped the emulator in each. -/
def Breakpoint.Met (length : UInt32) (frame : Nat) (hits : List (Nat × Nat)) (bp : Breakpoint) :
    Prop :=
  ∀ time, bp.time = some time → time.initialTstates ≤ length →
    (time.triggered = false → time.tstates = time.initialTstates) ∧
    (bp.conditional = false →
      (∀ f, bp.since ≤ f → f < frame → (f, bp.serial) ∈ hits) ∧
      (time.triggered = true → bp.since ≤ frame → (frame, bp.serial) ∈ hits))

structure Inv (m : Machine) (s : State) : Prop where
  balanced : Balanced (early (horizon m s)) s.waiting s.pending
  armed : s.between = true → Given s.waiting s.pending
  idle : s.mode = .inactive → s.breakpoints = []
  met : ∀ bp ∈ s.breakpoints, bp.Met m.tstatesPerFrame s.frame s.hits

theorem Breakpoint.Met.mono {length : UInt32} {frame : Nat} {hits more : List (Nat × Nat)}
    {bp : Breakpoint} (met : bp.Met length frame hits) : bp.Met length frame (hits ++ more) := by
  intro time timeEq restarts
  obtain ⟨restart, plain⟩ := met time timeEq restarts
  refine ⟨restart, fun unconditional => ?_⟩
  obtain ⟨before, now⟩ := plain unconditional
  exact ⟨fun f since earlier => List.mem_append_left _ (before f since earlier),
    fun triggered since => List.mem_append_left _ (now triggered since)⟩

theorem Breakpoint.met_of_other {length : UInt32} {frame : Nat} {hits : List (Nat × Nat)}
    {bp : Breakpoint} (other : bp.time = none) : bp.Met length frame hits := by
  intro time timeEq
  rw [other] at timeEq
  cases timeEq

theorem inv_kept {m : Machine} {s : State} (inv : Inv m s) : Kept m s where
  armed := inv.armed
  onTime := by
    intro quiet early' time member
    have near : horizon m s = s.tstates := Nat.min_eq_left (Nat.le_of_lt early')
    have balanced := inv.balanced
    rw [near] at balanced
    have late := (balanced.quiet fun other there =>
      decide_eq_false (Nat.not_le.mpr (quiet other there))).2 time member
    exact Nat.not_le.mp (of_decide_eq_false late)
  everyFrame := by
    intro bp member _ plain time timeEq restarts
    exact ((inv.met bp member time timeEq restarts).2 plain).1

/-! ## Changes to the breakpoints -/

/-- The waiting breakpoints and the events stay as they are. -/
theorem Inv.same {m : Machine} {s t : State} (inv : Inv m s)
    (waiting : s.waiting.Perm t.waiting) (pending : t.pending = s.pending)
    (tstates : t.tstates = s.tstates) (between : t.between = true → s.between = true)
    (idle : t.mode = .inactive → t.breakpoints = [])
    (met : ∀ bp ∈ t.breakpoints, bp.Met m.tstatesPerFrame t.frame t.hits) : Inv m t where
  balanced := by
    unfold horizon
    rw [pending, tstates]
    exact inv.balanced.perm waiting
  armed := by
    intro here
    rw [pending]
    exact (inv.armed (between here)).perm waiting
  idle := idle
  met := met

theorem settle_idle {s : State} (idle : s.mode = .inactive → s.breakpoints = []) :
    (settle s).mode = .inactive → (settle s).breakpoints = [] := by
  intro inactive
  unfold settle at inactive
  dsimp only at inactive
  split at inactive
  next last => exact last.2
  · exact idle inactive

theorem add_inv {m : Machine} {s : State} {time : Option UInt32} {ignore : Nat} {life : Life}
    {conditional : Bool} (inv : Inv m s)
    (fresh : ∀ tstates ∈ time, tstates ∈ s.pending → tstates ∈ s.waiting) :
    Inv m (add time ignore life conditional s) := by
  have waiting : (add time ignore life conditional s).waiting = s.waiting ++ time.toList := by
    unfold State.waiting add
    rw [List.filterMap_append]
    cases time <;> rfl
  have pending : (add time ignore life conditional s).pending = time.toList ++ s.pending := rfl
  have order : (time.toList ++ s.waiting).Perm (s.waiting ++ time.toList) := List.perm_append_comm
  constructor
  · rw [waiting, pending]
    refine Balanced.perm ?_ order
    cases time with
    | none => exact inv.balanced
    | some tstates => exact inv.balanced.cons (fresh tstates rfl)
  · intro between
    rw [waiting, pending]
    refine Given.perm ((inv.armed between).append time.toList ?_) order
    intro tstates member
    exact fresh tstates (Option.mem_toList.mp member)
  · intro inactive
    unfold add at inactive
    dsimp only at inactive
    split at inactive
    · cases inactive
    next other => exact absurd inactive other
  · intro bp member
    rcases List.mem_append.mp member with member | member
    · exact inv.met bp member
    · obtain rfl := List.mem_singleton.mp member
      intro value timeEq _
      obtain ⟨tstates, -, rfl⟩ := Option.map_eq_some_iff.mp timeEq
      refine ⟨fun _ => rfl, fun _ => ⟨fun f since earlier => ?_, nofun⟩⟩
      exact absurd earlier (Nat.not_lt.mpr since)

/-- With a breakpoint that waits, its event is taken away, and otherwise none. -/
theorem removeTime_cases {bp : Breakpoint} {pending : List UInt32}
    (left : ∀ time ∈ bp.time, time.triggered = true → time.tstates ∉ pending) :
    (bp.waiting = none ∧ removeTime bp pending = pending) ∨
      ∃ time, bp.waiting = some time ∧ removeTime bp pending = pending.erase time := by
  unfold Breakpoint.waiting removeTime
  cases timeEq : bp.time with
  | none => exact .inl ⟨rfl, rfl⟩
  | some time =>
    by_cases triggered : time.triggered = true
    · exact .inl ⟨if_pos triggered, List.erase_of_not_mem (left time timeEq triggered)⟩
    · exact .inr ⟨time.tstates, if_neg triggered, rfl⟩

theorem remove_inv {m : Machine} {s : State} {id : Nat} (inv : Inv m s)
    (steady : Steady m s (.remove id)) : Inv m (remove id s) := by
  unfold remove
  split
  · exact inv
  next bp found =>
    have member : bp ∈ s.breakpoints := List.mem_of_find?_eq_some found
    have order : s.waiting.Perm (bp.waiting.toList ++ waitingOf (s.breakpoints.erase bp)) := by
      rw [← waitingOf_cons]
      exact (List.perm_cons_erase member).filterMap _
    have idle : s.mode = .inactive → s.breakpoints.erase bp = [] := by
      intro inactive
      rw [inv.idle inactive]
      rfl
    have met : ∀ other ∈ s.breakpoints.erase bp, other.Met m.tstatesPerFrame s.frame s.hits :=
      fun other there => inv.met other (List.mem_of_mem_erase there)
    rcases removeTime_cases (steady bp found) with ⟨waiting, pending⟩ | ⟨time, waiting, pending⟩
    · rw [waiting] at order
      exact inv.same order pending rfl (fun here => here) (settle_idle idle) met
    · rw [waiting] at order
      constructor
      · rw [pending]
        exact (inv.balanced.perm order).erase
      · intro between
        rw [pending]
        exact ((inv.armed between).perm order).erase
      · exact settle_idle idle
      · exact met

theorem clear_inv {m : Machine} {s : State} {at_ : Nat → Bool} (inv : Inv m s) :
    Inv m (clear at_ s) := by
  unfold clear
  dsimp only
  split
  · exact inv
  · have waiting : s.waiting =
        waitingOf (s.breakpoints.filter fun bp => bp.time.isSome || !at_ bp.id) := by
      unfold State.waiting waitingOf
      rw [List.filterMap_filter]
      refine List.filterMap_congr fun bp _ => ?_
      cases other : bp.time with
      | none => simp [waiting_of_other other]
      | some time => simp
    have idle : s.mode = .inactive →
        (s.breakpoints.filter fun bp => bp.time.isSome || !at_ bp.id) = [] := by
      intro inactive
      rw [inv.idle inactive]
      rfl
    refine inv.same (.of_eq waiting) rfl rfl (fun here => here) (settle_idle idle) ?_
    exact fun bp member => inv.met bp (List.mem_filter.mp member).1

theorem inv_of_empty {m : Machine} {s : State} (empty : s.breakpoints = []) : Inv m s := by
  have nothing : s.waiting = [] := by
    unfold State.waiting
    rw [empty]
    rfl
  constructor
  · rw [nothing]
    exact Given.nil.balanced
  · intro _
    rw [nothing]
    exact Given.nil
  · exact fun _ => empty
  · rw [empty]
    exact nofun

theorem waiting_of_time {bp other : Breakpoint} (time : bp.time = other.time) :
    bp.waiting = other.waiting := by
  unfold Breakpoint.waiting
  rw [time]

theorem change_inv {m : Machine} {s : State} {id : Nat} {f : Breakpoint → Breakpoint}
    (inv : Inv m s) (time : ∀ bp, (f bp).time = bp.time) : Inv m (change id f s) := by
  have waiting : s.waiting = (change id f s).waiting := by
    unfold State.waiting change
    rw [List.filterMap_map]
    refine List.filterMap_congr fun bp _ => waiting_of_time ?_
    dsimp only [Function.comp]
    split
    · exact (time bp).symm
    · rfl
  refine inv.same (.of_eq waiting) rfl rfl (fun here => here) ?_ ?_
  · intro inactive
    unfold change
    rw [inv.idle inactive]
    rfl
  · intro bp member
    obtain ⟨before, there, rfl⟩ := List.mem_map.mp member
    have met := inv.met before there
    split
    · intro value timeEq restarts
      obtain ⟨restart, -⟩ := met value ((time before).symm.trans timeEq) restarts
      refine ⟨restart, fun _ => ⟨fun f since earlier => ?_, fun _ since => ?_⟩⟩
      · exact absurd (Nat.lt_of_succ_le since) (Nat.lt_asymm earlier)
      · exact absurd since (Nat.not_succ_le_self _)
    · exact met

/-! ## Looking at the breakpoints -/

/-- Only other breakpoints are hit. -/
theorem check_other_inv {m : Machine} {s : State} {isHit : Breakpoint → Bool}
    {holds : Nat → Bool} (inv : Inv m s) (other : ∀ bp, isHit bp = true → bp.time = none) :
    Inv m (check m.gdbserver isHit holds s) := by
  have scanned : ∀ {s : State}, Inv m s → s.mode = .active → Inv m
      { s with
        breakpoints := (scan m.gdbserver isHit holds s.breakpoints).1
        mode := if (scan m.gdbserver isHit holds s.breakpoints).2 = [] then s.mode else .halted
        hits := s.hits ++
          (scan m.gdbserver isHit holds s.breakpoints).2.map fun serial => (s.frame, serial) } := by
    intro s inv active
    obtain ⟨same, members⟩ := scan_other m.gdbserver holds other s.breakpoints
    refine inv.same (.of_eq same.symm) rfl rfl (fun here => here) ?_ ?_
    · intro inactive
      dsimp only at inactive
      split at inactive
      · exact absurd (active.symm.trans inactive) (by decide)
      · cases inactive
    · intro bp member
      cases timeEq : bp.time with
      | none => exact Breakpoint.met_of_other timeEq
      | some time =>
        exact (inv.met bp (members bp member (by rw [timeEq]; exact nofun))).mono
  unfold check
  by_cases later : s.removePending = true
  · rw [if_pos later]
    dsimp only
    split
    · exact inv_of_empty rfl
    · exact inv_of_empty rfl
    · exact inv_of_empty rfl
  · rw [if_neg later]
    dsimp only
    split
    · exact inv
    · exact inv
    next active => exact scanned inv active

theorem Breakpoint.Met.setTriggered {length : UInt32} {frame : Nat} {hits : List (Nat × Nat)}
    {bp : Breakpoint} {stops : List Nat} (met : bp.Met length frame hits)
    (stopped : bp.conditional = false → bp.serial ∈ stops) :
    bp.setTriggered.Met length frame (hits ++ stops.map fun serial => (frame, serial)) := by
  intro time timeEq restarts
  obtain ⟨before, there, rfl⟩ := Option.map_eq_some_iff.mp timeEq
  refine ⟨nofun, fun plain => ?_⟩
  obtain ⟨earlier, -⟩ := (met before there restarts).2 plain
  refine ⟨fun f since less => List.mem_append_left _ (earlier f since less), fun _ _ => ?_⟩
  exact List.mem_append_right _ (List.mem_map_of_mem (stopped plain))

theorem event_inv {m : Machine} {s : State} {holds : Nat → Bool} {first : UInt32} (inv : Inv m s)
    (steady : Steady m s (.event holds)) (member : first ∈ s.pending)
    (soon : first.toNat ≤ s.tstates) (inFrame : first ≤ m.tstatesPerFrame) :
    Inv m (check m.gdbserver (·.due s.tstates) holds
      { s with pending := s.pending.erase first, between := false }) := by
  have early' : early (horizon m s) first = true :=
    decide_eq_true (Nat.le_min.mpr ⟨soon, UInt32.le_iff_toNat_le.mp inFrame⟩)
  have near : horizon m s ≤ s.tstates := Nat.min_le_left _ _
  unfold check
  by_cases later : s.removePending = true
  · rw [if_pos (show ({ s with pending := s.pending.erase first, between := false } :
      State).removePending = true from later)]
    dsimp only
    split
    · exact inv_of_empty rfl
    · exact inv_of_empty rfl
    · exact inv_of_empty rfl
  rw [if_neg (show ¬ ({ s with pending := s.pending.erase first, between := false } :
    State).removePending = true from later)]
  have ready := steady (by simpa using later)
  dsimp only
  split
  next inactive => exact inv_of_empty (inv.idle inactive)
  next halted =>
    have nothing : s.waiting.countP (early (horizon m s)) = 0 := by
      refine List.countP_eq_zero.mpr fun time there soon' => ?_
      obtain ⟨bp, found, waiting⟩ := List.mem_filterMap.mp there
      have late := due_of_waiting waiting fun due => (ready bp found due).1 halted
      exact absurd (Nat.le_trans (of_decide_eq_true soon') near) (Nat.not_le.mpr late)
    refine
      { balanced := inv.balanced.pop member early' (fun _ _ => rfl) ?_
        armed := nofun
        idle := inv.idle
        met := inv.met }
    exact Nat.le_trans (Nat.le_of_eq nothing) (Nat.zero_le _)
  next active =>
    have scanned : Scanned (horizon m s) s.breakpoints
        (scan m.gdbserver (·.due s.tstates) holds s.breakpoints).1 := by
      refine scan_due near s.breakpoints fun bp found due => ?_
      obtain ⟨-, ignore, inFrame'⟩ := ready bp found due
      obtain ⟨time, timeEq, -, past⟩ := waiting_of_due due
      refine ⟨ignore, fun other otherEq => ?_⟩
      obtain rfl : time = other := Option.some.inj (timeEq.symm.trans otherEq)
      exact Nat.le_min.mpr ⟨past, UInt32.le_iff_toNat_le.mp (inFrame' time otherEq)⟩
    refine
      { balanced := inv.balanced.pop member early' ?_ scanned.due
        armed := nofun
        idle := ?_
        met := ?_ }
    · intro time late
      exact scanned.late time (Nat.not_le.mp (of_decide_eq_false late))
    · intro inactive
      dsimp only at inactive
      split at inactive
      · exact absurd (active.symm.trans inactive) (by decide)
      · cases inactive
    · intro bp left
      rcases scan_mem s.breakpoints (fun bp found due => (ready bp found due).2.1) bp left with
        there | ⟨before, there, rfl, stops⟩
      · exact (inv.met bp there).mono
      · exact (inv.met before there).setTriggered stops

/-! ## Time -/

theorem opcode_inv {m : Machine} {s : State} {clocks : Nat} (inv : Inv m s)
    (inFrame : s.tstates < m.tstatesPerFrame.toNat)
    (quiet : ∀ time ∈ s.pending, s.tstates < time.toNat) :
    Inv m { s with tstates := s.tstates + clocks, between := false } := by
  have near : horizon m s = s.tstates := Nat.min_eq_left (Nat.le_of_lt inFrame)
  have balanced := inv.balanced
  rw [near] at balanced
  have all := (balanced.quiet fun time there =>
    decide_eq_false (Nat.not_le.mpr (quiet time there))).1
  exact
    { balanced := all.balanced
      armed := nofun
      idle := inv.idle
      met := inv.met }

/-- Those that have triggered start again, each with an event. -/
theorem waiting_addTimeEvents (breakpoints : List Breakpoint) :
    (breakpoints.flatMap (·.addTimeEvent.2) ++ waitingOf breakpoints).Perm
      (waitingOf (breakpoints.map (·.addTimeEvent.1))) := by
  induction breakpoints with
  | nil => exact .nil
  | cons bp rest ih =>
    rw [List.flatMap_cons, List.map_cons, waitingOf_cons, waitingOf_cons]
    have order : (bp.addTimeEvent.2 ++ bp.waiting.toList).Perm bp.addTimeEvent.1.waiting.toList := by
      unfold Breakpoint.addTimeEvent Breakpoint.waiting
      cases timeEq : bp.time with
      | none => simp [timeEq]
      | some time => by_cases triggered : time.triggered = true <;> simp [timeEq, triggered]
    refine List.Perm.trans ?_ (order.append ih)
    simp only [List.append_assoc]
    refine (List.Perm.append_left _ ?_)
    rw [← List.append_assoc, ← List.append_assoc]
    exact List.perm_append_comm.append_right _

/-- The breakpoints when the frame is over and none starts again yet. -/
def reduced (length : UInt32) (bp : Breakpoint) : Breakpoint :=
  { bp with
    time := bp.time.map fun time =>
      if time.triggered then time else { time with tstates := time.tstates - length } }

theorem reduced_waiting (length : UInt32) (bp : Breakpoint) :
    (reduced length bp).waiting = bp.waiting.map (· - length) := by
  unfold Breakpoint.waiting reduced
  cases timeEq : bp.time with
  | none => rfl
  | some time => by_cases triggered : time.triggered = true <;> simp [triggered]

theorem waitingOf_reduced (length : UInt32) (breakpoints : List Breakpoint) :
    waitingOf (breakpoints.map (reduced length)) = (waitingOf breakpoints).map (· - length) := by
  unfold waitingOf
  rw [List.filterMap_map, List.map_filterMap]
  exact List.filterMap_congr fun bp _ => reduced_waiting length bp

/-- With nothing that waits, nothing is reduced. -/
theorem reduced_of_triggered {length : UInt32} {bp : Breakpoint} (waiting : bp.waiting = none) :
    reduced length bp = bp := by
  unfold Breakpoint.waiting at waiting
  unfold reduced
  cases timeEq : bp.time with
  | none =>
    cases bp
    cases timeEq
    rfl
  | some time =>
    rw [timeEq] at waiting
    by_cases triggered : time.triggered = true
    · cases bp
      cases timeEq
      simp [triggered]
    · simp [triggered] at waiting

theorem frameEnd_breakpoints {length : UInt32} (wait : Nat) {s : State}
    (active : s.waiting = [] ∨ s.mode = .active) :
    (frameEnd length wait s).breakpoints =
      (s.breakpoints.map (reduced length)).map (·.addTimeEvent.1) ∧
    (frameEnd length wait s).pending =
      (s.breakpoints.map (reduced length)).flatMap (·.addTimeEvent.2) ++
        s.pending.map (· - length) := by
  have reduce : (reduceTstates length { s with pending := s.pending.map (· - length) }) =
      { s with
        pending := s.pending.map (· - length)
        breakpoints := s.breakpoints.map (reduced length) } := by
    unfold reduceTstates
    by_cases mode : s.mode = .active
    · rw [if_neg (not_not_intro mode)]
      rfl
    · rw [if_pos mode]
      have none_ : ∀ bp ∈ s.breakpoints, bp.waiting = none :=
        List.filterMap_eq_nil_iff.mp (active.resolve_right mode)
      have same : s.breakpoints.map (reduced length) = s.breakpoints :=
        (List.map_congr_left fun bp member => reduced_of_triggered (none_ bp member)).trans
          (List.map_id _)
      rw [same]
  unfold frameEnd
  dsimp only
  rw [reduce]
  exact ⟨rfl, rfl⟩

theorem mem_addTimeEvents {length time : UInt32} {breakpoints : List Breakpoint}
    (member : time ∈ (breakpoints.map (reduced length)).flatMap (·.addTimeEvent.2)) :
    ∃ bp ∈ breakpoints, ∃ value ∈ bp.time, value.triggered = true ∧
      time = value.initialTstates := by
  obtain ⟨after, there, starts⟩ := List.mem_flatMap.mp member
  obtain ⟨bp, found, rfl⟩ := List.mem_map.mp there
  refine ⟨bp, found, ?_⟩
  unfold Breakpoint.addTimeEvent reduced at starts
  cases timeEq : bp.time with
  | none => simp [timeEq] at starts
  | some value =>
    by_cases triggered : value.triggered = true
    · exact ⟨value, rfl, triggered, by simpa [timeEq, triggered] using starts⟩
    · simp [timeEq, triggered] at starts

/-- A breakpoint that has been met in this frame starts again. -/
theorem Breakpoint.Met.frameEnd {length : UInt32} {frame : Nat} {hits : List (Nat × Nat)}
    {bp : Breakpoint} (met : bp.Met length frame hits)
    (late : ∀ time, bp.waiting = some time → length < time) :
    (reduced length bp).addTimeEvent.1.Met length (frame + 1) hits := by
  cases timeEq : bp.time with
  | none =>
    refine Breakpoint.met_of_other ?_
    simp [reduced, Breakpoint.addTimeEvent, timeEq]
  | some value =>
    by_cases triggered : value.triggered = true
    · have after : (reduced length bp).addTimeEvent.1 =
          { bp with
            time := some { value with triggered := false, tstates := value.initialTstates } } := by
        simp [reduced, Breakpoint.addTimeEvent, timeEq, triggered]
      rw [after]
      intro time same restarts
      obtain rfl := Option.some.inj same
      refine ⟨fun _ => rfl, fun plain => ⟨fun f since earlier => ?_, nofun⟩⟩
      obtain ⟨before, now⟩ := (met value timeEq restarts).2 plain
      rcases Nat.lt_or_eq_of_le (Nat.le_of_lt_succ earlier) with less | rfl
      · exact before f since less
      · exact now triggered since
    · intro time same restarts
      have kept : time.initialTstates = value.initialTstates := by
        have whole : (reduced length bp).addTimeEvent.1.time =
            some { value with tstates := value.tstates - length } := by
          simp [reduced, Breakpoint.addTimeEvent, timeEq, triggered]
        obtain rfl := Option.some.inj (same.symm.trans whole)
        rfl
      rw [kept] at restarts
      have there := (met value timeEq restarts).1 (by simpa using triggered)
      have waits : bp.waiting = some value.tstates := by
        simp [Breakpoint.waiting, timeEq, triggered]
      have past := late _ waits
      rw [there] at past
      exact absurd restarts (UInt32.not_le.mpr past)

theorem frameEnd_inv {m : Machine} {s : State} {wait : Nat} (inv : Inv m s)
    (steady : Steady m s (.frameEnd wait)) (ended : m.tstatesPerFrame.toNat ≤ s.tstates)
    (handled : ∀ time ∈ s.pending, m.tstatesPerFrame < time) :
    Inv m (frameEnd m.tstatesPerFrame wait s) := by
  have near : horizon m s = m.tstatesPerFrame.toNat := Nat.min_eq_right ended
  have balanced := inv.balanced
  rw [near] at balanced
  obtain ⟨given, late⟩ := balanced.quiet fun time there =>
    decide_eq_false (Nat.not_le.mpr (UInt32.lt_iff_toNat_lt.mp (handled time there)))
  obtain ⟨breakpoints, pending⟩ := frameEnd_breakpoints wait steady.1
  have injective : Function.Injective fun time : UInt32 => time - m.tstatesPerFrame :=
    fun a b same => (UInt32.sub_left_inj _).mp same
  have all : Given (frameEnd m.tstatesPerFrame wait s).waiting
      (frameEnd m.tstatesPerFrame wait s).pending := by
    have shifted := given.map injective
    have waiting := waiting_addTimeEvents (s.breakpoints.map (reduced m.tstatesPerFrame))
    rw [waitingOf_reduced] at waiting
    unfold State.waiting
    rw [breakpoints, pending]
    refine Given.perm (shifted.append _ fun time starts there => ?_) waiting
    obtain ⟨bp, found, value, timeEq, triggered, rfl⟩ := mem_addTimeEvents starts
    exact steady.2 bp found value timeEq triggered there
  constructor
  · exact all.balanced
  · exact fun _ => all
  · intro inactive
    have mode : (frameEnd m.tstatesPerFrame wait s).mode = s.mode := by
      unfold frameEnd reduceTstates
      dsimp only
      split <;> rfl
    rw [breakpoints, inv.idle (mode.symm.trans inactive)]
    rfl
  · intro bp member
    rw [breakpoints] at member
    obtain ⟨after, there, rfl⟩ := List.mem_map.mp member
    obtain ⟨before, found, rfl⟩ := List.mem_map.mp there
    have frame : (frameEnd m.tstatesPerFrame wait s).frame = s.frame + 1 ∧
        (frameEnd m.tstatesPerFrame wait s).hits = s.hits := by
      unfold frameEnd reduceTstates
      dsimp only
      split <;> exact ⟨rfl, rfl⟩
    rw [frame.1, frame.2]
    refine (inv.met before found).frameEnd fun time waits => ?_
    have past := late time (List.mem_filterMap.mpr ⟨before, found, waits⟩)
    exact UInt32.lt_iff_toNat_lt.mpr (Nat.not_le.mp (of_decide_eq_false past))

/-! ## Runs -/

theorem step_inv {m : Machine} {s t : State} {act : Act} (inv : Inv m s) (steady : Steady m s act)
    (stepEq : step m s act = some t) : Inv m t := by
  cases act with
  | add time ignore life conditional =>
    obtain rfl := Option.some.inj stepEq
    refine add_inv inv fun tstates given => ?_
    obtain rfl := Option.mem_def.mp given
    exact steady
  | remove id =>
    obtain rfl := Option.some.inj stepEq
    exact remove_inv inv steady
  | clear at_ =>
    obtain rfl := Option.some.inj stepEq
    exact clear_inv inv
  | removeAll =>
    obtain rfl := Option.some.inj stepEq
    exact inv_of_empty rfl
  | removeLater =>
    obtain rfl := Option.some.inj stepEq
    exact inv.same .rfl rfl rfl (fun here => here) inv.idle inv.met
  | setIgnore id ignore =>
    obtain rfl := Option.some.inj stepEq
    exact change_inv inv fun _ => rfl
  | setCondition id conditional =>
    obtain rfl := Option.some.inj stepEq
    exact change_inv inv fun _ => rfl
  | run =>
    obtain rfl := Option.some.inj stepEq
    refine inv.same .rfl rfl rfl (fun here => here) (fun inactive => ?_) inv.met
    dsimp only at inactive
    split at inactive
    next empty => exact empty
    · cases inactive
  | halt =>
    obtain rfl := Option.some.inj stepEq
    exact inv.same .rfl rfl rfl (fun here => here) nofun inv.met
  | opcode clocks =>
    obtain ⟨⟨inFrame, quiet⟩, same⟩ := Option.ite_none_right_eq_some.mp stepEq
    obtain rfl := Option.some.inj same
    exact opcode_inv inv inFrame (by simpa using quiet)
  | check isHit holds =>
    obtain rfl := Option.some.inj stepEq
    refine check_other_inv inv fun bp hit => ?_
    exact Option.isNone_iff_eq_none.mp (Bool.and_eq_true_iff.mp hit).1
  | event holds =>
    unfold step at stepEq
    cases firstEq : s.pending.min? with
    | none => simp [firstEq] at stepEq
    | some first =>
      simp only [firstEq] at stepEq
      obtain ⟨⟨soon, inFrame⟩, same⟩ := Option.ite_none_right_eq_some.mp stepEq
      obtain rfl := Option.some.inj same
      exact event_inv inv steady (List.min?_mem firstEq) soon inFrame
  | frameEnd wait =>
    obtain ⟨⟨ended, handled⟩, same⟩ := Option.ite_none_right_eq_some.mp stepEq
    obtain rfl := Option.some.inj same
    exact frameEnd_inv inv steady ended (by simpa using handled)

/-- A breakpoint at 3 in a frame of 20 has stopped the emulator, and starts again. -/
def stopped : State :=
  { breakpoints :=
      [{ id := 1
         time := some { tstates := 3, initialTstates := 3 }
         ignore := 0
         life := .permanent
         conditional := false
         serial := 0
         since := 0 }]
    mode := .active
    nextBreakpointId := 2
    pending := [3]
    tstates := 6
    between := true
    frame := 1
    added := 1
    hits := [(0, 0)] }

end FuseX.Debugger
