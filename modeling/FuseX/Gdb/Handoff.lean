import FuseX.Lib.Runs
import Mathlib.Data.List.Nodup

/-!
# Handing actions to the trapped emulator

The network thread and the emulator thread of `gdbserver.c`, stepping through
the critical sections of `trap_process_mutex`.

* `handoffStep` is one critical section, or one unprotected write of
  `debugger_mode`. A condition variable has one waiter here, so a signal marks
  that waiter, or is lost when nobody waits; there are no spurious wakeups, and
  the listener is not being torn down;
* `HandsOff` is what should hold in every state: no deadlock, and every action
  scheduled so far is executed once, or the emulator is about to execute it;
* `handoff_iff` proves that it holds exactly along the runs in which actions are
  scheduled while the emulator thread is in its wait loop.
-/

namespace FuseX.Gdb

open Lib

/-! ## The two threads -/

/-- `enum debugger_mode_t`. -/
inductive DebuggerMode : Type
  | inactive
  | active
  | halted
  deriving DecidableEq, Repr

/-- The emulator thread: emulating, or in the wait loop of
`gdbserver_activate_with_reason` with its local `halt`. -/
inductive EmulatorThread : Type
  | emulating
  | waiting (signalled halt : Bool)
  deriving DecidableEq, Repr

/-- The network thread: between two requests, or inside
`gdbserver_execute_on_main_thread`, before or in the wait for the response. -/
inductive NetworkThread : Type
  | idle
  | scheduled (action : Nat)
  | waiting (action : Nat) (signalled : Bool)
  deriving DecidableEq, Repr

/-- The variables the threads share. Actions are numbered in the order they are
scheduled; `executed` lists the ones the emulator thread has run and `answered`
those `gdbserver_execute_on_main_thread` returned 1 for. -/
structure Handoff : Type where
  trapped : Bool := false
  mode : DebuggerMode := .inactive
  scheduledAction : Option Nat := none
  responseDelivered : Bool := false
  emulator : EmulatorThread := .emulating
  network : NetworkThread := .idle
  nextAction : Nat := 0
  executed : List Nat := []
  answered : List Nat := []
  deriving DecidableEq, Repr

/-- `pthread_cond_signal(&trapped_cond)`. -/
def EmulatorThread.signal : EmulatorThread → EmulatorThread
  | .emulating => .emulating
  | .waiting _ halt => .waiting true halt

/-- `pthread_cond_signal(&response_cond)`. -/
def NetworkThread.signal : NetworkThread → NetworkThread
  | .waiting action _ => .waiting action true
  | thread => thread

inductive HandoffAct : Type
  | interrupt
  | schedule
  | awaitResponse
  | detrap
  | emulate (mode : DebuggerMode)
  | activate
  | wake (halt : Bool) (mode : DebuggerMode)
  deriving DecidableEq, Repr

/-- The first critical section of `gdbserver_execute_on_main_thread`. -/
def scheduleAction (s : Handoff) : Handoff :=
  if !s.trapped ∧ s.mode ≠ .halted then s
  else
    { s with
      scheduledAction := some s.nextAction
      responseDelivered := false
      emulator := s.emulator.signal
      network := .scheduled s.nextAction
      nextAction := s.nextAction + 1 }

/-- The loop that waits for the response, up to `pthread_cond_wait` or the
return. -/
def waitForResponse (s : Handoff) (action : Nat) : Handoff :=
  if s.responseDelivered then
    { s with network := .idle, answered := s.answered ++ [action] }
  else { s with network := .waiting action false }

/-- `gdbserver_detrap`. -/
def gdbserverDetrap (s : Handoff) : Handoff :=
  if s.trapped then { s with trapped := false, emulator := s.emulator.signal } else s

/-- `gdbserver_activate_with_reason` up to its first `pthread_cond_wait`: the
signal it sends finds nobody waiting, and `scheduled_action` is not looked at. -/
def gdbserverActivate (s : Handoff) : Handoff :=
  { s with trapped := true, emulator := .waiting false false }

/-- The end of the wait loop's body: leave when detrapped, wait again otherwise. -/
def leaveOrWait (s : Handoff) (halt : Bool) : Handoff :=
  if !s.trapped then
    { s with emulator := .emulating, mode := if halt then .halted else .active }
  else { s with emulator := .waiting false halt }

/-- The body of the wait loop after `pthread_cond_wait` returns. A scheduled
action runs here, under the mutex; it answers `actionHalt` and may change the
mode. -/
def wakeUp (s : Handoff) (halt actionHalt : Bool) (mode : DebuggerMode) : Handoff :=
  match s.scheduledAction with
  | none => leaveOrWait s halt
  | some action =>
      leaveOrWait
        { s with
          mode := mode
          scheduledAction := none
          responseDelivered := true
          network := s.network.signal
          executed := s.executed ++ [action] }
        actionHalt

/-- One step of either thread, where it can take it. -/
def handoffStep (s : Handoff) : HandoffAct → Option Handoff
  | .interrupt => if s.network = .idle then some { s with mode := .halted } else none
  | .schedule => if s.network = .idle then some (scheduleAction s) else none
  | .detrap => if s.network = .idle then some (gdbserverDetrap s) else none
  | .awaitResponse =>
      match s.network with
      | .scheduled action | .waiting action true => some (waitForResponse s action)
      | .idle | .waiting _ false => none
  | .emulate mode => if s.emulator = .emulating then some { s with mode := mode } else none
  | .activate => if s.emulator = .emulating then some (gdbserverActivate s) else none
  | .wake actionHalt mode =>
      match s.emulator with
      | .waiting true halt => some (wakeUp s halt actionHalt mode)
      | .emulating | .waiting false _ => none

/-! ## Statements -/

/-- The emulator thread waits for a signal that nobody can send: an action is
scheduled, and the network thread waits for its response. -/
def Deadlocked (s : Handoff) : Prop :=
  s.scheduledAction.isSome ∧ (∃ halt, s.emulator = .waiting false halt) ∧
    ∃ action, s.network = .waiting action false

/-- The emulator thread can take its next step now, and that step executes the
action and delivers the response. -/
def AboutToExecute (s : Handoff) (action : Nat) : Prop :=
  ∀ halt mode, ∃ t, handoffStep s (.wake halt mode) = some t ∧
    t.executed = s.executed ++ [action] ∧ t.responseDelivered = true

/-- No deadlock; every action scheduled so far has been executed exactly once, or
not yet and the emulator thread is about to; nothing else has been executed, only
executed actions have been answered, and the network thread waits unsignalled only
for the action that is scheduled. -/
structure HandsOff (s : Handoff) : Prop where
  noDeadlock : ¬ Deadlocked s
  once : ∀ action < s.nextAction,
    s.executed.count action = 1 ∨
      s.executed.count action = 0 ∧ s.scheduledAction = some action ∧ AboutToExecute s action
  scheduled : ∀ action ∈ s.executed, action < s.nextAction
  answered : ∀ action ∈ s.answered, action ∈ s.executed
  waiting : ∀ action, s.network = .waiting action false → s.scheduledAction = some action

/-- An action that is not refused is scheduled while the emulator thread is in its
wait loop. -/
def ScheduledInWait (s : Handoff) : HandoffAct → Prop
  | .schedule => s.trapped = true ∨ s.mode = .halted → s.emulator ≠ .emulating
  | _ => True

/-! ## Invariants -/

/-- The network thread waits for the last action scheduled, which is outstanding
until its response is delivered. -/
structure WaitsFor (s : Handoff) (action : Nat) : Prop where
  last : action + 1 = s.nextAction
  outstanding : s.scheduledAction = if s.responseDelivered then none else some action

/-- Actions are executed in order, and at most one is outstanding: the one the
network thread waits for. -/
structure Outstanding (s : Handoff) : Prop where
  network : match s.network with
    | .idle => s.scheduledAction = none
    | .scheduled action | .waiting action true => WaitsFor s action
    | .waiting action false => WaitsFor s action ∧ s.responseDelivered = false
  executed : s.executed =
    List.range (if s.scheduledAction.isSome then s.nextAction - 1 else s.nextAction)
  answered : ∀ action ∈ s.answered, action ∈ s.executed

/-- A scheduled action finds the emulator signalled in its wait loop. -/
def Signalled (s : Handoff) : Prop :=
  s.scheduledAction.isSome → ∃ halt, s.emulator = .waiting true halt

theorem Outstanding.last {s : Handoff} (outstanding : Outstanding s) {action : Nat}
    (scheduled : s.scheduledAction = some action) : action + 1 = s.nextAction := by
  have network := outstanding.network
  have only : ∀ a, WaitsFor s a → action + 1 = s.nextAction := by
    intro a waits
    have here := waits.outstanding
    split at here
    · rw [here] at scheduled
      cases scheduled
    · obtain rfl : a = action := Option.some.inj (here.symm.trans scheduled)
      exact waits.last
  split at network
  · rw [network] at scheduled
    cases scheduled
  · exact only _ network
  · exact only _ network
  · exact only _ network.1

/-- Waking up with an action scheduled executes it and delivers the response. -/
theorem aboutToExecute_iff {s : Handoff} {action : Nat}
    (scheduled : s.scheduledAction = some action) :
    AboutToExecute s action ↔ ∃ halt, s.emulator = .waiting true halt := by
  constructor
  · intro about
    obtain ⟨t, step, -⟩ := about false .active
    cases emulator : s.emulator with
    | emulating => simp [handoffStep, emulator] at step
    | waiting signalled halt =>
      cases signalled with
      | false => simp [handoffStep, emulator] at step
      | true => exact ⟨halt, rfl⟩
  · rintro ⟨halt, emulator⟩ actionHalt mode
    refine ⟨wakeUp s halt actionHalt mode, by simp only [handoffStep, emulator], ?_⟩
    simp only [wakeUp, scheduled, leaveOrWait]
    split <;> exact ⟨rfl, rfl⟩

theorem handsOff_iff {s : Handoff} (outstanding : Outstanding s) : HandsOff s ↔ Signalled s := by
  have executed := outstanding.executed
  constructor
  · intro handsOff some_
    obtain ⟨action, scheduled⟩ := Option.isSome_iff_exists.mp some_
    have last := outstanding.last scheduled
    have notYet : action ∉ s.executed := by
      rw [executed, if_pos some_, List.mem_range]
      omega
    rcases handsOff.once action (by omega) with done | ⟨-, -, about⟩
    · exact absurd (List.count_pos_iff.mp (by omega)) notYet
    · exact (aboutToExecute_iff scheduled).mp about
  · intro signalled
    refine ⟨?_, ?_, ?_, outstanding.answered, ?_⟩
    · rintro ⟨some_, ⟨halt, waits⟩, -⟩
      obtain ⟨halt', signal⟩ := signalled some_
      rw [waits] at signal
      cases signal
    · intro action known
      by_cases member : action ∈ s.executed
      · left
        rw [executed] at member ⊢
        exact List.count_eq_one_of_mem List.nodup_range member
      · right
        have some_ : s.scheduledAction.isSome := by
          by_contra none_
          rw [executed, if_neg none_, List.mem_range] at member
          exact member known
        obtain ⟨pending, scheduled⟩ := Option.isSome_iff_exists.mp some_
        have last := outstanding.last scheduled
        obtain rfl : action = pending := by
          rw [executed, if_pos some_, List.mem_range] at member
          omega
        exact ⟨List.count_eq_zero.mpr member, scheduled,
          (aboutToExecute_iff scheduled).mpr (signalled some_)⟩
    · intro action member
      rw [executed, List.mem_range] at member
      split at member <;> omega
    · intro action waits
      have network := outstanding.network
      rw [waits] at network
      have here := network.1.outstanding
      rwa [network.2] at here

/-! ## Steps -/

/-- A step that does not schedule or execute anything. -/
theorem Outstanding.of_eq {s t : Handoff} (outstanding : Outstanding s)
    (network : t.network = s.network) (scheduled : t.scheduledAction = s.scheduledAction)
    (delivered : t.responseDelivered = s.responseDelivered) (next : t.nextAction = s.nextAction)
    (executed : t.executed = s.executed) (answered : t.answered = s.answered) : Outstanding t := by
  have waits : ∀ action, WaitsFor s action → WaitsFor t action := fun action here =>
    ⟨by rw [next]; exact here.last, by rw [scheduled, delivered]; exact here.outstanding⟩
  refine ⟨?_, by rw [executed, scheduled, next]; exact outstanding.executed,
    by rw [answered, executed]; exact outstanding.answered⟩
  have before := outstanding.network
  rw [network, scheduled, delivered]
  split at before
  · exact before
  · exact waits _ before
  · exact waits _ before
  · exact ⟨waits _ before.1, before.2⟩

/-- The network thread between two requests. -/
theorem Outstanding.idle {s : Handoff} (outstanding : Outstanding s) (idle : s.network = .idle) :
    s.scheduledAction = none := by
  have network := outstanding.network
  rwa [idle] at network

theorem signalled_of_none {s : Handoff} (none_ : s.scheduledAction = none) : Signalled s := by
  intro some_
  rw [none_] at some_
  cases some_

/-- Scheduling signals the emulator thread, which hears it only in its wait loop. -/
theorem outstanding_scheduleAction {s : Handoff} (outstanding : Outstanding s)
    (idle : s.network = .idle) :
    Outstanding (scheduleAction s) ∧
      (Signalled (scheduleAction s) ↔ Signalled s ∧ ScheduledInWait s .schedule) := by
  have none_ := outstanding.idle idle
  unfold scheduleAction
  split
  · rename_i refused
    refine ⟨outstanding, fun signalled => ⟨signalled, ?_⟩, And.left⟩
    simp only [Bool.not_eq_true', ne_eq] at refused
    simp [ScheduledInWait, refused.1, refused.2]
  · rename_i accepted
    have asked : s.trapped = true ∨ s.mode = .halted := by
      by_contra none_
      simp only [not_or, Bool.not_eq_true] at none_
      exact accepted (by simpa using none_)
    refine ⟨⟨⟨rfl, rfl⟩, ?_, outstanding.answered⟩, ?_⟩
    · have executed := outstanding.executed
      rw [none_] at executed
      simpa using executed
    · simp only [Signalled, Option.isSome_some, true_imp_iff, ScheduledInWait, asked]
      cases s.emulator <;> simp [EmulatorThread.signal, none_]

theorem outstanding_waitForResponse {s : Handoff} (outstanding : Outstanding s) {action : Nat}
    (waits : WaitsFor s action) :
    Outstanding (waitForResponse s action) ∧ (Signalled (waitForResponse s action) ↔ Signalled s) := by
  have executed := outstanding.executed
  have here := waits.outstanding
  unfold waitForResponse
  split
  · rename_i delivered
    rw [if_pos delivered] at here
    refine ⟨⟨here, executed, ?_⟩, Iff.rfl⟩
    intro a member
    rcases List.mem_append.mp member with before | last
    · exact outstanding.answered a before
    · obtain rfl := List.mem_singleton.mp last
      rw [executed, here, List.mem_range]
      exact Nat.lt_of_succ_le (Nat.le_of_eq waits.last)
  · rename_i pending
    refine ⟨⟨⟨⟨waits.last, here⟩, by simpa using pending⟩, executed, outstanding.answered⟩, Iff.rfl⟩

theorem outstanding_wakeUp {s : Handoff} (outstanding : Outstanding s) {halt actionHalt : Bool}
    {mode : DebuggerMode} :
    Outstanding (wakeUp s halt actionHalt mode) ∧
      (wakeUp s halt actionHalt mode).scheduledAction = none := by
  have stays : ∀ (s : Handoff) (h : Bool), Outstanding s → Outstanding (leaveOrWait s h) := by
    intro s h here
    unfold leaveOrWait
    split <;> exact here.of_eq rfl rfl rfl rfl rfl rfl
  have same : ∀ (s : Handoff) (h : Bool), (leaveOrWait s h).scheduledAction = s.scheduledAction := by
    intro s h
    unfold leaveOrWait
    split <;> rfl
  unfold wakeUp
  split
  · rename_i none_
    exact ⟨stays _ _ outstanding, (same _ _).trans none_⟩
  · rename_i action scheduled
    refine ⟨stays _ _ ?_, same _ _⟩
    have last := outstanding.last scheduled
    have network := outstanding.network
    have executed := outstanding.executed
    rw [scheduled, Option.isSome_some, if_pos rfl] at executed
    refine ⟨?_, ?_, ?_⟩
    · cases thread : s.network with
      | idle => rfl
      | scheduled a =>
        rw [thread] at network
        exact ⟨network.last, rfl⟩
      | waiting a signalled =>
        rw [thread] at network
        cases signalled with
        | false => exact ⟨network.1.last, rfl⟩
        | true => exact ⟨network.last, rfl⟩
    · simp only [Option.isSome_none, Bool.false_eq_true, if_false]
      rw [executed, ← last, Nat.add_sub_cancel, List.range_succ]
    · intro a member
      exact List.mem_append_left _ (outstanding.answered a member)

/-- One step keeps the order of actions, and keeps a scheduled action signalled
exactly when it schedules in the wait loop. -/
theorem outstanding_step {s t : Handoff} {act : HandoffAct} (outstanding : Outstanding s)
    (step : handoffStep s act = some t) :
    Outstanding t ∧ (Signalled t ↔ Signalled s ∧ ScheduledInWait s act) := by
  cases act with
  | interrupt =>
    simp only [handoffStep, Option.ite_none_right_eq_some, Option.some.injEq] at step
    obtain ⟨idle, rfl⟩ := step
    exact ⟨outstanding.of_eq rfl rfl rfl rfl rfl rfl, (and_iff_left True.intro).symm⟩
  | schedule =>
    simp only [handoffStep, Option.ite_none_right_eq_some, Option.some.injEq] at step
    obtain ⟨idle, rfl⟩ := step
    exact outstanding_scheduleAction outstanding idle
  | detrap =>
    simp only [handoffStep, Option.ite_none_right_eq_some, Option.some.injEq] at step
    obtain ⟨idle, rfl⟩ := step
    have none_ := outstanding.idle idle
    unfold gdbserverDetrap
    split
    · refine ⟨outstanding.of_eq rfl rfl rfl rfl rfl rfl, fun _ => ?_, fun _ => ?_⟩
      · exact ⟨signalled_of_none none_, True.intro⟩
      · exact signalled_of_none none_
    · exact ⟨outstanding, (and_iff_left True.intro).symm⟩
  | awaitResponse =>
    have network := outstanding.network
    simp only [handoffStep] at step
    split at step
    · rename_i action thread
      rw [thread] at network
      obtain rfl := Option.some.inj step
      obtain ⟨here, signalled⟩ := outstanding_waitForResponse outstanding network
      exact ⟨here, signalled.trans (and_iff_left True.intro).symm⟩
    · rename_i action thread
      rw [thread] at network
      obtain rfl := Option.some.inj step
      obtain ⟨here, signalled⟩ := outstanding_waitForResponse outstanding network
      exact ⟨here, signalled.trans (and_iff_left True.intro).symm⟩
    · cases step
    · cases step
  | emulate mode =>
    simp only [handoffStep, Option.ite_none_right_eq_some, Option.some.injEq] at step
    obtain ⟨-, rfl⟩ := step
    exact ⟨outstanding.of_eq rfl rfl rfl rfl rfl rfl, (and_iff_left True.intro).symm⟩
  | activate =>
    simp only [handoffStep, Option.ite_none_right_eq_some, Option.some.injEq] at step
    obtain ⟨emulating, rfl⟩ := step
    refine ⟨outstanding.of_eq rfl rfl rfl rfl rfl rfl, ?_⟩
    -- neither an emulating nor a newly waiting thread is signalled
    simp [Signalled, gdbserverActivate, emulating, ScheduledInWait]
  | wake actionHalt mode =>
    simp only [handoffStep] at step
    split at step
    · rename_i halt emulator
      obtain rfl := Option.some.inj step
      obtain ⟨here, none_⟩ := @outstanding_wakeUp s outstanding halt actionHalt mode
      refine ⟨here, fun _ => ⟨fun _ => ⟨halt, emulator⟩, True.intro⟩, fun _ => ?_⟩
      exact signalled_of_none none_
    · cases step
    · cases step

theorem outstanding_init : Outstanding {} :=
  ⟨rfl, rfl, fun _ member => by cases member⟩

/-- In every interleaving, the hand-off works in the state reached exactly when
every action was scheduled while the emulator thread was in its wait loop. -/
theorem handoff_iff (acts : List HandoffAct) (s : Handoff)
    (run : Runs handoffStep anyStep {} acts s) :
    HandsOff s ↔ Runs handoffStep ScheduledInWait {} acts s := by
  obtain ⟨outstanding, exact_⟩ := run.exact outstanding_init (signalled_of_none rfl)
    fun _ _ _ inv step => outstanding_step inv step
  exact (handsOff_iff outstanding).trans exact_

/-- The emulator traps, the network thread has an action executed and detraps. -/
def trapAndRead : List HandoffAct :=
  [.activate, .schedule, .wake false .halted, .awaitResponse, .detrap, .wake false .active]

theorem handoff_trap_and_read :
    ∃ s, trapAndRead.foldlM handoffStep {} = some s ∧
      (HandsOff s ↔ Runs handoffStep ScheduledInWait {} trapAndRead s) := by
  exact ⟨_, rfl, handoff_iff trapAndRead _ (Runs.of_foldlM rfl)⟩

/-- An interrupt, an action scheduled before the emulator traps, and the trap. -/
def interruptThenTrap : List HandoffAct :=
  [.interrupt, .schedule, .awaitResponse, .activate]

/-- The emulator traps without looking at the scheduled action, and both threads
wait. -/
theorem handoff_deadlock :
    ¬ ∀ (acts : List HandoffAct) (s : Handoff), Runs handoffStep anyStep {} acts s →
      ¬ Deadlocked s := by
  intro never
  exact never interruptThenTrap _ (Runs.of_foldlM rfl) ⟨rfl, ⟨false, rfl⟩, 0, rfl⟩

end FuseX.Gdb
