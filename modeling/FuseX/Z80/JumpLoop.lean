import FuseX.Lib.Runs
import FuseX.Z80.Checks
import Mathlib.Data.List.Infix

/-!
# The computed gotos of the opcode loop

`z80_do_opcodes` evaluates the conditions of its checks once, when it is called, and
chains the checks that are on with computed gotos; without that feature of the compiler
it evaluates each condition at each opcode.

The two agree as long as whatever changes a condition has the loop left before the next
opcode, by queueing an event (`loops_agree`). Two checks switch themselves off without an
event, and so does the debugger (`loops_disagree`).
-/

namespace FuseX.Z80

open Lib

/-! ## The two loops -/

inductive Act
  /-- `z80_do_opcodes` is called. -/
  | enter
  | opcode (turn : Turn)
  /-- The loop ends because an event is due. -/
  | leave
  /-- `event_do_events`, and all that happens outside of the loop. -/
  | events (after : Machine)

structure PlainLoop where
  machine : Machine
  inside : Bool := false

def PlainLoop.next (l : PlainLoop) : Outcome Machine → PlainLoop
  | .go m => { l with machine := m }
  | .leave m => { machine := m, inside := false }

def enter (m : Machine) : Machine :=
  { m with flags.evenM1 := m.capabilityEvenM1 }

/-- The loop that tests every condition. -/
def stepPlain (l : PlainLoop) : Act → Option PlainLoop
  | .enter => if l.inside then none else some { machine := enter l.machine, inside := true }
  | .opcode turn =>
      if l.inside ∧ ¬ l.machine.Due then
        some (l.next (runPlain condition (body turn) (code turn) z80Checks l.machine))
      else none
  | .leave => if l.inside ∧ l.machine.Due then some { l with inside := false } else none
  | .events after =>
      if l.inside then none else some { l with machine := { after with log := l.machine.log } }

structure JumpLoop extends PlainLoop where
  /-- `cgoto` -/
  cgoto : Nat → Option (Target Label)

/-- The table for the conditions of a machine. -/
def cgotoOf (m : Machine) : Nat → Option (Target Label) :=
  setup (condition · m) z80Checks

/-- The loop with the computed gotos. -/
def stepJump (l : JumpLoop) : Act → Option JumpLoop
  | .enter =>
      if l.inside then none
      else
        let m := enter l.machine
        some { machine := m, inside := true, cgoto := cgotoOf m }
  | .opcode turn =>
      if l.inside ∧ ¬ l.machine.Due then
        (runChain l.cgoto (body turn) (code turn) 0 z80Checks l.machine).map fun outcome =>
          { l with toPlainLoop := l.next outcome }
      else none
  | .leave => if l.inside ∧ l.machine.Due then some { l with inside := false } else none
  | .events after =>
      if l.inside then none else some { l with machine := { after with log := l.machine.log } }

def JumpLoop.start (m : Machine) : JumpLoop :=
  { machine := m, cgoto := fun _ => none }

/-! ## What no opcode may do without an event -/

/-- The devices for which the button stays pushed when `multiface_setic8` is called. -/
def activatedAfter (m : Machine) (i : Multiface) : Bool :=
  m.flags.multifaceActivated i && m.answering ≠ some i

/-- A breakpoint whose commands leave the debugger enabled. -/
def StaysEnabled (m : Machine) (mode : DebuggerMode) : Prop :=
  mode ≠ .inactive ∨ m.flags.gdbserverEnabled = true

/-- No check switches itself off, and no breakpoint the debugger. -/
structure Safe (turn : Turn) (m : Machine) : Prop where
  paged : ∀ c mode, turn.paged c = some mode → StaysEnabled m mode
  breakpoints : ∀ opcode mode, .breakpoint mode ∈ turn.effects opcode → StaysEnabled m mode
  multiface : m.pc = 0x0066 → condition .multiface m = true → ∃ i, activatedAfter m i = true
  didaktik80snap : m.pc = 0x0066 → condition .didaktik80snap m = true →
    m.paging.didaktik80Active = true

/-- The trap into the debugger, too, leaves every condition as it was. -/
structure SteadyOpcode (turn : Turn) (m : Machine) : Prop where
  trap : ∀ c, condition c (debuggerBody turn m) = condition c m
  safe : Safe turn (debuggerBody turn m)

def Steady (l : PlainLoop) : Act → Prop
  | .opcode turn => SteadyOpcode turn l.machine
  | _ => True

/-! ## What the bodies keep -/

variable {turn : Turn} {m m' m'' : Machine}

/-- The conditions are kept, and what `Safe` reads. -/
structure Kept (m m' : Machine) : Prop where
  conditions : ∀ c, condition c m' = condition c m
  due : m.Due → m'.Due
  pc : m'.pc = m.pc
  gdbserver : m'.flags.gdbserverEnabled = m.flags.gdbserverEnabled
  activated : ∀ i, activatedAfter m' i = activatedAfter m i
  didaktik80 : m.pc = 0x0066 → m'.paging.didaktik80Active = m.paging.didaktik80Active

theorem Kept.refl (m : Machine) : Kept m m :=
  ⟨fun _ => rfl, id, rfl, rfl, fun _ => rfl, fun _ => rfl⟩

theorem Kept.trans (first : Kept m m') (second : Kept m' m'') : Kept m m'' where
  conditions c := (second.conditions c).trans (first.conditions c)
  due due := second.due (first.due due)
  pc := second.pc.trans first.pc
  gdbserver := second.gdbserver.trans first.gdbserver
  activated i := (second.activated i).trans (first.activated i)
  didaktik80 at66 := (second.didaktik80 (first.pc.trans at66)).trans (first.didaktik80 at66)

theorem Safe.kept (safe : Safe turn m) (kept : Kept m m') : Safe turn m' where
  paged c mode paged := by
    rw [StaysEnabled, kept.gdbserver]
    exact safe.paged c mode paged
  breakpoints opcode mode member := by
    rw [StaysEnabled, kept.gdbserver]
    exact safe.breakpoints opcode mode member
  multiface at66 on := by
    rw [kept.conditions] at on
    obtain ⟨i, activated⟩ := safe.multiface (kept.pc.symm.trans at66) on
    exact ⟨i, (kept.activated i).trans activated⟩
  didaktik80snap at66 on := by
    rw [kept.conditions] at on
    have at66' : m.pc = 0x0066 := kept.pc.symm.trans at66
    exact (kept.didaktik80 at66').trans (safe.didaktik80snap at66' on)

theorem kept_note (entry : Entry) (m : Machine) : Kept m (m.note entry) :=
  ⟨fun c => by cases c <;> rfl, id, rfl, rfl, fun _ => rfl, fun _ => rfl⟩

theorem kept_eventAdd (time : Nat) (m : Machine) : Kept m (eventAdd time m) where
  conditions c := by cases c <;> rfl
  due due := by
    have before : ¬ m.tstates < m.eventNextEvent := due
    show ¬ m.tstates < min m.eventNextEvent time
    omega
  pc := rfl
  gdbserver := rfl
  activated _ := rfl
  didaktik80 _ := rfl

theorem due_eventAdd (m : Machine) : (eventAdd m.tstates m).Due := by
  show ¬ m.tstates < min m.eventNextEvent m.tstates
  omega

theorem kept_breakpoint {mode : DebuggerMode} (enabled : StaysEnabled m mode) :
    Kept m (breakpoint mode m) := by
  unfold breakpoint
  by_cases inactive : m.flags.debuggerMode = .inactive
  · rw [if_pos inactive]
    exact .refl m
  · rw [if_neg inactive]
    refine ⟨fun c => ?_, id, rfl, rfl, fun _ => rfl, fun _ => rfl⟩
    cases c
    case debugger =>
      rcases enabled with active | gdbserver
      · simp [condition, inactive, active]
      · simp [condition, gdbserver]
    all_goals rfl

theorem kept_call {c : Check} (safe : Safe turn m) (callee : Call) :
    Kept m (call turn c callee m) := by
  unfold call
  have noted := kept_note (.call callee) m
  cases paged : turn.paged c with
  | none => exact noted
  | some mode => exact noted.trans (kept_breakpoint ((safe.kept noted).paged c mode paged))

theorem kept_paging {p : Paging} (available : p.multifaceAvailable = m.paging.multifaceAvailable)
    (button : p.ic8bQ = m.paging.ic8bQ)
    (didaktik80 : m.pc = 0x0066 → p.didaktik80Active = m.paging.didaktik80Active) :
    Kept m { m with paging := p } where
  conditions c := by cases c <;> rfl
  due := id
  pc := rfl
  gdbserver := rfl
  activated i := by
    unfold activatedAfter Machine.answering
    dsimp only
    rw [available, button]
  didaktik80 := didaktik80

/-- A call that pages a ROM in or out. -/
theorem kept_page {c : Check} (safe : Safe turn m) (callee : Call) {p : Paging}
    (available : p.multifaceAvailable = m.paging.multifaceAvailable)
    (button : p.ic8bQ = m.paging.ic8bQ)
    (didaktik80 : m.pc = 0x0066 → p.didaktik80Active = m.paging.didaktik80Active) :
    Kept m (call turn c callee { m with paging := p }) :=
  have paged := kept_paging available button didaktik80
  paged.trans (kept_call (safe.kept paged) callee)

/-- The button of the device that answers is no longer pushed. -/
theorem activated_answering {i : Multiface} (answering : m.answering = some i) :
    Function.update m.flags.multifaceActivated i false = activatedAfter m := by
  funext j
  by_cases same : j = i
  · subst same
    simp [activatedAfter, answering]
  · have other : some i ≠ some j := fun eq => same (Option.some.inj eq).symm
    rw [Function.update_of_ne same, activatedAfter, answering]
    simp [other]

theorem condition_multiface (m : Machine) :
    condition .multiface m = true ↔ ∃ i, m.flags.multifaceActivated i = true := by
  constructor
  · intro on
    simp only [condition, Bool.or_eq_true] at on
    rcases on with (on | on) | on
    · exact ⟨_, on⟩
    · exact ⟨_, on⟩
    · exact ⟨_, on⟩
  · rintro ⟨i, on⟩
    cases i <;> simp [condition, on]

theorem kept_setic8 (safe : Safe turn m) (at66 : m.pc = 0x0066)
    (on : condition .multiface m = true) : Kept m (multifaceSetic8 turn m) := by
  unfold multifaceSetic8
  cases answering : m.answering with
  | none => exact .refl m
  | some i =>
    dsimp only
    rw [activated_answering answering]
    have cleared : Kept m { m with
        paging.ic8aQ := Function.update m.paging.ic8aQ i false
        flags.multifaceActivated := activatedAfter m } := by
      refine ⟨fun c => ?_, id, rfl, rfl, fun j => ?_, fun _ => rfl⟩
      · cases c
        case multiface => rw [on, condition_multiface]; exact safe.multiface at66 on
        all_goals rfl
      · show (activatedAfter m j && _) = activatedAfter m j
        rw [activatedAfter, Bool.and_assoc]
        exact congrArg (m.flags.multifaceActivated j && ·) (Bool.and_self _)
    split
    · exact cleared
    · exact cleared.trans (kept_page (safe.kept cleared) _ rfl rfl fun _ => rfl)

/-- What a body does that neither leaves nor runs the debugger. -/
inductive Keeps (turn : Turn) (c : Check) (m m' : Machine) : Prop
  | kept (kept : Kept m m')
  | iff2 (own : c = .z80Iff2Read) (due : m'.Due) (safe : Safe turn m')
    (others : ∀ d, d ≠ .z80Iff2Read → condition d m' = condition d m)

theorem bodyOf_keeps {c : Check} (safe : Safe turn m) (on : condition c m = true)
    (no_debugger : c ≠ .debugger) (run : bodyOf turn c m = .go m') : Keeps turn c m m' := by
  cases c <;> simp only [bodyOf] at run
  case debugger => exact absurd rfl no_debugger
  case profile =>
    cases run
    exact .kept (kept_note _ m)
  case rzx =>
    split at run
    · cases run
    · cases run
      exact .kept (.refl m)
  case automation =>
    split at run
    · cases run
    · cases run
      exact .kept (.refl m)
  case beta =>
    split at run
    · split at run
      · cases run
        exact .kept (kept_page safe _ rfl rfl fun _ => rfl)
      · cases run
        exact .kept (.refl m)
    · split at run
      · cases run
        exact .kept (kept_page safe _ rfl rfl fun _ => rfl)
      · cases run
        exact .kept (.refl m)
  case plusd =>
    split at run
    · cases run
      exact .kept (kept_call safe _)
    · cases run
      exact .kept (.refl m)
  case didaktik80 =>
    split at run
    · rename_i reset
      cases run
      refine .kept (kept_page safe _ rfl rfl fun at66 => ?_)
      rw [at66] at reset
      exact absurd reset (by decide)
    · split at run
      · rename_i unpage
        cases run
        refine .kept (kept_page safe _ rfl rfl fun at66 => ?_)
        rw [at66] at unpage
        exact absurd unpage (by decide)
      · cases run
        exact .kept (.refl m)
  case disciple =>
    split at run
    · cases run
      exact .kept (kept_call safe _)
    · split at run
      · cases run
        exact .kept (kept_call safe _)
      · cases run
        exact .kept (.refl m)
  case usource =>
    split at run
    · cases run
      exact .kept (kept_note _ m)
    · cases run
      exact .kept (.refl m)
  case uspeech =>
    split at run
    · cases run
      exact .kept (kept_call safe _)
    · cases run
      exact .kept (.refl m)
  case multiface =>
    split at run
    · rename_i at66
      cases run
      exact .kept (kept_setic8 safe at66 on)
    · cases run
      exact .kept (.refl m)
  case if1p =>
    split at run
    · cases run
      exact .kept (kept_call safe _)
    · cases run
      exact .kept (.refl m)
  case divideEarly =>
    split at run
    · cases run
      exact .kept (kept_call safe _)
    · cases run
      exact .kept (.refl m)
  case expansionBusEarly =>
    cases run
    have called : Kept m (call turn .expansionBusEarly (.expansionBusM1Begin m.pc) m) :=
      kept_call safe _
    split
    · exact .kept (called.trans (kept_eventAdd 0 _))
    · exact .kept called
  case evenm1 =>
    have waited : Kept m { m with tstates := m.tstates + 1 } := by
      refine ⟨fun c => by cases c <;> rfl, fun due => ?_, rfl, rfl, fun _ => rfl, fun _ => rfl⟩
      have before : ¬ m.tstates < m.eventNextEvent := due
      show ¬ m.tstates + 1 < m.eventNextEvent
      omega
    split at run
    · split at run
      · cases run
      · cases run
        exact .kept waited
    · cases run
      exact .kept (.refl m)
  case if1u =>
    split at run
    · cases run
      exact .kept (kept_call safe _)
    · cases run
      exact .kept (.refl m)
  case divideLate =>
    split at run
    · cases run
      exact .kept (kept_call safe _)
    · split at run
      · cases run
        exact .kept (kept_call safe _)
      · cases run
        exact .kept (.refl m)
  case expansionBusLate =>
    cases run
    exact .kept (kept_call safe _)
  case opus =>
    split at run
    · split at run
      · cases run
        exact .kept (kept_page safe _ rfl rfl fun _ => rfl)
      · cases run
        exact .kept (.refl m)
    · split at run
      · cases run
        exact .kept (kept_page safe _ rfl rfl fun _ => rfl)
      · cases run
        exact .kept (.refl m)
  case z80Iff2Read =>
    cases run
    have cleared : Safe turn { m with flags.iff2Read := false } :=
      ⟨safe.paged, safe.breakpoints, safe.multiface, safe.didaktik80snap⟩
    refine .iff2 rfl (due_eventAdd { m with flags.iff2Read := false })
      (cleared.kept (kept_eventAdd m.tstates _)) fun d other => ?_
    cases d
    case z80Iff2Read => exact absurd rfl other
    all_goals rfl
  case didaktik80snap =>
    split at run
    · rename_i snap
      rw [safe.didaktik80snap snap.1 on] at snap
      exact absurd snap.2 Bool.false_ne_true
    · cases run
      exact .kept (.refl m)
  case svgCapture =>
    cases run
    exact .kept (kept_note _ m)

/-! ## What an opcode keeps -/

/-- The conditions are as they were on entry, or the loop is left before they are tested. -/
def UpToDate (on : Check → Bool) (m : Machine) : Prop :=
  (∀ c, condition c m = on c) ∨ m.Due

variable {on : Check → Bool}

theorem UpToDate.kept (current : UpToDate on m) (kept : Kept m m') : UpToDate on m' := by
  rcases current with current | due
  · exact .inl fun c => (kept.conditions c).trans (current c)
  · exact .inr (kept.due due)

theorem upToDate_apply {effect : Effect}
    (enabled : ∀ mode, effect = .breakpoint mode → StaysEnabled m mode)
    (current : UpToDate on m) :
    UpToDate on (effect.apply m) ∧
      (effect.apply m).flags.gdbserverEnabled = m.flags.gdbserverEnabled := by
  have quiet {m' : Machine} (flags : m'.flags = m.flags) (due : m.Due → m'.Due) :
      UpToDate on m' ∧ m'.flags.gdbserverEnabled = m.flags.gdbserverEnabled := by
    constructor
    · refine current.imp (fun current c => ?_) due
      rw [← current c]
      cases c <;> simp only [condition, flags]
    · rw [flags]
  cases effect with
  | wait count =>
    refine quiet rfl fun due => ?_
    have before : ¬ m.tstates < m.eventNextEvent := due
    show ¬ m.tstates + count < m.eventNextEvent
    omega
  | jump pc => exact quiet rfl id
  | counter r offset => exact quiet rfl id
  | paging state => exact quiet rfl id
  | event time => exact quiet rfl (kept_eventAdd time m).due
  | breakpoint mode =>
    have kept := kept_breakpoint (enabled mode rfl)
    exact ⟨current.kept kept, kept.gdbserver⟩
  | readIff2 => exact ⟨.inr (due_eventAdd { m with flags.iff2Read := true }), rfl⟩
  | readPort error =>
    rw [Effect.apply]
    split
    · exact ⟨.inr (due_eventAdd (rzxStopPlayback m)), rfl⟩
    · exact ⟨current, rfl⟩

theorem upToDate_effects {effects : List Effect}
    (enabled : ∀ mode, .breakpoint mode ∈ effects → StaysEnabled m mode)
    (current : UpToDate on m) :
    UpToDate on (effects.foldl (fun m effect => effect.apply m) m) := by
  induction effects generalizing m with
  | nil => exact current
  | cons effect effects ih =>
    obtain ⟨current', gdbserver⟩ := @upToDate_apply m on effect
      (fun mode same => enabled mode (same ▸ List.mem_cons_self)) current
    refine ih (fun mode member => ?_) current'
    rw [StaysEnabled, gdbserver]
    exact enabled mode (List.mem_cons_of_mem effect member)

/-! ## One opcode -/

def allChecks : List Check := z80Checks.flatMap Section.checks

/-- What holds in front of the checks that are left: nothing has happened before the check
for the debugger, and behind it the rest of the opcode is safe. -/
structure Ahead (turn : Turn) (m₀ : Machine) (left : List Check) (m : Machine) : Prop where
  place : left <:+ allChecks
  before : .debugger ∈ left → ∃ log, m = { m₀ with log := log }
  safe : .debugger ∉ left → Safe turn m
  current : UpToDate (condition · m₀) m

/-- Only three checks stand before the one for the debugger. -/
theorem before_debugger {c : Check} {later : List Check} (place : c :: later <:+ allChecks)
    (debugger : .debugger ∈ later) : c = .profile ∨ c = .rzx ∨ c = .automation := by
  have all : ∀ left ∈ allChecks.tails, .debugger ∈ left.tail →
      left.head? = some .profile ∨ left.head? = some .rzx ∨ left.head? = some .automation := by
    decide
  have here := all (c :: later) ((List.mem_tails _ _).mpr place) debugger
  simpa using here

theorem not_mem_later {c : Check} {later : List Check} (place : c :: later <:+ allChecks) :
    c ∉ later := by
  have distinct : allChecks.Nodup := by decide
  exact (List.nodup_cons.mp (distinct.sublist place.sublist)).1

variable {m₀ : Machine}

theorem condition_log (c : Check) (m : Machine) (log : List Entry) :
    condition c { m with log := log } = condition c m := by
  cases c <;> rfl

theorem kept_log (m : Machine) (log : List Entry) : Kept m { m with log := log } :=
  ⟨fun c => condition_log c m log, id, rfl, rfl, fun _ => rfl, fun _ => rfl⟩

theorem debuggerBody_log (m : Machine) (log : List Entry) :
    debuggerBody turn { m with log := log } = { debuggerBody turn m with log := log } := by
  unfold debuggerBody
  dsimp only
  split
  · rfl
  · cases turn.trap <;> rfl

theorem Ahead.passes (steady : SteadyOpcode turn m₀) {c : Check} {later : List Check}
    (ahead : Ahead turn m₀ (c :: later) m) (off : condition c m = false) :
    Ahead turn m₀ later m where
  place := (List.suffix_cons c later).trans ahead.place
  before debugger := ahead.before (List.mem_cons_of_mem c debugger)
  safe no_debugger := by
    by_cases here : c = .debugger
    · subst here
      obtain ⟨log, rfl⟩ := ahead.before List.mem_cons_self
      have inactive : m₀.flags.debuggerMode = .inactive := by
        simp only [condition, Bool.or_eq_false_iff, decide_eq_false_iff_not, not_not] at off
        exact off.1
      have untouched : debuggerBody turn m₀ = m₀ := if_pos inactive
      have safe := steady.safe
      rw [untouched] at safe
      exact safe.kept (kept_log m₀ log)
    · refine ahead.safe fun member => ?_
      rcases List.mem_cons.mp member with same | member
      · exact here same.symm
      · exact no_debugger member
  current := ahead.current

/-- The check for the debugger. -/
theorem Ahead.debugger (steady : SteadyOpcode turn m₀) {later : List Check}
    (ahead : Ahead turn m₀ (.debugger :: later) m)
    (executed : body turn .debugger m = .go m') :
    Ahead turn m₀ later m' ∧ ∀ d, condition d m' = condition d m := by
  obtain ⟨log, rfl⟩ := ahead.before List.mem_cons_self
  have trapped : debuggerBody turn { m₀ with log := log ++ [.check .debugger] } = m' :=
    Outcome.go.inj executed
  rw [debuggerBody_log] at trapped
  subst trapped
  have same : ∀ d, condition d { debuggerBody turn m₀ with log := log ++ [.check .debugger] } =
      condition d m₀ := fun d => (condition_log d _ _).trans (steady.trap d)
  refine ⟨⟨(List.suffix_cons _ later).trans ahead.place, fun again => ?_, fun _ => ?_, .inl same⟩,
    fun d => (same d).trans (condition_log d m₀ log).symm⟩
  · exact absurd again (not_mem_later ahead.place)
  · exact steady.safe.kept (kept_log _ _)

/-- The checks before the one for the debugger. -/
theorem Ahead.untouched {c : Check} {later : List Check}
    (ahead : Ahead turn m₀ (c :: later) m) (debugger : .debugger ∈ later)
    (executed : body turn c m = .go m') :
    Ahead turn m₀ later m' ∧ ∀ d, condition d m' = condition d m := by
  obtain ⟨log, rfl⟩ := ahead.before (List.mem_cons_of_mem c debugger)
  have same : ∃ log', m' = { m₀ with log := log' } := by
    rcases before_debugger ahead.place debugger with rfl | rfl | rfl
    · cases executed
      exact ⟨_, rfl⟩
    · simp only [body, bodyOf] at executed
      split at executed
      · cases executed
      · cases executed
        exact ⟨_, rfl⟩
    · simp only [body, bodyOf] at executed
      split at executed
      · cases executed
      · cases executed
        exact ⟨_, rfl⟩
  obtain ⟨log', rfl⟩ := same
  exact ⟨⟨(List.suffix_cons c later).trans ahead.place, fun _ => ⟨log', rfl⟩,
    fun no => absurd debugger no, .inl fun d => condition_log d m₀ log'⟩,
    fun d => (condition_log d m₀ log').trans (condition_log d m₀ log).symm⟩

theorem Ahead.performs (steady : SteadyOpcode turn m₀) {c : Check} {later : List Check}
    (ahead : Ahead turn m₀ (c :: later) m) (on : condition c m = true)
    (executed : body turn c m = .go m') :
    Ahead turn m₀ later m' ∧ ∀ d, d ≠ c → condition d m' = condition d m := by
  by_cases here : c = .debugger
  · subst here
    obtain ⟨ahead', same⟩ := ahead.debugger steady executed
    exact ⟨ahead', fun d _ => same d⟩
  · by_cases debugger : .debugger ∈ later
    · obtain ⟨ahead', same⟩ := ahead.untouched debugger executed
      exact ⟨ahead', fun d _ => same d⟩
    · have none_left : .debugger ∉ c :: later := by
        intro member
        rcases List.mem_cons.mp member with same | member
        · exact here same.symm
        · exact debugger member
      have noted := kept_note (.check c) m
      have safe := (ahead.safe none_left).kept noted
      have place : later <:+ allChecks := (List.suffix_cons c later).trans ahead.place
      rcases bodyOf_keeps safe ((noted.conditions c).trans on) here executed with
        kept | ⟨rfl, due, safe', others⟩
      · have kept' := noted.trans kept
        exact ⟨⟨place, fun again => absurd again debugger, fun _ => safe.kept kept,
          ahead.current.kept kept'⟩, fun d _ => kept'.conditions d⟩
      · exact ⟨⟨place, fun again => absurd again debugger, fun _ => safe', .inr due⟩,
          fun d other => (others d other).trans (noted.conditions d)⟩

/-- The code before the opcode. -/
theorem Ahead.code {l : Label} {left : List Check} (ahead : Ahead turn m₀ left m)
    (no_debugger : .debugger ∉ left) (early : l ≠ .endOpcode)
    (executed : code turn l m = .go m') :
    Ahead turn m₀ left m' ∧ ∀ d, condition d m' = condition d m := by
  have kept : Kept m m' := by
    cases l with
    | endOpcode => exact absurd rfl early
    | opcodeDelay =>
      cases executed
      refine ⟨fun c => by cases c <;> rfl, fun due => ?_, rfl, rfl, fun _ => rfl, fun _ => rfl⟩
      have before : ¬ m.tstates < m.eventNextEvent := due
      show ¬ m.tstates + turn.contendRead < m.eventNextEvent
      omega
    | runOpcode =>
      cases executed
      exact ⟨fun c => by cases c <;> rfl, id, rfl, rfl, fun _ => rfl, fun _ => rfl⟩
  exact ⟨⟨ahead.place, fun again => absurd again no_debugger,
    fun no => (ahead.safe no).kept kept, ahead.current.kept kept⟩, kept.conditions⟩

/-- The opcode. -/
theorem Ahead.executed (ahead : Ahead turn m₀ [] m) (executed : Z80.code turn .endOpcode m = .go m') :
    UpToDate (condition · m₀) m' := by
  obtain rfl := Outcome.go.inj executed
  have safe : Safe turn m := ahead.safe List.not_mem_nil
  refine upToDate_effects (fun mode member => safe.breakpoints _ mode member) ?_
  refine ahead.current.imp (fun current c => ?_) id
  rw [← current c]
  cases c <;> rfl

/-- The checks of a section. -/
theorem plainChecks_spec (steady : SteadyOpcode turn m₀) (checks later : List Check)
    (ahead : Ahead turn m₀ (checks ++ later) m)
    (current : Current condition (condition · m₀) (checks ++ later) m) :
    plainChecks condition (body turn) checks m =
        plainChecks (fun c _ => condition c m₀) (body turn) checks m ∧
      ∀ m', plainChecks condition (body turn) checks m = .go m' →
        Ahead turn m₀ later m' ∧ Current condition (condition · m₀) later m' := by
  have distinct : allChecks.Nodup := by decide
  exact @plainChecks_of_current Check Machine condition (condition · m₀) (body turn) checks
    (Ahead turn m₀) (fun _ _ _ ahead off => ahead.passes steady off)
    (fun _ _ _ _ ahead on executed => ahead.performs steady on executed) later
    (distinct.sublist ahead.place.sublist) m ahead current

/-- The loops agree on an opcode, and behind it the table is up to date or not used again. -/
theorem opcode_spec (steady : SteadyOpcode turn m₀) :
    runPlain condition (body turn) (code turn) z80Checks m₀ =
        runPlain (fun c _ => condition c m₀) (body turn) (code turn) z80Checks m₀ ∧
      ∀ m', runPlain condition (body turn) (code turn) z80Checks m₀ = .go m' →
        UpToDate (condition · m₀) m' := by
  have start : Ahead turn m₀ allChecks m₀ :=
    ⟨List.suffix_rfl, fun _ => ⟨m₀.log, rfl⟩, fun no => absurd (by decide) no, .inl fun _ => rfl⟩
  obtain ⟨same₁, after₁⟩ := plainChecks_spec steady fetchSection.checks
    (evenSection.checks ++ opcodeSection.checks) start fun _ _ => rfl
  have second {s' s'' : Machine}
      (executed : plainChecks condition (body turn) fetchSection.checks m₀ = .go s')
      (coded : code turn .opcodeDelay s' = .go s'') := by
    obtain ⟨ahead, current⟩ := after₁ s' executed
    obtain ⟨ahead', same⟩ := ahead.code (by decide) (by decide) coded
    exact plainChecks_spec steady evenSection.checks opcodeSection.checks ahead'
      fun c member => (same c).trans (current c member)
  have third {s' s'' t' t'' : Machine}
      (executed : plainChecks condition (body turn) fetchSection.checks m₀ = .go s')
      (coded : code turn .opcodeDelay s' = .go s'')
      (executed' : plainChecks condition (body turn) evenSection.checks s'' = .go t')
      (coded' : code turn .runOpcode t' = .go t'') := by
    obtain ⟨ahead, current⟩ := (second executed coded).2 t' executed'
    obtain ⟨ahead', same⟩ := ahead.code (by decide) (by decide) coded'
    exact plainChecks_spec steady opcodeSection.checks [] ahead'
      fun c member => (same c).trans (current c member)
  constructor
  · refine runPlain_section same₁ fun s' s'' executed coded => ?_
    refine runPlain_section (second executed coded).1 fun t' t'' executed' coded' => ?_
    exact runPlain_section (third executed coded executed' coded').1 fun _ _ _ _ => rfl
  · intro m' run
    obtain ⟨s', s'', executed, coded, run⟩ := runPlain_go run
    obtain ⟨t', t'', executed', coded', run⟩ := runPlain_go run
    obtain ⟨u', u'', executed'', coded'', run⟩ := runPlain_go run
    obtain ⟨ahead, -⟩ := (third executed coded executed' coded').2 u' executed''
    obtain rfl : u'' = m' := Outcome.go.inj run
    exact ahead.executed coded''

/-! ## The runs -/

/-- The two loops are in the same state, and where the table is used next, it is the one
for the conditions of the machine. -/
structure Agree (j : JumpLoop) (p : PlainLoop) : Prop where
  loop : j.toPlainLoop = p
  table : j.inside = true → ¬ j.machine.Due → j.cgoto = cgotoOf j.machine

theorem cgotoOf_congr (same : ∀ c, condition c m' = condition c m) : cgotoOf m' = cgotoOf m := by
  unfold cgotoOf
  rw [funext same]

/-- An opcode with the table of its machine. -/
theorem runChain_spec (steady : SteadyOpcode turn m) :
    runChain (cgotoOf m) (body turn) (code turn) 0 z80Checks m =
      some (runPlain condition (body turn) (code turn) z80Checks m) := by
  rw [(opcode_spec steady).1]
  exact runChain_setup (condition · m) z80Checks m

theorem agree_opcode {j : JumpLoop} (steady : SteadyOpcode turn j.machine)
    (table : j.cgoto = cgotoOf j.machine) :
    let p := j.next (runPlain condition (body turn) (code turn) z80Checks j.machine)
    Agree { j with toPlainLoop := p } p := by
  refine ⟨rfl, fun inside awaited => ?_⟩
  have after := (opcode_spec steady).2
  generalize runPlain condition (body turn) (code turn) z80Checks j.machine = outcome
    at after inside awaited ⊢
  cases outcome with
  | leave m' => cases inside
  | go m' =>
    rcases after m' rfl with current | due
    · exact table.trans (cgotoOf_congr current).symm
    · exact absurd due awaited

/-- A step of the one is a step of the other. -/
theorem step_agree {j : JumpLoop} {p : PlainLoop} {act : Act} (agree : Agree j p)
    (steady : Steady p act) :
    (stepJump j act = none ∧ stepPlain p act = none) ∨
      ∃ j' p', stepJump j act = some j' ∧ stepPlain p act = some p' ∧ Agree j' p' := by
  obtain ⟨rfl, table⟩ := agree
  cases act with
  | enter =>
    by_cases inside : j.inside = true
    · exact .inl ⟨if_pos inside, if_pos inside⟩
    · exact .inr ⟨_, _, if_neg inside, if_neg inside, rfl, fun _ _ => rfl⟩
  | opcode turn =>
    by_cases runs : j.inside ∧ ¬ j.machine.Due
    · have up_to_date := table runs.1 runs.2
      refine .inr ⟨_, _, ?_, if_pos runs, agree_opcode steady up_to_date⟩
      rw [stepJump, if_pos runs, up_to_date, runChain_spec steady]
      rfl
    · exact .inl ⟨if_neg runs, if_neg runs⟩
  | leave =>
    by_cases ends : j.inside ∧ j.machine.Due
    · exact .inr ⟨_, _, if_pos ends, if_pos ends, rfl, nofun⟩
    · exact .inl ⟨if_neg ends, if_neg ends⟩
  | events after =>
    by_cases inside : j.inside = true
    · exact .inl ⟨if_pos inside, if_pos inside⟩
    · exact .inr ⟨_, _, if_neg inside, if_neg inside, rfl, fun inside' => absurd inside' inside⟩

/-- In runs whose opcodes are steady, the loop with the computed gotos performs what the
loop does that tests every condition, and the table is up to date at each opcode. -/
theorem loops_agree (m : Machine) (acts : List Act) :
    (∀ j, Runs stepJump (fun j => Steady j.toPlainLoop) (.start m) acts j →
      Runs stepPlain anyStep { machine := m } acts j.toPlainLoop ∧
        (j.inside = true → ¬ j.machine.Due → j.cgoto = cgotoOf j.machine)) ∧
    (∀ p, Runs stepPlain Steady { machine := m } acts p →
      ∃ j, Runs stepJump anyStep (.start m) acts j ∧ j.toPlainLoop = p) := by
  have init : Agree (.start m) { machine := m } := ⟨rfl, nofun⟩
  constructor
  · intro j run
    obtain ⟨p, run', rfl, table⟩ := run.follow init fun j p act next agree steady stepEq => by
      obtain ⟨none_, -⟩ | ⟨j', p', step, step', agree'⟩ := step_agree agree (agree.loop ▸ steady)
      · rw [none_] at stepEq
        cases stepEq
      · obtain rfl := Option.some.inj (step.symm.trans stepEq)
        exact ⟨p', step', agree'⟩
    exact ⟨run', table⟩
  · intro p run
    obtain ⟨j, run', agree⟩ := @Runs.follow PlainLoop Act stepPlain Steady _ JumpLoop stepJump _
      (fun p j => Agree j p) acts p run init fun p j act next agree steady stepEq => by
        obtain ⟨-, none_⟩ | ⟨j', p', step, step', agree'⟩ := step_agree agree steady
        · rw [none_] at stepEq
          cases stepEq
        · obtain rfl := Option.some.inj (step'.symm.trans stepEq)
          exact ⟨j', step, agree'⟩
    exact ⟨j, run', agree.loop⟩

/-! ## A check that switches itself off -/

/-- An opcode that is not at 0x0066 and meets no breakpoint. -/
theorem steady_of_quiet (no_trap : turn.trap = none) (no_page : ∀ c, turn.paged c = none)
    (no_breakpoint : ∀ opcode mode, .breakpoint mode ∉ turn.effects opcode)
    (elsewhere : m.pc ≠ 0x0066) : SteadyOpcode turn m := by
  have untouched : debuggerBody turn m = m := by
    unfold debuggerBody
    rw [no_trap]
    split <;> rfl
  refine ⟨fun c => by rw [untouched], ?_⟩
  rw [untouched]
  refine ⟨fun c mode paged => ?_, fun opcode mode member => ?_, fun at66 => ?_, fun at66 => ?_⟩
  · rw [no_page] at paged
    cases paged
  · exact absurd member (no_breakpoint opcode mode)
  · exact absurd at66 elsewhere
  · exact absurd at66 elsewhere

def readIff2 : Turn := { opcode := 0xed, effects := fun _ => [.wait 5, .readIff2] }

/-- After the event. -/
def interrupted : Machine :=
  { tstates := 9, eventNextEvent := 69888, pc := 0x8002, flags := { iff2Read := true } }

/-- `LD A,I`, and `NOP` in the next call. -/
def readIff2Acts : List Act :=
  [.enter, .opcode readIff2, .leave, .events interrupted, .enter, .opcode {}]

def readIff2Machine : Machine := { tstates := 0, eventNextEvent := 69888, pc := 0x8000 }

theorem loops_agree_readIff2 :
    ∃ j, Runs stepJump (fun j => Steady j.toPlainLoop) (.start readIff2Machine) readIff2Acts j ∧
      Runs stepPlain anyStep { machine := readIff2Machine } readIff2Acts j.toPlainLoop ∧
      .check .z80Iff2Read ∈ j.machine.log := by
  have quiet : ∀ opcode mode, .breakpoint mode ∉ readIff2.effects opcode := by
    simp [readIff2]
  have nop : ∀ opcode mode, .breakpoint mode ∉ ({} : Turn).effects opcode := by simp
  have run : ∃ j, Runs stepJump (fun j => Steady j.toPlainLoop) (.start readIff2Machine)
      ((((([] ++ [.enter]) ++ [.opcode readIff2]) ++ [.leave]) ++ [.events interrupted]) ++ [.enter] ++
        [.opcode {}]) j ∧
      .check .z80Iff2Read ∈ j.machine.log := by
    refine ⟨_, .snoc (.snoc (.snoc (.snoc (.snoc (.snoc .nil trivial (Option.some_get ?_).symm)
      (steady_of_quiet rfl (fun _ => rfl) quiet ?_) (Option.some_get ?_).symm) trivial
      (Option.some_get ?_).symm) trivial (Option.some_get ?_).symm) trivial
      (Option.some_get ?_).symm)
      (steady_of_quiet rfl (fun _ => rfl) nop ?_) (Option.some_get ?_).symm, ?_⟩ <;>
      decide
  obtain ⟨j, run, read⟩ := run
  exact ⟨j, run, ((loops_agree readIff2Machine readIff2Acts).1 j run).1, read⟩

/-- The red button has been pushed, and the NMI taken. -/
def redButton : Machine :=
  { tstates := 11, eventNextEvent := 69888, pc := 0x0066
    flags := { multifaceActivated := fun i => i = .mf1 }
    paging := { multifaceAvailable := fun i => i = .mf1, ic8bQ := fun i => i ≠ .mf1 } }

/-- `IN A,(31)` pages the Multiface out, and 0x0066 is reached a second time. -/
def backAt66 : List Act :=
  let out : Paging := { redButton.paging with multifaceActive := fun _ => false }
  [.enter, .opcode { opcode := 0xdb, effects := fun _ => [.wait 7, .paging out, .jump 0x0068] },
    .opcode { opcode := 0xc3, effects := fun _ => [.wait 6, .jump 0x0066] }, .opcode {}]

/-- The chain still has the check, and pages the Multiface in. -/
theorem loops_disagree :
    ¬ ∀ (m : Machine) (acts : List Act) (j : JumpLoop), Runs stepJump anyStep (.start m) acts j →
      Runs stepPlain anyStep { machine := m } acts j.toPlainLoop := by
  intro always
  have jumps : (backAt66.foldlM stepJump (.start redButton)).map
      (fun j => j.machine.paging.multifaceActive .mf1) = some true := by decide
  have tests : (backAt66.foldlM stepPlain { machine := redButton }).map
      (fun p => p.machine.paging.multifaceActive .mf1) = some false := by decide
  obtain ⟨j, jumped, paged⟩ := Option.map_eq_some_iff.mp jumps
  obtain ⟨p, tested, unpaged⟩ := Option.map_eq_some_iff.mp tests
  obtain rfl := (always redButton backAt66 j (Runs.of_foldlM jumped)).functional
    (Runs.of_foldlM tested)
  rw [paged] at unpaged
  cases unpaged

end FuseX.Z80
