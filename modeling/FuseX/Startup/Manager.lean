import FuseX.Lib.Dependencies

/-!
# The startup manager

`startup_manager.c`. Modules are registered with the modules they depend on, and
`startup_manager_run` calls the init function of each module that has no dependency
left, until it makes no more progress. A module that has been called leaves the
array and the dependencies of the others; `g_array_remove_index_fast` puts the last
element of an array in the place of the one that leaves.

Of the ids of the modules only equality is used. An init or an end function is a
function on the state of the program. The order of the calls is kept beside the
code's own arrays.
-/

namespace FuseX.Startup

variable {α σ β : Type}

/-! ## Arrays -/

/-- `g_array_remove_index_fast`. -/
def removeIndexFast (xs : List β) (i : Nat) : List β :=
  match xs.getLast? with
  | none => []
  | some last => (xs.set i last).dropLast

/-- `registered_module_t`. -/
structure RegisteredModule (α σ : Type) : Type where
  module : α
  dependencies : List α
  initFn : Option (σ → Int × σ)
  endFn : Option (σ → σ)

/-- The arrays of the manager and the state of the program. -/
structure Manager (α σ : Type) : Type where
  registeredModules : List (RegisteredModule α σ)
  endFunctions : List (σ → σ)
  world : σ
  /-- the modules started, in order -/
  started : List α

/-! ## Running -/

variable [DecidableEq α]

/-- `remove_dependency`, for one module. -/
def removeFrom (module : α) (r : RegisteredModule α σ) : RegisteredModule α σ :=
  if module ∈ r.dependencies then
    { r with dependencies := removeIndexFast r.dependencies (r.dependencies.idxOf module) }
  else r

/-- `remove_dependency`. -/
def removeDependency (module : α) (registered : List (RegisteredModule α σ)) :
    List (RegisteredModule α σ) :=
  registered.map (removeFrom module)

/-- The call of an init function. -/
def callInit (r : RegisteredModule α σ) (world : σ) : Int × σ :=
  match r.initFn with
  | none => (0, world)
  | some initFn => initFn world

/-- A module at `i` whose init function succeeded: it leaves the array. -/
def start (r : RegisteredModule α σ) (i : Nat) (world : σ) (m : Manager α σ) : Manager α σ where
  registeredModules := removeIndexFast (removeDependency r.module m.registeredModules) i
  endFunctions := m.endFunctions ++ r.endFn.toList
  world := world
  started := m.started ++ [r.module]

/-- A run that an init function ended with an error. -/
structure Failure (α σ : Type) : Type where
  error : Int
  module : α
  manager : Manager α σ

theorem length_removeIndexFast (xs : List β) (i : Nat) :
    (removeIndexFast xs i).length = xs.length - 1 := by
  unfold removeIndexFast
  rcases xs with _ | ⟨x, xs⟩
  · rfl
  · rw [List.getLast?_cons]
    simp

theorem length_start (r : RegisteredModule α σ) (i : Nat) (world : σ) (m : Manager α σ) :
    (start r i world m).registeredModules.length = m.registeredModules.length - 1 := by
  rw [start, length_removeIndexFast, removeDependency, List.length_map]

/-- The inner loop of `startup_manager_run`, with whether progress was made. -/
def pass (i : Nat) (progressMade : Bool) (m : Manager α σ) :
    Except (Failure α σ) (Bool × Manager α σ) :=
  if inside : i < m.registeredModules.length then
    let r := m.registeredModules[i]
    let call := callInit r m.world
    if r.dependencies ≠ [] then pass (i + 1) progressMade m
    else if call.1 ≠ 0 then .error ⟨call.1, r.module, { m with world := call.2 }⟩
    else pass i true (start r i call.2 m)
  else .ok (progressMade, m)
termination_by m.registeredModules.length - i
decreasing_by
  · omega
  · rw [length_start]
    omega

section Pass

variable {i : Nat} {progressMade progressMade' : Bool} {m m' : Manager α σ}
  {failure : Failure α σ}

theorem pass_done (outside : ¬ i < m.registeredModules.length) :
    pass i progressMade m = .ok (progressMade, m) := by
  rw [pass, dif_neg outside]

theorem pass_blocked (inside : i < m.registeredModules.length)
    (blocked : m.registeredModules[i].dependencies ≠ []) :
    pass i progressMade m = pass (i + 1) progressMade m := by
  rw [pass, dif_pos inside, if_pos blocked]

theorem pass_failed (inside : i < m.registeredModules.length)
    (ready : m.registeredModules[i].dependencies = [])
    (failed : (callInit m.registeredModules[i] m.world).1 ≠ 0) :
    pass i progressMade m = .error ⟨(callInit m.registeredModules[i] m.world).1,
      m.registeredModules[i].module,
      { m with world := (callInit m.registeredModules[i] m.world).2 }⟩ := by
  rw [pass, dif_pos inside, if_neg (not_not.mpr ready), if_pos failed]

theorem pass_started (inside : i < m.registeredModules.length)
    (ready : m.registeredModules[i].dependencies = [])
    (succeeded : (callInit m.registeredModules[i] m.world).1 = 0) :
    pass i progressMade m = pass i true
      (start m.registeredModules[i] i (callInit m.registeredModules[i] m.world).2 m) := by
  rw [pass, dif_pos inside, if_neg (not_not.mpr ready), if_neg (not_not.mpr succeeded)]

/-- A pass that makes no progress changes nothing: each module is blocked. -/
theorem pass_idle (passed : pass i progressMade m = .ok (false, m')) :
    progressMade = false ∧ m' = m ∧
      ∀ k (inside : k < m.registeredModules.length), i ≤ k →
        m.registeredModules[k].dependencies ≠ [] := by
  induction i, progressMade, m using pass.induct with
  | case1 i progressMade m inside r blocked ih =>
    rw [pass_blocked inside blocked] at passed
    obtain ⟨none, same, all⟩ := ih passed
    refine ⟨none, same, fun k k_inside from_i => ?_⟩
    rcases Nat.eq_or_lt_of_le from_i with rfl | later
    · exact blocked
    · exact all k k_inside later
  | case2 i progressMade m inside r call ready failed =>
    rw [pass_failed inside (not_not.mp ready) failed] at passed
    cases passed
  | case3 i progressMade m inside r call ready succeeded ih =>
    rw [pass_started inside (not_not.mp ready) (not_not.mp succeeded)] at passed
    exact absurd (ih passed).1 (by decide)
  | case4 i progressMade m outside =>
    rw [pass_done outside] at passed
    cases passed
    exact ⟨rfl, rfl, fun k k_inside from_i => absurd k_inside (by omega)⟩

/-- A pass that makes progress leaves fewer modules. -/
theorem length_pass (passed : pass i progressMade m = .ok (progressMade', m')) :
    m'.registeredModules.length ≤ m.registeredModules.length ∧
      (progressMade = false → progressMade' = true →
        m'.registeredModules.length < m.registeredModules.length) := by
  induction i, progressMade, m using pass.induct with
  | case1 i progressMade m inside r blocked ih =>
    rw [pass_blocked inside blocked] at passed
    exact ih passed
  | case2 i progressMade m inside r call ready failed =>
    rw [pass_failed inside (not_not.mp ready) failed] at passed
    cases passed
  | case3 i progressMade m inside r call ready succeeded ih =>
    rw [pass_started inside (not_not.mp ready) (not_not.mp succeeded)] at passed
    have fewer := (ih passed).1
    rw [length_start] at fewer
    exact ⟨by omega, fun _ _ => by omega⟩
  | case4 i progressMade m outside =>
    rw [pass_done outside] at passed
    cases passed
    refine ⟨Nat.le_refl _, fun none made => ?_⟩
    rw [none] at made
    cases made

end Pass

/-- The outer loop of `startup_manager_run`. -/
def loop (m : Manager α σ) : Except (Failure α σ) (Manager α σ) :=
  match passed : pass 0 false m with
  | .error failure => .error failure
  | .ok (progressMade, m') =>
      if more : progressMade = true ∧ m'.registeredModules ≠ [] then loop m' else .ok m'
termination_by m.registeredModules.length
decreasing_by
  exact (length_pass passed).2 rfl more.1

/-- What `startup_manager_run` returns, with the module whose init function failed. -/
structure RunResult (α σ : Type) : Type where
  error : Int
  failed : Option α
  manager : Manager α σ

/-- `startup_manager_run`. -/
def startupManagerRun (m : Manager α σ) : RunResult α σ :=
  match loop m with
  | .error failure => ⟨failure.error, some failure.module, failure.manager⟩
  | .ok m' => ⟨if m'.registeredModules ≠ [] then 1 else 0, none, m'⟩

omit [DecidableEq α] in
/-- The manager when all modules are registered. -/
def registered (modules : List (RegisteredModule α σ)) (world : σ) : Manager α σ :=
  ⟨modules, [], world, []⟩

/-- The loop of `startup_manager_run_end`. -/
def endLoop (endFunctions : List (σ → σ)) : Nat → σ → σ
  | 0, world => world
  | i + 1, world => endLoop endFunctions i ((endFunctions.getD i id) world)

omit [DecidableEq α] in
/-- `startup_manager_run_end`, at a later state of the program. -/
def startupManagerRunEnd (m : Manager α σ) (world : σ) : σ :=
  endLoop m.endFunctions m.endFunctions.length world

end FuseX.Startup
