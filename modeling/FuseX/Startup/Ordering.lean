import FuseX.Startup.Manager

/-!
# The order of the startup

What holds after each start of a module: the modules started and the ones left make
up the modules registered, what is left of a list of dependencies is what has not
been started, and the modules started are in an order of the dependencies.
-/

namespace FuseX.Startup

open Lib

variable {α σ β : Type}

/-! ## Arrays -/

theorem removeIndexFast_perm {xs : List β} {i : Nat} (inside : i < xs.length) :
    (xs[i] :: removeIndexFast xs i).Perm xs := by
  rcases List.eq_nil_or_concat xs with rfl | ⟨ys, last, rfl⟩
  · cases inside
  · simp only [List.concat_eq_append] at inside ⊢
    have remove_eq : removeIndexFast (ys ++ [last]) i = ((ys ++ [last]).set i last).dropLast := by
      rw [removeIndexFast, List.getLast?_append, List.getLast?_singleton]
      rfl
    rw [List.length_append, List.length_singleton] at inside
    rcases Nat.lt_or_ge i ys.length with front | behind
    · rw [remove_eq, List.set_append_left i last front, List.dropLast_concat,
        List.getElem_append_left front]
      calc (ys[i] :: ys.set i last).Perm (ys[i] :: last :: ys.eraseIdx i) :=
            (List.set_perm_cons_eraseIdx front last).cons _
        _ |>.Perm (last :: ys[i] :: ys.eraseIdx i) := List.Perm.swap _ _ _
        _ |>.Perm (last :: ys) := (List.getElem_cons_eraseIdx_perm front).cons _
        _ |>.Perm (ys ++ [last]) := (List.perm_append_singleton last ys).symm
    · obtain rfl : i = ys.length := by omega
      have set_eq : (ys ++ [last]).set ys.length last = ys ++ [last] := by
        rw [List.set_append_right _ _ (Nat.le_refl _), Nat.sub_self]
        rfl
      rw [remove_eq, set_eq, List.dropLast_concat, List.getElem_concat_length rfl]
      exact (List.perm_append_singleton last ys).symm

theorem mem_of_mem_removeIndexFast {xs : List β} {i : Nat} {x : β} (inside : i < xs.length)
    (member : x ∈ removeIndexFast xs i) : x ∈ xs :=
  (removeIndexFast_perm inside).subset (List.mem_cons_of_mem _ member)

/-! ## Dependencies -/

variable [DecidableEq α]

/-- Exactly the module started leaves a list of dependencies without duplicates. -/
theorem mem_removeFrom {module : α} {r : RegisteredModule α σ} (list : r.dependencies.Nodup) :
    (removeFrom module r).dependencies.Nodup ∧
      ∀ d, d ∈ (removeFrom module r).dependencies ↔ d ∈ r.dependencies ∧ d ≠ module := by
  rw [removeFrom]
  split
  · next member =>
    have inside := List.idxOf_lt_length_of_mem member
    have perm := removeIndexFast_perm inside
    rw [List.getElem_idxOf] at perm
    have split := List.nodup_cons.mp (perm.nodup_iff.mpr list)
    refine ⟨split.2, fun d => ?_⟩
    constructor
    · intro left
      refine ⟨perm.subset (List.mem_cons_of_mem _ left), ?_⟩
      rintro rfl
      exact split.1 left
    · rintro ⟨before, other⟩
      exact (List.mem_cons.mp (perm.symm.subset before)).resolve_left other
  · next absent =>
    refine ⟨list, fun d => ⟨fun left => ⟨left, ?_⟩, fun both => both.1⟩⟩
    rintro rfl
    exact absent left

omit [DecidableEq α] in
/-- A module depends on another one. -/
def DependsOn (modules : List (RegisteredModule α σ)) (a b : α) : Prop :=
  ∃ r ∈ modules, r.module = a ∧ b ∈ r.dependencies

/-- The state of the program after the init functions of some modules. -/
def initAll (order : List (RegisteredModule α σ)) (world : σ) : σ :=
  order.foldl (fun world r => (callInit r world).2) world

/-- What is left of a module that has not been started. -/
structure Left (r₀ r : RegisteredModule α σ) (started : List α) : Prop where
  module : r.module = r₀.module
  initFn : r.initFn = r₀.initFn
  endFn : r.endFn = r₀.endFn
  list : r.dependencies.Nodup
  blocked : ∀ d, d ∈ r.dependencies ↔ d ∈ r₀.dependencies ∧ d ∉ started

/-- The manager after the modules of `order` have been started. -/
structure Started (modules : List (RegisteredModule α σ)) (world : σ)
    (order : List (RegisteredModule α σ)) (m : Manager α σ) : Prop where
  started : m.started = order.map RegisteredModule.module
  registered : ∀ r ∈ order, r ∈ modules
  accounts : (m.started ++ m.registeredModules.map RegisteredModule.module).Perm
    (modules.map RegisteredModule.module)
  left : ∀ r ∈ m.registeredModules, ∃ r₀ ∈ modules, Left r₀ r m.started
  ordered : InOrder (DependsOn modules) m.started
  ends : m.endFunctions = order.filterMap RegisteredModule.endFn
  world_eq : m.world = initAll order world
  succeeded : ∀ front r back, order = front ++ r :: back →
    (callInit r (initAll front world)).1 = 0

variable {modules : List (RegisteredModule α σ)} {world : σ}

omit [DecidableEq α] in
theorem started_registered (lists : ∀ r ∈ modules, r.dependencies.Nodup) :
    Started modules world [] (registered modules world) where
  started := rfl
  registered := fun r absent => absurd absent List.not_mem_nil
  accounts := List.Perm.refl _
  left := fun r member => ⟨r, member, rfl, rfl, rfl, lists r member, fun d =>
    ⟨fun depends => ⟨depends, List.not_mem_nil⟩, fun both => both.1⟩⟩
  ordered := InOrder.nil
  ends := rfl
  world_eq := rfl
  succeeded := fun front r back split => by cases front <;> cases split

omit [DecidableEq α] in
/-- The module with an id. -/
theorem eq_of_module (distinct : (modules.map RegisteredModule.module).Nodup)
    {r r' : RegisteredModule α σ} (member : r ∈ modules) (member' : r' ∈ modules)
    (same : r.module = r'.module) : r = r' :=
  List.inj_on_of_nodup_map distinct member member' same

/-- A module without dependencies is started. -/
theorem Started.start (distinct : (modules.map RegisteredModule.module).Nodup)
    {order : List (RegisteredModule α σ)} {m : Manager α σ} (before : Started modules world order m)
    {i : Nat} (inside : i < m.registeredModules.length)
    (ready : m.registeredModules[i].dependencies = [])
    (succeeded : (callInit m.registeredModules[i] m.world).1 = 0) :
    ∃ r, Started modules world (order ++ [r]) (Startup.start m.registeredModules[i] i
      (callInit m.registeredModules[i] m.world).2 m) := by
  obtain ⟨r, member, left⟩ := before.left _ (List.getElem_mem inside)
  generalize at_i : m.registeredModules[i] = started at left ready succeeded ⊢
  have call : callInit started m.world = callInit r m.world := by
    rw [callInit, callInit, left.initFn]
  have inside' : i < (removeDependency started.module m.registeredModules).length := by
    rw [removeDependency, List.length_map]
    exact inside
  have leaves := removeIndexFast_perm inside'
  have at_i' : (removeDependency started.module m.registeredModules)[i]
      = removeFrom started.module started := by
    calc (removeDependency started.module m.registeredModules)[i]
        = removeFrom started.module m.registeredModules[i] := List.getElem_map (removeFrom _)
      _ = removeFrom started.module started := by rw [at_i]
  rw [at_i'] at leaves
  have same_module : ∀ r : RegisteredModule α σ, (removeFrom started.module r).module = r.module := by
    intro r
    rw [removeFrom]
    split <;> rfl
  have modules_eq : (started.module :: (Startup.start started i (callInit started m.world).2
      m).registeredModules.map RegisteredModule.module).Perm
      (m.registeredModules.map RegisteredModule.module) := by
    have mapped := leaves.map RegisteredModule.module
    rw [List.map_cons, same_module, removeDependency, List.map_map] at mapped
    rw [show RegisteredModule.module ∘ removeFrom started.module = RegisteredModule.module from
      funext same_module] at mapped
    exact mapped
  have accounts : (m.started ++ [started.module] ++ (Startup.start started i
      (callInit started m.world).2 m).registeredModules.map RegisteredModule.module).Perm
      (modules.map RegisteredModule.module) := by
    rw [List.append_assoc]
    exact (modules_eq.append_left m.started).trans before.accounts
  refine ⟨r,
    { started := ?_
      registered := ?_
      accounts := accounts
      left := ?_
      ordered := ?_
      ends := ?_
      world_eq := ?_
      succeeded := ?_ }⟩
  · rw [List.map_append, ← before.started, List.map_singleton, ← left.module]
    rfl
  · intro r' member'
    rcases List.mem_append.mp member' with earlier | last
    · exact before.registered r' earlier
    · rw [List.mem_singleton.mp last]
      exact member
  · intro r' member'
    have mapped := mem_of_mem_removeIndexFast inside' member'
    obtain ⟨r₁, member₁, rfl⟩ := List.mem_map.mp mapped
    obtain ⟨r₀, member₀, left₀⟩ := before.left r₁ member₁
    obtain ⟨list, blocked⟩ := @mem_removeFrom _ _ _ started.module _ left₀.list
    have fields : (removeFrom started.module r₁).initFn = r₁.initFn ∧
        (removeFrom started.module r₁).endFn = r₁.endFn := by
      rw [removeFrom]
      split <;> exact ⟨rfl, rfl⟩
    refine ⟨r₀, member₀, (same_module r₁).trans left₀.module, fields.1.trans left₀.initFn,
      fields.2.trans left₀.endFn, list, fun d => ?_⟩
    rw [blocked, left₀.blocked]
    show _ ↔ d ∈ r₀.dependencies ∧ d ∉ m.started ++ [started.module]
    rw [List.mem_append, List.mem_singleton, not_or, and_assoc]
  · apply before.ordered.snoc
    rintro d ⟨r', member', same, depends⟩
    have r_eq : r' = r := eq_of_module distinct member' member (same.trans left.module)
    by_contra waiting
    have blocked := (left.blocked d).mpr ⟨r_eq ▸ depends, waiting⟩
    rw [ready] at blocked
    cases blocked
  · have last : [r].filterMap RegisteredModule.endFn = started.endFn.toList := by
      rw [left.endFn]
      cases r_end : r.endFn <;> simp [r_end]
    rw [List.filterMap_append, ← before.ends, last]
    rfl
  · have appended : initAll (order ++ [r]) world = (callInit r (initAll order world)).2 :=
      List.foldl_append
    rw [appended, ← before.world_eq, ← call]
    rfl
  · intro front r' back split
    rcases List.eq_nil_or_concat back with rfl | ⟨back', last, rfl⟩
    · obtain ⟨rfl, same⟩ := List.append_inj' split rfl
      cases same
      rw [← before.world_eq, ← call]
      exact succeeded
    · have split : order ++ [r] = (front ++ r' :: back') ++ [last] := by
        rw [split, List.concat_eq_append, List.append_assoc]
        rfl
      obtain ⟨same, -⟩ := List.append_inj' split rfl
      exact before.succeeded front r' back' same

/-! ## Runs -/

/-- A module whose init function failed. -/
structure Failed (modules : List (RegisteredModule α σ)) (world : σ)
    (order : List (RegisteredModule α σ)) (failure : Failure α σ) : Prop where
  module : ∃ r ∈ modules, r.module = failure.module ∧ failure.module ∉ failure.manager.started ∧
    (∀ d ∈ r.dependencies, d ∈ failure.manager.started) ∧
    callInit r (initAll order world) = (failure.error, failure.manager.world)
  error : failure.error ≠ 0
  started : failure.manager.started = order.map RegisteredModule.module
  registered : ∀ r ∈ order, r ∈ modules
  distinct : failure.manager.started.Nodup
  ordered : InOrder (DependsOn modules) failure.manager.started
  ends : failure.manager.endFunctions = order.filterMap RegisteredModule.endFn
  succeeded : ∀ front r back, order = front ++ r :: back →
    (callInit r (initAll front world)).1 = 0

/-- The modules started and the one whose init function fails. -/
theorem Started.fail (distinct : (modules.map RegisteredModule.module).Nodup)
    {order : List (RegisteredModule α σ)} {m : Manager α σ} (before : Started modules world order m)
    {i : Nat} (inside : i < m.registeredModules.length)
    (ready : m.registeredModules[i].dependencies = [])
    (failed : (callInit m.registeredModules[i] m.world).1 ≠ 0) :
    Failed modules world order ⟨(callInit m.registeredModules[i] m.world).1,
      m.registeredModules[i].module,
      { m with world := (callInit m.registeredModules[i] m.world).2 }⟩ := by
  obtain ⟨r, member, left⟩ := before.left _ (List.getElem_mem inside)
  have nodup := List.nodup_append.mp (before.accounts.nodup_iff.mpr distinct)
  have call : callInit r (initAll order world) = callInit m.registeredModules[i] m.world := by
    rw [callInit, callInit, left.initFn, before.world_eq]
  refine
    { module := ⟨r, member, left.module.symm, ?_, ?_, call⟩
      error := failed
      started := before.started
      registered := before.registered
      distinct := nodup.1
      ordered := before.ordered
      ends := before.ends
      succeeded := before.succeeded }
  · intro already
    exact nodup.2.2 _ already _ (List.mem_map_of_mem (List.getElem_mem inside)) rfl
  · intro d depends
    by_contra waiting
    have blocked := (left.blocked d).mpr ⟨depends, waiting⟩
    rw [ready] at blocked
    cases blocked

/-- What a pass or the whole loop leaves. -/
def Leaves (modules : List (RegisteredModule α σ)) (world : σ) (ending : Manager α σ → Prop) :
    Except (Failure α σ) (Manager α σ) → Prop
  | .error failure => ∃ order, Failed modules world order failure
  | .ok m => ∃ order, Started modules world order m ∧ ending m

theorem pass_leaves (distinct : (modules.map RegisteredModule.module).Nodup) (i : Nat)
    (progressMade : Bool) {m : Manager α σ} {order : List (RegisteredModule α σ)}
    (before : Started modules world order m) :
    Leaves modules world (fun _ => True) ((pass i progressMade m).map Prod.snd) := by
  revert order
  refine pass.induct (motive := fun i progressMade m => ∀ {order}, Started modules world order m →
    Leaves modules world (fun _ => True) ((pass i progressMade m).map Prod.snd))
    ?blocked ?failed ?started ?done i progressMade m
  case blocked =>
    intro i progressMade m inside r blocked ih order before
    rw [pass_blocked inside blocked]
    exact ih before
  case failed =>
    intro i progressMade m inside r call ready failed order before
    rw [pass_failed inside (not_not.mp ready) failed]
    exact ⟨order, before.fail distinct inside (not_not.mp ready) failed⟩
  case started =>
    intro i progressMade m inside r call ready succeeded ih order before
    rw [pass_started inside (not_not.mp ready) (not_not.mp succeeded)]
    obtain ⟨r, after⟩ := before.start distinct inside (not_not.mp ready) (not_not.mp succeeded)
    exact ih after
  case done =>
    intro i progressMade m outside order before
    rw [pass_done outside]
    exact ⟨order, before, trivial⟩

/-- All modules are started, or all that are left are blocked. -/
def Finished (m : Manager α σ) : Prop :=
  ∀ r ∈ m.registeredModules, r.dependencies ≠ []

theorem loop_failed {m : Manager α σ} {failure : Failure α σ}
    (passed : pass 0 false m = .error failure) : loop m = .error failure := by
  rw [loop]
  split
  · next failed =>
    rw [passed] at failed
    cases failed
    rfl
  · next done =>
    rw [passed] at done
    cases done

theorem loop_passed {m m' : Manager α σ} {progressMade : Bool}
    (passed : pass 0 false m = .ok (progressMade, m')) :
    loop m = if progressMade = true ∧ m'.registeredModules ≠ [] then loop m' else .ok m' := by
  rw [loop]
  split
  · next failed =>
    rw [passed] at failed
    cases failed
  · next done =>
    rw [passed] at done
    cases done
    split <;> rfl

theorem loop_leaves (distinct : (modules.map RegisteredModule.module).Nodup) {m : Manager α σ}
    {order : List (RegisteredModule α σ)} (before : Started modules world order m) :
    Leaves modules world Finished (loop m) := by
  revert order
  refine loop.induct (motive := fun m => ∀ {order}, Started modules world order m →
    Leaves modules world Finished (loop m)) ?failed ?again ?done m
  case failed =>
    intro m failure passed order before
    have leaves := pass_leaves distinct 0 false before
    rw [passed] at leaves
    rw [loop_failed passed]
    exact leaves
  case again =>
    intro m progressMade m' passed more ih order before
    have leaves := pass_leaves distinct 0 false before
    rw [passed] at leaves
    obtain ⟨order', after, -⟩ := leaves
    rw [loop_passed passed, if_pos more]
    exact ih after
  case done =>
    intro m progressMade m' passed more order before
    have leaves := pass_leaves distinct 0 false before
    rw [passed] at leaves
    obtain ⟨order', after, -⟩ := leaves
    rw [loop_passed passed, if_neg more]
    refine ⟨order', after, ?_⟩
    intro r member
    cases progressMade with
    | true =>
      have empty : m'.registeredModules = [] := by
        by_contra some
        exact more ⟨rfl, some⟩
      rw [empty] at member
      cases member
    | false =>
      obtain ⟨-, rfl, blocked⟩ := pass_idle passed
      obtain ⟨k, inside, rfl⟩ := List.getElem_of_mem member
      exact blocked k inside (Nat.zero_le k)

/-! ## The end functions -/

omit [DecidableEq α] in
/-- The call of an end function. -/
def callEnd (world : σ) (r : RegisteredModule α σ) : σ :=
  match r.endFn with
  | none => world
  | some endFn => endFn world

theorem endLoop_eq (endFunctions : List (σ → σ)) (n : Nat) (inside : n ≤ endFunctions.length)
    (world : σ) :
    endLoop endFunctions n world
      = (endFunctions.take n).reverse.foldl (fun world endFn => endFn world) world := by
  induction n generalizing world with
  | zero => rfl
  | succ n ih =>
    have at_n : endFunctions.getD n id = endFunctions[n] := by
      rw [List.getD_eq_getElem?_getD, List.getElem?_eq_getElem inside]
      rfl
    rw [endLoop, ih (Nat.le_of_succ_le inside), List.take_succ_eq_append_getElem inside,
      List.reverse_append, at_n]
    rfl

omit [DecidableEq α] in
theorem foldl_ends (order : List (RegisteredModule α σ)) (world : σ) :
    (order.filterMap RegisteredModule.endFn).foldl (fun world endFn => endFn world) world
      = order.foldl callEnd world := by
  induction order generalizing world with
  | nil => rfl
  | cons r order ih =>
    rw [List.foldl_cons, callEnd]
    cases has_end : r.endFn with
    | none =>
      rw [List.filterMap_cons_none has_end]
      exact ih world
    | some endFn =>
      rw [List.filterMap_cons_some has_end, List.foldl_cons]
      exact ih (endFn world)

omit [DecidableEq α] in
/-- The end functions are called from the last module started to the first one. -/
theorem startupManagerRunEnd_eq {m : Manager α σ} {order : List (RegisteredModule α σ)}
    (ends : m.endFunctions = order.filterMap RegisteredModule.endFn) (later : σ) :
    startupManagerRunEnd m later = order.reverse.foldl callEnd later := by
  rw [startupManagerRunEnd, endLoop_eq _ _ (Nat.le_refl _), List.take_length, ends,
    ← List.filterMap_reverse, foldl_ends]

/-! ## The order of the startup -/

omit [DecidableEq α] in
/-- The dependencies have no cycle and are all registered. -/
def Startable (modules : List (RegisteredModule α σ)) : Prop :=
  Acyclic (DependsOn modules) ∧
    ∀ r ∈ modules, ∀ d ∈ r.dependencies, d ∈ modules.map RegisteredModule.module

/-- The result of a run that started the modules of `order`. -/
structure RunsInOrder (modules : List (RegisteredModule α σ)) (world : σ) (result : RunResult α σ)
    (order : List (RegisteredModule α σ)) : Prop where
  /-- each module at most once -/
  started : result.manager.started = order.map RegisteredModule.module
  distinct : result.manager.started.Nodup
  registered : ∀ r ∈ order, r ∈ modules
  /-- each module after all the modules it depends on -/
  ordered : InOrder (DependsOn modules) result.manager.started
  succeeded : ∀ front r back, order = front ++ r :: back →
    (callInit r (initAll front world)).1 = 0
  ends : result.manager.endFunctions = order.filterMap RegisteredModule.endFn
  /-- in the reverse of the order -/
  endRun : ∀ later, startupManagerRunEnd result.manager later = order.reverse.foldl callEnd later
  /-- an init function that failed was the last one called -/
  failed : ∀ module, result.failed = some module → result.error ≠ 0 ∧
    ∃ r ∈ modules, r.module = module ∧ module ∉ result.manager.started ∧
      (∀ d ∈ r.dependencies, d ∈ result.manager.started) ∧
      callInit r (initAll order world) = (result.error, result.manager.world)
  completes : result.failed = none → result.manager.world = initAll order world ∧
    (Startable modules → result.error = 0 ∧ order.Perm modules)
  refuses : ¬ Startable modules → result.error ≠ 0

omit [DecidableEq α] in
/-- The modules that are left are not blocked for ever. -/
theorem Started.all (before : ∀ r ∈ modules, r.dependencies.Nodup)
    {order : List (RegisteredModule α σ)} {m : Manager α σ}
    (run : Started modules world order m) (finished : Finished m) (startable : Startable modules) :
    m.registeredModules = [] := by
  by_contra some
  have remains : m.registeredModules.map RegisteredModule.module ≠ [] := by
    simpa using some
  obtain ⟨a, left, ready⟩ := startable.1.exists_ready remains
  obtain ⟨r, member, rfl⟩ := List.mem_map.mp left
  obtain ⟨r₀, member₀, left₀⟩ := run.left r member
  obtain ⟨d, blocked⟩ := List.exists_mem_of_ne_nil _ (finished r member)
  obtain ⟨depends, waiting⟩ := (left₀.blocked d).mp blocked
  have known := run.accounts.symm.subset (startable.2 r₀ member₀ d depends)
  exact ready d ((List.mem_append.mp known).resolve_left waiting)
    ⟨r₀, member₀, left₀.module.symm, depends⟩

omit [DecidableEq α] in
/-- When nothing is left, the order of the starts shows that there was no cycle. -/
theorem Started.startable (distinct : (modules.map RegisteredModule.module).Nodup)
    {order : List (RegisteredModule α σ)} {m : Manager α σ}
    (run : Started modules world order m) (done : m.registeredModules = []) :
    Startable modules := by
  have accounts := run.accounts
  rw [done, List.map_nil, List.append_nil] at accounts
  constructor
  · apply run.ordered.acyclic (accounts.nodup_iff.mpr distinct)
    rintro a b ⟨r, member, rfl, -⟩
    exact accounts.symm.subset (List.mem_map_of_mem member)
  · intro r member d depends
    have started := accounts.symm.subset (List.mem_map_of_mem member)
    obtain ⟨front, back, split⟩ := List.append_of_mem started
    have earlier := run.ordered front r.module back split d ⟨r, member, rfl, depends⟩
    apply accounts.subset
    rw [split]
    exact List.mem_append_left _ earlier

/-- Every module is started once, after the modules it depends on, or an error is
reported. -/
theorem startup_ordering (modules : List (RegisteredModule α σ)) (world : σ)
    (distinct : (modules.map RegisteredModule.module).Nodup)
    (lists : ∀ r ∈ modules, r.dependencies.Nodup) :
    ∃ order, RunsInOrder modules world (startupManagerRun (registered modules world)) order := by
  have before : Started modules world [] (registered modules world) := started_registered lists
  have leaves := loop_leaves distinct before
  rw [startupManagerRun]
  cases ran : loop (registered modules world) with
  | error failure =>
    rw [ran] at leaves
    obtain ⟨order, fails⟩ := leaves
    refine ⟨order,
      { started := fails.started
        distinct := fails.distinct
        registered := fails.registered
        ordered := fails.ordered
        succeeded := fails.succeeded
        ends := fails.ends
        endRun := startupManagerRunEnd_eq fails.ends
        failed := ?_
        completes := ?_
        refuses := fun _ => fails.error }⟩
    · intro module same
      cases same
      exact ⟨fails.error, fails.module⟩
    · intro none
      cases none
  | ok m =>
    rw [ran] at leaves
    obtain ⟨order, run, finished⟩ := leaves
    have accounts := run.accounts
    refine ⟨order,
      { started := run.started
        distinct := (List.nodup_append.mp (accounts.nodup_iff.mpr distinct)).1
        registered := run.registered
        ordered := run.ordered
        succeeded := run.succeeded
        ends := run.ends
        endRun := startupManagerRunEnd_eq run.ends
        failed := ?_
        completes := fun _ => ⟨run.world_eq, fun startable => ?_⟩
        refuses := fun not_startable => ?_ }⟩
    · intro module same
      cases same
    · have done := run.all lists finished startable
      refine ⟨if_neg (not_not.mpr done), ?_⟩
      rw [done, List.map_nil, List.append_nil, run.started] at accounts
      have nodup : order.Nodup := List.Nodup.of_map _ (accounts.nodup_iff.mpr distinct)
      have same_length : modules.length ≤ order.length := by
        have lengths := accounts.length_eq
        rw [List.length_map, List.length_map] at lengths
        omega
      exact (List.subperm_of_subset nodup run.registered).perm_of_length_le same_length
    · have some : m.registeredModules ≠ [] := fun done => not_startable (run.startable distinct done)
      show (if m.registeredModules ≠ [] then (1 : Int) else 0) ≠ 0
      rw [if_pos some]
      decide

/-- Two modules, registered in the other order than they have to be started in. -/
def displayAndEvent : List (RegisteredModule Nat (List Nat)) :=
  [⟨7, [10], some fun calls => (0, calls ++ [7]), some fun calls => calls ++ [70]⟩,
    ⟨10, [], some fun calls => (0, calls ++ [10]), none⟩]

theorem startup_ordering_displayAndEvent :
    ∃ order, RunsInOrder displayAndEvent [] (startupManagerRun (registered displayAndEvent []))
      order :=
  startup_ordering displayAndEvent [] (by decide) (by decide)

end FuseX.Startup
