import Mathlib.Data.List.Induction

/-!
# Runs of a partial step function

A system is a step function from a state and an action to the next state, or to
`none` where the action is not possible. `Runs step guard start acts state`
says that the actions `acts` lead from `start` to `state` and that each of them
met `guard` in the state it was taken in.

* `Runs.invariant` is the induction over a run;
* `Runs.of_foldlM` turns an evaluated run into a run;
* `Runs.weaken` forgets the guard;
* `Runs.guard_iff` replaces a guard by an equivalent one;
* `Runs.follow` has another system follow a run;
* `Runs.exact` finds the guard: when a property of states is kept by exactly the
  guarded steps, the runs that end with it are the guarded runs;
* `always_iff` does so for a total step and a property of all states of a run.
-/

namespace Lib

variable {σ α : Type*} {step : σ → α → Option σ} {guard guard' : σ → α → Prop} {start : σ}

inductive Runs (step : σ → α → Option σ) (guard : σ → α → Prop) (start : σ) :
    List α → σ → Prop
  | nil : Runs step guard start [] start
  | snoc {acts : List α} {state next : σ} {act : α} :
    Runs step guard start acts state → guard state act → step state act = some next →
    Runs step guard start (acts ++ [act]) next

/-- No restriction on the steps of a run. -/
def anyStep : σ → α → Prop := fun _ _ => True

/-- What holds at the start and is preserved by every guarded step holds at the
end of every guarded run. -/
theorem Runs.invariant {I : σ → Prop} {acts : List α} {state : σ}
    (run : Runs step guard start acts state) (init : I start)
    (preserved : ∀ s act t, I s → guard s act → step s act = some t → I t) : I state := by
  induction run with
  | nil => exact init
  | snoc _ allowed stepEq ih => exact preserved _ _ _ ih allowed stepEq

theorem Runs.weaken (implies : ∀ s act, guard s act → guard' s act) {acts : List α} {state : σ}
    (run : Runs step guard start acts state) : Runs step guard' start acts state := by
  induction run with
  | nil => exact .nil
  | snoc _ allowed stepEq ih => exact .snoc ih (implies _ _ allowed) stepEq

theorem Runs.unguarded {acts : List α} {state : σ} (run : Runs step guard start acts state) :
    Runs step anyStep start acts state :=
  run.weaken fun _ _ _ => True.intro

theorem Runs.of_snoc {acts : List α} {act : α} {state : σ}
    (run : Runs step guard start (acts ++ [act]) state) :
    ∃ before, Runs step guard start acts before ∧ guard before act ∧
      step before act = some state := by
  generalize whole : acts ++ [act] = all at run
  cases run with
  | nil => simp at whole
  | snoc front allowed stepEq =>
    obtain ⟨rfl, rfl⟩ := List.append_inj' whole rfl |>.imp id List.singleton_inj.mp
    exact ⟨_, front, allowed, stepEq⟩

/-- The actions determine the state a run ends in. -/
theorem Runs.functional {acts : List α} {state state' : σ}
    (run : Runs step guard start acts state) (run' : Runs step guard' start acts state') :
    state = state' := by
  induction run generalizing state' with
  | nil =>
    generalize none_ : ([] : List α) = acts at run'
    cases run' with
    | nil => rfl
    | snoc => simp at none_
  | snoc _ _ stepEq ih =>
    obtain ⟨before, front, -, stepEq'⟩ := run'.of_snoc
    obtain rfl := ih front
    exact Option.some.inj (stepEq.symm.trans stepEq')

/-- A run of another system follows step by step. -/
theorem Runs.follow {τ : Type*} {step' : τ → α → Option τ} {start' : τ} {related : σ → τ → Prop}
    {acts : List α} {state : σ} (run : Runs step guard start acts state)
    (init : related start start')
    (steps : ∀ s t act next, related s t → guard s act → step s act = some next →
      ∃ next', step' t act = some next' ∧ related next next') :
    ∃ state', Runs step' anyStep start' acts state' ∧ related state state' := by
  induction run with
  | nil => exact ⟨start', .nil, init⟩
  | snoc _ allowed stepEq ih =>
    obtain ⟨before, front, same⟩ := ih
    obtain ⟨next', stepEq', same'⟩ := steps _ _ _ _ same allowed stepEq
    exact ⟨next', front.snoc True.intro stepEq', same'⟩

/-- Guards that agree where `I` holds are met by the same runs, when the steps that meet them
keep `I`. -/
theorem Runs.guard_iff {I : σ → Prop} {acts : List α} {state : σ} (init : I start)
    (agree : ∀ s act, I s → (guard s act ↔ guard' s act))
    (keeps : ∀ s act t, I s → guard' s act → step s act = some t → I t) :
    Runs step guard start acts state ↔ Runs step guard' start acts state := by
  constructor
  · intro run
    have both : Runs step guard' start acts state ∧ I state := by
      induction run with
      | nil => exact ⟨.nil, init⟩
      | snoc _ allowed stepEq ih =>
        have allowed' := (agree _ _ ih.2).mp allowed
        exact ⟨.snoc ih.1 allowed' stepEq, keeps _ _ _ ih.2 allowed' stepEq⟩
    exact both.1
  · intro run
    have both : Runs step guard start acts state ∧ I state := by
      induction run with
      | nil => exact ⟨.nil, init⟩
      | snoc _ allowed stepEq ih =>
        exact ⟨.snoc ih.1 ((agree _ _ ih.2).mpr allowed) stepEq, keeps _ _ _ ih.2 allowed stepEq⟩
    exact both.1

/-- When every step from an invariant state keeps `P` exactly where `guard`
allows it, the runs that end in `P` are the guarded runs. -/
theorem Runs.exact {I P : σ → Prop} {acts : List α} {state : σ}
    (run : Runs step anyStep start acts state) (init : I start) (good : P start)
    (kept : ∀ s act t, I s → step s act = some t → I t ∧ (P t ↔ P s ∧ guard s act)) :
    I state ∧ (P state ↔ Runs step guard start acts state) := by
  induction run with
  | nil => exact ⟨init, fun _ => .nil, fun _ => good⟩
  | snoc front _ stepEq ih =>
    obtain ⟨inv, exact_iff⟩ := ih
    obtain ⟨inv', here⟩ := kept _ _ _ inv stepEq
    refine ⟨inv', ?_, ?_⟩
    · intro holds
      obtain ⟨before, allowed⟩ := here.mp holds
      exact .snoc (exact_iff.mp before) allowed stepEq
    · intro guarded
      obtain ⟨before, front', allowed, -⟩ := guarded.of_snoc
      obtain rfl := front.functional front'
      exact here.mpr ⟨exact_iff.mpr front', allowed⟩

/-- The step, where the guard allows it. -/
def guarded (step : σ → α → Option σ) (guard : σ → α → Prop) [∀ s act, Decidable (guard s act)] :
    σ → α → Option σ :=
  fun s act => if guard s act then step s act else none

/-- A guarded run that evaluates is a guarded run. -/
theorem Runs.of_guarded [∀ s act, Decidable (guard s act)] {acts : List α} {state : σ}
    (eval : acts.foldlM (guarded step guard) start = some state) :
    Runs step guard start acts state := by
  induction acts using List.reverseRec generalizing state with
  | nil =>
    obtain rfl : start = state := by simpa using eval
    exact .nil
  | append_singleton acts act ih =>
    rw [List.foldlM_append] at eval
    obtain ⟨middle, front, last⟩ := Option.bind_eq_some_iff.mp eval
    have lastStep : guarded step guard middle act = some state := by simpa using last
    obtain ⟨allowed, stepEq⟩ := (Option.ite_none_right_eq_some).mp lastStep
    exact .snoc (ih front) allowed stepEq

instance (s : σ) (act : α) : Decidable (anyStep s act) :=
  inferInstanceAs (Decidable True)

/-- A run that evaluates is a run. -/
theorem Runs.of_foldlM {acts : List α} {state : σ} (eval : acts.foldlM step start = some state) :
    Runs step anyStep start acts state := by
  have same : guarded step anyStep = step := by
    funext s act
    exact if_pos True.intro
  exact .of_guarded (by rw [same]; exact eval)

/-! ## Runs of a total step function -/

section Total

variable {act : σ → α → σ} {P I : σ → Prop}

/-- Every state of the run has the property, the first included. -/
def Always (act : σ → α → σ) (P : σ → Prop) : σ → List α → Prop
  | s, [] => P s
  | s, a :: acts => P s ∧ Always act P (act s a) acts

/-- Every step of the run meets the guard in the state it is taken in. -/
def EachStep (act : σ → α → σ) (guard : σ → α → Prop) : σ → List α → Prop
  | _, [] => True
  | s, a :: acts => guard s a ∧ EachStep act guard (act s a) acts

/-- When a step keeps the property exactly where the guard allows it, the runs that have the
property throughout are those whose steps all meet the guard. -/
theorem always_iff {s : σ} {acts : List α} (init : I s) (good : P s)
    (kept : ∀ s a, I s → P s → (P (act s a) ↔ guard s a) ∧ (guard s a → I (act s a))) :
    Always act P s acts ↔ EachStep act guard s acts := by
  induction acts generalizing s with
  | nil => exact ⟨fun _ => True.intro, fun _ => good⟩
  | cons a acts ih =>
    obtain ⟨here, invariant⟩ := kept s a init good
    constructor
    · rintro ⟨-, rest⟩
      have next : P (act s a) := by
        cases acts with
        | nil => exact rest
        | cons _ _ => exact rest.1
      have allowed := here.mp next
      exact ⟨allowed, (ih (invariant allowed) next).mp rest⟩
    · rintro ⟨allowed, rest⟩
      exact ⟨good, (ih (invariant allowed) (here.mpr allowed)).mpr rest⟩

end Total

end Lib
