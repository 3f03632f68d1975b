import Mathlib.Data.List.Nodup

/-!
# Chains of jumps

Checks in a fixed order, in sections that each end at a label with some code behind
it. A check is a condition and a body. There are two ways through the checks:

* `runPlain` tests each condition and executes the body if it holds;
* `runChain` tests nothing: where a check begins it jumps to where a table says, which
  is the body of a check or a label.

`Setup` fills the table in one pass over the conditions. A chain that is set up with the
conditions `on` executes the bodies of the checks in `on` (`runChain_setup`), so it does
what `runPlain` does as long as the conditions are still `on` (`plainChecks_of_current`).
-/

namespace Lib

/-- What a body or a code ends with: the run goes on, or it leaves. -/
inductive Outcome (σ : Type*) : Type _
  | go (s : σ)
  | leave (s : σ)

/-- Where a jump leads. The checks are numbered over all sections. -/
inductive Target (ℓ : Type*) : Type _
  | check (pos : Nat)
  | label (l : ℓ)

/-- Checks, and the label behind them. -/
structure Section (κ ℓ : Type*) : Type _ where
  checks : List κ
  label : ℓ

/-! ## The table -/

/-- The table, the slot that the next target goes to, and the number of the next check. -/
structure Setup (ℓ : Type*) : Type _ where
  table : Nat → Option (Target ℓ)
  next : Nat
  check : Nat

variable {κ ℓ σ : Type*}

def Setup.put (slot : Nat) (target : Target ℓ) (table : Nat → Option (Target ℓ)) :
    Nat → Option (Target ℓ) :=
  fun pos => if pos = slot then some target else table pos

/-- A check, with its condition. -/
def Setup.add (condition : Bool) (s : Setup ℓ) : Setup ℓ :=
  if condition then
    { table := put s.next (.check s.check) s.table, next := s.check + 1, check := s.check + 1 }
  else { s with check := s.check + 1 }

/-- A label. -/
def Setup.close (l : ℓ) (s : Setup ℓ) : Setup ℓ :=
  { table := if s.next ≠ s.check then put s.next (.label l) s.table else s.table
    next := s.check
    check := s.check }

def Setup.section_ (on : κ → Bool) (sec : Section κ ℓ) (s : Setup ℓ) : Setup ℓ :=
  (sec.checks.foldl (fun (t : Setup ℓ) c => t.add (on c)) s).close sec.label

/-- The table of all sections. -/
def setup (on : κ → Bool) (sections : List (Section κ ℓ)) : Nat → Option (Target ℓ) :=
  (sections.foldl (fun (s : Setup ℓ) sec => s.section_ on sec) ⟨fun _ => none, 0, 0⟩).table

/-! ## The two ways -/

variable (table : Nat → Option (Target ℓ)) (condition : κ → σ → Bool)
  (on : κ → Bool) (body : κ → σ → Outcome σ) (code : ℓ → σ → Outcome σ)

/-- Through the checks of a section, of which the first has the number `pos`; a `jump`
is under way to its target. -/
def runChecks [DecidableEq ℓ] (label : ℓ) : Option (Target ℓ) → Nat → List κ → σ → Option (Outcome σ)
  | none, _, [], s => some (.go s)
  | some (.check _), _, [], _ => none
  | some (.label l), _, [], s => if l = label then some (.go s) else none
  | jump, pos, c :: checks, s =>
      match jump <|> table pos with
      | none => none
      | some (.label l) => runChecks label (some (.label l)) (pos + 1) checks s
      | some (.check p) =>
          if p = pos then
            match body c s with
            | .leave s => some (.leave s)
            | .go s => runChecks label none (pos + 1) checks s
          else runChecks label (some (.check p)) (pos + 1) checks s

/-- With the jumps. -/
def runChain [DecidableEq ℓ] : Nat → List (Section κ ℓ) → σ → Option (Outcome σ)
  | _, [], s => some (.go s)
  | pos, sec :: sections, s =>
      match runChecks table body sec.label none pos sec.checks s with
      | none => none
      | some (.leave s) => some (.leave s)
      | some (.go s) =>
          match code sec.label s with
          | .leave s => some (.leave s)
          | .go s => runChain (pos + sec.checks.length) sections s

/-- The checks of which the condition holds when they are reached. -/
def plainChecks : List κ → σ → Outcome σ
  | [], s => .go s
  | c :: checks, s =>
      if condition c s then
        match body c s with
        | .leave s => .leave s
        | .go s => plainChecks checks s
      else plainChecks checks s

/-- With the conditions. -/
def runPlain : List (Section κ ℓ) → σ → Outcome σ
  | [], s => .go s
  | sec :: sections, s =>
      match plainChecks condition body sec.checks s with
      | .leave s => .leave s
      | .go s =>
          match code sec.label s with
          | .leave s => .leave s
          | .go s => runPlain sections s

/-! ## A table that is set up -/

/-- The first check in `on`, or the label. -/
def target (label : ℓ) : Nat → List κ → Target ℓ
  | _, [] => .label label
  | pos, c :: checks => if on c then .check pos else target label (pos + 1) checks

/-- Where the checks begin, the table leads to the first of them in `on`. -/
def Entered (label : ℓ) (pos : Nat) (checks : List κ) : Prop :=
  checks ≠ [] → table pos = some (target on label pos checks)

/-- So it does behind each check in `on`. -/
def Linked (label : ℓ) : Nat → List κ → Prop
  | _, [] => True
  | pos, c :: checks =>
      (on c = true → Entered table on label (pos + 1) checks) ∧ Linked label (pos + 1) checks

variable {table condition on body code} {label : ℓ} {checks : List κ} {pos : Nat}

theorem target_passed (before : Nat) (later : before < pos) :
    target on label pos checks ≠ .check before := by
  induction checks generalizing pos with
  | nil => nofun
  | cons c checks ih =>
    rw [target]
    split
    · intro same
      have : pos = before := Target.check.inj same
      omega
    · exact ih (Nat.lt_succ_of_lt later)

/-- Where a section is entered, the table's target is the first jump. -/
theorem runChecks_entered [DecidableEq ℓ] (entered : Entered table on label pos checks) (s : σ) :
    runChecks table body label none pos checks s =
      runChecks table body label (some (target on label pos checks)) pos checks s := by
  cases checks with
  | nil => rw [runChecks, target, runChecks, if_pos rfl]
  | cons c checks =>
    rw [runChecks, runChecks, entered (List.cons_ne_nil _ _)]
    rfl

/-- A check that the jump passes over. -/
theorem runChecks_skip [DecidableEq ℓ] {c : κ} {goal : Target ℓ} (passed : goal ≠ .check pos) (s : σ) :
    runChecks table body label (some goal) pos (c :: checks) s =
      runChecks table body label (some goal) (pos + 1) checks s := by
  rw [runChecks]
  cases goal with
  | label l => rfl
  | check p =>
    have other : p ≠ pos := fun same => passed (congrArg Target.check same)
    exact if_neg other

/-- A linked section executes the bodies of the checks in `on`. -/
theorem runChecks_linked [DecidableEq ℓ] (linked : Linked table on label pos checks) (s : σ) :
    runChecks table body label (some (target on label pos checks)) pos checks s =
      some (plainChecks (fun c _ => on c) body checks s) := by
  induction checks generalizing pos s with
  | nil => rw [target, runChecks, if_pos rfl, plainChecks]
  | cons c checks ih =>
    obtain ⟨here, later⟩ := linked
    rw [plainChecks, target]
    by_cases isOn : on c = true
    · rw [if_pos isOn, if_pos isOn, runChecks]
      dsimp only [HOrElse.hOrElse, OrElse.orElse, Option.orElse]
      rw [if_pos rfl]
      cases body c s with
      | leave s' => rfl
      | go s' =>
        dsimp only
        rw [runChecks_entered (here isOn)]
        exact ih later s'
    · rw [if_neg isOn, if_neg isOn, ← ih later s]
      exact runChecks_skip (target_passed pos (Nat.lt_succ_self pos)) s

/-! ## Setting up -/

theorem Entered.congr {table' : Nat → Option (Target ℓ)}
    (same : ∀ i < pos + checks.length, table' i = table i)
    (entered : Entered table on label pos checks) : Entered table' on label pos checks := by
  intro some_
  rw [same pos (Nat.lt_add_of_pos_right (List.length_pos_of_ne_nil some_))]
  exact entered some_

theorem Linked.congr {table' : Nat → Option (Target ℓ)}
    (same : ∀ i < pos + checks.length, table' i = table i)
    (linked : Linked table on label pos checks) : Linked table' on label pos checks := by
  induction checks generalizing pos with
  | nil => trivial
  | cons c checks ih =>
    have same' : ∀ i < pos + 1 + checks.length, table' i = table i := by
      intro i before
      refine same i ?_
      rw [List.length_cons]
      omega
    exact ⟨fun isOn => (linked.1 isOn).congr same', ih same' linked.2⟩

/-- What setting up a section does: what was written before stays, the open slot leads
to the first check in `on`, and the section is linked. -/
theorem section_spec (checks : List κ) {s : Setup ℓ} (behind : s.next ≤ s.check) :
    let t := (checks.foldl (fun (t : Setup ℓ) c => t.add (on c)) s).close label
    t.check = s.check + checks.length ∧ t.next = t.check ∧
      (∀ i < s.next, t.table i = s.table i) ∧
      (s.next < s.check + checks.length → t.table s.next = some (target on label s.check checks)) ∧
      Linked t.table on label s.check checks := by
  induction checks generalizing s with
  | nil =>
    refine ⟨rfl, rfl, ?_, ?_, trivial⟩
    · intro i before
      show (if s.next ≠ s.check then Setup.put s.next _ s.table else s.table) i = _
      split
      · exact if_neg (Nat.ne_of_lt before)
      · rfl
    · intro open_
      have here : s.next ≠ s.check := Nat.ne_of_lt open_
      show (if s.next ≠ s.check then Setup.put s.next _ s.table else s.table) s.next = _
      rw [if_pos here]
      exact if_pos rfl
  | cons c checks ih =>
    rw [List.foldl_cons, List.length_cons]
    by_cases isOn : on c = true
    · have added : s.add (on c) =
          { table := Setup.put s.next (.check s.check) s.table
            next := s.check + 1
            check := s.check + 1 } := if_pos isOn
      rw [added]
      obtain ⟨check, next, kept, opened, linked⟩ := @ih
        { table := Setup.put s.next (.check s.check) s.table
          next := s.check + 1
          check := s.check + 1 } (Nat.le_refl _)
      refine ⟨check.trans (by dsimp only; omega), next, ?_, ?_, ?_, linked⟩
      · intro i before
        rw [kept i (by dsimp only; omega)]
        exact if_neg (Nat.ne_of_lt before)
      · intro
        rw [kept s.next (by dsimp only; omega), target, if_pos isOn]
        exact if_pos rfl
      · exact fun _ some_ => opened (Nat.lt_add_of_pos_right (List.length_pos_of_ne_nil some_))
    · have added : s.add (on c) = { s with check := s.check + 1 } := if_neg isOn
      rw [added]
      obtain ⟨check, next, kept, opened, linked⟩ := @ih { s with check := s.check + 1 }
        (Nat.le_succ_of_le behind)
      refine ⟨check.trans (by dsimp only; omega), next, kept, ?_, fun isOn' => absurd isOn' isOn, linked⟩
      intro open_
      rw [target, if_neg isOn]
      exact opened (by dsimp only; omega)

/-- The table leads through all sections. -/
theorem runChain_sections [DecidableEq ℓ] (sections : List (Section κ ℓ)) {s : Setup ℓ} (closed : s.next = s.check)
    (final : Nat → Option (Target ℓ))
    (kept : ∀ i, (sections.foldl (fun (s : Setup ℓ) sec => s.section_ on sec) s).table i = final i) (state : σ) :
    runChain final body code s.check sections state =
        some (runPlain (fun c _ => on c) body code sections state) ∧
      ∀ i < s.check, final i = s.table i := by
  induction sections generalizing s state with
  | nil => exact ⟨by rw [runChain, runPlain], fun i _ => (kept i).symm⟩
  | cons sec sections ih =>
    obtain ⟨check, next, before, opened, linked⟩ := @section_spec κ ℓ on sec.label
      sec.checks s (Nat.le_of_eq closed)
    obtain ⟨-, after⟩ := ih next kept state
    have same : ∀ i < s.check + sec.checks.length, final i = (s.section_ on sec).table i := by
      rw [← check]
      exact after
    have entered : Entered (s.section_ on sec).table on sec.label s.check sec.checks := by
      intro some_
      rw [closed] at opened
      exact opened (Nat.lt_add_of_pos_right (List.length_pos_of_ne_nil some_))
    constructor
    · rw [runChain, runPlain, runChecks_entered (entered.congr same),
        runChecks_linked (linked.congr same)]
      cases plainChecks (fun c _ => on c) body sec.checks state with
      | leave state' => rfl
      | go state' =>
        dsimp only
        cases code sec.label state' with
        | leave state'' => rfl
        | go state'' =>
          dsimp only
          rw [← check]
          exact (ih next kept state'').1
    · intro i inside
      rw [after i (by rw [check]; omega)]
      exact before i (by rw [closed]; exact inside)

/-- A chain executes the bodies of the checks it was set up with. -/
theorem runChain_setup [DecidableEq ℓ] (on : κ → Bool) (sections : List (Section κ ℓ)) (state : σ) :
    runChain (setup on sections) body code 0 sections state =
      some (runPlain (fun c _ => on c) body code sections state) :=
  (@runChain_sections κ ℓ σ on body code _ sections ⟨fun _ => none, 0, 0⟩ rfl _ (fun _ => rfl) state).1

/-! ## Conditions that do not change -/

/-- The conditions of some checks are the ones the chain was set up with. -/
def Current (condition : κ → σ → Bool) (on : κ → Bool) (checks : List κ) (s : σ) : Prop :=
  ∀ c ∈ checks, condition c s = on c

/-- Where no body changes the condition of a later check, testing the conditions makes no
difference. What keeps the bodies from it may depend on the checks that are left. -/
theorem plainChecks_of_current {inv : List κ → σ → Prop}
    (passes : ∀ c later s, inv (c :: later) s → condition c s = false → inv later s)
    (performs : ∀ c later s s', inv (c :: later) s → condition c s = true → body c s = .go s' →
      inv later s' ∧ ∀ d, d ≠ c → condition d s' = condition d s)
    {later : List κ} (distinct : (checks ++ later).Nodup) {s : σ} (holds : inv (checks ++ later) s)
    (current : Current condition on (checks ++ later) s) :
    plainChecks condition body checks s = plainChecks (fun c _ => on c) body checks s ∧
      ∀ s', plainChecks condition body checks s = .go s' →
        inv later s' ∧ Current condition on later s' := by
  induction checks generalizing s with
  | nil =>
    refine ⟨rfl, fun s' same => ?_⟩
    obtain rfl := Outcome.go.inj same
    exact ⟨holds, current⟩
  | cons c checks ih =>
    obtain ⟨fresh, distinct'⟩ := List.nodup_cons.mp distinct
    have rest : Current condition on (checks ++ later) s := fun d member =>
      current d (List.mem_cons_of_mem c member)
    have here : condition c s = on c := current c List.mem_cons_self
    rw [plainChecks, plainChecks, here]
    by_cases isOn : on c = true
    · rw [if_pos isOn, if_pos isOn]
      cases executed : body c s with
      | leave s' => exact ⟨rfl, nofun⟩
      | go s' =>
        obtain ⟨holds', keeps⟩ := performs c _ s s' holds (here.trans isOn) executed
        refine ih distinct' holds' fun d member => ?_
        rw [keeps d fun same => fresh (same ▸ member)]
        exact rest d member
    · rw [if_neg isOn, if_neg isOn]
      have off : condition c s = false := here.trans (Bool.eq_false_iff.mpr isOn)
      exact ih distinct' (passes c _ s holds off) rest

/-- A section in which testing the conditions makes no difference. -/
theorem runPlain_section {sec : Section κ ℓ} {sections : List (Section κ ℓ)} {s : σ}
    (same : plainChecks condition body sec.checks s =
      plainChecks (fun c _ => on c) body sec.checks s)
    (rest : ∀ s' s'', plainChecks condition body sec.checks s = .go s' → code sec.label s' = .go s'' →
      runPlain condition body code sections s'' =
        runPlain (fun c _ => on c) body code sections s'') :
    runPlain condition body code (sec :: sections) s =
      runPlain (fun c _ => on c) body code (sec :: sections) s := by
  rw [runPlain, runPlain, ← same]
  cases executed : plainChecks condition body sec.checks s with
  | leave s' => rfl
  | go s' =>
    dsimp only
    cases coded : code sec.label s' with
    | leave s'' => rfl
    | go s'' => exact rest s' s'' executed coded

/-- What a run goes through that does not leave. -/
theorem runPlain_go {sec : Section κ ℓ} {sections : List (Section κ ℓ)} {s t : σ}
    (run : runPlain condition body code (sec :: sections) s = .go t) :
    ∃ s' s'', plainChecks condition body sec.checks s = .go s' ∧ code sec.label s' = .go s'' ∧
      runPlain condition body code sections s'' = .go t := by
  rw [runPlain] at run
  cases executed : plainChecks condition body sec.checks s with
  | leave s' =>
    rw [executed] at run
    cases run
  | go s' =>
    rw [executed] at run
    dsimp only at run
    cases coded : code sec.label s' with
    | leave s'' =>
      rw [coded] at run
      cases run
    | go s'' =>
      rw [coded] at run
      exact ⟨s', s'', rfl, coded, run⟩

end Lib
