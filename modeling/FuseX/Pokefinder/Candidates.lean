import FuseX.Lib.Runs
import FuseX.Pokefinder.Finder

/-!
# The candidates of the poke finder

`Watch` is what the finder is for: the addresses that have met every observation, with the
contents of RAM at the last of them. A search compares with a value and the other two with
the last observation. The finder compares with a byte that a search does not record, so
`finder_iff` asks that this makes no difference.
-/

namespace FuseX.Pokefinder

open Lib

/-! ## Observations -/

/-- The candidates since the last clear, RAM at the last observation, and RAM at the last one
that was no search. -/
structure Watch : Type where
  candidate : Nat × Nat → Bool := fun _ => false
  previous : Nat × Nat → UInt8 := fun _ => 0
  compared : Nat × Nat → UInt8 := fun _ => 0

def Ram.byte (ram : Ram) (cell : Nat × Nat) : UInt8 := ram.contents cell.1 cell.2

/-- All addresses of RAM are candidates. -/
def Watch.clear (ram : Ram) : Watch :=
  { candidate := fun cell => ram.isRam cell.1, previous := ram.byte, compared := ram.byte }

def Watch.search (ram : Ram) (value : UInt8) (w : Watch) : Watch :=
  { w with
    candidate := fun cell => w.candidate cell && ram.byte cell == value
    previous := ram.byte }

/-- The candidates whose byte compares with the one of the last observation. -/
def Watch.compare (ram : Ram) (keeps : UInt8 → UInt8 → Bool) (w : Watch) : Watch :=
  { candidate := fun cell => w.candidate cell && keeps (ram.byte cell) (w.previous cell)
    previous := ram.byte
    compared := ram.byte }

/-! ## The two together -/

structure State : Type where
  ram : Ram
  finder : Finder := {}
  watch : Watch := {}

/-- RAM changes, or the user does something. -/
inductive Action : Type
  | changed (ram : Ram)
  | clear
  | search (value : UInt8)
  | incremented
  | decremented

def act (s : State) : Action → State
  | .changed ram => { s with ram }
  | .clear =>
      { s with finder := pokefinderClear s.ram s.finder, watch := .clear s.ram }
  | .search value =>
      { s with
        finder := pokefinderSearch s.ram value s.finder
        watch := s.watch.search s.ram value }
  | .incremented =>
      { s with
        finder := pokefinderIncremented s.ram s.finder
        watch := s.watch.compare s.ram fun now before => decide (before < now) }
  | .decremented =>
      { s with
        finder := pokefinderDecremented s.ram s.finder
        watch := s.watch.compare s.ram fun now before => decide (now < before) }

/-- The finder's candidates are those that have met every observation, and it counts them. -/
def Agrees (s : State) : Prop :=
  (∀ cell ∈ allCells, s.finder.isCandidate cell = s.watch.candidate cell)
    ∧ s.finder.count = allCells.countP s.watch.candidate

/-- No candidate compares otherwise with the last observation than with the last one that was no
search. -/
def SameOrder (s : State) (keeps : UInt8 → UInt8 → Bool) : Prop :=
  ∀ cell ∈ allCells, s.watch.candidate cell = true →
    keeps (s.ram.byte cell) (s.watch.compared cell)
      = keeps (s.ram.byte cell) (s.watch.previous cell)

def Fits (s : State) : Action → Prop
  | .incremented => SameOrder s fun now before => decide (before < now)
  | .decremented => SameOrder s fun now before => decide (now < before)
  | _ => True

/-- The finder has what it compares a candidate with, and counts its candidates. -/
structure Recorded (s : State) : Prop where
  counted : s.finder.Counted
  saved : ∀ cell ∈ allCells, s.finder.isCandidate cell = true →
    s.finder.possible cell.1 cell.2 = s.watch.compared cell

/-! ## Each operation -/

-- what is needed of the loops is in their lemmas
attribute [local irreducible] pokefinderClear sweep

/-- Where the candidates are the same, so are the counts. -/
theorem agrees_iff {s : State} (counted : s.finder.Counted) :
    Agrees s ↔ ∀ cell ∈ allCells, s.finder.isCandidate cell = s.watch.candidate cell := by
  refine ⟨And.left, fun same => ⟨same, ?_⟩⟩
  rw [Finder.Counted] at counted
  rw [counted]
  exact List.countP_congr fun cell inside => by rw [same cell inside]

section

variable (ram : Ram) (keeps : UInt8 → UInt8 → Bool) (saves : Bool) (f : Finder)
  {cell : Nat × Nat} (inside : cell ∈ allCells)

include inside

theorem sweep_isCandidate :
    (sweep ram keeps saves f).isCandidate cell
      = (f.isCandidate cell && keeps (ram.byte cell) (f.possible cell.1 cell.2)) := by
  rw [Finder.isCandidate, Finder.isCandidate, sweep_allocated]
  cases allocated : f.allocated with
  | false => rfl
  | true =>
    have seen := congrArg Prod.fst (sweep_seen ram keeps saves allocated inside)
    change (sweep ram keeps saves f).isImpossible cell.1 cell.2 = _ at seen
    rw [seen, seenAfter_fst, Bool.true_and, Bool.true_and, Bool.not_or, Bool.not_not]
    rfl

theorem sweep_possible (stays : (sweep ram keeps saves f).isCandidate cell = true) :
    (sweep ram keeps saves f).possible cell.1 cell.2
      = if saves then ram.byte cell else f.possible cell.1 cell.2 := by
  rw [sweep_isCandidate ram keeps saves f inside, Bool.and_eq_true, Finder.isCandidate,
    Bool.and_eq_true, Bool.not_eq_true'] at stays
  obtain ⟨⟨allocated, there⟩, keep⟩ := stays
  have seen := congrArg Prod.snd (sweep_seen ram keeps saves allocated inside)
  change (sweep ram keeps saves f).possible cell.1 cell.2 = _ at seen
  have keep' : keeps (ram.contents cell.1 cell.2) (f.seen cell).2 = true := keep
  have there' : ¬ (f.seen cell).1 = true := Bool.eq_false_iff.mp there
  rw [seen, seenAfter, if_neg there', if_pos keep']
  rfl

end

theorem clear_possible (ram : Ram) (f : Finder) {cell : Nat × Nat} (inside : cell ∈ allCells)
    (candidate : (pokefinderClear ram f).isCandidate cell = true) :
    (pokefinderClear ram f).possible cell.1 cell.2 = ram.byte cell := by
  rw [clear_isCandidate ram f inside] at candidate
  have seen := congrArg Prod.fst (clear_seen ram f (mem_allCells.mp inside).1)
  change (pokefinderClear ram f).possible cell.1 = _ at seen
  rw [seen, pageCleared, if_pos candidate]
  rfl

/-- Whatever happens, the finder has what it compares its candidates with. -/
theorem act_recorded {s : State} (recorded : Recorded s) (a : Action) : Recorded (act s a) := by
  obtain ⟨counted, saved⟩ := recorded
  cases a with
  | changed ram => exact ⟨counted, saved⟩
  | clear => exact ⟨clear_counted s.ram s.finder, fun cell => clear_possible s.ram s.finder⟩
  | search value =>
    refine ⟨sweep_counted s.ram _ false counted, fun cell inside candidate => ?_⟩
    have kept := sweep_possible s.ram _ false s.finder inside candidate
    have before := (Bool.and_eq_true_iff.mp
      ((sweep_isCandidate s.ram _ false s.finder inside).symm.trans candidate)).1
    exact kept.trans (saved cell inside before)
  | incremented =>
    exact ⟨sweep_counted s.ram _ true counted,
      fun cell inside => sweep_possible s.ram _ true s.finder inside⟩
  | decremented =>
    exact ⟨sweep_counted s.ram _ true counted,
      fun cell inside => sweep_possible s.ram _ true s.finder inside⟩

/-- A comparison keeps the candidates right exactly when it makes no difference which of the two
bytes is compared with. -/
theorem compare_agrees_iff {s : State} (recorded : Recorded s) (agrees : Agrees s)
    (keeps : UInt8 → UInt8 → Bool) :
    (∀ cell ∈ allCells, (sweep s.ram keeps true s.finder).isCandidate cell
      = (s.watch.compare s.ram keeps).candidate cell) ↔ SameOrder s keeps := by
  refine forall₂_congr fun cell inside => ?_
  have same := agrees.1 cell inside
  have compared : (s.watch.compare s.ram keeps).candidate cell
      = (s.watch.candidate cell && keeps (s.ram.byte cell) (s.watch.previous cell)) := rfl
  rw [sweep_isCandidate s.ram keeps true s.finder inside, compared, same]
  cases candidate : s.watch.candidate cell with
  | false =>
    rw [Bool.false_and, Bool.false_and]
    exact ⟨fun _ no => absurd no Bool.false_ne_true, fun _ => rfl⟩
  | true =>
    rw [recorded.saved cell inside (same.trans candidate), Bool.true_and, Bool.true_and]
    exact ⟨fun equal _ => equal, fun equal => equal rfl⟩

theorem act_agrees_iff {s : State} (recorded : Recorded s) (agrees : Agrees s) (a : Action) :
    Agrees (act s a) ↔ Fits s a := by
  rw [agrees_iff (act_recorded recorded a).counted]
  cases a with
  | changed ram => exact ⟨fun _ => True.intro, fun _ => agrees.1⟩
  | clear =>
    exact ⟨fun _ => True.intro, fun _ cell inside => clear_isCandidate s.ram s.finder inside⟩
  | search value =>
    refine ⟨fun _ => True.intro, fun _ cell inside => ?_⟩
    refine (sweep_isCandidate s.ram _ false s.finder inside).trans ?_
    rw [agrees.1 cell inside]
    rfl
  | incremented => exact compare_agrees_iff recorded agrees _
  | decremented => exact compare_agrees_iff recorded agrees _

/-- Before the first clear there is no candidate. -/
theorem start_recorded (ram : Ram) : Recorded { ram } :=
  ⟨(List.countP_eq_zero.mpr fun _ _ => Bool.false_ne_true).symm,
    fun _ _ candidate => absurd candidate Bool.false_ne_true⟩

theorem start_agrees (ram : Ram) : Agrees { ram } :=
  (agrees_iff (start_recorded ram).counted).mpr fun _ _ => rfl

/-- Throughout a run, the finder's candidates are the addresses that have met every observation
since the last clear, and counted right, exactly when at each comparison no candidate compares
otherwise with the last observation than with the last one that was no search. -/
theorem finder_iff (ram : Ram) (actions : List Action) :
    Always act Agrees { ram } actions ↔ EachStep act Fits { ram } actions :=
  always_iff (start_recorded ram) (start_agrees ram)
    fun _ a recorded agrees =>
      ⟨act_agrees_iff recorded agrees a, fun _ => act_recorded recorded a⟩

/-- RAM of one page that holds one byte throughout. -/
def onePage (b : UInt8) : Ram :=
  { contents := fun _ _ => b, writable := fun page => page == 0, validPages := 1 }

/-- A byte that goes from 5 to 10, is searched for there, and goes down to 8, is still a candidate
after a search for what has been incremented. -/
theorem finder_forgets_search :
    ¬ Agrees ([.clear, .changed (onePage 10), .search 10, .changed (onePage 8),
      .incremented].foldl act { ram := onePage 5 }) := by
  intro agrees
  have recorded₁ := act_recorded (start_recorded (onePage 5)) .clear
  have agrees₁ := (act_agrees_iff (start_recorded (onePage 5)) (start_agrees (onePage 5))
    .clear).mpr True.intro
  have recorded₂ := act_recorded recorded₁ (.changed (onePage 10))
  have agrees₂ := (act_agrees_iff recorded₁ agrees₁ (.changed (onePage 10))).mpr True.intro
  have recorded₃ := act_recorded recorded₂ (.search 10)
  have agrees₃ := (act_agrees_iff recorded₂ agrees₂ (.search 10)).mpr True.intro
  have recorded₄ := act_recorded recorded₃ (.changed (onePage 8))
  have agrees₄ := (act_agrees_iff recorded₃ agrees₃ (.changed (onePage 8))).mpr True.intro
  have fits := (act_agrees_iff recorded₄ agrees₄ .incremented).mp agrees
  have same : decide ((5 : UInt8) < 8) = decide ((10 : UInt8) < 8) :=
    fits (0, 0) (mem_allCells.mpr (by decide)) (by rfl)
  exact absurd same (by decide)

end FuseX.Pokefinder
