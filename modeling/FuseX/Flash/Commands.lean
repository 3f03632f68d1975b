import FuseX.Flash.Am29f010
import Mathlib.Data.List.Forall2

/-!
# The commands of the flash chip

A command is a sequence of writes. A chip keeps to its commands (`Lawful`) when each write
either goes on with the command under way or ends it and leaves the chip in read mode, and
when only complete commands change the memory.

The emulated chip keeps to its commands exactly as long as no write goes astray and no bit
is programmed from 0 to 1 (`commands_iff`): a write that is not the next one of the command
is passed over (`write_unexpected`), and the command goes on behind it.
-/

namespace FuseX.Flash

open Lib

/-! ## Command sequences -/

inductive Command
  | program
  | autoselect
  | sectorErase
  | chipErase

/-- What is written for a command. -/
def Command.sequence : Command → List (Write → Prop)
  | .program => [(·.At 0x555 0xaa), (·.At 0x2aa 0x55), (·.At 0x555 0xa0), fun _ => True]
  | .autoselect => [(·.At 0x555 0xaa), (·.At 0x2aa 0x55), (·.At 0x555 0x90)]
  | .sectorErase =>
      [(·.At 0x555 0xaa), (·.At 0x2aa 0x55), (·.At 0x555 0x80),
        (·.At 0x555 0xaa), (·.At 0x2aa 0x55), (·.b = 0x30)]
  | .chipErase =>
      [(·.At 0x555 0xaa), (·.At 0x2aa 0x55), (·.At 0x555 0x80),
        (·.At 0x555 0xaa), (·.At 0x2aa 0x55), (·.At 0x555 0x10)]

/-- Write by write. -/
def Matches (sequence : List (Write → Prop)) (writes : List Write) : Prop :=
  List.Forall₂ (fun expected w => expected w) sequence writes

def Completes (command : Command) (writes : List Write) : Prop :=
  Matches command.sequence writes

/-- The writes begin a command, or are all of it. -/
def Continues (writes : List Write) : Prop :=
  ∃ command : Command, Matches (command.sequence.take writes.length) writes

/-! ## The law -/

/-- The chip, and the writes since it was last in read mode. -/
structure Watched where
  flash : Flash
  sequence : List Write := []

def watchedStep (s : Watched) (w : Write) : Option Watched :=
  let flash := s.flash.write w
  some
    { flash := flash
      sequence := if flash.flashState = .reset then [] else s.sequence ++ [w] }

/-- What a write to the chip has to do. In the data cycle of the program command, 0xf0 is
data and not a reset. -/
structure Lawful (s : Watched) (w : Write) : Prop where
  changed : ∀ o, (s.flash.write w).memory o ≠ s.flash.memory o →
    (Completes .program (s.sequence ++ [w]) ∧ o = w.offset) ∨
    (Completes .sectorErase (s.sequence ++ [w]) ∧ InSector w.page o) ∨
    (Completes .chipErase (s.sequence ++ [w]) ∧ o < sizeOfFlashRom)
  cleared : Completes .program (s.sequence ++ [w]) →
    (s.flash.write w).memory w.offset &&& s.flash.memory w.offset =
      (s.flash.write w).memory w.offset
  sector : Completes .sectorErase (s.sequence ++ [w]) →
    ∀ o, InSector w.page o → (s.flash.write w).memory o = 0xff
  chip : Completes .chipErase (s.sequence ++ [w]) →
    ∀ o < sizeOfFlashRom, (s.flash.write w).memory o = 0xff
  aborted : ¬ Continues (s.sequence ++ [w]) ∨
      (w.b = 0xf0 ∧ ¬ Completes .program (s.sequence ++ [w])) →
    (s.flash.write w).flashState = .reset ∧ (s.flash.write w).memory = s.flash.memory

/-- The write is the next one of a command that is under way, or a reset, and programming
leaves cleared bits cleared. -/
def Steady (s : Watched) (w : Write) : Prop :=
  match s.flash.flashState with
  | .reset => True
  | .cycle2 => w.At 0x2aa 0x55 ∨ w.b = 0xf0
  | .cycle3 => w.At 0x555 0xa0 ∨ w.At 0x555 0x80 ∨ w.At 0x555 0x90 ∨ w.b = 0xf0
  | .cycle4 => w.At 0x555 0xaa ∨ w.b = 0xf0
  | .cycle5 => w.At 0x2aa 0x55 ∨ w.b = 0xf0
  | .cycle6 => w.At 0x555 0x10 ∨ w.b = 0x30 ∨ w.b = 0xf0
  | .program => w.b &&& s.flash.memory w.offset = w.b
  | .autoselect => w.b = 0xf0

/-! ## The state stands for what was written -/

/-- What was written since read mode. -/
def FlashState.written : FlashState → List (Write → Prop)
  | .reset => []
  | .cycle2 => Command.program.sequence.take 1
  | .cycle3 => Command.program.sequence.take 2
  | .cycle4 => Command.sectorErase.sequence.take 3
  | .cycle5 => Command.sectorErase.sequence.take 4
  | .cycle6 => Command.sectorErase.sequence.take 5
  | .program => Command.program.sequence.take 3
  | .autoselect => Command.autoselect.sequence

/-- The write is the next one of a command. -/
def FlashState.Expects : FlashState → Write → Prop
  | .reset, w => w.At 0x555 0xaa
  | .cycle2, w => w.At 0x2aa 0x55
  | .cycle3, w => w.At 0x555 0xa0 ∨ w.At 0x555 0x80 ∨ w.At 0x555 0x90
  | .cycle4, w => w.At 0x555 0xaa
  | .cycle5, w => w.At 0x2aa 0x55
  | .cycle6, w => w.At 0x555 0x10 ∨ w.b = 0x30
  | .program, _ => True
  | .autoselect, _ => False

theorem exists_command {P : Command → Prop} :
    (∃ command, P command) ↔
      P .program ∨ P .autoselect ∨ P .sectorErase ∨ P .chipErase := by
  constructor
  · rintro ⟨command, holds⟩
    cases command <;> simp only [holds, true_or, or_true]
  · rintro (holds | holds | holds | holds) <;> exact ⟨_, holds⟩

theorem matches_nil {writes : List Write} : Matches [] writes ↔ writes = [] :=
  List.forall₂_nil_left_iff

theorem matches_cons {expected : Write → Prop} {sequence : List (Write → Prop)}
    {writes : List Write} :
    Matches (expected :: sequence) writes ↔
      ∃ w rest, expected w ∧ Matches sequence rest ∧ writes = w :: rest :=
  List.forall₂_cons_left_iff


theorem Write.At.iff {w : Write} {address address' : UInt16} {b b' : UInt8}
    (here : w.At address b) : w.At address' b' ↔ address = address' ∧ b = b' := by
  obtain ⟨rfl, rfl⟩ := here
  exact Iff.rfl

/-- The chip's state says what a write is to the writes before it. -/
structure Recognised (state : FlashState) (writes : List Write) (w : Write) : Prop where
  continues : Continues (writes ++ [w]) ↔ state.Expects w
  program : Completes .program (writes ++ [w]) ↔ state = .program
  sectorErase : Completes .sectorErase (writes ++ [w]) ↔ state = .cycle6 ∧ w.b = 0x30
  chipErase : Completes .chipErase (writes ++ [w]) ↔ state = .cycle6 ∧ w.At 0x555 0x10

theorem recognised {state : FlashState} {writes : List Write} (w : Write)
    (written : Matches state.written writes) : Recognised state writes w := by
  cases state <;>
    simp only [FlashState.written, Command.sequence, List.take, matches_cons, matches_nil]
      at written
  case reset =>
    subst written
    constructor <;>
      simp [Continues, exists_command, Completes, Command.sequence, Matches, FlashState.Expects]
  case cycle2 =>
    obtain ⟨a, _, first, rfl, rfl⟩ := written
    constructor <;>
      simp [Continues, exists_command, Completes, Command.sequence, Matches, FlashState.Expects,
        first]
  case cycle3 =>
    obtain ⟨a, _, first, ⟨b, _, second, rfl, rfl⟩, rfl⟩ := written
    constructor <;>
      simp [Continues, exists_command, Completes, Command.sequence, Matches, FlashState.Expects,
        first, second]
    tauto
  case cycle4 =>
    obtain ⟨a, _, first, ⟨b, _, second, ⟨c, _, third, rfl, rfl⟩, rfl⟩, rfl⟩ := written
    constructor <;>
      simp [Continues, exists_command, Completes, Command.sequence, Matches, FlashState.Expects,
        first, second, third.iff]
  case cycle5 =>
    obtain ⟨a, _, first, ⟨b, _, second, ⟨c, _, third, ⟨d, _, fourth, rfl, rfl⟩, rfl⟩, rfl⟩, rfl⟩ :=
      written
    constructor <;>
      simp [Continues, exists_command, Completes, Command.sequence, Matches, FlashState.Expects,
        first, second, third.iff, fourth]
  case cycle6 =>
    obtain ⟨a, _, first, ⟨b, _, second, ⟨c, _, third, ⟨d, _, fourth, ⟨e, _, fifth, rfl, rfl⟩, rfl⟩,
      rfl⟩, rfl⟩, rfl⟩ := written
    constructor <;>
      simp [Continues, exists_command, Completes, Command.sequence, Matches, FlashState.Expects,
        first, second, third.iff, fourth, fifth]
    tauto
  case program =>
    obtain ⟨a, _, first, ⟨b, _, second, ⟨c, _, third, rfl, rfl⟩, rfl⟩, rfl⟩ := written
    constructor <;>
      simp [Continues, exists_command, Completes, Command.sequence, Matches, FlashState.Expects,
        first, second, third.iff]
  case autoselect =>
    obtain ⟨a, _, first, ⟨b, _, second, ⟨c, _, third, rfl, rfl⟩, rfl⟩, rfl⟩ := written
    constructor <;>
      simp [Continues, exists_command, Completes, Command.sequence, Matches, FlashState.Expects,
        first, second, third.iff]

/-! ## What a write does -/

theorem write_memory (self : Flash) (w : Write) :
    (self.write w).memory =
      if self.flashState = .cycle6 ∧ w.At 0x555 0x10 then (chipErase self).memory
      else if self.flashState = .cycle6 ∧ w.b = 0x30 then (sectorErase w.page self).memory
      else if self.flashState = .program then (program w self).memory
      else self.memory := by
  unfold Flash.write Flash.cycle
  cases state : self.flashState <;>
    simp only [reduceCtorEq, false_and, true_and, if_false, if_true]
  all_goals repeat' split
  all_goals rfl

theorem write_unexpected {self : Flash} {w : Write} (astray : ¬ self.flashState.Expects w) :
    (self.write w).flashState = (if w.b = 0xf0 then .reset else self.flashState) ∧
      (self.write w).memory = self.memory := by
  constructor
  · unfold Flash.write Flash.cycle
    cases state : self.flashState <;>
      simp only [state, FlashState.Expects, not_or, not_true, not_false_iff] at astray
    all_goals simp only [astray, state, if_false]
    all_goals split <;> first | rfl | exact state
  · rw [write_memory]
    cases state : self.flashState <;>
      simp_all [FlashState.Expects]

theorem Matches.snoc {sequence : List (Write → Prop)} {writes : List Write}
    {expected : Write → Prop} {w : Write} (front : Matches sequence writes) (last : expected w) :
    Matches (sequence ++ [expected]) (writes ++ [w]) :=
  List.rel_append front (.cons last .nil)

theorem write_expected {self : Flash} {w : Write} {writes : List Write}
    (written : Matches self.flashState.written writes) (next : self.flashState.Expects w)
    (command : (self.write w).flashState ≠ .reset) :
    Matches (self.write w).flashState.written (writes ++ [w]) := by
  have kept : w.b ≠ 0xf0 := fun reset => command (by unfold Flash.write; rw [if_pos reset])
  have cycled : (self.write w).flashState = (self.cycle w).flashState := by
    unfold Flash.write
    rw [if_neg kept]
  rw [cycled] at command ⊢
  unfold Flash.cycle at command ⊢
  cases state : self.flashState <;> rw [state] at written next <;> simp only [state] at command ⊢
  case reset =>
    rw [if_pos (show w.At 0x555 0xaa from next)]
    exact written.snoc next
  case cycle2 =>
    rw [if_pos (show w.At 0x2aa 0x55 from next)]
    exact written.snoc next
  case cycle3 =>
    split
    next data => exact written.snoc data
    next =>
      split
      next erase => exact written.snoc erase
      next =>
        split
        next select => exact written.snoc select
        next other otherwise neither => simp_all [FlashState.Expects]
  case cycle4 =>
    rw [if_pos (show w.At 0x555 0xaa from next)]
    exact written.snoc next
  case cycle5 =>
    rw [if_pos (show w.At 0x2aa 0x55 from next)]
    exact written.snoc next
  case cycle6 =>
    split at command
    · exact absurd rfl command
    · split at command
      · exact absurd rfl command
      · simp_all [FlashState.Expects]
  case program => exact absurd rfl command
  case autoselect => exact next.elim

/-! ## Steady writes -/

/-- The state of the chip stands for what was written since read mode. -/
def Tracks (s : Watched) : Prop := Matches s.flash.flashState.written s.sequence

theorem steady_iff {s : Watched} {w : Write} :
    Steady s w ↔
      (s.flash.flashState = .program → w.b &&& s.flash.memory w.offset = w.b) ∧
      (s.flash.flashState.Expects w ∨ s.flash.flashState = .reset ∨ w.b = 0xf0) := by
  unfold Steady
  cases s.flash.flashState <;> simp [FlashState.Expects, or_assoc]

theorem lawful_iff {s : Watched} {w : Write} (tracks : Tracks s) :
    Lawful s w ↔
      (s.flash.flashState = .program → w.b &&& s.flash.memory w.offset = w.b) ∧
      (s.flash.flashState.Expects w ∨ s.flash.flashState = .reset ∨ w.b = 0xf0) := by
  have known := recognised w tracks
  have memory := write_memory s.flash w
  constructor
  · intro lawful
    constructor
    · intro programs
      have cleared := lawful.cleared (known.program.mpr programs)
      rw [memory, if_neg (by simp [programs]), if_neg (by simp [programs]), if_pos programs]
        at cleared
      simpa [program] using cleared
    · by_contra astray
      obtain ⟨unexpected, command, kept⟩ := by simpa only [not_or] using astray
      obtain ⟨back, -⟩ := lawful.aborted (.inl (mt known.continues.mp unexpected))
      rw [(write_unexpected unexpected).1, if_neg kept] at back
      exact command back
  · rintro ⟨clears, steady⟩
    constructor
    case changed =>
      intro o differs
      rw [memory] at differs
      rw [known.program, known.sectorErase, known.chipErase]
      split at differs
      next erase =>
        by_cases inside : o < sizeOfFlashRom
        · exact .inr (.inr ⟨erase, inside⟩)
        · simp [chipErase, inside] at differs
      next =>
        split at differs
        next erase =>
          by_cases inside : InSector w.page o
          · exact .inr (.inl ⟨erase, inside⟩)
          · simp [sectorErase, inside] at differs
        next =>
          split at differs
          next programs =>
            by_cases here : o = w.offset
            · exact .inl ⟨programs, here⟩
            · simp [program, here] at differs
          next => exact absurd rfl differs
    case cleared =>
      intro programs
      have state := known.program.mp programs
      rw [memory, if_neg (by simp [state]), if_neg (by simp [state]), if_pos state]
      simpa [program] using clears state
    case sector =>
      intro erase o inside
      obtain ⟨state, byte⟩ := known.sectorErase.mp erase
      rw [memory, if_neg (by simp [Write.At, byte]), if_pos ⟨state, byte⟩]
      exact if_pos inside
    case chip =>
      intro erase o inside
      rw [memory, if_pos (known.chipErase.mp erase)]
      exact if_pos inside
    case aborted =>
      intro ends
      have unexpected : ¬ s.flash.flashState.Expects w := by
        rcases ends with unknown | ⟨reset, noData⟩
        · exact mt known.continues.mpr unknown
        · have state := mt known.program.mpr noData
          intro expected
          cases command : s.flash.flashState <;>
            simp_all [FlashState.Expects, Write.At]
      obtain ⟨state, same⟩ := write_unexpected unexpected
      refine ⟨?_, same⟩
      rcases steady with expected | readMode | reset
      · exact absurd expected unexpected
      · rw [state, readMode, ite_self]
      · rw [state, if_pos reset]

theorem Tracks.step {s : Watched} {w : Write} (tracks : Tracks s) (steady : Steady s w)
    {t : Watched} (stepEq : watchedStep s w = some t) : Tracks t := by
  obtain rfl := Option.some.inj stepEq
  unfold Tracks
  by_cases command : (s.flash.write w).flashState = .reset
  · simp only [command, if_true, FlashState.written]
    exact .nil
  · simp only [command, if_false]
    by_cases expected : s.flash.flashState.Expects w
    · exact write_expected tracks expected command
    · rw [(write_unexpected expected).1] at command
      obtain ⟨-, ended⟩ := steady_iff.mp steady
      rcases ended with expected' | readMode | reset
      · exact absurd expected' expected
      · exact absurd (by rw [readMode, ite_self]) command
      · exact absurd (if_pos reset) command

/-! ## The law, for every run -/

/-- In every run the chip keeps to its commands exactly as long as the writes are steady. -/
theorem commands_iff {memory : Nat → UInt8} {writes : List Write} {s : Watched} :
    Runs watchedStep Lawful { flash := { memory := memory } } writes s ↔
      Runs watchedStep Steady { flash := { memory := memory } } writes s :=
  Runs.guard_iff (show Tracks { flash := { memory := memory } } from .nil)
    (fun _ _ tracks => (lawful_iff tracks).trans steady_iff.symm)
    fun _ _ _ tracks steady stepEq => tracks.step steady stepEq

/-- A write astray between the cycles, and the byte is programmed all the same. -/
theorem commands_wrong :
    ¬ ∃ s, Runs watchedStep Lawful { flash := { memory := fun _ => 0xff } }
      [⟨0, 0x555, 0xaa⟩, ⟨0, 0, 0⟩, ⟨0, 0x2aa, 0x55⟩, ⟨0, 0x555, 0xa0⟩, ⟨1, 2, 3⟩] s := by
  rintro ⟨s, run⟩
  obtain ⟨before, front, lawful, -⟩ :=
    Runs.of_snoc (show Runs watchedStep Lawful { flash := { memory := fun _ => 0xff } }
      ([⟨0, 0x555, 0xaa⟩, ⟨0, 0, 0⟩, ⟨0, 0x2aa, 0x55⟩, ⟨0, 0x555, 0xa0⟩] ++ [⟨1, 2, 3⟩]) s from run)
  have evaluated : Runs watchedStep anyStep { flash := { memory := fun _ => 0xff } }
      [⟨0, 0x555, 0xaa⟩, ⟨0, 0, 0⟩, ⟨0, 0x2aa, 0x55⟩, ⟨0, 0x555, 0xa0⟩]
      { flash := { flashState := .program, memory := fun _ => 0xff }
        sequence := [⟨0, 0x555, 0xaa⟩, ⟨0, 0, 0⟩, ⟨0, 0x2aa, 0x55⟩, ⟨0, 0x555, 0xa0⟩] } :=
    .of_foldlM rfl
  obtain rfl := front.functional evaluated
  rcases lawful.changed 0x4002 (by decide) with ⟨whole, -⟩ | ⟨whole, -⟩ | ⟨whole, -⟩
  · exact absurd (List.Forall₂.length_eq whole) (by decide)
  · exact absurd (List.Forall₂.length_eq whole) (by decide)
  · exact absurd (List.Forall₂.length_eq whole) (by decide)

end FuseX.Flash
