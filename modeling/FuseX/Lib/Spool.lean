import Mathlib.Algebra.Ring.Nat
import FuseX.Lib.Ring

/-!
# Records in a ring

A spool keeps records one after the other in a ring: each begins a `span` behind the one before,
and a span is no shorter than its record. New records are written behind the last one, old ones
are given back at the front.

* `Stored` says that the ring has the records; `Stored.push` is the write behind them, with room
  for the record;
* `Threaded` says the same of what each record tells about the place of the next one.
-/

namespace Lib

variable {α : Type*} {size : Nat} {ring : Nat → α} {start : Nat}

/-- A record and how far behind its start the next one begins. -/
structure Spooled (α : Type*) : Type _ where
  record : List α
  span : Nat
  fits : record.length ≤ span

/-- How far behind the start of the first record the next one goes. -/
def spans (held : List (Spooled α)) : Nat := (held.map (·.span)).sum

theorem spans_append (held : List (Spooled α)) (last : Spooled α) :
    spans (held ++ [last]) = spans held + last.span := by
  rw [spans, spans, List.map_append, List.sum_append, List.map_singleton, List.sum_singleton]

theorem spans_cons (first : Spooled α) (rest : List (Spooled α)) :
    spans (first :: rest) = first.span + spans rest := by
  rw [spans, spans, List.map_cons, List.sum_cons]

/-- The ring has the records from the start on. -/
def Stored (size : Nat) (ring : Nat → α) : Nat → List (Spooled α) → Prop
  | _, [] => True
  | start, first :: rest =>
      ringRead size ring start first.record.length = first.record ∧
        Stored size ring (start + first.span) rest

theorem Stored.of_same {ring' : Nat → α} {held : List (Spooled α)}
    (stored : Stored size ring start held)
    (same : ∀ i < spans held, ring' ((start + i) % size) = ring ((start + i) % size)) :
    Stored size ring' start held := by
  induction held generalizing start with
  | nil => exact True.intro
  | cons first rest ih =>
    obtain ⟨here, behind⟩ := stored
    rw [spans_cons] at same
    constructor
    · rw [← here, length_ringRead]
      apply ringRead_congr
      intro i inside
      have fits := first.fits
      exact same i (by omega)
    · apply ih behind
      intro i inside
      rw [Nat.add_assoc]
      exact same (first.span + i) (by omega)

/-- A record behind the others, for which there is room, is kept with them. -/
theorem Stored.push {held : List (Spooled α)} (positive : 0 < size)
    (stored : Stored size ring start held) (last : Spooled α)
    (room : spans held + last.record.length ≤ size) :
    Stored size (ringWrite size ring ((start + spans held) % size) last.record) start
      (held ++ [last]) := by
  have kept : Stored size (ringWrite size ring ((start + spans held) % size) last.record) start
      held :=
    stored.of_same fun i inside => ringWrite_filled positive room inside
  have written : ringRead size (ringWrite size ring ((start + spans held) % size) last.record)
      (start + spans held) last.record.length = last.record := by
    have whole := @ringRead_ringWrite α size ring start (spans held) last.record positive room
    rw [ringRead_add] at whole
    exact (List.append_inj' whole (length_ringRead _ _)).2
  clear stored room
  generalize ringWrite size ring ((start + spans held) % size) last.record = ring' at *
  induction held generalizing start with
  | nil => exact ⟨written, True.intro⟩
  | cons first rest ih =>
    obtain ⟨here, behind⟩ := kept
    rw [spans_cons, ← Nat.add_assoc] at written
    exact ⟨here, ih behind written⟩

/-- Each record tells the address of the next one, as `link` reads it; the ring is at `base`. -/
def Threaded (size base : Nat) (link : List α → Nat) : Nat → List (Spooled α) → Prop
  | _, [] => True
  | start, first :: rest =>
      link first.record = base + (start + first.span) % size ∧
        Threaded size base link (start + first.span) rest

theorem Threaded.push {base : Nat} {link : List α → Nat} {held : List (Spooled α)}
    (linked : Threaded size base link start held) {last : Spooled α}
    (leads : link last.record = base + (start + spans held + last.span) % size) :
    Threaded size base link start (held ++ [last]) := by
  induction held generalizing start with
  | nil => exact ⟨leads, True.intro⟩
  | cons first rest ih =>
    obtain ⟨here, behind⟩ := linked
    rw [spans_cons, ← Nat.add_assoc start] at leads
    exact ⟨here, ih behind leads⟩

/-- The place of a record: its start, with those of the records before it. -/
theorem Stored.at {front back : List (Spooled α)} {one : Spooled α}
    (stored : Stored size ring start (front ++ one :: back)) :
    ringRead size ring (start + spans front) one.record.length = one.record := by
  induction front generalizing start with
  | nil => exact stored.1
  | cons first rest ih =>
    rw [spans_cons, ← Nat.add_assoc]
    exact ih stored.2

end Lib
