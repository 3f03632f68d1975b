import Mathlib.Data.List.Basic

/-!
# Streams with an escape symbol

One symbol of a stream is set apart: with the one behind it, it is a control sequence, or stands for
itself if that is the `star`. `payload` is what a reader gets out of a stream, from a state in which the
last symbol was the escape symbol or not.

* `payload_append` lets a stream be read in parts, cut anywhere;
* `payload_stuffed` reads back what was written.
-/

namespace Lib

/-- What is written to a stream: an item, or a control sequence. -/
inductive Stuffed (α : Type*)
  | item (a : α)
  | control (a : α)

variable {α : Type*} [DecidableEq α] (escape star : α)

/-- The symbols of what is written. -/
def Stuffed.symbols : Stuffed α → List α
  | item a => if a = escape then [escape, star] else [a]
  | control a => [escape, a]

/-- The items that are written. -/
def Stuffed.items : Stuffed α → List α
  | item a => [a]
  | control _ => []

/-- The items that are read. -/
def payload : Bool → List α → List α
  | _, [] => []
  | true, a :: stream => if a = star then escape :: payload false stream else payload false stream
  | false, a :: stream => if a = escape then payload true stream else a :: payload false stream

/-- Whether a stream breaks off behind an escape symbol. -/
def escaped : Bool → List α → Bool
  | esc, [] => esc
  | true, _ :: stream => escaped false stream
  | false, a :: stream => escaped (decide (a = escape)) stream

variable {escape star} {esc : Bool} {a : α} {stream more : List α}

theorem payload_append :
    payload escape star esc (stream ++ more) =
      payload escape star esc stream ++ payload escape star (escaped escape esc stream) more := by
  induction stream generalizing esc with
  | nil =>
    simp only [List.nil_append, escaped]
    cases esc <;> rfl
  | cons a stream ih =>
    rcases esc with _ | _
    · by_cases special : a = escape
      · simp only [List.cons_append, payload, escaped, special, if_true, decide_true, ih]
      · simp only [List.cons_append, payload, escaped, special, if_false, decide_false, ih]
    · by_cases stands : a = star
      · simp only [List.cons_append, payload, escaped, stands, if_true, ih]
      · simp only [List.cons_append, payload, escaped, stands, if_false, ih]

theorem escaped_append :
    escaped escape esc (stream ++ more) = escaped escape (escaped escape esc stream) more := by
  induction stream generalizing esc with
  | nil =>
    simp only [List.nil_append, escaped]
  | cons a stream ih =>
    rcases esc with _ | _
    · exact ih
    · exact ih

/-- A part of a stream has a part of the items. -/
theorem payload_prefix (part : stream <+: more) :
    payload escape star esc stream <+: payload escape star esc more := by
  obtain ⟨rest, rfl⟩ := part
  rw [payload_append]
  exact List.prefix_append _ _

/-- What is written is read, if no control sequence has the `star`. -/
theorem payload_stuffed {written : List (Stuffed α)} (distinct : Stuffed.control star ∉ written) :
    payload escape star false (written.flatMap (Stuffed.symbols escape star)) =
      written.flatMap Stuffed.items := by
  induction written with
  | nil => rfl
  | cons first written ih =>
    obtain ⟨here, later⟩ := not_or.mp fun found => distinct (List.mem_cons.mpr found)
    rw [List.flatMap_cons, List.flatMap_cons, ← ih later]
    rcases first with a | a
    · by_cases special : a = escape
      · simp [Stuffed.symbols, Stuffed.items, payload, special]
      · simp [Stuffed.symbols, Stuffed.items, payload, special]
    · have other : a ≠ star := fun same => here (by rw [same])
      simp [Stuffed.symbols, Stuffed.items, payload, other]

end Lib
