import Mathlib.Data.List.Basic

/-!
# Parsers of a front

A parser takes what it reads from the front of a list and leaves the rest.
`Reads parse written value` says that it reads `value` from `written`, whatever
comes behind.

* `Reads.bind` and `Reads.map` follow the parser's own structure;
* `Reads.times` reads a counted row of one kind of thing;
* `parseAll` reads items until the list ends, each in the state the items before
  it left, and `parseAll_parsed` is the induction over them.
-/

namespace Lib

variable {α β γ σ : Type}

/-- What is read and what is left. -/
abbrev Parser (α β : Type) : Type :=
  List α → Option (β × List α)

def Reads (parse : Parser α β) (written : List α) (value : β) : Prop :=
  ∀ rest, parse (written ++ rest) = some (value, rest)

/-- Reads one thing after another. -/
def Parser.andThen (first : Parser α β) (second : β → Parser α γ) : Parser α γ :=
  fun xs => (first xs).bind fun read => second read.1 read.2

/-- Reads nothing. -/
def Parser.pure (value : β) : Parser α β :=
  fun xs => some (value, xs)

/-- Reads one element. -/
def Parser.next : Parser α α
  | [] => none
  | x :: rest => some (x, rest)

/-- Reads `n` things. -/
def Parser.times (parse : Parser α β) : Nat → Parser α (List β)
  | 0 => Parser.pure []
  | n + 1 => parse.andThen fun value => (times parse n).andThen fun values =>
      Parser.pure (value :: values)

namespace Reads

theorem pure {value : β} : Reads (Parser.pure value) ([] : List α) value :=
  fun _ => rfl

theorem next {x : α} : Reads Parser.next [x] x :=
  fun _ => rfl

theorem bind {first : Parser α β} {second : β → Parser α γ} {front back : List α} {value : β}
    {value' : γ} (reads : Reads first front value) (reads' : Reads (second value) back value') :
    Reads (first.andThen second) (front ++ back) value' := by
  intro rest
  rw [List.append_assoc, Parser.andThen, reads]
  exact reads' rest

theorem map {first : Parser α β} {f : β → γ} {front : List α} {value : β}
    (reads : Reads first front value) :
    Reads (first.andThen fun value => Parser.pure (f value)) front (f value) := by
  intro rest
  rw [Parser.andThen, reads]
  rfl

/-- A row of things that are written one after another. -/
theorem times {parse : Parser α β} {write : γ → List α} {value : γ → β}
    (reads : ∀ x, Reads parse (write x) (value x)) (xs : List γ) :
    Reads (parse.times xs.length) (xs.flatMap write) (xs.map value) := by
  induction xs with
  | nil => exact pure
  | cons x xs ih =>
    rw [List.flatMap_cons]
    exact (reads x).bind ih.map

end Reads

/-! ## Items until the end -/

/-- Reads items to the end of the list. -/
def parseAll (item : σ → Parser α (β × σ)) : Nat → σ → List α → Option (List β × σ)
  | _, s, [] => some ([], s)
  | 0, _, _ :: _ => none
  | fuel + 1, s, x :: xs => (item s (x :: xs)).bind fun read =>
      (parseAll item fuel read.1.2 read.2).map fun whole => (read.1.1 :: whole.1, whole.2)

/-- An item that is not read. -/
theorem parseAll_none {item : σ → Parser α (β × σ)} {s : σ} {xs : List α} (some : xs ≠ [])
    (unread : item s xs = none) (fuel : Nat) : parseAll item fuel s xs = none := by
  rcases List.exists_cons_of_ne_nil some with ⟨x, rest, rfl⟩
  cases fuel with
  | zero => rfl
  | succ fuel =>
    rw [parseAll, unread]
    rfl

/-- The items written one after another from a state. -/
inductive Parsed (item : σ → Parser α (β × σ)) (start : σ) : List α → List β → σ → Prop
  | nil : Parsed item start [] [] start
  | snoc {front written : List α} {values : List β} {value : β} {s s' : σ} :
    Parsed item start front values s → written ≠ [] → Reads (item s) written (value, s') →
    Parsed item start (front ++ written) (values ++ [value]) s'

variable {item : σ → Parser α (β × σ)} {start s : σ} {written : List α} {values : List β}

theorem Parsed.append {back : List α} {values' : List β} {s' : σ} (parsed : Parsed item start written values s)
    (parsed' : Parsed item s back values' s') : Parsed item start (written ++ back) (values ++ values') s' := by
  induction parsed' with
  | nil =>
    rw [List.append_nil, List.append_nil]
    exact parsed
  | snoc _ some reads ih =>
    rw [← List.append_assoc, ← List.append_assoc]
    exact ih.snoc some reads

theorem Parsed.length_le (parsed : Parsed item start written values s) :
    values.length ≤ written.length := by
  induction parsed with
  | nil => exact Nat.le_refl 0
  | snoc _ some _ ih =>
    have one := List.length_pos_of_ne_nil some
    rw [List.length_append, List.length_append, List.length_singleton]
    omega

/-- The items are read, and then the ones behind them. -/
theorem Parsed.parseAll_append (parsed : Parsed item start written values s) (fuel : Nat)
    (rest : List α) :
    parseAll item (values.length + fuel) start (written ++ rest) =
      (parseAll item fuel s rest).map fun behind => (values ++ behind.1, behind.2) := by
  induction parsed generalizing fuel rest with
  | nil =>
    rw [List.length_nil, Nat.zero_add, List.nil_append]
    exact Option.map_id'.symm
  | @snoc front last values value s s' _ some reads ih =>
    rw [List.length_append, List.length_singleton, Nat.add_assoc, List.append_assoc, ih]
    rcases List.exists_cons_of_ne_nil some with ⟨x, xs, rfl⟩
    rw [Nat.add_comm 1 fuel, List.cons_append, parseAll, ← List.cons_append, reads rest,
      Option.bind_some, Option.map_map]
    congr 1
    funext behind
    simp only [Function.comp, List.append_assoc, List.singleton_append]

/-- The whole list is read. -/
theorem Parsed.parseAll (parsed : Parsed item start written values s) :
    parseAll item written.length start written = some (values, s) := by
  have fits := parsed.length_le
  have whole := parsed.parseAll_append (written.length - values.length) []
  rw [List.append_nil, Nat.add_sub_cancel' fits] at whole
  have done : Lib.parseAll item (written.length - values.length) s [] = some ([], s) := by
    rw [Lib.parseAll]
  rw [whole, done, Option.map_some, List.append_nil]

end Lib
