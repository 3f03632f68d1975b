import FuseX.Lib.Parsing
import Mathlib.Data.List.Basic

/-!
# Run-length code with a repeated element as its escape

Two equal elements are followed by the number of further ones; after a count no
element has been seen yet. How counts are written is a parameter (`Counts`).

`encode` writes what is left of a list, after the last element and the further
ones of its run that are not written yet; `decode` reads a counted list.
`reads_encode` says that it reads what was written, with anything behind.
-/

namespace Lib.RunLength

/-- Counts up to a limit, as elements. -/
structure Counts (α : Type) : Type where
  limit : Nat
  code : Nat → α
  value : α → Nat
  value_code : ∀ l, l ≤ limit → value (code l) = l

variable {α : Type} [DecidableEq α] (counts : Counts α)

/-- The rest of the code: `run` is the count of an open run of `last`. -/
def encode : Option Nat → α → List α → List α
  | run, _, [] => run.toList.map counts.code
  | run, last, d :: ds =>
      if d ≠ last then run.toList.map counts.code ++ d :: encode none d ds
      else
        match run with
        | none => d :: encode (some 0) d ds
        | some l =>
            if l = counts.limit then counts.code l :: d :: encode none d ds
            else encode (some (l + 1)) d ds

/-- Reads `n` elements; `prev` is the last one, if it may begin a run. -/
def decode : List α → Nat → Option α → Option (List α × List α)
  | xs, 0, _ => some ([], xs)
  | [], _ + 1, _ => none
  | d :: xs, n + 1, prev =>
      if prev = some d then
        match xs with
        | [] => none
        | len :: rest =>
            if counts.value len ≤ n then
              (decode rest (n - counts.value len) none).map fun read =>
                (List.replicate (counts.value len + 1) d ++ read.1, read.2)
            else none
      else (decode xs n (some d)).map fun read => (d :: read.1, read.2)

section Equations

variable {d last : α} {ds xs rest : List α} {run : Option Nat} {prev : Option α} {l n : Nat}

theorem encode_new (new : d ≠ last) :
    encode counts run last (d :: ds) =
      run.toList.map counts.code ++ d :: encode counts none d ds :=
  if_pos new

theorem encode_second : encode counts none d (d :: ds) = d :: encode counts (some 0) d ds :=
  if_neg (not_not.mpr rfl)

theorem encode_full :
    encode counts (some counts.limit) d (d :: ds) =
      counts.code counts.limit :: d :: encode counts none d ds :=
  (if_neg (not_not.mpr rfl)).trans (if_pos rfl)

theorem encode_more (room : l ≠ counts.limit) :
    encode counts (some l) d (d :: ds) = encode counts (some (l + 1)) d ds :=
  (if_neg (not_not.mpr rfl)).trans (if_neg room)

theorem decode_zero : decode counts xs 0 prev = some ([], xs) := by
  cases xs <;> rfl

theorem decode_new (new : prev ≠ some d) :
    decode counts (d :: xs) (n + 1) prev =
      (decode counts xs n (some d)).map fun read => (d :: read.1, read.2) := by
  rw [decode.eq_def]
  exact if_neg new

theorem decode_run {len : α} (fits : counts.value len ≤ n) :
    decode counts (d :: len :: xs) (n + 1) (some d) =
      (decode counts xs (n - counts.value len) none).map fun read =>
        (List.replicate (counts.value len + 1) d ++ read.1, read.2) :=
  (if_pos rfl).trans (if_pos fits)

end Equations

/-- What an open run of `last`, `l` further ones in, is followed by: its count, the
elements it still stands for, and a list that starts afresh. -/
structure Closes (l : Nat) (last : α) (ds rest : List α) (code : List α) : Prop where
  closes : ∃ len behind tail, code = counts.code len :: behind ∧ l ≤ len ∧ len ≤ counts.limit ∧
    ds = List.replicate (len - l) last ++ tail ∧
    decode counts (behind ++ rest) tail.length none = some (tail, rest)

variable {counts}

/-- A run that ends here. -/
theorem Closes.of_fresh {l : Nat} {last : α} {ds rest behind : List α}
    (small : l ≤ counts.limit)
    (fresh : decode counts (behind ++ rest) ds.length none = some (ds, rest)) :
    Closes counts l last ds rest (counts.code l :: behind) := by
  refine ⟨l, behind, ds, rfl, Nat.le_refl l, small, ?_, fresh⟩
  rw [Nat.sub_self]
  rfl

/-- A run that goes on. -/
theorem Closes.more {l : Nat} {last : α} {ds rest code : List α}
    (closes : Closes counts (l + 1) last ds rest code) :
    Closes counts l last (last :: ds) rest code := by
  obtain ⟨len, behind, tail, code_eq, at_least, small, rfl, fresh⟩ := closes
  refine ⟨len, behind, tail, code_eq, Nat.le_of_succ_le at_least, small, ?_, fresh⟩
  rw [← List.cons_append, ← List.replicate_succ]
  congr 2
  omega

/-- An element that differs from the one before, and the rest behind it. -/
theorem decode_fresh {d : α} {ds rest : List α} {prev : Option α} (new : prev ≠ some d)
    (behind : decode counts (encode counts none d ds ++ rest) ds.length (some d) =
      some (ds, rest)) :
    decode counts (d :: encode counts none d ds ++ rest) (d :: ds).length prev =
      some (d :: ds, rest) := by
  rw [List.cons_append, List.length_cons, decode_new counts new, behind]
  rfl

theorem decode_encode_append (ds rest : List α) :
    (∀ last, decode counts (encode counts none last ds ++ rest) ds.length (some last) =
      some (ds, rest)) ∧
    ∀ l last, l ≤ counts.limit →
      Closes counts l last ds rest (encode counts (some l) last ds) := by
  induction ds with
  | nil =>
    refine ⟨fun last => decode_zero counts, fun l last small => ?_⟩
    exact Closes.of_fresh small (decode_zero counts)
  | cons d ds ih =>
    obtain ⟨closed, opened⟩ := ih
    constructor
    · intro last
      by_cases new : d = last
      · subst new
        -- the second of two equal elements: the count of the run comes next
        obtain ⟨len, behind, tail, code_eq, -, small, split, fresh⟩ :=
          opened 0 d (Nat.zero_le _)
        have value := counts.value_code len small
        have total : ds.length = len + tail.length := by
          rw [split, List.length_append, List.length_replicate, Nat.sub_zero]
        have fits : counts.value (counts.code len) ≤ ds.length := by
          rw [value]
          omega
        have left : ds.length - len = tail.length := by
          omega
        rw [encode_second, code_eq, List.length_cons, List.cons_append, List.cons_append,
          decode_run counts fits, value, left, fresh, Option.map_some, List.replicate_succ,
          List.cons_append]
        rw [Nat.sub_zero] at split
        rw [← split]
      · rw [encode_new counts new]
        have other : some last ≠ some d := fun same => new (Option.some.inj same).symm
        exact decode_fresh other (closed d)
    · intro l last small
      by_cases new : d = last
      · subst new
        by_cases full : l = counts.limit
        · subst full
          rw [encode_full]
          exact Closes.of_fresh small (decode_fresh (Option.some_ne_none d).symm (closed d))
        · rw [encode_more counts full]
          exact (opened (l + 1) d (by omega)).more
      · rw [encode_new counts new]
        exact Closes.of_fresh small (decode_fresh (Option.some_ne_none d).symm (closed d))

/-- The code of a list, begun with an element that the list does not begin with. -/
theorem reads_encode {last : α} {ds : List α} (new : ds.head? ≠ some last) :
    Reads (fun xs => decode counts xs ds.length none) (encode counts none last ds) ds := by
  intro rest
  cases ds with
  | nil => exact decode_zero counts
  | cons d ds =>
    have other : d ≠ last := fun same => new (congrArg some same)
    rw [encode_new counts other]
    exact decode_fresh (Option.some_ne_none d).symm ((decode_encode_append ds rest).1 d)

end Lib.RunLength
