import Mathlib.Data.List.Basic

/-!
# Scans of memory

A pointer is the memory from it on, as a list. A scan that reads behind the end of that
list faults: it has no result. So a result that a scan has on a part of the memory, it has
whatever lies behind that part.
-/

namespace Lib

variable {α : Type}

/-! ## Up to a mark -/

/-- The first place that meets `p`: what lies before it, what is there, what lies behind. -/
def firstOf (p : α → Bool) : List α → Option (List α × α × List α)
  | [] => none
  | x :: mem =>
      if p x then some ([], x, mem)
      else (firstOf p mem).map fun (before, y, after) => (x :: before, y, after)

theorem firstOf_spec {p : α → Bool} {mem before after : List α} {x : α}
    (first : firstOf p mem = some (before, x, after)) :
    mem = before ++ x :: after ∧ p x = true ∧ ∀ y ∈ before, p y = false := by
  induction mem generalizing before with
  | nil => cases first
  | cons z mem ih =>
    rw [firstOf] at first
    split at first
    · next here =>
      cases first
      exact ⟨rfl, here, nofun⟩
    · next further =>
      obtain ⟨⟨front, y, back⟩, found, same⟩ := Option.map_eq_some_iff.mp first
      cases same
      obtain ⟨shape, meets, none_⟩ := ih found
      refine ⟨by rw [shape, List.cons_append], meets, fun y inFront => ?_⟩
      rcases List.mem_cons.mp inFront with rfl | inFront
      · exact Bool.eq_false_iff.mpr further
      · exact none_ y inFront

theorem firstOf_eq {p : α → Bool} {before after : List α} {x : α} (meets : p x = true)
    (none_ : ∀ y ∈ before, p y = false) :
    firstOf p (before ++ x :: after) = some (before, x, after) := by
  induction before with
  | nil => exact if_pos meets
  | cons z before ih =>
    have further : ¬ p z = true := Bool.eq_false_iff.mp (none_ z List.mem_cons_self)
    rw [List.cons_append, firstOf, if_neg further,
      ih fun y inBefore => none_ y (List.mem_cons_of_mem z inBefore)]
    rfl

theorem firstOf_append {p : α → Bool} {mem before after : List α} {x : α}
    (first : firstOf p mem = some (before, x, after)) (behind : List α) :
    firstOf p (mem ++ behind) = some (before, x, after ++ behind) := by
  obtain ⟨shape, meets, none_⟩ := firstOf_spec first
  rw [shape, List.append_assoc]
  exact firstOf_eq meets none_

/-- What does not meet `p` in front is skipped. -/
theorem firstOf_skip {p : α → Bool} {front : List α} (none_ : ∀ y ∈ front, p y = false)
    (mem : List α) : firstOf p (front ++ mem) =
      (firstOf p mem).map fun (before, x, after) => (front ++ before, x, after) := by
  induction front with
  | nil =>
    rw [List.nil_append]
    cases firstOf p mem <;> rfl
  | cons z front ih =>
    have further : ¬ p z = true := Bool.eq_false_iff.mp (none_ z List.mem_cons_self)
    rw [List.cons_append, firstOf, if_neg further,
      ih fun y inFront => none_ y (List.mem_cons_of_mem z inFront)]
    cases firstOf p mem <;> rfl

theorem firstOf_isSome {p : α → Bool} {mem : List α} :
    (firstOf p mem).isSome ↔ ∃ x ∈ mem, p x = true := by
  constructor
  · intro found
    obtain ⟨⟨before, x, after⟩, first⟩ := Option.isSome_iff_exists.mp found
    obtain ⟨shape, meets, -⟩ := firstOf_spec first
    exact ⟨x, by rw [shape]; exact List.mem_append_right _ List.mem_cons_self, meets⟩
  · rintro ⟨x, inMem, meets⟩
    induction mem with
    | nil => cases inMem
    | cons z mem ih =>
      rw [firstOf]
      split
      · rfl
      next further =>
        rcases List.mem_cons.mp inMem with rfl | inMem
        · exact absurd meets further
        · rw [Option.isSome_map]
          exact ih inMem

/-! ## Strings that end with a mark -/

variable [DecidableEq α] {nul : α}

/-- The string in front of the first `nul`. -/
def stringAt (nul : α) (mem : List α) : Option (List α) :=
  (firstOf (· = nul) mem).map (·.1)

/-- The first `c` of the string: the string up to it, and the memory behind it. The inner
`none` is a string without one. -/
def charAt (nul c : α) (mem : List α) : Option (Option (List α × List α)) :=
  (firstOf (fun x => x = c || x = nul) mem).map fun (before, x, after) =>
    if x = c then some (before, after) else none

theorem stringAt_eq {s : List α} (plain : nul ∉ s) (after : List α) :
    stringAt nul (s ++ nul :: after) = some s := by
  have none_ : ∀ y ∈ s, decide (y = nul) = false := fun y inString =>
    decide_eq_false fun same => plain (same ▸ inString)
  rw [stringAt, firstOf_eq (by simp) none_]
  rfl

theorem stringAt_spec {mem s : List α} (string : stringAt nul mem = some s) :
    nul ∉ s ∧ ∃ after, mem = s ++ nul :: after := by
  obtain ⟨⟨before, x, after⟩, first, rfl⟩ := Option.map_eq_some_iff.mp string
  obtain ⟨shape, meets, none_⟩ := firstOf_spec first
  obtain rfl : x = nul := of_decide_eq_true meets
  exact ⟨fun inString => of_decide_eq_false (none_ _ inString) rfl, after, shape⟩

theorem stringAt_append {mem s : List α} (string : stringAt nul mem = some s)
    (behind : List α) : stringAt nul (mem ++ behind) = some s := by
  obtain ⟨plain, after, rfl⟩ := stringAt_spec string
  rw [List.append_assoc]
  exact stringAt_eq plain _

theorem exists_stringAt {mem : List α} (ends : nul ∈ mem) : ∃ s, stringAt nul mem = some s := by
  have found : (firstOf (fun x => decide (x = nul)) mem).isSome :=
    firstOf_isSome.mpr ⟨nul, ends, decide_eq_true rfl⟩
  obtain ⟨first, found⟩ := Option.isSome_iff_exists.mp found
  exact ⟨first.1, by rw [stringAt, found]; rfl⟩

theorem stringAt_eq_none {mem : List α} (endless : nul ∉ mem) : stringAt nul mem = none := by
  rcases string : stringAt nul mem with _ | s
  · rfl
  · obtain ⟨-, after, rfl⟩ := stringAt_spec string
    exact absurd (List.mem_append_right _ List.mem_cons_self) endless

theorem charAt_found {c : α} {s : List α} (without : c ∉ s) (plain : nul ∉ s) (after : List α) :
    charAt nul c (s ++ c :: after) = some (some (s, after)) := by
  have none_ : ∀ y ∈ s, (decide (y = c) || decide (y = nul)) = false := by
    intro y inString
    rw [Bool.or_eq_false_iff, decide_eq_false_iff_not, decide_eq_false_iff_not]
    exact ⟨fun same => without (same ▸ inString), fun same => plain (same ▸ inString)⟩
  rw [charAt, firstOf_eq (by simp) none_]
  exact congrArg some (if_pos rfl)

theorem charAt_missing {c : α} (other : nul ≠ c) {s : List α} (without : c ∉ s)
    (plain : nul ∉ s) (after : List α) : charAt nul c (s ++ nul :: after) = some none := by
  have none_ : ∀ y ∈ s, (decide (y = c) || decide (y = nul)) = false := by
    intro y inString
    rw [Bool.or_eq_false_iff, decide_eq_false_iff_not, decide_eq_false_iff_not]
    exact ⟨fun same => without (same ▸ inString), fun same => plain (same ▸ inString)⟩
  rw [charAt, firstOf_eq (by simp) none_]
  exact congrArg some (if_neg other)

/-- What a search of a string finds is in the string, and it leaves the rest of it. -/
theorem charAt_spec {c : α} {mem before after : List α}
    (found : charAt nul c mem = some (some (before, after))) :
    mem = before ++ c :: after ∧ c ∉ before ∧ nul ∉ before := by
  obtain ⟨⟨front, x, back⟩, first, same⟩ := Option.map_eq_some_iff.mp found
  obtain ⟨shape, meets, none_⟩ := firstOf_spec first
  dsimp only at same
  split at same
  · next here =>
    cases same
    subst here
    have apart : ∀ y ∈ before, y ≠ x ∧ y ≠ nul := by
      intro y inFront
      have differs := none_ y inFront
      rw [Bool.or_eq_false_iff, decide_eq_false_iff_not, decide_eq_false_iff_not] at differs
      exact differs
    exact ⟨shape, fun inFront => (apart _ inFront).1 rfl, fun inFront => (apart _ inFront).2 rfl⟩
  · cases same

theorem charAt_append {c : α} {mem : List α} {result : Option (List α × List α)}
    (found : charAt nul c mem = some result) (behind : List α) :
    charAt nul c (mem ++ behind) =
      some (result.map fun (before, after) => (before, after ++ behind)) := by
  obtain ⟨⟨front, x, back⟩, first, same⟩ := Option.map_eq_some_iff.mp found
  rw [charAt, firstOf_append first behind, ← same, Option.map_some]
  dsimp only
  split <;> rfl

theorem charAt_skip {c : α} {front : List α} (without : c ∉ front) (plain : nul ∉ front)
    (mem : List α) : charAt nul c (front ++ mem) =
      (charAt nul c mem).map (Option.map fun (before, after) => (front ++ before, after)) := by
  have none_ : ∀ y ∈ front, (decide (y = c) || decide (y = nul)) = false := by
    intro y inFront
    rw [Bool.or_eq_false_iff, decide_eq_false_iff_not, decide_eq_false_iff_not]
    exact ⟨fun same => without (same ▸ inFront), fun same => plain (same ▸ inFront)⟩
  rw [charAt, charAt, firstOf_skip none_]
  rcases firstOf (fun x => decide (x = c) || decide (x = nul)) mem with _ | ⟨before, x, after⟩
  · rfl
  · show some (if x = c then _ else _) = some (Option.map _ (if x = c then _ else _))
    split <;> rfl

/-- A search of a string that ends has a result. -/
theorem exists_charAt {mem : List α} (ends : nul ∈ mem) (c : α) :
    ∃ result, charAt nul c mem = some result := by
  have found : (firstOf (fun x => decide (x = c) || decide (x = nul)) mem).isSome :=
    firstOf_isSome.mpr ⟨nul, ends, by simp⟩
  obtain ⟨first, found⟩ := Option.isSome_iff_exists.mp found
  exact ⟨_, by rw [charAt, found]; rfl⟩

theorem charAt_none {mem : List α} (endless : nul ∉ mem) {c : α} (without : c ∉ mem) :
    charAt nul c mem = none := by
  rw [charAt, Option.map_eq_none_iff, ← Option.not_isSome_iff_eq_none, firstOf_isSome]
  rintro ⟨x, inMem, meets⟩
  rcases Bool.or_eq_true_iff.mp meets with same | same
  · exact without (of_decide_eq_true same ▸ inMem)
  · exact endless (of_decide_eq_true same ▸ inMem)

/-! ## At most so many places -/

/-- The first `c` among the next `left` places. The inner `none` is that none is there. -/
def within (c : α) : List α → Nat → Option (Option (List α × List α))
  | _, 0 => some none
  | [], _ + 1 => none
  | x :: mem, left + 1 =>
      if x = c then some (some ([], mem))
      else (within c mem left).map (Option.map fun (before, after) => (x :: before, after))

theorem within_cons {c x : α} {mem : List α} {left : Nat} :
    within c (x :: mem) (left + 1) =
      if x = c then some (some ([], mem))
      else (within c mem left).map (Option.map fun (before, after) => (x :: before, after)) :=
  rfl

theorem within_spec {c : α} {mem before after : List α} {left : Nat}
    (found : within c mem left = some (some (before, after))) :
    mem = before ++ c :: after ∧ c ∉ before ∧ before.length < left := by
  induction mem generalizing left before with
  | nil => cases left <;> cases found
  | cons x mem ih =>
    cases left with
    | zero => cases found
    | succ left =>
      rw [within_cons] at found
      split at found
      · next here =>
        cases found
        exact ⟨by rw [here, List.nil_append], List.not_mem_nil, Nat.succ_pos left⟩
      · next further =>
        obtain ⟨result, scanned, same⟩ := Option.map_eq_some_iff.mp found
        obtain ⟨⟨front, back⟩, rfl, same⟩ := Option.map_eq_some_iff.mp same
        cases same
        obtain ⟨shape, without, near⟩ := ih scanned
        refine ⟨by rw [shape, List.cons_append], ?_, Nat.succ_lt_succ near⟩
        rintro inFront
        rcases List.mem_cons.mp inFront with same | inFront
        · exact further same.symm
        · exact without inFront

theorem within_append {c : α} {mem : List α} {left : Nat} {result : Option (List α × List α)}
    (found : within c mem left = some result) (behind : List α) :
    within c (mem ++ behind) left =
      some (result.map fun (before, after) => (before, after ++ behind)) := by
  induction mem generalizing left result with
  | nil =>
    cases left with
    | zero =>
      cases found
      cases behind <;> rfl
    | succ left => cases found
  | cons x mem ih =>
    cases left with
    | zero =>
      cases found
      rfl
    | succ left =>
      rw [within_cons] at found
      rw [List.cons_append, within_cons]
      split at found
      · next here =>
        cases found
        rw [if_pos here]
        rfl
      · next further =>
        obtain ⟨inner, scanned, rfl⟩ := Option.map_eq_some_iff.mp found
        rw [if_neg further, ih scanned, Option.map_some]
        cases inner <;> rfl

theorem within_found {c : α} {s : List α} (without : c ∉ s) (after : List α) {left : Nat}
    (near : s.length < left) : within c (s ++ c :: after) left = some (some (s, after)) := by
  induction s generalizing left with
  | nil =>
    cases left with
    | zero => cases near
    | succ left => exact if_pos rfl
  | cons x s ih =>
    cases left with
    | zero => cases near
    | succ left =>
      rw [List.mem_cons, not_or] at without
      rw [List.cons_append, within_cons, if_neg fun same => without.1 same.symm,
        ih without.2 (Nat.lt_of_succ_lt_succ near)]
      rfl

theorem within_missing {c : α} {s : List α} (without : c ∉ s) (after : List α) {left : Nat}
    (near : left ≤ s.length) : within c (s ++ after) left = some none := by
  induction s generalizing left with
  | nil =>
    cases Nat.le_zero.mp near
    cases after <;> rfl
  | cons x s ih =>
    cases left with
    | zero => rfl
    | succ left =>
      rw [List.mem_cons, not_or] at without
      rw [List.cons_append, within_cons, if_neg fun same => without.1 same.symm,
        ih without.2 (Nat.le_of_succ_le_succ near)]
      rfl

end Lib
