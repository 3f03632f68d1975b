import Mathlib.Data.List.Basic

/-!
# Scanners made of rules

A rule takes a word from the front of its input; no word at all is length zero. The longest
word counts, and among rules with words of one length the first. The word becomes a token, or
is skipped.

`scanAll_word` is the step of a scan: when no rule is led on by what lies behind a word, what
the word is taken for on its own is the next token.
-/

namespace Lib

variable {α β : Type}

structure ScanRule (α β : Type) where
  word : List α → Nat
  token : List α → Option β

/-- The length of the longest word and what it becomes. -/
def longest : List (ScanRule α β) → List α → Nat × Option β
  | [], _ => (0, none)
  | rule :: rules, input =>
      if (longest rules input).1 ≤ rule.word input then
        (rule.word input, rule.token (input.take (rule.word input)))
      else longest rules input

/-- The tokens of the input. Nothing is read behind a place where no rule has a word. -/
def scan (rules : List (ScanRule α β)) : Nat → List α → List β
  | 0, _ => []
  | _ + 1, [] => []
  | fuel + 1, x :: input =>
      match longest rules (x :: input) with
      | (0, _) => []
      | (n + 1, none) => scan rules fuel (input.drop n)
      | (n + 1, some token) => token :: scan rules fuel (input.drop n)

def scanAll (rules : List (ScanRule α β)) (input : List α) : List β :=
  scan rules input.length input

theorem scan_fuel {rules : List (ScanRule α β)} {fuel : Nat} {input : List α}
    (enough : input.length ≤ fuel) : scan rules fuel input = scanAll rules input := by
  suffices same : ∀ fuel fuel' (input : List α), input.length ≤ fuel → input.length ≤ fuel' →
      scan rules fuel input = scan rules fuel' input from
    same fuel input.length input enough (Nat.le_refl _)
  intro fuel
  induction fuel with
  | zero =>
    intro fuel' input short _
    obtain rfl := List.eq_nil_of_length_eq_zero (Nat.le_zero.mp short)
    cases fuel' <;> rfl
  | succ fuel ih =>
    intro fuel' input short short'
    cases input with
    | nil => cases fuel' <;> rfl
    | cons x input =>
      cases fuel' with
      | zero => cases short'
      | succ fuel' =>
        have rest : ∀ n, scan rules fuel (input.drop n) = scan rules fuel' (input.drop n) := by
          intro n
          rw [List.length_cons] at short short'
          exact ih _ _ (by rw [List.length_drop]; omega) (by rw [List.length_drop]; omega)
        rw [scan, scan]
        rcases longest rules (x :: input) with ⟨_ | n, _ | token⟩
        · rfl
        · rfl
        · exact rest n
        · exact congrArg (token :: ·) (rest n)

/-- A word at the front, with what it becomes: no token or one. -/
theorem scanAll_word {rules : List (ScanRule α β)} {word rest : List α} {token : Option β}
    (nonempty : word ≠ []) (first : longest rules (word ++ rest) = (word.length, token)) :
    scanAll rules (word ++ rest) = token.toList ++ scanAll rules rest := by
  cases word with
  | nil => exact absurd rfl nonempty
  | cons x word =>
    rw [scanAll, List.cons_append, List.length_cons, scan]
    rw [List.cons_append] at first
    rw [first]
    have behind : scan rules (word ++ rest).length ((word ++ rest).drop word.length) =
        scanAll rules rest := by
      rw [List.drop_left]
      exact scan_fuel (by rw [List.length_append]; omega)
    cases token with
    | none => exact behind
    | some token => exact congrArg (token :: ·) behind

/-! ## The longest word -/

/-- What lies behind a word leads no rule on. -/
def Settled (rules : List (ScanRule α β)) (word rest : List α) : Prop :=
  ∀ rule ∈ rules, rule.word (word ++ rest) = rule.word word ∧ rule.word word ≤ word.length

theorem longest_settled {rules : List (ScanRule α β)} {word rest : List α}
    (settled : Settled rules word rest) :
    longest rules (word ++ rest) = longest rules word := by
  induction rules with
  | nil => rfl
  | cons rule rules ih =>
    obtain ⟨same, bound⟩ := settled rule List.mem_cons_self
    rw [longest, longest, ih fun rule' inRules => settled rule' (List.mem_cons_of_mem _ inRules),
      same, List.take_append_of_le_length bound]

/-- Rules without a word in front of the others are passed over. -/
theorem longest_skip {front rules : List (ScanRule α β)} {input : List α} {n : Nat}
    {token : Option β} (none_ : ∀ rule ∈ front, rule.word input = 0)
    (first : longest rules input = (n + 1, token)) :
    longest (front ++ rules) input = (n + 1, token) := by
  induction front with
  | nil => exact first
  | cons rule front ih =>
    have skipped := ih fun rule' inFront => none_ rule' (List.mem_cons_of_mem _ inFront)
    rw [List.cons_append, longest, skipped, none_ rule List.mem_cons_self]
    exact if_neg (Nat.not_succ_le_zero n)

/-- A rule at least as long as all behind it. -/
theorem longest_here {rule : ScanRule α β} {rules : List (ScanRule α β)} {input : List α}
    (shorter : ∀ rule' ∈ rules, rule'.word input ≤ rule.word input) :
    longest (rule :: rules) input = (rule.word input, rule.token (input.take (rule.word input))) := by
  rw [longest]
  refine if_pos ?_
  induction rules with
  | nil => exact Nat.zero_le _
  | cons rule' rules ih =>
    rw [longest]
    split
    · exact shorter rule' List.mem_cons_self
    · exact ih fun rule'' inRules => shorter rule'' (List.mem_cons_of_mem _ inRules)

/-- A rule behind others without a word, and at least as long as those behind it. -/
theorem longest_at (front : List (ScanRule α β)) {back : List (ScanRule α β)}
    {rule : ScanRule α β} {input : List α} (none_ : ∀ rule' ∈ front, rule'.word input = 0) (some_ : rule.word input ≠ 0)
    (shorter : ∀ rule' ∈ back, rule'.word input ≤ rule.word input) :
    longest (front ++ rule :: back) input =
      (rule.word input, rule.token (input.take (rule.word input))) := by
  have here := longest_here shorter
  obtain ⟨n, length⟩ := Nat.exists_eq_succ_of_ne_zero some_
  rw [length] at here ⊢
  exact longest_skip none_ here

/-- A rule behind others that have shorter words, and at least as long as those behind it. -/
theorem longest_over (front : List (ScanRule α β)) {back : List (ScanRule α β)}
    {rule : ScanRule α β} {input : List α}
    (less : ∀ rule' ∈ front, rule'.word input < rule.word input)
    (shorter : ∀ rule' ∈ back, rule'.word input ≤ rule.word input) :
    longest (front ++ rule :: back) input =
      (rule.word input, rule.token (input.take (rule.word input))) := by
  induction front with
  | nil => exact longest_here shorter
  | cons rule' front ih =>
    have rest := ih fun rule'' inFront => less rule'' (List.mem_cons_of_mem _ inFront)
    have first := less rule' List.mem_cons_self
    rw [List.cons_append, longest, rest, if_neg (Nat.not_le.mpr first)]

/-! ## Literals -/

/-- `lit` is in front of the input, up to `fold`. -/
def literalAt [DecidableEq α] (fold : α → α) : List α → List α → Bool
  | [], _ => true
  | _ :: _, [] => false
  | c :: lit, x :: input => fold x = c && literalAt fold lit input

/-- The rule for a literal. -/
def literal [DecidableEq α] (fold : α → α) (lit : List α) (token : β) : ScanRule α β where
  word input := if literalAt fold lit input then lit.length else 0
  token _ := some token

section Literals

variable [DecidableEq α] {fold : α → α}

theorem literalAt_length {lit input : List α} (here : literalAt fold lit input = true) :
    lit.length ≤ input.length := by
  induction lit generalizing input with
  | nil => exact Nat.zero_le _
  | cons c lit ih =>
    cases input with
    | nil => cases here
    | cons x input =>
      rw [literalAt, Bool.and_eq_true] at here
      exact Nat.succ_le_succ (ih here.2)

/-- A literal that is all of the input is the input. -/
theorem literalAt_whole {lit input : List α} (here : literalAt fold lit input = true)
    (length : lit.length = input.length) : input.map fold = lit := by
  induction lit generalizing input with
  | nil => rw [List.length_eq_zero_iff.mp length.symm, List.map_nil]
  | cons c lit ih =>
    cases input with
    | nil => cases here
    | cons x input =>
      rw [literalAt, Bool.and_eq_true, decide_eq_true_iff] at here
      rw [List.map_cons, here.1, ih here.2 (Nat.succ.inj length)]

/-- A literal that is not the input is shorter, where it is in front of it. -/
theorem literal_shorter {lit input : List α} {token : β} (other : input.map fold ≠ lit)
    (nonempty : input ≠ []) : (literal fold lit token).word input < input.length := by
  rw [literal]
  dsimp only
  split
  · next here =>
    have le := literalAt_length here
    have differs : lit.length ≠ input.length := fun length => other (literalAt_whole here length)
    omega
  · exact List.length_pos_iff.mpr nonempty

/-- A literal that does not go on with what lies behind the word. -/
theorem literalAt_append {lit word rest : List α}
    (stops : ∀ h ∈ rest.head?, fold h ∉ lit) :
    literalAt fold lit (word ++ rest) = literalAt fold lit word := by
  induction lit generalizing word with
  | nil => rfl
  | cons c lit ih =>
    cases word with
    | nil =>
      cases rest with
      | nil => rfl
      | cons h rest =>
        have other : fold h ≠ c := fun same => stops h rfl (same ▸ List.mem_cons_self)
        show (decide (fold h = c) && _) = false
        rw [decide_eq_false other]
        rfl
    | cons x word =>
      rw [List.cons_append, literalAt, literalAt,
        ih fun h inRest inLit => stops h inRest (List.mem_cons_of_mem _ inLit)]

/-- A literal rule is settled at a word that does not start like it, or behind which it does
not go on. -/
theorem literal_settled {lit : List α} {token : β} {x : α} {word rest : List α}
    (settles : lit.head? ≠ some (fold x) ∨ ∀ h ∈ rest.head?, fold h ∉ lit.tail) :
    (literal fold lit token).word (x :: word ++ rest) =
        (literal fold lit token).word (x :: word) ∧
      (literal fold lit token).word (x :: word) ≤ (x :: word).length := by
  constructor
  · have same : literalAt fold lit (x :: word ++ rest) = literalAt fold lit (x :: word) := by
      cases lit with
      | nil => rfl
      | cons c lit =>
        rw [List.cons_append, literalAt, literalAt]
        rcases settles with other | stops
        · have differs : fold x ≠ c := fun same => other (same ▸ rfl)
          rw [decide_eq_false differs, Bool.false_and, Bool.false_and]
        · have stops' : ∀ h ∈ rest.head?, fold h ∉ lit := stops
          rw [literalAt_append stops']
    unfold literal
    dsimp only
    rw [same]
  · unfold literal
    dsimp only
    split
    · next here => exact literalAt_length here
    · exact Nat.zero_le _

/-- A literal that starts otherwise has no word. -/
theorem literal_word {lit : List α} {token : β} {x : α} {input : List α}
    (other : lit.head? ≠ some (fold x)) (nonempty : lit ≠ []) :
    (literal fold lit token).word (x :: input) = 0 := by
  cases lit with
  | nil => exact absurd rfl nonempty
  | cons c lit =>
    have differs : fold x ≠ c := fun same => other (same ▸ rfl)
    unfold literal
    dsimp only
    rw [literalAt, decide_eq_false differs]
    rfl

end Literals

/-! ## Runs -/

/-- How far a class of characters goes. -/
def runLength (p : α → Bool) : List α → Nat
  | [] => 0
  | x :: input => if p x then runLength p input + 1 else 0

theorem runLength_le {p : α → Bool} (input : List α) : runLength p input ≤ input.length := by
  induction input with
  | nil => exact Nat.le_refl 0
  | cons x input ih =>
    rw [runLength]
    split
    · exact Nat.succ_le_succ ih
    · exact Nat.zero_le _

theorem runLength_append {p : α → Bool} {word rest : List α}
    (stops : ∀ h ∈ rest.head?, p h = false) :
    runLength p (word ++ rest) = runLength p word := by
  induction word with
  | nil =>
    cases rest with
    | nil => rfl
    | cons h rest =>
      show (if p h = true then _ else 0) = 0
      rw [stops h rfl]
      rfl
  | cons x word ih => rw [List.cons_append, runLength, runLength, ih]

theorem runLength_all {p : α → Bool} {word : List α} (all : ∀ x ∈ word, p x = true) :
    runLength p word = word.length := by
  induction word with
  | nil => rfl
  | cons x word ih =>
    rw [runLength, if_pos (all x List.mem_cons_self),
      ih fun y inWord => all y (List.mem_cons_of_mem x inWord), List.length_cons]

end Lib
