import FuseX.Debugger.Printed

/-!
# Chains grouped to the left

The printer leaves brackets out between associative operations, and the grammar groups those
to the left. So what is read back is the expression with its chains grouped to the left
(`Expression.regrouped`): it is printed alike, and it has the same value.
-/

namespace FuseX.Debugger

open Lib

variable {n : Nat}

/-! ## Chains grouped to the left -/

/-- `operand1 op operand2` with the chain of `op` in `operand2` grouped to the left. -/
def chained (op : BinaryOp) (operand1 : Expression n) : Expression n → Expression n
  | .binary op' left right =>
      if op' = op ∧ op.isNonAssociative = false then .binary op (chained op operand1 left) right
      else .binary op operand1 (.binary op' left right)
  | operand2 => .binary op operand1 operand2

/-- The expression that has the printed form of this one when it is read from the left. -/
def Expression.regrouped : Expression n → Expression n
  | .unary op operand => .unary op operand.regrouped
  | .binary op operand1 operand2 => chained op operand1.regrouped operand2.regrouped
  | exp => exp

/-- No operation has a right operand of its own precedence without brackets. -/
def LeftGrouped : Expression n → Prop
  | .unary _ operand => LeftGrouped operand
  | .binary op operand1 operand2 => LeftGrouped operand1 ∧ LeftGrouped operand2 ∧
      (bracketsNecessary op operand2 = false → op.precedence < operand2.precedence)
  | _ => True

theorem truth_and_assoc (a b c : Bool) :
    truth (truth (a && b) ≠ 0 && c) = truth (a && truth (b && c) ≠ 0) := by
  cases a <;> cases b <;> cases c <;> rfl

theorem truth_or_assoc (a b c : Bool) :
    truth (truth (a || b) ≠ 0 || c) = truth (a || truth (b || c) ≠ 0) := by
  cases a <;> cases b <;> cases c <;> rfl

/-- What `is_non_associative` calls associative is. -/
theorem evaluate_assoc {op : BinaryOp} (assoc : op.isNonAssociative = false)
    (value1 value2 value3 : UInt32) :
    op.evaluate (op.evaluate value1 value2) value3 =
      op.evaluate value1 (op.evaluate value2 value3) := by
  cases op with
  | add => exact UInt32.add_assoc _ _ _
  | mul => exact UInt32.mul_assoc _ _ _
  | bitwiseAnd => exact UInt32.and_assoc _ _ _
  | bitwiseXor => exact UInt32.xor_assoc _ _ _
  | bitwiseOr => exact UInt32.or_assoc _ _ _
  | logicalAnd => exact truth_and_assoc _ _ _
  | logicalOr => exact truth_or_assoc _ _ _
  | _ => cases assoc

theorem chained_evaluate (env : Environment n) (op : BinaryOp) (operand1 operand2 : Expression n) :
    (chained op operand1 operand2).evaluate env =
      op.evaluate (operand1.evaluate env) (operand2.evaluate env) := by
  induction operand2 with
  | binary op' left right ih _ =>
    rw [chained]
    split
    · next chain =>
      obtain ⟨rfl, assoc⟩ := chain
      show op'.evaluate ((chained op' operand1 left).evaluate env) (right.evaluate env) = _
      rw [ih, evaluate_assoc assoc]
      rfl
    · rfl
  | _ => rfl

theorem regrouped_evaluate (env : Environment n) (exp : Expression n) :
    exp.regrouped.evaluate env = exp.evaluate env := by
  induction exp with
  | unary op operand ih =>
    show op.evaluate env.readbyte (operand.regrouped.evaluate env) = _
    rw [ih]
    rfl
  | binary op operand1 operand2 ih1 ih2 =>
    rw [Expression.regrouped, chained_evaluate, ih1, ih2]
    rfl
  | _ => rfl

/-! ## Printed alike -/

/-- The operation at the root, if it is one of two operands. -/
def Expression.root : Expression n → Option BinaryOp
  | .binary op _ _ => some op
  | _ => none

theorem chained_root (op : BinaryOp) (operand1 operand2 : Expression n) :
    (chained op operand1 operand2).root = some op := by
  cases operand2 with
  | binary op' left right =>
    rw [chained]
    split <;> rfl
  | _ => rfl

theorem precedence_of_root {exp : Expression n} {op : BinaryOp} (root : exp.root = some op) :
    exp.precedence = op.precedence := by
  cases exp with
  | binary op' left right =>
    cases root
    rfl
  | _ => cases root

/-- Brackets depend on the precedence of the operand and on the operation at its root. -/
theorem bracketsNecessary_congr {top : BinaryOp} {operand operand' : Expression n}
    (precedence : operand.precedence = operand'.precedence) (root : operand.root = operand'.root) :
    bracketsNecessary top operand = bracketsNecessary top operand' := by
  have same : ∀ exp : Expression n, bracketsNecessary top exp =
      if exp.precedence < top.precedence then true
      else if top.precedence = exp.precedence then
        top.isNonAssociative || (exp.root.map BinaryOp.isNonAssociative).getD false
      else false := by
    intro exp
    cases exp <;> rfl
  rw [same, same, precedence, root]

theorem regrouped_root (exp : Expression n) :
    exp.regrouped.root = exp.root ∧ exp.regrouped.precedence = exp.precedence := by
  cases exp with
  | binary op operand1 operand2 =>
    have root := chained_root op operand1.regrouped operand2.regrouped
    exact ⟨root, precedence_of_root root⟩
  | _ => exact ⟨rfl, rfl⟩

theorem unbracketed_chain {op : BinaryOp} (assoc : op.isNonAssociative = false)
    {exp : Expression n} (root : exp.root = some op) : bracketsNecessary op exp = false := by
  cases exp with
  | binary op' left right =>
    cases root
    rw [bracketsNecessary]
    show (if op.precedence < op.precedence then true else if op.precedence = op.precedence then
      op.isNonAssociative || op.isNonAssociative else false) = false
    rw [if_neg (Nat.lt_irrefl _), if_pos rfl, assoc]
    rfl
  | _ => cases root

theorem chained_tokens (names : Fin n → List Char × List Char) (op : BinaryOp)
    (operand1 operand2 : Expression n) :
    (chained op operand1 operand2).tokens names =
      (Expression.binary op operand1 operand2).tokens names := by
  induction operand2 with
  | binary op' left right ih _ =>
    rw [chained]
    split
    · next chain =>
      obtain ⟨rfl, assoc⟩ := chain
      have inner := unbracketed_chain assoc (chained_root op' operand1 left)
      have inner' : bracketsNecessary op' (.binary op' left right) = false :=
        unbracketed_chain assoc rfl
      rw [Expression.tokens, Expression.tokens, inner, inner', ih]
      simp [Expression.tokens, bracketedTokens]
    · rfl
  | _ => rfl

theorem regrouped_tokens (names : Fin n → List Char × List Char) (exp : Expression n) :
    exp.regrouped.tokens names = exp.tokens names := by
  induction exp with
  | unary op operand ih =>
    have same : op.brackets operand.regrouped = op.brackets operand := by
      rw [UnaryOp.brackets, UnaryOp.brackets, (regrouped_root operand).2]
    rw [Expression.regrouped, Expression.tokens, Expression.tokens, ih, same]
  | binary op operand1 operand2 ih1 ih2 =>
    obtain ⟨root1, precedence1⟩ := regrouped_root operand1
    obtain ⟨root2, precedence2⟩ := regrouped_root operand2
    rw [Expression.regrouped, chained_tokens, Expression.tokens, Expression.tokens, ih1, ih2,
      bracketsNecessary_congr precedence1 root1, bracketsNecessary_congr precedence2 root2]
  | _ => rfl

/-! ## Grouped to the left -/

/-- Operations of one precedence that go without brackets are the same. -/
theorem eq_of_precedence {op op' : BinaryOp} (assoc : op.isNonAssociative = false)
    (assoc' : op'.isNonAssociative = false) (same : op.precedence = op'.precedence) :
    op = op' := by
  cases op <;> first | exact absurd assoc (by decide) | skip
  all_goals
    cases op' <;> first | rfl | exact absurd assoc' (by decide) | exact absurd same (by decide)

theorem binary_precedence_le (op : BinaryOp) : op.precedence ≤ 9 := by
  cases op <;> decide

theorem unary_precedence_le (op : UnaryOp) : 10 ≤ op.precedence := by
  cases op <;> decide

/-- An operand without brackets binds tighter, or goes on with the same operation. -/
theorem unbracketed_cases {op : BinaryOp} {operand : Expression n}
    (unbracketed : bracketsNecessary op operand = false) :
    op.precedence < operand.precedence ∨ (op.isNonAssociative = false ∧ operand.root = some op) := by
  have bound := binary_precedence_le op
  cases operand with
  | binary op' left right =>
    rw [bracketsNecessary] at unbracketed
    split at unbracketed
    · cases unbracketed
    · next above =>
      split at unbracketed
      · next same =>
        rw [Bool.or_eq_false_iff] at unbracketed
        obtain ⟨assoc, assoc'⟩ := unbracketed
        exact .inr ⟨assoc, congrArg some (eq_of_precedence assoc assoc' same).symm⟩
      · next other => exact .inl (Nat.lt_of_le_of_ne (Nat.not_lt.mp above) other)
  | unary op' operand =>
    have tight : 10 ≤ (Expression.unary op' operand).precedence := unary_precedence_le op'
    exact .inl (by omega)
  | _ => exact .inl (Nat.lt_of_le_of_lt bound (by decide : 9 < 12))

theorem unbracketed_le {op : BinaryOp} {operand : Expression n}
    (unbracketed : bracketsNecessary op operand = false) : op.precedence ≤ operand.precedence := by
  rcases unbracketed_cases unbracketed with tighter | ⟨-, root⟩
  · exact Nat.le_of_lt tighter
  · exact Nat.le_of_eq (precedence_of_root root).symm

theorem chained_leftGrouped {op : BinaryOp} {operand1 operand2 : Expression n}
    (left : LeftGrouped operand1) (right : LeftGrouped operand2) :
    LeftGrouped (chained op operand1 operand2) := by
  induction operand2 with
  | binary op' operand21 operand22 ih _ =>
    rw [chained]
    split
    · next chain =>
      obtain ⟨rfl, -⟩ := chain
      exact ⟨ih right.1, right.2⟩
    · next notChain =>
      refine ⟨left, right, fun unbracketed => ?_⟩
      rcases unbracketed_cases unbracketed with tighter | ⟨assoc, root⟩
      · exact tighter
      · exact absurd ⟨Option.some.inj root, assoc⟩ notChain
  | _ =>
    refine ⟨left, right, fun unbracketed => ?_⟩
    rcases unbracketed_cases unbracketed with tighter | ⟨-, root⟩
    · exact tighter
    · cases root

theorem regrouped_leftGrouped (exp : Expression n) : LeftGrouped exp.regrouped := by
  induction exp with
  | unary op operand ih => exact ih
  | binary op operand1 operand2 ih1 ih2 => exact chained_leftGrouped ih1 ih2
  | _ => trivial

end FuseX.Debugger
