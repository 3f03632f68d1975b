import Mathlib.Data.Fintype.Order
import Mathlib.Data.Set.Finite.List
import Mathlib.Logic.Relation

/-!
# Orders of a dependency relation

`InOrder dependsOn order` says that each element of a list comes behind everything
it depends on. A relation with such a list has no cycle, and in a finite list that
is not empty a relation without a cycle has an element that depends on no other.
-/

namespace Lib

variable {α : Type*} {dependsOn : α → α → Prop}

/-- Each element comes behind everything it depends on. -/
def InOrder (dependsOn : α → α → Prop) (order : List α) : Prop :=
  ∀ front a back, order = front ++ a :: back → ∀ b, dependsOn a b → b ∈ front

/-- Nothing depends on itself, over any number of steps. -/
def Acyclic (dependsOn : α → α → Prop) : Prop :=
  ∀ a, ¬ Relation.TransGen dependsOn a a

theorem InOrder.nil : InOrder dependsOn [] := by
  intro front a back split
  cases front <;> cases split

/-- An element goes to the end when all it depends on is in the list. -/
theorem InOrder.snoc {order : List α} {a : α} (ordered : InOrder dependsOn order)
    (ready : ∀ b, dependsOn a b → b ∈ order) : InOrder dependsOn (order ++ [a]) := by
  intro front c back split b depends
  rcases List.eq_nil_or_concat back with rfl | ⟨back', last, rfl⟩
  · obtain ⟨rfl, same⟩ := List.append_inj' split rfl
    cases same
    exact ready b depends
  · have split : order ++ [a] = (front ++ c :: back') ++ [last] := by
      rw [split, List.concat_eq_append, List.append_assoc]
      rfl
    obtain ⟨same, -⟩ := List.append_inj' split rfl
    exact ordered front c back' same b depends

/-- All that an element depends on, over any number of steps, comes in front of it. -/
theorem InOrder.before {order front back : List α} {a b : α} (ordered : InOrder dependsOn order)
    (split : order = front ++ a :: back) (depends : Relation.TransGen dependsOn a b) :
    b ∈ front := by
  induction depends with
  | single step => exact ordered front a back split _ step
  | @tail c d _ step ih =>
    obtain ⟨front', back', rfl⟩ := List.append_of_mem ih
    have split' : order = front' ++ c :: (back' ++ a :: back) := by
      rw [split, List.append_assoc]
      rfl
    exact List.mem_append_left _ (ordered front' c _ split' d step)

theorem InOrder.acyclic {order : List α} (ordered : InOrder dependsOn order) (distinct : order.Nodup)
    (all : ∀ a b, dependsOn a b → a ∈ order) : Acyclic dependsOn := by
  intro a cycle
  obtain ⟨b, step⟩ : ∃ b, dependsOn a b := by
    rcases Relation.TransGen.head'_iff.mp cycle with ⟨b, step, -⟩
    exact ⟨b, step⟩
  obtain ⟨front, back, split⟩ := List.append_of_mem (all a b step)
  have again := ordered.before split cycle
  rw [split] at distinct
  exact (List.nodup_append.mp distinct).2.2 a again a List.mem_cons_self rfl

/-- What is left has an element that depends on nothing that is left. -/
theorem Acyclic.exists_ready (acyclic : Acyclic dependsOn) {rest : List α} (some : rest ≠ []) :
    ∃ a ∈ rest, ∀ b ∈ rest, ¬ dependsOn a b := by
  let later : {a // a ∈ rest} → {a // a ∈ rest} → Prop :=
    fun a b => Relation.TransGen dependsOn b.1 a.1
  have finite : Finite {a // a ∈ rest} := (List.finite_toSet rest).to_subtype
  have trans : IsTrans _ later := ⟨fun _ _ _ first second => second.trans first⟩
  have irrefl : Std.Irrefl later := ⟨fun a cycle => acyclic a.1 cycle⟩
  have founded : WellFounded later := Finite.wellFounded_of_trans_of_irrefl later
  obtain ⟨first, member⟩ := List.exists_mem_of_ne_nil rest some
  obtain ⟨a, -, minimal⟩ := founded.has_min Set.univ ⟨⟨first, member⟩, trivial⟩
  exact ⟨a.1, a.2, fun b left step => minimal ⟨b, left⟩ trivial (.single step)⟩

end Lib
