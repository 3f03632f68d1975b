import Mathlib.Data.List.Count
import Mathlib.Data.List.Perm.Subperm

/-!
# What is wanted and what is given

Two lists of which the first says what is wanted and the second what is given. `Given` says
that each element that is wanted is given as often. `Balanced early` weakens this for
elements that are `early`: there, as many are given as are wanted, whichever they are.

* Both are kept when an element is added to both lists (`cons`) or taken from both
  (`erase`);
* `Balanced.pop` takes an early element of what is given together with an early element
  that is wanted;
* `Balanced.quiet`: when nothing early is given, `Balanced` is `Given`.
-/

namespace Lib

variable {α : Type*} [DecidableEq α]

def Given (wanted given : List α) : Prop := ∀ x ∈ wanted, given.count x = wanted.count x

structure Balanced (early : α → Bool) (wanted given : List α) : Prop where
  late : ∀ x ∈ wanted, early x = false → given.count x = wanted.count x
  due : wanted.countP early ≤ given.countP early

variable {early : α → Bool} {wanted wanted' given : List α} {x : α}

theorem Given.nil : Given [] given := nofun

theorem Given.perm (balance : Given wanted given) (same : wanted.Perm wanted') :
    Given wanted' given := by
  intro y member
  rw [balance y (same.mem_iff.mpr member), same.count_eq]

theorem Given.append (balance : Given wanted given) (more : List α)
    (fresh : ∀ y ∈ more, y ∈ given → y ∈ wanted) : Given (more ++ wanted) (more ++ given) := by
  intro y member
  rw [List.count_append, List.count_append]
  by_cases there : y ∈ wanted
  · rw [balance y there]
  · have new : y ∈ more := (List.mem_append.mp member).resolve_right there
    have absent : y ∉ given := fun member => there (fresh y new member)
    rw [List.count_eq_zero.mpr absent, List.count_eq_zero.mpr there]

theorem Given.erase (balance : Given (x :: wanted) given) : Given wanted (given.erase x) := by
  intro y member
  rw [List.count_erase, balance y (List.mem_cons_of_mem _ member), List.count_cons]
  exact Nat.add_sub_cancel _ _

theorem Given.map {β : Type*} [DecidableEq β] (balance : Given wanted given) {f : α → β}
    (injective : Function.Injective f) : Given (wanted.map f) (given.map f) := by
  intro y member
  obtain ⟨x, there, rfl⟩ := List.mem_map.mp member
  rw [List.count_map_of_injective _ f injective, List.count_map_of_injective _ f injective,
    balance x there]

theorem Given.balanced (balance : Given wanted given) : Balanced early wanted given where
  late := fun y member _ => balance y member
  due := by
    have part : wanted.Subperm given :=
      List.subperm_ext_iff.mpr fun y member => Nat.le_of_eq (balance y member).symm
    exact part.countP_le early

theorem Balanced.perm (balance : Balanced early wanted given) (same : wanted.Perm wanted') :
    Balanced early wanted' given where
  late := by
    intro y member late
    rw [balance.late y (same.mem_iff.mpr member) late, same.count_eq]
  due := by
    rw [← same.countP_eq]
    exact balance.due

theorem Balanced.cons (balance : Balanced early wanted given) (fresh : x ∈ given → x ∈ wanted) :
    Balanced early (x :: wanted) (x :: given) where
  late := by
    intro y member late
    rw [List.count_cons, List.count_cons]
    by_cases there : y ∈ wanted
    · rw [balance.late y there late]
    · obtain rfl : y = x := (List.mem_cons.mp member).resolve_right there
      rw [List.count_eq_zero.mpr there, List.count_eq_zero.mpr (mt fresh there)]
  due := by
    rw [List.countP_cons, List.countP_cons]
    exact Nat.add_le_add_right balance.due _

theorem countP_erase_of_mem (p : α → Bool) {list : List α} (member : x ∈ list) :
    list.countP p = (list.erase x).countP p + if p x = true then 1 else 0 := by
  rw [(List.perm_cons_erase member).countP_eq, List.countP_cons]

theorem Balanced.erase (balance : Balanced early (x :: wanted) given) :
    Balanced early wanted (given.erase x) where
  late := by
    intro y member late
    rw [List.count_erase, balance.late y (List.mem_cons_of_mem _ member) late, List.count_cons]
    exact Nat.add_sub_cancel _ _
  due := by
    have due := balance.due
    rw [List.countP_cons] at due
    by_cases member : x ∈ given
    · rw [countP_erase_of_mem early member] at due
      exact Nat.le_of_add_le_add_right due
    · rw [List.erase_of_not_mem member]
      exact Nat.le_trans (Nat.le_add_right _ _) due

theorem Balanced.pop (balance : Balanced early wanted given) (member : x ∈ given)
    (soon : early x = true)
    (late : ∀ y, early y = false → wanted'.count y = wanted.count y)
    (less : wanted'.countP early ≤ wanted.countP early - 1) :
    Balanced early wanted' (given.erase x) where
  late := by
    intro y there later
    have different : x ≠ y := by
      rintro rfl
      exact absurd (soon.symm.trans later) (by decide)
    have before : y ∈ wanted := by
      rw [← List.count_pos_iff, ← late y later]
      exact List.count_pos_iff.mpr there
    rw [List.count_erase_of_ne different.symm, balance.late y before later, late y later]
  due := by
    have due := balance.due
    rw [countP_erase_of_mem early member, if_pos soon] at due
    omega

theorem Balanced.quiet (balance : Balanced early wanted given)
    (quiet : ∀ y ∈ given, early y = false) :
    Given wanted given ∧ ∀ y ∈ wanted, early y = false := by
  have nothing : wanted.countP early = 0 := by
    have none_ : given.countP early = 0 :=
      List.countP_eq_zero.mpr fun y member => by rw [quiet y member]; decide
    have due := balance.due
    omega
  have late : ∀ y ∈ wanted, early y = false := fun y member =>
    Bool.not_eq_true _ ▸ List.countP_eq_zero.mp nothing y member
  exact ⟨fun y member => balance.late y member (late y member), late⟩

end Lib
