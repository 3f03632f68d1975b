import Mathlib

/-!
# Lists of areas

Areas that lie side by side, each a set of places. `Lays apart areas places` says that some areas lie on
just those places, and, if it matters (`apart`), that no two overlap. An area may be added, may grow, and
two may be merged into one; the order does not count.
-/

namespace Lib

variable {α β : Type*} {places : α → Set β} {apart : Prop} {areas areas' : List α} {a b merged : α} {on new : Set β}

/-- The areas lie on the places, and do not overlap if they are to be `apart`. -/
structure Lays (places : α → Set β) (apart : Prop) (areas : List α) (on : Set β) : Prop where
  covers : ∀ place, place ∈ on ↔ ∃ a ∈ areas, place ∈ places a
  disjoint : apart → areas.Pairwise fun a b => Disjoint (places a) (places b)

namespace Lays

theorem nil : Lays places apart [] ∅ :=
  ⟨fun _ => ⟨nofun, fun ⟨_, member, _⟩ => nomatch member⟩, fun _ => .nil⟩

theorem subset (lays : Lays places apart areas on) (member : a ∈ areas) : places a ⊆ on :=
  fun place found => (lays.covers place).mpr ⟨a, member, found⟩

theorem perm (lays : Lays places apart areas on) (same : areas.Perm areas') : Lays places apart areas' on where
  covers place := by simp only [lays.covers, same.mem_iff]
  disjoint wanted := (same.pairwise_iff fun apart => apart.symm).mp (lays.disjoint wanted)

/-- Another area, on other places. -/
theorem add (lays : Lays places apart areas on) (other : apart → Disjoint (places a) on) :
    Lays places apart (a :: areas) (on ∪ places a) where
  covers place := by
    rw [Set.mem_union, lays.covers]
    constructor
    · rintro (⟨b, member, found⟩ | found)
      · exact ⟨b, List.mem_cons_of_mem _ member, found⟩
      · exact ⟨a, List.mem_cons_self, found⟩
    · rintro ⟨b, member, found⟩
      rcases List.mem_cons.mp member with rfl | member
      · exact .inr found
      · exact .inl ⟨b, member, found⟩
  disjoint wanted :=
    .cons (fun b member => (other wanted).mono_right (lays.subset member)) (lays.disjoint wanted)

/-- An area grows onto other places. -/
theorem grow (lays : Lays places apart (a :: areas) on) (grown : places b = places a ∪ new)
    (other : apart → Disjoint new on) : Lays places apart (b :: areas) (on ∪ new) where
  covers place := by
    simp only [Set.mem_union, lays.covers, List.mem_cons, exists_eq_or_imp, grown]
    exact or_right_comm
  disjoint wanted := by
    obtain ⟨first, rest⟩ := List.pairwise_cons.mp (lays.disjoint wanted)
    refine .cons (fun c member => ?_) rest
    rw [grown]
    exact (first c member).union_left ((other wanted).mono_right (lays.subset (List.mem_cons_of_mem _ member)))

/-- Two areas become one. -/
theorem merge (lays : Lays places apart (a :: b :: areas) on) (whole : places merged = places a ∪ places b) :
    Lays places apart (merged :: areas) on where
  covers place := by
    simp only [lays.covers, List.mem_cons, exists_eq_or_imp, whole, Set.mem_union, or_assoc]
  disjoint wanted := by
    obtain ⟨first, rest⟩ := List.pairwise_cons.mp (lays.disjoint wanted)
    obtain ⟨second, rest⟩ := List.pairwise_cons.mp rest
    refine .cons (fun c member => ?_) rest
    rw [whole]
    exact (first c (List.mem_cons_of_mem _ member)).union_left (second c member)

/-- The areas on another scale. -/
theorem map {α' β' : Type*} {places' : α' → Set β'} {f : α → α'} {g : β' → β} (lays : Lays places apart areas on)
    (scaled : ∀ a, places' (f a) = Set.preimage g (places a)) :
    Lays places' apart (areas.map f) (Set.preimage g on) where
  covers place := by
    simp only [Set.mem_preimage, lays.covers, List.mem_map, exists_exists_and_eq_and, scaled]
  disjoint wanted := by
    rw [List.pairwise_map]
    apply (lays.disjoint wanted).imp
    intro a b separate
    rw [scaled, scaled]
    exact separate.preimage g

end Lays

end Lib
