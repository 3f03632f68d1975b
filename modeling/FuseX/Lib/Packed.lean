import FuseX.Lib.Ring

/-!
# Records packed back to back

A linear memory is a function from places to bytes; `Holds memory start bytes`
says what it holds from a place on, and `overwrite` changes it. A list of
records is stored as the concatenation of their encodings.

* `Holds.append` cuts a memory into pieces, and `Holds.splice` writes one;
* `SelfDelimiting` says of an encoding that it shows where it ends, and
  `packed_front` finds the records of a front again in whatever packs to the
  same bytes.
-/

namespace Lib

variable {α β : Type*}

/-! ## Linear memory -/

/-- Two writes one after the other are one. -/
theorem overwrite_append (memory : Nat → β) (place : Nat) (front back : List β) :
    overwrite (overwrite memory place front) (place + front.length) back =
      overwrite memory place (front ++ back) := by
  funext i
  by_cases behind : place + front.length ≤ i
  · have first : front[i - place]? = none := List.getElem?_eq_none (by omega)
    rw [overwrite_from behind, overwrite_from (by omega), overwrite_from (by omega),
      List.getElem?_append_right (by omega), first, Option.getD_none, Nat.sub_add_eq]
  · rw [overwrite_before (by omega)]
    by_cases inside : place ≤ i
    · rw [overwrite_from inside, overwrite_from inside, List.getElem?_append_left (by omega)]
    · rw [overwrite_before (by omega), overwrite_before (by omega)]

/-- The memory has the bytes from the place `start` on. -/
def Holds (memory : Nat → β) (start : Nat) (bytes : List β) : Prop :=
  ∀ (i : Nat) (inside : i < bytes.length), memory (start + i) = bytes[i]

namespace Holds

variable {memory : Nat → β} {start : Nat} {bytes front back : List β}

theorem nil : Holds memory start [] := by
  intro i inside
  cases inside

theorem append : Holds memory start (front ++ back) ↔
    Holds memory start front ∧ Holds memory (start + front.length) back := by
  constructor
  · intro whole
    constructor
    · intro i inside
      rw [whole i (by rw [List.length_append]; omega), List.getElem_append_left inside]
    · intro i inside
      rw [Nat.add_assoc, whole _ (by rw [List.length_append]; omega),
        List.getElem_append_right (by omega)]
      simp only [Nat.add_sub_cancel_left]
  · rintro ⟨first, second⟩ i inside
    by_cases low : i < front.length
    · rw [first i low, List.getElem_append_left low]
    · have place := second (i - front.length) (by rw [List.length_append] at inside; omega)
      rw [List.getElem_append_right (by omega), ← place, Nat.add_assoc,
        Nat.add_sub_cancel' (by omega)]

theorem cons {head : β} : Holds memory start (head :: back) ↔
    memory start = head ∧ Holds memory (start + 1) back := by
  rw [← List.singleton_append, append]
  refine and_congr_left fun _ => ⟨fun one => one 0 (by simp), fun head i inside => ?_⟩
  obtain rfl : i = 0 := by simpa using inside
  exact head

/-- Two strings of one length at one place are the same. -/
theorem unique {bytes' : List β} (first : Holds memory start bytes)
    (second : Holds memory start bytes') (same : bytes.length = bytes'.length) : bytes = bytes' := by
  apply List.ext_getElem same
  intro i inside inside'
  rw [← first i inside, ← second i inside']

/-- What is written is there. -/
theorem overwritten : Holds (overwrite memory start bytes) start bytes := by
  intro i inside
  rw [overwrite_from (Nat.le_add_right _ _), Nat.add_sub_cancel_left,
    List.getElem?_eq_getElem inside, Option.getD_some]

/-- A write elsewhere leaves the bytes alone. -/
theorem overwrite_ne (holds : Holds memory start bytes) {place : Nat} {written : List β}
    (apart : start + bytes.length ≤ place ∨ place + written.length ≤ start) :
    Holds (overwrite memory place written) start bytes := by
  intro i inside
  rcases apart with before | behind
  · rw [overwrite_before (by omega), holds i inside]
  · rw [overwrite_from (by omega), List.getElem?_eq_none (by omega), Option.getD_none,
      holds i inside]

/-- A write into some bytes, or over their end. -/
theorem splice {place : Nat} (holds : Holds memory start (front ++ back))
    (here : start + front.length = place) (written : List β) :
    Holds (overwrite memory place written) start (front ++ (written ++ back.drop written.length)) := by
  subst here
  rw [append] at holds ⊢
  refine ⟨holds.1.overwrite_ne (.inl (Nat.le_refl _)), append.mpr ⟨overwritten, ?_⟩⟩
  by_cases short : written.length ≤ back.length
  · have behind := holds.2
    rw [← List.take_append_drop written.length back, append, List.length_take,
      Nat.min_eq_left short] at behind
    exact behind.2.overwrite_ne (.inr (Nat.le_refl _))
  · rw [List.drop_eq_nil_of_le (by omega)]
    exact nil

/-- A write of as many bytes as it replaces. -/
theorem replace {place : Nat} {old written : List β} (holds : Holds memory start (front ++ (old ++ back)))
    (here : start + front.length = place) (same : written.length = old.length) :
    Holds (overwrite memory place written) start (front ++ (written ++ back)) := by
  have spliced := holds.splice here written
  rw [List.drop_left' same.symm] at spliced
  exact spliced

end Holds

/-! ## Encodings -/

/-- Where one record ends and the next begins can be told from the bytes. -/
structure SelfDelimiting (encode : α → List β) : Prop where
  nonempty : ∀ a, encode a ≠ []
  splits : ∀ a b s t, encode a ++ s = encode b ++ t → a = b ∧ s = t

/-- What packs to the bytes of a front and something more has that front. -/
theorem packed_front {encode : α → List β} (delimits : SelfDelimiting encode) {front items : List α}
    {rest : List β} (same : items.flatMap encode = front.flatMap encode ++ rest) :
    ∃ back, items = front ++ back ∧ back.flatMap encode = rest := by
  induction front generalizing items with
  | nil => exact ⟨items, rfl, by simpa using same⟩
  | cons first front ih =>
    cases items with
    | nil =>
      have empty : encode first = [] := by
        simp only [List.flatMap_nil, List.flatMap_cons, List.append_assoc] at same
        exact (List.append_eq_nil_iff.mp same.symm).1
      exact absurd empty (delimits.nonempty first)
    | cons item items =>
      simp only [List.flatMap_cons, List.append_assoc] at same
      obtain ⟨rfl, tail⟩ := delimits.splits _ _ _ _ same
      obtain ⟨back, rfl, packed⟩ := ih tail
      exact ⟨back, rfl, packed⟩

theorem packed_inj {encode : α → List β} (delimits : SelfDelimiting encode) {items items' : List α}
    (same : items.flatMap encode = items'.flatMap encode) : items = items' := by
  have front : items.flatMap encode = items'.flatMap encode ++ [] := by
    rw [same, List.append_nil]
  obtain ⟨back, rfl, packed⟩ := packed_front delimits front
  cases back with
  | nil => rw [List.append_nil]
  | cons first back =>
    rw [List.flatMap_cons] at packed
    exact absurd (List.append_eq_nil_iff.mp packed).1 (delimits.nonempty first)

/-! ## The first of a kind -/

/-- A list splits in one way at the first element with a property. -/
theorem first_unique {p : α → Prop} {front front' back back' : List α} {a a' : α}
    (same : front ++ a :: back = front' ++ a' :: back') (here : p a) (here' : p a')
    (others : ∀ b ∈ front, ¬ p b) (others' : ∀ b ∈ front', ¬ p b) :
    front = front' ∧ a = a' ∧ back = back' := by
  induction front generalizing front' with
  | nil =>
    cases front' with
    | nil =>
      obtain ⟨rfl, rfl⟩ := List.cons.inj same
      exact ⟨rfl, rfl, rfl⟩
    | cons b front' =>
      obtain ⟨rfl, -⟩ := List.cons.inj same
      exact absurd here (others' a List.mem_cons_self)
  | cons b front ih =>
    cases front' with
    | nil =>
      obtain ⟨rfl, -⟩ := List.cons.inj same
      exact absurd here' (others b List.mem_cons_self)
    | cons b' front' =>
      obtain ⟨rfl, rest⟩ := List.cons.inj same
      obtain ⟨rfl, rfl, rfl⟩ := ih rest (fun c member => others c (List.mem_cons_of_mem _ member))
        fun c member => others' c (List.mem_cons_of_mem _ member)
      exact ⟨rfl, rfl, rfl⟩

end Lib
