import Mathlib.Data.List.Basic
import Mathlib.Data.Nat.ModEq
import Mathlib.Tactic.Ring

/-!
# Ring buffers addressed by wrapping counters

A ring of `size` places is read and written from a place on, wrapping at its
end; counters of a wider word number the items of a stream, and an item's place
is its number modulo `size`.

* `ringRead_add` splits a read, `ringRead_congr` frames it;
* `ringWrite` is the write in one or two chunks, and `ringRead_ringWrite` says
  that what is written behind the filled part is appended to it;
* the last section is the arithmetic of 16-bit counters.
-/

namespace Lib

variable {α β : Type*} {size : Nat} {ring ring' : Nat → α}

/-! ## Reading -/

/-- The `count` items from the place `start` on. -/
def ringRead (size : Nat) (ring : Nat → α) (start count : Nat) : List α :=
  (List.range count).map fun i => ring ((start + i) % size)

@[simp] theorem length_ringRead (start count : Nat) :
    (ringRead size ring start count).length = count := by
  simp [ringRead]

@[simp] theorem ringRead_zero (start : Nat) : ringRead size ring start 0 = [] := rfl

theorem getElem?_ringRead {start count i : Nat} (inside : i < count) :
    (ringRead size ring start count)[i]? = some (ring ((start + i) % size)) := by
  simp [ringRead, inside]

theorem map_ringRead (f : α → β) (start count : Nat) :
    (ringRead size ring start count).map f = ringRead size (fun place => f (ring place)) start count := by
  simp [ringRead]

theorem ringRead_add (start first rest : Nat) :
    ringRead size ring start (first + rest) =
      ringRead size ring start first ++ ringRead size ring (start + first) rest := by
  unfold ringRead
  rw [List.range_add, List.map_append, List.map_map]
  simp only [Function.comp_def, Nat.add_assoc]

/-- Only the place of the start matters. -/
theorem ringRead_start {start start' : Nat} (same : start % size = start' % size) (count : Nat) :
    ringRead size ring start count = ringRead size ring start' count := by
  unfold ringRead
  apply List.map_congr_left
  intro i _
  rw [Nat.add_mod, same, ← Nat.add_mod]

theorem ringRead_congr {start count : Nat}
    (same : ∀ i < count, ring ((start + i) % size) = ring' ((start + i) % size)) :
    ringRead size ring start count = ringRead size ring' start count := by
  unfold ringRead
  apply List.map_congr_left
  intro i member
  exact same i (List.mem_range.mp member)

/-- A read that does not reach the end of the ring is a read of consecutive places. -/
theorem ringRead_contiguous {start count : Nat} (inside : start + count ≤ size) :
    ringRead size ring start count = (List.range count).map fun i => ring (start + i) := by
  unfold ringRead
  apply List.map_congr_left
  intro i member
  have inRange := List.mem_range.mp member
  rw [Nat.mod_eq_of_lt (by omega)]

/-- A read that wraps is made of two reads of consecutive places. -/
theorem ringRead_wrapped {start count : Nat} (low : start ≤ size) (wraps : size < start + count)
    (fits : count ≤ size) :
    ringRead size ring start count =
      ((List.range (size - start)).map fun i => ring (start + i)) ++
        (List.range (count - (size - start))).map fun i => ring i := by
  have split : count = (size - start) + (count - (size - start)) := by omega
  have second : ringRead size ring (start + (size - start)) (count - (size - start)) =
      ringRead size ring 0 (count - (size - start)) := by
    apply ringRead_start
    rw [Nat.add_sub_cancel' low]
    simp
  rw [split, ringRead_add, second, ringRead_contiguous (by omega), ringRead_contiguous (by omega)]
  simp

/-! ## Writing -/

/-- The items are stored at consecutive places. -/
def overwrite (ring : Nat → α) (offset : Nat) (items : List α) : Nat → α :=
  fun place => if offset ≤ place then (items[place - offset]?).getD (ring place) else ring place

/-- The items are stored from the place `start` on, in two chunks where they pass
the end of the ring. -/
def ringWrite (size : Nat) (ring : Nat → α) (start : Nat) (items : List α) : Nat → α :=
  if start + items.length ≤ size then overwrite ring start items
  else overwrite (overwrite ring start (items.take (size - start))) 0 (items.drop (size - start))

theorem overwrite_from {offset place : Nat} {items : List α} (low : offset ≤ place) :
    overwrite ring offset items place = (items[place - offset]?).getD (ring place) :=
  if_pos low

theorem overwrite_before {offset place : Nat} {items : List α} (high : place < offset) :
    overwrite ring offset items place = ring place :=
  if_neg (Nat.not_le.mpr high)

theorem overwrite_elsewhere {offset place : Nat} {items : List α}
    (outside : ¬ (offset ≤ place ∧ place < offset + items.length)) :
    overwrite ring offset items place = ring place := by
  by_cases low : offset ≤ place
  · rw [overwrite_from low, List.getElem?_eq_none (by omega), Option.getD_none]
  · exact overwrite_before (Nat.not_le.mp low)

theorem overwrite_nil (offset : Nat) : overwrite ring offset [] = ring := by
  funext place
  exact overwrite_elsewhere fun inside => Nat.not_lt.mpr inside.1 inside.2

/-- The place `k` after the start holds item `k`, or what it held before. -/
theorem ringWrite_at {start k : Nat} {items : List α} (low : start < size)
    (fits : items.length ≤ size) (inside : k < size) :
    ringWrite size ring start items ((start + k) % size) =
      (items[k]?).getD (ring ((start + k) % size)) := by
  have place : (start + k) % size = if start + k < size then start + k else start + k - size := by
    split
    · exact Nat.mod_eq_of_lt ‹_›
    · rw [Nat.mod_eq_sub_mod (by omega), Nat.mod_eq_of_lt (by omega)]
  rw [place]
  unfold ringWrite
  split <;> split
  · rw [overwrite_from (by omega), Nat.add_sub_cancel_left]
  · rw [overwrite_before (by omega), List.getElem?_eq_none (by omega), Option.getD_none]
  · -- the second chunk ends before the start
    have beyond : (items.drop (size - start))[start + k - 0]? = none :=
      List.getElem?_eq_none (by simp only [List.length_drop]; omega)
    rw [overwrite_from (Nat.zero_le _), beyond, Option.getD_none, overwrite_from (by omega),
      Nat.add_sub_cancel_left, List.getElem?_take_of_lt (by omega)]
  · have second : size - start + (start + k - size - 0) = k := by omega
    rw [overwrite_from (Nat.zero_le _), List.getElem?_drop, second, overwrite_before (by omega)]

/-- What is written behind the filled part of a ring leaves that part alone. -/
theorem ringWrite_filled {start filled i : Nat} {items : List α} (positive : 0 < size)
    (fits : filled + items.length ≤ size) (inside : i < filled) :
    ringWrite size ring ((start + filled) % size) items ((start + i) % size) =
      ring ((start + i) % size) := by
  have low : (start + filled) % size < size := Nat.mod_lt _ positive
  -- the filled part is the end of the turn that starts behind it
  have turn : (start + i) % size = ((start + filled) % size + (size - filled + i)) % size := by
    rw [Nat.mod_add_mod, Nat.add_assoc, show filled + (size - filled + i) = i + size by omega,
      ← Nat.add_assoc, Nat.add_mod_right]
  rw [turn, ringWrite_at low (by omega) (by omega), List.getElem?_eq_none (by omega),
    Option.getD_none]

/-- What is written behind the filled part of a ring is appended to it. -/
theorem ringRead_ringWrite {start filled : Nat} {items : List α} (positive : 0 < size)
    (fits : filled + items.length ≤ size) :
    ringRead size (ringWrite size ring ((start + filled) % size) items) start
        (filled + items.length) =
      ringRead size ring start filled ++ items := by
  have low : (start + filled) % size < size := Nat.mod_lt _ positive
  rw [ringRead_add]
  congr 1
  · apply ringRead_congr
    intro i inside
    exact ringWrite_filled positive fits inside
  · apply List.ext_getElem?
    intro i
    by_cases inside : i < items.length
    · have behind : (start + filled + i) % size = ((start + filled) % size + i) % size := by
        rw [Nat.mod_add_mod]
      rw [getElem?_ringRead inside, behind, ringWrite_at low (by omega) (by omega),
        List.getElem?_eq_getElem inside, Option.getD_some]
    · rw [List.getElem?_eq_none (by simpa using inside), List.getElem?_eq_none (by omega)]

/-! ## 16-bit counters -/

/-- The number of items from one counter to another. -/
theorem toNat_sub_word (a b : UInt16) :
    (a - b).toNat = (a.toNat + 65536 - b.toNat) % 65536 := by
  rw [UInt16.toNat_sub]
  have := b.toNat_lt
  congr 1
  omega

/-- A counter difference computed over the integers. -/
theorem ofInt_sub_word (a b : UInt16) : UInt16.ofInt ((a.toNat : Int) - b.toNat) = a - b := by
  have back (c : UInt16) : UInt16.ofInt (c.toNat : Int) = c := by
    have := c.toNat_lt
    rw [← UInt16.toNat_inj, UInt16.ofInt, UInt16.toNat_ofNat']
    omega
  rw [Int.sub_eq_add_neg, UInt16.ofInt_add, UInt16.ofInt_neg, back, back, UInt16.sub_eq_add_neg]

/-- The place of an advanced counter. -/
theorem place_add_word (divides : size ∣ 65536) (a : UInt16) (n : Nat) :
    (a + UInt16.ofNat n).toNat % size = (a.toNat + n) % size := by
  rw [UInt16.toNat_add, UInt16.toNat_ofNat']
  rw [Nat.mod_mod_of_dvd _ divides, Nat.add_mod, Nat.mod_mod_of_dvd _ divides, ← Nat.add_mod]

/-- The place of a counter, from another counter on. -/
theorem place_sub_word (divides : size ∣ 65536) (a b : UInt16) :
    (a.toNat + (b - a).toNat) % size = b.toNat % size := by
  have hb := b.toNat_lt
  have ha := a.toNat_lt
  have whole : (a.toNat + (b - a).toNat) % 65536 = b.toNat := by
    rw [toNat_sub_word]
    omega
  rw [← Nat.mod_mod_of_dvd _ divides, whole]

/-- A counter that advances towards another leaves that many items less. -/
theorem toNat_sub_add_word {a b : UInt16} {n : Nat} (within : n ≤ (b - a).toNat) :
    (b - (a + UInt16.ofNat n)).toNat = (b - a).toNat - n := by
  have lt := (b - a).toNat_lt
  have ha := a.toNat_lt
  have hb := b.toNat_lt
  rw [toNat_sub_word] at within lt ⊢
  rw [UInt16.toNat_add, UInt16.toNat_ofNat', toNat_sub_word]
  omega

/-- The target of a counter moves on by what it is ahead, unless the distance wraps. -/
theorem toNat_sub_trans_word {a b c : UInt16}
    (fits : (b - a).toNat + (c - b).toNat < 65536) :
    (c - a).toNat = (b - a).toNat + (c - b).toNat := by
  have ha := a.toNat_lt
  have hb := b.toNat_lt
  have hc := c.toNat_lt
  rw [toNat_sub_word, toNat_sub_word] at fits
  rw [toNat_sub_word, toNat_sub_word, toNat_sub_word]
  omega

theorem toNat_sub_word_eq_zero {a b : UInt16} : (b - a).toNat = 0 ↔ a = b := by
  have ha := a.toNat_lt
  have hb := b.toNat_lt
  rw [toNat_sub_word, ← UInt16.toNat_inj]
  omega

end Lib
