import FuseX.Lib.Ring
import FuseX.Lib.Runs
import Mathlib.Data.BitVec

/-!
# The sound FIFO

`sfifo.c` is a ring between two threads, the emulator's, which writes sound, and the one of the sound device,
which reads it. No lock protects the ring: each thread takes the position of the other one once, copies its
bytes, and only then stores its own position. A step here is one of these accesses and the bytes are copied
in any order, so that a run is any interleaving of the two threads. `received_in_order` says that the reader
gets the bytes that were written, in their order, and none of them twice, whatever the interleaving.
-/

namespace FuseX.Sound.Sfifo

open Lib

variable {α : Type}

/-! ## The ring -/

/-- `sfifo_t`. -/
structure Fifo (α : Type) : Type where
  size : Nat
  buffer : Nat → α
  readpos : Nat
  writepos : Nat

/-- The loop of `sfifo_init`. -/
def grow (size : Nat) : Nat → Nat → Nat
  | 0, f => f
  | fuel + 1, f => if f ≤ size then grow size fuel (f <<< 1) else f

/-- `sfifo_init`. -/
def sfifoInit (size : Nat) (buffer : Nat → α) : Fifo α where
  size := grow size 31 1
  buffer := buffer
  readpos := 0
  writepos := 0

/-- `sfifo_used`. -/
def Fifo.used (f : Fifo α) : Nat :=
  ((BitVec.ofNat 32 f.writepos - BitVec.ofNat 32 f.readpos) &&& BitVec.ofNat 32 (f.size - 1)).toNat

/-- `sfifo_space`. -/
def Fifo.space (f : Fifo α) : Nat := f.size - 1 - f.used

/-- The places of the one or two copies from or to the position `i`. -/
def places (size i len : Nat) : List Nat :=
  if size < i + len then (List.range (size - i)).map (i + ·) ++ (List.range (len - (size - i))).map (0 + ·)
  else (List.range len).map (i + ·)

/-- The position after these copies. -/
def after (size i len : Nat) : Nat := if size < i + len then 0 + (len - (size - i)) else i + len

/-! ## The threads -/

/-- A `sfifo_write` that is under way: what it was given, how much of it there is room for, and the bytes
that are not stored yet. -/
structure Write (α : Type) : Type where
  buf : List α
  total : Nat
  pending : List (Nat × α)

/-- A `sfifo_read` that is under way: the memory it was given, how much it will read, and the bytes that are
not read yet, by their number and their place. -/
structure Read (α : Type) : Type where
  buf : Nat → α
  total : Nat
  pending : List (Nat × Nat)

/-- The ring and its two threads, with what has been written and read so far. -/
structure Threads (α : Type) : Type where
  fifo : Fifo α
  writer : Option (Write α)
  reader : Option (Read α)
  sent : List α
  received : List α

def Threads.start (size : Nat) (buffer : Nat → α) : Threads α where
  fifo := sfifoInit size buffer
  writer := none
  reader := none
  sent := []
  received := []

inductive Act (α : Type) : Type
  /-- `sfifo_write` takes the positions -/
  | write (buf : List α)
  /-- `memcpy` stores one of the bytes -/
  | store (k : Nat)
  /-- `sfifo_write` stores its position and returns -/
  | wrote
  /-- `sfifo_read` takes the positions -/
  | read (buf : Nat → α) (len : Nat)
  /-- `memcpy` reads one of the bytes -/
  | load (k : Nat)
  /-- `sfifo_read` stores its position and returns -/
  | gotten

def step (s : Threads α) : Act α → Option (Threads α)
  | .write buf =>
    match s.writer with
    | some _ => none
    | none =>
      let total := min buf.length s.fifo.space
      some { s with writer := some ⟨buf, total, (places s.fifo.size s.fifo.writepos total).zip buf⟩ }
  | .store k => do
    let w ← s.writer
    let (place, byte) ← w.pending[k]?
    some { s with
      fifo := { s.fifo with buffer := Function.update s.fifo.buffer place byte }
      writer := some { w with pending := w.pending.eraseIdx k } }
  | .wrote =>
    match s.writer with
    | some ⟨buf, total, []⟩ =>
      some { s with
        fifo := { s.fifo with writepos := after s.fifo.size s.fifo.writepos total }
        writer := none
        sent := s.sent ++ buf.take total }
    | _ => none
  | .read buf len =>
    match s.reader with
    | some _ => none
    | none =>
      let total := min len s.fifo.used
      some { s with reader := some ⟨buf, total, (List.range total).zip (places s.fifo.size s.fifo.readpos total)⟩ }
  | .load k => do
    let r ← s.reader
    let (n, place) ← r.pending[k]?
    some { s with
      reader := some ⟨Function.update r.buf n (s.fifo.buffer place), r.total, r.pending.eraseIdx k⟩ }
  | .gotten =>
    match s.reader with
    | some ⟨buf, total, []⟩ =>
      some { s with
        fifo := { s.fifo with readpos := after s.fifo.size s.fifo.readpos total }
        reader := none
        received := s.received ++ (List.range total).map buf }
    | _ => none

/-! ## Positions -/

/-- A position may be one place past the end, where it stands for the start. -/
structure Fifo.Sized (f : Fifo α) : Prop where
  power : ∃ k < 31, f.size = 2 ^ k
  readpos : f.readpos ≤ f.size
  writepos : f.writepos ≤ f.size

/-- What the ring holds. -/
def Fifo.held (f : Fifo α) : List α := ringRead f.size f.buffer f.readpos f.used

theorem grow_spec (size : Nat) : ∀ fuel k, size < 2 ^ (k + fuel) → (k = 0 ∨ 2 ^ k ≤ 2 * size) →
    ∃ j ≤ k + fuel, grow size fuel (2 ^ k) = 2 ^ j ∧ size < 2 ^ j ∧ (j = 0 ∨ 2 ^ j ≤ 2 * size) := by
  intro fuel
  induction fuel with
  | zero =>
    intro k small least
    exact ⟨k, le_rfl, rfl, small, least⟩
  | succ fuel ih =>
    intro k small least
    rw [grow]
    split
    · have doubled : 2 ^ k <<< 1 = 2 ^ (k + 1) := by rw [Nat.shiftLeft_eq, Nat.pow_one, Nat.pow_succ]
      have bound : 2 ^ (k + 1) ≤ 2 * size := by rw [Nat.pow_succ]; omega
      rw [doubled]
      obtain ⟨j, limit, rest⟩ := ih (k + 1) (by rw [Nat.add_right_comm]; exact small) (.inr bound)
      exact ⟨j, by omega, rest⟩
    · exact ⟨k, by omega, rfl, by omega, least⟩

section Positions

variable {f : Fifo α} (sized : f.Sized)

include sized

theorem size_pos : 0 < f.size := by
  obtain ⟨k, -, power⟩ := sized.power
  rw [power]
  exact Nat.two_pow_pos k

theorem used_eq : f.used = (f.writepos + (f.size - f.readpos)) % f.size := by
  obtain ⟨k, limit, power⟩ := sized.power
  have read := sized.readpos
  have write := sized.writepos
  have small : f.size ≤ 2 ^ 30 := power ▸ Nat.pow_le_pow_right Nat.two_pos (by omega)
  obtain ⟨m, whole⟩ : f.size ∣ 2 ^ 32 := by
    rw [power]
    exact Nat.pow_dvd_pow 2 (by omega)
  have positive : 0 < m := Nat.pos_of_ne_zero (by rintro rfl; simp at whole)
  have turns : f.size * m = f.size * (m - 1) + f.size := by
    rw [← Nat.mul_succ, Nat.succ_eq_add_one, Nat.sub_add_cancel positive]
  have same : f.size * m - f.readpos + f.writepos = f.writepos + (f.size - f.readpos) + f.size * (m - 1) := by omega
  rw [Fifo.used, BitVec.toNat_and, BitVec.toNat_sub, BitVec.toNat_ofNat, BitVec.toNat_ofNat, BitVec.toNat_ofNat,
    Nat.mod_eq_of_lt (show f.writepos < 2 ^ 32 by omega), Nat.mod_eq_of_lt (show f.readpos < 2 ^ 32 by omega),
    Nat.mod_eq_of_lt (show f.size - 1 < 2 ^ 32 by omega)]
  conv_lhs => rw [power]
  rw [Nat.and_two_pow_sub_one_eq_mod, ← power, whole, Nat.mod_mul_right_mod, same, Nat.add_mul_mod_self_left]

theorem used_lt : f.used < f.size := by
  rw [used_eq sized]
  exact Nat.mod_lt _ (size_pos sized)

theorem readpos_used : (f.readpos + f.used) % f.size = f.writepos % f.size := by
  have read := sized.readpos
  rw [used_eq sized, Nat.add_mod_mod,
    show f.readpos + (f.writepos + (f.size - f.readpos)) = f.writepos + f.size by omega,
    Nat.add_mod_right]

/-- The places of the bytes of the ring, by their number. -/
theorem used_unique {n : Nat} (small : n < f.size) (same : (f.readpos + n) % f.size = f.writepos % f.size) :
    f.used = n :=
  Nat.ModEq.eq_of_lt_of_lt ((Nat.ModEq.add_left_cancel' f.readpos ((readpos_used sized).trans same.symm)))
    (used_lt sized) small

end Positions

/-- Two places less than a turn apart are different. -/
theorem place_injective {size start i j : Nat} (first : i < size) (second : j < size)
    (same : (start + i) % size = (start + j) % size) : i = j :=
  Nat.ModEq.eq_of_lt_of_lt (Nat.ModEq.add_left_cancel' start same) first second

theorem places_eq {size i len : Nat} (position : i ≤ size) (short : len < size) :
    places size i len = (List.range len).map fun k => (i + k) % size := by
  rw [places]
  split
  · rename_i wraps
    have split : len = (size - i) + (len - (size - i)) := by omega
    conv_rhs => rw [split, List.range_add, List.map_append, List.map_map]
    congr 1
    · exact List.map_congr_left fun k inside => (Nat.mod_eq_of_lt (by have := List.mem_range.mp inside; omega)).symm
    · apply List.map_congr_left
      intro k inside
      have below := List.mem_range.mp inside
      have turn : i + (size - i + k) = k + size := by omega
      rw [Function.comp_apply, turn, Nat.add_mod_right, Nat.mod_eq_of_lt (by omega), Nat.zero_add]
  · exact List.map_congr_left fun k inside => (Nat.mod_eq_of_lt (by have := List.mem_range.mp inside; omega)).symm

theorem after_le {size i len : Nat} (position : i ≤ size) (short : len < size) : after size i len ≤ size := by
  rw [after]
  split <;> omega

theorem after_mod {size i len : Nat} (position : i ≤ size) : after size i len % size = (i + len) % size := by
  rw [after]
  split
  · rw [show i + len = 0 + (len - (size - i)) + size by omega, Nat.add_mod_right]
  · rfl

/-! ## The copies -/

/-- What a `sfifo_write` has done so far. -/
structure Written (f : Fifo α) (w : Write α) : Prop where
  room : w.total + f.used < f.size
  given : w.total ≤ w.buf.length
  /-- what is left to store -/
  left : ∀ p ∈ w.pending, ∃ k < w.total, p.1 = (f.writepos + k) % f.size ∧ w.buf[k]? = some p.2
  /-- what is stored -/
  stored : ∀ k < w.total, ∀ byte, w.buf[k]? = some byte →
    f.buffer ((f.writepos + k) % f.size) = byte ∨ ((f.writepos + k) % f.size, byte) ∈ w.pending

/-- What a `sfifo_read` has done so far. -/
structure Loaded (f : Fifo α) (r : Read α) : Prop where
  there : r.total ≤ f.used
  left : ∀ p ∈ r.pending, ∃ k < r.total, p = (k, (f.readpos + k) % f.size)
  loaded : ∀ k < r.total, r.buf k = f.buffer ((f.readpos + k) % f.size) ∨ (k, (f.readpos + k) % f.size) ∈ r.pending

/-- The invariant of the two threads of a ring that `size` bytes were asked for. -/
structure Consistent (size : Nat) (s : Threads α) : Prop where
  capacity : size < s.fifo.size
  sized : s.fifo.Sized
  held : s.received ++ s.fifo.held = s.sent
  writing : ∀ w, s.writer = some w → Written s.fifo w
  reading : ∀ r, s.reader = some r → Loaded s.fifo r

/-! ## One access -/

section Copies

variable {f : Fifo α} (sized : f.Sized)

include sized

theorem write_begun (buf : List α) :
    let total := min buf.length f.space
    Written f ⟨buf, total, (places f.size f.writepos total).zip buf⟩ := by
  intro total
  have room : total + f.used < f.size := by
    have := used_lt sized
    have : total ≤ f.size - 1 - f.used := Nat.min_le_right _ _
    omega
  have given : total ≤ buf.length := Nat.min_le_left _ _
  have spots : (places f.size f.writepos total).zip buf =
      (List.range total).zipWith (fun k byte => ((f.writepos + k) % f.size, byte)) buf := by
    rw [places_eq sized.writepos (by omega), List.zip_map_left, List.zip, List.map_zipWith]
    rfl
  refine ⟨room, given, ?_, ?_⟩
  · intro p member
    dsimp only at member ⊢
    rw [spots] at member
    obtain ⟨k, inside, rfl⟩ := List.mem_iff_getElem.mp member
    rw [List.length_zipWith, List.length_range] at inside
    refine ⟨k, by omega, ?_, ?_⟩
    · rw [List.getElem_zipWith, List.getElem_range]
    · rw [List.getElem_zipWith, List.getElem?_eq_getElem]
  · intro k inside byte given'
    right
    dsimp only at inside given' ⊢
    rw [spots, List.mem_iff_getElem?]
    refine ⟨k, ?_⟩
    rw [List.getElem?_zipWith, List.getElem?_range inside, given']

theorem read_begun (buf : Nat → α) (len : Nat) :
    let total := min len f.used
    Loaded f ⟨buf, total, (List.range total).zip (places f.size f.readpos total)⟩ := by
  intro total
  have there : total ≤ f.used := Nat.min_le_right _ _
  have short : total < f.size := there.trans_lt (used_lt sized)
  have spots : (List.range total).zip (places f.size f.readpos total) =
      (List.range total).map fun k => (k, (f.readpos + k) % f.size) := by
    rw [places_eq sized.readpos short, List.zip_map_right, List.zip_eq_zipWith, List.zipWith_self, List.map_map]
    rfl
  refine ⟨there, ?_, ?_⟩
  · intro p member
    dsimp only at member ⊢
    rw [spots] at member
    obtain ⟨k, inside, rfl⟩ := List.mem_map.mp member
    exact ⟨k, List.mem_range.mp inside, rfl⟩
  · intro k inside
    right
    dsimp only at inside ⊢
    rw [spots]
    exact List.mem_map.mpr ⟨k, List.mem_range.mpr inside, rfl⟩

/-- The place that a byte is stored in is behind those that the ring holds. -/
theorem place_behind {total k i : Nat} (room : total + f.used < f.size) (inside : k < total) (held : i < f.used) :
    (f.readpos + i) % f.size ≠ (f.writepos + k) % f.size := by
  intro same
  have spot : (f.writepos + k) % f.size = (f.readpos + (f.used + k)) % f.size := by
    rw [Nat.add_mod, ← readpos_used sized, ← Nat.add_mod, Nat.add_assoc]
  rw [spot] at same
  have := place_injective (by omega) (by omega) same
  omega

theorem held_store {total k : Nat} (room : total + f.used < f.size) (inside : k < total) (byte : α) :
    { f with buffer := Function.update f.buffer ((f.writepos + k) % f.size) byte }.held = f.held := by
  apply ringRead_congr
  intro i held
  exact Function.update_of_ne (place_behind sized room inside held) _ _

omit sized in
/-- A byte that is stored is one of those to be stored, and the rest is as before. -/
theorem Written.store {w : Write α} (written : Written f w) {k : Nat} {place : Nat} {byte : α}
    (next : w.pending[k]? = some (place, byte)) :
    Written { f with buffer := Function.update f.buffer place byte } { w with pending := w.pending.eraseIdx k } := by
  obtain ⟨j, inside, spot, item⟩ := written.left _ (List.mem_of_getElem? next)
  refine ⟨written.room, written.given, fun p member => written.left p (List.mem_of_mem_eraseIdx member), ?_⟩
  intro i limit other given
  dsimp only at spot limit given ⊢
  by_cases same : i = j
  · subst same
    left
    rw [given, Option.some_inj] at item
    rw [spot, Function.update_self, item]
  · have apart : (f.writepos + i) % f.size ≠ place := by
      rw [spot]
      intro equal
      have room := written.room
      exact same (place_injective (by omega) (by omega) equal)
    rcases written.stored i limit other given with there | waiting
    · left
      rw [Function.update_of_ne apart, there]
    · right
      have different : (((f.writepos + i) % f.size, other) : Nat × α) ≠ (place, byte) := fun equal =>
        apart (congrArg Prod.fst equal)
      obtain ⟨m, at'⟩ := List.mem_iff_getElem?.mp waiting
      have moved : m ≠ k := by
        rintro rfl
        rw [next, Option.some_inj] at at'
        exact different at'.symm
      exact List.mem_eraseIdx_iff_getElem?.mpr ⟨m, moved, at'⟩

/-- What is read is not what is being stored. -/
theorem Loaded.store {r : Read α} (loaded : Loaded f r) {total k : Nat} (room : total + f.used < f.size)
    (inside : k < total) (byte : α) :
    Loaded { f with buffer := Function.update f.buffer ((f.writepos + k) % f.size) byte } r := by
  refine ⟨loaded.there, loaded.left, ?_⟩
  intro i limit
  have held : i < f.used := limit.trans_le loaded.there
  dsimp only
  rw [Function.update_of_ne (place_behind sized room inside held)]
  exact loaded.loaded i limit

omit sized in
theorem Loaded.load {r : Read α} (loaded : Loaded f r) {k n place : Nat} (next : r.pending[k]? = some (n, place)) :
    Loaded f ⟨Function.update r.buf n (f.buffer place), r.total, r.pending.eraseIdx k⟩ := by
  obtain ⟨j, inside, spot⟩ := loaded.left _ (List.mem_of_getElem? next)
  obtain ⟨rfl, rfl⟩ := Prod.mk.inj spot
  refine ⟨loaded.there, fun p member => loaded.left p (List.mem_of_mem_eraseIdx member), ?_⟩
  intro i limit
  dsimp only at limit ⊢
  by_cases same : i = n
  · subst same
    left
    rw [Function.update_self]
  · rw [Function.update_of_ne same]
    refine (loaded.loaded i limit).imp_right fun waiting => ?_
    obtain ⟨m, at'⟩ := List.mem_iff_getElem?.mp waiting
    have moved : m ≠ k := by
      rintro rfl
      rw [next, Option.some_inj] at at'
      exact same (congrArg Prod.fst at').symm
    exact List.mem_eraseIdx_iff_getElem?.mpr ⟨m, moved, at'⟩

/-- The position of the writer is stored after all of its bytes. -/
theorem wrote_held {buf : List α} {total : Nat} (written : Written f ⟨buf, total, []⟩) :
    let f' := { f with writepos := after f.size f.writepos total }
    f'.Sized ∧ f'.used = f.used + total ∧ f'.held = f.held ++ buf.take total := by
  intro f'
  have room : total + f.used < f.size := written.room
  have given : total ≤ buf.length := written.given
  have sized' : f'.Sized := ⟨sized.power, sized.readpos, after_le sized.writepos (by omega)⟩
  have used : f'.used = f.used + total := by
    apply used_unique sized' (show f.used + total < f.size by omega)
    change (f.readpos + (f.used + total)) % f.size = after f.size f.writepos total % f.size
    rw [after_mod sized.writepos, ← Nat.add_assoc, Nat.add_mod, readpos_used sized, ← Nat.add_mod]
  refine ⟨sized', used, ?_⟩
  rw [Fifo.held, used, ringRead_add]
  refine congrArg (f.held ++ ·) (List.ext_getElem? fun k => ?_)
  rcases Nat.lt_or_ge k total with inside | beyond
  · have byte : buf[k]? = some buf[k] := List.getElem?_eq_getElem (by omega)
    rcases written.stored k inside _ byte with there | waiting
    · have spot : (f.readpos + f.used + k) % f.size = (f.writepos + k) % f.size := by
        rw [Nat.add_mod, readpos_used sized, ← Nat.add_mod]
      rw [getElem?_ringRead inside, List.getElem?_take_of_lt inside, byte]
      change some (f.buffer ((f.readpos + f.used + k) % f.size)) = _
      rw [spot, there]
    · exact absurd waiting List.not_mem_nil
  · rw [List.getElem?_eq_none (by rw [length_ringRead]; exact beyond),
      List.getElem?_eq_none (by rw [List.length_take]; omega)]

/-- The position of the reader is stored after all of its bytes are read. -/
theorem gotten_held {buf : Nat → α} {total : Nat} (loaded : Loaded f ⟨buf, total, []⟩) :
    let f' := { f with readpos := after f.size f.readpos total }
    f'.Sized ∧ f'.used = f.used - total ∧ (List.range total).map buf ++ f'.held = f.held := by
  intro f'
  have there : total ≤ f.used := loaded.there
  have small := used_lt sized
  have position := @after_mod f.size f.readpos total sized.readpos
  have sized' : f'.Sized := ⟨sized.power, after_le sized.readpos (by omega), sized.writepos⟩
  have used : f'.used = f.used - total := by
    apply used_unique sized' (show f.used - total < f.size by omega)
    change (after f.size f.readpos total + (f.used - total)) % f.size = f.writepos % f.size
    rw [Nat.add_mod, position, ← Nat.add_mod, Nat.add_assoc, Nat.add_sub_cancel' there, readpos_used sized]
  refine ⟨sized', used, ?_⟩
  have whole : f.used = total + (f.used - total) := by omega
  have front : (List.range total).map buf = ringRead f.size f.buffer f.readpos total := by
    apply List.map_congr_left
    intro k inside
    rcases loaded.loaded k (List.mem_range.mp inside) with same | waiting
    · exact same
    · exact absurd waiting List.not_mem_nil
  have back : f'.held = ringRead f.size f.buffer (f.readpos + total) (f.used - total) := by
    rw [Fifo.held, used]
    exact ringRead_start position _
  rw [front, back, ← ringRead_add, ← whole]
  rfl

end Copies

/-! ## Runs -/

theorem consistent_step {size : Nat} {s t : Threads α} {act : Act α} (consistent : Consistent size s)
    (taken : step s act = some t) : Consistent size t := by
  obtain ⟨capacity, sized, held, writing, reading⟩ := consistent
  cases act with
  | write buf =>
    rcases idle : s.writer with _ | w
    · simp only [step, idle, Option.some_inj] at taken
      subst taken
      refine ⟨capacity, sized, held, ?_, reading⟩
      rintro w begun
      cases begun
      exact write_begun sized buf
    · simp [step, idle] at taken
  | store k =>
    rcases busy : s.writer with _ | w
    · simp [step, busy] at taken
    · rcases next : w.pending[k]? with _ | ⟨place, byte⟩
      · simp [step, busy, next] at taken
      · simp only [step, busy, next, Option.bind_eq_bind, Option.bind_some, Option.some_inj] at taken
        subst taken
        have written := writing w busy
        obtain ⟨j, inside, spot, -⟩ := written.left _ (List.mem_of_getElem? next)
        dsimp only at spot
        have kept := held_store sized written.room inside byte
        refine ⟨capacity, ⟨sized.power, sized.readpos, sized.writepos⟩, ?_, ?_, ?_⟩
        · rw [spot, kept]
          exact held
        · rintro w' begun
          cases begun
          exact written.store next
        · intro r running
          rw [spot]
          exact (reading r running).store sized written.room inside byte
  | wrote =>
    rcases busy : s.writer with _ | ⟨buf, total, _ | ⟨p, pending⟩⟩
    · simp [step, busy] at taken
    · simp only [step, busy, Option.some_inj] at taken
      subst taken
      obtain ⟨sized', used, appended⟩ := wrote_held sized (writing _ busy)
      refine ⟨capacity, sized', ?_, ?_, ?_⟩
      · rw [appended, ← List.append_assoc, held]
      · rintro w ⟨⟩
      · intro r running
        have loaded := reading r running
        exact ⟨(loaded.there.trans (Nat.le_add_right _ total)).trans_eq used.symm, loaded.left, loaded.loaded⟩
    · simp [step, busy] at taken
  | read buf len =>
    rcases idle : s.reader with _ | r
    · simp only [step, idle, Option.some_inj] at taken
      subst taken
      refine ⟨capacity, sized, held, writing, ?_⟩
      rintro r begun
      cases begun
      exact read_begun sized buf len
    · simp [step, idle] at taken
  | load k =>
    rcases busy : s.reader with _ | r
    · simp [step, busy] at taken
    · rcases next : r.pending[k]? with _ | ⟨n, place⟩
      · simp [step, busy, next] at taken
      · simp only [step, busy, next, Option.bind_eq_bind, Option.bind_some, Option.some_inj] at taken
        subst taken
        refine ⟨capacity, sized, held, writing, ?_⟩
        rintro r' begun
        cases begun
        exact (reading r busy).load next
  | gotten =>
    rcases busy : s.reader with _ | ⟨buf, total, _ | ⟨p, pending⟩⟩
    · simp [step, busy] at taken
    · simp only [step, busy, Option.some_inj] at taken
      subst taken
      have loaded := reading _ busy
      obtain ⟨sized', used, delivered⟩ := gotten_held sized loaded
      refine ⟨capacity, sized', ?_, ?_, ?_⟩
      · rw [List.append_assoc, delivered, held]
      · intro w running
        have written := writing w running
        have less := Nat.add_le_add_left (used.trans_le (Nat.sub_le _ _)) w.total
        exact ⟨less.trans_lt written.room, written.given, written.left, written.stored⟩
      · rintro r ⟨⟩
    · simp [step, busy] at taken

theorem consistent_start {size : Nat} (small : size < 2 ^ 30) (buffer : Nat → α) :
    Consistent size (Threads.start size buffer) := by
  obtain ⟨k, limit, power, enough, least⟩ := grow_spec size 31 0 (by omega) (.inl rfl)
  have below : k < 31 := by
    rcases least with rfl | least
    · decide
    · exact (Nat.pow_lt_pow_iff_right Nat.one_lt_two).mp (by omega)
  have sized : (sfifoInit size buffer).Sized := ⟨⟨k, below, power⟩, Nat.zero_le _, Nat.zero_le _⟩
  have empty : (sfifoInit size buffer).used = 0 := used_unique sized (size_pos sized) rfl
  have capacity : size < (sfifoInit size buffer).size := enough.trans_eq power.symm
  refine ⟨capacity, sized, ?_, fun w none => ?_, fun r none => ?_⟩
  · change [] ++ (sfifoInit size buffer).held = []
    rw [Fifo.held, empty]
    rfl
  · cases none
  · cases none

/-- Whatever the interleaving, what is read is what was written, in its order and without a repetition, and the
rest of it is still in the ring. A write that begins takes all that there is room for beside what the ring holds
then, and there is room for all that was asked for. -/
theorem received_in_order {size : Nat} (small : size < 2 ^ 30) {buffer : Nat → α} {acts : List (Act α)}
    {s : Threads α}
    (run : Runs step anyStep (Threads.start size buffer) acts s) :
    s.received ++ s.fifo.held = s.sent ∧ s.fifo.held.length < s.fifo.size ∧
    ∀ buf t, step s (.write buf) = some t →
      ∃ total pending, t.writer = some ⟨buf, total, pending⟩ ∧
        total = min buf.length (s.fifo.size - 1 - s.fifo.held.length) ∧
        min buf.length (size - s.fifo.held.length) ≤ total := by
  have consistent : Consistent size s :=
    run.invariant (consistent_start small buffer) fun _ _ _ consistent _ taken => consistent_step consistent taken
  have length : s.fifo.held.length = s.fifo.used := length_ringRead _ _
  refine ⟨consistent.held, length ▸ used_lt consistent.sized, ?_⟩
  intro buf t taken
  rcases idle : s.writer with _ | w
  · simp only [step, idle, Option.some_inj] at taken
    subst taken
    have capacity := consistent.capacity
    refine ⟨_, _, rfl, ?_, ?_⟩
    · rw [length, Fifo.space]
    · rw [length, Fifo.space]
      omega
  · simp [step, idle] at taken

/-- The reader comes while a write is under way and gets nothing; then it reads while the next write begins. -/
def twoThreads : List (Act Nat) :=
  [.write [1, 2, 3], .store 2, .store 0, .read (fun _ => 0) 2, .gotten, .store 0, .wrote, .read (fun _ => 0) 2,
    .load 1, .write [4, 5], .load 0, .gotten]

theorem received_in_order_two : ∃ s : Threads Nat,
    Runs step anyStep (Threads.start 2 fun _ => 0) twoThreads s ∧ s.received ++ s.fifo.held = s.sent ∧
      s.received = [1, 2] :=
  have run := Runs.of_foldlM (show twoThreads.foldlM step (Threads.start 2 fun _ => 0) = some _ from rfl)
  ⟨_, run, (received_in_order (show 2 < 2 ^ 30 by decide) run).1, rfl⟩

end FuseX.Sound.Sfifo
