import FuseX.Lib.Turns
import FuseX.Z80.Blocks

/-!
# Repeating instructions are single ones

A turn of a repeating instruction leaves the registers and the world as the single instruction
does (`repeating_same`), and takes the program counter back if the byte was not the last
(`repeating_pc`). So the two loops go together.
-/

namespace FuseX.Z80.Blocks

open Lib

/-! ## Flags -/

theorem cpi_bits (v : BitVec 8) : v &&& (0x04 ||| 0x40) = 0x04 ↔
    v.getLsbD 2 = true ∧ v.getLsbD 6 = false := by
  revert v
  decide

theorem halfcarry_bits (lookup : BitVec 8) :
    (halfcarrySubTable lookup).getLsbD 2 = false ∧ (halfcarrySubTable lookup).getLsbD 6 = false := by
  revert lookup
  decide

/-- The two bits `CPIR` looks at come from the counter and from the difference. -/
theorem counter_bits {i : Nat} (looked : i = 2 ∨ i = 6) {c v h z s t u : BitVec 8}
    (half : h.getLsbD i = false) :
    ((c &&& 0x01) ||| v ||| h ||| z ||| (s &&& 0x80) ||| ((t &&& 0x08) ||| u)).getLsbD i =
      (v.getLsbD i || z.getLsbD i || u.getLsbD i) := by
  rcases looked with rfl | rfl
  · have half : h[2] = false := half
    simp [half]
  · have half : h[6] = false := half
    simp [half]

/-- `CPIR` goes on if the counter is not used up and the bytes differ. -/
theorem cpiFlags_again {a f value : BitVec 8} {bc : BitVec 16} :
    cpiFlags a f value bc &&& (0x04 ||| 0x40) = 0x04 ↔ ¬ (bc = 0 ∨ value = a) := by
  have differ : a - value = 0 ↔ value = a := by
    constructor
    · intro zero
      bv_omega
    · rintro rfl
      exact BitVec.sub_self _
  have undocumented : ∀ t : BitVec 8,
      (if t &&& 0x02 ≠ 0 then (0x20 : BitVec 8) else 0).getLsbD 2 = false ∧
        (if t &&& 0x02 ≠ 0 then (0x20 : BitVec 8) else 0).getLsbD 6 = false := by
    intro t
    split <;> decide
  have counter : (if bc ≠ 0 then (0x04 ||| 0x02 : BitVec 8) else 0x02).getLsbD 2 = decide (bc ≠ 0) ∧
      (if bc ≠ 0 then (0x04 ||| 0x02 : BitVec 8) else 0x02).getLsbD 6 = false := by
    by_cases counted : bc = 0
    · rw [if_neg (not_not.mpr counted), decide_eq_false (not_not.mpr counted)]
      decide
    · rw [if_pos counted, decide_eq_true counted]
      decide
  have compared : (if a - value ≠ 0 then (0 : BitVec 8) else 0x40).getLsbD 2 = false ∧
      (if a - value ≠ 0 then (0 : BitVec 8) else 0x40).getLsbD 6 = decide (value = a) := by
    by_cases found : value = a
    · rw [if_neg (not_not.mpr (differ.mpr found)), decide_eq_true found]
      decide
    · rw [if_pos (mt differ.mp found), decide_eq_false found]
      decide
  simp only [cpi_bits, cpiFlags, counter_bits (Or.inl rfl) (halfcarry_bits _).1,
    counter_bits (Or.inr rfl) (halfcarry_bits _).2, undocumented, counter, compared, Bool.or_false,
    Bool.false_or, decide_eq_true_iff, decide_eq_false_iff_not, not_or]

/-! ## One turn -/

/-- What the instructions are about. -/
structure Machine.Same (m m' : Machine) : Prop where
  a : m.a = m'.a
  f : m.f = m'.f
  q : m.q = m'.q
  bc : m.bc = m'.bc
  de : m.de = m'.de
  hl : m.hl = m'.hl
  world : m.world = m'.world

variable {block : Block} {direction : Direction} {m m' : Machine}

/-- A single instruction does not look at the program counter, or at `MEMPTR`. -/
theorem single_same (same : m.Same m') :
    (block.single direction m).Same (block.single direction m') := by
  obtain ⟨a, f, q, bc, de, hl, world⟩ := same
  cases block <;> constructor <;>
    simp only [Block.single, ldiLdd, cpiCpd, iniInd, outiOutd, a, f, bc, de, hl, world]

theorem last_same (same : m.Same m') : Last block direction m ↔ Last block direction m' := by
  have bc := (@single_same block direction _ _ same).bc
  cases block
  · simp only [Last, bc]
  · simp only [Last, bc, same.world, same.hl, same.a]
  · simp only [Last, bc]
  · simp only [Last, bc]

/-- The repeating instruction does what the single one does. -/
theorem repeating_same : (block.repeating direction m).Same (block.single direction m) := by
  cases block <;> constructor <;> rfl

/-- And it goes back if the byte was not the last. -/
theorem repeating_pc :
    (block.repeating direction m).pc = if Last block direction m then m.pc else m.pc - 2 := by
  cases block
  · by_cases counted : m.bc - 1 = 0
    · have last : Last .ldi direction m := counted
      rw [if_pos last]
      simp only [Block.repeating, ldirLddr, if_neg (not_not.mpr counted)]
    · have more : ¬ Last .ldi direction m := counted
      rw [if_neg more]
      simp only [Block.repeating, ldirLddr, if_pos counted]
  · by_cases again : cpiFlags m.a m.f (m.world.memory m.hl) (m.bc - 1) &&& (0x04 ||| 0x40) = 0x04
    · have more : ¬ Last .cpi direction m := cpiFlags_again.mp again
      rw [if_neg more]
      simp only [Block.repeating, cpirCpdr, if_pos again]
    · have last : Last .cpi direction m := not_not.mp (mt cpiFlags_again.mpr again)
      rw [if_pos last]
      simp only [Block.repeating, cpirCpdr, if_neg again]
  · by_cases counted : highByte (decB m.bc) = 0
    · have last : Last .ini direction m := counted
      rw [if_pos last]
      simp only [Block.repeating, inirIndr, World.readport, if_neg (not_not.mpr counted)]
    · have more : ¬ Last .ini direction m := counted
      rw [if_neg more]
      simp only [Block.repeating, inirIndr, World.readport, if_pos counted]
  · by_cases counted : highByte (decB m.bc) = 0
    · have last : Last .outi direction m := counted
      rw [if_pos last]
      simp only [Block.repeating, otirOtdr, if_neg (not_not.mpr counted)]
    · have more : ¬ Last .outi direction m := counted
      rw [if_neg more]
      simp only [Block.repeating, otirOtdr, if_pos counted]

/-- Nothing is written but at the target. -/
theorem single_memory {address : BitVec 16} (clear : block.target m ≠ some address) :
    (block.single direction m).world.memory address = m.world.memory address := by
  have written : ∀ (world : World) (target : BitVec 16) (b : BitVec 8), target ≠ address →
      (world.writebyte target b).memory address = world.memory address := by
    intro world target b other
    by_cases ram : world.writable target = true
    · simp only [World.writebyte, if_pos ram, if_neg other.symm]
    · simp only [World.writebyte, if_neg ram]
  cases block
  · exact written m.world m.de _ fun same => clear (congrArg some same)
  · rfl
  · exact written (m.world.readport m.bc).2 m.hl _ fun same => clear (congrArg some same)
  · rfl

theorem Machine.Same.symm (same : m.Same m') : m'.Same m :=
  ⟨same.a.symm, same.f.symm, same.q.symm, same.bc.symm, same.de.symm, same.hl.symm,
    same.world.symm⟩

theorem Machine.Same.trans {m'' : Machine} (first : m.Same m') (second : m'.Same m'') :
    m.Same m'' :=
  ⟨first.a.trans second.a, first.f.trans second.f, first.q.trans second.q,
    first.bc.trans second.bc, first.de.trans second.de, first.hl.trans second.hl,
    first.world.trans second.world⟩

/-! ## Counting down -/

/-- A counter of `w` bits, of which zero stands for all. -/
def counted {w : Nat} (counter : BitVec w) : Nat :=
  if counter = 0 then 2 ^ w else counter.toNat

/-- The number of bytes, if no compare matches: in `BC`, or in `B`. -/
def count (block : Block) (m : Machine) : Nat :=
  match block with
  | .ldi | .cpi => counted m.bc
  | .ini | .outi => counted (highByte m.bc)

theorem counted_pos {w : Nat} (counter : BitVec w) : 0 < counted counter := by
  by_cases zero : counter = 0
  · rw [counted, if_pos zero]
    exact Nat.two_pow_pos w
  · rw [counted, if_neg zero]
    exact Nat.pos_of_ne_zero fun ended => zero (BitVec.eq_of_toNat_eq ended)

theorem counted_le {w : Nat} (counter : BitVec w) : counted counter ≤ 2 ^ w := by
  by_cases zero : counter = 0
  · rw [counted, if_pos zero]
  · rw [counted, if_neg zero]
    exact counter.isLt.le

/-- The counter as it is after a byte. -/
theorem counted_next {w : Nat} (wide : 0 < w) (counter : BitVec w) :
    (counter - 1).toNat + 1 = counted counter := by
  have two : 1 < 2 ^ w := Nat.one_lt_two_pow wide.ne'
  have oneIs : (1 : BitVec w).toNat = 1 := by
    rw [BitVec.ofNat_eq_ofNat, BitVec.toNat_ofNat, Nat.mod_eq_of_lt two]
  by_cases zero : counter = 0
  · rw [counted, if_pos zero, zero, BitVec.toNat_sub, oneIs, BitVec.ofNat_eq_ofNat,
      BitVec.toNat_ofNat, Nat.zero_mod, Nat.add_zero, Nat.mod_eq_of_lt (by omega)]
    omega
  · have positive := counted_pos counter
    have bound := counter.isLt
    rw [counted, if_neg zero] at positive ⊢
    rw [BitVec.toNat_sub, oneIs, show 2 ^ w - 1 + counter.toNat = counter.toNat - 1 + 2 ^ w by omega,
      Nat.add_mod_right, Nat.mod_eq_of_lt (by omega)]
    omega

theorem highByte_decB (bc : BitVec 16) : highByte (decB bc) = highByte bc - 1 :=
  BitVec.extractLsb'_append_eq_left

/-- The counter of a block, as it is after a byte. -/
theorem count_next {w : Nat} (wide : 0 < w) {counter : BitVec w} :
    (counter - 1 = 0 ↔ counted counter = 1) ∧
      (counted counter ≠ 1 → counted (counter - 1) + 1 = counted counter) := by
  have next := counted_next wide counter
  have zero : counter - 1 = 0 ↔ (counter - 1).toNat = 0 :=
    ⟨fun ended => by rw [ended]; rfl, fun ended => BitVec.eq_of_toNat_eq ended⟩
  refine ⟨zero.trans ⟨fun ended => by omega, fun one => by omega⟩, fun more => ?_⟩
  have left : ¬ counter - 1 = 0 := by
    intro ended
    have last := zero.mp ended
    omega
  rw [counted, if_neg left, next]

/-- The last byte is the one the counter says, but for a match. -/
theorem last_count : count block m = 1 → Last block direction m := by
  cases block
  · exact (count_next (by decide)).1.mpr
  · exact fun one => Or.inl ((count_next (by decide)).1.mpr one)
  · intro one
    exact (highByte_decB m.bc).trans ((count_next (by decide)).1.mpr one)
  · intro one
    exact (highByte_decB m.bc).trans ((count_next (by decide)).1.mpr one)

theorem count_last (noMatch : block ≠ .cpi) : Last block direction m → count block m = 1 := by
  cases block
  · exact (count_next (by decide)).1.mp
  · exact absurd rfl noMatch
  · intro last
    exact (count_next (by decide)).1.mp ((highByte_decB m.bc).symm.trans last)
  · intro last
    exact (count_next (by decide)).1.mp ((highByte_decB m.bc).symm.trans last)

theorem count_single (more : count block m ≠ 1) :
    count block (block.single direction m) + 1 = count block m := by
  have counts : ∀ {w : Nat}, 0 < w → ∀ {counter : BitVec w}, counted counter ≠ 1 →
      counted (counter - 1) + 1 = counted counter := fun wide => (count_next wide).2
  cases block
  · exact counts (by decide) more
  · exact counts (by decide) more
  · exact (congrArg (counted · + 1) (highByte_decB m.bc)).trans (counts (by decide) more)
  · exact (congrArg (counted · + 1) (highByte_decB m.bc)).trans (counts (by decide) more)

/-! ## The two loops -/

/-- The single instruction is executed for the byte `k`. -/
def Reaches (block : Block) (direction : Direction) (m : Machine) (k : Nat) : Prop :=
  ∀ j < k, ¬ Last block direction ((block.single direction)^[j] m)

/-- No byte is written to `address`. -/
def Clear (block : Block) (direction : Direction) (m : Machine) (address : BitVec 16) : Prop :=
  ∀ k, Reaches block direction m k →
    block.target ((block.single direction)^[k] m) ≠ some address

theorem Clear.now {address : BitVec 16} (clear : Clear block direction m address) :
    block.target m ≠ some address :=
  clear 0 fun j before => absurd before (Nat.not_lt_zero j)

theorem Clear.next {address : BitVec 16} (clear : Clear block direction m address)
    (more : ¬ Last block direction m) :
    Clear block direction (block.single direction m) address := by
  intro k reached
  rw [← Function.iterate_succ_apply]
  refine clear (k + 1) fun j before => ?_
  rcases j with _ | j
  · exact more
  · rw [Function.iterate_succ_apply]
    exact reached j (Nat.lt_of_succ_lt_succ before)

/-- Both loops are at the same byte, and the instruction is where it was. -/
def Together (block : Block) (direction : Direction) (pc : BitVec 16) (x x' : Machine) : Prop :=
  x.Same x' ∧ x'.pc = pc ∧ Holds block direction x' ∧
    Clear block direction x pc ∧ Clear block direction x (pc + 1)

/-- Both loops are at their end. -/
def Ended (pc : BitVec 16) (x x' : Machine) : Prop :=
  x.Same x' ∧ x'.pc = pc + 2

theorem turns_together {pc : BitVec 16} {more : Bool} {x x' y : Machine}
    (related : Together block direction pc x x')
    (turned : singleTurn block direction x = some (y, more)) :
    ∃ y', repeatTurn block direction x' = some (y', more) ∧
      if more then Together block direction pc y y' else Ended pc y y' := by
  obtain ⟨same, here, held, clear, clear'⟩ := related
  simp only [singleTurn, Option.some.injEq, Prod.mk.injEq] at turned
  obtain ⟨rfl, rfl⟩ := turned
  have fetched : x.Same { x' with pc := x'.pc + 2 } :=
    ⟨same.a, same.f, same.q, same.bc, same.de, same.hl, same.world⟩
  have after := (@single_same block direction _ _ fetched).trans
    (@repeating_same block direction { x' with pc := x'.pc + 2 }).symm
  have pcAfter := @repeating_pc block direction { x' with pc := x'.pc + 2 }
  refine ⟨block.repeating direction { x' with pc := x'.pc + 2 }, ?_⟩
  by_cases last : Last block direction x
  · rw [if_pos ((last_same fetched).mp last)] at pcAfter
    have ends : (block.repeating direction { x' with pc := x'.pc + 2 }).pc ≠ x'.pc := by
      rw [pcAfter]
      bv_omega
    refine ⟨?_, ?_⟩
    · simp only [repeatTurn, if_pos held, ends, last, not_true_eq_false, decide_false]
    · simp only [last, not_true_eq_false, decide_false, Bool.false_eq_true, if_false]
      exact ⟨after, by rw [pcAfter, here]⟩
  · rw [if_neg (mt (last_same fetched).mpr last)] at pcAfter
    have back : (block.repeating direction { x' with pc := x'.pc + 2 }).pc = x'.pc := by
      rw [pcAfter]
      bv_omega
    have kept : ∀ address, block.target x ≠ some address →
        (block.repeating direction { x' with pc := x'.pc + 2 }).world.memory address =
          x'.world.memory address := by
      intro address other
      rw [← after.world, single_memory other, same.world]
    refine ⟨?_, ?_⟩
    · simp only [repeatTurn, if_pos held, back, last, not_false_eq_true, decide_true]
    · simp only [last, not_false_eq_true, decide_true, if_true]
      refine ⟨after, back.trans here, ?_, clear.next last, clear'.next last⟩
      rw [Holds, back, kept _ (here ▸ clear.now), kept _ (here ▸ clear'.now)]
      exact held

theorem count_pos (block : Block) (m : Machine) : 0 < count block m := by
  cases block
  · exact counted_pos _
  · exact counted_pos _
  · exact counted_pos _
  · exact counted_pos _

theorem count_le (block : Block) (m : Machine) : count block m ≤ 65536 := by
  cases block
  · exact counted_le _
  · exact counted_le _
  · exact (counted_le _).trans (by decide)
  · exact (counted_le _).trans (by decide)

/-- A repeating instruction that does not overwrite itself does what the single one does when it
is executed until the counter is used up or the compare matches: it processes as many bytes, `BC`
of them or `B` of them where nothing is compared, and it ends behind itself. -/
theorem repeat_eq_single (block : Block) (direction : Direction) (m : Machine)
    (held : Holds block direction m) (clear : Clear block direction m m.pc)
    (clear' : Clear block direction m (m.pc + 1)) :
    ∃ n final final', runTurns (singleTurn block direction) 65536 m = some (n, final) ∧
      runTurns (repeatTurn block direction) 65536 m = some (n, final') ∧
      final.Same final' ∧ final'.pc = m.pc + 2 ∧
      n ≤ count block m ∧ (block ≠ .cpi → n = count block m) := by
  have same : m.Same m := ⟨rfl, rfl, rfl, rfl, rfl, rfl, rfl⟩
  obtain ⟨n, final, ends, bound⟩ :=
    @runTurns_ends _ (singleTurn block direction) 65536 m (count block) (count_pos block)
      (fun x => ⟨_, _, rfl, fun more => by
        have notLast := mt (@last_count _ direction _) (of_decide_eq_true more)
        have next := @count_single _ direction _ notLast
        omega⟩) (count_le block m)
  obtain ⟨final', ends', final_same, pc⟩ :=
    @runTurns_together _ _ _ _ _ _ _ _ (Together block direction m.pc) (Ended m.pc)
      (fun _ _ _ _ => turns_together) _ ⟨same, rfl, held, clear, clear'⟩ ends
  refine ⟨n, final, final', ends, ends', final_same, pc, bound, fun noMatch => ?_⟩
  refine runTurns_count (fun x y more turned => ?_) ends
  simp only [singleTurn, Option.some.injEq, Prod.mk.injEq] at turned
  obtain ⟨rfl, rfl⟩ := turned
  rw [decide_eq_true_iff]
  have iff : ¬ Last block direction x ↔ count block x ≠ 1 :=
    not_congr ⟨count_last noMatch, last_count⟩
  exact ⟨iff, fun more => count_single (iff.mp more)⟩

/-- `LDIR` at 32768 that copies two bytes to 40960. -/
def copier : Machine where
  a := 0
  f := 0
  q := 0
  bc := 2
  de := 0xa000
  hl := 0x9000
  pc := 0x8000
  memptr := 0
  world :=
    { memory := fun address =>
        if address = 0x8000 then 0xed else if address = 0x8001 then 0xb0 else lowByte address
      writable := fun address => decide (0x4000 ≤ address)
      input := fun _ => 0xff
      ports := [] }

theorem copier_clear (address : BitVec 16) (first : address ≠ 0xa000) (second : address ≠ 0xa001) :
    Clear .ldi .up copier address := by
  intro k reached
  rcases k with _ | _ | k
  · exact fun same => first (Option.some.inj same).symm
  · exact fun same => second (Option.some.inj same).symm
  · exact absurd (show Last .ldi .up (ldiLdd .up copier) by decide) (reached 1 (by omega))

theorem repeat_copier :
    ∃ n final final', runTurns (singleTurn .ldi .up) 65536 copier = some (n, final) ∧
      runTurns (repeatTurn .ldi .up) 65536 copier = some (n, final') ∧
      final.Same final' ∧ final'.pc = copier.pc + 2 ∧
      n ≤ count .ldi copier ∧ (Block.ldi ≠ .cpi → n = count .ldi copier) :=
  repeat_eq_single .ldi .up copier (by decide) (copier_clear _ (by decide) (by decide))
    (copier_clear _ (by decide) (by decide))

end FuseX.Z80.Blocks
