import FuseX.If1.Microdrive
import FuseX.Lib.Packed
import Mathlib.Data.List.Induction

/-!
# One drive and its tape

What an access of a port leaves of a drive whose head is within its cartridge, and what a block
is after it has been written: `Drive.Sound` is kept by every access, `writes_block` says what the
bytes behind a preamble do to the tape and `reads_block` what comes back from it.
-/

namespace FuseX.If1

open Lib

variable {κ : Type} {ops : CartridgeOps κ}

/-! ## The head -/

theorem nextHead_within {tapeEnd head : Nat} (some_ : 0 < tapeEnd) :
    nextHead tapeEnd head < tapeEnd := by
  rw [nextHead]
  split <;> omega

theorem nextHead_small {tapeEnd head bound : Nat} (small : head < bound) (short : tapeEnd ≤ bound) :
    nextHead tapeEnd head < bound := by
  rw [nextHead]
  split <;> omega

theorem blockStart_aligned (tapeEnd head : Nat) : Aligned (blockStart tapeEnd head) := by
  fun_induction blockStart tapeEnd head with
  | case1 head aligned => exact aligned
  | case2 head off ih => exact ih

theorem blockStart_small {tapeEnd head bound : Nat} (small : head < bound)
    (short : tapeEnd ≤ bound) : blockStart tapeEnd head < bound := by
  fun_induction blockStart tapeEnd head with
  | case1 head aligned => exact small
  | case2 head off ih => exact ih (nextHead_small small short)

/-- A head that stands in the middle of a block comes back onto the tape. -/
theorem blockStart_within {tapeEnd head : Nat} (some_ : 0 < tapeEnd)
    (returns : head < tapeEnd ∨ ¬ Aligned head) : blockStart tapeEnd head < tapeEnd := by
  fun_induction blockStart tapeEnd head with
  | case1 head aligned => exact returns.resolve_right fun off => off aligned
  | case2 head off ih => exact ih (.inl (nextHead_within some_))

/-- The head is at the start of a block, and so many bytes make up that block. -/
def AtBlock (head maxBytes : Nat) : Prop :=
  head % blockLen = 0 ∧ maxBytes = headLen
    ∨ head % blockLen = headLen ∧ maxBytes = headLen + dataLen + 1

/-- No block goes over the end of the tape. -/
theorem AtBlock.fits {head maxBytes blocks : Nat} (at_ : AtBlock head maxBytes)
    (within : head < blocks * blockLen) : head + maxBytes ≤ blocks * blockLen := by
  simp only [AtBlock, blockLen, headLen, dataLen] at at_ within ⊢
  omega

theorem AtBlock.unique {head maxBytes maxBytes' : Nat} (at_ : AtBlock head maxBytes)
    (at_' : AtBlock head maxBytes') : maxBytes = maxBytes' := by
  simp only [AtBlock, blockLen, headLen, dataLen] at at_ at_'
  omega

theorem AtBlock.positive {head maxBytes : Nat} (at_ : AtBlock head maxBytes) : 0 < maxBytes := by
  simp only [AtBlock, headLen, dataLen] at at_
  omega

theorem atBlock_of_aligned {head : Nat} (aligned : Aligned head) :
    AtBlock head (if head % blockLen = 0 then headLen else headLen + dataLen + 1) := by
  rcases aligned with header | data
  · rw [if_pos header]
    exact .inl ⟨header, rfl⟩
  · rw [if_neg (by rw [data]; decide)]
    exact .inr ⟨data, rfl⟩

/-! ## Drives that are sound -/

/-- What holds of a drive whenever no port is being accessed, for a cartridge that was fit for
the place of the head: it need not be on the tape as long as it will come back first. -/
structure Drive.Sound (ops : CartridgeOps κ) (d : Drive κ) : Prop where
  small : d.headPos < 255 * blockLen
  valid : d.inserted = true → 0 < (ops.cartridgeLen d.cartridge).toNat
    ∧ (ops.cartridgeLen d.cartridge).toNat ≤ blockMax
  within : d.inserted = true → d.headPos < ops.tapeEnd d.cartridge
    ∨ d.motorOn = false ∧ ¬ Aligned d.headPos
  atBlock : d.motorOn = true → d.transfered = 0 → AtBlock d.headPos d.maxBytes

theorem Drive.spins_iff {d : Drive κ} :
    d.spins = true ↔ d.motorOn = true ∧ d.inserted = true := by
  rw [Drive.spins, Bool.and_eq_true]

theorem Drive.Sound.onTape {d : Drive κ} (sound : d.Sound ops) (spins : d.spins = true) :
    d.headPos < ops.tapeEnd d.cartridge := by
  obtain ⟨motor, inserted⟩ := Drive.spins_iff.mp spins
  rcases sound.within inserted with within | ⟨off, -⟩
  · exact within
  · rw [motor] at off
    exact Bool.noConfusion off

theorem Drive.Sound.tapeEnd_pos {d : Drive κ} (sound : d.Sound ops) (spins : d.spins = true) :
    0 < ops.tapeEnd d.cartridge := Nat.zero_lt_of_lt (sound.onTape spins)

theorem tapeEnd_short (c : κ) : ops.tapeEnd c ≤ 255 * blockLen := by
  have byte := (ops.cartridgeLen c).toNat_lt
  rw [CartridgeOps.tapeEnd]
  exact Nat.mul_le_mul_right _ (by omega)

/-- The index of a preamble is within the table. -/
theorem Drive.Sound.block_lt {d : Drive κ} (sound : d.Sound ops) : d.block < 512 := by
  have small := sound.small
  simp only [blockLen, headLen, dataLen] at small
  rw [Drive.block]
  split <;> omega

/-- A drive is sound after its head has moved on, or stays where it is. -/
theorem Drive.Sound.moved {d d' : Drive κ} (sound : d.Sound ops) (spins : d.spins = true)
    (inserted : d'.inserted = d.inserted)
    (len : ops.cartridgeLen d'.cartridge = ops.cartridgeLen d.cartridge)
    (head : d'.headPos = d.headPos ∨ d'.headPos = nextHead (ops.tapeEnd d.cartridge) d.headPos)
    (begun : d'.transfered ≠ 0) : d'.Sound ops := by
  have onTape := sound.onTape spins
  have same : ops.tapeEnd d'.cartridge = ops.tapeEnd d.cartridge := by
    rw [CartridgeOps.tapeEnd, len, CartridgeOps.tapeEnd]
  have onTape' : d'.headPos < ops.tapeEnd d'.cartridge := by
    rw [same]
    rcases head with stays | moves
    · rw [stays]
      exact onTape
    · rw [moves]
      exact nextHead_within (sound.tapeEnd_pos spins)
  refine ⟨Nat.lt_of_lt_of_le onTape' (tapeEnd_short _), ?_, fun _ => .inl onTape', ?_⟩
  · intro isIn
    rw [len]
    exact sound.valid (inserted ▸ isIn)
  · intro _ start
    exact absurd start begun

theorem Drive.Sound.mdrIn {d : Drive κ} (sound : d.Sound ops) : (d.mdrIn ops).1.Sound ops := by
  rw [Drive.mdrIn]
  split
  · next spins =>
    split
    · exact sound.moved spins rfl rfl (.inr rfl) (Nat.succ_ne_zero _)
    · exact sound.moved spins rfl rfl (.inl rfl) (Nat.succ_ne_zero _)
  · exact sound

theorem tapeEnd_setData (lawful : ops.Lawful) (c : κ) (i : Nat) (v : UInt8) :
    ops.tapeEnd (ops.setData c i v) = ops.tapeEnd c := by
  rw [CartridgeOps.tapeEnd, lawful.len_setData, CartridgeOps.tapeEnd]

theorem Drive.Sound.mdrOut (lawful : ops.Lawful) {d : Drive κ} (sound : d.Sound ops)
    (val : UInt8) : (d.mdrOut ops val).Sound ops := by
  rw [Drive.mdrOut]
  split
  · next spins =>
    split
    · refine sound.moved spins rfl (lawful.len_setData _ _ _) (.inr ?_) (Nat.succ_ne_zero _)
      exact congrArg (nextHead · d.headPos) (tapeEnd_setData lawful _ _ _)
    · exact sound.moved spins rfl rfl (.inl rfl) (Nat.succ_ne_zero _)
  · exact sound

/-- What `port_ctr_in` leaves as it was. -/
theorem ctrIn_same (d : Drive κ) : ∃ gap sync, (d.ctrIn ops).1 = { d with gap, sync } := by
  rw [Drive.ctrIn]
  split
  · dsimp only
    split
    · split
      · exact ⟨_, _, rfl⟩
      · split
        · exact ⟨_, _, rfl⟩
        · exact ⟨_, _, rfl⟩
    · exact ⟨_, _, rfl⟩
  · exact ⟨_, _, rfl⟩

/-- Whatever the motor does, the heads are put at the start of a block. -/
theorem Drive.Sound.restart {d : Drive κ} (sound : d.Sound ops) (motorOn : Bool) (gap sync : UInt8) :
    (Drive.restart ops { d with motorOn, gap, sync }).Sound ops := by
  refine ⟨blockStart_small sound.small (tapeEnd_short _), sound.valid, ?_, ?_⟩
  · intro inserted
    have some_ : 0 < ops.tapeEnd d.cartridge :=
      Nat.mul_pos (sound.valid inserted).1 (by decide)
    refine .inl (blockStart_within some_ ?_)
    rcases sound.within inserted with within | ⟨-, off⟩
    · exact .inl within
    · exact .inr off
  · intro _ _
    exact atBlock_of_aligned (blockStart_aligned _ _)

/-! ## Writing a block -/

/-- `PREAMBLE`: ten bytes 0 and two bytes 0xff -/
def preamble : List UInt8 := List.replicate 10 0 ++ List.replicate 2 0xff

def Drive.mdrOuts (ops : CartridgeOps κ) (d : Drive κ) (vals : List UInt8) : Drive κ :=
  vals.foldl (fun d val => d.mdrOut ops val) d

theorem mdrOuts_append (d : Drive κ) (front back : List UInt8) :
    d.mdrOuts ops (front ++ back) = (d.mdrOuts ops front).mdrOuts ops back := List.foldl_append

/-- A byte before the block goes into the table only. -/
theorem mdrOut_early {d : Drive κ} (spins : d.spins = true) (early : d.transfered < 12)
    (val : UInt8) :
    d.mdrOut ops val = { d with pream := d.preamOut val, transfered := d.transfered + 1 } := by
  have stays : d.puts = false := by
    rw [Drive.puts, decide_eq_false (by omega), Bool.and_false, Bool.false_and]
  rw [Drive.mdrOut, if_pos spins, stays]
  rfl

/-- The drive after so many bytes of a preamble. -/
def Drive.marked (d : Drive κ) (n : Nat) : Drive κ :=
  { d with pream := Function.update d.pream d.block (UInt8.ofNat n), transfered := n }

theorem mdrOut_marked {d : Drive κ} (spins : d.spins = true) {n : Nat} (some_ : 0 < n)
    {val : UInt8} (next : n < 10 ∧ val = 0 ∨ 9 < n ∧ n < 12 ∧ val = 0xff) :
    (d.marked n).mdrOut ops val = d.marked (n + 1) := by
  have spins' : (d.marked n).spins = true := spins
  have early : (d.marked n).transfered < 12 := by
    change n < 12
    omega
  have counts : (d.marked n).preamOut val
      = Function.update (d.marked n).pream d.block ((d.marked n).pream d.block + 1) := by
    rw [Drive.preamOut, if_neg fun first => Nat.ne_of_gt some_ first.1]
    rcases next with ⟨zeros, isZero⟩ | ⟨ten, twelve, isFf⟩
    · exact if_pos ⟨some_, zeros, isZero⟩
    · rw [if_neg fun zero => absurd (isFf.symm.trans zero.2.2) (by decide)]
      exact if_pos ⟨ten, twelve, isFf⟩
  have number : (d.marked n).pream d.block + 1 = UInt8.ofNat (n + 1) := by
    change Function.update d.pream d.block (UInt8.ofNat n) d.block + 1 = _
    rw [Function.update_self, UInt8.ofNat_add]
    rfl
  rw [mdrOut_early spins' early, counts, number]
  simp only [Drive.marked, Function.update_idem]

theorem mdrOuts_zeros {d : Drive κ} (spins : d.spins = true) (start : d.transfered = 0) {n : Nat}
    (few : n < 10) : d.mdrOuts ops (List.replicate (n + 1) 0) = d.marked (n + 1) := by
  induction n with
  | zero =>
    change d.mdrOut ops 0 = _
    rw [mdrOut_early spins (by omega), Drive.preamOut, if_pos ⟨start, rfl⟩, start]
    rfl
  | succ n ih =>
    rw [List.replicate_succ', mdrOuts_append, ih (by omega)]
    exact mdrOut_marked spins (Nat.succ_pos n) (.inl ⟨few, rfl⟩)

/-- A preamble from the start of a block goes into the table only. -/
theorem mdrOuts_preamble {d : Drive κ} (spins : d.spins = true) (start : d.transfered = 0) :
    d.mdrOuts ops preamble = d.marked 12 := by
  rw [preamble, mdrOuts_append, mdrOuts_zeros spins start (by omega)]
  change ((d.marked 10).mdrOut ops 0xff).mdrOut ops 0xff = _
  rw [mdrOut_marked spins (by omega) (.inr ⟨by omega, by omega, rfl⟩),
    mdrOut_marked spins (by omega) (.inr ⟨by omega, by omega, rfl⟩)]

/-- A byte of the block goes on the tape under the head. -/
theorem mdrOut_data {d : Drive κ} (puts : d.puts = true) (val : UInt8) :
    d.mdrOut ops val
      = { d with
          pream := d.preamOut val
          cartridge := ops.setData d.cartridge d.headPos val
          modified := true
          headPos := nextHead (ops.tapeEnd (ops.setData d.cartridge d.headPos val)) d.headPos
          transfered := d.transfered + 1 } := by
  have spins : d.spins = true := by
    rw [Drive.puts, Bool.and_eq_true, Bool.and_eq_true] at puts
    exact puts.1.1
  rw [Drive.mdrOut, if_pos spins]
  dsimp only
  rw [if_pos puts]
  rfl

theorem data_setData (lawful : ops.Lawful) {c : κ} (open_ : ops.writeProtect c = false) {i : Nat}
    (within : i < blockMax * blockLen) (v : UInt8) :
    ops.data (ops.setData c i v) = overwrite (ops.data c) i [v] := by
  funext place
  rw [lawful.data_setData c i v place open_ within]
  by_cases here : place = i
  · rw [if_pos here, here, overwrite_from (Nat.le_refl i), Nat.sub_self]
    rfl
  · rw [if_neg here, overwrite_elsewhere]
    rintro ⟨low, high⟩
    rw [List.length_singleton] at high
    omega

/-- What the bytes behind a preamble have done to a drive and its tape. -/
structure Wrote (ops : CartridgeOps κ) (d d' : Drive κ) (bytes : List UInt8) : Prop where
  data : ops.data d'.cartridge = overwrite (ops.data d.cartridge) d.headPos bytes
  len : ops.cartridgeLen d'.cartridge = ops.cartridgeLen d.cartridge
  open_ : ops.writeProtect d'.cartridge = false
  spins : d'.spins = true
  maxBytes : d'.maxBytes = d.maxBytes
  transfered : d'.transfered = 12 + bytes.length
  head : d.headPos + bytes.length < ops.tapeEnd d.cartridge →
    d'.headPos = d.headPos + bytes.length
  pream : d'.pream = Function.update d.pream d.block (if bytes = [] then 12 else syncOk)

/-- The bytes of a block go on the tape one behind the other, and mark the block as formatted. -/
theorem writes_block (lawful : ops.Lawful) {d : Drive κ} (spins : d.spins = true)
    (open_ : ops.writeProtect d.cartridge = false)
    (short : (ops.cartridgeLen d.cartridge).toNat ≤ blockMax)
    (onTape : d.headPos < ops.tapeEnd d.cartridge) {bytes : List UInt8}
    (few : bytes.length ≤ d.maxBytes)
    (room : d.headPos + bytes.length ≤ ops.tapeEnd d.cartridge) :
    Wrote ops d ((d.marked 12).mdrOuts ops bytes) bytes := by
  induction bytes using List.reverseRec with
  | nil =>
    refine ⟨(overwrite_nil _).symm, rfl, open_, spins, rfl, rfl, fun _ => rfl, ?_⟩
    rw [if_pos rfl]
    rfl
  | append_singleton bytes v ih =>
    rw [List.length_append, List.length_singleton] at few room
    have wrote := ih (by omega) (by omega)
    rw [mdrOuts_append]
    generalize (d.marked 12).mdrOuts ops bytes = d' at wrote
    change Wrote ops d (d'.mdrOut ops v) (bytes ++ [v])
    have head : d'.headPos = d.headPos + bytes.length := wrote.head (by omega)
    have puts : d'.puts = true := by
      rw [Drive.puts, wrote.spins, wrote.transfered, wrote.maxBytes, decide_eq_true (by omega),
        decide_eq_true (by omega)]
      rfl
    have onTape' : d'.headPos < blockMax * blockLen := by
      have end_ : ops.tapeEnd d.cartridge ≤ blockMax * blockLen := Nat.mul_le_mul_right _ short
      omega
    have end_ : ops.tapeEnd (ops.setData d'.cartridge d'.headPos v) = ops.tapeEnd d.cartridge := by
      rw [tapeEnd_setData lawful, CartridgeOps.tapeEnd, wrote.len, CartridgeOps.tapeEnd]
    have pream : d'.preamOut v = Function.update d.pream d.block syncOk := by
      have pream := wrote.pream
      have late := wrote.transfered
      rw [Drive.preamOut, if_neg (by omega), if_neg (by omega), if_neg (by omega)]
      by_cases first : bytes = []
      · rw [if_pos first] at pream
        rw [first, List.length_nil] at late head
        have block : d'.block = d.block := by
          rw [Drive.block, head, wrote.maxBytes]
          rfl
        rw [block, pream, if_pos ⟨late, Function.update_self _ _ _⟩, Function.update_idem]
      · have some_ : 0 < bytes.length := List.length_pos_iff.mpr first
        rw [if_neg first] at pream
        rw [if_neg (by omega), pream]
    rw [mdrOut_data puts, pream, end_]
    refine ⟨?_, ?_, ?_, wrote.spins, wrote.maxBytes, ?_, ?_, ?_⟩
    · rw [data_setData lawful wrote.open_ onTape', wrote.data, head, overwrite_append]
    · exact (lawful.len_setData _ _ _).trans wrote.len
    · exact (lawful.writeProtect_setData _ _ _).trans wrote.open_
    · dsimp only
      rw [wrote.transfered, List.length_append]
      rfl
    · intro more
      rw [List.length_append, List.length_singleton] at more ⊢
      dsimp only
      rw [nextHead, head, if_neg (by omega)]
      omega
    · rw [if_neg (List.append_ne_nil_of_right_ne_nil _ (List.cons_ne_nil _ _))]

/-! ## Reading a block -/

def Drive.mdrIns (ops : CartridgeOps κ) (d : Drive κ) : Nat → Drive κ
  | 0 => d
  | n + 1 => ((d.mdrIns ops n).mdrIn ops).1

/-- A drive that is being read. -/
structure Reads (ops : CartridgeOps κ) (d d' : Drive κ) (n : Nat) : Prop where
  cartridge : d'.cartridge = d.cartridge
  spins : d'.spins = true
  maxBytes : d'.maxBytes = d.maxBytes
  transfered : d'.transfered = n
  head : d.headPos + n < ops.tapeEnd d.cartridge → d'.headPos = d.headPos + n

/-- The drive answers with the byte under the head. -/
theorem mdrIn_data {d : Drive κ} (spins : d.spins = true) (more : d.transfered < d.maxBytes) :
    d.mdrIn ops
      = ({ d with
            last := ops.data d.cartridge d.headPos
            headPos := nextHead (ops.tapeEnd d.cartridge) d.headPos
            transfered := d.transfered + 1 }, ops.data d.cartridge d.headPos) := by
  rw [Drive.mdrIn, if_pos spins]
  dsimp only
  rw [if_pos more]
  rfl

theorem mdrIns_reads {d : Drive κ} (spins : d.spins = true) (start : d.transfered = 0) {n : Nat}
    (few : n ≤ d.maxBytes) (room : d.headPos + n ≤ ops.tapeEnd d.cartridge) :
    Reads ops d (d.mdrIns ops n) n := by
  induction n with
  | zero => exact ⟨rfl, spins, rfl, start, fun _ => rfl⟩
  | succ n ih =>
    have reads := ih (by omega) (by omega)
    rw [Drive.mdrIns]
    generalize d.mdrIns ops n = d' at reads
    rw [mdrIn_data reads.spins (by rw [reads.transfered, reads.maxBytes]; omega)]
    refine ⟨reads.cartridge, reads.spins, reads.maxBytes, ?_, fun more => ?_⟩
    · exact congrArg (· + 1) reads.transfered
    · dsimp only
      rw [reads.cartridge, reads.head (by omega), nextHead, if_neg (by omega)]
      omega

/-- From the start of a block the drive answers with the bytes of the block in their order. -/
theorem reads_block {d : Drive κ} (spins : d.spins = true) (start : d.transfered = 0)
    (room : d.headPos + d.maxBytes ≤ ops.tapeEnd d.cartridge) {n : Nat} (inside : n < d.maxBytes) :
    ((d.mdrIns ops n).mdrIn ops).2 = ops.data d.cartridge (d.headPos + n) := by
  have reads : Reads ops d (d.mdrIns ops n) n :=
    mdrIns_reads spins start (Nat.le_of_lt inside) (by omega)
  rw [mdrIn_data reads.spins (by rw [reads.transfered, reads.maxBytes]; exact inside),
    reads.cartridge, reads.head (by omega)]

end FuseX.If1
