import FuseX.Lib.Runs
import FuseX.Lib.Spool
import FuseX.Nic.Enc28j60

/-!
# The receive area as a queue of frames

The receive area is a ring; each frame is written behind the one before, with the address of the
next one in front of it. The controller does not look at `ERXRDPT`: what the guest has given back
is a ghost, the frames still held are a `Spooled` each.

* `Sound` is the invariant: the area has the held frames, linked to one another and to `ERXWRPT`;
* `poll_stores` says what a frame does to the area, `clock_quiet` that SPI leaves it alone;
* `Reading` follows the bits of a frame through the read pointer.
-/

namespace FuseX.Nic.SpeccyBoot

open Lib

/-! ## Registers -/

theorem Enc28j60.getPtrReg_lt (s : Enc28j60) (register : Nat) : s.getPtrReg register < 0x2000 := by
  have high : (s.registers 0 (register + 1) &&& 0x1f).toNat ≤ 0x1f := by
    rw [UInt8.toNat_and]
    exact Nat.and_le_right
  have low := (s.registers 0 register).toNat_lt
  rw [Enc28j60.getPtrReg]
  omega

/-- The pointers of two controllers whose bytes are the same. -/
theorem getPtrReg_congr {s s' : Enc28j60} {register : Nat}
    (low : s'.registers 0 register = s.registers 0 register)
    (high : s'.registers 0 (register + 1) = s.registers 0 (register + 1)) :
    s'.getPtrReg register = s.getPtrReg register := by
  rw [Enc28j60.getPtrReg, Enc28j60.getPtrReg, low, high]

theorem getPtrReg_same {s s' : Enc28j60} (same : s'.registers = s.registers) (register : Nat) :
    s'.getPtrReg register = s.getPtrReg register := by
  rw [Enc28j60.getPtrReg, Enc28j60.getPtrReg, same]

theorem setRegister_ne {s : Enc28j60} {bank register bank' register' : Nat} {value : UInt8}
    (differs : ¬ (bank' = bank ∧ register' = register)) :
    (s.setRegister bank register value).registers bank' register' = s.registers bank' register' :=
  if_neg differs

theorem setRegister_self (s : Enc28j60) (bank register : Nat) (value : UInt8) :
    (s.setRegister bank register value).registers bank register = value :=
  if_pos ⟨rfl, rfl⟩

@[simp] theorem setRegister_sram (s : Enc28j60) (bank register : Nat) (value : UInt8) :
    (s.setRegister bank register value).sram = s.sram := rfl

@[simp] theorem setPtrReg_sram (s : Enc28j60) (register value : Nat) :
    (s.setPtrReg register value).sram = s.sram := rfl

theorem getPtrReg_setRegister {s : Enc28j60} {bank register register' : Nat} {value : UInt8}
    (low : ¬ (bank = 0 ∧ register = register')) (high : ¬ (bank = 0 ∧ register = register' + 1)) :
    (s.setRegister bank register value).getPtrReg register' = s.getPtrReg register' := by
  apply getPtrReg_congr
  · exact setRegister_ne (by omega)
  · exact setRegister_ne (by omega)

theorem getPtrReg_setPtrReg {s : Enc28j60} {register register' value : Nat}
    (apart : register + 1 < register' ∨ register' + 1 < register) :
    (s.setPtrReg register value).getPtrReg register' = s.getPtrReg register' := by
  rw [Enc28j60.setPtrReg, getPtrReg_setRegister (by omega) (by omega),
    getPtrReg_setRegister (by omega) (by omega)]

/-- A pointer keeps thirteen bits of what is stored. -/
theorem getPtrReg_stored (s : Enc28j60) (register value : Nat) :
    (s.setPtrReg register value).getPtrReg register = value % 0x2000 := by
  have low : (s.setPtrReg register value).registers 0 register = UInt8.ofNat value :=
    setRegister_self _ _ _ _
  have high : (s.setPtrReg register value).registers 0 (register + 1) =
      UInt8.ofNat (value / 0x100) := by
    rw [Enc28j60.setPtrReg, setRegister_ne (by omega), setRegister_self]
  have mask : (0x1f : UInt8).toNat = 2 ^ 5 - 1 := rfl
  rw [Enc28j60.getPtrReg, low, high, UInt8.toNat_and, mask, Nat.and_two_pow_sub_one_eq_mod,
    UInt8.toNat_ofNat', UInt8.toNat_ofNat']
  omega

/-! ## The receive area -/

/-- The number of bytes from `ERXST` to `ERXND`. -/
def areaSize (st nd : Nat) : Nat := nd - st + 1

/-- The bytes of the area. -/
def area (st : Nat) (s : Enc28j60) : Nat → UInt8 := fun i => s.sram (st + i)

/-- The even number: at least the status and the frame, and at most a byte more. -/
theorem totalLength_bounds {n : Nat} (short : n ≤ ethMax) :
    ethStatusLength + n ≤ totalLength n ∧ totalLength n ≤ ethStatusLength + n + 1 := by
  have short' : ethStatusLength + n + 1 < 0x2000 := by
    rw [ethMax] at short
    rw [ethStatusLength]
    omega
  have high : totalLength n / 2 ^ 1 = (ethStatusLength + n + 1) / 2 := by
    have mask : 0x1ffe / 2 ^ 1 = 2 ^ 12 - 1 := rfl
    rw [totalLength, Nat.and_div_two_pow, mask, Nat.and_two_pow_sub_one_eq_mod, Nat.pow_one,
      Nat.mod_eq_of_lt (by omega)]
  have low : totalLength n % 2 ^ 1 = 0 := by
    rw [totalLength, Nat.and_mod_two_pow]
    exact Nat.and_zero _
  omega

theorem length_buffered (buffer : Nat → UInt8) (start count : Nat) :
    (buffered buffer start count).length = count := by
  rw [buffered, List.length_map, List.length_range]

theorem buffered_append (buffer : Nat → UInt8) (start first rest : Nat) :
    buffered buffer start (first + rest) =
      buffered buffer start first ++ buffered buffer (start + first) rest := by
  rw [buffered, buffered, buffered, List.range_add, List.map_append, List.map_map]
  simp only [Function.comp_def, Nat.add_assoc]

/-- What is put into the area for a frame. -/
def frameRecord (s : Enc28j60) (frame : List UInt8) : List UInt8 :=
  let received := frame.take ethMax
  buffered (statusBuffer (overwrite s.ethRxBuf ethStatusLength received)
    (nextAddr s received.length)) 0 (totalLength received.length)

/-- How far behind a frame the next one begins: a byte further where the area's end is reached. -/
def frameSpan (s : Enc28j60) (frame : List UInt8) : Nat :=
  let total := totalLength (frame.take ethMax).length
  if s.getPtrReg erxnd < s.getPtrReg erxwrpt + total then total + 1 else total

def spooledFrame (s : Enc28j60) (frame : List UInt8) : Spooled UInt8 where
  record := frameRecord s frame
  span := frameSpan s frame
  fits := by
    rw [frameRecord, length_buffered, frameSpan]
    split
    · exact Nat.le_succ _
    · exact Nat.le_refl _

/-- The address of the next frame, as a frame has it. -/
def nextOf (record : List UInt8) : Nat :=
  (record.getD 0 0).toNat + (record.getD 1 0).toNat * 0x100

/-! ## Arrivals -/

/-- The receive area that the guest has set up. -/
structure Configured (st nd : Nat) (s : Enc28j60) : Prop where
  first : s.getPtrReg erxst = st
  last : s.getPtrReg erxnd = nd
  order : st ≤ nd

/-- A frame that comes is stored. -/
def Stores (s : Enc28j60) (frame : List UInt8) : Prop :=
  (s.listens ∧ frame ≠ []) ∧ ¬ s.getPtrReg erxnd < s.getPtrReg erxwrpt

/-- The memory with a frame in it. -/
def storeFrame (s : Enc28j60) (frame : List UInt8) : Nat → UInt8 :=
  let record := frameRecord s frame
  let wrpt := s.getPtrReg erxwrpt
  let nd := s.getPtrReg erxnd
  if nd < wrpt + record.length then
    overwrite (overwrite s.sram wrpt (record.take (nd - wrpt + 1))) (s.getPtrReg erxst)
      (record.drop (nd - wrpt + 1))
  else overwrite s.sram wrpt record

theorem buffered_take (buffer : Nat → UInt8) {first count : Nat} (within : first ≤ count) :
    (buffered buffer 0 count).take first = buffered buffer 0 first ∧
      (buffered buffer 0 count).drop first = buffered buffer first (count - first) := by
  have whole := buffered_append buffer 0 first (count - first)
  rw [Nat.add_sub_cancel' within, Nat.zero_add] at whole
  have length := length_buffered buffer 0 first
  rw [whole]
  constructor
  · rw [List.take_append_of_le_length length.ge, List.take_of_length_le length.le]
  · rw [List.drop_append_of_le_length length.ge, List.drop_of_length_le length.le,
      List.nil_append]

theorem length_frameRecord (s : Enc28j60) (frame : List UInt8) :
    (frameRecord s frame).length = totalLength (frame.take ethMax).length :=
  length_buffered _ _ _

/-- The receive buffer with a frame that has come. -/
def frameBuffer (s : Enc28j60) (frame : List UInt8) : Nat → UInt8 :=
  statusBuffer (overwrite s.ethRxBuf ethStatusLength (frame.take ethMax))
    (nextAddr s (frame.take ethMax).length)

/-- The two copies of a poll are the record in two parts. -/
theorem storeFrame_eq (s : Enc28j60) (frame : List UInt8) (within : ¬ s.getPtrReg erxnd <
    s.getPtrReg erxwrpt) :
    storeFrame s frame =
      let wrpt := s.getPtrReg erxwrpt
      let nd := s.getPtrReg erxnd
      let total := totalLength (frame.take ethMax).length
      if nd < wrpt + total then
        overwrite (overwrite s.sram wrpt (buffered (frameBuffer s frame) 0 (nd - wrpt + 1)))
          (s.getPtrReg erxst)
          (buffered (frameBuffer s frame) (nd - wrpt + 1) (total - (nd - wrpt + 1)))
      else overwrite s.sram wrpt (buffered (frameBuffer s frame) 0 total) := by
  rw [storeFrame, length_frameRecord]
  dsimp only
  split
  · obtain ⟨front, back⟩ := @buffered_take (frameBuffer s frame)
      (s.getPtrReg erxnd - s.getPtrReg erxwrpt + 1) (totalLength (frame.take ethMax).length)
      (by omega)
    rw [← front, ← back]
    rfl
  · rfl

theorem poll_eq {s : Enc28j60} {frame : List UInt8} (stores : Stores s frame) :
    s.poll frame =
      ((({ s with ethRxBuf := frameBuffer s frame, sram := storeFrame s frame } : Enc28j60)).setPtrReg
        erxwrpt (nextAddr s (frame.take ethMax).length)).setRegister 1 epktcnt
          (s.registers 1 epktcnt + 1) := by
  rw [Enc28j60.poll, if_pos stores.1, storeFrame_eq s frame stores.2]
  exact if_neg stores.2

theorem poll_sram {s : Enc28j60} {frame : List UInt8} (stores : Stores s frame) :
    (s.poll frame).sram = storeFrame s frame := by
  rw [poll_eq stores, setRegister_sram, setPtrReg_sram]

theorem poll_pointer {s : Enc28j60} {frame : List UInt8} (stores : Stores s frame) :
    (s.poll frame).getPtrReg erxwrpt = nextAddr s (frame.take ethMax).length % 0x2000 := by
  rw [poll_eq stores, getPtrReg_setRegister (by decide) (by decide), getPtrReg_stored]

/-- A poll that stores nothing has at most read a frame into its buffer. -/
theorem poll_refused {s : Enc28j60} {frame : List UInt8} (refuses : ¬ Stores s frame) :
    ∃ buffer, s.poll frame = { s with ethRxBuf := buffer } := by
  rw [Enc28j60.poll]
  split
  · rename_i heard
    have full : s.getPtrReg erxnd < s.getPtrReg erxwrpt := by
      by_contra inside
      exact refuses ⟨heard, inside⟩
    exact ⟨_, if_pos full⟩
  · exact ⟨s.ethRxBuf, rfl⟩

/-- A poll leaves the other pointers and the SPI state as they are. -/
theorem poll_keeps (s : Enc28j60) (frame : List UInt8) :
    (∀ register, register + 1 < erxwrpt →
        (s.poll frame).getPtrReg register = s.getPtrReg register) ∧
      (s.poll frame).spiState = s.spiState ∧ (s.poll frame).misoBits = s.misoBits ∧
      (s.poll frame).misoValidBits = s.misoValidBits := by
  by_cases stores : Stores s frame
  · rw [poll_eq stores]
    refine ⟨fun register apart => ?_, rfl, rfl, rfl⟩
    rw [getPtrReg_setRegister (by omega) (by omega), getPtrReg_setPtrReg (.inr apart)]
    rfl
  · obtain ⟨buffer, result⟩ := poll_refused stores
    rw [result]
    exact ⟨fun _ _ => rfl, rfl, rfl, rfl⟩

/-! ### A frame in the area -/

/-- Memory behind the start of the area. -/
theorem overwrite_shift (memory : Nat → UInt8) (st place : Nat) (items : List UInt8) (i : Nat) :
    overwrite memory (st + place) items (st + i) =
      overwrite (fun i => memory (st + i)) place items i := by
  rw [overwrite, overwrite]
  by_cases low : place ≤ i
  · rw [if_pos (by omega), if_pos low]
    congr 2
    omega
  · rw [if_neg (by omega), if_neg low]

variable {st nd : Nat} {s : Enc28j60} {frame : List UInt8}

/-- A frame that is no longer than the area is written to the ring of the area. -/
theorem area_poll (config : Configured st nd s) (low : st ≤ s.getPtrReg erxwrpt)
    (stores : Stores s frame) :
    area st (s.poll frame) =
      ringWrite (areaSize st nd) (area st s) (s.getPtrReg erxwrpt - st) (frameRecord s frame) := by
  have inside := stores.2
  rw [config.last] at inside
  have order := config.order
  have place : st + (s.getPtrReg erxwrpt - st) = s.getPtrReg erxwrpt := by omega
  have first : nd - s.getPtrReg erxwrpt + 1 = areaSize st nd - (s.getPtrReg erxwrpt - st) := by
    rw [areaSize]
    omega
  have shifted : ∀ (memory : Nat → UInt8) (items : List UInt8) (i : Nat),
      overwrite memory (s.getPtrReg erxwrpt) items (st + i) =
        overwrite (fun i => memory (st + i)) (s.getPtrReg erxwrpt - st) items i := by
    intro memory items i
    rw [← overwrite_shift, place]
  funext i
  rw [area, poll_sram stores, storeFrame, config.last, config.first, first, ringWrite]
  by_cases wraps : s.getPtrReg erxwrpt - st + (frameRecord s frame).length ≤ areaSize st nd
  · rw [if_pos wraps]
    split
    · -- the record ends where the area ends: the second part is empty
      rw [List.drop_of_length_le (by omega), overwrite_nil, List.take_of_length_le (by omega)]
      exact shifted _ _ _
    · exact shifted _ _ _
  · have reaches : nd < s.getPtrReg erxwrpt + (frameRecord s frame).length := by
      rw [areaSize] at wraps
      omega
    rw [if_neg wraps, if_pos reaches]
    have second := overwrite_shift (overwrite s.sram (s.getPtrReg erxwrpt)
      ((frameRecord s frame).take (areaSize st nd - (s.getPtrReg erxwrpt - st)))) st 0
      ((frameRecord s frame).drop (areaSize st nd - (s.getPtrReg erxwrpt - st))) i
    rw [Nat.add_zero] at second
    rw [second]
    congr 1
    funext j
    exact shifted _ _ _

/-- Nothing is written outside the area. -/
theorem poll_outside (config : Configured st nd s) (low : st ≤ s.getPtrReg erxwrpt)
    (fits : totalLength (frame.take ethMax).length ≤ areaSize st nd) {place : Nat}
    (outside : ¬ (st ≤ place ∧ place ≤ nd)) : (s.poll frame).sram place = s.sram place := by
  by_cases stores : Stores s frame
  · have inside := stores.2
    rw [config.last] at inside
    rw [← length_frameRecord s frame, areaSize] at fits
    rw [poll_sram stores, storeFrame, config.last, config.first]
    split
    · rename_i wraps
      rw [overwrite_elsewhere, overwrite_elsewhere]
      · rw [List.length_take]
        omega
      · rw [List.length_drop]
        omega
    · rename_i within
      rw [overwrite_elsewhere]
      omega
  · obtain ⟨buffer, result⟩ := poll_refused stores
    rw [result]

/-- The frame leads to the next one, and so does the write pointer. -/
theorem nextAddr_eq (config : Configured st nd s) (low : st ≤ s.getPtrReg erxwrpt)
    (stores : Stores s frame) (fits : totalLength (frame.take ethMax).length ≤ areaSize st nd)
    (notEdge : ¬ (s.getPtrReg erxwrpt = nd ∧
      totalLength (frame.take ethMax).length = areaSize st nd)) :
    nextAddr s (frame.take ethMax).length =
      st + (s.getPtrReg erxwrpt - st + frameSpan s frame) % areaSize st nd := by
  have inside := stores.2
  rw [config.last] at inside
  rw [nextAddr, frameSpan, config.last, config.first]
  rw [areaSize] at fits notEdge ⊢
  split
  · -- the pointer goes a byte behind where the frame ends
    have place : s.getPtrReg erxwrpt - st + (totalLength (frame.take ethMax).length + 1) =
        s.getPtrReg erxwrpt + totalLength (frame.take ethMax).length - nd + (nd - st + 1) := by
      omega
    rw [place, Nat.add_mod_right, Nat.mod_eq_of_lt (by omega)]
    omega
  · rw [Nat.mod_eq_of_lt (by omega)]
    omega

theorem nextOf_record (s : Enc28j60) (frame : List UInt8)
    (small : nextAddr s (frame.take ethMax).length < 0x10000) :
    nextOf (frameRecord s frame) = nextAddr s (frame.take ethMax).length := by
  have bounds := totalLength_bounds (List.length_take_le ethMax frame)
  have byte : ∀ k < 6, (frameRecord s frame).getD k 0 = frameBuffer s frame k := by
    intro k early
    rw [ethStatusLength] at bounds
    rw [frameRecord, buffered, List.getD_eq_getElem?_getD, List.getElem?_map,
      List.getElem?_range (by omega), Option.map_some, Option.getD_some, Nat.zero_add]
    rfl
  have low : frameBuffer s frame 0 = UInt8.ofNat (nextAddr s (frame.take ethMax).length) := rfl
  have high : frameBuffer s frame 1 =
      UInt8.ofNat (nextAddr s (frame.take ethMax).length / 0x100) := rfl
  rw [nextOf, byte 0 (by omega), byte 1 (by omega), low, high, UInt8.toNat_ofNat',
    UInt8.toNat_ofNat']
  omega

theorem buffered_congr {buffer buffer' : Nat → UInt8} {start count : Nat}
    (same : ∀ i < count, buffer (start + i) = buffer' (start + i)) :
    buffered buffer start count = buffered buffer' start count := by
  rw [buffered, buffered]
  apply List.map_congr_left
  intro i member
  exact same i (List.mem_range.mp member)

theorem buffered_overwrite (buffer : Nat → UInt8) (start : Nat) (items : List UInt8) :
    buffered (overwrite buffer start items) start items.length = items := by
  apply List.ext_getElem
  · rw [length_buffered]
  · intro i inside _
    rw [length_buffered] at inside
    simp only [buffered, List.getElem_map, List.getElem_range]
    rw [overwrite_from (by omega), Nat.add_sub_cancel_left, List.getElem?_eq_getElem inside,
      Option.getD_some]

/-- What is behind the address in a record: four bytes of the buffer, the frame as far as the
controller reads it, and a byte where the length is odd. -/
theorem frameRecord_eq (s : Enc28j60) (frame : List UInt8) :
    ∃ pad : List UInt8, pad.length ≤ 1 ∧
      frameRecord s frame = (frameRecord s frame).take 2 ++ buffered s.ethRxBuf 2 4 ++
        frame.take ethMax ++ pad := by
  obtain ⟨least, most⟩ := totalLength_bounds (List.length_take_le ethMax frame)
  rw [ethStatusLength] at least most
  have address : (frameRecord s frame).take 2 = buffered (frameBuffer s frame) 0 2 :=
    (buffered_take (frameBuffer s frame) (by omega)).1
  have status : buffered (frameBuffer s frame) 2 4 = buffered s.ethRxBuf 2 4 := by
    apply buffered_congr
    intro i early
    rw [frameBuffer, statusBuffer, overwrite_elsewhere (by
      simp only [List.length_cons, List.length_nil]; omega),
      overwrite_before (by rw [ethStatusLength]; omega)]
  have body : buffered (frameBuffer s frame) 6 (frame.take ethMax).length = frame.take ethMax := by
    have copied := buffered_overwrite s.ethRxBuf ethStatusLength (frame.take ethMax)
    rw [← copied, length_buffered, ethStatusLength]
    apply buffered_congr
    intro i early
    rw [frameBuffer, statusBuffer, overwrite_elsewhere (by
      simp only [List.length_cons, List.length_nil]; omega)]
    rfl
  have parts : totalLength (frame.take ethMax).length = 2 + (4 + ((frame.take ethMax).length +
      (totalLength (frame.take ethMax).length - (6 + (frame.take ethMax).length)))) := by
    omega
  have whole : frameRecord s frame = buffered (frameBuffer s frame) 0
    (totalLength (frame.take ethMax).length) := rfl
  refine ⟨buffered (frameBuffer s frame) (6 + (frame.take ethMax).length)
    (totalLength (frame.take ethMax).length - (6 + (frame.take ethMax).length)), ?_, ?_⟩
  · rw [length_buffered]
    omega
  · rw [address, whole, parts, buffered_append, buffered_append, buffered_append]
    simp only [Nat.zero_add, Nat.reduceAdd, status, body, List.append_assoc]
    rw [← parts]

/-! ## SPI -/

/-- The command of a byte does not reset the controller, does not write a register of the
receive area or its write pointer, and does not write into the area. -/
def ByteLeaves (st nd : Nat) (s : Enc28j60) (byte : UInt8) : Prop :=
  match s.spiState with
  | .cmd => SpiState.ofOpcode (byte >>> 5 &&& 0x07) ≠ .src
  | .wcr | .bfs | .bfc =>
      ¬ (s.currRegisterBank = 0 ∧
        s.currRegister ∈ [erxst, erxst + 1, erxnd, erxnd + 1, erxwrpt, erxwrpt + 1])
  | .wbm => ¬ (st ≤ s.getPtrReg ewrpt ∧ s.getPtrReg ewrpt ≤ nd)
  | _ => True

/-- So does the bit, which is the last one of a byte or not. -/
def LeavesArea (st nd : Nat) (s : Enc28j60) (mosi : Bool) : Prop :=
  s.mosiValidBits + 1 = 8 → ByteLeaves st nd s (s.mosiBits <<< 1 ||| (if mosi then 1 else 0))

/-- The receive area of one controller is that of another: its registers and its bytes. -/
structure SameArea (st nd : Nat) (s s' : Enc28j60) : Prop where
  first : s'.getPtrReg erxst = s.getPtrReg erxst
  last : s'.getPtrReg erxnd = s.getPtrReg erxnd
  write : s'.getPtrReg erxwrpt = s.getPtrReg erxwrpt
  bytes : ∀ place, st ≤ place → place ≤ nd → s'.sram place = s.sram place

namespace SameArea

theorem refl (s : Enc28j60) : SameArea st nd s s := ⟨rfl, rfl, rfl, fun _ _ _ => rfl⟩

theorem trans {s s' s'' : Enc28j60} (one : SameArea st nd s s') (two : SameArea st nd s' s'') :
    SameArea st nd s s'' :=
  ⟨two.first.trans one.first, two.last.trans one.last, two.write.trans one.write,
    fun place low high => (two.bytes place low high).trans (one.bytes place low high)⟩

/-- Registers of other numbers, and what is beside the registers and the memory. -/
theorem of_registers {s s' : Enc28j60} (sram : s'.sram = s.sram)
    (registers : ∀ register ∈ [erxst, erxst + 1, erxnd, erxnd + 1, erxwrpt, erxwrpt + 1],
      s'.registers 0 register = s.registers 0 register) : SameArea st nd s s' where
  first := getPtrReg_congr (registers _ (by simp)) (registers _ (by simp))
  last := getPtrReg_congr (registers _ (by simp)) (registers _ (by simp))
  write := getPtrReg_congr (registers _ (by simp)) (registers _ (by simp))
  bytes := fun _ _ _ => congrFun sram _

theorem setRegister (s : Enc28j60) {bank register : Nat} (value : UInt8)
    (apart : ¬ (bank = 0 ∧
      register ∈ [erxst, erxst + 1, erxnd, erxnd + 1, erxwrpt, erxwrpt + 1])) :
    SameArea st nd s (s.setRegister bank register value) := by
  refine of_registers rfl fun other member => setRegister_ne ?_
  rintro ⟨rfl, rfl⟩
  exact apart ⟨rfl, member⟩

theorem setPtrReg (s : Enc28j60) {register : Nat} (value : Nat) (apart : register + 1 < erxst) :
    SameArea st nd s (s.setPtrReg register value) where
  first := getPtrReg_setPtrReg (.inl apart)
  last := getPtrReg_setPtrReg (.inl (by rw [erxst] at apart; rw [erxnd]; omega))
  write := getPtrReg_setPtrReg (.inl (by rw [erxst] at apart; rw [erxwrpt]; omega))
  bytes := fun _ _ _ => rfl

end SameArea

/-- A bit that is produced changes what is shifted out, and in a memory read the read pointer. -/
theorem produceBit_shape (s : Enc28j60) : ∃ s₁ bits valid,
    (s₁ = s ∨ ∃ value, s₁ = s.setPtrReg erdpt value) ∧
      s.produceBit.2 = { s₁ with misoBits := bits, misoValidBits := valid } := by
  rw [Enc28j60.produceBit]
  by_cases empty : s.misoValidBits = 0
  · rw [if_pos empty]
    rw [Enc28j60.load]
    split
    · exact ⟨s, _, _, .inl rfl, rfl⟩
    · exact ⟨_, _, _, .inr ⟨_, rfl⟩, rfl⟩
    · exact ⟨s, _, _, .inl rfl, rfl⟩
  · rw [if_neg empty]
    exact ⟨s, _, _, .inl rfl, rfl⟩

theorem performSideEffects_quiet (s : Enc28j60) (sent : Bool) :
    SameArea st nd s (s.performSideEffects sent) := by
  have packets : ∀ s : Enc28j60, SameArea st nd s
      (if s.registers 0 econ2 &&& 0x40 ≠ 0 then
        let s := s.setRegister 1 epktcnt (s.registers 1 epktcnt - 1)
        s.setRegister 0 econ2 (s.registers 0 econ2 &&& 0xbf)
      else s) := by
    intro s
    split
    · exact (SameArea.setRegister s _ (by decide)).trans (.setRegister _ _ (by decide))
    · exact .refl s
  rw [Enc28j60.performSideEffects]
  refine .trans ?_ (packets _)
  split
  · refine .trans ?_ (.setRegister _ _ (by decide))
    split
    · exact .of_registers rfl fun _ _ => rfl
    · exact .refl s
  · exact .refl s

theorem writeRegister_quiet {s : Enc28j60} (value : UInt8) (sent : Bool)
    (apart : ¬ (s.currRegisterBank = 0 ∧
      s.currRegister ∈ [erxst, erxst + 1, erxnd, erxnd + 1, erxwrpt, erxwrpt + 1])) :
    SameArea st nd s (s.writeRegister value sent) := by
  have written := @SameArea.setRegister st nd s _ _ value apart
  refine written.trans ((performSideEffects_quiet _ sent).trans ?_)
  exact .of_registers rfl fun _ _ => rfl

theorem consumeByte_quiet {s : Enc28j60} {byte : UInt8} {sent : Bool}
    (leaves : ByteLeaves st nd s byte) :
    SameArea st nd s (s.consumeByte byte sent) := by
  rw [ByteLeaves] at leaves
  rw [Enc28j60.consumeByte]
  cases state : s.spiState with
  | cmd =>
    rw [state] at leaves
    have goes : ¬ (s.setSpiState (.ofOpcode (byte >>> 5 &&& 0x07))).spiState = .src := leaves
    dsimp only
    rw [if_neg goes]
    exact .of_registers rfl fun _ _ => rfl
  | wcr =>
    rw [state] at leaves
    exact writeRegister_quiet _ _ leaves
  | bfs =>
    rw [state] at leaves
    exact writeRegister_quiet _ _ leaves
  | bfc =>
    rw [state] at leaves
    exact writeRegister_quiet _ _ leaves
  | wbm =>
    rw [state] at leaves
    have pointer := @SameArea.setPtrReg st nd
      { s with sram := overwrite s.sram (s.getPtrReg ewrpt) [byte], spiState := .wbm } ewrpt
      (s.getPtrReg ewrpt + 1) (by decide)
    refine SameArea.trans ?_ pointer
    refine ⟨rfl, rfl, rfl, fun place low high => overwrite_elsewhere ?_⟩
    rw [List.length_singleton]
    omega
  | idle => exact .refl s
  | rcr => exact .refl s
  | rbm => exact .refl s
  | unused => exact .refl s
  | src => exact .refl s

/-- The bit is shifted in. -/
def shiftedIn (s : Enc28j60) (mosi : Bool) : Enc28j60 :=
  { s with
    mosiBits := s.mosiBits <<< 1 ||| (if mosi then 1 else 0)
    mosiValidBits := s.mosiValidBits + 1 }

theorem consumeBit_eq (s : Enc28j60) (mosi sent : Bool) :
    s.consumeBit mosi sent =
      if s.mosiValidBits + 1 = 8 then
        { (shiftedIn s mosi).consumeByte (shiftedIn s mosi).mosiBits sent with mosiValidBits := 0 }
      else shiftedIn s mosi := rfl

theorem consumeBit_quiet {mosi sent : Bool} (leaves : LeavesArea st nd s mosi) :
    SameArea st nd s (s.consumeBit mosi sent) := by
  have shifted : SameArea st nd s (shiftedIn s mosi) := .of_registers rfl fun _ _ => rfl
  rw [consumeBit_eq]
  split
  · rename_i full
    have whole := @consumeByte_quiet st nd (shiftedIn s mosi) (shiftedIn s mosi).mosiBits sent
      (leaves full)
    exact (shifted.trans whole).trans (.of_registers rfl fun _ _ => rfl)
  · exact shifted

theorem clock_quiet {mosi sent : Bool} (leaves : LeavesArea st nd s mosi) :
    SameArea st nd s (s.act (.clock mosi sent)) := by
  obtain ⟨s₁, bits, valid, read, shape⟩ := produceBit_shape s
  have same : SameArea st nd s s.produceBit.2 := by
    rw [shape]
    rcases read with rfl | ⟨value, rfl⟩
    · exact .of_registers rfl fun _ _ => rfl
    · exact (@SameArea.setPtrReg st nd s erdpt value (by decide)).trans
        (.of_registers rfl fun _ _ => rfl)
  have leaves' : LeavesArea st nd s.produceBit.2 mosi := by
    rw [shape]
    rcases read with rfl | ⟨value, rfl⟩
    · exact leaves
    · intro full
      have before := leaves full
      have pointer : (s.setPtrReg erdpt value).getPtrReg ewrpt = s.getPtrReg ewrpt :=
        getPtrReg_setPtrReg (.inl (by decide))
      rw [ByteLeaves] at before ⊢
      rw [← pointer] at before
      exact before
  exact same.trans (consumeBit_quiet leaves')

/-! ## Runs -/

/-- The controller with the frames that the guest holds; `start` is the place of the first. -/
structure Fifo : Type where
  nic : Enc28j60
  start : Nat
  held : List (Spooled UInt8)

/-- Something happens to the controller, or the guest gives the first frame back. The controller
does not see the latter. -/
inductive Event : Type
  | nic (act : Action)
  | free

instance (s : Enc28j60) (frame : List UInt8) : Decidable (Stores s frame) :=
  inferInstanceAs (Decidable (_ ∧ _))

def Fifo.step (f : Fifo) : Event → Fifo
  | .nic (.poll frame) =>
      { f with
        nic := f.nic.poll frame
        held := if Stores f.nic frame then f.held ++ [spooledFrame f.nic frame] else f.held }
  | .nic act => { f with nic := f.nic.act act }
  | .free => { f with start := f.start + (f.held.head?.map (·.span)).getD 0, held := f.held.tail }

/-- A frame that comes finds room behind the frames that are held, and one that takes the whole
area does not begin at its last byte. SPI leaves the area alone. -/
def Allowed (st nd : Nat) (f : Fifo) : Event → Prop
  | .nic (.poll frame) =>
      Stores f.nic frame →
        spans f.held + totalLength (frame.take ethMax).length ≤ areaSize st nd ∧
          ¬ (f.nic.getPtrReg erxwrpt = nd ∧
            totalLength (frame.take ethMax).length = areaSize st nd)
  | .nic .select => True
  | .nic (.clock mosi _) => LeavesArea st nd f.nic mosi
  | .nic .reset => False
  | .free => True

/-- The area has the held frames one behind the other, each with the address of the next one;
the write pointer is the address behind the last. -/
structure Sound (st nd : Nat) (f : Fifo) : Prop where
  config : Configured st nd f.nic
  write : f.nic.getPtrReg erxwrpt = st + (f.start + spans f.held) % areaSize st nd
  stored : Stored (areaSize st nd) (area st f.nic) f.start f.held
  threaded : Threaded (areaSize st nd) st nextOf f.start f.held

theorem Sound.low {f : Fifo} (sound : Sound st nd f) : st ≤ f.nic.getPtrReg erxwrpt := by
  rw [sound.write]
  exact Nat.le_add_right _ _

theorem areaSize_pos (st nd : Nat) : 0 < areaSize st nd := Nat.succ_pos _

/-- A controller whose area is the same. -/
theorem Sound.of_same {f : Fifo} {nic : Enc28j60} (sound : Sound st nd f)
    (same : SameArea st nd f.nic nic) : Sound st nd { f with nic } where
  config := ⟨same.first.trans sound.config.first, same.last.trans sound.config.last,
    sound.config.order⟩
  write := same.write.trans sound.write
  stored := by
    refine sound.stored.of_same fun i _ => same.bytes _ (Nat.le_add_right _ _) ?_
    have inside := Nat.mod_lt (f.start + i) (areaSize_pos st nd)
    have order := sound.config.order
    rw [areaSize] at inside ⊢
    omega
  threaded := sound.threaded

theorem Sound.free {f : Fifo} (sound : Sound st nd f) : Sound st nd (f.step .free) := by
  obtain ⟨nic, start, held⟩ := f
  cases held with
  | nil => exact sound
  | cons first rest =>
    have write := sound.write
    rw [spans_cons, ← Nat.add_assoc] at write
    exact ⟨sound.config, write, sound.stored.2, sound.threaded.2⟩

theorem Sound.poll {f : Fifo} (sound : Sound st nd f) {frame : List UInt8}
    (allowed : Allowed st nd f (.nic (.poll frame))) :
    Sound st nd (f.step (.nic (.poll frame))) := by
  by_cases stores : Stores f.nic frame
  · obtain ⟨room, notEdge⟩ := allowed stores
    have place : f.nic.getPtrReg erxwrpt - st = (f.start + spans f.held) % areaSize st nd := by
      rw [sound.write]
      exact Nat.add_sub_cancel_left _ _
    have next := nextAddr_eq sound.config sound.low stores (by omega) notEdge
    rw [place, Nat.mod_add_mod] at next
    have small : nextAddr f.nic (frame.take ethMax).length < 0x2000 := by
      have inside := Nat.mod_lt (f.start + spans f.held + frameSpan f.nic frame)
        (areaSize_pos st nd)
      have last := f.nic.getPtrReg_lt erxnd
      have order := sound.config.order
      rw [sound.config.last] at last
      rw [areaSize] at inside next
      omega
    obtain ⟨pointers, -⟩ := poll_keeps f.nic frame
    have length : (spooledFrame f.nic frame).record.length =
        totalLength (frame.take ethMax).length := length_frameRecord _ _
    rw [Fifo.step, if_pos stores]
    exact
      { config := ⟨(pointers _ (by decide)).trans sound.config.first,
          (pointers _ (by decide)).trans sound.config.last, sound.config.order⟩
        write := by
          change (f.nic.poll frame).getPtrReg erxwrpt = _
          rw [poll_pointer stores, Nat.mod_eq_of_lt small, next, spans_append, Nat.add_assoc]
          rfl
        stored := by
          change Stored _ (area st (f.nic.poll frame)) _ _
          rw [area_poll sound.config sound.low stores, place]
          exact sound.stored.push (areaSize_pos st nd) (spooledFrame f.nic frame) (by omega)
        threaded := by
          refine sound.threaded.push ?_
          exact (nextOf_record f.nic frame (by omega)).trans next }
  · obtain ⟨buffer, result⟩ := poll_refused stores
    rw [Fifo.step, if_neg stores, result]
    exact sound.of_same (.of_registers rfl fun _ _ => rfl)

theorem Sound.step {f : Fifo} {event : Event} (sound : Sound st nd f)
    (allowed : Allowed st nd f event) : Sound st nd (f.step event) := by
  cases event with
  | free => exact sound.free
  | nic act =>
    cases act with
    | poll frame => exact sound.poll allowed
    | select => exact sound.of_same (.of_registers rfl fun _ _ => rfl)
    | clock mosi sent => exact sound.of_same (clock_quiet allowed)
    | reset => exact allowed.elim

/-! ## Reading -/

/-- The bits of some bytes, the highest of each first. -/
def recordBits (record : List UInt8) : List Bool :=
  (List.range (8 * record.length)).map fun k => (record.getD (k / 8) 0).toNat.testBit (7 - k % 8)

/-- What is left of a byte when so many bits have been shifted out. -/
def shiftedOut (byte : UInt8) : Nat → UInt8
  | 0 => byte
  | j + 1 => shiftedOut byte j <<< 1

theorem shiftedOut_toBitVec (byte : UInt8) (j : Nat) :
    (shiftedOut byte j).toBitVec = byte.toBitVec <<< j := by
  induction j with
  | zero => exact (BitVec.shiftLeft_zero _).symm
  | succ j ih =>
    rw [shiftedOut, BitVec.shiftLeft_add, ← ih]
    rfl

theorem highest_bit : ∀ v : BitVec 8, decide (v &&& 0x80#8 ≠ 0#8) = v.getLsbD 7 := by
  decide

theorem shiftedOut_bit (byte : UInt8) {j : Nat} (early : j < 8) :
    decide (shiftedOut byte j &&& 0x80 ≠ 0) = byte.toNat.testBit (7 - j) := by
  have bits : (shiftedOut byte j &&& 0x80 ≠ 0) ↔ byte.toBitVec <<< j &&& 0x80#8 ≠ 0#8 := by
    rw [← shiftedOut_toBitVec, not_iff_not, ← UInt8.toBitVec_inj]
    rfl
  rw [decide_eq_decide.mpr bits, highest_bit, BitVec.getLsbD_shiftLeft]
  have low : ¬ 7 < j := by omega
  rw [decide_eq_false low, decide_eq_true (show 7 < 8 by omega)]
  rfl

/-- An event of a guest that reads: a frame comes, or a bit is clocked. -/
def Event.Reads : Event → Prop
  | .nic (.poll _) => True
  | .nic (.clock _ _) => True
  | _ => False

/-- The actions of the controller among some events. -/
def actions : List Event → List Action
  | [] => []
  | .nic act :: events => act :: actions events
  | .free :: events => actions events

/-- The number of bits that are clocked. -/
def clocks : List Event → Nat
  | [] => 0
  | .nic (.clock _ _) :: events => clocks events + 1
  | _ :: events => clocks events

/-- A guest that reads a held frame has had `k` bits of it. -/
structure ReadsAt (st nd : Nat) (one : Spooled UInt8) (k : Nat) (f : Fifo) : Prop where
  sound : Sound st nd f
  held : ∃ front back, f.held = front ++ one :: back ∧
    f.nic.getPtrReg erdpt =
      st + (f.start + spans front + (k + 7) / 8) % areaSize st nd
  mode : f.nic.spiState = .rbm
  left : f.nic.misoValidBits.toNat = (8 - k % 8) % 8
  bits : k % 8 ≠ 0 → f.nic.misoBits = shiftedOut (one.record.getD (k / 8) 0) (k % 8)

theorem ReadsAt.poll {one : Spooled UInt8} {k : Nat} {f : Fifo} (reads : ReadsAt st nd one k f)
    {frame : List UInt8} (allowed : Allowed st nd f (.nic (.poll frame))) :
    ReadsAt st nd one k (f.step (.nic (.poll frame))) := by
  obtain ⟨pointers, mode, bits, left⟩ := poll_keeps f.nic frame
  obtain ⟨front, back, split, pointer⟩ := reads.held
  have pointer' : (f.nic.poll frame).getPtrReg erdpt = _ :=
    (pointers erdpt (by decide)).trans pointer
  refine
    { sound := reads.sound.step allowed
      held := ?_
      mode := mode.trans reads.mode
      left := (congrArg UInt8.toNat left).trans reads.left
      bits := fun inside => bits.trans (reads.bits inside) }
  rw [Fifo.step]
  split
  · refine ⟨front, back ++ [spooledFrame f.nic frame], ?_, pointer'⟩
    dsimp only
    rw [split, List.append_assoc]
    rfl
  · exact ⟨front, back, split, pointer'⟩

/-- In a memory read MOSI only fills its own shift register. -/
theorem consumeBit_reading {s : Enc28j60} (mode : s.spiState = .rbm) (mosi sent : Bool) :
    (s.consumeBit mosi sent).spiState = .rbm ∧
      (s.consumeBit mosi sent).misoBits = s.misoBits ∧
      (s.consumeBit mosi sent).misoValidBits = s.misoValidBits ∧
      (s.consumeBit mosi sent).registers = s.registers := by
  have stays : (shiftedIn s mosi).consumeByte (shiftedIn s mosi).mosiBits sent =
      shiftedIn s mosi := by
    rw [Enc28j60.consumeByte]
    have mode' : (shiftedIn s mosi).spiState = .rbm := mode
    rw [mode']
  rw [consumeBit_eq, stays]
  split
  · exact ⟨mode, rfl, rfl, rfl⟩
  · exact ⟨mode, rfl, rfl, rfl⟩

/-- The place behind a place of a ring. -/
theorem next_place (place size : Nat) :
    (if place % size + 1 = size then 0 else place % size + 1) = (place + 1) % size := by
  have whole := Nat.mod_add_mod place size 1
  rw [← whole]
  split
  · rename_i edge
    rw [edge, Nat.mod_self]
  · rename_i inner
    by_cases positive : 0 < size
    · have inside := Nat.mod_lt place positive
      exact (Nat.mod_eq_of_lt (by omega)).symm
    · obtain rfl : size = 0 := by omega
      rw [Nat.mod_zero, Nat.mod_zero]

/-- The first bit of a byte: the byte is loaded, and the pointer goes on in the ring. -/
theorem produceBit_first {s : Enc28j60} (mode : s.spiState = .rbm) (empty : s.misoValidBits = 0)
    (config : Configured st nd s) {place : Nat}
    (pointer : s.getPtrReg erdpt = st + place % areaSize st nd) :
    s.produceBit.1 = decide (area st s (place % areaSize st nd) &&& 0x80 ≠ 0) ∧
      s.produceBit.2.spiState = .rbm ∧
      s.produceBit.2.misoBits = area st s (place % areaSize st nd) <<< 1 ∧
      s.produceBit.2.misoValidBits = 7 ∧
      s.produceBit.2.getPtrReg erdpt = st + (place + 1) % areaSize st nd := by
  have loaded : s.load = ({ s with misoBits := s.sram (s.getPtrReg erdpt) }).setPtrReg erdpt
      (if s.getPtrReg erdpt = s.getPtrReg erxnd then s.getPtrReg erxst
        else s.getPtrReg erdpt + 1) := by
    rw [Enc28j60.load, mode]
    rfl
  have byte : s.load.misoBits = area st s (place % areaSize st nd) := by
    rw [loaded, area, ← pointer]
    rfl
  have mode' : s.load.spiState = .rbm := by
    rw [loaded]
    exact mode
  have inside := Nat.mod_lt place (areaSize_pos st nd)
  have last := s.getPtrReg_lt erxnd
  have order := config.order
  rw [config.last] at last
  have next : s.load.getPtrReg erdpt = st + (place + 1) % areaSize st nd := by
    rw [loaded, getPtrReg_stored, config.last, config.first, pointer, ← next_place, areaSize]
    rw [areaSize] at inside
    split
    · rw [if_pos (by omega)]
      omega
    · rw [if_neg (by omega)]
      omega
  rw [Enc28j60.produceBit, if_pos empty]
  refine ⟨?_, mode', ?_, rfl, next⟩
  · rw [← byte]
  · rw [← byte]

/-- Another bit of it. -/
theorem produceBit_next {s : Enc28j60} (some_ : ¬ s.misoValidBits = 0) :
    s.produceBit.1 = decide (s.misoBits &&& 0x80 ≠ 0) ∧
      s.produceBit.2.spiState = s.spiState ∧
      s.produceBit.2.misoBits = s.misoBits <<< 1 ∧
      s.produceBit.2.misoValidBits = s.misoValidBits - 1 ∧
      s.produceBit.2.registers = s.registers := by
  rw [Enc28j60.produceBit, if_neg some_]
  exact ⟨rfl, rfl, rfl, rfl, rfl⟩

theorem ReadsAt.clock {one : Spooled UInt8} {k : Nat} {f : Fifo} (reads : ReadsAt st nd one k f)
    {mosi sent : Bool} (allowed : Allowed st nd f (.nic (.clock mosi sent)))
    (within : k < 8 * one.record.length) :
    f.nic.produceBit.1 = (one.record.getD (k / 8) 0).toNat.testBit (7 - k % 8) ∧
      ReadsAt st nd one (k + 1) (f.step (.nic (.clock mosi sent))) := by
  obtain ⟨front, back, split, pointer⟩ := reads.held
  have sound := reads.sound.step allowed
  by_cases first : k % 8 = 0
  · have empty : f.nic.misoValidBits = 0 := by
      have left := reads.left
      rw [first] at left
      exact UInt8.toNat_inj.mp left
    have quotient : (k + 7) / 8 = k / 8 := by omega
    have next : (k + 1 + 7) / 8 = k / 8 + 1 := by omega
    have place : (k + 1) % 8 = 1 ∧ (k + 1) / 8 = k / 8 := by omega
    rw [quotient] at pointer
    obtain ⟨bit, mode, bits, valid, moves⟩ :=
      produceBit_first reads.mode empty reads.sound.config pointer
    obtain ⟨mode', bits', valid', registers⟩ := consumeBit_reading mode mosi sent
    have byte : area st f.nic ((f.start + spans front + k / 8) % areaSize st nd) =
        one.record.getD (k / 8) 0 := by
      have kept := reads.sound.stored
      rw [split] at kept
      have item := congrArg (·[k / 8]?) kept.at
      have inside : k / 8 < one.record.length := by omega
      rw [getElem?_ringRead inside] at item
      rw [List.getD_eq_getElem?_getD, ← item, Option.getD_some]
    rw [byte] at bit bits
    refine ⟨?_, { sound, held := ⟨front, back, split, ?_⟩, mode := mode', left := ?_, bits := ?_ }⟩
    · rw [bit, first]
      exact shiftedOut_bit _ (j := 0) (by omega)
    · rw [next, ← Nat.add_assoc]
      exact (getPtrReg_same registers erdpt).trans moves
    · rw [place.1]
      exact congrArg UInt8.toNat (valid'.trans valid)
    · intro _
      rw [place.1, place.2]
      exact bits'.trans bits
  · have left := reads.left
    have some_ : ¬ f.nic.misoValidBits = 0 := by
      intro empty
      rw [empty] at left
      change 0 = _ at left
      omega
    have next : (k + 1 + 7) / 8 = (k + 7) / 8 := by omega
    obtain ⟨bit, mode, bits, valid, registers⟩ := produceBit_next some_
    obtain ⟨mode', bits', valid', registers'⟩ :=
      consumeBit_reading (mode.trans reads.mode) mosi sent
    rw [reads.bits first] at bit bits
    refine ⟨?_, { sound, held := ⟨front, back, split, ?_⟩, mode := mode', left := ?_, bits := ?_ }⟩
    · rw [bit]
      exact shiftedOut_bit _ (by omega)
    · rw [next]
      exact (getPtrReg_same (registers'.trans registers) erdpt).trans pointer
    · have one_ : (1 : UInt8) ≤ f.nic.misoValidBits := by
        rw [UInt8.le_iff_toNat_le, left]
        change 1 ≤ _
        omega
      refine (congrArg UInt8.toNat (valid'.trans valid)).trans ?_
      rw [UInt8.toNat_sub_of_le _ _ one_, left]
      change (8 - k % 8) % 8 - 1 = _
      omega
    · intro inner
      have place : (k + 1) % 8 = k % 8 + 1 ∧ (k + 1) / 8 = k / 8 := by omega
      rw [place.1, place.2]
      exact bits'.trans bits

/-- The bits of a frame come out as they are in the area, whatever else arrives meanwhile. -/
theorem ReadsAt.shifts {one : Spooled UInt8} {k : Nat} {f : Fifo} {events : List Event}
    (reads : ReadsAt st nd one k f) (reading : ∀ event ∈ events, event.Reads)
    (allowed : EachStep Fifo.step (Allowed st nd) f events)
    (within : k + clocks events ≤ 8 * one.record.length) :
    f.nic.shifted (actions events) = ((recordBits one.record).drop k).take (clocks events) := by
  induction events generalizing f k with
  | nil => rw [clocks, List.take_zero]; rfl
  | cons event events ih =>
    obtain ⟨here, rest⟩ := allowed
    have reading' := fun later member => reading later (List.mem_cons_of_mem _ member)
    cases event with
    | free => exact (reading _ List.mem_cons_self).elim
    | nic act =>
      cases act with
      | select => exact (reading _ List.mem_cons_self).elim
      | reset => exact (reading _ List.mem_cons_self).elim
      | poll frame => exact ih (reads.poll here) reading' rest within
      | clock mosi sent =>
        rw [clocks] at within ⊢
        obtain ⟨bit, next⟩ := reads.clock here (by omega)
        have bits := ih next reading' rest (by omega)
        have length : k < (recordBits one.record).length := by
          rw [recordBits, List.length_map, List.length_range]
          omega
        have item : (recordBits one.record)[k] =
            (one.record.getD (k / 8) 0).toNat.testBit (7 - k % 8) := by
          simp only [recordBits, List.getElem_map, List.getElem_range]
        rw [actions, Enc28j60.shifted, bit, List.drop_eq_getElem_cons length, List.take_succ_cons,
          item]
        exact congrArg _ bits

/-! ## The queue -/

/-- The guest has set up the area, and the write pointer is in it. -/
def opened (s : Enc28j60) (st : Nat) : Fifo :=
  { nic := s, start := s.getPtrReg erxwrpt - st, held := [] }

theorem opened_sound (config : Configured st nd s)
    (inside : st ≤ s.getPtrReg erxwrpt ∧ s.getPtrReg erxwrpt ≤ nd) :
    Sound st nd (opened s st) where
  config := config
  write := by
    have size : s.getPtrReg erxwrpt - st < areaSize st nd := by
      rw [areaSize]
      omega
    change s.getPtrReg erxwrpt = st + (s.getPtrReg erxwrpt - st + 0) % areaSize st nd
    rw [Nat.add_zero, Nat.mod_eq_of_lt size]
    omega
  stored := True.intro
  threaded := True.intro

theorem run_sound {f : Fifo} {events : List Event} (sound : Sound st nd f)
    (allowed : EachStep Fifo.step (Allowed st nd) f events) :
    Sound st nd (events.foldl Fifo.step f) := by
  induction events generalizing f with
  | nil => exact sound
  | cons event events ih => exact ih (sound.step allowed.1) allowed.2

/-- What a queue of frames in the receive area owes its guest. -/
structure Serves (st nd : Nat) (f : Fifo) : Prop where
  /-- The held frames are in the area, each with the address of the next one. -/
  sound : Sound st nd f
  /-- A frame that comes is written within the area and kept behind the others. -/
  arrives : ∀ frame, Allowed st nd f (.nic (.poll frame)) → Stores f.nic frame →
    (∀ place, ¬ (st ≤ place ∧ place ≤ nd) →
      (f.nic.poll frame).sram place = f.nic.sram place) ∧
    (f.step (.nic (.poll frame))).held = f.held ++ [spooledFrame f.nic frame] ∧
    ∃ status pad : List UInt8, status.length = 4 ∧ pad.length ≤ 1 ∧
      frameRecord f.nic frame =
        (frameRecord f.nic frame).take 2 ++ status ++ frame.take ethMax ++ pad
  /-- A read of the buffer from the start of a held frame on gives its bits. -/
  reads : ∀ front one back, f.held = front ++ one :: back → f.nic.spiState = .rbm →
    f.nic.misoValidBits = 0 →
    f.nic.getPtrReg erdpt = st + (f.start + spans front) % areaSize st nd →
    ∀ events, (∀ event ∈ events, event.Reads) → EachStep Fifo.step (Allowed st nd) f events →
      clocks events ≤ 8 * one.record.length →
      f.nic.shifted (actions events) = (recordBits one.record).take (clocks events)

theorem Sound.serves {f : Fifo} (sound : Sound st nd f) : Serves st nd f where
  sound := sound
  arrives := by
    intro frame allowed stores
    obtain ⟨pad, short, parts⟩ := frameRecord_eq f.nic frame
    obtain ⟨room, -⟩ := allowed stores
    refine ⟨fun place outside => poll_outside sound.config sound.low (by omega) outside,
      if_pos stores, _, pad, length_buffered _ _ _, short, parts⟩
  reads := by
    intro front one back split mode empty pointer events reading allowed within
    have start : ReadsAt st nd one 0 f :=
      { sound, held := ⟨front, back, split, pointer⟩, mode
        left := by rw [empty]; rfl
        bits := fun inner => absurd rfl inner }
    have bits := start.shifts reading allowed (by omega)
    rw [List.drop_zero] at bits
    exact bits

/-- In every run in which the frames that come find room, the receive area serves the guest. -/
theorem receive_fifo (config : Configured st nd s)
    (inside : st ≤ s.getPtrReg erxwrpt ∧ s.getPtrReg erxwrpt ≤ nd) (events : List Event)
    (allowed : EachStep Fifo.step (Allowed st nd) (opened s st) events) :
    Serves st nd (events.foldl Fifo.step (opened s st)) :=
  (run_sound (opened_sound config inside) allowed).serves

/-- A controller with an area of eight bytes. -/
def smallArea : Enc28j60 where
  ethRxBuf := fun _ => 0
  sram := fun _ => 0
  registers := fun bank register =>
    if bank = 0 ∧ register = erxnd then 7
    else if bank = 0 ∧ register = econ1 then 0x04
    else 0
  currRegister := 0
  currRegisterBank := 0
  tapFd := 3
  misoBits := 0
  misoValidBits := 0
  mosiBits := 0
  mosiValidBits := 0
  spiState := .idle

theorem smallArea_configured : Configured 0 7 smallArea :=
  ⟨by decide, by decide, by decide⟩

theorem receive_fifo_small :
    Serves 0 7 ([Event.nic (.poll [1])].foldl Fifo.step (opened smallArea 0)) := by
  refine receive_fifo smallArea_configured (by decide) _ ⟨fun _ => ?_, True.intro⟩
  constructor
  · decide
  · decide

/-- Nobody asks whether the guest has read a frame: the next one is written over it. -/
theorem receive_overwrites :
    Configured 0 7 smallArea ∧ Stores smallArea [1] ∧ Stores (smallArea.poll [1]) [2] ∧
      ringRead 8 (area 0 (smallArea.poll [1])) 0 8 = frameRecord smallArea [1] ∧
      ringRead 8 (area 0 ((smallArea.poll [1]).poll [2])) 0 8 ≠ frameRecord smallArea [1] := by
  refine ⟨smallArea_configured, ?_⟩
  decide

end FuseX.Nic.SpeccyBoot
