import FuseX.Disk.TrackSpots

/-!
# Sector blocks of TeleDisk images

`open_td0` reads a track sector by sector. A block is a header of nine bytes and the
data, which is stored as it is, as repeated patterns of two bytes or as runs. The
header is read through one pointer (`hdrb`) and the data through the index of the
buffer.

`expansion` is what the data stands for: each pattern or run as often as it says,
for all the sub-blocks of a block. `td0_sector` says for which of the blocks the
loader accepts this is what it puts on the track.

The first pass of the loader accepts only sectors that fit a track of 12500 bytes,
so a sector length is a power of two that does not overflow.
-/

namespace FuseX.Disk.TeleDisk

open Lib TrackWriter

/-! ## Blocks -/

/-- A sector block: the header that begins at the index of the buffer is in the file. -/
structure Block : Type where
  buffer : Buffer
  header : 9 ≤ buffer.avail

namespace Block

variable (block : Block)

/-- `hdrb[ k ]`. -/
def hdrb (k : Nat) : UInt8 :=
  block.buffer.file.getD (block.buffer.index + k) 0

/-- The bytes behind the method byte, as the header says. -/
def dataLen : Int :=
  (block.hdrb 6).toNat + 256 * (block.hdrb 7).toNat - 1

/-- `seclen`. -/
def seclen : Nat :=
  0x80 <<< (block.hdrb 3).toNat

/-- The buffer behind the header. -/
def behind : Buffer :=
  block.buffer.skip 9 block.header

/-- The data of the block. -/
def body : List UInt8 :=
  block.behind.ahead.take block.dataLen.toNat

end Block

/-! ## What a block stands for -/

/-- Sub-blocks of a count of two bytes and a pattern of two bytes. -/
def patterns : List UInt8 → Option (List UInt8)
  | [] => some []
  | low :: high :: a :: b :: rest =>
    (patterns rest).map ((List.replicate (low.toNat + 256 * high.toNat) [a, b]).flatten ++ ·)
  | _ => none

/-- How many bytes of a run are stored. -/
def runSize (a b : UInt8) : Nat :=
  if a = 0 then b.toNat else 2 * a.toNat

/-- How often they are repeated. -/
def runTimes (a b : UInt8) : Nat :=
  if a = 0 then 1 else b.toNat

/-- Sub-blocks of literal bytes (0 and their number) or of repeated ones (half their number
and a count). -/
def runs : List UInt8 → Option (List UInt8)
  | [] => some []
  | [_] => none
  | a :: b :: rest =>
    if rest.length < runSize a b then none
    else (runs (rest.drop (runSize a b))).map
      ((List.replicate (runTimes a b) (rest.take (runSize a b))).flatten ++ ·)
termination_by data => data.length
decreasing_by
  rw [List.length_drop, List.length_cons, List.length_cons]
  exact Nat.lt_succ_of_le (Nat.le_succ_of_le (Nat.sub_le _ _))

/-- What the data of a block stands for. -/
def expansion (block : Block) : Option (List UInt8) :=
  if block.hdrb 8 = 0 then some block.body
  else if block.hdrb 8 = 1 then patterns block.body
  else if block.hdrb 8 = 2 then runs block.body
  else none

/-! ## The loader -/

/-- What filling `uncomp_buff` comes to: the loop can also go on for ever. -/
inductive Fill : Type where
  | refused
  | hangs
  | filled (uncompBuff : Nat → UInt8) (buffer : Buffer)

/-- The loop of the repeated patterns: the count and the pattern are those of the header. -/
def fillPatterns (seclen count : Nat) (pattern : List UInt8) (buffer : Buffer) (i : Nat)
    (uncompBuff : Nat → UInt8) : Fill :=
  if i < seclen then
    if buffer.avail < 13 then .refused
    else if seclen < i + 2 * count then .refused
    else if count = 0 then .hangs
    else fillPatterns seclen count pattern buffer (i + 2 * count)
      ((List.range' 1 (count - 1)).foldl (fun buff j => overwrite buff (i + j * 2) pattern) uncompBuff)
  else .filled uncompBuff buffer
termination_by seclen - i

/-- The loop of the runs: `a` and `b` are `hdrb[9]` and `hdrb[10]`. -/
def fillRuns (seclen : Nat) (a b : UInt8) (i : Nat) (buffer : Buffer) (uncompBuff : Nat → UInt8) : Fill :=
  if i < seclen then
    if buffer.avail < 11 then .refused
    else if a = 0 then
      if seclen < i + b.toNat ∨ buffer.avail < b.toNat then .refused
      else if b = 0 then .hangs
      else fillRuns seclen a b (i + b.toNat) (buffer.read b.toNat).2
        (overwrite uncompBuff i (buffer.read b.toNat).1)
    else
      if seclen < i + 2 * a.toNat * b.toNat ∨ buffer.avail < 2 * a.toNat then .refused
      else fillRuns seclen a b (i + 2 * a.toNat * b.toNat) (buffer.read (2 * a.toNat)).2
        ((List.range' 1 (b.toNat - 1)).foldl
          (fun buff j => overwrite buff (i + j * 2 * a.toNat) (readStrip buff i (2 * a.toNat)))
          (overwrite uncompBuff i (buffer.read (2 * a.toNat)).1))
  else .filled uncompBuff buffer
termination_by seclen - i + buffer.avail
decreasing_by
  · rename_i inside _ room nonzero
    have positive : b.toNat ≠ 0 := fun zero => nonzero (UInt8.toNat_inj.mp zero)
    rw [Buffer.avail_read]
    omega
  · rename_i inside _ nonzero room
    have positive : a.toNat ≠ 0 := fun zero => nonzero (UInt8.toNat_inj.mp zero)
    rw [Buffer.avail_read]
    omega

/-- What `open_td0` keeps from block to block. -/
structure Loader : Type where
  d : Surface
  uncompBuff : Nat → UInt8

/-- What a block comes to: a block without ID is dropped and one without data has only the ID.
The number is the new index of the buffer. -/
inductive Outcome : Type where
  | refused
  | hangs
  | dropped (st : Loader) (index : Int)
  | bare (st : Loader) (index : Int)
  | placed (st : Loader) (index : Int)

/-- The data of `uncomp_buff` is added, or the block is refused. -/
def addFilled (g : Gap) (block : Block) (d : Surface) : Fill → Outcome
  | .refused => .refused
  | .hangs => .hangs
  | .filled uncompBuff buffer =>
    let added := dataAdd g (.data uncompBuff) block.dataLen ((block.hdrb 4).toNat &&& 0x04 ≠ 0) false none d
    if added.1 then .refused else .placed ⟨added.2.1, uncompBuff⟩ buffer.index

/-- The track behind the ID: that it may not fit is not noticed. -/
def idAdded (g : Gap) (block : Block) (d : Surface) : Surface :=
  (idAdd g (block.hdrb 1).toNat (block.hdrb 0).toNat (block.hdrb 2).toNat (block.hdrb 3).toNat
    ((block.hdrb 4).toNat &&& 0x02 ≠ 0) d).2

/-- A turn of the sector loop of `open_td0`. -/
def sectorBlock (g : Gap) (block : Block) (st : Loader) : Outcome :=
  let data : Int := block.buffer.index + 9
  if (block.hdrb 4).toNat &&& 0x40 ≠ 0 then .dropped st (data + block.dataLen)
  else
    let d := idAdded g block st.d
    if (block.hdrb 4).toNat &&& 0x30 ≠ 0 then .bare { st with d := d } data
    else if block.hdrb 8 = 0 then
      if block.dataLen ≠ block.seclen then .refused
      else
        let added := dataAdd g (.buffer block.behind) block.dataLen
          ((block.hdrb 4).toNat &&& 0x04 ≠ 0) false none d
        if added.1 then .refused else .placed ⟨added.2.1, st.uncompBuff⟩ added.2.2.index
    else if block.hdrb 8 = 1 then addFilled g block d
      (fillPatterns block.seclen ((block.hdrb 9).toNat + 256 * (block.hdrb 10).toNat)
        [block.hdrb 11, block.hdrb 12] block.behind 0 st.uncompBuff)
    else if block.hdrb 8 = 2 then addFilled g block d
      (fillRuns block.seclen (block.hdrb 9) (block.hdrb 10) 0 block.behind st.uncompBuff)
    else .refused

/-! ## The loops

The header stays on the first sub-block of a block while the reading goes on.
-/

/-- A loop of patterns does not read on. -/
theorem fillPatterns_filled {seclen count i : Nat} {pattern : List UInt8} {buffer buffer' : Buffer}
    {uncompBuff uncompBuff' : Nat → UInt8}
    (filled : fillPatterns seclen count pattern buffer i uncompBuff = .filled uncompBuff' buffer') :
    buffer' = buffer := by
  fun_induction fillPatterns seclen count pattern buffer i uncompBuff with
  | case1 => cases filled
  | case2 => cases filled
  | case3 => cases filled
  | case4 _ _ _ _ _ _ ih => exact ih filled
  | case5 =>
    cases filled
    rfl

/-- From place `i` on a sector is filled with `times` times what is read; what is repeated only
once stands there as it was read. -/
def Poured (seclen times i : Nat) (buffer buffer' : Buffer) (uncompBuff uncompBuff' : Nat → UInt8) :
    Prop :=
  ∃ taken, buffer'.index = buffer.index + taken ∧ taken ≤ buffer.avail ∧ times * taken = seclen - i ∧
    (times = 1 → Holds uncompBuff' i (buffer.ahead.take taken) ∧
      ∀ place < i, uncompBuff' place = uncompBuff place)

/-- A turn reads `n` bytes. -/
theorem Poured.turn {seclen times i n : Nat} {buffer buffer' : Buffer}
    {uncompBuff filledBuff uncompBuff' : Nat → UInt8} (room : n ≤ buffer.avail)
    (within : i + n * times ≤ seclen)
    (once : times = 1 → filledBuff = overwrite uncompBuff i (buffer.read n).1)
    (rest : Poured seclen times (i + n * times) (buffer.read n).2 buffer' filledBuff uncompBuff') :
    Poured seclen times i buffer buffer' uncompBuff uncompBuff' := by
  obtain ⟨taken, index, left, total, content⟩ := rest
  have length : (buffer.read n).1.length = n := by
    show (buffer.ahead.take n).length = n
    rw [List.length_take, buffer.length_ahead, Nat.min_eq_left room]
  rw [Buffer.avail_read] at left
  rw [Buffer.index_read, Nat.min_eq_left room] at index
  refine ⟨n + taken, by omega, by omega, ?_, fun single => ?_⟩
  · rw [Nat.mul_add, total, Nat.mul_comm times n]
    omega
  · obtain ⟨holds, below⟩ := content single
    rw [single, Nat.mul_one] at holds below
    have ahead : (buffer.read n).2.ahead = buffer.ahead.drop n := by
      show buffer.file.drop (buffer.index + min n buffer.avail) = (buffer.file.drop buffer.index).drop n
      rw [Nat.min_eq_left room, List.drop_drop]
    have front : Holds uncompBuff' i (buffer.read n).1 := by
      have written : Holds filledBuff i (buffer.read n).1 := by
        rw [once single]
        exact Holds.overwritten
      apply written.of_same
      intro place _ inside
      exact below place (by omega)
    constructor
    · have split : buffer.ahead.take (n + taken) = (buffer.read n).1 ++ (buffer.read n).2.ahead.take taken := by
        rw [ahead, List.take_add]
        rfl
      rw [split, Holds.append, length]
      exact ⟨front, holds⟩
    · intro place outside
      rw [below place (by omega), once single]
      exact overwrite_before outside

/-- The turns of a loop of runs fill the sector with what the first sub-block says of every
piece read. -/
theorem fillRuns_filled {seclen i : Nat} {a b : UInt8} {buffer buffer' : Buffer}
    {uncompBuff uncompBuff' : Nat → UInt8}
    (filled : fillRuns seclen a b i buffer uncompBuff = .filled uncompBuff' buffer') (within : i ≤ seclen) :
    Poured seclen (runTimes a b) i buffer buffer' uncompBuff uncompBuff' := by
  fun_induction fillRuns seclen a b i buffer uncompBuff with
  | case1 => cases filled
  | case2 => cases filled
  | case3 => cases filled
  | case4 i buffer uncompBuff inside _ literal room nonzero ih =>
    have single : runTimes a b = 1 := if_pos literal
    have rest := ih filled (by omega)
    apply Poured.turn (n := b.toNat) (by omega) (by rw [single]; omega) (fun _ => rfl)
    rw [single, Nat.mul_one]
    rw [single] at rest
    exact rest
  | case5 => cases filled
  | case6 i buffer uncompBuff inside _ repeated room ih =>
    have times : runTimes a b = b.toNat := if_neg repeated
    have rest := ih filled (by omega)
    apply Poured.turn (n := 2 * a.toNat) (by omega) (by rw [times]; omega) _ (by rw [times] at rest ⊢; exact rest)
    intro single
    rw [times] at single
    rw [single]
    rfl
  | case7 i buffer uncompBuff outside =>
    cases filled
    refine ⟨0, rfl, Nat.zero_le _, by omega, fun _ => ⟨Holds.nil, fun _ _ => rfl⟩⟩

/-! ## What is placed -/

/-- The bytes of the sector on the track: from behind the data mark to the checksum. -/
def sectorBytes (g : Gap) (d d' : Surface) : List UInt8 :=
  let start := d.i + g.syncLen + g.marks.length + 1
  readStrip d'.track start (d'.i - g.len 3 - 2 - start)

/-- The bytes behind the data mark are those of the source. -/
theorem dataAdd_placed {d d' : Surface} {source source' : Source} {len : Int} {ddam crcError : Bool}
    (added : dataAdd g source len ddam crcError none d = (false, d', source')) :
    sectorBytes g d d' = (source.read len.toNat).1 ∧ (sectorBytes g d d').length = len.toNat ∧
      (0 ≤ len → source' = (source.read len.toNat).2) := by
  rcases Int.lt_or_le len 0 with negative | natural
  · have same := dataAdd_empty negative added
    have zero : len.toNat = 0 := by omega
    have none : sectorBytes g d d' = [] := by
      rw [← List.length_eq_zero_iff, sectorBytes, length_readStrip, same]
      simp only [Surface.i_emit, List.length_append, length_addressMark, length_plain,
        List.length_replicate]
      omega
    have nothing : (source.read 0).1 = [] :=
      List.length_eq_zero_iff.mp (Nat.le_zero.mp (source.read_le 0))
    rw [none, zero, nothing]
    exact ⟨rfl, rfl, fun natural => by omega⟩
  · obtain ⟨n, rfl⟩ := Int.eq_ofNat_of_zero_le natural
    obtain ⟨same, _, behind, enough⟩ := dataAdd_ok added
    have length := enough rfl
    have whole : source.field n none = (source.read n).1 := by
      rw [Source.field, length, Nat.sub_self, List.replicate_zero, List.append_nil]
    rw [whole] at same
    have placed : sectorBytes g d d' = (source.read n).1 := by
      have track := @Surface.holds_track d (dataField g ddam crcError (source.read n).1)
      rw [map_fst_dataField, ← same] at track
      have data := track.part.read
      rw [List.length_map, length_addressMark, length] at data
      have count : d'.i - g.len 3 - 2 - (d.i + (g.syncLen + g.marks.length + 1)) = n := by
        rw [same]
        simp only [Surface.i_emit, dataField, List.length_append, length_addressMark, length_plain,
          length_dataSpots, List.length_replicate, length]
        omega
      rw [sectorBytes, Nat.add_assoc, Nat.add_assoc, ← Nat.add_assoc g.syncLen, count]
      exact data
    rw [placed, Int.toNat_natCast]
    exact ⟨rfl, length, fun _ => behind⟩

/-! ## Which blocks are expanded -/

/-- The sector is what the data of the block stands for, and the next header is where the block
ends. -/
def Expanded (g : Gap) (block : Block) (st st' : Loader) (index : Int) : Prop :=
  ∃ bytes, expansion block = some bytes ∧ bytes.length = block.seclen ∧
    sectorBytes g (idAdded g block st.d) st'.d = bytes ∧ index = block.buffer.index + 9 + block.dataLen

/-- The block is raw; or it is of runs, has as many bytes as the sector, begins with a literal
sub-block or one repeated once, and stands for its own bytes. -/
def Plain (block : Block) : Prop :=
  block.hdrb 8 = 0 ∨
    block.hdrb 8 = 2 ∧ block.dataLen = block.seclen ∧ (block.hdrb 9 = 0 ∨ block.hdrb 10 = 1) ∧
      runs block.body = some block.body

theorem seclen_pos (block : Block) : 0 < block.seclen := by
  rw [Block.seclen, Nat.shiftLeft_eq]
  exact Nat.mul_pos (by decide) (Nat.two_pow_pos _)

variable {g : Gap} {block : Block} {st st' : Loader} {index : Int}

/-- Whether the data is marked as deleted. -/
def deleted (block : Block) : Bool :=
  (block.hdrb 4).toNat &&& 0x04 ≠ 0

theorem addFilled_placed {d : Surface} {fill : Fill}
    (accepted : addFilled g block d fill = .placed st' index) :
    ∃ uncompBuff buffer source', fill = .filled uncompBuff buffer ∧
      dataAdd g (.data uncompBuff) block.dataLen (deleted block) false none d = (false, st'.d, source') ∧
      index = buffer.index := by
  cases fill with
  | refused => cases accepted
  | hangs => cases accepted
  | filled uncompBuff buffer =>
    simp only [addFilled] at accepted
    rcases added : dataAdd g (.data uncompBuff) block.dataLen (deleted block) false none d
      with ⟨error, d', source'⟩
    have added' := added
    rw [deleted] at added'
    rw [added'] at accepted
    cases error with
    | true => cases accepted
    | false =>
      cases accepted
      exact ⟨uncompBuff, buffer, source', rfl, added, rfl⟩

/-- What an accepted block with data has been through. -/
theorem placed_cases (accepted : sectorBlock g block st = .placed st' index) :
    ∃ source source', dataAdd g source block.dataLen (deleted block) false none (idAdded g block st.d) =
        (false, st'.d, source') ∧
      ((block.hdrb 8 = 0 ∧ block.dataLen = block.seclen ∧ source = .buffer block.behind ∧
          index = source'.index) ∨
        (block.hdrb 8 = 1 ∧ index = block.behind.index) ∨
        (block.hdrb 8 = 2 ∧ ∃ uncompBuff buffer,
          source = .data uncompBuff ∧ index = buffer.index ∧
          Poured block.seclen (runTimes (block.hdrb 9) (block.hdrb 10)) 0 block.behind buffer
            st.uncompBuff uncompBuff)) := by
  simp only [sectorBlock] at accepted
  split at accepted
  · cases accepted
  split at accepted
  · cases accepted
  split at accepted
  · rename_i raw
    split at accepted
    · cases accepted
    · rename_i same
      rcases added : dataAdd g (.buffer block.behind) block.dataLen (deleted block) false none
        (idAdded g block st.d) with ⟨error, d', source'⟩
      have added' := added
      rw [deleted] at added'
      rw [added'] at accepted
      cases error with
      | true => cases accepted
      | false =>
        cases accepted
        exact ⟨_, source', added, .inl ⟨raw, not_not.mp same, rfl, rfl⟩⟩
  split at accepted
  · rename_i pattern
    obtain ⟨uncompBuff, buffer, source', filled, added, rfl⟩ := addFilled_placed accepted
    rw [fillPatterns_filled filled]
    exact ⟨_, source', added, .inr (.inl ⟨pattern, rfl⟩)⟩
  split at accepted
  · rename_i run
    obtain ⟨uncompBuff, buffer, source', filled, added, rfl⟩ := addFilled_placed accepted
    have poured := fillRuns_filled filled (Nat.zero_le _)
    exact ⟨_, source', added, .inr (.inr ⟨run, uncompBuff, buffer, rfl, rfl, poured⟩)⟩
  · cases accepted

/-- The bytes of a source of bytes are those of the body, where as many of it are there. -/
theorem read_of_holds {uncompBuff : Nat → UInt8} {n : Nat} (there : n ≤ block.behind.avail)
    (holds : Holds uncompBuff 0 (block.behind.ahead.take n)) :
    (Source.read (.data uncompBuff) n).1 = block.behind.ahead.take n := by
  have read := holds.read
  rw [List.length_take, Buffer.length_ahead, Nat.min_eq_left there] at read
  exact read

theorem runTimes_one {a b : UInt8} : runTimes a b = 1 ↔ a = 0 ∨ b = 1 := by
  unfold runTimes
  split
  · rename_i literal
    exact iff_of_true rfl (.inl literal)
  · rename_i repeated
    show b.toNat = (1 : UInt8).toNat ↔ _
    rw [UInt8.toNat_inj]
    exact ⟨.inr, fun either => either.resolve_left repeated⟩

/-- A block of runs that is as long as its sector and repeats nothing is placed as it is read. -/
theorem runs_placed {uncompBuff : Nat → UInt8} {buffer : Buffer}
    (poured : Poured block.seclen 1 0 block.behind buffer st.uncompBuff uncompBuff)
    (same : block.dataLen = block.seclen) :
    (Source.read (.data uncompBuff) block.dataLen.toNat).1 = block.body ∧
      block.body.length = block.seclen ∧ buffer.index = block.behind.index + block.seclen := by
  obtain ⟨taken, here, there, total, content⟩ := poured
  obtain rfl : taken = block.seclen := by omega
  rw [Block.body, same, Int.toNat_natCast, List.length_take, Buffer.length_ahead, Nat.min_eq_left there]
  exact ⟨read_of_holds there (content rfl).1, rfl, here⟩

/-- A block of patterns is never expanded: the index stays in front of its data, and as many
bytes are placed as the block has, not as the sector has. -/
theorem patterns_missed (accepted : sectorBlock g block st = .placed st' index)
    (pattern : block.hdrb 8 = 1) : ¬ Expanded g block st st' index := by
  obtain ⟨source, source', added, kind⟩ := placed_cases accepted
  obtain ⟨_, length, _⟩ := dataAdd_placed added
  have positive := seclen_pos block
  rintro ⟨expanded, _, whole, placed, here⟩
  have stays : index = block.behind.index := by
    rcases kind with ⟨raw, _⟩ | ⟨_, stays⟩ | ⟨run, _⟩
    · rw [pattern] at raw
      cases raw
    · exact stays
    · rw [pattern] at run
      cases run
  have nothing : block.dataLen = 0 := by
    have start : (block.behind.index : Int) = block.buffer.index + 9 := rfl
    omega
  rw [placed, whole, nothing] at length
  exact absurd length (Nat.ne_of_gt positive)

/-- **A block of an image is expanded only where nothing is to expand.** -/
theorem td0_sector (accepted : sectorBlock g block st = .placed st' index) :
    Expanded g block st st' index ↔ Plain block := by
  obtain ⟨source, source', added, kind⟩ := placed_cases accepted
  obtain ⟨bytes, length, behind⟩ := dataAdd_placed added
  have positive := seclen_pos block
  rcases kind with ⟨raw, same, rfl, rfl⟩ | ⟨pattern, rfl⟩ | ⟨run, uncompBuff, buffer, rfl, rfl, poured⟩
  · refine iff_of_true ?_ (.inl raw)
    have there : block.body.length = block.seclen := by
      rw [bytes] at length
      rw [same, Int.toNat_natCast] at length
      rw [Block.body, same, Int.toNat_natCast]
      exact length
    refine ⟨block.body, by rw [expansion, if_pos raw], there, bytes, ?_⟩
    have enough : block.seclen ≤ block.behind.avail := by
      rw [← there, Block.body, List.length_take, Buffer.length_ahead]
      exact Nat.min_le_right _ _
    rw [behind (by omega), same, Int.toNat_natCast]
    show ((block.buffer.index + 9 + min block.seclen block.behind.avail : Nat) : Int) = _
    rw [Nat.min_eq_left enough]
    omega
  · have other : ¬ Plain block := by
      rintro (raw | ⟨run, _⟩)
      · rw [pattern] at raw
        cases raw
      · rw [pattern] at run
        cases run
    exact iff_of_false (patterns_missed accepted pattern) other
  · have start : block.behind.index = block.buffer.index + 9 := rfl
    have stands : expansion block = runs block.body := by
      rw [expansion, run]
      rfl
    constructor
    · rintro ⟨expanded, stated, whole, placed, here⟩
      rw [placed, whole] at length
      have single : runTimes (block.hdrb 9) (block.hdrb 10) = 1 := by
        obtain ⟨taken, reached, _, total, _⟩ := poured
        obtain rfl : taken = block.seclen := by omega
        rw [Nat.sub_zero] at total
        exact Nat.eq_of_mul_eq_mul_right positive (by rw [total, Nat.one_mul])
      have same : block.dataLen = block.seclen := by omega
      rw [single] at poured
      obtain ⟨read, _, _⟩ := runs_placed poured same
      rw [← placed, bytes, read] at stated
      exact .inr ⟨run, same, runTimes_one.mp single, by rw [← stands, stated]⟩
    · rintro (raw | ⟨_, same, once, own⟩)
      · rw [run] at raw
        cases raw
      · rw [runTimes_one.mpr once] at poured
        obtain ⟨read, whole, reached⟩ := runs_placed poured same
        exact ⟨block.body, by rw [stands, own], whole, by rw [bytes, read], by omega⟩

/-- An image of one track of two sectors of 128 bytes: a block of 64 patterns, and a raw one. -/
def image : List UInt8 :=
  [0x54, 0x44, 0, 0, 0x15, 0, 0, 0, 0, 1, 0, 0] ++ [2, 0, 0, 0] ++
    [0, 0, 1, 0, 0, 0, 5, 0, 1] ++ [64, 0, 0x41, 0x42] ++
    [0, 0, 2, 0, 0, 0, 129, 0, 0] ++ List.replicate 128 0xe5 ++ [255]

/-- The block of patterns. -/
def patternBlock : Block :=
  ⟨⟨image, 16, by decide +kernel⟩, by decide +kernel⟩

/-- The raw block. -/
def rawBlock : Block :=
  ⟨⟨image, 29, by decide +kernel⟩, by decide +kernel⟩

/-- A new track behind its first gap. -/
def blank : Loader :=
  ⟨⟨fun _ => 0, fun _ => false, 3125, 16⟩, fun _ => 0⟩

/-- The block was accepted. -/
def Outcome.isPlaced : Outcome → Bool
  | .placed .. => true
  | _ => false

theorem Outcome.of_isPlaced {outcome : Outcome} (placed : outcome.isPlaced = true) :
    ∃ st index, outcome = .placed st index := by
  cases outcome with
  | placed st index => exact ⟨st, index, rfl⟩
  | _ => cases placed

theorem td0_sector_raw : ∃ st' index, sectorBlock (gapOf gapMinimalFm) rawBlock blank = .placed st' index ∧
    (Expanded (gapOf gapMinimalFm) rawBlock blank st' index ↔ Plain rawBlock) := by
  obtain ⟨st', index, accepted⟩ := Outcome.of_isPlaced
    (show (sectorBlock (gapOf gapMinimalFm) rawBlock blank).isPlaced = true by decide +kernel)
  exact ⟨st', index, accepted, td0_sector accepted⟩

theorem pattern_not_expanded : ∃ st' index,
    sectorBlock (gapOf gapMinimalFm) patternBlock blank = .placed st' index ∧
      ¬ Expanded (gapOf gapMinimalFm) patternBlock blank st' index := by
  obtain ⟨st', index, accepted⟩ := Outcome.of_isPlaced
    (show (sectorBlock (gapOf gapMinimalFm) patternBlock blank).isPlaced = true by decide +kernel)
  exact ⟨st', index, accepted, patterns_missed accepted (by decide)⟩

end FuseX.Disk.TeleDisk
