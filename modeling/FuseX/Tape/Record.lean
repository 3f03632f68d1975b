import FuseX.Lib.Parsing
import Mathlib.Data.UInt

/-!
# Recording a tape

A recording samples the MIC level at a fixed rate and keeps how long each level lasts: a count up to 255
in a byte, a longer one in four bytes behind a zero byte. Stopping makes a block of RLE pulses of the
buffer. `recorded_levels` says that the pulses of that block, turned back into levels, are the samples, and
that nothing is written past the end of the buffer, as long as fewer than 2³¹ samples are taken (at 44.1 kHz,
thirteen hours). Scheduling the samples and the menu are left out.
-/

namespace FuseX.Tape.Record

open Lib

/-! ## The recorder -/

/-- `tape_rec_state`. The buffer is what is used of it; `overrun` is set by a write behind its end. -/
structure TapeRecState : Type where
  tapeBuffer : List UInt8
  tapeBufferSize : Nat
  overrun : Bool
  tstatesPerSample : Nat
  lastLevel : Bool
  lastLevelCount : Nat

/-- `TAPE_RECORDING_SAMPLE_RATE`. -/
def tapeRecordingSampleRate : Nat := 44100

/-- `TAPE_RECORDING_BUFFER_SIZE`. -/
def tapeRecordingBufferSize : Nat := 8192

namespace TapeRecState

/-- `tape_buffer[ tape_buffer_used++ ] = b`. -/
def put (s : TapeRecState) (b : Nat) : TapeRecState :=
  { s with
    tapeBuffer := s.tapeBuffer ++ [UInt8.ofNat b]
    overrun := s.overrun || decide (s.tapeBufferSize ≤ s.tapeBuffer.length) }

/-- `tape_record_encode`, of the count that is open. The count is an `int`. -/
def tapeRecordEncode (s : TapeRecState) : TapeRecState :=
  let count := s.lastLevelCount
  if count ≤ 0xff ∨ 2 ^ 31 ≤ count then s.put count
  else
    [0, count % 256, count / 256 % 256, count / 65536 % 256, count / 16777216 % 256].foldl put s

/-- `tape_record_ensure_capacity`, with a size of 32 bits. -/
def tapeRecordEnsureCapacity (s : TapeRecState) : TapeRecState :=
  if s.tapeBuffer.length + 5 < s.tapeBufferSize then s
  else { s with tapeBufferSize := s.tapeBufferSize * 2 % 2 ^ 32 }

/-- `tape_record_start`. -/
def tapeRecordStart (processorSpeed : Nat) (tapeLevel : Bool) : TapeRecState where
  tapeBuffer := []
  tapeBufferSize := tapeRecordingBufferSize
  overrun := false
  tstatesPerSample := processorSpeed / tapeRecordingSampleRate
  lastLevel := tapeLevel
  lastLevelCount := 1

/-- `tape_event_record_sample`. -/
def tapeEventRecordSample (s : TapeRecState) (tapeLevel : Bool) : TapeRecState :=
  let s :=
    if s.lastLevel ≠ tapeLevel then
      { s.tapeRecordEncode with lastLevelCount := 0, lastLevel := tapeLevel }.tapeRecordEnsureCapacity
    else s
  { s with lastLevelCount := (s.lastLevelCount + 1) % 2 ^ 32 }

/-- The block that `tape_record_stop` appends to the tape, and the recorder behind it. -/
def tapeRecordStop (s : TapeRecState) : (Nat × List UInt8) × TapeRecState :=
  let s := s.tapeRecordEncode
  ((s.tstatesPerSample, s.tapeBuffer), s)

end TapeRecState

/-! ## What a block stands for -/

/-- A count of a block of RLE pulses. -/
def readCount : Parser UInt8 Nat
  | [] => none
  | b :: rest =>
      if b ≠ 0 then some (b.toNat, rest)
      else
        match rest with
        | b₀ :: b₁ :: b₂ :: b₃ :: rest =>
            some (b₀.toNat + 256 * b₁.toNat + 65536 * b₂.toNat + 16777216 * b₃.toNat, rest)
        | _ => none

/-- A pulse: the level stays for the count, and is the other one then. -/
def readPulse (level : Bool) : Parser UInt8 (List Bool × Bool) :=
  readCount.andThen fun count => Parser.pure (List.replicate count level, !level)

/-- The samples of a block that begins at a level. -/
def samplesOf (level : Bool) (block : List UInt8) : Option (List Bool) :=
  (parseAll readPulse block.length level block).map fun read => read.1.flatten

/-! ## Recording -/

variable {s : TapeRecState} {start level : Bool} {levels : List Bool} {count : Nat}

theorem readCount_short (some : 0 < count) (short : count ≤ 0xff) : Reads readCount [UInt8.ofNat count] count := by
  intro rest
  have byte : (UInt8.ofNat count).toNat = count := by
    rw [UInt8.toNat_ofNat']
    omega
  have nonzero : UInt8.ofNat count ≠ 0 := by
    intro zero
    rw [zero] at byte
    exact Nat.ne_of_lt some byte
  simp only [List.singleton_append, readCount, nonzero, ne_eq, not_false_eq_true, if_true, byte]

/-- The bytes of a long count. -/
def longCount (count : Nat) : List Nat :=
  [0, count % 256, count / 256 % 256, count / 65536 % 256, count / 16777216 % 256]

theorem readCount_long (fits : count < 2 ^ 32) : Reads readCount ((longCount count).map UInt8.ofNat) count := by
  intro rest
  have byte : ∀ n, (UInt8.ofNat (n % 256)).toNat = n % 256 := by
    intro n
    rw [UInt8.toNat_ofNat']
    omega
  have zero : UInt8.ofNat 0 = 0 := rfl
  have whole : count % 256 + 256 * (count / 256 % 256) + 65536 * (count / 65536 % 256) +
      16777216 * (count / 16777216 % 256) = count := by omega
  simp only [longCount, List.map_cons, List.map_nil, List.cons_append, List.nil_append, readCount, zero, ne_eq,
    not_true_eq_false, if_false, byte, whole]

theorem put_fits (clean : s.overrun = false) (b : Nat) (room : s.tapeBuffer.length < s.tapeBufferSize) :
    s.put b = { s with tapeBuffer := s.tapeBuffer ++ [UInt8.ofNat b] } := by
  rw [TapeRecState.put, clean, Bool.false_or, decide_eq_false (Nat.not_le.mpr room), ← clean]

theorem puts_fit (clean : s.overrun = false) (bs : List Nat)
    (room : s.tapeBuffer.length + bs.length ≤ s.tapeBufferSize) :
    bs.foldl TapeRecState.put s = { s with tapeBuffer := s.tapeBuffer ++ bs.map UInt8.ofNat } := by
  induction bs generalizing s with
  | nil => rw [List.map_nil, List.append_nil]; rfl
  | cons b bs ih =>
    rw [List.length_cons] at room
    rw [List.foldl_cons, put_fits clean b (by omega), ih]
    · simp only [List.append_assoc, List.map_cons, List.singleton_append]
    · exact clean
    · simp only [List.length_append, List.length_singleton]
      omega

/-- An open count is written as a pulse, without leaving the buffer. -/
theorem encode_spec (some : 0 < s.lastLevelCount) (fits : s.lastLevelCount < 2 ^ 31)
    (room : s.tapeBuffer.length + 5 < s.tapeBufferSize) (clean : s.overrun = false) :
    ∃ written, s.tapeRecordEncode = { s with tapeBuffer := s.tapeBuffer ++ written } ∧ written ≠ [] ∧
      Reads (readPulse s.lastLevel) written (List.replicate s.lastLevelCount s.lastLevel, !s.lastLevel) ∧
      written.length ≤ 5 ∧ written.length ≤ s.lastLevelCount := by
  rw [TapeRecState.tapeRecordEncode]
  by_cases short : s.lastLevelCount ≤ 0xff
  · rw [if_pos (.inl short), put_fits clean _ (by omega)]
    exact ⟨_, rfl, List.cons_ne_nil _ _, (readCount_short some short).map, Nat.succ_le_succ (Nat.zero_le 4), some⟩
  · have long : ¬ (s.lastLevelCount ≤ 0xff ∨ 2 ^ 31 ≤ s.lastLevelCount) := by omega
    rw [if_neg long]
    refine ⟨(longCount s.lastLevelCount).map UInt8.ofNat, puts_fit clean (longCount s.lastLevelCount) ?_,
      List.cons_ne_nil _ _, (readCount_long (by omega)).map, Nat.le_refl 5, ?_⟩
    · exact Nat.le_of_lt room
    · exact Nat.le_trans (by decide : 5 ≤ 0xff) (Nat.le_of_not_le short)

/-! ## A run of the recorder -/

/-- What is in the buffer stands for the samples in front of the open count. -/
structure Recorded (start : Bool) (levels : List Bool) (s : TapeRecState) : Prop where
  open_ : 0 < s.lastLevelCount
  parsed : ∃ groups, Parsed readPulse start s.tapeBuffer groups s.lastLevel ∧
    groups.flatten ++ List.replicate s.lastLevelCount s.lastLevel = levels
  used : s.tapeBuffer.length + s.lastLevelCount ≤ levels.length
  room : s.tapeBuffer.length + 5 < s.tapeBufferSize
  size : tapeRecordingBufferSize ≤ s.tapeBufferSize
  clean : s.overrun = false

theorem recorded_start (processorSpeed : Nat) (level : Bool) :
    Recorded level [level] (TapeRecState.tapeRecordStart processorSpeed level) where
  open_ := Nat.one_pos
  parsed := ⟨[], .nil, rfl⟩
  used := Nat.le_refl 1
  room := Nat.lt_of_sub_pos (Nat.succ_pos 8186)
  size := Nat.le_refl _
  clean := rfl

theorem recorded_sample (recorded : Recorded start levels s) (short : levels.length + 6 < 2 ^ 31) (level : Bool) :
    Recorded start (levels ++ [level]) (s.tapeEventRecordSample level) := by
  obtain ⟨some, ⟨groups, parsed, whole⟩, used, room, size, clean⟩ := recorded
  by_cases same : s.lastLevel = level
  · have next : (s.lastLevelCount + 1) % 2 ^ 32 = s.lastLevelCount + 1 := Nat.mod_eq_of_lt (by omega)
    simp only [TapeRecState.tapeEventRecordSample, same, ne_eq, not_true_eq_false, if_false, next]
    exact
      { open_ := Nat.succ_pos _
        parsed := ⟨groups, same ▸ parsed, by
          rw [← whole, ← same, List.append_assoc, ← List.replicate_succ']⟩
        used := by
          rw [List.length_append, List.length_singleton]
          exact Nat.succ_le_succ used
        room := room
        size := size
        clean := clean }
  · obtain ⟨written, encoded, nonempty, reads, atMost, counted⟩ := encode_spec some (by omega) room clean
    have turned : (!s.lastLevel) = level := by
      cases was : s.lastLevel <;> cases now : level <;> simp_all
    rw [turned] at reads
    have parsed' : Parsed readPulse start (s.tapeBuffer ++ written)
        (groups ++ [List.replicate s.lastLevelCount s.lastLevel]) level := parsed.snoc nonempty reads
    have whole' : (groups ++ [List.replicate s.lastLevelCount s.lastLevel]).flatten = levels := by
      rw [List.flatten_append, List.flatten_singleton, whole]
    have used' : (s.tapeBuffer ++ written).length ≤ levels.length := by
      rw [List.length_append]
      omega
    have large : tapeRecordingBufferSize = 8192 := rfl
    simp only [TapeRecState.tapeEventRecordSample, same, ne_eq, not_false_eq_true, if_true, encoded,
      TapeRecState.tapeRecordEnsureCapacity]
    have kept : ∀ size', (s.tapeBuffer ++ written).length + 5 < size' → tapeRecordingBufferSize ≤ size' →
        Recorded start (levels ++ [level])
          { s with
            tapeBuffer := s.tapeBuffer ++ written
            tapeBufferSize := size'
            lastLevel := level
            lastLevelCount := 1 } := fun size' room' size' =>
      { open_ := Nat.one_pos
        parsed := ⟨_, parsed', by rw [whole']; rfl⟩
        used := by
          have more : (levels ++ [level]).length = levels.length + 1 := List.length_append
          rw [more]
          exact Nat.add_le_add_right used' 1
        room := room'
        size := size'
        clean := clean }
    by_cases enough : (s.tapeBuffer ++ written).length + 5 < s.tapeBufferSize
    · rw [if_pos enough]
      exact kept _ enough size
    · rw [if_neg enough]
      have grown : s.tapeBufferSize * 2 % 2 ^ 32 = s.tapeBufferSize * 2 := Nat.mod_eq_of_lt (by omega)
      have wide : (s.tapeBuffer ++ written).length + 5 < s.tapeBufferSize * 2 := by
        rw [List.length_append]
        omega
      simp only [grown]
      exact kept _ wide (by omega)

theorem recorded_run {samples : List Bool} (recorded : Recorded start levels s)
    (short : (levels ++ samples).length + 6 < 2 ^ 31) :
    Recorded start (levels ++ samples) (samples.foldl TapeRecState.tapeEventRecordSample s) := by
  induction samples generalizing levels s with
  | nil =>
    rw [List.append_nil]
    exact recorded
  | cons level samples ih =>
    rw [List.append_cons] at short ⊢
    refine ih (recorded_sample recorded ?_ level) short
    simp only [List.length_append, List.length_singleton] at short
    omega

/-- The block of a recording stands for the levels that were sampled, and the buffer held it. -/
theorem recorded_levels (processorSpeed : Nat) (level : Bool) {samples : List Bool}
    (short : samples.length + 7 < 2 ^ 31) :
    let recorder :=
      samples.foldl TapeRecState.tapeEventRecordSample (TapeRecState.tapeRecordStart processorSpeed level)
    let (block, stopped) := recorder.tapeRecordStop
    samplesOf level block.2 = some (level :: samples) ∧ block.2.length ≤ (level :: samples).length ∧
      stopped.overrun = false := by
  intro recorder
  have recorded : Recorded level ([level] ++ samples) recorder :=
    recorded_run (recorded_start processorSpeed level) (by rw [List.length_append, List.length_singleton]; omega)
  obtain ⟨some, ⟨groups, parsed, whole⟩, used, room, -, clean⟩ := recorded
  rw [List.length_append, List.length_singleton] at used
  obtain ⟨written, encoded, nonempty, reads, -, counted⟩ := encode_spec some (by omega) room clean
  have all := (parsed.snoc nonempty reads).parseAll
  simp only [TapeRecState.tapeRecordStop, encoded]
  refine ⟨?_, ?_, clean⟩
  · rw [samplesOf, all, Option.map_some, List.flatten_append, List.flatten_singleton, whole]
    rfl
  · rw [List.length_append, List.length_cons]
    omega

/-- A level that stays for 300 samples, and 2 samples of the other one. -/
theorem recorded_levels_long :
    samplesOf false
        ((List.replicate 299 false ++ [true, true]).foldl TapeRecState.tapeEventRecordSample
          (TapeRecState.tapeRecordStart 3500000 false)).tapeRecordStop.1.2 =
      some (false :: (List.replicate 299 false ++ [true, true])) :=
  (@recorded_levels 3500000 false (List.replicate 299 false ++ [true, true])
    (by rw [List.length_append, List.length_replicate]; decide)).1

end FuseX.Tape.Record
