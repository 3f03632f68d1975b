import FuseX.Lib.Parsing
import Mathlib.Data.UInt

/-!
# Recording the sound chip

A PSG file has the registers that were written in each frame. A frame begins with `0xff`, and `0xfe` with a
count stands for four times as many frames; frames without a write are counted until the next one that has
some. `psg_read_back` says that a recorder's file has all the frames, with the value that was written first to
each of the 14 registers, and an empty frame that ends it.

Errors of the file system are left out, and so is a count of empty frames that does not fit an `int`.
-/

namespace FuseX.Sound.Psg

open Lib

/-- `PSG_REGISTERS`. -/
def psgRegisters : Nat := 14

/-- `PSG_FRAMES_PER_BLOCK`. -/
def framesPerBlock : Nat := 4

/-- `PSG_SINGLE_FRAME_MARKER`. -/
def singleFrameMarker : UInt8 := 0xff

/-- `PSG_MULTI_FRAME_MARKER`. -/
def multiFrameMarker : UInt8 := 0xfe

/-- The variables of the recorder, and the file behind its header. -/
structure Psg : Type where
  recording : Bool
  registerValues : Nat → UInt8
  registersWritten : Nat → Bool
  emptyFrameCount : Nat
  file : List UInt8

namespace Psg

/-- The header of `psg_start_recording`. -/
def header : List UInt8 :=
  [0x50, 0x53, 0x47, 0x1a] ++ List.replicate 12 0

/-- `psg_start_recording`. -/
def startRecording (s : Psg) : Psg :=
  if s.recording then s
  else
    { s with
      recording := true
      registersWritten := fun _ => false
      emptyFrameCount := 1
      file := header }

/-- The blocks of frames in `write_frame_separator`, and the frames left. -/
def frameBlocks : Nat → Nat → List UInt8 × Nat
  | 0, count => ([], count)
  | fuel + 1, count =>
      if framesPerBlock ≤ count then
        let blocks := min (count / framesPerBlock) 0xff
        let (written, left) := frameBlocks fuel (count - framesPerBlock * blocks)
        (multiFrameMarker :: UInt8.ofNat blocks :: written, left)
      else ([], count)

/-- `write_frame_separator`. -/
def writeFrameSeparator (s : Psg) : Psg :=
  let (blocks, left) := frameBlocks s.emptyFrameCount s.emptyFrameCount
  { s with
    file := s.file ++ blocks ++ List.replicate left singleFrameMarker
    emptyFrameCount := 0 }

/-- The registers of the frame, in `psg_frame`. -/
def frameRegisters (s : Psg) : List UInt8 :=
  ((List.range psgRegisters).filter s.registersWritten).flatMap fun i => [UInt8.ofNat i, s.registerValues i]

/-- `psg_frame`. -/
def psgFrame (s : Psg) : Psg :=
  if s.recording then
    let s :=
      if (List.range psgRegisters).any s.registersWritten then
        let s := s.writeFrameSeparator
        { s with file := s.file ++ s.frameRegisters, emptyFrameCount := 1 }
      else { s with emptyFrameCount := s.emptyFrameCount + 1 }
    { s with registersWritten := fun _ => false }
  else s

/-- `psg_write_register`. -/
def psgWriteRegister (s : Psg) (register : Nat) (value : UInt8) : Psg :=
  if s.registersWritten register then s
  else
    { s with
      registerValues := Function.update s.registerValues register value
      registersWritten := Function.update s.registersWritten register true }

/-- `psg_stop_recording`. -/
def stopRecording (s : Psg) : Psg :=
  if s.recording then { s.psgFrame.writeFrameSeparator with recording := false } else s

end Psg

/-- What may happen to a recording. -/
inductive Act : Type
  | write (register : Nat) (value : UInt8)
  | frame

def Psg.step (s : Psg) : Act → Psg
  | .write register value => s.psgWriteRegister register value
  | .frame => s.psgFrame

/-! ## Reading a file -/

/-- A frame of a file: the registers that are set in it. -/
abbrev Frame : Type :=
  List (Nat × UInt8)

inductive Item : Type
  | frames (count : Nat)
  | write (register : Nat) (value : UInt8)

def readItem : Parser UInt8 Item
  | [] => none
  | b :: rest =>
      if b = singleFrameMarker then some (.frames 1, rest)
      else
        match rest with
        | [] => none
        | c :: rest =>
            if b = multiFrameMarker then some (.frames (framesPerBlock * c.toNat), rest)
            else some (.write b.toNat c, rest)

/-- What an item does to the frames so far. -/
def Item.play (frames : List Frame) : Item → List Frame
  | .frames count => frames ++ List.replicate count []
  | .write register value =>
      match frames.getLast? with
      | none => frames
      | some last => frames.dropLast ++ [last ++ [(register, value)]]

def nextItem (_ : Unit) : Parser UInt8 (Item × Unit) :=
  readItem.andThen fun item => Parser.pure (item, ())

/-- The frames of a file. -/
def framesOf (file : List UInt8) : Option (List Frame) :=
  if file.take 16 = Psg.header then
    (parseAll nextItem (file.drop 16).length () (file.drop 16)).map fun read => read.1.foldl Item.play []
  else none

/-! ## What has been written -/

/-- The first value of each register. -/
def firstOf (writes : List (Nat × UInt8)) (register : Nat) : Option UInt8 :=
  (writes.find? fun write => write.1 = register).map Prod.snd

/-- What a file should have of a frame. -/
def frameOf (writes : List (Nat × UInt8)) : Frame :=
  (List.range psgRegisters).filterMap fun register => (firstOf writes register).map fun value => (register, value)

/-- The frames that are over, and the writes since. -/
structure Written : Type where
  frames : List Frame
  writes : List (Nat × UInt8)

def Written.step (w : Written) : Act → Written
  | .write register value => { w with writes := w.writes ++ [(register, value)] }
  | .frame => ⟨w.frames ++ [frameOf w.writes], []⟩

/-! ## What is read of what is written -/

/-- What is written turns some frames into others when it is read. -/
def Plays (written : List UInt8) (frames frames' : List Frame) : Prop :=
  ∃ items, Parsed nextItem () written items () ∧ items.foldl Item.play frames = frames'

section Plays

variable {written back : List UInt8} {frames frames' frames'' : List Frame} {item : Item} {last : Frame}

theorem Plays.nil : Plays [] frames frames :=
  ⟨[], .nil, rfl⟩

theorem Plays.append (plays : Plays written frames frames') (plays' : Plays back frames' frames'') :
    Plays (written ++ back) frames frames'' := by
  obtain ⟨items, parsed, rfl⟩ := plays
  obtain ⟨items', parsed', rfl⟩ := plays'
  exact ⟨items ++ items', parsed.append parsed', List.foldl_append⟩

theorem plays_item (some : written ≠ []) (reads : Reads readItem written item) :
    Plays written frames (item.play frames) :=
  ⟨[item], Parsed.nil.snoc some reads.map, rfl⟩

theorem plays_single : Plays [singleFrameMarker] frames (frames ++ [[]]) :=
  @plays_item _ _ (.frames 1) (List.cons_ne_nil _ _) fun _ => rfl

theorem plays_singles (n : Nat) :
    Plays (List.replicate n singleFrameMarker) frames (frames ++ List.replicate n []) := by
  induction n with
  | zero =>
    rw [List.replicate_zero, List.replicate_zero, List.append_nil]
    exact .nil
  | succ n ih =>
    rw [List.replicate_succ', List.replicate_succ', ← List.append_assoc]
    exact ih.append plays_single

theorem plays_block {blocks : Nat} (fits : blocks ≤ 0xff) :
    Plays [multiFrameMarker, UInt8.ofNat blocks] frames
      (frames ++ List.replicate (framesPerBlock * blocks) []) := by
  have count : (UInt8.ofNat blocks).toNat = blocks := by
    rw [UInt8.toNat_ofNat']
    omega
  refine @plays_item _ _ (.frames (framesPerBlock * blocks)) (List.cons_ne_nil _ _) fun rest => ?_
  have other : multiFrameMarker ≠ singleFrameMarker := by decide
  simp only [List.cons_append, List.nil_append, readItem, other, if_false, if_true, count]

theorem plays_write {register : Nat} (known : register < psgRegisters) (value : UInt8) :
    Plays [UInt8.ofNat register, value] (frames ++ [last]) (frames ++ [last ++ [(register, value)]]) := by
  have small : register < 14 := known
  have byte : (UInt8.ofNat register).toNat = register := by
    rw [UInt8.toNat_ofNat']
    omega
  have apart : ∀ marker : UInt8, 14 ≤ marker.toNat → UInt8.ofNat register ≠ marker := by
    rintro marker large rfl
    omega
  have read : Plays [UInt8.ofNat register, value] (frames ++ [last])
      ((Item.write register value).play (frames ++ [last])) := by
    refine plays_item (List.cons_ne_nil _ _) fun rest => ?_
    simp only [List.cons_append, List.nil_append, readItem, apart singleFrameMarker (by decide),
      apart multiFrameMarker (by decide), if_false, byte]
  simp only [Item.play, List.getLast?_concat, List.dropLast_concat] at read
  exact read

theorem plays_registers {registers : List Nat} (known : ∀ r ∈ registers, r < psgRegisters) (values : Nat → UInt8) :
    Plays (registers.flatMap fun i => [UInt8.ofNat i, values i]) (frames ++ [last])
      (frames ++ [last ++ registers.map fun i => (i, values i)]) := by
  induction registers generalizing last with
  | nil =>
    rw [List.map_nil, List.append_nil]
    exact .nil
  | cons i registers ih =>
    have first := @plays_write frames last i (known i List.mem_cons_self) (values i)
    have rest := @ih (last ++ [(i, values i)]) fun r inside => known r (List.mem_cons_of_mem i inside)
    rw [List.append_assoc, List.singleton_append] at rest
    exact first.append rest

/-- The blocks and the markers behind them stand for the frames that were counted. -/
theorem plays_frameBlocks (fuel count : Nat) :
    Plays ((Psg.frameBlocks fuel count).1 ++ List.replicate (Psg.frameBlocks fuel count).2 singleFrameMarker) frames
      (frames ++ List.replicate count []) := by
  induction fuel generalizing count frames with
  | zero => exact plays_singles count
  | succ fuel ih =>
    rw [Psg.frameBlocks]
    split
    · next many =>
      have fits : framesPerBlock * min (count / framesPerBlock) 0xff ≤ count := by
        have atMost := Nat.mul_le_mul_left framesPerBlock (Nat.min_le_left (count / framesPerBlock) 0xff)
        exact atMost.trans (Nat.mul_div_le count framesPerBlock)
      have rest := @ih (frames ++ List.replicate (framesPerBlock * min (count / framesPerBlock) 0xff) [])
        (count - framesPerBlock * min (count / framesPerBlock) 0xff)
      rw [List.append_assoc, ← List.replicate_add, Nat.add_sub_of_le fits] at rest
      exact (plays_block (Nat.min_le_right _ _)).append rest
    · exact plays_singles count

end Plays

/-! ## A run of the recorder -/

/-- The registers of a frame, as they are written. -/
theorem written_frameOf {isWritten : Nat → Bool} {values : Nat → UInt8} {writes : List (Nat × UInt8)}
    (same : ∀ r, isWritten r = (firstOf writes r).isSome)
    (first : ∀ r v, firstOf writes r = some v → values r = v) :
    (((List.range psgRegisters).filter isWritten).map fun i => (i, values i)) = frameOf writes := by
  rw [frameOf]
  induction List.range psgRegisters with
  | nil => rfl
  | cons r rs ih =>
    rcases found : firstOf writes r with _ | v
    · have clear : isWritten r = false := by rw [same, found]; rfl
      rw [List.filter_cons_of_neg (by rw [clear]; decide), List.filterMap_cons_none (by rw [found]; rfl), ih]
    · have set : isWritten r = true := by rw [same, found]; rfl
      rw [List.filter_cons_of_pos set, List.map_cons, first r v found,
        List.filterMap_cons_some (b := (r, v)) (by rw [found]; rfl), ih]

theorem firstOf_snoc (writes : List (Nat × UInt8)) (register : Nat) (value : UInt8) (r : Nat) :
    firstOf (writes ++ [(register, value)]) r =
      (firstOf writes r).or (if register = r then some value else none) := by
  rw [firstOf, List.find?_append, firstOf]
  by_cases here : register = r
  · subst here
    cases writes.find? fun write => write.1 = register <;> simp
  · cases writes.find? fun write => write.1 = r <;> simp [here]

/-- The file has the frames that are over, but for those that are counted. -/
structure Holds (w : Written) (s : Psg) : Prop where
  recording : s.recording = true
  file : ∃ body frames, s.file = Psg.header ++ body ∧ Plays body [] frames ∧
    frames ++ List.replicate s.emptyFrameCount [] = w.frames ++ [[]]
  written : ∀ r, s.registersWritten r = (firstOf w.writes r).isSome
  values : ∀ r v, firstOf w.writes r = some v → s.registerValues r = v

variable {w : Written} {s : Psg}

theorem holds_start (idle : s.recording = false) : Holds ⟨[], []⟩ s.startRecording := by
  have started : s.startRecording =
      { s with
        recording := true
        registersWritten := fun _ => false
        emptyFrameCount := 1
        file := Psg.header } := by
    rw [Psg.startRecording, idle]
    exact if_neg Bool.false_ne_true
  rw [started]
  refine ⟨rfl, ⟨[], [], (List.append_nil _).symm, .nil, rfl⟩, fun _ => rfl, fun r v wrong => ?_⟩
  cases wrong

theorem holds_write (holds : Holds w s) (register : Nat) (value : UInt8) :
    Holds (w.step (.write register value)) (s.psgWriteRegister register value) := by
  obtain ⟨recording, file, written, values⟩ := holds
  by_cases again : s.registersWritten register = true
  · rw [Psg.psgWriteRegister, if_pos again]
    have known : (firstOf w.writes register).isSome = true := by rw [← written, again]
    have same : ∀ r, firstOf (w.writes ++ [(register, value)]) r = firstOf w.writes r := by
      intro r
      rw [firstOf_snoc]
      by_cases here : register = r
      · subst here
        obtain ⟨v, found⟩ := Option.isSome_iff_exists.mp known
        rw [found]
        rfl
      · rw [if_neg here, Option.or_none]
    exact ⟨recording, file, fun r => (written r).trans (congrArg Option.isSome (same r).symm),
      fun r v found => values r v ((same r).symm.trans found)⟩
  · rw [Psg.psgWriteRegister, if_neg again]
    have fresh : firstOf w.writes register = none := by
      rw [← Option.not_isSome_iff_eq_none, ← written]
      exact again
    refine ⟨recording, file, fun r => ?_, fun r v found => ?_⟩
    · simp only [Written.step, firstOf_snoc, Function.update_apply]
      by_cases here : register = r
      · subst here
        rw [if_pos rfl, if_pos rfl, fresh]
        rfl
      · rw [if_neg (Ne.symm here), if_neg here, Option.or_none]
        exact written r
    · simp only [Written.step, firstOf_snoc] at found
      simp only [Function.update_apply]
      by_cases here : register = r
      · subst here
        rw [if_pos rfl, fresh] at found
        rw [if_pos rfl]
        exact Option.some.inj found
      · rw [if_neg here, Option.or_none] at found
        rw [if_neg (Ne.symm here)]
        exact values r v found

/-- The markers that are written are those of the frames that were counted. -/
theorem plays_separator (s : Psg) {body : List UInt8} {frames : List Frame} (file : s.file = Psg.header ++ body)
    (plays : Plays body [] frames) :
    ∃ body', s.writeFrameSeparator.file = Psg.header ++ body' ∧
      Plays body' [] (frames ++ List.replicate s.emptyFrameCount []) := by
  have marked := @plays_frameBlocks frames s.emptyFrameCount s.emptyFrameCount
  refine ⟨_, ?_, plays.append marked⟩
  rw [Psg.writeFrameSeparator, ← List.append_assoc, ← List.append_assoc, ← file]

theorem holds_frame (holds : Holds w s) : Holds (w.step .frame) s.psgFrame := by
  obtain ⟨recording, ⟨body, frames, file, plays, counted⟩, written, values⟩ := holds
  have content := written_frameOf written values
  have cleared : ∀ r : Nat, false = (firstOf [] r).isSome := fun _ => rfl
  rw [Psg.psgFrame, if_pos recording]
  by_cases updated : (List.range psgRegisters).any s.registersWritten = true
  · rw [if_pos updated]
    obtain ⟨body', file', plays'⟩ := plays_separator s file plays
    rw [counted] at plays'
    have known : ∀ r ∈ (List.range psgRegisters).filter s.registersWritten, r < psgRegisters := fun r inside =>
      List.mem_range.mp (List.mem_of_mem_filter inside)
    have registers := @plays_registers w.frames [] _ known s.registerValues
    rw [content, List.nil_append] at registers
    refine ⟨recording, ⟨body' ++ s.frameRegisters, w.frames ++ [frameOf w.writes], ?_, plays'.append registers, rfl⟩,
      cleared, fun r v wrong => by cases wrong⟩
    change s.writeFrameSeparator.file ++ s.frameRegisters = _
    rw [file', List.append_assoc]
  · rw [if_neg updated]
    have none : frameOf w.writes = [] := by
      rw [← content, List.map_eq_nil_iff, List.filter_eq_nil_iff]
      intro r inside set
      exact updated (List.any_eq_true.mpr ⟨r, inside, set⟩)
    refine ⟨recording, ⟨body, frames, file, plays, ?_⟩, cleared, fun r v wrong => by cases wrong⟩
    change frames ++ List.replicate (s.emptyFrameCount + 1) [] = w.frames ++ [frameOf w.writes] ++ [[]]
    rw [List.replicate_succ', ← List.append_assoc, counted, none]

theorem holds_run (acts : List Act) (holds : Holds w s) :
    Holds (acts.foldl Written.step w) (acts.foldl Psg.step s) := by
  induction acts generalizing w s with
  | nil => exact holds
  | cons act acts ih =>
    refine ih ?_
    cases act with
    | write register value => exact holds_write holds register value
    | frame => exact holds_frame holds

/-- The file of a recording has each frame with what was written in it, and then an empty frame. -/
theorem psg_read_back {s : Psg} (idle : s.recording = false) (acts : List Act) :
    framesOf (acts.foldl Psg.step s.startRecording).stopRecording.file =
      some (((acts ++ [Act.frame]).foldl Written.step ⟨[], []⟩).frames ++ [[]]) := by
  have holds := holds_frame (holds_run acts (holds_start idle))
  obtain ⟨-, ⟨body, frames, file, plays, counted⟩, -, -⟩ := holds
  obtain ⟨body', file', items, parsed, played⟩ := plays_separator _ file plays
  have recording := (holds_run acts (holds_start idle)).recording
  rw [Psg.stopRecording, if_pos recording]
  change framesOf (acts.foldl Psg.step s.startRecording).psgFrame.writeFrameSeparator.file = _
  have front : (Psg.header ++ body').take 16 = Psg.header := rfl
  have rest : (Psg.header ++ body').drop 16 = body' := rfl
  rw [file', framesOf, if_pos front, rest, parsed.parseAll, Option.map_some, played, counted, List.foldl_append]
  rfl

/-- Two frames without a write, and a register that is written twice in the third. -/
theorem psg_read_back_third :
    framesOf (([.frame, .frame, .write 7 0x40, .write 15 1, .write 7 0x50] : List Act).foldl Psg.step
      (Psg.startRecording ⟨false, fun _ => 0, fun _ => false, 0, []⟩)).stopRecording.file =
      some [[], [], [(7, 0x40)], []] :=
  psg_read_back rfl [.frame, .frame, .write 7 0x40, .write 15 1, .write 7 0x50]

end FuseX.Sound.Psg
