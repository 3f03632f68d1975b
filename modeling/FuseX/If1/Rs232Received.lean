import FuseX.If1.Rs232Sent

/-!
# What a program receives

A pipe is read in two places: when the control port is polled, with a byte kept for later, and when the NET
port is read. What is `pending` is what both have left. A program hears a byte as a start bit of four reads,
eight data bits and one more read; `pipe_delivers` says that it hears what has been sent.
-/

namespace FuseX.If1.Rs232

open Lib

/-! ## Hearing a line -/

/-- How far a program that listens has come with a byte. -/
inductive Listener : Type
  | idle
  | start (reads : Nat)
  | data (bits : List Bool)
  | stop
deriving DecidableEq

/-- It hears a bit. -/
def Listener.hear : Listener → Bool → Listener × List UInt8
  | idle, tx => (if tx then start 1 else idle, [])
  | start reads, tx => (if tx then if reads + 1 = 4 then data [] else start (reads + 1) else idle, [])
  | data bits, tx =>
    if bits.length + 1 = 8 then (stop, [UInt8.ofNat (ofBits (bits ++ [!tx]))]) else (data (bits ++ [!tx]), [])
  | stop, _ => (idle, [])

/-- The bytes in what is read from the NET port. -/
def hears : Listener → List UInt8 → List UInt8
  | _, [] => []
  | listener, val :: vals =>
    let (next, bytes) := listener.hear (val &&& 0x80 ≠ 0)
    bytes ++ hears next vals

/-- A byte is on its way to the program. -/
def If1Ula.Receiving (s : If1Ula) : Prop := 1 ≤ s.countIn ∧ s.countIn < 13

/-- CTS is held high during each byte, and the line is not started again. -/
def Held (rs232Handshake : Bool) : If1Ula → List Op → Prop
  | _, [] => True
  | s, .ctrOut val :: ops =>
    (s.Receiving → val &&& 0x10 ≠ 0 ∧ (val &&& 0x01 = 0 ∨ s.commsData ≠ 0)) ∧
      Held rs232Handshake (step rs232Handshake s (.ctrOut val)) ops
  | s, op :: ops => Held rs232Handshake (step rs232Handshake s op) ops

/-- What has come in through the pipe. -/
def arrivals : List Op → List UInt8
  | [] => []
  | .arrive bytes :: ops => bytes ++ arrivals ops
  | _ :: ops => arrivals ops

/-! ## The two readers -/

/-- The byte that is kept from a poll. -/
def If1Ula.lookAhead (s : If1Ula) : List UInt8 :=
  if s.rs232Buffer ≤ 0xff then [UInt8.ofNat s.rs232Buffer] else []

/-- The bytes that have come in and have not been given to the program. -/
def If1Ula.pending (s : If1Ula) : List UInt8 :=
  s.lookAhead ++ payload 0x00 0x2a (decide (s.escIn = 1)) (s.fdR.getD [])

/-- Whether what has come in ends with an escape byte. -/
def If1Ula.inEscape (s : If1Ula) : Bool :=
  escaped 0x00 (decide (s.escIn = 1)) (s.fdR.getD [])

variable {rs232Handshake : Bool} {s : If1Ula}

theorem payload_star {stream : List UInt8} :
    payload 0x00 0x2a true (0x2a :: stream) = 0x00 :: payload 0x00 0x2a false stream := rfl

theorem payload_control {byte : UInt8} {stream : List UInt8} (other : byte ≠ 0x2a) :
    payload 0x00 0x2a true (byte :: stream) = payload 0x00 0x2a false stream := if_neg other

theorem payload_plain {byte : UInt8} {stream : List UInt8} (plain : byte ≠ 0x00) :
    payload 0x00 0x2a false (byte :: stream) = byte :: payload 0x00 0x2a false stream := if_neg plain

theorem payload_zero {stream : List UInt8} :
    payload 0x00 0x2a false (0x00 :: stream) = payload 0x00 0x2a true stream := rfl

/-- What a poll of some bytes does. -/
def Polls (s : If1Ula) (bytes : List UInt8) (polled : If1Ula) : Prop :=
  (∃ fdR rs232Buffer dtr escIn, polled = { s with fdR := some fdR, rs232Buffer, dtr, escIn }) ∧
    polled.pending = payload 0x00 0x2a (decide (s.escIn = 1)) bytes ∧
    polled.inEscape = escaped 0x00 (decide (s.escIn = 1)) bytes

/-- Over a byte that is not given to the program. -/
theorem Polls.over {bytes : List UInt8} {byte : UInt8} {polled : If1Ula} {dtr escIn : Nat}
    (polls : Polls { s with dtr, escIn } bytes polled)
    (nothing : payload 0x00 0x2a (decide (s.escIn = 1)) (byte :: bytes) =
      payload 0x00 0x2a (decide (escIn = 1)) bytes)
    (same : escaped 0x00 (decide (s.escIn = 1)) (byte :: bytes) = escaped 0x00 (decide (escIn = 1)) bytes) :
    Polls s (byte :: bytes) polled := by
  obtain ⟨⟨fdR, rs232Buffer, dtr, escIn, rfl⟩, pending, inEscape⟩ := polls
  exact ⟨⟨fdR, rs232Buffer, dtr, escIn, rfl⟩, pending.trans nothing.symm, inEscape.trans same.symm⟩

theorem pollLoop_polls {bytes : List UInt8} (empty : 0xff < s.rs232Buffer) :
    Polls s bytes (If1Ula.pollLoop rs232Handshake bytes s) := by
  induction bytes generalizing s with
  | nil =>
    refine ⟨⟨[], s.rs232Buffer, s.dtr, s.escIn, rfl⟩, ?_, rfl⟩
    rw [If1Ula.pollLoop, If1Ula.pending, If1Ula.lookAhead, if_neg (Nat.not_le_of_lt empty)]
    rfl
  | cons byte rest ih =>
    rw [If1Ula.pollLoop]
    by_cases esc : s.escIn = 1
    · rw [if_pos esc]
      by_cases star : byte = 0x2a
      · rw [if_pos star]
        refine ⟨⟨rest, 0, s.dtr, 0, rfl⟩, ?_, ?_⟩
        · rw [decide_eq_true esc, star]
          rfl
        · rw [decide_eq_true esc]
          rfl
      · rw [if_neg star]
        have nothing : payload 0x00 0x2a (decide (s.escIn = 1)) (byte :: rest) =
            payload 0x00 0x2a (decide (0 = 1)) rest := by
          rw [decide_eq_true esc]
          exact payload_control star
        have same : escaped 0x00 (decide (s.escIn = 1)) (byte :: rest) = escaped 0x00 (decide (0 = 1)) rest := by
          rw [decide_eq_true esc]
          rfl
        have control : ∀ dtr, Polls s (byte :: rest)
            (If1Ula.pollLoop rs232Handshake rest { s with dtr, escIn := 0 }) := by
          intro dtr
          have polls : Polls { s with dtr, escIn := 0 } rest
              (If1Ula.pollLoop rs232Handshake rest { s with dtr, escIn := 0 }) := ih empty
          exact polls.over nothing same
        split_ifs
        all_goals exact control _
    · rw [if_neg esc]
      by_cases zero : byte = 0x00
      · rw [if_pos zero]
        refine (ih (s := { s with escIn := 1 }) empty).over ?_ ?_
        · rw [decide_eq_false esc, zero]
          rfl
        · rw [decide_eq_false esc, zero]
          rfl
      · rw [if_neg zero]
        refine ⟨⟨rest, byte.toNat, s.dtr, s.escIn, rfl⟩, ?_, ?_⟩
        · rw [decide_eq_false esc, payload_plain zero, If1Ula.pending, If1Ula.lookAhead,
            if_pos (Nat.le_of_lt_succ byte.toNat_lt), UInt8.ofNat_toNat, decide_eq_false esc]
          rfl
        · rw [decide_eq_false esc, escaped, decide_eq_false zero, If1Ula.inEscape, decide_eq_false esc]
          rfl

/-- What a read of some bytes finds. -/
def Finds (s : If1Ula) (bytes : List UInt8) (found : Bool × If1Ula) : Prop :=
  (∃ fdR dtr dataIn escIn, found.2 = { s with fdR := some fdR, dtr, dataIn, escIn } ∧ dataIn < 256 ∧
    payload 0x00 0x2a (decide (s.escIn = 1)) bytes =
      (if found.1 then [UInt8.ofNat dataIn] else []) ++ payload 0x00 0x2a (decide (escIn = 1)) fdR ∧
    escaped 0x00 (decide (s.escIn = 1)) bytes = escaped 0x00 (decide (escIn = 1)) fdR ∧
    (found.1 = false → fdR = []))

theorem Finds.over {bytes : List UInt8} {byte : UInt8} {found : Bool × If1Ula} {dtr dataIn escIn : Nat}
    (finds : Finds { s with dtr, dataIn, escIn } bytes found)
    (nothing : payload 0x00 0x2a (decide (s.escIn = 1)) (byte :: bytes) =
      payload 0x00 0x2a (decide (escIn = 1)) bytes)
    (same : escaped 0x00 (decide (s.escIn = 1)) (byte :: bytes) = escaped 0x00 (decide (escIn = 1)) bytes) :
    Finds s (byte :: bytes) found := by
  obtain ⟨fdR, dtr, dataIn, escIn, result, fits, items, inEscape, all⟩ := finds
  exact ⟨fdR, dtr, dataIn, escIn, result, fits, nothing.trans items, same.trans inEscape, all⟩

theorem readByte_eq {old : Nat} {byte : UInt8} (fits : old < 256) : If1Ula.readByte old byte = byte.toNat := by
  rw [If1Ula.readByte, Nat.div_eq_of_lt fits, Nat.zero_mul, Nat.zero_add]

theorem readLoop_finds {bytes : List UInt8} (fits : s.dataIn < 256) :
    Finds s bytes (If1Ula.readLoop rs232Handshake bytes s) := by
  induction bytes generalizing s with
  | nil => exact ⟨[], s.dtr, s.dataIn, s.escIn, rfl, fits, rfl, rfl, fun _ => rfl⟩
  | cons byte rest ih =>
    have byteFits : byte.toNat < 256 := byte.toNat_lt
    have isStar : byte.toNat = 0x2a ↔ byte = 0x2a := UInt8.toNat_inj (b := 0x2a)
    have isZero : byte.toNat = 0x00 ↔ byte = 0x00 := UInt8.toNat_inj (b := 0x00)
    simp only [If1Ula.readLoop, readByte_eq fits]
    by_cases esc : s.escIn = 1
    · rw [if_pos esc]
      by_cases star : byte = 0x2a
      · rw [if_pos (isStar.mpr star)]
        refine ⟨rest, s.dtr, 0, 0, rfl, by decide, ?_, ?_, fun none => Bool.noConfusion none⟩
        · rw [decide_eq_true esc, star]
          rfl
        · rw [decide_eq_true esc]
          rfl
      · rw [if_neg fun same => star (isStar.mp same)]
        have nothing : payload 0x00 0x2a (decide (s.escIn = 1)) (byte :: rest) =
            payload 0x00 0x2a (decide (0 = 1)) rest := by
          rw [decide_eq_true esc]
          exact payload_control star
        have same : escaped 0x00 (decide (s.escIn = 1)) (byte :: rest) = escaped 0x00 (decide (0 = 1)) rest := by
          rw [decide_eq_true esc]
          rfl
        have control : ∀ dtr, Finds s (byte :: rest)
            (If1Ula.readLoop rs232Handshake rest { s with dtr, dataIn := byte.toNat, escIn := 0 }) := by
          intro dtr
          have finds : Finds { s with dtr, dataIn := byte.toNat, escIn := 0 } rest
              (If1Ula.readLoop rs232Handshake rest { s with dtr, dataIn := byte.toNat, escIn := 0 }) := ih byteFits
          exact finds.over nothing same
        split_ifs
        all_goals exact control _
    · rw [if_neg esc]
      by_cases zero : byte = 0x00
      · rw [if_pos (isZero.mpr zero)]
        refine (ih (s := { s with dataIn := byte.toNat, escIn := 1 }) byteFits).over ?_ ?_
        · rw [decide_eq_false esc, zero]
          rfl
        · rw [decide_eq_false esc, zero]
          rfl
      · rw [if_neg fun same => zero (isZero.mp same)]
        refine ⟨rest, s.dtr, byte.toNat, s.escIn, rfl, byteFits, ?_, ?_, fun none => Bool.noConfusion none⟩
        · rw [decide_eq_false esc, payload_plain zero, UInt8.ofNat_toNat]
          rfl
        · rw [decide_eq_false esc, escaped, decide_eq_false zero]

/-! ## A byte on its way -/

/-- What the program has heard of the byte that is on its way to it. -/
inductive Receives : If1Ula → Listener → List UInt8 → Prop
  | ready {s : If1Ula} {listener : Listener} (count : s.countIn = 0) (fits : s.dataIn < 256)
    (quiet : listener = .idle ∨ listener = .stop) : Receives s listener []
  | taken {s : If1Ula} {byte : UInt8} (count : s.countIn = 1) (data : s.dataIn = byte.toNat) (high : s.cts ≠ 0) :
    Receives s .idle [byte]
  | start {s : If1Ula} {byte : UInt8} {reads : Nat} (count : s.countIn = reads + 1) (some : 1 ≤ reads)
    (few : reads < 4) (data : s.dataIn = byte.toNat) (high : s.cts ≠ 0) : Receives s (.start reads) [byte]
  | data {s : If1Ula} {byte : UInt8} {bits : List Bool} (count : s.countIn = 5 + bits.length)
    (few : bits.length < 8) (split : byte.toNat = ofBits bits + 2 ^ bits.length * s.dataIn) (high : s.cts ≠ 0) :
    Receives s (.data bits) [byte]
  | done {s : If1Ula} (count : s.countIn = 13) (fits : s.dataIn < 256) : Receives s .stop []

variable {listener : Listener} {inflight : List UInt8}

theorem Receives.of_eq {s' : If1Ula} (receives : Receives s listener inflight) (count : s'.countIn = s.countIn)
    (data : s'.dataIn = s.dataIn) (high : s.Receiving → s.cts ≠ 0 → s'.cts ≠ 0) : Receives s' listener inflight := by
  cases receives with
  | ready count' fits quiet => exact .ready (count.trans count') (data ▸ fits) quiet
  | taken count' data' line =>
    exact .taken (count.trans count') (data.trans data') (high ⟨by omega, by omega⟩ line)
  | start count' some few data' line =>
    exact .start (count.trans count') some few (data.trans data') (high ⟨by omega, by omega⟩ line)
  | data count' few split line =>
    exact .data (count.trans count') few (data.symm ▸ split) (high ⟨by omega, by omega⟩ line)
  | done count' fits => exact .done (count.trans count') (data ▸ fits)

/-- How many reads it takes until everything has been heard. -/
def If1Ula.readsLeft (s : If1Ula) : Nat :=
  14 * s.pending.length + if s.countIn = 0 then 0 else 14 - s.countIn

/-- What the program has heard, and what has come in for it. -/
structure Delivers (arrived heard : List UInt8) (listener : Listener) (s : If1Ula) : Prop where
  plug : s.fdR.isSome
  receives : ∃ inflight, Receives s listener inflight ∧
    heard ++ (inflight ++ s.pending) = payload 0x00 0x2a false arrived
  inEscape : s.inEscape = escaped 0x00 false arrived

variable {arrived heard : List UInt8}

theorem delivers_plugged (rs232Handshake : Bool) : Delivers [] [] .idle (plugged rs232Handshake) :=
  ⟨rfl, ⟨[], .ready rfl (by decide : 0 < 256) (.inl rfl), rfl⟩, rfl⟩

/-- Two instances that differ at most in what they send. -/
structure ReceiveAlike (s s' : If1Ula) : Prop where
  fdR : s'.fdR = s.fdR
  rs232Buffer : s'.rs232Buffer = s.rs232Buffer
  escIn : s'.escIn = s.escIn
  countIn : s'.countIn = s.countIn
  dataIn : s'.dataIn = s.dataIn

theorem ReceiveAlike.trans {s₁ s₂ : If1Ula} (first : ReceiveAlike s s₁) (second : ReceiveAlike s₁ s₂) :
    ReceiveAlike s s₂ where
  fdR := second.fdR.trans first.fdR
  rs232Buffer := second.rs232Buffer.trans first.rs232Buffer
  escIn := second.escIn.trans first.escIn
  countIn := second.countIn.trans first.countIn
  dataIn := second.dataIn.trans first.dataIn

theorem Delivers.of_alike {s' : If1Ula} (delivers : Delivers arrived heard listener s) (alike : ReceiveAlike s s')
    (high : s.Receiving → s.cts ≠ 0 → s'.cts ≠ 0) : Delivers arrived heard listener s' := by
  obtain ⟨plug, ⟨inflight, receives, items⟩, inEscape⟩ := delivers
  refine ⟨alike.fdR ▸ plug, ⟨inflight, receives.of_eq alike.countIn alike.dataIn high, ?_⟩, ?_⟩
  · rwa [If1Ula.pending, If1Ula.lookAhead, alike.fdR, alike.rs232Buffer, alike.escIn]
  · rwa [If1Ula.inEscape, alike.fdR, alike.escIn]

theorem delivers_arrive {bytes : List UInt8} (delivers : Delivers arrived heard listener s) :
    Delivers (arrived ++ bytes) heard listener (step rs232Handshake s (.arrive bytes)) := by
  obtain ⟨plug, ⟨inflight, receives, items⟩, inEscape⟩ := delivers
  obtain ⟨left, plug⟩ := Option.isSome_iff_exists.mp plug
  have stream : (step rs232Handshake s (.arrive bytes)).fdR = some (left ++ bytes) := by
    simp [step, plug]
  have ends : escaped 0x00 (decide (s.escIn = 1)) left = escaped 0x00 false arrived := by
    rw [← inEscape, If1Ula.inEscape, plug]
    rfl
  refine ⟨by rw [stream]; rfl, ⟨inflight, receives.of_eq rfl rfl fun _ high => high, ?_⟩, ?_⟩
  · rw [payload_append, ← items, ← ends, If1Ula.pending, If1Ula.pending, stream, plug]
    simp only [Option.getD_some, List.append_assoc]
    rw [payload_append]
    rfl
  · rw [If1Ula.inEscape, stream, escaped_append, ← ends, ← escaped_append]
    rfl

theorem netOut_alike {val : UInt8} : ReceiveAlike s (s.portNetOut val) ∧ (s.portNetOut val).cts = s.cts := by
  have follows : ∀ bit, ReceiveAlike s (s.followFrame bit) ∧ (s.followFrame bit).cts = s.cts := by
    intro bit
    unfold If1Ula.followFrame
    split_ifs
    all_goals exact ⟨⟨rfl, rfl, rfl, rfl, rfl⟩, rfl⟩
  have marks : ∀ s : If1Ula, ReceiveAlike s s.markLost ∧ s.markLost.cts = s.cts := by
    intro s
    unfold If1Ula.markLost
    split
    all_goals exact ⟨⟨rfl, rfl, rfl, rfl, rfl⟩, rfl⟩
  have writes : ∀ s : If1Ula, ReceiveAlike s s.writeOut ∧ s.writeOut.cts = s.cts := by
    intro s
    unfold If1Ula.writeOut
    split
    · split
      all_goals exact ⟨⟨rfl, rfl, rfl, rfl, rfl⟩, rfl⟩
    · exact ⟨⟨rfl, rfl, rfl, rfl, rfl⟩, rfl⟩
  unfold If1Ula.portNetOut
  split
  · exact ⟨⟨rfl, rfl, rfl, rfl, rfl⟩, rfl⟩
  split
  · obtain ⟨followed, cts₁⟩ := follows (val &&& 0x01)
    obtain ⟨marked, cts₂⟩ := marks (s.followFrame (val &&& 0x01))
    obtain ⟨written, cts₃⟩ := writes (s.followFrame (val &&& 0x01)).markLost
    obtain ⟨fdR, rs232Buffer, escIn, countIn, dataIn⟩ := (followed.trans marked).trans written
    exact ⟨⟨fdR, rs232Buffer, escIn, countIn, dataIn⟩, cts₃.trans (cts₂.trans cts₁)⟩
  · exact ⟨⟨rfl, rfl, rfl, rfl, rfl⟩, rfl⟩

theorem delivers_netOut {val : UInt8} (delivers : Delivers arrived heard listener s) :
    Delivers arrived heard listener (step rs232Handshake s (.netOut val)) :=
  delivers.of_alike netOut_alike.1 fun _ high => (netOut_alike (s := s)).2.trans_ne high

theorem startLine_cases (val : UInt8) :
    (val &&& 0x01 ≠ 0 ∧ s.commsData = 0) ∧
        s.startLine val = { s with countOut := 0, dataOut := 0, countIn := 0, dataIn := 0 } ∨
      ¬(val &&& 0x01 ≠ 0 ∧ s.commsData = 0) ∧ s.startLine val = s := by
  by_cases starts : val &&& 0x01 ≠ 0 ∧ s.commsData = 0
  · exact .inl ⟨starts, if_pos starts⟩
  · exact .inr ⟨starts, if_neg starts⟩

theorem Delivers.startLine {val : UInt8} (delivers : Delivers arrived heard listener s)
    (held : s.Receiving → val &&& 0x01 = 0 ∨ s.commsData ≠ 0) :
    Delivers arrived heard listener (s.startLine val) := by
  rcases startLine_cases (s := s) val with ⟨starts, started⟩ | ⟨-, same⟩
  · rw [started]
    obtain ⟨plug, ⟨inflight, receives, items⟩, inEscape⟩ := delivers
    have between : ¬s.Receiving := fun receiving =>
      (held receiving).elim (fun low => starts.1 low) fun selected => selected starts.2
    have quiet : inflight = [] ∧ (listener = .idle ∨ listener = .stop) := by
      cases receives with
      | ready _ _ quiet => exact ⟨rfl, quiet⟩
      | done _ _ => exact ⟨rfl, .inr rfl⟩
      | _ => exact absurd ⟨by omega, by omega⟩ between
    refine ⟨plug, ⟨[], .ready rfl (by decide : 0 < 256) quiet.2, ?_⟩, inEscape⟩
    rw [← items, quiet.1]
    rfl
  · rw [same]
    exact delivers

theorem delivers_ctrOut {val : UInt8} (delivers : Delivers arrived heard listener s)
    (held : s.Receiving → val &&& 0x10 ≠ 0 ∧ (val &&& 0x01 = 0 ∨ s.commsData ≠ 0)) :
    Delivers arrived heard listener (step rs232Handshake s (.ctrOut val)) := by
  have started := delivers.startLine fun receiving => (held receiving).2
  have tells : ReceiveAlike (s.startLine val)
      (((s.startLine val).setCommsData (wired val).commsData).tellCts rs232Handshake (wired val).cts) := by
    unfold If1Ula.tellCts
    split
    all_goals exact ⟨rfl, rfl, rfl, rfl, rfl⟩
  obtain ⟨fdR, rs232Buffer, escIn, countIn, dataIn⟩ := tells
  refine started.of_alike ⟨fdR, rs232Buffer, escIn, countIn, dataIn⟩ fun receiving _ => ?_
  have before : s.Receiving := by
    rcases startLine_cases (s := s) val with ⟨-, started⟩ | ⟨-, same⟩
    · rw [started] at receiving
      exact absurd receiving.1 (by decide : ¬1 ≤ 0)
    · rwa [same] at receiving
  change (if val &&& 0x10 ≠ 0 then 1 else 0) ≠ 0
  rw [if_pos (held before).1]
  decide

theorem portCtrIn_polls (rs232Handshake : Bool) (plug : s.fdR.isSome) :
    (∃ fdR rs232Buffer dtr escIn, (s.portCtrIn rs232Handshake).2 = { s with fdR := some fdR, rs232Buffer, dtr, escIn }) ∧
      (s.portCtrIn rs232Handshake).2.pending = s.pending ∧ (s.portCtrIn rs232Handshake).2.inEscape = s.inEscape := by
  obtain ⟨left, plug⟩ := Option.isSome_iff_exists.mp plug
  simp only [If1Ula.portCtrIn, plug]
  by_cases empty : s.rs232Buffer > 0xff
  · have polls : Polls s left (If1Ula.pollLoop rs232Handshake left s) := pollLoop_polls empty
    rw [if_pos empty]
    refine ⟨polls.1, polls.2.1.trans ?_, polls.2.2.trans ?_⟩
    · rw [If1Ula.pending, If1Ula.lookAhead, if_neg (Nat.not_le_of_lt empty), plug]
      rfl
    · rw [If1Ula.inEscape, plug]
      rfl
  · rw [if_neg empty]
    exact ⟨⟨left, s.rs232Buffer, s.dtr, s.escIn, by rw [← plug]⟩, rfl, rfl⟩

theorem delivers_ctrIn (delivers : Delivers arrived heard listener s) :
    Delivers arrived heard listener (step rs232Handshake s .ctrIn) := by
  obtain ⟨plug, ⟨inflight, receives, items⟩, inEscape⟩ := delivers
  obtain ⟨⟨fdR, rs232Buffer, dtr, escIn, polled⟩, pending, escape⟩ := portCtrIn_polls rs232Handshake plug
  rw [step]
  refine ⟨by rw [polled]; rfl, ⟨inflight, receives.of_eq ?_ ?_ ?_, by rw [pending, items]⟩, escape.trans inEscape⟩
  · rw [polled]
  · rw [polled]
  · rw [polled]
    exact fun _ high => high

/-! ## The NET port -/

/-- A byte is taken, or there is none. -/
theorem readRs232_finds (rs232Handshake : Bool) (plug : s.fdR.isSome) (fits : s.dataIn < 256) :
    ∃ fdR rs232Buffer dtr dataIn escIn,
      (s.readRs232 rs232Handshake).2 = { s with fdR := some fdR, rs232Buffer, dtr, dataIn, escIn } ∧ dataIn < 256 ∧
      s.pending = (if (s.readRs232 rs232Handshake).1 then [UInt8.ofNat dataIn] else []) ++
        (s.readRs232 rs232Handshake).2.pending ∧
      s.inEscape = (s.readRs232 rs232Handshake).2.inEscape ∧
      ((s.readRs232 rs232Handshake).1 = false → s.pending = []) := by
  obtain ⟨left, plug⟩ := Option.isSome_iff_exists.mp plug
  unfold If1Ula.readRs232
  by_cases kept : s.rs232Buffer ≤ 0xff
  · rw [if_pos kept]
    refine ⟨left, 0x0100, s.dtr, s.rs232Buffer, s.escIn, by rw [← plug], Nat.lt_succ_of_le kept, ?_, rfl, nofun⟩
    rw [If1Ula.pending, If1Ula.lookAhead, if_pos kept]
    rfl
  · have finds : Finds s left (If1Ula.readLoop rs232Handshake left s) := readLoop_finds fits
    obtain ⟨fdR, dtr, dataIn, escIn, result, fits, items, inEscape, all⟩ := finds
    have unread : s.pending = payload 0x00 0x2a (decide (s.escIn = 1)) left := by
      rw [If1Ula.pending, If1Ula.lookAhead, if_neg kept, plug]
      rfl
    have rest : (If1Ula.readLoop rs232Handshake left s).2.pending = payload 0x00 0x2a (decide (escIn = 1)) fdR := by
      rw [result, If1Ula.pending, If1Ula.lookAhead, if_neg kept]
      rfl
    rw [if_neg kept, plug]
    refine ⟨fdR, s.rs232Buffer, dtr, dataIn, escIn, result, fits, ?_, ?_, ?_⟩
    · rw [unread, rest, items]
    · rw [result, If1Ula.inEscape, plug]
      exact inEscape
    · intro none
      rw [unread, items, none, all none]
      rfl

/-- What is read from the port shows the line. -/
theorem hear_portNetIn (rs232Handshake : Bool) (plug : s.fdR.isSome) :
    decide ((s.portNetIn rs232Handshake).1 &&& 0x80 ≠ 0) = decide ((s.serialIn rs232Handshake).tx ≠ 0) ∧
      (s.portNetIn rs232Handshake).2 = s.serialIn rs232Handshake := by
  have plugged : s.fdR ≠ none := Option.isSome_iff_ne_none.mp plug
  simp only [If1Ula.portNetIn, if_neg plugged, and_true]
  by_cases low : (s.serialIn rs232Handshake).tx = 0
  · rw [if_pos low, decide_eq_false (not_not_intro low)]
    decide
  · rw [if_neg low, decide_eq_true low]
    decide

/-- What a read of the NET port does to the line. -/
def Reads (s s' : If1Ula) (listener : Listener) (inflight : List UInt8) : Prop :=
  s'.fdR.isSome ∧ s'.cts = s.cts ∧ s'.inEscape = s.inEscape ∧
    (∃ inflight', Receives s' (listener.hear (decide (s'.tx ≠ 0))).1 inflight' ∧
      (listener.hear (decide (s'.tx ≠ 0))).2 ++ (inflight' ++ s'.pending) = inflight ++ s.pending) ∧
    (s.cts ≠ 0 → s'.readsLeft = s.readsLeft - 1)

theorem serialIn_low (plug : s.fdR.isSome) (receives : Receives s listener inflight) (low : s.cts = 0) :
    Reads s (s.serialIn rs232Handshake) listener inflight := by
  have result : s.serialIn rs232Handshake = { s with countIn := 0, tx := 0 } := by
    rw [If1Ula.serialIn, if_neg (not_not_intro low)]
  rw [result]
  refine ⟨plug, rfl, rfl, ⟨[], ?_⟩, fun high => absurd low high⟩
  cases receives with
  | ready count fits quiet =>
    rcases quiet with rfl | rfl
    · exact ⟨.ready rfl fits (.inl rfl), rfl⟩
    · exact ⟨.ready rfl fits (.inl rfl), rfl⟩
  | done count fits => exact ⟨.ready rfl fits (.inl rfl), rfl⟩
  | taken count data high => exact absurd low high
  | start count some few data high => exact absurd low high
  | data count few split high => exact absurd low high

theorem serialIn_ready (plug : s.fdR.isSome) (count : s.countIn = 0) (fits : s.dataIn < 256)
    (quiet : listener = .idle ∨ listener = .stop) (high : s.cts ≠ 0) :
    Reads s (s.serialIn rs232Handshake) listener [] := by
  obtain ⟨fdR, rs232Buffer, dtr, dataIn, escIn, result, fits, items, inEscape, none⟩ :=
    readRs232_finds rs232Handshake plug fits
  have heard : listener.hear false = (.idle, []) := by
    rcases quiet with rfl | rfl
    · rfl
    · rfl
  rw [If1Ula.serialIn, if_pos high, if_pos count]
  rcases read : s.readRs232 rs232Handshake with ⟨_ | _, after⟩
  · rw [read] at result items inEscape none
    obtain rfl : after = { s with fdR := some fdR, rs232Buffer, dtr, dataIn, escIn } := result
    have nothing : s.pending = [] := none rfl
    refine ⟨rfl, rfl, inEscape.symm, ⟨[], ?_, ?_⟩, fun _ => ?_⟩
    · change Receives _ (listener.hear false).1 []
      rw [heard]
      exact .ready count fits (.inl rfl)
    · change (listener.hear false).2 ++ _ = _
      rw [heard]
      exact items.symm
    · have empty : ({ s with fdR := some fdR, rs232Buffer, dtr, dataIn, escIn } : If1Ula).pending = [] :=
        items.symm.trans nothing
      simp only [If1Ula.readsLeft, count, if_true, nothing]
      change 14 * (If1Ula.pending { s with fdR := some fdR, rs232Buffer, dtr, dataIn, escIn }).length + 0 = _
      rw [empty]
      rfl
  · rw [read] at result items inEscape
    obtain rfl : after = { s with fdR := some fdR, rs232Buffer, dtr, dataIn, escIn } := result
    refine ⟨rfl, rfl, inEscape.symm, ⟨[UInt8.ofNat dataIn], ?_, ?_⟩, fun _ => ?_⟩
    · change Receives _ (listener.hear false).1 _
      rw [heard]
      refine .taken ?_ ?_ high
      · change s.countIn + 1 = 1
        rw [count]
      · exact (Nat.mod_eq_of_lt fits).symm
    · change (listener.hear false).2 ++ _ = _
      rw [heard]
      exact items.symm
    · have longer := congrArg List.length items
      rw [if_pos rfl, List.length_append, List.length_singleton] at longer
      dsimp only at longer
      simp only [If1Ula.readsLeft, count, if_true]
      change 14 * (If1Ula.pending { s with fdR := some fdR, rs232Buffer, dtr, dataIn, escIn }).length + 13 = _
      omega

theorem serialIn_start (plug : s.fdR.isSome) {byte : UInt8} (reads : Nat) (count : s.countIn = reads + 1)
    (few : reads < 4) (data : s.dataIn = byte.toNat) (high : s.cts ≠ 0)
    (heard : listener.hear true = (if reads + 1 = 4 then .data [] else .start (reads + 1), [])) :
    Reads s (s.serialIn rs232Handshake) listener [byte] := by
  have result : s.serialIn rs232Handshake = { s with tx := 1, countIn := s.countIn + 1 } := by
    rw [If1Ula.serialIn, if_pos high, if_neg (by omega), if_pos ⟨by omega, by omega⟩]
  rw [result]
  refine ⟨plug, rfl, rfl, ⟨[byte], ?_, ?_⟩, fun _ => ?_⟩
  · change Receives _ (listener.hear true).1 _
    rw [heard]
    by_cases last : reads + 1 = 4
    · rw [if_pos last]
      refine .data ?_ (by decide) ?_ high
      · change s.countIn + 1 = 5
        omega
      · change byte.toNat = 0 + 1 * s.dataIn
        omega
    · rw [if_neg last]
      exact .start (congrArg (· + 1) count) (by omega) (by omega) data high
  · change (listener.hear true).2 ++ _ = _
    rw [heard]
    rfl
  · change 14 * s.pending.length + (if s.countIn + 1 = 0 then 0 else 14 - (s.countIn + 1)) =
      14 * s.pending.length + (if s.countIn = 0 then 0 else 14 - s.countIn) - 1
    rw [if_neg (by omega), if_neg (by omega)]
    omega

theorem low_bit (n : Nat) : decide (n &&& 0x01 ≠ 0) = decide (n % 2 = 1) := by
  rw [Nat.and_one_is_mod]
  rcases Nat.mod_two_eq_zero_or_one n with even | odd
  · rw [even]
    rfl
  · rw [odd]
    rfl

theorem serialIn_data (plug : s.fdR.isSome) {byte : UInt8} {bits : List Bool} (count : s.countIn = 5 + bits.length)
    (few : bits.length < 8) (split : byte.toNat = ofBits bits + 2 ^ bits.length * s.dataIn) (high : s.cts ≠ 0) :
    Reads s (s.serialIn rs232Handshake) (.data bits) [byte] := by
  have result : s.serialIn rs232Handshake =
      { s with
        tx := if s.dataIn &&& 0x01 ≠ 0 then 0 else 1
        dataIn := s.dataIn >>> 1
        countIn := s.countIn + 1 } := by
    rw [If1Ula.serialIn, if_pos high, if_neg (by omega), if_neg (by omega), if_pos ⟨by omega, by omega⟩]
  have bit : (!decide ((if s.dataIn &&& 0x01 ≠ 0 then 0 else 1) ≠ 0)) = decide (s.dataIn % 2 = 1) := by
    rw [← low_bit]
    by_cases one : s.dataIn &&& 0x01 ≠ 0
    · rw [if_pos one, decide_eq_true one]
      rfl
    · rw [if_neg one, decide_eq_false one]
      rfl
  have half : s.dataIn >>> 1 = s.dataIn / 2 := rfl
  have more : byte.toNat =
      ofBits (bits ++ [decide (s.dataIn % 2 = 1)]) + 2 ^ (bits.length + 1) * (s.dataIn / 2) := by
    have parts : s.dataIn = (decide (s.dataIn % 2 = 1)).toNat + 2 * (s.dataIn / 2) := by
      rcases Nat.mod_two_eq_zero_or_one s.dataIn with even | odd
      · simp only [even]
        simp
        omega
      · simp only [odd, decide_true, Bool.toNat_true]
        omega
    rw [split, ofBits_append, ofBits, ofBits, Nat.mul_zero, Nat.add_zero, pow_succ, Nat.mul_assoc, Nat.add_assoc,
      ← Nat.mul_add, ← parts]
  rw [result]
  refine ⟨plug, rfl, rfl, ?_, fun _ => ?_⟩
  · simp only [Listener.hear, bit]
    by_cases last : bits.length + 1 = 8
    · rw [if_pos last]
      -- All bits have been shifted out.
      have fits := byte.toNat_lt
      rw [last] at more
      have nothing : s.dataIn / 2 = 0 := by omega
      rw [nothing, Nat.mul_zero, Nat.add_zero] at more
      refine ⟨[], .done ?_ ?_, ?_⟩
      · change s.countIn + 1 = 13
        omega
      · rw [half, nothing]
        exact Nat.zero_lt_succ 255
      · rw [← more, UInt8.ofNat_toNat]
        rfl
    · rw [if_neg last]
      refine ⟨[byte], .data ?_ ?_ ?_ high, rfl⟩
      · rw [List.length_append, List.length_singleton]
        change s.countIn + 1 = 5 + (bits.length + 1)
        omega
      · rw [List.length_append, List.length_singleton]
        omega
      · rw [List.length_append, List.length_singleton]
        exact more
  · change 14 * s.pending.length + (if s.countIn + 1 = 0 then 0 else 14 - (s.countIn + 1)) =
      14 * s.pending.length + (if s.countIn = 0 then 0 else 14 - s.countIn) - 1
    rw [if_neg (by omega), if_neg (by omega)]
    omega

theorem serialIn_done (plug : s.fdR.isSome) (count : s.countIn = 13) (fits : s.dataIn < 256) (high : s.cts ≠ 0) :
    Reads s (s.serialIn rs232Handshake) .stop [] := by
  have result : s.serialIn rs232Handshake = { s with countIn := 0 } := by
    rw [If1Ula.serialIn, if_pos high, if_neg (by omega), if_neg (by omega), if_neg (by omega)]
  rw [result]
  refine ⟨plug, rfl, rfl, ⟨[], .ready rfl fits (.inl rfl), rfl⟩, fun _ => ?_⟩
  change 14 * s.pending.length + 0 = 14 * s.pending.length + (if s.countIn = 0 then 0 else 14 - s.countIn) - 1
  rw [if_neg (by omega)]
  omega

theorem serialIn_reads (plug : s.fdR.isSome) (receives : Receives s listener inflight) :
    Reads s (s.serialIn rs232Handshake) listener inflight := by
  by_cases low : s.cts = 0
  · exact serialIn_low plug receives low
  · cases receives with
    | ready count fits quiet => exact serialIn_ready plug count fits quiet low
    | taken count data high => exact serialIn_start plug 0 count (by decide) data high rfl
    | start count some few data high => exact serialIn_start plug _ count few data high rfl
    | data count few split high => exact serialIn_data plug count few split high
    | done count fits => exact serialIn_done plug count fits low

/-! ## Runs -/

theorem delivers_netIn (rs232Handshake : Bool) (delivers : Delivers arrived heard listener s) :
    let (next, bytes) := listener.hear (decide ((s.portNetIn rs232Handshake).1 &&& 0x80 ≠ 0))
    Delivers arrived (heard ++ bytes) next (step rs232Handshake s .netIn) ∧
      (step rs232Handshake s .netIn).cts = s.cts ∧
      (s.cts ≠ 0 → (step rs232Handshake s .netIn).readsLeft = s.readsLeft - 1) := by
  obtain ⟨plug, ⟨inflight, receives, items⟩, inEscape⟩ := delivers
  obtain ⟨shown, result⟩ := hear_portNetIn rs232Handshake plug
  have reads : Reads s (s.serialIn rs232Handshake) listener inflight := serialIn_reads plug receives
  obtain ⟨plug', cts, escape, ⟨inflight', receives', items'⟩, fewer⟩ := reads
  rw [shown]
  simp only [step, result]
  refine ⟨⟨plug', ⟨inflight', receives', ?_⟩, escape.trans inEscape⟩, cts, fewer⟩
  rw [List.append_assoc, items', items]

/-- The listener behind some reads. -/
def after : Listener → List UInt8 → Listener
  | listener, [] => listener
  | listener, val :: vals => after (listener.hear (decide (val &&& 0x80 ≠ 0))).1 vals

theorem delivers_run {ops : List Op} (delivers : Delivers arrived heard listener s)
    (held : Held rs232Handshake s ops) :
    Delivers (arrived ++ arrivals ops) (heard ++ hears listener (netReads rs232Handshake s ops))
      (after listener (netReads rs232Handshake s ops)) (run rs232Handshake s ops) := by
  induction ops generalizing arrived heard listener s with
  | nil =>
    rw [arrivals, netReads, hears, List.append_nil, List.append_nil]
    exact delivers
  | cons op ops ih =>
    cases op with
    | ctrOut val => exact ih (delivers_ctrOut delivers held.1) held.2
    | netOut val => exact ih (delivers_netOut delivers) held
    | ctrIn => exact ih (delivers_ctrIn delivers) held
    | arrive bytes =>
      rw [arrivals, ← List.append_assoc]
      exact ih (delivers_arrive delivers) held
    | netIn =>
      rw [netReads, hears, ← List.append_assoc]
      exact ih (delivers_netIn _ delivers).1 held

/-- Reads, of either port. -/
def IsRead (op : Op) : Prop := op = .ctrIn ∨ op = .netIn

theorem arrivals_reads {ops : List Op} (reads : ∀ op ∈ ops, IsRead op) : arrivals ops = [] := by
  induction ops with
  | nil => rfl
  | cons op ops ih =>
    obtain ⟨first, rest⟩ := List.forall_mem_cons.mp reads
    rcases first with rfl | rfl
    · exact ih rest
    · exact ih rest

theorem held_reads (rs232Handshake : Bool) {ops : List Op} (reads : ∀ op ∈ ops, IsRead op) : Held rs232Handshake s ops := by
  induction ops generalizing s with
  | nil => trivial
  | cons op ops ih =>
    obtain ⟨first, rest⟩ := List.forall_mem_cons.mp reads
    rcases first with rfl | rfl
    · exact ih rest
    · exact ih rest

/-- While CTS is high every read of the NET port brings the end nearer. -/
theorem readsLeft_run (rs232Handshake : Bool) {ops : List Op} (delivers : Delivers arrived heard listener s)
    (reads : ∀ op ∈ ops, IsRead op) (high : s.cts ≠ 0) :
    (run rs232Handshake s ops).readsLeft = s.readsLeft - ops.count .netIn := by
  induction ops generalizing heard listener s with
  | nil => rfl
  | cons op ops ih =>
    obtain ⟨first, rest⟩ := List.forall_mem_cons.mp reads
    rcases first with rfl | rfl
    · obtain ⟨⟨fdR, rs232Buffer, dtr, escIn, polled⟩, pending, -⟩ := portCtrIn_polls rs232Handshake delivers.plug
      have same : (step rs232Handshake s .ctrIn).readsLeft = s.readsLeft := by
        rw [If1Ula.readsLeft, If1Ula.readsLeft, step, pending, polled]
      rw [List.count_cons_of_ne (by decide), ← same]
      exact ih (delivers_ctrIn delivers) rest (by rw [step, polled]; exact high)
    · obtain ⟨next, cts, fewer⟩ := delivers_netIn rs232Handshake delivers
      rw [List.count_cons_self, Nat.add_comm, ← Nat.sub_sub, ← fewer high]
      exact ih next rest (cts ▸ high)

/-- Nothing is left, and all has been heard. -/
theorem Delivers.all (delivers : Delivers arrived heard listener s) (none : s.readsLeft = 0) :
    heard = payload 0x00 0x2a false arrived := by
  obtain ⟨-, ⟨inflight, receives, items⟩, -⟩ := delivers
  unfold If1Ula.readsLeft at none
  have empty : s.pending = [] := List.length_eq_zero_iff.mp (by omega)
  have idle : inflight = [] := by
    cases receives with
    | ready => rfl
    | done => rfl
    | taken count => rw [if_neg (by omega)] at none; omega
    | start count some few => rw [if_neg (by omega)] at none; omega
    | data count few => rw [if_neg (by omega)] at none; omega
  rwa [empty, idle, List.append_nil, List.append_nil] at items

theorem Delivers.readsLeft_le (delivers : Delivers arrived heard listener s) :
    s.readsLeft ≤ 14 * (payload 0x00 0x2a false arrived).length + 13 := by
  obtain ⟨-, ⟨inflight, receives, items⟩, -⟩ := delivers
  rw [← items, If1Ula.readsLeft, List.length_append, List.length_append]
  split
  all_goals omega

theorem run_hears {front back : List Op} :
    hears listener (netReads rs232Handshake s (front ++ back)) =
      hears listener (netReads rs232Handshake s front) ++
        hears (after listener (netReads rs232Handshake s front))
          (netReads rs232Handshake (run rs232Handshake s front) back) := by
  induction front generalizing listener s with
  | nil => rfl
  | cons op front ih =>
    cases op with
    | netIn =>
      simp only [List.cons_append, netReads, hears, after, List.append_assoc, ih]
      rfl
    | ctrIn => exact ih
    | ctrOut val => exact ih
    | netOut val => exact ih
    | arrive bytes => exact ih

/-- What is in the pipe that an instance writes to. -/
def piped (rs232Handshake : Bool) (ops : List Op) : List UInt8 :=
  (run rs232Handshake (plugged rs232Handshake) ops).fdT.getD []

/-- What a program hears at an instance. -/
def delivered (rs232Handshake : Bool) (ops : List Op) : List UInt8 :=
  hears .idle (netReads rs232Handshake (plugged rs232Handshake) ops)

/-- A program hears the bytes that were sent with correct framing, in order, each once; and all of them if it
goes on reading. -/
theorem pipe_delivers {sender receiver : Bool} {sent received : List Op} {bytes : List UInt8}
    (sends : Sends ⟨0, 2⟩ (writes sent) bytes) (arrives : arrivals received <+: piped sender sent)
    (held : Held receiver (plugged receiver) received) :
    delivered receiver received <+: bytes ∧
      ∀ reads : List Op, (∀ op ∈ reads, IsRead op) → arrivals received = piped sender sent →
        (run receiver (plugged receiver) received).cts ≠ 0 → 14 * (bytes.length + 1) ≤ reads.count .netIn →
        delivered receiver (received ++ reads) = bytes := by
  obtain ⟨pipe, written, items⟩ := sends_pipe sender sends
  have whole : piped sender sent = pipe := by rw [piped, written]; rfl
  have delivers := delivers_run (delivers_plugged receiver) held
  rw [List.nil_append, List.nil_append] at delivers
  constructor
  · have part : payload 0x00 0x2a false (arrivals received) <+: bytes := by
      rw [← items]
      exact payload_prefix (whole ▸ arrives)
    obtain ⟨-, ⟨inflight, -, all⟩, -⟩ := delivers
    exact (List.prefix_append _ _).trans (all ▸ part)
  · intro reads only complete high enough
    have more := delivers_run delivers (held_reads receiver only)
    have few := readsLeft_run receiver delivers only high
    have bound := delivers.readsLeft_le
    rw [complete, whole, items] at bound
    have none := more.all (by rw [few]; omega)
    rw [arrivals_reads only, List.append_nil, complete, whole, items] at none
    rw [delivered, run_hears]
    exact none

/-- The values that put a frame on the line. -/
def frameOf (byte : UInt8) : List UInt8 := (framed byte).map fun bit => if bit then 0xff else 0xfe

/-- An A, a broken frame behind a change of CTS, and a zero. -/
def sentOps : List Op :=
  .ctrOut 0x01 :: ((frameOf 0x41).map .netOut ++ .ctrOut 0x11 :: .ctrOut 0x01 :: ([0xfe, 0xfe].map .netOut ++
    ((frameOf 0x00).map .netOut ++ [])))

def receivedOps : List Op := [.ctrOut 0x10, .arrive (piped true sentOps), .ctrIn]

theorem pipe_delivers_two : delivered true (receivedOps ++ List.replicate 42 .netIn) = [0x41, 0x00] := by
  have broken : Broken (wired 0x01).cts (([0xfe, 0xfe] : List UInt8).map bitOf) := .start (.inr rfl)
  have first : (frameOf 0x41).map bitOf = framed 0x41 := by decide
  have last : (frameOf 0x00).map bitOf = framed 0x00 := by decide
  have sends : Sends ⟨0, 2⟩ (writes sentOps) [0x41, 0x00] :=
    .control (.byte rfl rfl first (.control (.control (.broken rfl broken (.byte rfl rfl last .nil)))))
  have held : Held true (plugged true) receivedOps := ⟨fun receiving => absurd receiving.1 (by decide), trivial⟩
  have arrives : arrivals receivedOps <+: piped true sentOps := by decide
  have delivers := pipe_delivers sends arrives held
  apply delivers.2 (List.replicate 42 .netIn)
  · intro op member
    exact .inr (List.eq_of_mem_replicate member)
  · decide
  · decide
  · decide

end FuseX.If1.Rs232
