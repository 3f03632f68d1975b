import FuseX.If1.Rs232
import Mathlib.Data.List.Induction

/-!
# What is written to a pipe

`Sends` says which bytes a sequence of port writes sends with correct framing, whatever stands between
them: changes of the lines, broken frames, bits for the network. `sends_pipe` reads them back from the pipe.
-/

namespace FuseX.If1.Rs232

open Lib

/-! ## Framing -/

/-- The bit that is put on the line. -/
def bitOf (val : UInt8) : Bool := decide (val &&& 0x01 ≠ 0)

/-- The data bits of a byte, which are sent inverted. -/
def dataBits (byte : UInt8) : List Bool := (bitsOf 8 byte.toNat).map not

/-- The frame of a byte: the line falls, the start bit, the data and the stop bits. -/
def framed (byte : UInt8) : List Bool := false :: true :: (dataBits byte ++ [false, false, true])

/-- The stop bits with one that is wrong, up to it. -/
def wrongStops : List (List Bool) := [[true], [false, true], [false, false, false]]

/-- A frame up to a bit that is wrong. No byte is sent while CTS is high. -/
inductive Broken (cts : Nat) : List Bool → Prop
  | start {bit : Bool} (wrong : cts ≠ 0 ∨ bit = false) : Broken cts [false, bit]
  | stop {byte : UInt8} {stops : List Bool} (low : cts = 0) (wrong : stops ∈ wrongStops) :
    Broken cts (false :: true :: (dataBits byte ++ stops))

/-- A frame that has not been sent to its end. -/
def Unfinished (cts : Nat) (bits : List Bool) : Prop :=
  (∃ byte, bits <+: framed byte ∧ bits ≠ framed byte) ∧ (cts = 0 ∨ bits.length ≤ 1)

/-- The lines that the control port sets. -/
structure Wires : Type where
  commsData : Nat
  cts : Nat

/-- The lines after a write to the control port. -/
def wired (val : UInt8) : Wires where
  commsData := if val &&& 0x01 ≠ 0 then 1 else 0
  cts := if val &&& 0x10 ≠ 0 then 1 else 0

/-- The bytes that some port writes send. -/
inductive Sends : Wires → List Op → List UInt8 → Prop
  | nil {wires : Wires} : Sends wires [] []
  | control {wires : Wires} {val : UInt8} {ops : List Op} {bytes : List UInt8}
    (rest : Sends (wired val) ops bytes) : Sends wires (.ctrOut val :: ops) bytes
  | network {wires : Wires} {val : UInt8} {ops : List Op} {bytes : List UInt8} (network : wires.commsData ≠ 1)
    (rest : Sends wires ops bytes) : Sends wires (.netOut val :: ops) bytes
  | idle {wires : Wires} {val : UInt8} {ops : List Op} {bytes : List UInt8} (high : bitOf val = true)
    (rest : Sends wires ops bytes) : Sends wires (.netOut val :: ops) bytes
  | byte {wires : Wires} {vals : List UInt8} {byte : UInt8} {ops : List Op} {bytes : List UInt8}
    (selected : wires.commsData = 1) (low : wires.cts = 0) (frame : vals.map bitOf = framed byte)
    (rest : Sends wires ops bytes) : Sends wires (vals.map .netOut ++ ops) (byte :: bytes)
  | broken {wires : Wires} {vals : List UInt8} {ops : List Op} {bytes : List UInt8}
    (selected : wires.commsData = 1) (frame : Broken wires.cts (vals.map bitOf))
    (rest : Sends wires ops bytes) : Sends wires (vals.map .netOut ++ ops) bytes
  | unfinished {wires : Wires} {vals : List UInt8} (selected : wires.commsData = 1)
    (frame : Unfinished wires.cts (vals.map bitOf)) : Sends wires (vals.map .netOut) []

/-- Whether it is a write to a port. -/
def Op.isWrite : Op → Bool
  | .ctrOut _ => true
  | .netOut _ => true
  | _ => false

/-! ## One bit -/

/-- How far the frame of a byte has come. -/
structure Sending (wires : Wires) (written : List UInt8) (count : Int) (data : Nat) (s : If1Ula) : Prop where
  fdT : s.fdT = some written
  commsData : s.commsData = wires.commsData
  cts : s.cts = wires.cts
  countOut : s.countOut = count
  dataOut : s.dataOut = data

variable {wires : Wires} {written : List UInt8} {count : Int} {data : Nat} {s : If1Ula} {val : UInt8}

theorem masked_eq : val &&& 0x01 = if bitOf val then 1 else 0 := by
  by_cases zero : val &&& 0x01 = 0
  · simp [bitOf, zero]
  · have high : bitOf val = true := by simp [bitOf, zero]
    have mod : (val &&& 0x01).toNat = val.toNat % 2 := by
      rw [UInt8.toNat_and]
      exact Nat.and_one_is_mod _
    have odd : (val &&& 0x01).toNat ≠ 0 := fun none => zero (UInt8.toNat_inj.mp none)
    rw [if_pos high]
    apply UInt8.toNat_inj.mp
    rw [mod] at odd ⊢
    exact Nat.mod_two_ne_zero.mp odd

theorem portNetOut_selected (plug : s.fdT = some written) (selected : s.commsData = 1) :
    s.portNetOut val =
      { (s.followFrame (if bitOf val then 1 else 0)).markLost.writeOut with rx := (val &&& 0x01).toNat } := by
  rw [If1Ula.portNetOut, if_neg (by rw [plug]; nofun), if_pos selected, masked_eq]

/-- A bit that is part of a frame, and not its last one. -/
theorem bit_follows {next : Int} {data' : Nat} (sending : Sending wires written count data s)
    (selected : wires.commsData = 1)
    (follows : s.followFrame (if bitOf val then 1 else 0) = { s with countOut := next, dataOut := data' })
    (place : next ≠ -1 ∧ next ≠ 13) : Sending wires written next data' (s.portNetOut val) := by
  rw [portNetOut_selected sending.fdT (sending.commsData.trans selected), follows]
  simp only [If1Ula.markLost, place.1, If1Ula.writeOut, place.2, if_false]
  exact ⟨sending.fdT, sending.commsData, sending.cts, rfl, rfl⟩

/-- A bit that breaks a frame. -/
theorem bit_breaks (sending : Sending wires written count data s) (selected : wires.commsData = 1)
    (breaks : s.followFrame (if bitOf val then 1 else 0) = { s with countOut := -1 }) :
    Sending wires (written ++ [0x00, 0x3f]) 0 0x3f (s.portNetOut val) := by
  rw [portNetOut_selected sending.fdT (sending.commsData.trans selected), breaks]
  simp only [If1Ula.markLost, If1Ula.writeOut, If1Ula.write, if_true]
  refine ⟨?_, sending.commsData, sending.cts, rfl, rfl⟩
  simp [sending.fdT]

/-- What the last bit of a frame writes. -/
theorem writeOut_item {byte : UInt8} (data : s.dataOut = byte.toNat) :
    { s with countOut := 13 }.markLost.writeOut =
      { s with
        fdT := s.fdT.map (· ++ Stuffed.symbols 0x00 0x2a (.item byte))
        dataOut := if byte = 0 then 0x2a else byte.toNat
        countOut := 0 } := by
  have kept : { s with countOut := 13 }.markLost = { s with countOut := 13 } := by
    rw [If1Ula.markLost, if_neg (show ¬(13 : Int) = -1 by decide)]
  rw [kept, If1Ula.writeOut, if_pos rfl]
  by_cases zero : byte = 0
  · have none : s.dataOut = 0 := by rw [data, zero]; rfl
    simp [none, zero, If1Ula.write, Stuffed.symbols, Function.comp_def]
  · have other : s.dataOut ≠ 0 := fun none => zero (UInt8.toNat_inj.mp (data.symm.trans none))
    rw [if_neg other, if_neg zero, ← data]
    simp [If1Ula.write, Stuffed.symbols, zero, data]

/-- The last bit of a frame. -/
theorem bit_ends {byte : UInt8} (sending : Sending wires written 12 byte.toNat s) (selected : wires.commsData = 1)
    (high : bitOf val = true) :
    Sending wires (written ++ Stuffed.symbols 0x00 0x2a (.item byte)) 0
      (if byte = 0 then 0x2a else byte.toNat) (s.portNetOut val) := by
  have ends : s.followFrame (if bitOf val then 1 else 0) = { s with countOut := 13 } := by
    simp [If1Ula.followFrame, sending.countOut, high]
  rw [portNetOut_selected sending.fdT (sending.commsData.trans selected), ends, writeOut_item sending.dataOut]
  refine ⟨?_, sending.commsData, sending.cts, rfl, rfl⟩
  rw [sending.fdT]
  rfl

/-! ## Frames -/

/-- Values that are written to the NET port. -/
def send (s : If1Ula) (vals : List UInt8) : If1Ula :=
  vals.foldl If1Ula.portNetOut s

/-- Between frames the line is high. -/
theorem sent_idle (sending : Sending wires written 0 data s) (high : bitOf val = true) :
    Sending wires written 0 data (s.portNetOut val) := by
  rw [If1Ula.portNetOut, if_neg (by rw [sending.fdT]; nofun)]
  split
  · have waits : s.followFrame 1 = s := by simp [If1Ula.followFrame, sending.countOut]
    have unmarked : s.markLost = s := if_neg (by rw [sending.countOut]; decide)
    have unwritten : s.writeOut = s := if_neg (by rw [sending.countOut]; decide)
    rw [masked_eq, high, if_pos rfl]
    simp only [waits, unmarked, unwritten]
    exact ⟨sending.fdT, sending.commsData, sending.cts, sending.countOut, sending.dataOut⟩
  · exact sending

/-- Up to the start bit. -/
theorem sent_start {first : UInt8} (second : UInt8) (sending : Sending wires written 0 data s)
    (selected : wires.commsData = 1) (fall : bitOf first = false) :
    if wires.cts = 0 ∧ bitOf second = true then Sending wires written 2 data (send s [first, second])
    else Sending wires (written ++ [0x00, 0x3f]) 0 0x3f (send s [first, second]) := by
  have waits : Sending wires written 1 data (s.portNetOut first) := by
    apply bit_follows sending selected _ (by decide)
    simp [If1Ula.followFrame, sending.countOut, fall, sending.dataOut]
  rw [send, List.foldl_cons, List.foldl_cons, List.foldl_nil]
  by_cases starts : wires.cts = 0 ∧ bitOf second = true
  · rw [if_pos starts]
    apply bit_follows waits selected _ (by decide)
    simp [If1Ula.followFrame, waits.countOut, waits.dataOut, waits.cts, starts]
  · rw [if_neg starts]
    apply bit_breaks waits selected
    have wrong : (s.portNetOut first).cts ≠ 0 ∨ (if bitOf second then (1 : UInt8) else 0) = 0 := by
      rw [waits.cts]
      by_cases low : wires.cts = 0
      · exact .inr (if_neg fun high => starts ⟨low, high⟩)
      · exact .inl low
    simp only [If1Ula.followFrame, waits.countOut, wrong, if_true]
    simp

theorem shifted_eq {bit : Bool} (fits : data < 256) :
    data >>> 1 ||| (if (if bit then (1 : UInt8) else 0) ≠ 0 then 0 else 128) = shiftIn 8 data (!bit) := by
  have all : ∀ data < 256, data >>> 1 ||| 0 = data / 2 + 0 * 128 ∧ data >>> 1 ||| 128 = data / 2 + 1 * 128 := by
    decide +kernel
  obtain ⟨high, low⟩ := all data fits
  cases bit
  · exact low
  · exact high

/-- Data bits. -/
theorem sent_data (vals : List UInt8) (done : Nat) (sending : Sending wires written (2 + done) data s)
    (selected : wires.commsData = 1) (fits : data < 256) (room : done + vals.length ≤ 8) :
    Sending wires written (2 + (done + vals.length : Nat)) (((vals.map bitOf).map not).foldl (shiftIn 8) data)
      (send s vals) := by
  induction vals generalizing s data done with
  | nil => exact sending
  | cons val vals ih =>
    rw [List.length_cons] at room
    have next : Sending wires written (2 + (done + 1 : Nat)) (shiftIn 8 data (!bitOf val)) (s.portNetOut val) := by
      apply bit_follows sending selected _ (by omega)
      have count := sending.countOut
      rw [← shifted_eq fits, ← sending.dataOut]
      rw [If1Ula.followFrame, if_neg (by omega), if_neg (by omega), if_pos (by omega), count]
      congr 1
    have more := ih (done + 1) next (shiftIn_lt (by decide) fits) (by omega)
    rw [show done + 1 + vals.length = done + (val :: vals).length by rw [List.length_cons]; omega] at more
    exact more

/-- The stop bits. -/
theorem sent_stop (val : UInt8) (sending : Sending wires written count data s) (selected : wires.commsData = 1)
    (place : 10 ≤ count ∧ count ≤ 11) :
    if bitOf val = false then Sending wires written (count + 1) data (s.portNetOut val)
    else Sending wires (written ++ [0x00, 0x3f]) 0 0x3f (s.portNetOut val) := by
  have counted := sending.countOut
  by_cases low : bitOf val = false
  · rw [if_pos low]
    apply bit_follows sending selected _ (by omega)
    rw [If1Ula.followFrame, if_neg (by omega), if_neg (by omega), if_neg (by omega), if_pos (by omega), low,
      if_neg (by decide), counted, ← sending.dataOut]
  · rw [if_neg low]
    have high : bitOf val = true := (Bool.not_eq_false _).mp low
    apply bit_breaks sending selected
    rw [If1Ula.followFrame, if_neg (by omega), if_neg (by omega), if_neg (by omega), if_pos (by omega), high,
      if_pos (by decide)]

theorem sent_last_low (sending : Sending wires written 12 data s) (selected : wires.commsData = 1)
    (low : bitOf val = false) :
    Sending wires (written ++ [0x00, 0x3f]) 0 0x3f (s.portNetOut val) := by
  apply bit_breaks sending selected
  simp [If1Ula.followFrame, sending.countOut, low]

theorem send_append {front back : List UInt8} : send s (front ++ back) = send (send s front) back :=
  List.foldl_append

/-- The frame of a byte, up to its data. -/
theorem sent_front {front : List UInt8} {byte : UInt8} (sending : Sending wires written 0 data s)
    (selected : wires.commsData = 1) (fits : data < 256) (low : wires.cts = 0)
    (frame : front.map bitOf = false :: true :: dataBits byte) :
    Sending wires written 10 byte.toNat (send s front) := by
  obtain ⟨first, front, rfl, fall, frame⟩ := List.map_eq_cons_iff.mp frame
  obtain ⟨second, vals, rfl, rise, frame⟩ := List.map_eq_cons_iff.mp frame
  have started := sent_start second sending selected fall
  rw [if_pos ⟨low, rise⟩] at started
  have eight : vals.length = 8 := by
    rw [← List.length_map (f := bitOf), frame, dataBits, List.length_map, length_bitsOf]
  have loaded := sent_data vals 0 started selected fits (by omega)
  have bits : (vals.map bitOf).map not = bitsOf 8 byte.toNat := by
    rw [frame, dataBits, List.map_map]
    exact List.map_id'' Bool.not_not _
  rw [bits, foldl_shiftIn_all length_bitsOf fits, ofBits_bitsOf byte.toNat_lt, eight] at loaded
  exact loaded

/-- A whole frame. -/
theorem sent_byte {vals : List UInt8} {byte : UInt8} (sending : Sending wires written 0 data s)
    (selected : wires.commsData = 1) (fits : data < 256) (low : wires.cts = 0)
    (frame : vals.map bitOf = framed byte) :
    ∃ data, data < 256 ∧
      Sending wires (written ++ Stuffed.symbols 0x00 0x2a (.item byte)) 0 data (send s vals) := by
  rw [framed, ← List.cons_append, ← List.cons_append] at frame
  obtain ⟨front, stops, rfl, head, back⟩ := List.map_eq_append_iff.mp frame
  obtain ⟨first, stops, rfl, low₁, back⟩ := List.map_eq_cons_iff.mp back
  obtain ⟨second, stops, rfl, low₂, back⟩ := List.map_eq_cons_iff.mp back
  obtain ⟨third, stops, rfl, high, back⟩ := List.map_eq_cons_iff.mp back
  obtain rfl : stops = [] := List.map_eq_nil_iff.mp back
  have ten := sent_front sending selected fits low head
  have eleven := sent_stop first ten selected (by decide)
  rw [if_pos low₁] at eleven
  have twelve := sent_stop second eleven selected (by decide)
  rw [if_pos low₂] at twelve
  rw [send_append]
  refine ⟨_, ?_, bit_ends twelve selected high⟩
  split
  · decide
  · exact byte.toNat_lt

/-- A broken frame. -/
theorem sent_broken {vals : List UInt8} (sending : Sending wires written 0 data s)
    (selected : wires.commsData = 1) (fits : data < 256) (frame : Broken wires.cts (vals.map bitOf)) :
    Sending wires (written ++ [0x00, 0x3f]) 0 0x3f (send s vals) := by
  generalize shape : vals.map bitOf = bits at frame
  rcases frame with @⟨bit, wrong⟩ | @⟨byte, stops, low, wrong⟩
  · obtain ⟨first, vals, rfl, fall, rest⟩ := List.map_eq_cons_iff.mp shape
    obtain ⟨second, vals, rfl, same, rest⟩ := List.map_eq_cons_iff.mp rest
    obtain rfl : vals = [] := List.map_eq_nil_iff.mp rest
    have broken := sent_start second sending selected fall
    rw [if_neg ?_] at broken
    · exact broken
    · rintro ⟨low, high⟩
      rcases wrong with raised | missing
      · exact raised low
      · rw [← same, high] at missing
        nomatch missing
  · rw [← List.cons_append, ← List.cons_append] at shape
    obtain ⟨front, back, rfl, frame, shape⟩ := List.map_eq_append_iff.mp shape
    have ten := sent_front sending selected fits low frame
    rw [send_append]
    simp only [wrongStops, List.mem_cons, List.not_mem_nil, or_false] at wrong
    rcases wrong with rfl | rfl | rfl
    · obtain ⟨first, back, rfl, high, rest⟩ := List.map_eq_cons_iff.mp shape
      obtain rfl : back = [] := List.map_eq_nil_iff.mp rest
      have broken := sent_stop first ten selected (by decide)
      rwa [if_neg (by rw [high]; decide)] at broken
    · obtain ⟨first, back, rfl, low₁, rest⟩ := List.map_eq_cons_iff.mp shape
      obtain ⟨second, back, rfl, high, rest⟩ := List.map_eq_cons_iff.mp rest
      obtain rfl : back = [] := List.map_eq_nil_iff.mp rest
      have eleven := sent_stop first ten selected (by decide)
      rw [if_pos low₁] at eleven
      have broken := sent_stop second eleven selected (by decide)
      rwa [if_neg (by rw [high]; decide)] at broken
    · obtain ⟨first, back, rfl, low₁, rest⟩ := List.map_eq_cons_iff.mp shape
      obtain ⟨second, back, rfl, low₂, rest⟩ := List.map_eq_cons_iff.mp rest
      obtain ⟨third, back, rfl, low₃, rest⟩ := List.map_eq_cons_iff.mp rest
      obtain rfl : back = [] := List.map_eq_nil_iff.mp rest
      have eleven := sent_stop first ten selected (by decide)
      rw [if_pos low₁] at eleven
      have twelve := sent_stop second eleven selected (by decide)
      rw [if_pos low₂] at twelve
      exact sent_last_low twelve selected low₃

/-- Another bit of a frame. -/
theorem sent_next {byte : UInt8} {place : Nat} (sending : Sending wires written place data s)
    (selected : wires.commsData = 1) (low : wires.cts = 0 ∨ place = 0) (early : place < 12)
    (bit : (framed byte)[place]? = some (bitOf val)) :
    ∃ data, Sending wires written (place + 1 : Nat) data (s.portNetOut val) := by
  have count := sending.countOut
  by_cases idle : place = 0
  · subst idle
    refine ⟨data, bit_follows sending selected ?_ (by decide)⟩
    obtain fall : false = bitOf val := by simpa [framed] using bit
    simp [If1Ula.followFrame, count, ← fall, sending.dataOut]
  · have quiet : s.cts = 0 := sending.cts.trans (low.resolve_right idle)
    by_cases start : place = 1
    · subst start
      refine ⟨data, bit_follows sending selected ?_ (by decide)⟩
      obtain rise : true = bitOf val := by simpa [framed] using bit
      simp [If1Ula.followFrame, count, ← rise, sending.dataOut, quiet]
    · by_cases more : place < 10
      · have follows : s.followFrame (if bitOf val then 1 else 0) = { s with
            dataOut := s.dataOut >>> 1 ||| (if (if bitOf val then (1 : UInt8) else 0) ≠ 0 then 0 else 128)
            countOut := (place + 1 : Nat) } := by
          rw [If1Ula.followFrame, if_neg (by omega), if_neg (by omega), if_pos (by omega), count]
          rfl
        exact ⟨_, bit_follows sending selected follows (by omega)⟩
      · have stop := sent_stop val sending selected (by omega)
        obtain fall : false = bitOf val := by
          have long : (dataBits byte).length = 8 := by rw [dataBits, List.length_map, length_bitsOf]
          obtain rfl | rfl : place = 10 ∨ place = 11 := by omega
          · simpa [framed, List.getElem?_append, long] using bit
          · simpa [framed, List.getElem?_append, long] using bit
        rw [if_pos fall.symm] at stop
        exact ⟨data, stop⟩

/-- A frame that is not sent to its end writes nothing. -/
theorem sent_unfinished {vals : List UInt8} (sending : Sending wires written 0 data s)
    (selected : wires.commsData = 1) (frame : Unfinished wires.cts (vals.map bitOf)) :
    ∃ data, Sending wires written vals.length data (send s vals) := by
  obtain ⟨⟨byte, part, strict⟩, quiet⟩ := frame
  have short : vals.length ≤ 12 := by
    have bound := part.length_le
    have other : vals.length ≠ 13 := fun all => strict (part.eq_of_length (by simp [all, framed, dataBits, length_bitsOf]))
    simp only [framed, dataBits, List.length_map, List.length_cons, List.length_append, length_bitsOf,
      List.length_nil] at bound
    omega
  clear strict
  induction vals using List.reverseRecOn with
  | nil => exact ⟨data, sending⟩
  | append_singleton front val ih =>
    rw [List.map_append, List.map_singleton] at part
    rw [List.length_append, List.length_singleton] at short ⊢
    have early : wires.cts = 0 ∨ front.length = 0 := by
      simp only [List.map_append, List.length_append, List.length_map, List.length_singleton] at quiet
      omega
    have quietBefore : wires.cts = 0 ∨ (front.map bitOf).length ≤ 1 := by
      rw [List.length_map]
      omega
    obtain ⟨data, soFar⟩ := ih quietBefore ((List.prefix_append _ _).trans part) (by omega)
    rw [send_append]
    apply sent_next soFar selected early (by omega)
    obtain ⟨rest, whole⟩ := part
    rw [← whole]
    simp

/-! ## Runs -/

variable {rs232Handshake : Bool}

theorem run_sends {vals : List UInt8} : run rs232Handshake s (vals.map .netOut) = send s vals := by
  rw [run, List.foldl_map]
  rfl

theorem run_append {front back : List Op} :
    run rs232Handshake s (front ++ back) = run rs232Handshake (run rs232Handshake s front) back :=
  List.foldl_append

/-- A pipe carries some bytes, behind what is there. -/
def Carries (written bytes : List UInt8) (pipe : Option (List UInt8)) : Prop :=
  ∃ events : List (Stuffed UInt8), events.flatMap Stuffed.items = bytes ∧ Stuffed.control 0x2a ∉ events ∧
    pipe = some (written ++ events.flatMap (Stuffed.symbols 0x00 0x2a))

theorem Carries.nil : Carries written [] (some written) :=
  ⟨[], rfl, nofun, by rw [List.flatMap_nil, List.append_nil]⟩

theorem Carries.cons {bytes : List UInt8} {pipe : Option (List UInt8)} (event : Stuffed UInt8)
    (distinct : event ≠ .control 0x2a)
    (carries : Carries (written ++ Stuffed.symbols 0x00 0x2a event) bytes pipe) :
    Carries written (event.items ++ bytes) pipe := by
  obtain ⟨events, items, distinct', pipe⟩ := carries
  refine ⟨event :: events, ?_, ?_, ?_⟩
  · rw [List.flatMap_cons, items]
  · rw [List.mem_cons]
    exact not_or.mpr ⟨distinct.symm, distinct'⟩
  · rw [pipe, List.flatMap_cons, List.append_assoc]

/-- What a change of CTS writes. -/
def toldOf (rs232Handshake : Bool) (old cts : Nat) : List UInt8 :=
  if rs232Handshake ∧ old ≠ cts then [0x00, if cts ≠ 0 then 0x03 else 0x02] else []

theorem tellCts_eq (rs232Handshake : Bool) (cts : Nat) (plug : s.fdT = some written) :
    s.tellCts rs232Handshake cts = { s with fdT := some (written ++ toldOf rs232Handshake s.cts cts) } := by
  by_cases tells : rs232Handshake = true ∧ s.cts ≠ cts
  · rw [If1Ula.tellCts, if_pos ⟨tells.1, by rw [plug]; rfl, tells.2⟩, toldOf, if_pos tells]
    simp [If1Ula.write, plug]
  · rw [If1Ula.tellCts, if_neg fun told => tells ⟨told.1, told.2.2⟩, toldOf, if_neg tells, List.append_nil, ← plug]

theorem fdT_startLine : (s.startLine val).fdT = s.fdT ∧ (s.startLine val).cts = s.cts := by
  unfold If1Ula.startLine
  split
  all_goals exact ⟨rfl, rfl⟩

/-- A write to the control port tells at most a change of CTS. -/
theorem control_written (rs232Handshake : Bool) (sending : Sending wires written 0 data s) (fits : data < 256) :
    ∃ data, data < 256 ∧
      Sending (wired val) (written ++ toldOf rs232Handshake s.cts (wired val).cts) 0 data
        (s.portCtrOut rs232Handshake val) := by
  have plug : ((s.startLine val).setCommsData (wired val).commsData).fdT = some written :=
    fdT_startLine.1.trans sending.fdT
  have result : s.portCtrOut rs232Handshake val =
      (((s.startLine val).setCommsData (wired val).commsData).tellCts rs232Handshake (wired val).cts).setCts
        (wired val).cts := rfl
  rw [result, tellCts_eq rs232Handshake (wired val).cts plug]
  simp only [If1Ula.setCommsData, If1Ula.setCts, fdT_startLine.2]
  by_cases starts : val &&& 0x01 ≠ 0 ∧ s.commsData = 0
  · rw [If1Ula.startLine, if_pos starts]
    exact ⟨0, by decide, rfl, rfl, rfl, rfl, rfl⟩
  · rw [If1Ula.startLine, if_neg starts]
    exact ⟨data, fits, rfl, rfl, rfl, sending.countOut, sending.dataOut⟩

/-- What port writes put into a pipe. -/
theorem sends_written {ops : List Op} {bytes : List UInt8} (sends : Sends wires ops bytes)
    (sending : Sending wires written 0 data s) (fits : data < 256) :
    Carries written bytes (run rs232Handshake s ops).fdT := by
  induction sends generalizing written data s with
  | nil =>
    rw [run, List.foldl_nil, sending.fdT]
    exact .nil
  | @control wires val ops bytes rest ih =>
    obtain ⟨data, fits, told⟩ := control_written rs232Handshake sending fits
    have carries := ih told fits
    unfold toldOf at carries
    split at carries
    · refine .cons (.control _) ?_ carries
      split
      all_goals simp
    · rwa [List.append_nil] at carries
  | @network wires val ops bytes network rest ih =>
    have same : s.portNetOut val = s := by
      rw [If1Ula.portNetOut, if_neg (by rw [sending.fdT]; nofun), if_neg (by rw [sending.commsData]; exact network)]
    have carries := ih sending fits
    rwa [← same] at carries
  | @idle wires val ops bytes high rest ih =>
    exact ih (sent_idle sending high) fits
  | @byte wires vals byte ops bytes selected low frame rest ih =>
    obtain ⟨data, fits, sending⟩ := sent_byte sending selected fits low frame
    rw [run_append, run_sends]
    exact .cons (.item byte) nofun (ih sending fits)
  | @broken wires vals ops bytes selected frame rest ih =>
    rw [run_append, run_sends]
    exact .cons (.control 0x3f) (by simp) (ih (sent_broken sending selected fits frame) (by decide))
  | @unfinished wires vals selected frame =>
    obtain ⟨data, sending⟩ := sent_unfinished sending selected frame
    rw [run_sends, sending.fdT]
    exact .nil

/-! ## Reads between the writes -/

/-- Two instances that differ at most in what they receive. -/
structure SendAlike (s s' : If1Ula) : Prop where
  fdT : s.fdT = s'.fdT
  commsData : s.commsData = s'.commsData
  cts : s.cts = s'.cts
  countOut : s.countOut = s'.countOut
  dataOut : s.dataOut = s'.dataOut

variable {s' : If1Ula}

theorem SendAlike.refl : SendAlike s s := ⟨rfl, rfl, rfl, rfl, rfl⟩

theorem SendAlike.trans {s₁ s₂ : If1Ula} (first : SendAlike s s₁) (second : SendAlike s₁ s₂) : SendAlike s s₂ where
  fdT := first.fdT.trans second.fdT
  commsData := first.commsData.trans second.commsData
  cts := first.cts.trans second.cts
  countOut := first.countOut.trans second.countOut
  dataOut := first.dataOut.trans second.dataOut

theorem SendAlike.form (alike : SendAlike s s') :
    ∃ fdR rs232Buffer dtr tx rx dataIn countIn escIn,
      s' = { s with fdR, rs232Buffer, dtr, tx, rx, dataIn, countIn, escIn } := by
  refine ⟨s'.fdR, s'.rs232Buffer, s'.dtr, s'.tx, s'.rx, s'.dataIn, s'.countIn, s'.escIn, ?_⟩
  rw [alike.fdT, alike.commsData, alike.cts, alike.countOut, alike.dataOut]

theorem SendAlike.startLine (alike : SendAlike s s') : SendAlike (s.startLine val) (s'.startLine val) := by
  obtain ⟨fdR, rs232Buffer, dtr, tx, rx, dataIn, countIn, escIn, rfl⟩ := alike.form
  simp only [If1Ula.startLine]
  split
  all_goals exact ⟨rfl, rfl, rfl, rfl, rfl⟩

theorem SendAlike.tellCts {cts : Nat} (alike : SendAlike s s') :
    SendAlike (s.tellCts rs232Handshake cts) (s'.tellCts rs232Handshake cts) := by
  obtain ⟨fdR, rs232Buffer, dtr, tx, rx, dataIn, countIn, escIn, rfl⟩ := alike.form
  simp only [If1Ula.tellCts]
  split
  all_goals exact ⟨rfl, rfl, rfl, rfl, rfl⟩

theorem SendAlike.portCtrOut (alike : SendAlike s s') :
    SendAlike (s.portCtrOut rs232Handshake val) (s'.portCtrOut rs232Handshake val) := by
  have started : SendAlike (s.startLine val) (s'.startLine val) := alike.startLine
  have selected : SendAlike ((s.startLine val).setCommsData (wired val).commsData)
      ((s'.startLine val).setCommsData (wired val).commsData) :=
    ⟨started.fdT, rfl, started.cts, started.countOut, started.dataOut⟩
  have told : SendAlike
      (((s.startLine val).setCommsData (wired val).commsData).tellCts rs232Handshake (wired val).cts)
      (((s'.startLine val).setCommsData (wired val).commsData).tellCts rs232Handshake (wired val).cts) :=
    selected.tellCts
  exact ⟨told.fdT, told.commsData, rfl, told.countOut, told.dataOut⟩

theorem SendAlike.followFrame (alike : SendAlike s s') : SendAlike (s.followFrame val) (s'.followFrame val) := by
  obtain ⟨fdR, rs232Buffer, dtr, tx, rx, dataIn, countIn, escIn, rfl⟩ := alike.form
  simp only [If1Ula.followFrame]
  split_ifs
  all_goals exact ⟨rfl, rfl, rfl, rfl, rfl⟩

theorem SendAlike.markLost (alike : SendAlike s s') : SendAlike s.markLost s'.markLost := by
  obtain ⟨fdR, rs232Buffer, dtr, tx, rx, dataIn, countIn, escIn, rfl⟩ := alike.form
  simp only [If1Ula.markLost]
  split
  all_goals exact ⟨rfl, rfl, rfl, rfl, rfl⟩

theorem SendAlike.writeOut (alike : SendAlike s s') : SendAlike s.writeOut s'.writeOut := by
  obtain ⟨fdR, rs232Buffer, dtr, tx, rx, dataIn, countIn, escIn, rfl⟩ := alike.form
  simp only [If1Ula.writeOut]
  split
  · split
    all_goals exact ⟨rfl, rfl, rfl, rfl, rfl⟩
  · exact ⟨rfl, rfl, rfl, rfl, rfl⟩

theorem SendAlike.portNetOut (alike : SendAlike s s') : SendAlike (s.portNetOut val) (s'.portNetOut val) := by
  unfold If1Ula.portNetOut
  rw [alike.fdT, alike.commsData]
  split
  · exact alike
  split
  · have out : SendAlike (s.followFrame (val &&& 0x01)).markLost.writeOut
        (s'.followFrame (val &&& 0x01)).markLost.writeOut := alike.followFrame.markLost.writeOut
    exact ⟨out.fdT, out.commsData, out.cts, out.countOut, out.dataOut⟩
  · exact alike

theorem pollLoop_alike {bytes : List UInt8} : SendAlike (If1Ula.pollLoop rs232Handshake bytes s) s := by
  induction bytes generalizing s with
  | nil => exact ⟨rfl, rfl, rfl, rfl, rfl⟩
  | cons byte rest ih =>
    rw [If1Ula.pollLoop]
    split_ifs
    all_goals first
      | exact ⟨rfl, rfl, rfl, rfl, rfl⟩
      | exact ih.trans ⟨rfl, rfl, rfl, rfl, rfl⟩

theorem readLoop_alike {bytes : List UInt8} : SendAlike (If1Ula.readLoop rs232Handshake bytes s).2 s := by
  induction bytes generalizing s with
  | nil => exact ⟨rfl, rfl, rfl, rfl, rfl⟩
  | cons byte rest ih =>
    simp only [If1Ula.readLoop]
    split_ifs
    all_goals first
      | exact ⟨rfl, rfl, rfl, rfl, rfl⟩
      | exact ih.trans ⟨rfl, rfl, rfl, rfl, rfl⟩

/-- What is read does not change what is sent. -/
theorem read_alike {op : Op} (read : op.isWrite = false) : SendAlike (step rs232Handshake s op) s := by
  cases op with
  | ctrOut val => nomatch read
  | netOut val => nomatch read
  | ctrIn =>
    simp only [step, If1Ula.portCtrIn]
    split
    · split
      · exact pollLoop_alike
      · exact .refl
    · exact .refl
  | netIn =>
    have found : SendAlike (s.readRs232 rs232Handshake).2 s := by
      unfold If1Ula.readRs232
      split
      · exact ⟨rfl, rfl, rfl, rfl, rfl⟩
      split
      · exact readLoop_alike
      · exact .refl
    simp only [step, If1Ula.portNetIn, If1Ula.serialIn]
    split_ifs
    all_goals first
      | exact ⟨rfl, rfl, rfl, rfl, rfl⟩
      | exact ⟨found.fdT, found.commsData, found.cts, found.countOut, found.dataOut⟩
  | arrive bytes => exact ⟨rfl, rfl, rfl, rfl, rfl⟩

theorem write_alike {op : Op} (alike : SendAlike s s') :
    SendAlike (step rs232Handshake s op) (step rs232Handshake s' op) := by
  by_cases write : op.isWrite = true
  · cases op with
    | ctrOut val => exact alike.portCtrOut
    | netOut val => exact alike.portNetOut
    | _ => nomatch write
  · have read := (Bool.not_eq_true _).mp write
    have before : SendAlike (step rs232Handshake s op) s' := (read_alike read).trans alike
    have after : SendAlike (step rs232Handshake s' op) s' := read_alike read
    obtain ⟨fdT, commsData, cts, countOut, dataOut⟩ := after
    exact before.trans ⟨fdT.symm, commsData.symm, cts.symm, countOut.symm, dataOut.symm⟩

/-- The writes of a run. -/
def writes (ops : List Op) : List Op := ops.filter Op.isWrite

theorem run_alike {ops : List Op} (alike : SendAlike s s') :
    SendAlike (run rs232Handshake s ops) (run rs232Handshake s' (writes ops)) := by
  induction ops generalizing s s' with
  | nil => exact alike
  | cons op ops ih =>
    by_cases write : op.isWrite = true
    · rw [writes, List.filter_cons_of_pos write]
      exact ih (write_alike alike)
    · rw [writes, List.filter_cons_of_neg write]
      exact ih ((read_alike ((Bool.not_eq_true _).mp write)).trans alike)

/-- The bytes that are sent with correct framing are those in the pipe. -/
theorem sends_pipe (rs232Handshake : Bool) {ops : List Op} {bytes : List UInt8} (sends : Sends ⟨0, 2⟩ (writes ops) bytes) :
    ∃ pipe, (run rs232Handshake (plugged rs232Handshake) ops).fdT = some pipe ∧ payload 0x00 0x2a false pipe = bytes := by
  have start : Sending ⟨0, 2⟩ [] 0 0 (plugged rs232Handshake) := ⟨rfl, rfl, rfl, rfl, rfl⟩
  have carries : Carries [] bytes (run rs232Handshake (plugged rs232Handshake) (writes ops)).fdT :=
    sends_written sends start (by decide)
  have alike : SendAlike (run rs232Handshake (plugged rs232Handshake) ops)
      (run rs232Handshake (plugged rs232Handshake) (writes ops)) := run_alike .refl
  obtain ⟨events, items, distinct, pipe⟩ := carries
  exact ⟨_, alike.fdT.trans pipe, by rw [List.nil_append, payload_stuffed distinct, items]⟩

/-! ## Every sequence of bits is sent so -/

theorem length_dataBits {byte : UInt8} : (dataBits byte).length = 8 := by
  rw [dataBits, List.length_map, length_bitsOf]

/-- Any data bits are those of a byte. -/
theorem exists_dataBits {bits : List Bool} (eight : bits.length = 8) : ∃ byte, dataBits byte = bits := by
  have long : (bits.map not).length = 8 := by rw [List.length_map, eight]
  have fits : ofBits (bits.map not) < 2 ^ 8 := long ▸ ofBits_lt
  refine ⟨UInt8.ofNat (ofBits (bits.map not)), ?_⟩
  rw [dataBits, UInt8.toNat_ofNat', Nat.mod_eq_of_lt fits, ← long, bitsOf_ofBits, List.map_map]
  exact List.map_id'' Bool.not_not _

/-- The bits of a frame, as far as they go. -/
theorem unfinished_data {cts : Nat} {bits : List Bool} (low : cts = 0) (short : bits.length ≤ 8) :
    Unfinished cts (false :: true :: bits) := by
  have filled : (bits ++ List.replicate (8 - bits.length) false).length = 8 := by
    rw [List.length_append, List.length_replicate]
    omega
  obtain ⟨byte, data⟩ := exists_dataBits filled
  refine ⟨⟨byte, ?_, ?_⟩, .inl low⟩
  · rw [framed, data, List.append_assoc]
    simp
  · intro same
    have lengths := congrArg List.length same
    simp only [framed, List.length_cons, List.length_append, length_dataBits, List.length_nil] at lengths
    omega

theorem unfinished_stops {cts : Nat} {byte : UInt8} {stops : List Bool} (low : cts = 0)
    (part : stops <+: [false, false]) : Unfinished cts (false :: true :: (dataBits byte ++ stops)) := by
  refine ⟨⟨byte, ?_, ?_⟩, .inl low⟩
  · obtain ⟨rest, whole⟩ := part
    refine ⟨rest ++ [true], ?_⟩
    rw [framed, List.cons_append, List.cons_append, List.append_assoc, ← List.append_assoc stops, whole]
    rfl
  · intro same
    have lengths := congrArg List.length same
    have bound := part.length_le
    simp only [framed, List.length_cons, List.length_append, length_dataBits, List.length_nil] at lengths bound
    omega

theorem stops_cases (stops : List Bool) :
    stops <+: [false, false] ∨ (∃ wrong rest, wrong ∈ wrongStops ∧ stops = wrong ++ rest) ∨
      ∃ rest, stops = [false, false, true] ++ rest := by
  rcases stops with _ | ⟨_ | _, stops⟩
  · exact .inl List.nil_prefix
  · rcases stops with _ | ⟨_ | _, stops⟩
    · exact .inl (by decide)
    · rcases stops with _ | ⟨_ | _, stops⟩
      · exact .inl (by decide)
      · exact .inr (.inl ⟨[false, false, false], stops, by decide, rfl⟩)
      · exact .inr (.inr ⟨stops, rfl⟩)
    · exact .inr (.inl ⟨[false, true], stops, by decide, rfl⟩)
  · exact .inr (.inl ⟨[true], stops, by decide, rfl⟩)

/-- What the bits on the line begin with. -/
theorem first_frame (cts : Nat) (bits : List Bool) :
    bits = [] ∨ (∃ rest, bits = true :: rest) ∨ Unfinished cts bits ∨
      (∃ frame rest, Broken cts frame ∧ bits = frame ++ rest) ∨
      ∃ byte rest, cts = 0 ∧ bits = framed byte ++ rest := by
  rcases bits with _ | ⟨_ | _, bits⟩
  · exact .inl rfl
  swap
  · exact .inr (.inl ⟨bits, rfl⟩)
  rcases bits with _ | ⟨bit, bits⟩
  · exact .inr (.inr (.inl ⟨⟨0, by simp [framed], by simp [framed]⟩, .inr (by simp)⟩))
  by_cases rise : cts = 0 ∧ bit = true
  swap
  · refine .inr (.inr (.inr (.inl ⟨[false, bit], bits, .start ?_, rfl⟩)))
    by_cases low : cts = 0
    · exact .inr ((Bool.not_eq_true _).mp fun rises => rise ⟨low, rises⟩)
    · exact .inl low
  obtain ⟨low, rfl⟩ := rise
  by_cases few : bits.length ≤ 8
  · exact .inr (.inr (.inl (unfinished_data low few)))
  have eight : (bits.take 8).length = 8 := by
    rw [List.length_take]
    omega
  obtain ⟨byte, data⟩ := exists_dataBits eight
  rw [← List.take_append_drop 8 bits, ← data]
  rcases stops_cases (bits.drop 8) with part | ⟨wrong, rest, member, split⟩ | ⟨rest, split⟩
  · exact .inr (.inr (.inl (unfinished_stops low part)))
  · refine .inr (.inr (.inr (.inl ⟨false :: true :: (dataBits byte ++ wrong), rest, .stop low member, ?_⟩)))
    rw [split, List.cons_append, List.cons_append, List.append_assoc]
  · refine .inr (.inr (.inr (.inr ⟨byte, rest, low, ?_⟩)))
    rw [split, framed]
    simp

theorem Broken.length_pos {cts : Nat} {bits : List Bool} (broken : Broken cts bits) : 0 < bits.length := by
  cases broken with
  | start => exact Nat.succ_pos _
  | stop => exact Nat.succ_pos _

/-- Whatever is put on the line is sent so: frames, broken ones and a last one that is unfinished. -/
theorem exists_sends (selected : wires.commsData = 1) (vals : List UInt8) :
    ∃ bytes, Sends wires (vals.map .netOut) bytes := by
  obtain ⟨size, short⟩ : ∃ size, vals.length ≤ size := ⟨_, le_rfl⟩
  induction size generalizing vals with
  | zero =>
    obtain rfl := List.length_eq_zero_iff.mp (Nat.le_zero.mp short)
    exact ⟨[], .nil⟩
  | succ size ih =>
    rcases first_frame wires.cts (vals.map bitOf) with
      none | ⟨bits, split⟩ | part | ⟨frame, rest, wrong, split⟩ | ⟨byte, rest, low, split⟩
    · obtain rfl := List.map_eq_nil_iff.mp none
      exact ⟨[], .nil⟩
    · obtain ⟨val, rest, rfl, high, -⟩ := List.map_eq_cons_iff.mp split
      obtain ⟨bytes, sends⟩ := ih rest (Nat.le_of_succ_le_succ short)
      exact ⟨bytes, .idle high sends⟩
    · exact ⟨[], .unfinished selected part⟩
    · obtain ⟨front, back, rfl, rfl, -⟩ := List.map_eq_append_iff.mp split
      have some := wrong.length_pos
      rw [List.length_map] at some
      rw [List.length_append] at short
      obtain ⟨bytes, sends⟩ := ih back (by omega)
      rw [List.map_append]
      exact ⟨bytes, .broken selected wrong sends⟩
    · obtain ⟨front, back, rfl, whole, -⟩ := List.map_eq_append_iff.mp split
      have some := congrArg List.length whole
      rw [List.length_map, framed, List.length_cons] at some
      rw [List.length_append] at short
      obtain ⟨bytes, sends⟩ := ih back (by omega)
      rw [List.map_append]
      exact ⟨byte :: bytes, .byte selected low whole sends⟩

end FuseX.If1.Rs232
