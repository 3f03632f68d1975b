import FuseX.Gdb.Packets
import Mathlib.Data.List.Induction
import Mathlib.Tactic.IntervalCases

/-!
# Framing of remote-serial packets

Round trip of the writer through the deframer, and what the deframer does with
an arbitrary stream.

* `feedAll_packetMessage`: a payload comes back at its last byte and not before;
* `delivered_of_complete`: only a well-checked frame is delivered;
* `FramePos` is where a byte stands with respect to the frames `$…#hh` of its
  stream, and `Tracks` says how the deframer follows it: a frame it has rejected
  it reads as if it were outside of any frame;
* `rsp_framing_iff` assembles the three.
-/

namespace FuseX.Gdb

/-! ## Round trip -/

theorem hexNib_hexDigits {n : Nat} (small : n < 16) : hexNib (hexDigits.getD n 0) = some n := by
  interval_cases n <;> rfl

theorem nibbles_toNat (c : UInt8) :
    ((c >>> 4) &&& 0xF).toNat <<< 4 ||| (c &&& 0xF).toNat = c.toNat := by
  have bound := c.toNat_lt
  have high : ((c >>> 4) &&& 0xF).toNat = c.toNat / 16 := by
    rw [UInt8.toNat_and, UInt8.toNat_shiftRight]
    simp only [UInt8.reduceToNat, Nat.reduceMod]
    rw [Nat.shiftRight_eq_div_pow, show (15 : Nat) = 2 ^ 4 - 1 from rfl, Nat.and_two_pow_sub_one_eq_mod]
    omega
  have low : (c &&& 0xF).toNat = c.toNat % 16 := by
    rw [UInt8.toNat_and]
    exact Nat.and_two_pow_sub_one_eq_mod c.toNat 4
  rw [high, low, ← Nat.shiftLeft_add_eq_or_of_lt (by omega), Nat.shiftLeft_eq]
  omega

/-- The deframer with `data` added to its payload. -/
def RspDeframer.received (d : RspDeframer) (data : List UInt8) : RspDeframer :=
  { d with buf := d.buf ++ data, csum := data.foldl (· + ·) d.csum }

theorem received_received (d : RspDeframer) (front rest : List UInt8) :
    (d.received front).received rest = d.received (front ++ rest) := by
  simp only [RspDeframer.received, List.append_assoc, List.foldl_append]

/-- A byte of the payload that fits goes into the buffer. -/
theorem packetsFeedByte_payload {d : RspDeframer} (inPayload : d.state = .inPayload)
    {byte : UInt8} (plain : byte ≠ ascii '#') (fits : d.buf.length < d.cap) :
    packetsFeedByte d byte = ⟨d.received [byte], .consumed, none⟩ := by
  simp only [packetsFeedByte, inPayload, plain, Nat.not_le.mpr fits, if_false,
    RspDeframer.received, List.foldl_cons, List.foldl_nil]

theorem feedAll_payload {d : RspDeframer} (inPayload : d.state = .inPayload) {data : List UInt8}
    (plain : ascii '#' ∉ data) (fits : d.buf.length + data.length ≤ d.cap)
    (rest : List UInt8) :
    feedAll d (data ++ rest) =
      (List.replicate data.length .consumed ++ (feedAll (d.received data) rest).1,
        (feedAll (d.received data) rest).2) := by
  induction data generalizing d with
  | nil => simp [RspDeframer.received]
  | cons byte data ih =>
    obtain ⟨notHash, plain⟩ := not_or.mp (mt List.mem_cons.mpr plain)
    rw [List.length_cons] at fits
    have fed := packetsFeedByte_payload inPayload (Ne.symm notHash) (by omega)
    have room : (d.received [byte]).buf.length + data.length ≤ (d.received [byte]).cap := by
      simp only [RspDeframer.received, List.length_append, List.length_singleton]
      omega
    have tail := @ih (d.received [byte]) inPayload plain room
    rw [List.cons_append, feedAll, fed]
    simp only [tail, received_received, List.singleton_append]
    rfl

/-- Every payload that fits the buffer and has no `#` in it is reported complete
exactly at the last byte the writer emits, and is the packet then. -/
theorem feedAll_packetMessage {d : RspDeframer} (idle : d.state = .idle)
    {data : List UInt8} (fits : data.length ≤ d.cap) (plain : ascii '#' ∉ data) :
    (feedAll d (packetMessage data)).1 =
        List.replicate (data.length + 3) .consumed ++ [.complete] ∧
      (feedAll d (packetMessage data)).2.buf = data := by
  have start : packetsFeedByte d (ascii '$') =
      ⟨{ d with state := .inPayload, buf := [], csum := 0 }, .consumed, none⟩ := by
    simp only [packetsFeedByte, idle, if_true]
  have highDigit := @hexNib_hexDigits ((checksum data >>> 4) &&& 0xF).toNat (by
    rw [UInt8.toNat_and]
    exact Nat.lt_of_le_of_lt Nat.and_le_right (by decide))
  have lowDigit := @hexNib_hexDigits (checksum data &&& 0xF).toNat (by
    rw [UInt8.toNat_and]
    exact Nat.lt_of_le_of_lt Nat.and_le_right (by decide))
  have payload := @feedAll_payload { d with state := .inPayload, buf := [], csum := 0 } rfl data
    plain (by simpa using fits)
  generalize after : RspDeframer.received
    { d with state := .inPayload, buf := [], csum := 0 } data = d' at payload
  have state : d'.state = .inPayload := by rw [← after]; rfl
  have sum : d'.csum = checksum data := by rw [← after]; rfl
  have buf : d'.buf = data := by rw [← after]; rfl
  rw [packetMessage, List.cons_append, feedAll, start]
  simp only [payload]
  simp only [feedAll, packetsFeedByte, state, if_true, highDigit, lowDigit, sum, nibbles_toNat, buf,
    and_true]
  rw [List.replicate_add, List.append_assoc, ← List.cons_append, ← List.replicate_succ,
    List.replicate_succ', List.append_assoc]
  rfl

/-! ## One byte -/

/-- What one byte can do: one case for each branch of `packets_feed_byte`, as
`process_network` acts on it. -/
inductive NetworkStep (d : RspDeframer) (byte : UInt8) :
    RspDeframer → Option NetworkEvent → Prop
  | start : d.state = .idle → byte = ascii '$' →
    NetworkStep d byte { d with state := .inPayload, buf := [], csum := 0 } none
  | interrupt : d.state = .idle → byte = interruptChar →
    NetworkStep d byte packetsReset (some .interrupt)
  | noise : d.state = .idle → byte ≠ ascii '$' → byte ≠ interruptChar →
    NetworkStep d byte d none
  | hash : d.state = .inPayload → byte = ascii '#' →
    NetworkStep d byte { d with state := .hashHi } none
  | overflow : d.state = .inPayload → byte ≠ ascii '#' → d.cap ≤ d.buf.length →
    NetworkStep d byte packetsReset none
  | store : d.state = .inPayload → byte ≠ ascii '#' → d.buf.length < d.cap →
    NetworkStep d byte (d.received [byte]) none
  | digit (h : Nat) : d.state = .hashHi → hexNib byte = some h →
    NetworkStep d byte { d with state := .hashLo, hi := some h } none
  | noDigit : d.state = .hashHi → hexNib byte = none → NetworkStep d byte packetsReset none
  | complete (h l : Nat) : d.state = .hashLo → d.hi = some h → hexNib byte = some l →
    h <<< 4 ||| l = d.csum.toNat → NetworkStep d byte packetsReset (some (.packet d.buf))
  | badChecksum : d.state = .hashLo → NetworkStep d byte packetsReset none

theorem networkByte_step (d : RspDeframer) (byte : UInt8) :
    NetworkStep d byte (networkByte d byte).1 (networkByte d byte).2 := by
  cases state : d.state with
  | idle =>
    by_cases dollar : byte = ascii '$'
    · simpa [networkByte, packetsFeedByte, state, dollar] using NetworkStep.start state dollar
    by_cases interrupt : byte = interruptChar
    · have fed : networkByte d byte = (packetsReset, some .interrupt) := by
        simp only [networkByte, packetsFeedByte, state, interrupt, if_true,
          show interruptChar ≠ ascii '$' by decide, if_false]
      rw [fed]
      exact .interrupt state interrupt
    · have fed : networkByte d byte = (d, none) := by
        simp only [networkByte, packetsFeedByte, state, dollar, interrupt, if_false]
      rw [fed]
      exact .noise state dollar interrupt
  | inPayload =>
    by_cases hash : byte = ascii '#'
    · simpa [networkByte, packetsFeedByte, state, hash] using NetworkStep.hash state hash
    rcases Nat.lt_or_ge d.buf.length d.cap with room | full
    · rw [networkByte, packetsFeedByte_payload state hash room]
      exact .store state hash room
    · have fed : networkByte d byte = (packetsReset, none) := by
        simp only [networkByte, packetsFeedByte, state, hash, full, if_true, if_false, rejectFrame]
      rw [fed]
      exact .overflow state hash full
  | hashHi =>
    rcases digit : hexNib byte with _ | h
    · simpa [networkByte, packetsFeedByte, state, digit, rejectFrame] using
        NetworkStep.noDigit state digit
    · simpa [networkByte, packetsFeedByte, state, digit] using NetworkStep.digit h state digit
  | hashLo =>
    have rejected : NetworkStep d byte packetsReset none := .badChecksum state
    rcases hi : d.hi with _ | h
    · simpa [networkByte, packetsFeedByte, state, hi, rejectFrame] using rejected
    rcases digit : hexNib byte with _ | l
    · simpa [networkByte, packetsFeedByte, state, hi, digit, rejectFrame] using rejected
    by_cases checked : h <<< 4 ||| l = d.csum.toNat
    · simpa [networkByte, packetsFeedByte, state, hi, digit, checked] using
        NetworkStep.complete h l state hi digit checked
    · simpa [networkByte, packetsFeedByte, state, hi, digit, checked, rejectFrame] using rejected

/-! ## Delivered packets -/

/-- The stream ends in a frame with this payload, whose two digits are the
checksum of the payload. -/
def EndsInFrame (stream payload : List UInt8) : Prop :=
  ∃ front high low, stream = front ++ ascii '$' :: payload ++ [ascii '#', high, low] ∧
    ascii '#' ∉ payload ∧ payload.length ≤ packetBufSize ∧
    ∃ h l, hexNib high = some h ∧ hexNib low = some l ∧ h <<< 4 ||| l = (checksum payload).toNat

/-- The bytes in the buffer are those behind the `$` the deframer started the
packet at. -/
structure Received (stream front : List UInt8) (d : RspDeframer) (tail : List UInt8) : Prop where
  stream : stream = front ++ ascii '$' :: d.buf ++ tail
  plain : ascii '#' ∉ d.buf
  fits : d.buf.length ≤ d.cap
  sum : d.csum = checksum d.buf

/-- What each state says about the stream read so far. -/
structure Remembers (stream : List UInt8) (d : RspDeframer) : Prop where
  cap : d.cap = packetBufSize
  inPayload : d.state = .inPayload → ∃ front, Received stream front d []
  hashHi : d.state = .hashHi → ∃ front, Received stream front d [ascii '#']
  hashLo : d.state = .hashLo →
    ∃ front high, Received stream front d [ascii '#', high] ∧ hexNib high = d.hi

theorem Remembers.idle {stream : List UInt8} {d : RspDeframer} (cap : d.cap = packetBufSize)
    (idle : d.state = .idle) : Remembers stream d := by
  refine ⟨cap, ?_, ?_, ?_⟩ <;> intro state <;> rw [idle] at state <;> cases state

/-- The frame goes on with one more byte behind the payload. -/
theorem Received.append {stream front tail : List UInt8} {d d' : RspDeframer}
    (received : Received stream front d tail) (byte : UInt8) (buf : d'.buf = d.buf)
    (cap : d'.cap = d.cap) (csum : d'.csum = d.csum) :
    Received (stream ++ [byte]) front d' (tail ++ [byte]) :=
  ⟨by rw [received.stream, buf]; simp, buf ▸ received.plain, by rw [buf, cap]; exact received.fits,
    by rw [csum, buf]; exact received.sum⟩

/-- One byte keeps what the states say, and a packet is delivered only for a
checked frame. -/
theorem Remembers.step {stream : List UInt8} {d d' : RspDeframer} {byte : UInt8}
    {event : Option NetworkEvent} (remembers : Remembers stream d)
    (step : NetworkStep d byte d' event) :
    Remembers (stream ++ [byte]) d' ∧
      ∀ payload, event = some (.packet payload) → EndsInFrame (stream ++ [byte]) payload := by
  have cap := remembers.cap
  cases step with
  | start idle dollar =>
    refine ⟨⟨cap, fun _ => ⟨stream, ?_⟩, nofun, nofun⟩, nofun⟩
    exact ⟨by simp [dollar], by simp, Nat.zero_le _, rfl⟩
  | interrupt idle interrupt => exact ⟨.idle rfl rfl, nofun⟩
  | noise idle => exact ⟨.idle cap idle, nofun⟩
  | hash inPayload hash =>
    obtain ⟨front, received⟩ := remembers.inPayload inPayload
    refine ⟨⟨cap, nofun, fun _ => ⟨front, ?_⟩, nofun⟩, nofun⟩
    rw [hash]
    exact received.append _ rfl rfl rfl
  | overflow => exact ⟨.idle rfl rfl, nofun⟩
  | store inPayload notHash room =>
    obtain ⟨front, received⟩ := remembers.inPayload inPayload
    have state : (d.received [byte]).state = .inPayload := inPayload
    refine ⟨⟨cap, fun _ => ⟨front, ?_⟩, by simp [state], by simp [state]⟩, nofun⟩
    refine ⟨by simp [received.stream, RspDeframer.received], ?_, ?_, ?_⟩
    · simp only [RspDeframer.received, List.mem_append, List.mem_singleton, not_or]
      exact ⟨received.plain, Ne.symm notHash⟩
    · simpa [RspDeframer.received] using Nat.succ_le_of_lt room
    · simp only [RspDeframer.received, checksum, List.foldl_append]
      rw [received.sum]
      rfl
  | digit h hashHi digit =>
    obtain ⟨front, received⟩ := remembers.hashHi hashHi
    refine ⟨⟨cap, nofun, nofun, fun _ => ⟨front, byte, ?_, digit⟩⟩, nofun⟩
    exact received.append _ rfl rfl rfl
  | noDigit => exact ⟨.idle rfl rfl, nofun⟩
  | complete h l hashLo hi digit checked =>
    obtain ⟨front, high, received, first⟩ := remembers.hashLo hashLo
    refine ⟨.idle rfl rfl, fun payload event => ?_⟩
    obtain rfl : d.buf = payload := by simpa using event
    refine ⟨front, high, byte, by simp [received.stream], received.plain, cap ▸ received.fits,
      h, l, first.trans hi, digit, ?_⟩
    rw [checked, received.sum]
  | badChecksum => exact ⟨.idle rfl rfl, nofun⟩

theorem deframerAfter_append (stream : List UInt8) (byte : UInt8) :
    deframerAfter (stream ++ [byte]) = (networkByte (deframerAfter stream) byte).1 := by
  simp only [deframerAfter, List.foldl_append, List.foldl_cons, List.foldl_nil]

theorem remembers_deframerAfter (stream : List UInt8) : Remembers stream (deframerAfter stream) := by
  induction stream using List.reverseRecOn with
  | nil => exact .idle rfl rfl
  | append_singleton stream byte ih =>
    rw [deframerAfter_append]
    exact (ih.step (networkByte_step _ byte)).1

/-- A packet is delivered only for a checked frame that ends with the byte just
read. -/
theorem endsInFrame_of_delivered {stream payload : List UInt8} {byte : UInt8}
    (delivered : (networkByte (deframerAfter stream) byte).2 = some (.packet payload)) :
    EndsInFrame (stream ++ [byte]) payload :=
  ((remembers_deframerAfter stream).step (networkByte_step _ byte)).2 payload delivered

/-! ## Rejected frames -/

/-- Where a byte stands: outside of any frame, in the payload of a frame after a
number of payload bytes, or at one of its two checksum digits. -/
inductive FramePos : Type
  | outside
  | payload (count : Nat)
  | firstDigit (count : Nat)
  | secondDigit (count : Nat) (firstIsHex : Bool)
  deriving DecidableEq, Repr

/-- A frame starts at a `$` outside of any frame, its payload ends at the first
`#`, and the two bytes behind that end it. -/
def FramePos.next : FramePos → UInt8 → FramePos
  | .outside, byte => if byte = ascii '$' then .payload 0 else .outside
  | .payload count, byte => if byte = ascii '#' then .firstDigit count else .payload (count + 1)
  | .firstDigit count, byte => .secondDigit count (hexNib byte).isSome
  | .secondDigit _ _, _ => .outside

/-- Where the byte behind `stream` stands. -/
def framePos (stream : List UInt8) : FramePos :=
  stream.foldl FramePos.next .outside

/-- The frame the byte stands in is already too long for the buffer, or its first
digit was none. -/
def FramePos.Broken : FramePos → Prop
  | .outside => False
  | .payload count | .firstDigit count => packetBufSize < count
  | .secondDigit count firstIsHex => packetBufSize < count ∨ firstIsHex = false

/-- The deframer takes the byte for an interrupt or for the start of a packet. -/
def Misread (d : RspDeframer) (byte : UInt8) : Prop :=
  (networkByte d byte).2 = some .interrupt ∨
    d.state = .idle ∧ (networkByte d byte).1.state = .inPayload

/-- No byte inside a frame of the stream is taken for an interrupt or for the
start of a packet. -/
def RespectsFrames (stream : List UInt8) : Prop :=
  ∀ front byte rest, stream = front ++ byte :: rest → framePos front ≠ .outside →
    ¬ Misread (deframerAfter front) byte

/-- The rest of a frame that is too long or whose first digit is none holds
neither `$` nor the interrupt byte. -/
def BrokenFramesPlain (stream : List UInt8) : Prop :=
  ∀ front byte rest, stream = front ++ byte :: rest → (framePos front).Broken →
    byte ≠ ascii '$' ∧ byte ≠ interruptChar

theorem misread_iff {d : RspDeframer} {byte : UInt8} :
    Misread d byte ↔ d.state = .idle ∧ (byte = ascii '$' ∨ byte = interruptChar) := by
  have step := networkByte_step d byte
  unfold Misread
  generalize networkByte d byte = outcome at step
  obtain ⟨d', event⟩ := outcome
  cases step <;> simp_all

/-- The deframer in a frame that is not broken. -/
def FollowsFrame (d : RspDeframer) : FramePos → Prop
  | .outside => d.state = .idle
  | .payload count => d.state = .inPayload ∧ d.buf.length = count
  | .firstDigit _ => d.state = .hashHi
  | .secondDigit _ _ => d.state = .hashLo

/-- How the deframer follows the frames of the stream: it is idle as soon as the
frame is broken. -/
structure Tracks (d : RspDeframer) (pos : FramePos) : Prop where
  cap : d.cap = packetBufSize
  broken : pos.Broken → d.state = .idle
  follows : ¬ pos.Broken → FollowsFrame d pos

/-- Which position the deframer's state stands for. -/
theorem Tracks.pos_of_state {d : RspDeframer} {pos : FramePos} (tracks : Tracks d pos) :
    match d.state with
    | .idle => pos = .outside ∨ pos.Broken
    | .inPayload => pos = .payload d.buf.length ∧ d.buf.length ≤ packetBufSize
    | .hashHi => ∃ count, pos = .firstDigit count ∧ count ≤ packetBufSize
    | .hashLo => ∃ count, pos = .secondDigit count true ∧ count ≤ packetBufSize := by
  by_cases broken : pos.Broken
  · rw [tracks.broken broken]
    exact .inr broken
  have follows := tracks.follows broken
  cases pos with
  | outside =>
    rw [show d.state = .idle from follows]
    exact .inl rfl
  | payload count =>
    obtain ⟨state, length⟩ := follows
    rw [state]
    exact ⟨by rw [length], length ▸ Nat.le_of_not_lt broken⟩
  | firstDigit count =>
    rw [show d.state = .hashHi from follows]
    exact ⟨count, rfl, Nat.le_of_not_lt broken⟩
  | secondDigit count firstIsHex =>
    rw [show d.state = .hashLo from follows]
    obtain ⟨short, hex⟩ := not_or.mp broken
    exact ⟨count, by rw [Bool.eq_true_of_not_eq_false hex], Nat.le_of_not_lt short⟩

/-- A broken frame stays broken up to its end. -/
theorem FramePos.Broken.next {pos : FramePos} (broken : pos.Broken) (byte : UInt8) :
    pos.next byte = .outside ∨ (pos.next byte).Broken := by
  cases pos with
  | outside => exact broken.elim
  | payload count =>
    right
    simp only [FramePos.next]
    split
    · exact broken
    · exact Nat.lt_succ_of_lt broken
  | firstDigit count => exact .inr (.inl broken)
  | secondDigit count firstIsHex => exact .inl rfl

theorem tracks_of_idle {d : RspDeframer} {pos : FramePos} (cap : d.cap = packetBufSize)
    (idle : d.state = .idle) (outside : pos = .outside ∨ pos.Broken) : Tracks d pos := by
  refine ⟨cap, fun _ => idle, fun whole => ?_⟩
  obtain rfl : pos = .outside := outside.resolve_right whole
  exact idle

/-- A byte that is not misread keeps the deframer on the frames of the stream. -/
theorem Tracks.step {d d' : RspDeframer} {pos : FramePos} {byte : UInt8}
    {event : Option NetworkEvent} (tracks : Tracks d pos) (step : NetworkStep d byte d' event)
    (plain : pos.Broken → byte ≠ ascii '$' ∧ byte ≠ interruptChar) :
    Tracks d' (pos.next byte) := by
  have cap := tracks.cap
  have at_ := tracks.pos_of_state
  cases step with
  | start idle dollar =>
    rw [idle] at at_
    rcases at_ with rfl | broken
    · rw [FramePos.next, if_pos dollar]
      exact ⟨cap, fun broken => absurd broken (Nat.not_lt_zero _), fun _ => ⟨rfl, rfl⟩⟩
    · exact absurd dollar (plain broken).1
  | interrupt idle interrupt =>
    rw [idle] at at_
    rcases at_ with rfl | broken
    · rw [FramePos.next, if_neg (interrupt ▸ by decide)]
      exact tracks_of_idle rfl rfl (.inl rfl)
    · exact absurd interrupt (plain broken).2
  | noise idle notStart notInterrupt =>
    rw [idle] at at_
    refine tracks_of_idle cap idle ?_
    rcases at_ with rfl | broken
    · exact .inl (by rw [FramePos.next, if_neg notStart])
    · exact broken.next byte
  | hash inPayload hash =>
    rw [inPayload] at at_
    obtain ⟨rfl, short⟩ := at_
    rw [FramePos.next, if_pos hash]
    exact ⟨cap, fun broken => absurd broken (Nat.not_lt.mpr short), fun _ => rfl⟩
  | overflow inPayload notHash full =>
    rw [inPayload] at at_
    obtain ⟨rfl, short⟩ := at_
    rw [FramePos.next, if_neg notHash]
    exact tracks_of_idle rfl rfl (.inr (Nat.lt_succ_of_le (cap ▸ full)))
  | store inPayload notHash room =>
    rw [inPayload] at at_
    obtain ⟨rfl, short⟩ := at_
    rw [FramePos.next, if_neg notHash]
    refine ⟨cap, fun broken => ?_, fun _ => ⟨inPayload, by simp [RspDeframer.received]⟩⟩
    exact absurd broken (Nat.not_lt.mpr (cap ▸ Nat.succ_le_of_lt room))
  | digit h hashHi digit =>
    rw [hashHi] at at_
    obtain ⟨count, rfl, short⟩ := at_
    rw [FramePos.next, digit]
    refine ⟨cap, fun broken => ?_, fun _ => rfl⟩
    exact absurd broken (not_or.mpr ⟨Nat.not_lt.mpr short, by simp⟩)
  | noDigit hashHi noDigit =>
    rw [hashHi] at at_
    obtain ⟨count, rfl, short⟩ := at_
    rw [FramePos.next, noDigit]
    exact tracks_of_idle rfl rfl (.inr (.inr rfl))
  | complete h l hashLo =>
    rw [hashLo] at at_
    obtain ⟨count, rfl, short⟩ := at_
    exact tracks_of_idle rfl rfl (.inl rfl)
  | badChecksum hashLo =>
    rw [hashLo] at at_
    obtain ⟨count, rfl, short⟩ := at_
    exact tracks_of_idle rfl rfl (.inl rfl)

/-! ## Streams -/

theorem framePos_append (stream : List UInt8) (byte : UInt8) :
    framePos (stream ++ [byte]) = (framePos stream).next byte := by
  simp only [framePos, List.foldl_append, List.foldl_cons, List.foldl_nil]

theorem BrokenFramesPlain.prefix {stream : List UInt8} {byte : UInt8}
    (plain : BrokenFramesPlain (stream ++ [byte])) : BrokenFramesPlain stream := by
  intro front next rest split
  exact plain front next (rest ++ [byte]) (by simp [split])

/-- As long as no broken frame holds a `$` or an interrupt byte, the deframer
follows the frames. -/
theorem tracks_deframerAfter {stream : List UInt8} (plain : BrokenFramesPlain stream) :
    Tracks (deframerAfter stream) (framePos stream) := by
  induction stream using List.reverseRecOn with
  | nil => exact tracks_of_idle rfl rfl (.inl rfl)
  | append_singleton stream byte ih =>
    rw [deframerAfter_append, framePos_append]
    exact (ih plain.prefix).step (networkByte_step _ byte) (plain stream byte [] rfl)

/-- A byte inside a frame is misread exactly in a broken frame. -/
theorem misread_iff_broken {d : RspDeframer} {pos : FramePos} {byte : UInt8}
    (tracks : Tracks d pos) (inFrame : pos ≠ .outside) :
    Misread d byte ↔ pos.Broken ∧ (byte = ascii '$' ∨ byte = interruptChar) := by
  rw [misread_iff]
  refine and_congr_left fun _ => ⟨fun idle => ?_, tracks.broken⟩
  have at_ := tracks.pos_of_state
  rw [idle] at at_
  exact at_.resolve_left inFrame

theorem respectsFrames_iff (stream : List UInt8) :
    RespectsFrames stream ↔ BrokenFramesPlain stream := by
  constructor
  · intro respects
    -- by induction on the part of the stream already read
    suffices each : ∀ read rest, stream = read ++ rest → BrokenFramesPlain read from
      each stream [] (List.append_nil _).symm
    intro read
    induction read using List.reverseRecOn with
    | nil => intro rest _ front byte rest' split; simp at split
    | append_singleton read last ih =>
      intro rest whole front byte rest' split broken
      have plain := ih (last :: rest) (by simpa using whole)
      rcases List.eq_nil_or_concat rest' with rfl | ⟨inner, final, rfl⟩
      · obtain ⟨rfl, rfl⟩ : read = front ∧ last = byte := by
          simpa using List.append_inj' split rfl
        have inFrame : framePos read ≠ .outside := by
          intro outside
          simp [outside, FramePos.Broken] at broken
        have fine := respects read last rest (by simpa using whole) inFrame
        rw [misread_iff_broken (tracks_deframerAfter plain) inFrame] at fine
        simpa [broken, not_or] using fine
      · have longer : read ++ [last] = (front ++ byte :: inner) ++ [final] := by simpa using split
        exact plain front byte inner (List.append_inj' longer rfl).1 broken
  · intro plain front byte rest split inFrame misread
    have before : BrokenFramesPlain front := by
      intro front' byte' rest' split'
      exact plain front' byte' (rest' ++ byte :: rest) (by simp [split, split'])
    rw [misread_iff_broken (tracks_deframerAfter before) inFrame] at misread
    obtain ⟨notStart, notInterrupt⟩ := plain front byte rest split misread.1
    exact misread.2.elim notStart notInterrupt

/-- A payload that fits and has no `#` comes back at its last byte; a packet is
delivered only for a checked frame; and no byte inside a frame is misread exactly
when the rest of every broken frame is plain. -/
theorem rsp_framing_iff (stream : List UInt8) :
    (∀ d : RspDeframer, d.state = .idle → d.cap = packetBufSize → ∀ data : List UInt8,
      data.length ≤ packetBufSize → ascii '#' ∉ data →
        (feedAll d (packetMessage data)).1 =
            List.replicate (data.length + 3) .consumed ++ [.complete] ∧
          (feedAll d (packetMessage data)).2.buf = data) ∧
    (∀ (payload : List UInt8) (byte : UInt8),
      (networkByte (deframerAfter stream) byte).2 = some (.packet payload) →
        EndsInFrame (stream ++ [byte]) payload) ∧
    (RespectsFrames stream ↔ BrokenFramesPlain stream) := by
  refine ⟨fun d idle cap data fits plain => ?_, fun payload byte => endsInFrame_of_delivered,
    respectsFrames_iff stream⟩
  exact feedAll_packetMessage idle (cap ▸ fits) plain

/-- The payload of a reply, and the frame the writer makes of it. -/
def replyOk : List UInt8 := [ascii 'O', ascii 'K']

theorem rsp_framing_reply :
    (feedAll packetsReset (packetMessage replyOk)).1 =
        [.consumed, .consumed, .consumed, .consumed, .consumed, .complete] ∧
      (feedAll packetsReset (packetMessage replyOk)).2.buf = replyOk ∧
      EndsInFrame (packetMessage replyOk) replyOk := by
  obtain ⟨sent, delivered, -⟩ := rsp_framing_iff (packetMessage replyOk).dropLast
  obtain ⟨answers, buf⟩ := sent packetsReset rfl rfl replyOk (by decide) (by decide)
  exact ⟨answers, buf, delivered replyOk (ascii 'a') (by decide)⟩

/-- A frame with one payload byte more than the buffer holds, up to that byte. -/
@[irreducible] def longFrame : List UInt8 :=
  ascii '$' :: List.replicate (packetBufSize + 1) (ascii 'a')

theorem framePos_replicate (n : Nat) :
    framePos (ascii '$' :: List.replicate n (ascii 'a')) = .payload n := by
  induction n with
  | zero => rfl
  | succ n ih =>
    rw [List.replicate_succ', ← List.cons_append, framePos_append, ih]
    rfl

theorem longFrame_plain : BrokenFramesPlain longFrame := by
  intro front byte rest split broken
  cases front with
  | nil => exact broken.elim
  | cons first front =>
    rw [longFrame] at split
    obtain ⟨-, payload⟩ := List.cons.inj split
    have member : byte ∈ List.replicate (packetBufSize + 1) (ascii 'a') := by simp [payload]
    obtain rfl := List.eq_of_mem_replicate member
    decide

/-- In a broken frame an interrupt byte is taken for an interrupt. -/
theorem interrupt_of_broken {stream : List UInt8} (plain : BrokenFramesPlain stream)
    (broken : (framePos stream).Broken) :
    (networkByte (deframerAfter stream) interruptChar).2 = some .interrupt := by
  have idle := (tracks_deframerAfter plain).broken broken
  simp only [networkByte, packetsFeedByte, idle, show interruptChar ≠ ascii '$' by decide,
    if_false, if_true]

theorem longFrame_broken : (framePos longFrame).Broken := by
  rw [longFrame, framePos_replicate]
  exact Nat.lt_succ_self _

/-- The deframer drops a frame that is too long and takes an interrupt byte in
the rest of its payload for an interrupt. -/
theorem rsp_interrupt_in_dropped_frame :
    (networkByte (deframerAfter longFrame) interruptChar).2 = some .interrupt ∧
      ¬ ∀ stream : List UInt8, RespectsFrames stream := by
  have interrupted := interrupt_of_broken longFrame_plain longFrame_broken
  refine ⟨interrupted, fun respects => ?_⟩
  refine respects _ longFrame interruptChar [] rfl (fun outside => ?_) (.inl interrupted)
  have broken := longFrame_broken
  rw [outside] at broken
  exact broken

end FuseX.Gdb
