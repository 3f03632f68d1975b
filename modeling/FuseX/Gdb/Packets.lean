import Mathlib.Data.List.Basic

/-!
# Remote-serial packets

The deframer and the packet writer of `packets.c`, and the loop of
`process_network` that feeds received bytes to the deframer.

* `packetsFeedByte` is one call of `packets_feed_byte`, with the acknowledgement
  byte it sends;
* `networkByte` adds what `process_network` does with the result: a complete
  packet is processed and the deframer reset, an interrupt is noted;
* `packetMessage` is the buffer `packet_send_message` sends.
-/

namespace FuseX.Gdb

/-- An ASCII character as a byte. -/
def ascii (c : Char) : UInt8 :=
  c.toNat.toUInt8

/-- `INTERRUPT_CHAR`. -/
def interruptChar : UInt8 := 0x03

/-- `PACKET_BUF_SIZE`. -/
def packetBufSize : Nat := 0x4000

/-! ## The deframer -/

/-- `rsp_state_t`. -/
inductive RspState : Type
  | idle
  | inPayload
  | hashHi
  | hashLo
  deriving DecidableEq, Repr

/-- `rsp_deframer_t`. `buf` holds the first `len` bytes of the buffer. -/
structure RspDeframer : Type where
  state : RspState := .idle
  buf : List UInt8 := []
  cap : Nat := packetBufSize
  csum : UInt8 := 0
  hi : Option Nat := none
  deriving DecidableEq, Repr

/-- `packets_feed_result_t`. -/
inductive PacketsFeedResult : Type
  | notConsumed
  | consumed
  | complete
  | interrupt
  deriving DecidableEq, Repr

/-- What one call leaves: the deframer, the result and the byte it sent, if any. -/
structure FeedOutcome : Type where
  deframer : RspDeframer
  result : PacketsFeedResult
  reply : Option UInt8 := none
  deriving DecidableEq, Repr

/-- `hex_nib`. -/
def hexNib (c : UInt8) : Option Nat :=
  if ascii '0' ≤ c ∧ c ≤ ascii '9' then some (c.toNat - (ascii '0').toNat)
  else if ascii 'a' ≤ c ∧ c ≤ ascii 'f' then some (c.toNat - (ascii 'a').toNat + 10)
  else if ascii 'A' ≤ c ∧ c ≤ ascii 'F' then some (c.toNat - (ascii 'A').toNat + 10)
  else none

/-- `packets_reset`, which also restores the capacity. -/
def packetsReset : RspDeframer := {}

/-- `send_nak` followed by `packets_reset`. -/
def rejectFrame : FeedOutcome :=
  ⟨packetsReset, .notConsumed, some (ascii '-')⟩

/-- `packets_feed_byte`. -/
def packetsFeedByte (d : RspDeframer) (byte : UInt8) : FeedOutcome :=
  match d.state with
  | .idle =>
      if byte = ascii '$' then
        ⟨{ d with state := .inPayload, buf := [], csum := 0 }, .consumed, none⟩
      else if byte = interruptChar then ⟨packetsReset, .interrupt, none⟩
      else ⟨d, .notConsumed, none⟩
  | .inPayload =>
      if byte = ascii '#' then ⟨{ d with state := .hashHi }, .consumed, none⟩
      else if d.cap ≤ d.buf.length then rejectFrame
      else ⟨{ d with buf := d.buf ++ [byte], csum := d.csum + byte }, .consumed, none⟩
  | .hashHi =>
      match hexNib byte with
      | none => rejectFrame
      | some h => ⟨{ d with state := .hashLo, hi := some h }, .consumed, none⟩
  | .hashLo =>
      match d.hi, hexNib byte with
      | some hi, some lo =>
          if hi <<< 4 ||| lo = d.csum.toNat then ⟨d, .complete, some (ascii '+')⟩
          else rejectFrame
      | _, _ => rejectFrame

/-- The results of feeding bytes one by one, and the deframer after them. -/
def feedAll (d : RspDeframer) : List UInt8 → List PacketsFeedResult × RspDeframer
  | [] => ([], d)
  | byte :: bytes =>
      let outcome := packetsFeedByte d byte
      let rest := feedAll outcome.deframer bytes
      (outcome.result :: rest.1, rest.2)

/-! ## The network loop -/

/-- What `process_network` acts on. -/
inductive NetworkEvent : Type
  | packet (payload : List UInt8)
  | interrupt
  deriving DecidableEq, Repr

/-- One turn of the loop of `process_network`. -/
def networkByte (d : RspDeframer) (byte : UInt8) : RspDeframer × Option NetworkEvent :=
  let outcome := packetsFeedByte d byte
  match outcome.result with
  | .complete => (packetsReset, some (.packet outcome.deframer.buf))
  | .interrupt => (outcome.deframer, some .interrupt)
  | .consumed | .notConsumed => (outcome.deframer, none)

/-- The deframer after the bytes of any number of reads. -/
def deframerAfter (stream : List UInt8) : RspDeframer :=
  stream.foldl (fun d byte => (networkByte d byte).1) packetsReset

/-! ## The writer -/

/-- The sum of the bytes modulo 256. -/
def checksum (data : List UInt8) : UInt8 :=
  data.foldl (· + ·) 0

/-- The digits the writer indexes. -/
def hexDigits : List UInt8 :=
  "0123456789abcdef".toList.map ascii

/-- The buffer `packet_send_message` builds and sends. -/
def packetMessage (data : List UInt8) : List UInt8 :=
  ascii '$' :: data ++
    [ascii '#', hexDigits.getD ((checksum data >>> 4) &&& 0xF).toNat 0,
      hexDigits.getD (checksum data &&& 0xF).toNat 0]

end FuseX.Gdb
