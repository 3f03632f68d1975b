import Mathlib.Algebra.Ring.Nat
import Mathlib.Data.List.Basic

/-!
# The parser of DNS answers

`dns_processor.c` looks into the datagrams that come from port 53 and reports the addresses of hosts. Its
offsets are of 16 bits, and sums of them wrap. A read behind the datagram and a write behind a name buffer
are faults.
-/

namespace FuseX.Nic.Dns

abbrev Text : Type := List UInt8

/-- A datagram, of at most 65535 bytes. -/
structure Datagram : Type where
  bytes : List UInt8
  fits : bytes.length < 2 ^ 16

inductive Fault : Type
  | read | write
deriving DecidableEq

namespace Datagram

def len (d : Datagram) : Nat :=
  d.bytes.length

/-- `buf[i]` -/
def byte (d : Datagram) (i : Nat) : Except Fault UInt8 :=
  match d.bytes[i]? with
  | some b => .ok b
  | none => .error .read

/-- The bytes that a `memcpy` takes. -/
def slice (d : Datagram) (i n : Nat) : Except Fault (List UInt8) :=
  if i + n ≤ d.len then .ok ((d.bytes.drop i).take n) else .error .read

end Datagram

/-- `(uint16_t)` -/
def word (n : Nat) : Nat :=
  n % 2 ^ 16

/-- `(uint16_t)(n - m)` -/
def wordSub (n m : Nat) : Nat :=
  (n + 2 ^ 16 - m) % 2 ^ 16

/-- `get_u16` -/
def getU16 (d : Datagram) (off : Nat) : Except Fault (Option Nat) := do
  if d.len < off + 2 then return none
  let high ← d.byte off
  let low ← d.byte (off + 1)
  return some (high.toNat * 256 + low.toNat)

/-- `get_u32` -/
def getU32 (d : Datagram) (off : Nat) : Except Fault (Option Nat) := do
  if d.len < off + 4 then return none
  let a ← d.byte off
  let b ← d.byte (off + 1)
  let c ← d.byte (off + 2)
  let e ← d.byte (off + 3)
  return some (((a.toNat * 256 + b.toNat) * 256 + c.toNat) * 256 + e.toNat)

/-! ## Names -/

/-- `DNS_MAX_NAME` -/
def dnsMaxName : Nat := 96

/-- `out_sz` -/
def outSize : Nat := dnsMaxName + 1

/-- Bytes are put behind those of a name buffer. -/
def put (out bytes : Text) : Except Fault Text :=
  if out.length + bytes.length ≤ outSize then .ok (out ++ bytes) else .error .write

/-- The root is a dot. -/
def putRoot (out : Text) : Except Fault Text :=
  if out = [] then put out [46] else .ok out

/-- A dot stands before a label that is not the first. -/
def putDot (out : Text) : Except Fault Text :=
  if out ≠ [] ∧ out.length < outSize then put out [46] else .ok out

/-- The first byte of a compression pointer. -/
def isPointer (lab : UInt8) : Bool :=
  lab &&& 0xC0 = 0xC0

/-- Where a pointer leads to. -/
def pointer (lab low : UInt8) : Nat :=
  (lab &&& 0x3F).toNat * 256 + low.toNat

/-- The loop of `dns_read_name`, with the rounds that its guard leaves. `jumped` is `*bytes_consumed` from
the first jump on. -/
def readNameLoop (d : Datagram) (startOff : Nat) :
    Nat → Nat → Text → Option Nat → Except Fault (Option (Text × Nat))
  | 0, _, _, _ => return none
  | guard + 1, off, out, jumped => do
    if d.len ≤ off then return none
    let lab ← d.byte off
    if isPointer lab then
      if d.len ≤ off + 1 then return none
      let low ← d.byte (off + 1)
      if d.len ≤ pointer lab low then return none
      readNameLoop d startOff guard (pointer lab low) out (some (jumped.getD (wordSub (off + 2) startOff)))
    else if lab = 0 then
      let consumed := jumped.getD (wordSub (off + 1) startOff)
      let out ← putRoot out
      if outSize ≤ out.length then return none
      let _ ← put out [0]
      return some (out, consumed)
    else
      if d.len < word (off + 1 + lab.toNat) then return none
      let out ← putDot out
      if outSize ≤ word (out.length + lab.toNat) then return none
      let label ← d.slice (word (off + 1)) lab.toNat
      let out ← put out label
      readNameLoop d startOff guard (word (off + 1 + lab.toNat)) out jumped

/-- `dns_read_name`: the name and `*bytes_consumed`. -/
def dnsReadName (d : Datagram) (startOff : Nat) : Except Fault (Option (Text × Nat)) :=
  readNameLoop d startOff 512 startOff [] none

/-- The loop of `dns_skip_name`. -/
def skipNameLoop (d : Datagram) : Nat → Nat → Except Fault (Option Nat)
  | 0, _ => return none
  | guard + 1, pos => do
    if d.len ≤ pos then return none
    let lab ← d.byte pos
    if isPointer lab then
      if d.len ≤ word (pos + 1) then return none
      return some (word (pos + 2))
    else if lab = 0 then return some (word (pos + 1))
    else
      if d.len < word (pos + 1 + lab.toNat) then return none
      skipNameLoop d guard (word (pos + 1 + lab.toNat))

/-- `dns_skip_name` -/
def dnsSkipName (d : Datagram) (off : Nat) : Except Fault (Option Nat) :=
  skipNameLoop d 512 off

/-! ## Messages -/

/-- The questions behind the first one. -/
def skipQuestions (d : Datagram) : Nat → Nat → Except Fault (Option Nat)
  | 0, off => return some off
  | count + 1, off => do
    let some off ← dnsSkipName d off | return none
    if d.len < word (off + 4) then return none
    skipQuestions d count (word (off + 4))

/-- The questions: the name of the first one, and where the answers are. -/
def readQuestions (d : Datagram) : Nat → Nat → Except Fault (Option (Option Text × Nat))
  | 0, off => return some (none, off)
  | count + 1, off => do
    let some (qname, consumed) ← dnsReadName d off | return none
    let off := word (off + consumed)
    if d.len < word (off + 4) then return none
    let some off ← skipQuestions d count (word (off + 4)) | return none
    return some (some qname, off)

/-- The loop over the answers, with what it hands to `dns_response_hostname_identified`. -/
def readAnswers (d : Datagram) (qname : Option Text) : Nat → Nat → Except Fault (List (Text × Nat))
  | 0, _ => return []
  | count + 1, off => do
    let some (owner, consumed) ← dnsReadName d off | return []
    let nameEnd := word (off + consumed)
    if d.len < word (nameEnd + 10) then return []
    let some type ← getU16 d nameEnd | return []
    let some classIn ← getU16 d (word (nameEnd + 2)) | return []
    let some _ ← getU32 d (word (nameEnd + 4)) | return []
    let some rdlen ← getU16 d (word (nameEnd + 8)) | return []
    let rdataOff := word (nameEnd + 10)
    if d.len < word (rdataOff + rdlen) then return []
    if classIn = 1 ∧ type = 1 ∧ rdlen = 4 then
      let some ipv4 ← getU32 d rdataOff | return []
      let rest ← readAnswers d qname count (word (rdataOff + rdlen))
      return (qname.getD owner, ipv4) :: rest
    else
      readAnswers d qname count (word (rdataOff + rdlen))

/-- `dns_answers_process_udp` -/
def dnsAnswersProcessUdp (d : Datagram) : Except Fault (List (Text × Nat)) := do
  if d.len < 12 then return []
  let some flags ← getU16 d 2 | return []
  let some qdcount ← getU16 d 4 | return []
  let some ancount ← getU16 d 6 | return []
  if flags &&& 0x8000 = 0 then return []
  if flags &&& 0x000F ≠ 0 then return []
  let some (qname, off) ← readQuestions d qdcount 12 | return []
  readAnswers d qname ancount off

end FuseX.Nic.Dns
