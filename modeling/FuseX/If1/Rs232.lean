import FuseX.Lib.Serial
import FuseX.Lib.Stuffing

/-!
# The serial line of the Interface 1

The ports of `if1.c`, as far as RS-232 goes. What a program sends bit by bit is written to a pipe byte by
byte; what is read from a pipe is given to the program bit by bit. In a pipe zero starts a control sequence.

Microdrives and the network share these ports. Their variables and their bits of the port values have
nothing to do with the line and are left out.
-/

namespace FuseX.If1.Rs232

/-! ## The ports -/

/-- The variables of `if1_ula_t` for the line. Of `fd_r` it is what can be read, of `fd_t` what has been
written; there is none where no pipe is plugged. -/
structure If1Ula : Type where
  fdR : Option (List UInt8)
  fdT : Option (List UInt8)
  rs232Buffer : Nat
  commsData : Nat
  cts : Nat
  dtr : Nat
  tx : Nat
  rx : Nat
  dataIn : Nat
  countIn : Nat
  dataOut : Nat
  countOut : Int
  escIn : Nat
deriving DecidableEq

/-- `if1_init`, and `if1_plug` for both pipes. -/
def plugged (rs232Handshake : Bool) : If1Ula where
  fdR := some []
  fdT := some []
  rs232Buffer := 0x100
  commsData := 0
  cts := 2
  dtr := if rs232Handshake then 0 else 1
  tx := 0
  rx := 0
  dataIn := 0
  countIn := 0
  dataOut := 0
  countOut := 0
  escIn := 0

namespace If1Ula

/-- A byte is written to `fd_t`. -/
def write (s : If1Ula) (byte : UInt8) : If1Ula :=
  { s with fdT := s.fdT.map (· ++ [byte]) }

/-- The part of `port_ctr_out` that starts the line when RS-232 is selected. -/
def startLine (s : If1Ula) (val : UInt8) : If1Ula :=
  if val &&& 0x01 ≠ 0 ∧ s.commsData = 0 then { s with countOut := 0, dataOut := 0, countIn := 0, dataIn := 0 }
  else s

/-- The part that tells a change of CTS. -/
def tellCts (rs232Handshake : Bool) (s : If1Ula) (cts : Nat) : If1Ula :=
  if rs232Handshake ∧ s.fdT.isSome ∧ s.cts ≠ cts then (s.write 0x00).write (if cts ≠ 0 then 0x03 else 0x02) else s

def setCommsData (s : If1Ula) (commsData : Nat) : If1Ula := { s with commsData }

def setCts (s : If1Ula) (cts : Nat) : If1Ula := { s with cts }

/-- `port_ctr_out` -/
def portCtrOut (rs232Handshake : Bool) (s : If1Ula) (val : UInt8) : If1Ula :=
  let selected := (s.startLine val).setCommsData (if val &&& 0x01 ≠ 0 then 1 else 0)
  let cts := if val &&& 0x10 ≠ 0 then 1 else 0
  (selected.tellCts rs232Handshake cts).setCts cts

/-- The part of `port_net_out` that follows the frame of a byte; -1 is a broken one. -/
def followFrame (s : If1Ula) (val : UInt8) : If1Ula :=
  if s.countOut = 0 ∧ val = 0 then { s with countOut := s.countOut + 1 }
  else if s.countOut = 1 then
    if s.cts ≠ 0 ∨ val = 0 then { s with countOut := -1 } else { s with countOut := s.countOut + 1 }
  else if 2 ≤ s.countOut ∧ s.countOut ≤ 9 then
    { s with dataOut := s.dataOut >>> 1 ||| (if val ≠ 0 then 0 else 128), countOut := s.countOut + 1 }
  else if 10 ≤ s.countOut ∧ s.countOut ≤ 11 then
    if val ≠ 0 then { s with countOut := -1 } else { s with countOut := s.countOut + 1 }
  else if s.countOut = 12 then
    if val = 0 then { s with countOut := -1 } else { s with countOut := s.countOut + 1 }
  else if s.countOut = 13 then
    if val ≠ 0 then { s with countOut := -1 } else s
  else s

/-- The part that marks a byte as lost; the mark is a `?`. -/
def markLost (s : If1Ula) : If1Ula :=
  if s.countOut = -1 then { s with countOut := 13, dataOut := 0x3f }.write 0x00 else s

/-- The part that writes a byte; zero is written as a `*`. -/
def writeOut (s : If1Ula) : If1Ula :=
  if s.countOut = 13 then
    let marked := if s.dataOut = 0x00 then { s with dataOut := 0x2a }.write 0x00 else s
    { marked.write (UInt8.ofNat marked.dataOut) with countOut := 0 }
  else s

/-- `port_net_out` -/
def portNetOut (s : If1Ula) (val : UInt8) : If1Ula :=
  if s.fdT = none then s
  else if s.commsData = 1 then
    let bit := val &&& 0x01
    { (s.followFrame bit).markLost.writeOut with rx := bit.toNat }
  else s

/-- The loop of `port_ctr_in`, over what can be read. -/
def pollLoop (rs232Handshake : Bool) : List UInt8 → If1Ula → If1Ula
  | [], s => { s with fdR := some [] }
  | byte :: rest, s =>
    if s.escIn = 1 then
      let plain := { s with escIn := 0 }
      if byte = 0x2a then { plain with rs232Buffer := 0x00, fdR := some rest }
      else if byte = 0x00 then pollLoop rs232Handshake rest (if rs232Handshake then { plain with dtr := 0 } else plain)
      else if byte = 0x01 then pollLoop rs232Handshake rest (if rs232Handshake then { plain with dtr := 1 } else plain)
      else pollLoop rs232Handshake rest plain
    else if byte = 0x00 then pollLoop rs232Handshake rest { s with escIn := 1 }
    else { s with rs232Buffer := byte.toNat, fdR := some rest }

/-- `port_ctr_in` -/
def portCtrIn (rs232Handshake : Bool) (s : If1Ula) : UInt8 × If1Ula :=
  let polled :=
    match s.fdR with
    | some bytes => if s.rs232Buffer > 0xff then pollLoop rs232Handshake bytes s else s
    | none => s
  (if polled.dtr = 0 then 0xff &&& 0xf7 else 0xff, polled)

/-- A byte is read into an integer, whose low byte comes first. -/
def readByte (old : Nat) (byte : UInt8) : Nat :=
  old / 0x100 * 0x100 + byte.toNat

/-- The loop of `read_rs232`, over what can be read. -/
def readLoop (rs232Handshake : Bool) : List UInt8 → If1Ula → Bool × If1Ula
  | [], s => (false, { s with fdR := some [] })
  | byte :: rest, s =>
    let read := { s with dataIn := readByte s.dataIn byte }
    if read.escIn = 1 then
      let plain := { read with escIn := 0 }
      if plain.dataIn = 0x2a then (true, { plain with dataIn := 0x00, fdR := some rest })
      else if plain.dataIn = 0x00 then
        readLoop rs232Handshake rest (if rs232Handshake then { plain with dtr := 0 } else plain)
      else if plain.dataIn = 0x01 then
        readLoop rs232Handshake rest (if rs232Handshake then { plain with dtr := 1 } else plain)
      else readLoop rs232Handshake rest plain
    else if read.dataIn = 0x00 then readLoop rs232Handshake rest { read with escIn := 1 }
    else (true, { read with fdR := some rest })

/-- `read_rs232` -/
def readRs232 (rs232Handshake : Bool) (s : If1Ula) : Bool × If1Ula :=
  if s.rs232Buffer ≤ 0xff then (true, { s with dataIn := s.rs232Buffer, rs232Buffer := 0x0100 })
  else
    match s.fdR with
    | some bytes => readLoop rs232Handshake bytes s
    | none => (false, s)

/-- The serial part of `port_net_in`. -/
def serialIn (rs232Handshake : Bool) (s : If1Ula) : If1Ula :=
  if s.cts ≠ 0 then
    if s.countIn = 0 then
      let (found, read) := s.readRs232 rs232Handshake
      { read with countIn := if found then read.countIn + 1 else read.countIn, tx := 0 }
    else if 1 ≤ s.countIn ∧ s.countIn < 5 then { s with tx := 1, countIn := s.countIn + 1 }
    else if 5 ≤ s.countIn ∧ s.countIn < 13 then
      { s with
        tx := if s.dataIn &&& 0x01 ≠ 0 then 0 else 1
        dataIn := s.dataIn >>> 1
        countIn := s.countIn + 1 }
    else { s with countIn := 0 }
  else { s with countIn := 0, tx := 0 }

/-- `port_net_in` -/
def portNetIn (rs232Handshake : Bool) (s : If1Ula) : UInt8 × If1Ula :=
  let read := if s.fdR = none then s else s.serialIn rs232Handshake
  (if read.tx = 0 then 0xff &&& 0x7f else 0xff, read)

end If1Ula

/-! ## Runs -/

/-- What happens to an instance: port accesses, and bytes that come in through its pipe. -/
inductive Op : Type
  | ctrOut (val : UInt8)
  | netOut (val : UInt8)
  | ctrIn
  | netIn
  | arrive (bytes : List UInt8)
deriving DecidableEq

variable (rs232Handshake : Bool)

def step (s : If1Ula) : Op → If1Ula
  | .ctrOut val => s.portCtrOut rs232Handshake val
  | .netOut val => s.portNetOut val
  | .ctrIn => (s.portCtrIn rs232Handshake).2
  | .netIn => (s.portNetIn rs232Handshake).2
  | .arrive bytes => { s with fdR := s.fdR.map (· ++ bytes) }

def run (s : If1Ula) (ops : List Op) : If1Ula :=
  ops.foldl (step rs232Handshake) s

/-- What a program reads from the NET port. -/
def netReads : If1Ula → List Op → List UInt8
  | _, [] => []
  | s, .netIn :: ops => (s.portNetIn rs232Handshake).1 :: netReads (step rs232Handshake s .netIn) ops
  | s, op :: ops => netReads (step rs232Handshake s op) ops

end FuseX.If1.Rs232
