import FuseX.Disk.Fdd

/-!
# The WD177x and WD179x controllers

READ SECTOR and WRITE SECTOR (the type II commands) of `wd_fdc.c`. A command first
looks for the ID field of its sector, over at most five turns of the disk; each
field it passes costs a wait, after which an event goes on with the search. Then a
read looks for the data mark behind the ID and a write counts the bytes of the gap
and writes marks of its own. From there on each access to the data register moves
one byte.

An event that is due is a flag here. The commands of the other types and their
states are left out, and so is the host's side of the lines INTRQ and DRQ.
-/

namespace FuseX.Disk

/-! ## State -/

/-- `wd_type_t`. -/
inductive WdType : Type
  | wd1773
  | fd1793
  | wd1770
  | wd1772
  | wd2797
  deriving DecidableEq

/-- The types with a head load line. -/
def WdType.headLoadLine : WdType → Bool
  | .wd1773 => true
  | .fd1793 => true
  | .wd2797 => true
  | .wd1770 => false
  | .wd1772 => false

/-- The bits of the status register. -/
structure WdStatus : Type where
  motoron : Bool
  wrprot : Bool
  /-- the record type, after a read -/
  spinup : Bool
  rnf : Bool
  crcerr : Bool
  lost : Bool
  idxDrq : Bool
  busy : Bool

/-- The status register when a type II command begins. -/
def WdStatus.typeII (status : WdStatus) : WdStatus :=
  { status with
    wrprot := false, rnf := false, idxDrq := false, lost := false, spinup := false }

/-- `wd_fdc_state`. -/
inductive WdState : Type
  | none
  | read
  | write
  deriving DecidableEq

/-- `wd_fdc_status_type`. -/
inductive WdStatusType : Type
  | type1
  | type2
  deriving DecidableEq

/-- `wd_fdc_am_type`. -/
inductive WdAm : Type
  | none
  | id
  | data
  deriving DecidableEq

/-- `wd_fdc`. -/
structure WdFdc : Type where
  type : WdType
  flagBeta128 : Bool
  flagDrq : Bool
  flagRdy : Bool
  /-- double density: MFM -/
  dden : Bool
  intrq : Bool
  datarq : Bool
  headLoad : Bool
  hlt : Bool
  hltTime : Nat
  extraSignal : Bool
  state : WdState
  readId : Bool
  statusType : WdStatusType
  idMark : WdAm
  idTrack : Nat
  idHead : Nat
  idSector : Nat
  idLength : Nat
  nonIbmLenCode : Bool
  sectorLength : Nat
  ddam : Bool
  rev : Int
  /-- the side the ID has to name, if there is a check (-1: none) -/
  dataCheckHead : Option Bool
  dataMultisector : Bool
  dataOffset : Nat
  commandRegister : UInt8
  statusRegister : WdStatus
  trackRegister : UInt8
  sectorRegister : UInt8
  dataRegister : UInt8
  crc : UInt16
  /-- `fdc_event` is due -/
  fdcEvent : Bool
  /-- `timeout_event` is due -/
  timeoutEvent : Bool
  /-- `motor_off_event` is due -/
  motorOffEvent : Bool

/-- A controller with its drive. -/
structure Wd : Type where
  f : WdFdc
  d : Fdd

namespace Wd

/-! ## Lines -/

/-- `wd_fdc_set_intrq`. -/
def setIntrq (s : Wd) : Wd :=
  { s with
    f.intrq := true
    f.motorOffEvent := s.f.motorOffEvent
      || if s.f.type.headLoadLine then s.f.headLoad else s.f.statusRegister.motoron }

/-- `wd_fdc_reset_intrq`. -/
def resetIntrq (s : Wd) : Wd :=
  { s with f.intrq := false }

/-- `wd_fdc_set_datarq`. -/
def setDatarq (s : Wd) : Wd :=
  if s.f.datarq then s else { s with f.statusRegister.idxDrq := true, f.datarq := true }

/-- `wd_fdc_reset_datarq`. -/
def resetDatarq (s : Wd) : Wd :=
  if s.f.datarq then { s with f.statusRegister.idxDrq := false, f.datarq := false } else s

/-- `disk_ready`. -/
def diskReady (s : Wd) : Bool :=
  if s.f.flagBeta128 then s.f.headLoad
  else if s.f.flagRdy then s.f.extraSignal
  else s.d.ready

/-- A command ends. -/
def finish (s : Wd) : Wd :=
  setIntrq { s with f.statusRegister.busy := false, f.state := .none }

/-! ## Bytes of the track -/

/-- `fdd_read_data`. -/
def read (s : Wd) : Wd :=
  { s with d := s.d.readData }

/-- `fdd_write_data`, with `d->data` set before. -/
def write (data : Nat) (s : Wd) : Wd :=
  { s with d := Fdd.writeData { s.d with data := data } }

/-- `crc_add`. -/
def crcAdd (s : Wd) : Wd :=
  { s with f.crc := crcFdc s.f.crc (UInt8.ofNat s.d.data) }

/-- `crc_preset`. -/
def crcPreset (s : Wd) : Wd :=
  { s with f.crc := 0xffff }

/-- `crc_preset_am`. -/
def crcPresetAm (s : Wd) : Wd :=
  { s with f.crc := 0xcdb4 }

/-- A read that counts the turns. -/
def readRev (s : Wd) : Wd :=
  let s := read s
  if s.d.index then { s with f.rev := s.f.rev - 1 } else s

/-- The rest of a run of a1 marks, `n` bytes at most, up to the byte behind it. -/
def skipMarks (step : Wd → Wd) : Nat → Wd → Wd
  | 0, s => s
  | n + 1, s =>
      let s := step s
      if s.d.data = 0xffa1 then skipMarks step n s else s

/-! ## ID fields -/

/-- One turn of the loop in `read_id`, up to the ID address mark if it finds one. -/
def readIdMark (s : Wd) : Bool × Wd :=
  if s.f.dden then
    let s := readRev s
    if s.d.data ≠ 0xffa1 then (false, s)
    else
      let s := crcAdd (crcPresetAm (skipMarks readRev 4 s))
      (s.d.data = 0x00fe, s)
  else
    let s := crcAdd (readRev (crcPreset s))
    (s.d.data = 0xfffe, s)

/-- A byte of an ID field. -/
def readIdByte (s : Wd) : Wd :=
  crcAdd (readRev s)

/-- `sector_length`, from the length code. -/
def lengthOf (nonIbmLenCode : Bool) (data : Nat) : Nat :=
  0x80 <<< (if nonIbmLenCode then (data + 1) % 4 else data % 4)

/-- The ID field behind its mark, with 0 or, for a CRC error, 2. -/
def readIdField (s : Wd) : Nat × Wd :=
  let s := readIdByte s
  let s := { s with f.idTrack := s.d.data }
  let s := readIdByte s
  let s := { s with f.idHead := s.d.data }
  let s := readIdByte s
  let s := { s with f.idSector := s.d.data }
  let s := readIdByte s
  let s := { s with
    f.idLength := s.d.data
    f.sectorLength := lengthOf s.f.nonIbmLenCode s.d.data }
  let s := readIdByte (readIdByte s)
  if s.f.crc ≠ 0 then (2, { s with f.statusRegister.crcerr := true, f.idMark := .id })
  else (0, { s with f.statusRegister.crcerr := false, f.idMark := .id })

/-- The loop of `read_id`: `i` is the turn it began in. -/
def readIdLoop (i : Int) : Nat → Wd → Option (Nat × Wd)
  | 0, _ => none
  | fuel + 1, s =>
      if s.f.rev ≠ i then some (1, s)
      else match readIdMark s with
        | (false, s) => readIdLoop i fuel s
        | (true, s) => some (readIdField s)

/-- `read_id`. -/
def readIdFn (fuel : Nat) (s : Wd) : Option (Nat × Wd) :=
  let s := { s with f.idMark := .none }
  if s.f.rev ≤ 0 then some (1, s) else readIdLoop s.f.rev fuel s

/-! ## Data marks -/

/-- The scan of `read_datamark` for an a1 mark, over `i` bytes at most. -/
def findMark : Nat → Wd → Bool × Wd
  | 0, s => (false, s)
  | i + 1, s =>
      let s := read s
      if s.d.data = 0xffa1 then (true, s) else findMark i s

/-- The FM gap: the bytes left to search at its end, or none if something is wrong. -/
def skipGap : Nat → Wd → Option Nat × Wd
  | 0, s => (some 0, s)
  | i + 1, s =>
      let s := read s
      if s.d.data = 0xff then skipGap i s
      else if s.d.data = 0x00 then (some (i + 1), s)
      else (none, s)

/-- An FM data mark. -/
def isDataMark (data : Nat) : Bool :=
  0xfff8 ≤ data && data ≤ 0xfffb

/-- The FM sync, up to the data mark behind it. -/
def skipSync : Nat → Wd → Bool × Wd
  | 0, s =>
      let s := crcAdd (read s)
      (isDataMark s.d.data, s)
  | i + 1, s =>
      let s := crcAdd (read (crcPreset s))
      if s.d.data = 0x00 then skipSync i s else (isDataMark s.d.data, s)

/-- The end of `read_datamark`. -/
def foundDataMark (s : Wd) : Wd :=
  { s with f.ddam := s.d.data ≠ 0x00fb, f.idMark := .data }

/-- `read_datamark`. -/
def readDatamark (s : Wd) : Wd :=
  let s := { s with f.idMark := .none }
  if s.f.dden then
    match findMark 43 s with
    | (false, s) => s
    | (true, s) =>
        let s := crcAdd (crcPresetAm (skipMarks read 4 s))
        if s.d.data < 0x00f8 ∨ 0x00fb < s.d.data then s else foundDataMark s
  else
    match skipGap 30 s with
    | (none, s) => s
    | (some i, s) =>
        match skipSync i s with
        | (false, s) => s
        | (true, s) => foundDataMark s

/-! ## Commands -/

/-- The ID found is not the one of the command. -/
def mismatch (f : WdFdc) : Bool :=
  (match f.dataCheckHead with
    | none => false
    | some head => head != decide (f.idHead ≠ 0))
  || f.idTrack ≠ f.trackRegister.toNat || f.idSector ≠ f.sectorRegister.toNat

/-- The wait a search costs, from the position it began at. -/
def delay (d : Fdd) (start : Nat) : Int :=
  if d.cBpt ≠ 0 then Int.tdiv (((d.i : Int) - start) * 200) d.cBpt else 200

/-- The loop of `wd_fdc_type_ii_seek`, with whether the search waits for an event. -/
def search (fuel : Nat) : Nat → Wd → Option (Bool × Wd)
  | 0, _ => none
  | n + 1, s =>
      if s.f.rev = 0 then some (false, s)
      else
        let start := s.d.next
        match readIdFn fuel s with
        | none => none
        | some (result, s) =>
            let s := if result ≠ 0 ∨ mismatch s.f then { s with f.idMark := .none } else s
            if 0 < delay s.d start then some (true, { s with f.fdcEvent := true })
            else if s.f.idMark ≠ .none then some (false, s)
            else search fuel n s

/-- A record that is not found. -/
def notFound (s : Wd) : Wd :=
  finish { s with f.statusRegister.rnf := true }

/-- `n` calls of a function. -/
def times (step : Wd → Wd) (n : Nat) (s : Wd) : Wd :=
  step^[n] s

/-- The end of `wd_fdc_type_ii_seek`: `timeout_event` is due in five turns. -/
def setTimeout (s : Wd) : Wd :=
  { s with f.timeoutEvent := true }

/-- `wd_fdc_type_ii_seek` for a read, when the ID is found. -/
def beginRead (s : Wd) : Wd :=
  let s := if s.f.idMark = .id then readDatamark s else s
  if s.f.idMark = .none then notFound s
  else
    let s := if s.f.ddam then { s with f.statusRegister.spinup := true } else s
    setTimeout (setDatarq { s with f.dataOffset := 0 })

/-- The gap behind the ID field of a sector to be written. -/
def skipGap2 (s : Wd) : Wd :=
  let s := setDatarq (times read 11 s)
  let s := { s with f.dataOffset := 0 }
  if s.f.dden then times read 11 s else s

/-- The sync bytes and the marks in front of a data mark. -/
def writeSync (s : Wd) : Wd :=
  let s := crcPreset (times (write 0x00) (if s.f.dden then 12 else 6) s)
  if s.f.dden then times (crcAdd ∘ write 0xffa1) 3 s else s

/-- The data mark to be written. -/
def markOf (f : WdFdc) : Nat :=
  (if f.ddam then 0x00f8 else 0x00fb) + if f.dden then 0x0000 else 0xff00

/-- `wd_fdc_type_ii_seek` for a write, when the ID is found. -/
def beginWrite (s : Wd) : Wd :=
  let s := writeSync (skipGap2 { s with f.ddam := s.f.commandRegister &&& 0x01 ≠ 0 })
  setTimeout (crcAdd (write (markOf s.f) s))

/-- `wd_fdc_type_ii_seek`. -/
def typeIISeek (fuel : Nat) (s : Wd) : Option Wd :=
  let s := { s with f.fdcEvent := false }
  let searched :=
    if s.f.idMark = .none then search fuel fuel { s with f.readId := true } else some (false, s)
  match searched with
  | none => none
  | some (true, s) => some s
  | some (false, s) =>
      let s := { s with f.readId := false }
      if s.f.idMark = .none then some (notFound s)
      else if s.f.state = .read then some (beginRead s)
      else some (beginWrite s)

/-- `wd_fdc_type_ii`. -/
def typeII (fuel : Nat) (s : Wd) : Option Wd :=
  let s := { s with f.fdcEvent := false }
  if s.f.type.headLoadLine && !diskReady s then some (finish s)
  else if s.f.type.headLoadLine && !s.f.hlt then some { s with f.fdcEvent := true }
  else if s.f.state = .write ∧ s.d.wrprot then
    some (finish { s with f.statusRegister.wrprot := true })
  else
    let s := if s.f.state = .write then { s with f.statusRegister.wrprot := false } else s
    typeIISeek fuel { s with
      f.dataMultisector := s.f.commandRegister &&& 0x10 ≠ 0, f.rev := 5, f.idMark := .none }

/-- `wd_fdc_spinup` in a type II command, with whether there is a delay. -/
def spinup (b : UInt8) (s : Wd) : Bool × Wd :=
  let settle := b &&& 0x04 ≠ 0
  if s.f.type.headLoadLine then
    let delay := settle || 0 < s.f.hltTime
    let s := { s with f.motorOffEvent := false, f.headLoad := true }
    let s := if s.f.flagBeta128 then { s with d := s.d.motorOn } else { s with d := s.d.headLoad }
    (delay, if delay then { s with f.fdcEvent := true } else s)
  else
    let start := !s.f.statusRegister.motoron
    let delay := settle || (start && b &&& 0x08 = 0)
    let s := if start then { s with f.statusRegister.motoron := true, d := s.d.motorOn } else s
    (delay, if delay then { s with f.fdcEvent := true } else s)

/-- `data_check_head`, from the command. -/
def checkHead (type : WdType) (b : UInt8) : Option Bool :=
  if type = .wd1773 ∧ b &&& 0x02 ≠ 0 then some (b &&& 0x08 ≠ 0)
  else if type = .wd2797 then some (b &&& 0x02 ≠ 0)
  else none

/-- `non_ibm_len_code`, from the command. -/
def lenCode (type : WdType) (b : UInt8) : Bool :=
  type = .wd2797 && b &&& 0x08 = 0

/-- `wd_fdc_cr_write` takes a command. -/
def take (b : UInt8) (s : Wd) : Wd :=
  { s with f.commandRegister := b, f.statusRegister.busy := true, f.motorOffEvent := false }

/-- `wd_fdc_cr_write` for a type II command, up to the spin-up. -/
def accept (b : UInt8) (s : Wd) : Wd :=
  { f := { s.f with
      dataCheckHead := checkHead s.f.type b
      nonIbmLenCode := lenCode s.f.type b
      state := if b &&& 0x20 ≠ 0 then .write else .read
      statusType := .type2
      statusRegister := WdStatus.typeII s.f.statusRegister
      rev := 5 }
    d := if s.f.type = .wd2797 then s.d.setHead (if b &&& 0x02 ≠ 0 then 1 else 0) else s.d }

/-- `wd_fdc_cr_write`, for a type II command. -/
def crWrite (fuel : Nat) (b : UInt8) (s : Wd) : Option Wd :=
  let s := resetIntrq s
  if s.f.statusRegister.busy then some s
  else
    let s := take b s
    if (s.f.type = .wd1773 ∨ s.f.type = .fd1793) ∧ diskReady s = false then some (finish s)
    else match spinup b (accept b s) with
      | (true, s) => some s
      | (false, s) => typeII fuel s

/-! ## Transfer -/

/-- The sector is through: the next one, or the end of the command. -/
def endSector (again : Bool) (s : Wd) : Wd :=
  if again then
    let s := resetDatarq { s with f.sectorRegister := s.f.sectorRegister + 1, f.rev := 5 }
    { s with f.timeoutEvent := true, f.fdcEvent := true }
  else
    resetDatarq (finish { s with f.statusType := .type2 })

/-- The next pulse of DRQ, where the interface needs one for each byte. -/
def pulse (s : Wd) : Wd :=
  if s.f.flagDrq && s.f.statusRegister.busy then { s with f.fdcEvent := true } else s

/-- `wd_fdc_dr_read`, while a sector is read. -/
def readSectorByte (s : Wd) : Wd :=
  let s := crcAdd (read { s with f.dataOffset := s.f.dataOffset + 1 })
  if 0xff < s.d.data then
    resetDatarq (notFound { s with f.statusType := .type2 })
  else
    let s := { s with f.dataRegister := UInt8.ofNat s.d.data }
    if s.f.dataOffset = s.f.sectorLength then
      let s := crcAdd (read (crcAdd (read s)))
      let s := { s with f.timeoutEvent := false }
      if s.f.crc = 0 ∧ s.f.dataMultisector then endSector true s
      else endSector false { s with f.statusRegister.crcerr := s.f.crc ≠ 0 }
    else s

/-- `wd_fdc_dr_read`, with the byte the processor gets. -/
def drRead (s : Wd) : UInt8 × Wd :=
  let s := if s.f.flagDrq && s.f.statusRegister.busy then { s with f.fdcEvent := false } else s
  let s := if s.f.state = .read then readSectorByte s else s
  let s := pulse s
  (s.f.dataRegister, s)

/-- `wd_fdc_dr_write`, while a sector is written. -/
def writeSectorByte (b : UInt8) (s : Wd) : Wd :=
  let s := { s with f.dataOffset := s.f.dataOffset + 1 }
  let s := crcAdd (write b.toNat s)
  if s.f.dataOffset = s.f.sectorLength then
    let crc := s.f.crc
    let s := write 0xff (write (crc &&& 0xff).toNat (write (crc >>> 8).toNat s))
    endSector s.f.dataMultisector { s with f.timeoutEvent := false }
  else s

/-- `wd_fdc_dr_write`. -/
def drWrite (b : UInt8) (s : Wd) : Wd :=
  let s := { s with f.dataRegister := b }
  pulse (if s.f.state = .write then writeSectorByte b s else s)

/-! ## Events -/

/-- `wd_fdc_event` for `timeout_event`. -/
def timeout (s : Wd) : Wd :=
  let s := { s with f.timeoutEvent := false }
  if s.f.state = .read ∨ s.f.state = .write then
    setIntrq (resetDatarq { s with
      f.state := .none, f.statusRegister.lost := true, f.statusRegister.busy := false })
  else s

/-- The head has settled. -/
def engage (s : Wd) : Wd :=
  if s.f.type.headLoadLine ∧ 0 < s.f.hltTime ∧ s.f.headLoad ∧ s.f.hlt = false then
    { s with f.hlt := true }
  else s

/-- The motor has its speed. -/
def spunUp (s : Wd) : Wd :=
  if s.f.type.headLoadLine = false ∧ s.f.statusRegister.motoron ∧ s.f.statusType = .type1 then
    { s with f.statusRegister.spinup := true }
  else s

/-- What `wd_fdc_event` goes on with. -/
def dispatch (fuel : Nat) (s : Wd) : Option Wd :=
  if s.f.state = .none then some s
  else if s.f.datarq then some (setDatarq { s with f.datarq := false })
  else if s.f.readId then typeIISeek fuel s
  else typeII fuel s

/-- `wd_fdc_event` for `fdc_event`. -/
def event (fuel : Nat) (s : Wd) : Option Wd :=
  dispatch fuel (spunUp (engage { s with f.fdcEvent := false }))

/-- The events that are due, until the controller waits for the processor. -/
def serve (fuel : Nat) : Nat → Wd → Option Wd
  | 0, _ => none
  | n + 1, s =>
      if s.f.fdcEvent then (event fuel s).bind (serve fuel n)
      else if s.f.timeoutEvent && !s.f.datarq then serve fuel n (timeout s)
      else some s

/-- The processor supplies bytes. -/
def supply (fuel : Nat) : List UInt8 → Wd → Option Wd
  | [], s => serve fuel fuel s
  | b :: block, s => (serve fuel fuel s).bind fun s => supply fuel block (drWrite b s)

/-- The processor fetches `n` bytes. -/
def fetch (fuel : Nat) : Nat → Wd → Option (List UInt8 × Wd)
  | 0, s => (serve fuel fuel s).map fun s => ([], s)
  | n + 1, s =>
      (serve fuel fuel s).bind fun s =>
        let (b, s) := drRead s
        (fetch fuel n s).map fun (bytes, s) => (b :: bytes, s)

/-- A WRITE SECTOR command and the block for it. -/
def writeSector (fuel : Nat) (b : UInt8) (block : List UInt8) (s : Wd) : Option Wd :=
  (crWrite fuel b s).bind (supply fuel block)

/-- A READ SECTOR command and the `n` bytes that are fetched. -/
def readSector (fuel : Nat) (b : UInt8) (n : Nat) (s : Wd) : Option (List UInt8 × Wd) :=
  (crWrite fuel b s).bind (fetch fuel n)

end Wd

end FuseX.Disk
