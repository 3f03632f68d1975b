import FuseX.Disk.Cells

/-!
# Floppy disk drives

The drive of a controller: the lines between them, the head, the track under the
head and the position of the track. A read takes the next byte of the track and a
write replaces it; both turn the disk by one byte, and behind the last byte the
index hole passes.

The cylinder does not change here, so of the disk the drive has the two tracks its
heads can read. `rand()` is a sequence of numbers that the reads use up.
-/

namespace FuseX.Disk

/-! ## Checksums -/

/-- `crc_fdc_table`. -/
def crcFdcTable : List UInt16 :=
  [ 0x0000, 0x1021, 0x2042, 0x3063, 0x4084, 0x50a5, 0x60c6, 0x70e7,
    0x8108, 0x9129, 0xa14a, 0xb16b, 0xc18c, 0xd1ad, 0xe1ce, 0xf1ef,
    0x1231, 0x0210, 0x3273, 0x2252, 0x52b5, 0x4294, 0x72f7, 0x62d6,
    0x9339, 0x8318, 0xb37b, 0xa35a, 0xd3bd, 0xc39c, 0xf3ff, 0xe3de,
    0x2462, 0x3443, 0x0420, 0x1401, 0x64e6, 0x74c7, 0x44a4, 0x5485,
    0xa56a, 0xb54b, 0x8528, 0x9509, 0xe5ee, 0xf5cf, 0xc5ac, 0xd58d,
    0x3653, 0x2672, 0x1611, 0x0630, 0x76d7, 0x66f6, 0x5695, 0x46b4,
    0xb75b, 0xa77a, 0x9719, 0x8738, 0xf7df, 0xe7fe, 0xd79d, 0xc7bc,
    0x48c4, 0x58e5, 0x6886, 0x78a7, 0x0840, 0x1861, 0x2802, 0x3823,
    0xc9cc, 0xd9ed, 0xe98e, 0xf9af, 0x8948, 0x9969, 0xa90a, 0xb92b,
    0x5af5, 0x4ad4, 0x7ab7, 0x6a96, 0x1a71, 0x0a50, 0x3a33, 0x2a12,
    0xdbfd, 0xcbdc, 0xfbbf, 0xeb9e, 0x9b79, 0x8b58, 0xbb3b, 0xab1a,
    0x6ca6, 0x7c87, 0x4ce4, 0x5cc5, 0x2c22, 0x3c03, 0x0c60, 0x1c41,
    0xedae, 0xfd8f, 0xcdec, 0xddcd, 0xad2a, 0xbd0b, 0x8d68, 0x9d49,
    0x7e97, 0x6eb6, 0x5ed5, 0x4ef4, 0x3e13, 0x2e32, 0x1e51, 0x0e70,
    0xff9f, 0xefbe, 0xdfdd, 0xcffc, 0xbf1b, 0xaf3a, 0x9f59, 0x8f78,
    0x9188, 0x81a9, 0xb1ca, 0xa1eb, 0xd10c, 0xc12d, 0xf14e, 0xe16f,
    0x1080, 0x00a1, 0x30c2, 0x20e3, 0x5004, 0x4025, 0x7046, 0x6067,
    0x83b9, 0x9398, 0xa3fb, 0xb3da, 0xc33d, 0xd31c, 0xe37f, 0xf35e,
    0x02b1, 0x1290, 0x22f3, 0x32d2, 0x4235, 0x5214, 0x6277, 0x7256,
    0xb5ea, 0xa5cb, 0x95a8, 0x8589, 0xf56e, 0xe54f, 0xd52c, 0xc50d,
    0x34e2, 0x24c3, 0x14a0, 0x0481, 0x7466, 0x6447, 0x5424, 0x4405,
    0xa7db, 0xb7fa, 0x8799, 0x97b8, 0xe75f, 0xf77e, 0xc71d, 0xd73c,
    0x26d3, 0x36f2, 0x0691, 0x16b0, 0x6657, 0x7676, 0x4615, 0x5634,
    0xd94c, 0xc96d, 0xf90e, 0xe92f, 0x99c8, 0x89e9, 0xb98a, 0xa9ab,
    0x5844, 0x4865, 0x7806, 0x6827, 0x18c0, 0x08e1, 0x3882, 0x28a3,
    0xcb7d, 0xdb5c, 0xeb3f, 0xfb1e, 0x8bf9, 0x9bd8, 0xabbb, 0xbb9a,
    0x4a75, 0x5a54, 0x6a37, 0x7a16, 0x0af1, 0x1ad0, 0x2ab3, 0x3a92,
    0xfd2e, 0xed0f, 0xdd6c, 0xcd4d, 0xbdaa, 0xad8b, 0x9de8, 0x8dc9,
    0x7c26, 0x6c07, 0x5c64, 0x4c45, 0x3ca2, 0x2c83, 0x1ce0, 0x0cc1,
    0xef1f, 0xff3e, 0xcf5d, 0xdf7c, 0xaf9b, 0xbfba, 0x8fd9, 0x9ff8,
    0x6e17, 0x7e36, 0x4e55, 0x5e74, 0x2e93, 0x3eb2, 0x0ed1, 0x1ef0 ]

/-- `crc_fdc`: CRC-16-CCITT. -/
def crcFdc (crc : UInt16) (data : UInt8) : UInt16 :=
  (crc <<< 8) ^^^ crcFdcTable.getD (((crc >>> 8) ^^^ data.toUInt16) &&& 0xff).toNat 0

theorem high_xor_self (crc : UInt16) : (crc >>> 8) ^^^ (crc >>> 8).toUInt8.toUInt16 = 0 := by
  have bound := crc.toNat_lt
  rw [UInt16.xor_eq_zero_iff]
  apply UInt16.toNat_inj.mp
  simp [Nat.shiftRight_eq_div_pow]
  omega

theorem low_xor_self (crc : UInt16) :
    ((crc <<< 8) >>> 8) ^^^ (crc &&& 0xff).toUInt8.toUInt16 = 0 := by
  have bound := crc.toNat_lt
  have low_byte : crc.toNat % 256 &&& 255 = crc.toNat % 256 % 256 :=
    Nat.and_two_pow_sub_one_eq_mod (crc.toNat % 256) 8
  rw [UInt16.xor_eq_zero_iff]
  apply UInt16.toNat_inj.mp
  simp [Nat.shiftRight_eq_div_pow, Nat.shiftLeft_eq, low_byte]
  omega

theorem shiftLeft_twice (crc : UInt16) : (crc <<< 8) <<< 8 = 0 := by
  apply UInt16.toBitVec_inj.mp
  apply BitVec.eq_of_getLsbD_eq
  intro i i_lt
  simp

/-- The checksum behind the data it is of leaves nothing. -/
theorem crcFdc_own (crc : UInt16) :
    crcFdc (crcFdc crc (crc >>> 8).toUInt8) (crc &&& 0xff).toUInt8 = 0 := by
  have high : crcFdc crc (crc >>> 8).toUInt8 = crc <<< 8 := by
    rw [crcFdc, high_xor_self]
    exact UInt16.xor_zero
  rw [high, crcFdc, low_xor_self, shiftLeft_twice]
  rfl

/-! ## Drives -/

/-- The fields of `fdd_t` that a transfer leaves alone. -/
structure FddLines : Type where
  fddHeads : Nat
  selected : Bool
  ready : Bool
  loaded : Bool
  motoron : Bool
  loadhead : Bool
  wrprot : Bool
  /-- `disk.wrprot` -/
  diskWrprot : Bool
  cHead : Nat
  /-- there is no track under the head (`disk.track` is null) -/
  off : Bool
  /-- the track under the other head -/
  other : Option TrackSlot

/-- There is a track to read or to write. -/
def FddLines.online (d : FddLines) : Bool :=
  d.selected && d.ready && d.loadhead && !d.off

/-- `fdd_t`. -/
structure Fdd : Type extends FddLines where
  index : Bool
  /-- a byte, a byte with missing clock bits (`0xffnn`), or no data (`0x100`) -/
  data : Nat
  /-- 1 for FM, 2 for a weak byte -/
  marks : Nat
  /-- `disk.i` -/
  i : Nat
  /-- the track selected last -/
  track : TrackSlot
  rand : Nat → Nat

namespace Fdd

variable (d : Fdd)

/-- `disk.c_bpt`. -/
def cBpt : Nat :=
  d.track.cBpt

/-- The position of the next byte. -/
def next : Nat :=
  if d.cBpt ≤ d.i then 0 else d.i

/-- The disk turns by one byte. -/
def turn : Fdd :=
  { d with i := d.next + 1, index := d.cBpt ≤ d.next + 1 }

/-- The byte a read finds at a position: a weak byte is messed up. -/
def messUp (c : Cell) (rand rand' : Nat) : Nat :=
  if c.weak then c.byte.toNat &&& rand % 0xff ||| rand' % 0xff
  else c.byte.toNat + if c.clock then 0xff00 else 0

/-- `fdd_read_data`. -/
def readData : Fdd :=
  if !d.online then
    if d.loaded && d.motoron then { d.turn with data := 0x100 } else d
  else
    let c := d.track.cell d.next
    { d.turn with
      data := messUp c (d.rand 0) (d.rand 1)
      marks := (if c.fm then 1 else 0) + if c.weak then 2 else 0
      rand := if c.weak then fun n => d.rand (n + 2) else d.rand }

/-- `fdd_write_data`. -/
def writeData : Fdd :=
  if !d.online then
    if d.loaded && d.motoron then d.turn else d
  else if d.diskWrprot then d.turn
  else
    { d.turn with
      track := d.track.put d.next (UInt8.ofNat d.data) (d.data / 256 % 256 ≠ 0) (d.marks % 2 ≠ 0) }

/-- `fdd_set_data`, where `fact` is 0. -/
def setData : Fdd :=
  if !d.loaded then d
  else match d.other with
    | none => { d with off := true, other := if d.off then none else some d.track }
    | some track =>
        { d with
          track := track, off := false, index := d.i = 0
          other := if d.off then none else some d.track }

/-- `fdd_set_head`. -/
def setHead (head : Nat) : Fdd :=
  if d.fddHeads = 1 then d
  else if d.cHead = head then d
  else setData { d with cHead := head }

/-- `fdd_motoron( d, 1 )`. -/
def motorOn : Fdd :=
  if !d.loaded then d else { d with motoron := true }

/-- `fdd_head_load( d, 1 )`: the head meets the disk anywhere. -/
def headLoad : Fdd :=
  if !d.loaded || d.loadhead then d
  else if d.off then { d with loadhead := true }
  else
    let skip : Int := d.cBpt / 16
      + Int.tdiv (Int.tdiv (d.cBpt * ((d.rand 0 % 10 : Nat) + (d.rand 1 % 10 : Nat) - 9)) 16) 100
    let i := ((d.i : Int) + skip).toNat % d.cBpt
    { d with loadhead := true, i := i, index := i = 0, rand := fun n => d.rand (n + 2) }

/-! ## What a transfer does -/

/-- What a read can find in a cell. -/
def Reads (c : Cell) (data : Nat) : Prop :=
  ∃ rand rand', data = messUp c rand rand'

/-- The cell is not weak and has this byte, or this byte with missing clock bits. -/
def Firm (c : Cell) (data : Nat) : Prop :=
  c.weak = false ∧ data = c.byte.toNat + if c.clock then 0xff00 else 0

variable {d}

theorem Firm.eq_of_reads {c : Cell} {data found : Nat} (firm : Firm c data)
    (reads : Reads c found) : found = data := by
  rcases firm with ⟨not_weak, rfl⟩
  rcases reads with ⟨rand, rand', rfl⟩
  rw [messUp, not_weak]
  rfl

/-- The next byte is at `x`, counted over any number of turns. -/
def At (d : Fdd) (x : Nat) : Prop :=
  d.next = x % d.cBpt

/-- A read from a position of a track. -/
structure ReadFrom (d : Fdd) (x : Nat) (d' : Fdd) : Prop where
  lines : d'.toFddLines = d.toFddLines
  track : d'.track = d.track
  at_next : At d' (x + 1)
  index : d'.index = decide ((x + 1) % d.cBpt = 0)
  reads : Reads (d.track.cell (x % d.cBpt)) d'.data

theorem next_turn (some_byte : 0 < d.cBpt) {x : Nat} (at_x : At d x) :
    d.turn.next = (x + 1) % d.cBpt ∧ d.turn.index = decide ((x + 1) % d.cBpt = 0) := by
  have inside : d.next < d.cBpt := by
    rw [at_x]
    exact Nat.mod_lt x some_byte
  have turned : (x + 1) % d.cBpt = if d.cBpt ≤ d.next + 1 then 0 else d.next + 1 := by
    rw [at_x]
    rw [at_x] at inside
    rw [← Nat.mod_add_mod]
    split
    · next last =>
      rw [show x % d.cBpt + 1 = d.cBpt by omega, Nat.mod_self]
    · next not_last => exact Nat.mod_eq_of_lt (by omega)
  constructor
  · rw [turned]
    rfl
  · rw [turned, turn]
    split <;> simp [*]

/-- An online drive reads the byte at the position and goes on to the one behind it. -/
theorem readData_spec (online : d.online = true) (some_byte : 0 < d.cBpt) {x : Nat}
    (at_x : At d x) : ReadFrom d x d.readData := by
  have turned := next_turn some_byte at_x
  have on : (!d.online) = false := by rw [online]; rfl
  have read_eq : d.readData = _ := if_neg (by rw [on]; exact Bool.false_ne_true)
  rw [read_eq]
  exact
    { lines := rfl
      track := rfl
      at_next := turned.1
      index := turned.2
      reads := ⟨d.rand 0, d.rand 1, by rw [← show d.next = x % d.cBpt from at_x]⟩ }

/-- A write at a position of a track. -/
structure WroteAt (d : Fdd) (x : Nat) (d' : Fdd) : Prop where
  lines : d'.toFddLines = d.toFddLines
  track : ∃ fm, d'.track
    = d.track.put (x % d.cBpt) (UInt8.ofNat d.data) (d.data / 256 % 256 ≠ 0) fm
  at_next : At d' (x + 1)
  data : d'.data = d.data

theorem writeData_spec (online : d.online = true) (enabled : d.diskWrprot = false)
    (some_byte : 0 < d.cBpt) {x : Nat} (at_x : At d x) : WroteAt d x d.writeData := by
  have turned := next_turn some_byte at_x
  have on : (!d.online) = false := by rw [online]; rfl
  have write_eq : d.writeData = _ := if_neg (by rw [on]; exact Bool.false_ne_true)
  rw [write_eq, enabled, if_neg Bool.false_ne_true]
  have bpt : ∀ track, track = d.track.put d.next (UInt8.ofNat d.data) (d.data / 256 % 256 ≠ 0)
      (d.marks % 2 ≠ 0) → At { d.turn with track := track } (x + 1) := by
    rintro track rfl
    rw [At, next, cBpt, TrackSlot.cBpt_put]
    exact turned.1
  exact
    { lines := rfl
      track := ⟨d.marks % 2 ≠ 0, by rw [← show d.next = x % d.cBpt from at_x]⟩
      at_next := bpt _ rfl
      data := rfl }

end Fdd

end FuseX.Disk
