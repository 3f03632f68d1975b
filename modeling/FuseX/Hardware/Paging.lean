import Mathlib.Data.BitVec
import Mathlib.Logic.Function.Basic
import Mathlib.Tactic.IntervalCases
import Mathlib.Tactic.Ring

/-!
# The memory of the 128 and the +3

`memory_pages.c` divides the 64 KB that the Z80 sees into 32 slots, with one table for reading and one for
writing, and `spec128.c` and `specplus3.c` fill the tables from the bytes written to the two paging ports.
`Paged` is what the tables are for: four quarters of 16 KB, each of which is a page of ROM or RAM that the two
bytes say.

No peripheral is paged in, and contention is left out.
-/

namespace FuseX.Hardware.Paging

/-- The memory sources. -/
inductive Source : Type
  | rom
  | ram
  | none
  deriving DecidableEq

/-- `memory_page`. Its `page` is the memory of the source at that page and offset. -/
structure MemoryPage : Type where
  source : Source
  pageNum : Nat
  offset : Nat
  writable : Bool
  deriving DecidableEq

/-- The machines. -/
inductive Model : Type
  | spec128
  | specplus3
  deriving DecidableEq

/-- A byte of the pages is written. -/
def set (pages : Nat → Nat → BitVec 8) (page offset : Nat) (b : BitVec 8) : Nat → Nat → BitVec 8 :=
  Function.update pages page (Function.update (pages page) offset b)

structure Memory : Type where
  rom : Nat → Nat → BitVec 8
  ram : Nat → Nat → BitVec 8
  mapRead : Nat → MemoryPage
  mapWrite : Nat → MemoryPage
  lastByte : BitVec 8
  lastByte2 : BitVec 8
  locked : BitVec 8
  special : Nat
  currentPage : Nat
  currentRom : Nat
  currentScreen : Nat
  writableRoms : Bool
  /-- what `display_dirty` was called with -/
  dirty : List Nat
  /-- how often the whole screen was marked -/
  refreshes : Nat

/-- `memory_map_ram`. -/
def memoryMapRam (n : Nat) : MemoryPage := ⟨.ram, n / 8, n % 8 * 0x800, true⟩

/-- `memory_map_rom`, with its banks mapped. -/
def memoryMapRom (n : Nat) : MemoryPage := ⟨.rom, n / 8, n % 8 * 0x800, false⟩

/-! ## Mapping -/

namespace Memory

variable (m : Memory) (source : Nat → MemoryPage)

/-- `memory_map_2k_read_write`, for both. -/
def map2k (address page_num : Nat) : Memory :=
  { m with
    mapRead := Function.update m.mapRead (address >>> 11) (source page_num)
    mapWrite := Function.update m.mapWrite (address >>> 11) (source page_num) }

/-- `memory_map_4k_read_write`. -/
def map4k (address page_num : Nat) : Memory :=
  (m.map2k source address (page_num * 2)).map2k source (address + 0x0800) (page_num * 2 + 1)

/-- `memory_map_8k_read_write`. -/
def map8k (address page_num : Nat) : Memory :=
  (m.map4k source address (page_num * 2)).map4k source (address + 0x1000) (page_num * 2 + 1)

/-- `memory_map_16k_read_write`. -/
def map16k (address page_num : Nat) : Memory :=
  (m.map8k source address (page_num * 2)).map8k source (address + 0x2000) (page_num * 2 + 1)

/-! ## The bytes -/

/-- A byte of a page. -/
def pageByte (page : MemoryPage) (offset : Nat) : BitVec 8 :=
  match page.source with
  | .rom => m.rom page.pageNum (page.offset + offset)
  | .ram => m.ram page.pageNum (page.offset + offset)
  | .none => 0

/-- A byte of a page is written. -/
def putByte (page : MemoryPage) (offset : Nat) (b : BitVec 8) : Memory :=
  match page.source with
  | .rom => { m with rom := set m.rom page.pageNum (page.offset + offset) b }
  | .ram => { m with ram := set m.ram page.pageNum (page.offset + offset) b }
  | .none => m

/-- `readbyte`. -/
def readbyte (address : BitVec 16) : BitVec 8 :=
  m.pageByte (m.mapRead (address >>> 11).toNat) (address &&& 0x07ff).toNat

/-- `memory_display_dirty_sinclair`. -/
def displayDirty (address : BitVec 16) (b : BitVec 8) : Memory :=
  let mapping := m.mapWrite (address >>> 11).toNat
  let offset := (address &&& 0x07ff).toNat
  let offset2 := offset + mapping.offset
  if mapping.source = .ram ∧ mapping.pageNum = m.currentScreen ∧ offset2 &&& 0xffff < 6912 ∧
      m.pageByte mapping offset ≠ b then
    { m with dirty := m.dirty ++ [offset2] }
  else m

/-- `writebyte_internal`. -/
def writebyte (address : BitVec 16) (b : BitVec 8) : Memory :=
  let mapping := m.mapWrite (address >>> 11).toNat
  if mapping.writable = true ∨ (mapping.source ≠ .none ∧ m.writableRoms = true) then
    (m.displayDirty address b).putByte mapping (address &&& 0x07ff).toNat b
  else m

/-! ## The paging ports -/

/-- The screen that is shown has changed. -/
def selectScreen (screen : Nat) : Memory :=
  if m.currentScreen ≠ screen then { m with refreshes := m.refreshes + 1, currentScreen := screen } else m

/-- `spec128_select_rom`. -/
def selectRom (rom : Nat) : Memory := { m.map16k memoryMapRom 0x0000 rom with currentRom := rom }

/-- `spec128_select_page`. -/
def selectPage (page : Nat) : Memory := { m.map16k memoryMapRam 0xc000 page with currentPage := page }

/-- `spec128_memory_map`. -/
def spec128MemoryMap : Memory :=
  let page := (m.lastByte &&& 0x07).toNat
  let screen := if m.lastByte &&& 0x08 ≠ 0 then 7 else 5
  let rom := ((m.lastByte &&& 0x10) >>> 4).toNat
  ((m.selectScreen screen).selectRom rom).selectPage page

/-- `normal_memory_map`. -/
def normalMemoryMap (rom page : Nat) : Memory :=
  (((m.map16k memoryMapRom 0x0000 rom).map16k memoryMapRam 0x4000 5).map16k memoryMapRam 0x8000 2).map16k
    memoryMapRam 0xc000 page

/-- `select_special_map`. -/
def selectSpecialMap (page1 page2 page3 page4 : Nat) : Memory :=
  (((m.map16k memoryMapRam 0x0000 page1).map16k memoryMapRam 0x4000 page2).map16k memoryMapRam 0x8000
    page3).map16k memoryMapRam 0xc000 page4

/-- `special_memory_map`. There is no other configuration. -/
def specialMemoryMap (which : Nat) : Memory :=
  match which with
  | 0 => m.selectSpecialMap 0 1 2 3
  | 1 => m.selectSpecialMap 4 5 6 7
  | 2 => m.selectSpecialMap 4 5 6 3
  | 3 => m.selectSpecialMap 4 7 6 3
  | _ => m

/-- `specplus3_memory_map`. -/
def specplus3MemoryMap : Memory :=
  let page := (m.lastByte &&& 0x07).toNat
  let screen := if m.lastByte &&& 0x08 ≠ 0 then 7 else 5
  let rom := (((m.lastByte &&& 0x10) >>> 4) ||| ((m.lastByte2 &&& 0x04) >>> 1)).toNat
  let m := m.selectScreen screen
  let m :=
    if m.lastByte2 &&& 0x01 ≠ 0 then
      { m with special := 1 }.specialMemoryMap ((m.lastByte2 &&& 0x06) >>> 1).toNat
    else { m with special := 0 }.normalMemoryMap rom page
  { m with currentPage := page, currentRom := rom }

/-- The machine's `memory_map`. -/
def memoryMap (model : Model) : Memory :=
  match model with
  | .spec128 => m.spec128MemoryMap
  | .specplus3 => m.specplus3MemoryMap

/-- `spec128_memoryport_write`. -/
def memoryportWrite (model : Model) (b : BitVec 8) : Memory :=
  if m.locked ≠ 0 then m
  else { { m with lastByte := b }.memoryMap model with locked := b &&& 0x20 }

/-- `specplus3_memoryport2_write_internal`. -/
def memoryport2WriteInternal (model : Model) (b : BitVec 8) : Memory :=
  { m with lastByte2 := b }.memoryMap model

/-- `specplus3_memoryport2_write`. -/
def memoryport2Write (model : Model) (b : BitVec 8) : Memory :=
  if m.locked ≠ 0 then m else m.memoryport2WriteInternal model b

/-- `spec128_common_reset` and `specplus3_plus2a_common_reset`. -/
def commonReset (model : Model) : Memory :=
  match model with
  | .spec128 =>
    { m with
      locked := 0
      lastByte := 0
      currentPage := 0
      currentRom := 0
      currentScreen := 5 }.normalMemoryMap 0 0
  | .specplus3 =>
    { m with
      currentPage := 0
      currentRom := 0
      locked := 0
      special := 0
      lastByte := 0
      lastByte2 := 0
      currentScreen := 5 }.normalMemoryMap 0 0

/-- `machine_reset`: the ROMs are loaded, the memory is mapped once more, and `display_refresh_all` marks the
screen. -/
def machineReset (model : Model) (image : Nat → Nat → BitVec 8) : Memory :=
  let m := ({ m with rom := image }.commonReset model).memoryMap model
  { m with refreshes := m.refreshes + 1 }

/-- `trap_check_rom`: the tape routines are in the ROM that is paged in. -/
def trapCheckRom (model : Model) : Bool :=
  match model with
  | .spec128 => m.currentRom = 1
  | .specplus3 => m.special = 0 ∧ m.currentRom = 3

end Memory

/-! ## Snapshots -/

/-- What a snapshot has of the memory. -/
structure Snap : Type where
  out128Memoryport : BitVec 8
  outPlus3Memoryport : BitVec 8
  pages : Nat → Nat → BitVec 8

/-- `memory_to_snapshot`. -/
def Memory.toSnapshot (m : Memory) : Snap where
  out128Memoryport := m.lastByte
  outPlus3Memoryport := m.lastByte2
  pages := m.ram

/-- `memory_from_snapshot`. -/
def Memory.fromSnapshot (m : Memory) (model : Model) (snap : Snap) : Memory :=
  let m := m.memoryportWrite model snap.out128Memoryport
  let m :=
    match model with
    | .spec128 => m
    | .specplus3 => m.memoryport2WriteInternal model snap.outPlus3Memoryport
  { m with ram := fun i => if i < 64 then snap.pages i else m.ram i }

/-- `snapshot_copy_from`: a reset, the modules, and the mapping. -/
def Memory.snapshotCopyFrom (m : Memory) (model : Model) (image : Nat → Nat → BitVec 8) (snap : Snap) :
    Memory :=
  ((m.machineReset model image).fromSnapshot model snap).memoryMap model

/-! ## Runs -/

/-- What happens to the memory. A snapshot is loaded that was taken of any memory. -/
inductive Act : Type
  | write (address : BitVec 16) (b : BitVec 8)
  | port (b : BitVec 8)
  | port2 (b : BitVec 8)
  | writableRoms (on : Bool)
  | reset
  | load (snap : Snap)

def step (model : Model) (image : Nat → Nat → BitVec 8) (m : Memory) : Act → Memory
  | .write address b => m.writebyte address b
  | .port b => m.memoryportWrite model b
  | .port2 b =>
    match model with
    | .spec128 => m
    | .specplus3 => m.memoryport2Write model b
  | .writableRoms on => { m with writableRoms := on }
  | .reset => m.machineReset model image
  | .load snap => m.snapshotCopyFrom model image snap

/-! ## Quarters -/

/-- The memory as quarters. -/
structure Paged : Type where
  rom : Nat → Nat → BitVec 8
  ram : Nat → Nat → BitVec 8
  port : BitVec 8
  port2 : BitVec 8
  writableRoms : Bool

/-- The pages of the four configurations without a ROM. -/
def allRam : Nat → Nat → Nat
  | 0, quarter => quarter
  | 1, quarter => quarter + 4
  | 2, quarter => if quarter < 3 then quarter + 4 else 3
  | _, quarter => if quarter = 1 then 7 else if quarter < 3 then quarter + 4 else 3

/-- The page of a quarter. -/
def page (model : Model) (port port2 : BitVec 8) (quarter : Nat) : Source × Nat :=
  if model = .specplus3 ∧ port2.getLsbD 0 = true then (.ram, allRam (port2.toNat / 2 % 4) quarter)
  else
    match quarter with
    | 0 =>
      (.rom, port.toNat / 16 % 2 +
        match model with
        | .spec128 => 0
        | .specplus3 => 2 * (port2.toNat / 4 % 2))
    | 1 => (.ram, 5)
    | 2 => (.ram, 2)
    | _ => (.ram, port.toNat % 8)

/-- The ROM with the tape routines. -/
def tapeRom : Model → Nat
  | .spec128 => 1
  | .specplus3 => 3

/-- The screen that is shown. -/
def screen (port : BitVec 8) : Nat := if port.getLsbD 3 = true then 7 else 5

namespace Paged

variable (p : Paged) (model : Model)

def read (address : BitVec 16) : BitVec 8 :=
  match page model p.port p.port2 (address.toNat / 0x4000) with
  | (.rom, n) => p.rom n (address.toNat % 0x4000)
  | (.ram, n) => p.ram n (address.toNat % 0x4000)
  | (.none, _) => 0

def write (address : BitVec 16) (b : BitVec 8) : Paged :=
  match page model p.port p.port2 (address.toNat / 0x4000) with
  | (.rom, n) =>
    if p.writableRoms = true then { p with rom := set p.rom n (address.toNat % 0x4000) b } else p
  | (.ram, n) => { p with ram := set p.ram n (address.toNat % 0x4000) b }
  | (.none, _) => p

/-- The steps: the ports are locked by the sixth bit of the first one. -/
def step (image : Nat → Nat → BitVec 8) : Act → Paged
  | .write address b => p.write model address b
  | .port b => if p.port.getLsbD 5 = true then p else { p with port := b }
  | .port2 b => if p.port.getLsbD 5 = true then p else { p with port2 := b }
  | .writableRoms on => { p with writableRoms := on }
  | .reset => { p with rom := image, port := 0, port2 := 0 }
  | .load snap =>
    { p with
      rom := image
      ram := fun i => if i < 64 then snap.pages i else p.ram i
      port := snap.out128Memoryport
      port2 := snap.outPlus3Memoryport }

end Paged

/-! ## Filling the tables -/

section Filling

variable {α : Type} (f source : Nat → α) (first len page : Nat)

/-- The entries from `first` on are the ones of a page that is `len` entries long. -/
def fill : Nat → α :=
  fun i => if first ≤ i ∧ i < first + len then source (page * len + (i - first)) else f i

theorem fill_one : fill f source first 1 page = Function.update f first (source page) := by
  funext i
  by_cases h : i = first
  · subst h
    simp [fill]
  · rw [Function.update_of_ne h, fill, if_neg (by omega)]

/-- Two halves make a page. -/
theorem fill_double :
    fill (fill f source first len (page * 2)) source (first + len) len (page * 2 + 1) =
      fill f source first (2 * len) page := by
  funext i
  simp only [fill]
  by_cases upper : first + len ≤ i ∧ i < first + len + len
  · rw [if_pos upper, if_pos ⟨by omega, by omega⟩]
    congr 1
    have : i - (first + len) + len = i - first := by omega
    rw [← this]
    ring
  · rw [if_neg upper]
    by_cases lower : first ≤ i ∧ i < first + len
    · rw [if_pos lower, if_pos ⟨by omega, by omega⟩]
      congr 1
      ring
    · rw [if_neg lower, if_neg (by omega)]

end Filling

namespace Memory

variable (m : Memory) (source : Nat → MemoryPage) (first page : Nat)

/-- The tables are filled, and nothing else changes. -/
def filled (len : Nat) : Memory :=
  { m with
    mapRead := fill m.mapRead source first len page
    mapWrite := fill m.mapWrite source first len page }

theorem map2k_eq : m.map2k source (first * 0x800) page = m.filled source first page 1 := by
  have slot : (first * 0x800) >>> 11 = first := by rw [Nat.shiftRight_eq_div_pow]; omega
  simp only [map2k, filled, fill_one, slot]

theorem filled_filled (len : Nat) :
    (m.filled source first (page * 2) len).filled source (first + len) (page * 2 + 1) len =
      m.filled source first page (2 * len) := by
  simp only [filled, fill_double]

theorem map4k_eq : m.map4k source (first * 0x800) page = m.filled source first page 2 := by
  have next : first * 0x800 + 0x0800 = (first + 1) * 0x800 := by omega
  rw [map4k, next, map2k_eq, map2k_eq, filled_filled]

theorem map8k_eq : m.map8k source (first * 0x800) page = m.filled source first page 4 := by
  have next : first * 0x800 + 0x1000 = (first + 2) * 0x800 := by omega
  rw [map8k, next, map4k_eq, map4k_eq, filled_filled]

theorem map16k_eq : m.map16k source (first * 0x800) page = m.filled source first page 8 := by
  have next : first * 0x800 + 0x2000 = (first + 4) * 0x800 := by omega
  rw [map16k, next, map8k_eq, map8k_eq, filled_filled]

end Memory

/-! ## The bits of the ports -/

theorem page_bits (b : BitVec 8) : (b &&& 0x07).toNat = b.toNat % 8 := by
  revert b
  decide

theorem screen_bits (b : BitVec 8) : (if b &&& 0x08 ≠ 0 then 7 else 5) = screen b := by
  revert b
  decide

theorem special_bit (b : BitVec 8) : b &&& 0x01 ≠ 0 ↔ b.getLsbD 0 = true := by
  revert b
  decide

theorem special_bits (b : BitVec 8) : ((b &&& 0x06) >>> 1).toNat = b.toNat / 2 % 4 := by
  revert b
  decide

/-- There are four configurations without a ROM. -/
theorem special_bits_lt (b : BitVec 8) : ((b &&& 0x06) >>> 1).toNat < 4 := by
  rw [special_bits]
  exact Nat.mod_lt _ (by decide)

theorem lock_bit (b : BitVec 8) : b &&& 0x20 ≠ 0 ↔ b.getLsbD 5 = true := by
  revert b
  decide

theorem rom_bits (b : BitVec 8) : ((b &&& 0x10) >>> 4).toNat = b.toNat / 16 % 2 := by
  revert b
  decide

theorem high_rom_bits (b : BitVec 8) : ((b &&& 0x04) >>> 1).toNat = 2 * (b.toNat / 4 % 2) := by
  revert b
  decide

theorem both_rom_bits (b b2 : BitVec 8) :
    (((b &&& 0x10) >>> 4) ||| ((b2 &&& 0x04) >>> 1)).toNat = b.toNat / 16 % 2 + 2 * (b2.toNat / 4 % 2) := by
  rw [BitVec.toNat_or, rom_bits, high_rom_bits]
  have low : b.toNat / 16 % 2 < 2 := Nat.mod_lt _ (by decide)
  have high : b2.toNat / 4 % 2 < 2 := Nat.mod_lt _ (by decide)
  interval_cases b.toNat / 16 % 2 <;> interval_cases b2.toNat / 4 % 2 <;> rfl

/-! ## What a slot has -/

/-- The entry of a slot, as the ports have it. -/
def slot (model : Model) (port port2 : BitVec 8) (i : Nat) : MemoryPage where
  source := (page model port port2 (i / 8)).1
  pageNum := (page model port port2 (i / 8)).2
  offset := i % 8 * 0x800
  writable := (page model port port2 (i / 8)).1 = .ram

/-- The slots of some quarters are what the ports say, for reading and for writing. -/
def Memory.Shows (m : Memory) (model : Model) (port port2 : BitVec 8) (quarter : Nat) : Prop :=
  ∀ i, i / 8 = quarter →
    m.mapRead i = slot model port port2 i ∧ m.mapWrite i = slot model port port2 i

theorem Memory.Shows.congr {m m' : Memory} {model : Model} {port port2 : BitVec 8} {quarter : Nat}
    (shows : m.Shows model port port2 quarter) (read : m'.mapRead = m.mapRead)
    (write : m'.mapWrite = m.mapWrite) : m'.Shows model port port2 quarter := by
  intro i inside
  rw [read, write]
  exact shows i inside

/-- The entries of a page in a table. -/
def Gives (source : Nat → MemoryPage) (n : Nat) (entry : Source × Nat) : Prop :=
  ∀ k < 8, source (n * 8 + k) = ⟨entry.1, entry.2, k * 0x800, entry.1 = .ram⟩

theorem gives_ram (n : Nat) : Gives memoryMapRam n (.ram, n) := by
  intro k lt
  have page : (n * 8 + k) / 8 = n := by omega
  have offset : (n * 8 + k) % 8 = k := by omega
  simp [memoryMapRam, page, offset]

theorem gives_rom (n : Nat) : Gives memoryMapRom n (.rom, n) := by
  intro k lt
  have page : (n * 8 + k) / 8 = n := by omega
  have offset : (n * 8 + k) % 8 = k := by omega
  simp [memoryMapRom, page, offset]

section Showing

variable {m : Memory} {model : Model} {port port2 : BitVec 8} {source : Nat → MemoryPage} {n quarter q : Nat}

theorem fill_quarter (f : Nat → MemoryPage) (i : Nat) :
    fill f source (quarter * 8) 8 n i = if i / 8 = quarter then source (n * 8 + i % 8) else f i := by
  simp only [fill]
  by_cases inside : i / 8 = quarter
  · rw [if_pos ⟨by omega, by omega⟩, if_pos inside]
    congr 2
    omega
  · rw [if_neg (by omega), if_neg inside]

/-- A quarter that is filled shows its page, and the others show what they did. -/
theorem shows_filled (gives : Gives source n (page model port port2 quarter))
    (before : q = quarter ∨ m.Shows model port port2 q) :
    (m.filled source (quarter * 8) n 8).Shows model port port2 q := by
  intro i inside
  simp only [Memory.filled, fill_quarter]
  by_cases same : i / 8 = quarter
  · rw [if_pos same, if_pos same, gives (i % 8) (Nat.mod_lt i (by decide)), ← same]
    exact ⟨rfl, rfl⟩
  · rw [if_neg same, if_neg same]
    rcases before with rfl | before
    · exact absurd inside same
    · exact before i inside

variable {s0 s1 s2 s3 : Nat → MemoryPage} {n0 n1 n2 n3 : Nat}

theorem shows_four (g0 : Gives s0 n0 (page model port port2 0)) (g1 : Gives s1 n1 (page model port port2 1))
    (g2 : Gives s2 n2 (page model port port2 2)) (g3 : Gives s3 n3 (page model port port2 3)) (lt : q < 4) :
    (((((m.filled s0 (0 * 8) n0 8).filled s1 (1 * 8) n1 8).filled s2 (2 * 8) n2 8).filled s3 (3 * 8) n3
      8)).Shows model port port2 q := by
  interval_cases q
  · exact shows_filled g3 (.inr (shows_filled g2 (.inr (shows_filled g1 (.inr (shows_filled g0 (.inl rfl)))))))
  · exact shows_filled g3 (.inr (shows_filled g2 (.inr (shows_filled g1 (.inl rfl)))))
  · exact shows_filled g3 (.inr (shows_filled g2 (.inl rfl)))
  · exact shows_filled g3 (.inl rfl)

end Showing

namespace Memory

variable (m : Memory) (model : Model)

theorem map16k_quarter (source : Nat → MemoryPage) (quarter page : Nat) :
    m.map16k source (quarter * 0x4000) page = m.filled source (quarter * 8) page 8 := by
  have address : quarter * 0x4000 = quarter * 8 * 0x800 := by omega
  rw [address, map16k_eq]

theorem normalMemoryMap_eq (rom page : Nat) :
    m.normalMemoryMap rom page =
      (((m.filled memoryMapRom (0 * 8) rom 8).filled memoryMapRam (1 * 8) 5 8).filled memoryMapRam (2 * 8) 2
        8).filled memoryMapRam (3 * 8) page 8 := by
  simp only [← map16k_quarter]
  rfl

theorem selectSpecialMap_eq (page1 page2 page3 page4 : Nat) :
    m.selectSpecialMap page1 page2 page3 page4 =
      (((m.filled memoryMapRam (0 * 8) page1 8).filled memoryMapRam (1 * 8) page2 8).filled memoryMapRam (2 * 8)
        page3 8).filled memoryMapRam (3 * 8) page4 8 := by
  simp only [← map16k_quarter]
  rfl

/-- The four configurations are the table of `allRam`. -/
theorem specialMemoryMap_eq {which : Nat} (lt : which < 4) :
    m.specialMemoryMap which =
      m.selectSpecialMap (allRam which 0) (allRam which 1) (allRam which 2) (allRam which 3) := by
  interval_cases which <;> rfl

end Memory

/-! ## What mapping keeps -/

/-- Mapping changes the tables and the screen, and marks a new screen. -/
structure Remapped (m m' : Memory) : Prop where
  rom : m'.rom = m.rom
  ram : m'.ram = m.ram
  lastByte : m'.lastByte = m.lastByte
  lastByte2 : m'.lastByte2 = m.lastByte2
  locked : m'.locked = m.locked
  writableRoms : m'.writableRoms = m.writableRoms
  dirty : m'.dirty = m.dirty
  refreshes : m.refreshes ≤ m'.refreshes
  screen : m'.currentScreen = m.currentScreen ∨ m.refreshes < m'.refreshes

namespace Remapped

theorem refl (m : Memory) : Remapped m m :=
  ⟨rfl, rfl, rfl, rfl, rfl, rfl, rfl, le_rfl, .inl rfl⟩

theorem trans {m m' m'' : Memory} (before : Remapped m m') (after : Remapped m' m'') : Remapped m m'' where
  rom := after.rom.trans before.rom
  ram := after.ram.trans before.ram
  lastByte := after.lastByte.trans before.lastByte
  lastByte2 := after.lastByte2.trans before.lastByte2
  locked := after.locked.trans before.locked
  writableRoms := after.writableRoms.trans before.writableRoms
  dirty := after.dirty.trans before.dirty
  refreshes := before.refreshes.trans after.refreshes
  screen := by
    have late := after.refreshes
    have early := before.refreshes
    rcases before.screen with same | marked
    · rcases after.screen with still | marked
      · exact .inl (still.trans same)
      · exact .inr (by omega)
    · exact .inr (by omega)

variable (m : Memory) (model : Model)

theorem filled (source : Nat → MemoryPage) (first page len : Nat) :
    Remapped m (m.filled source first page len) := by
  constructor <;> simp [Memory.filled]

theorem normalMemoryMap (rom page : Nat) : Remapped m (m.normalMemoryMap rom page) := by
  rw [Memory.normalMemoryMap_eq]
  exact (((filled _ _ _ _ _).trans (filled _ _ _ _ _)).trans (filled _ _ _ _ _)).trans (filled _ _ _ _ _)

theorem specialMemoryMap {which : Nat} (lt : which < 4) : Remapped m (m.specialMemoryMap which) := by
  rw [Memory.specialMemoryMap_eq m lt, Memory.selectSpecialMap_eq]
  exact (((filled _ _ _ _ _).trans (filled _ _ _ _ _)).trans (filled _ _ _ _ _)).trans (filled _ _ _ _ _)

theorem selectScreen (screen : Nat) : Remapped m (m.selectScreen screen) := by
  unfold Memory.selectScreen
  split
  · exact ⟨rfl, rfl, rfl, rfl, rfl, rfl, rfl, by simp, .inr (by simp)⟩
  · exact refl m

theorem selectRom (rom : Nat) : Remapped m (m.selectRom rom) := by
  have fills := filled m memoryMapRom (0 * 8) rom 8
  rw [← Memory.map16k_quarter] at fills
  exact { fills with }

theorem selectPage (page : Nat) : Remapped m (m.selectPage page) := by
  have fills := filled m memoryMapRam (3 * 8) page 8
  rw [← Memory.map16k_quarter] at fills
  exact { fills with }

theorem spec128MemoryMap : Remapped m m.spec128MemoryMap :=
  ((selectScreen m _).trans (selectRom _ _)).trans (selectPage _ _)

theorem specplus3MemoryMap : Remapped m m.specplus3MemoryMap := by
  dsimp only [Memory.specplus3MemoryMap]
  have shown := selectScreen m (if m.lastByte &&& 0x08 ≠ 0 then 7 else 5)
  generalize m.selectScreen _ = m1 at shown ⊢
  have lt := special_bits_lt m1.lastByte2
  split
  · have special := specialMemoryMap { m1 with special := 1 } lt
    exact { shown.trans { special with } with }
  · have normal := normalMemoryMap { m1 with special := 0 }
      (((m.lastByte &&& 0x10) >>> 4) ||| ((m.lastByte2 &&& 0x04) >>> 1)).toNat (m.lastByte &&& 0x07).toNat
    exact { shown.trans { normal with } with }

theorem memoryMap : Remapped m (m.memoryMap model) := by
  cases model with
  | spec128 => exact spec128MemoryMap m
  | specplus3 => exact specplus3MemoryMap m

end Remapped

/-! ## Mapping shows what the ports say -/

/-- The two quarters that the 128 maps when it is reset only. -/
def Memory.Home (m : Memory) (model : Model) : Prop :=
  model = .spec128 → ∀ q, q = 1 ∨ q = 2 → ∀ port port2, m.Shows model port port2 q

theorem Memory.Home.filled {m : Memory} {model : Model} (home : m.Home model) (source : Nat → MemoryPage)
    (n : Nat) {quarter : Nat} (outer : quarter = 0 ∨ quarter = 3) :
    (m.filled source (quarter * 8) n 8).Home model := by
  intro is q inner port port2 i inside
  have other : i / 8 ≠ quarter := by omega
  simp only [Memory.filled, fill_quarter, if_neg other]
  exact home is q inner port port2 i inside

section Mapping

variable (m : Memory) (model : Model)

theorem selectScreen_currentScreen (screen : Nat) : (m.selectScreen screen).currentScreen = screen := by
  unfold Memory.selectScreen
  split
  · rfl
  · rename_i same
    exact not_not.mp same

theorem selectScreen_maps (screen : Nat) :
    (m.selectScreen screen).mapRead = m.mapRead ∧ (m.selectScreen screen).mapWrite = m.mapWrite := by
  unfold Memory.selectScreen
  split <;> exact ⟨rfl, rfl⟩

theorem page_spec128_rom (port port2 : BitVec 8) :
    page .spec128 port port2 0 = (.rom, ((port &&& 0x10) >>> 4).toNat) := by
  rw [rom_bits]
  simp [page]

theorem page_spec128_ram (port port2 : BitVec 8) :
    page .spec128 port port2 3 = (.ram, (port &&& 0x07).toNat) := by
  rw [page_bits]
  simp [page]

theorem selectRom_eq (rom : Nat) :
    m.selectRom rom = { m.filled memoryMapRom (0 * 8) rom 8 with currentRom := rom } := by
  rw [← Memory.map16k_quarter]
  rfl

theorem selectPage_eq (n : Nat) :
    m.selectPage n = { m.filled memoryMapRam (3 * 8) n 8 with currentPage := n } := by
  rw [← Memory.map16k_quarter]
  rfl

theorem spec128MemoryMap_screen : m.spec128MemoryMap.currentScreen = screen m.lastByte := by
  rw [← screen_bits, Memory.spec128MemoryMap, selectPage_eq, selectRom_eq]
  exact selectScreen_currentScreen m _

theorem spec128MemoryMap_shows (home : m.Home .spec128) (port2 : BitVec 8) {q : Nat} (lt : q < 4) :
    m.spec128MemoryMap.Shows .spec128 m.lastByte port2 q := by
  have rom := gives_rom ((m.lastByte &&& 0x10) >>> 4).toNat
  have ram := gives_ram (m.lastByte &&& 0x07).toNat
  rw [← page_spec128_rom _ port2] at rom
  rw [← page_spec128_ram _ port2] at ram
  rw [Memory.spec128MemoryMap, selectPage_eq, selectRom_eq]
  have maps := selectScreen_maps m (if m.lastByte &&& 0x08 ≠ 0 then 7 else 5)
  generalize m.selectScreen _ = m1 at maps ⊢
  have inner : q = 1 ∨ q = 2 → m1.Shows .spec128 m.lastByte port2 q := fun inner =>
    (home rfl q inner m.lastByte port2).congr maps.1 maps.2
  -- the page register is set after the mapping, and the tables do not read it
  have shows : ((m1.filled memoryMapRom (0 * 8) ((m.lastByte &&& 0x10) >>> 4).toNat 8).filled memoryMapRam
      (3 * 8) (m.lastByte &&& 0x07).toNat 8).Shows .spec128 m.lastByte port2 q := by
    interval_cases q
    · exact shows_filled ram (.inr (shows_filled rom (.inl rfl)))
    · exact shows_filled ram (.inr (shows_filled rom (.inr (inner (.inl rfl)))))
    · exact shows_filled ram (.inr (shows_filled rom (.inr (inner (.inr rfl)))))
    · exact shows_filled ram (.inl rfl)
  exact shows.congr rfl rfl

theorem page_specplus3_special (port : BitVec 8) {port2 : BitVec 8} (special : port2.getLsbD 0 = true)
    (quarter : Nat) :
    page .specplus3 port port2 quarter = (.ram, allRam ((port2 &&& 0x06) >>> 1).toNat quarter) := by
  unfold page
  rw [if_pos ⟨rfl, special⟩, special_bits]

theorem page_specplus3_normal (port : BitVec 8) {port2 : BitVec 8} (normal : ¬port2.getLsbD 0 = true) :
    page .specplus3 port port2 0 = (.rom, (((port &&& 0x10) >>> 4) ||| ((port2 &&& 0x04) >>> 1)).toNat) ∧
      page .specplus3 port port2 1 = (.ram, 5) ∧
      page .specplus3 port port2 2 = (.ram, 2) ∧
      page .specplus3 port port2 3 = (.ram, (port &&& 0x07).toNat) := by
  rw [both_rom_bits, page_bits]
  unfold page
  simp only [normal]
  exact ⟨rfl, rfl, rfl, rfl⟩

theorem selectSpecialMap_shows (page1 page2 page3 page4 : Nat) {port port2 : BitVec 8}
    (p1 : page model port port2 0 = (.ram, page1)) (p2 : page model port port2 1 = (.ram, page2))
    (p3 : page model port port2 2 = (.ram, page3)) (p4 : page model port port2 3 = (.ram, page4)) {q : Nat}
    (lt : q < 4) : (m.selectSpecialMap page1 page2 page3 page4).Shows model port port2 q := by
  rw [Memory.selectSpecialMap_eq]
  exact shows_four (p1 ▸ gives_ram page1) (p2 ▸ gives_ram page2) (p3 ▸ gives_ram page3) (p4 ▸ gives_ram page4)
    lt

theorem normalMemoryMap_shows (rom n : Nat) {port port2 : BitVec 8}
    (p1 : page model port port2 0 = (.rom, rom)) (p2 : page model port port2 1 = (.ram, 5))
    (p3 : page model port port2 2 = (.ram, 2)) (p4 : page model port port2 3 = (.ram, n)) {q : Nat}
    (lt : q < 4) : (m.normalMemoryMap rom n).Shows model port port2 q := by
  rw [Memory.normalMemoryMap_eq]
  exact shows_four (p1 ▸ gives_rom rom) (p2 ▸ gives_ram 5) (p3 ▸ gives_ram 2) (p4 ▸ gives_ram n) lt

theorem specplus3MemoryMap_shows {q : Nat} (lt : q < 4) :
    m.specplus3MemoryMap.Shows .specplus3 m.lastByte m.lastByte2 q := by
  dsimp only [Memory.specplus3MemoryMap]
  have shown := Remapped.selectScreen m (if m.lastByte &&& 0x08 ≠ 0 then 7 else 5)
  generalize m.selectScreen _ = m1 at shown ⊢
  rw [shown.lastByte2]
  have which := special_bits_lt m.lastByte2
  split
  · rename_i special
    rw [Memory.specialMemoryMap_eq _ which]
    have pages := page_specplus3_special m.lastByte ((special_bit _).mp special)
    have shows := selectSpecialMap_shows { m1 with special := 1 } .specplus3 _ _ _ _ (pages 0) (pages 1)
      (pages 2) (pages 3) lt
    exact shows.congr rfl rfl
  · rename_i normal
    obtain ⟨p1, p2, p3, p4⟩ := page_specplus3_normal m.lastByte fun special =>
      normal ((special_bit _).mpr special)
    have shows := normalMemoryMap_shows { m1 with special := 0 } .specplus3 _ _ p1 p2 p3 p4 lt
    exact shows.congr rfl rfl

theorem specplus3MemoryMap_screen : m.specplus3MemoryMap.currentScreen = screen m.lastByte := by
  dsimp only [Memory.specplus3MemoryMap]
  rw [← screen_bits]
  have seen := selectScreen_currentScreen m (if m.lastByte &&& 0x08 ≠ 0 then 7 else 5)
  generalize m.selectScreen _ = m1 at seen ⊢
  have which := special_bits_lt m1.lastByte2
  split
  · rw [Memory.specialMemoryMap_eq _ which, Memory.selectSpecialMap_eq]
    exact seen
  · rw [Memory.normalMemoryMap_eq]
    exact seen

theorem spec128MemoryMap_trap (port2 : BitVec 8) :
    m.spec128MemoryMap.trapCheckRom .spec128 = true ↔
      page .spec128 m.lastByte port2 0 = (.rom, tapeRom .spec128) := by
  rw [page_spec128_rom, Memory.spec128MemoryMap, selectPage_eq, selectRom_eq]
  simp [Memory.trapCheckRom, Memory.filled, tapeRom]

theorem specplus3MemoryMap_trap :
    m.specplus3MemoryMap.trapCheckRom .specplus3 = true ↔
      page .specplus3 m.lastByte m.lastByte2 0 = (.rom, tapeRom .specplus3) := by
  dsimp only [Memory.specplus3MemoryMap]
  have shown := Remapped.selectScreen m (if m.lastByte &&& 0x08 ≠ 0 then 7 else 5)
  generalize m.selectScreen _ = m1 at shown ⊢
  rw [shown.lastByte2]
  have which := special_bits_lt m.lastByte2
  split
  · rename_i special
    rw [page_specplus3_special m.lastByte ((special_bit _).mp special), Memory.specialMemoryMap_eq _ which,
      Memory.selectSpecialMap_eq]
    simp [Memory.trapCheckRom, Memory.filled]
  · rename_i normal
    rw [(page_specplus3_normal m.lastByte fun special => normal ((special_bit _).mpr special)).1,
      Memory.normalMemoryMap_eq]
    simp [Memory.trapCheckRom, Memory.filled, tapeRom]

end Mapping

end FuseX.Hardware.Paging
