import FuseX.Hardware.Paging

/-!
# The memory over whole runs

The machine with its tables simulates `Paged`, whatever the program writes, also across resets and snapshots.
What is drawn is never out of date, and a machine that loads a snapshot goes on as the one that it was taken of.
-/

namespace FuseX.Hardware.Paging

/-! ## The machine follows the quarters -/

/-- The machine has the bytes and the ports, and its tables and its screen are what the ports say. -/
structure Follows (model : Model) (m : Memory) (p : Paged) : Prop where
  rom : m.rom = p.rom
  ram : m.ram = p.ram
  lastByte : m.lastByte = p.port
  lastByte2 : model = .specplus3 → m.lastByte2 = p.port2
  locked : m.locked = p.port &&& 0x20
  writableRoms : m.writableRoms = p.writableRoms
  currentScreen : m.currentScreen = screen p.port
  trapCheckRom : m.trapCheckRom model = true ↔ page model p.port p.port2 0 = (.rom, tapeRom model)
  shows : ∀ q < 4, m.Shows model p.port p.port2 q

/-- The same without the mapping, which is still to be done. -/
structure Holds (model : Model) (m : Memory) (p : Paged) : Prop where
  rom : m.rom = p.rom
  ram : m.ram = p.ram
  lastByte : m.lastByte = p.port
  lastByte2 : model = .specplus3 → m.lastByte2 = p.port2
  writableRoms : m.writableRoms = p.writableRoms
  home : m.Home model

section Following

variable {model : Model} {m : Memory} {p : Paged}

/-- The middle quarters of the 128 are the same whatever its port says. -/
theorem Follows.home (follows : Follows model m p) : m.Home model := by
  rintro rfl q inner port port2 i inside
  have now := follows.shows q (by omega) i inside
  have same : slot .spec128 p.port p.port2 i = slot .spec128 port port2 i := by
    rcases inner with rfl | rfl <;> simp [slot, page, inside]
  rwa [same] at now

theorem Follows.holds (follows : Follows model m p) : Holds model m p where
  rom := follows.rom
  ram := follows.ram
  lastByte := follows.lastByte
  lastByte2 := follows.lastByte2
  writableRoms := follows.writableRoms
  home := follows.home

/-- Mapping makes the tables and the screen follow, if the lock does. -/
theorem Holds.memoryMap (holds : Holds model m p) {locked : BitVec 8} (lock : locked = p.port &&& 0x20) :
    Follows model { m.memoryMap model with locked := locked } p := by
  have kept := Remapped.memoryMap m model
  refine ⟨kept.rom.trans holds.rom, kept.ram.trans holds.ram, kept.lastByte.trans holds.lastByte,
    fun is => kept.lastByte2.trans (holds.lastByte2 is), lock, kept.writableRoms.trans holds.writableRoms,
    ?_, ?_, ?_⟩
  · rw [← holds.lastByte]
    cases model with
    | spec128 => exact spec128MemoryMap_screen m
    | specplus3 => exact specplus3MemoryMap_screen m
  · rw [← holds.lastByte]
    cases model with
    | spec128 => exact spec128MemoryMap_trap m p.port2
    | specplus3 =>
      rw [← holds.lastByte2 rfl]
      exact specplus3MemoryMap_trap m
  · intro q lt
    have shows : (m.memoryMap model).Shows model p.port p.port2 q := by
      rw [← holds.lastByte]
      cases model with
      | spec128 => exact spec128MemoryMap_shows m holds.home p.port2 lt
      | specplus3 =>
        rw [← holds.lastByte2 rfl]
        exact specplus3MemoryMap_shows m lt
    exact shows.congr rfl rfl

/-- A reset fills all quarters. -/
theorem normalMemoryMap_home (m : Memory) (model : Model) : (m.normalMemoryMap 0 0).Home model := by
  rintro rfl q inner port port2
  have first : ∀ i, i / 8 = 1 → slot .spec128 port port2 i = slot .spec128 0 0 i := by
    intro i inside
    simp [slot, page, inside]
  have second : ∀ i, i / 8 = 2 → slot .spec128 port port2 i = slot .spec128 0 0 i := by
    intro i inside
    simp [slot, page, inside]
  intro i inside
  have all : (m.normalMemoryMap 0 0).Shows .spec128 0 0 q :=
    normalMemoryMap_shows m .spec128 0 0 rfl rfl rfl rfl (by omega)
  have shows := all i inside
  rcases inner with rfl | rfl
  · rwa [first i inside]
  · rwa [second i inside]

/-- What a reset clears before it maps. -/
structure Cleared (model : Model) (m cleared : Memory) : Prop where
  rom : cleared.rom = m.rom
  ram : cleared.ram = m.ram
  lastByte : cleared.lastByte = 0
  lastByte2 : model = .specplus3 → cleared.lastByte2 = 0
  locked : cleared.locked = 0
  writableRoms : cleared.writableRoms = m.writableRoms
  dirty : cleared.dirty = m.dirty
  refreshes : cleared.refreshes = m.refreshes

theorem commonReset_eq (m : Memory) (model : Model) :
    ∃ cleared, m.commonReset model = cleared.normalMemoryMap 0 0 ∧ Cleared model m cleared := by
  cases model with
  | spec128 => exact ⟨_, rfl, rfl, rfl, rfl, fun is => (nomatch is), rfl, rfl, rfl, rfl⟩
  | specplus3 => exact ⟨_, rfl, rfl, rfl, rfl, fun _ => rfl, rfl, rfl, rfl, rfl⟩

theorem commonReset_holds (m : Memory) :
    Holds model (m.commonReset model) ⟨m.rom, m.ram, 0, 0, m.writableRoms⟩ := by
  obtain ⟨cleared, reset, clears⟩ := commonReset_eq m model
  have kept := Remapped.normalMemoryMap cleared 0 0
  rw [reset]
  exact ⟨kept.rom.trans clears.rom, kept.ram.trans clears.ram, kept.lastByte.trans clears.lastByte,
    fun is => kept.lastByte2.trans (clears.lastByte2 is), kept.writableRoms.trans clears.writableRoms,
    normalMemoryMap_home cleared model⟩

theorem commonReset_locked (m : Memory) : (m.commonReset model).locked = 0 := by
  obtain ⟨cleared, reset, clears⟩ := commonReset_eq m model
  rw [reset]
  exact (Remapped.normalMemoryMap cleared 0 0).locked.trans clears.locked

/-! ### Bytes -/

/-- What an address of a slot is in its quarter. -/
theorem address_parts (address : BitVec 16) :
    (address >>> 11).toNat / 8 = address.toNat / 0x4000 ∧
      (address >>> 11).toNat % 8 * 0x800 + (address &&& 0x07ff).toNat = address.toNat % 0x4000 := by
  have slot : (address >>> 11).toNat = address.toNat / 0x800 := by
    rw [BitVec.toNat_ushiftRight, Nat.shiftRight_eq_div_pow]
  have offset : (address &&& 0x07ff).toNat = address.toNat % 0x800 := by
    rw [BitVec.toNat_and]
    exact Nat.and_two_pow_sub_one_eq_mod address.toNat 11
  rw [slot, offset]
  omega

/-- The two entries of an address are those of its quarter. -/
theorem Follows.entries (follows : Follows model m p) (address : BitVec 16) :
    m.mapRead (address >>> 11).toNat = slot model p.port p.port2 (address >>> 11).toNat ∧
      m.mapWrite (address >>> 11).toNat = slot model p.port p.port2 (address >>> 11).toNat := by
  refine follows.shows _ ?_ _ rfl
  have lt := address.isLt
  rw [(address_parts address).1]
  omega

theorem Follows.readbyte (follows : Follows model m p) (address : BitVec 16) :
    m.readbyte address = p.read model address := by
  obtain ⟨quarter, offset⟩ := address_parts address
  rw [Memory.readbyte, (follows.entries address).1, Memory.pageByte, Paged.read]
  simp only [slot, quarter, offset, follows.rom, follows.ram]
  rcases page model p.port p.port2 (address.toNat / 0x4000) with ⟨source, n⟩
  cases source <;> rfl

theorem displayDirty_data (m : Memory) (address : BitVec 16) (b : BitVec 8) :
    ∃ dirty, m.displayDirty address b = { m with dirty := dirty } := by
  dsimp only [Memory.displayDirty]
  split
  · exact ⟨_, rfl⟩
  · exact ⟨m.dirty, rfl⟩

theorem Follows.writebyte (follows : Follows model m p) (address : BitVec 16) (b : BitVec 8) :
    Follows model (m.writebyte address b) (p.write model address b) := by
  obtain ⟨quarter, offset⟩ := address_parts address
  obtain ⟨dirty, marked⟩ := displayDirty_data m address b
  rw [Memory.writebyte, marked, (follows.entries address).2, Paged.write]
  simp only [slot, Memory.putByte, quarter, offset]
  rcases page model p.port p.port2 (address.toNat / 0x4000) with ⟨source, n⟩
  cases source with
  | rom =>
    by_cases on : p.writableRoms = true
    · rw [if_pos (.inr ⟨by simp, follows.writableRoms.trans on⟩)]
      simp only [on, if_true]
      exact { follows with rom := by rw [follows.rom], writableRoms := follows.writableRoms.trans on }
    · have off : ¬m.writableRoms = true := by rwa [follows.writableRoms]
      rw [if_neg (by simp [off])]
      simp only [on]
      exact follows
  | ram =>
    rw [if_pos (.inl (by simp))]
    exact { follows with ram := by rw [follows.ram] }
  | none =>
    rw [if_neg (by simp)]
    exact follows

/-! ### Ports, resets and snapshots -/

theorem Follows.locked_iff (follows : Follows model m p) : m.locked ≠ 0 ↔ p.port.getLsbD 5 = true := by
  rw [follows.locked]
  exact lock_bit p.port

/-- Mapping leaves the lock alone. -/
theorem Holds.memoryMap_locked (holds : Holds model m p) (lock : m.locked = p.port &&& 0x20) :
    Follows model (m.memoryMap model) p := by
  have mapped := holds.memoryMap lock
  rw [← (Remapped.memoryMap m model).locked] at mapped
  exact mapped

theorem Follows.memoryportWrite (follows : Follows model m p) (b : BitVec 8) :
    Follows model (m.memoryportWrite model b)
      (if p.port.getLsbD 5 = true then p else { p with port := b }) := by
  rw [Memory.memoryportWrite]
  by_cases locked : p.port.getLsbD 5 = true
  · rw [if_pos locked, if_pos (follows.locked_iff.mpr locked)]
    exact follows
  · rw [if_neg locked, if_neg fun on => locked (follows.locked_iff.mp on)]
    have holds : Holds model { m with lastByte := b } { p with port := b } :=
      { follows.holds with lastByte := rfl }
    exact holds.memoryMap rfl

theorem Follows.memoryport2WriteInternal (follows : Follows .specplus3 m p) (b : BitVec 8) :
    Follows .specplus3 (m.memoryport2WriteInternal .specplus3 b) { p with port2 := b } := by
  have holds : Holds .specplus3 { m with lastByte2 := b } { p with port2 := b } :=
    { follows.holds with lastByte2 := fun _ => rfl }
  exact holds.memoryMap_locked follows.locked

theorem Follows.memoryport2Write (follows : Follows .specplus3 m p) (b : BitVec 8) :
    Follows .specplus3 (m.memoryport2Write .specplus3 b)
      (if p.port.getLsbD 5 = true then p else { p with port2 := b }) := by
  rw [Memory.memoryport2Write]
  by_cases locked : p.port.getLsbD 5 = true
  · rw [if_pos locked, if_pos (follows.locked_iff.mpr locked)]
    exact follows
  · rw [if_neg locked, if_neg fun on => locked (follows.locked_iff.mp on)]
    exact follows.memoryport2WriteInternal b

/-- The second port of the 128 is not there. -/
theorem Follows.port2 (follows : Follows .spec128 m p) (b : BitVec 8) :
    Follows .spec128 m { p with port2 := b } :=
  { follows with
    lastByte2 := fun is => (nomatch is)
    trapCheckRom := follows.trapCheckRom
    shows := follows.shows }

/-- Whatever the machine did before, it follows after a reset. -/
theorem machineReset_follows (m : Memory) (model : Model) (image : Nat → Nat → BitVec 8) :
    Follows model (m.machineReset model image) ⟨image, m.ram, 0, 0, m.writableRoms⟩ := by
  have holds : Holds model ({ m with rom := image }.commonReset model) ⟨image, m.ram, 0, 0, m.writableRoms⟩ :=
    commonReset_holds { m with rom := image }
  have lock : ({ m with rom := image }.commonReset model).locked = (0 : BitVec 8) &&& 0x20 := by
    rw [commonReset_locked]
    decide
  exact { holds.memoryMap_locked lock with }

theorem fromSnapshot_follows (follows : Follows model m p) (unlocked : p.port = 0) (snap : Snap) :
    Follows model (m.fromSnapshot model snap)
      { p with
        ram := fun i => if i < 64 then snap.pages i else p.ram i
        port := snap.out128Memoryport
        port2 := snap.outPlus3Memoryport } := by
  have first := follows.memoryportWrite snap.out128Memoryport
  have free : ¬p.port.getLsbD 5 = true := by simp [unlocked]
  rw [if_neg free] at first
  have ram := first.ram
  cases model with
  | spec128 => exact { first.port2 snap.outPlus3Memoryport with ram := by rw [← ram]; rfl }
  | specplus3 =>
    have second := first.memoryport2WriteInternal snap.outPlus3Memoryport
    exact { second with ram := by rw [← second.ram]; rfl }

theorem snapshotCopyFrom_follows (m : Memory) (model : Model) (image : Nat → Nat → BitVec 8) (snap : Snap) :
    Follows model (m.snapshotCopyFrom model image snap)
      ⟨image, fun i => if i < 64 then snap.pages i else m.ram i, snap.out128Memoryport, snap.outPlus3Memoryport,
        m.writableRoms⟩ := by
  have follows := fromSnapshot_follows (machineReset_follows m model image) rfl snap
  exact follows.holds.memoryMap_locked follows.locked

end Following

/-! ## Runs of both -/

section Running

variable {model : Model} {image : Nat → Nat → BitVec 8}

theorem Follows.step {m : Memory} {p : Paged} (follows : Follows model m p) (act : Act) :
    Follows model (step model image m act) (p.step model image act) := by
  cases act with
  | write address b => exact follows.writebyte address b
  | port b => exact follows.memoryportWrite b
  | port2 b =>
    cases model with
    | spec128 =>
      simp only [Paging.step, Paged.step]
      split
      · exact follows
      · exact follows.port2 b
    | specplus3 => exact follows.memoryport2Write b
  | writableRoms on => exact { follows with writableRoms := rfl }
  | reset =>
    have reset := machineReset_follows m model image
    rw [follows.ram, follows.writableRoms] at reset
    exact reset
  | load snap =>
    have loaded := snapshotCopyFrom_follows m model image snap
    rw [follows.ram, follows.writableRoms] at loaded
    exact loaded

theorem Follows.run {m : Memory} {p : Paged} (follows : Follows model m p) (acts : List Act) :
    Follows model (acts.foldl (Paging.step model image) m)
      (acts.foldl (fun p act => p.step model image act) p) := by
  induction acts generalizing m p with
  | nil => exact follows
  | cons act acts ih => exact ih (follows.step act)

/-- Whatever is written to the memory and to the ports, and however often the machine is reset or a snapshot is
loaded, the Z80 sees the quarters that the two ports say, the ports are locked when the sixth bit was written,
the screen that is drawn is the one of the port, and the tape traps are taken only from the ROM that has the tape
routines. -/
theorem run_follows (model : Model) (image : Nat → Nat → BitVec 8) (m : Memory) (acts : List Act) :
    let m' := acts.foldl (step model image) (m.machineReset model image)
    let p := acts.foldl (fun p act => p.step model image act) (Paged.mk image m.ram 0 0 m.writableRoms)
    (∀ address, m'.readbyte address = p.read model address) ∧
      m'.ram = p.ram ∧
      m'.rom = p.rom ∧
      (m'.locked ≠ 0 ↔ p.port.getLsbD 5 = true) ∧
      m'.currentScreen = screen p.port ∧
      (m'.trapCheckRom model = true ↔ page model p.port p.port2 0 = (.rom, tapeRom model)) := by
  intro m' p
  have follows : Follows model m' p := (machineReset_follows m model image).run acts
  exact ⟨follows.readbyte, follows.ram, follows.rom, follows.locked_iff, follows.currentScreen,
    follows.trapCheckRom⟩

end Running

/-! ## The screen is marked -/

/-- What is on the screen. -/
def Memory.shown (m : Memory) (offset : Nat) : BitVec 8 := m.ram m.currentScreen offset

/-- Between two moments `more` was marked: the whole screen was, or every byte of it that differs. -/
structure Marks (m m' : Memory) (more : List Nat) : Prop where
  dirty : m'.dirty = m.dirty ++ more
  refreshes : m.refreshes ≤ m'.refreshes
  covered : m.refreshes < m'.refreshes ∨ ∀ offset < 6912, m'.shown offset ≠ m.shown offset → offset ∈ more

theorem set_other (pages : Nat → Nat → BitVec 8) {page offset page' offset' : Nat} (b : BitVec 8)
    (other : page' ≠ page ∨ offset' ≠ offset) :
    set pages page offset b page' offset' = pages page' offset' := by
  unfold set
  rcases eq_or_ne page' page with rfl | ne
  · rw [Function.update_self]
    exact Function.update_of_ne (other.resolve_left (by simp)) _ _
  · rw [Function.update_of_ne ne]

theorem set_same (pages : Nat → Nat → BitVec 8) {page offset : Nat} {b : BitVec 8}
    (same : pages page offset = b) : set pages page offset b = pages := by
  rw [set, ← same, Function.update_eq_self, Function.update_eq_self]

namespace Marks

theorem refl (m : Memory) : Marks m m [] := by
  refine ⟨by simp, le_rfl, .inr ?_⟩
  intro offset lt differs
  exact absurd rfl differs

theorem trans {m m' m'' : Memory} {more more' : List Nat} (before : Marks m m' more)
    (after : Marks m' m'' more') : Marks m m'' (more ++ more') := by
  have early := before.refreshes
  have late := after.refreshes
  refine ⟨by rw [after.dirty, before.dirty, List.append_assoc], early.trans late, ?_⟩
  rcases before.covered with all | each
  · exact .inl (by omega)
  rcases after.covered with all | each'
  · exact .inl (by omega)
  refine .inr ?_
  intro offset lt differs
  by_cases changed : m'.shown offset = m.shown offset
  · exact List.mem_append_right _ (each' offset lt fun same => differs (same.trans changed))
  · exact List.mem_append_left _ (each offset lt changed)

theorem remapped {m m' : Memory} (mapped : Remapped m m') : Marks m m' [] := by
  refine ⟨by rw [mapped.dirty, List.append_nil], mapped.refreshes, ?_⟩
  rcases mapped.screen with same | all
  · refine .inr ?_
    intro offset lt differs
    simp [Memory.shown, same, mapped.ram] at differs
  · exact .inl all

theorem keeps {m m' : Memory} (dirty : m'.dirty = m.dirty) (refreshes : m'.refreshes = m.refreshes)
    (screen : m'.currentScreen = m.currentScreen) (ram : m'.ram = m.ram) : Marks m m' [] := by
  refine ⟨by rw [dirty, List.append_nil], refreshes.ge, .inr ?_⟩
  intro offset lt differs
  exact absurd (by rw [Memory.shown, Memory.shown, screen, ram]) differs

/-- A byte of the shown screen that changes is marked where it is in its page, not where it is in its slot. -/
theorem writebyte (m : Memory) (address : BitVec 16) (b : BitVec 8) :
    ∃ more, Marks m (m.writebyte address b) more := by
  rw [Memory.writebyte]
  generalize mapped : m.mapWrite (address >>> 11).toNat = mapping
  split
  case isFalse => exact ⟨[], refl m⟩
  case isTrue =>
    simp only [Memory.displayDirty, mapped]
    generalize (address &&& 0x07ff).toNat = offset
    cases kind : mapping.source with
    | rom =>
      simp only [Memory.putByte, kind, reduceCtorEq, false_and, if_false]
      exact ⟨[], keeps rfl rfl rfl rfl⟩
    | none => exact ⟨[], by simpa [Memory.putByte, kind] using refl m⟩
    | ram =>
      simp only [Memory.putByte, Memory.pageByte, kind, true_and]
      have place : offset + mapping.offset = mapping.offset + offset := Nat.add_comm _ _
      rw [place]
      generalize mapping.offset + offset = at_
      split
      case isTrue =>
        refine ⟨[at_], rfl, le_rfl, .inr ?_⟩
        intro other lt differs
        by_contra away
        have ne : other ≠ at_ := by simpa using away
        exact differs (set_other _ _ (.inr ne))
      case isFalse unmarked =>
        refine ⟨[], by simp, le_rfl, .inr ?_⟩
        intro other lt differs
        by_cases here : m.currentScreen = mapping.pageNum ∧ other = at_
        · obtain ⟨screen, rfl⟩ := here
          have inside : other &&& 0xffff < 6912 := by
            have low : other &&& 0xffff = other % 0x10000 := Nat.and_two_pow_sub_one_eq_mod other 16
            omega
          have same : m.ram mapping.pageNum other = b := by
            by_contra changes
            exact unmarked ⟨screen.symm, inside, changes⟩
          refine absurd ?_ differs
          simp only [Memory.shown, set_same m.ram same]
        · rw [not_and_or] at here
          exact absurd (set_other _ _ here) differs

theorem memoryportWrite (m : Memory) (model : Model) (b : BitVec 8) :
    Marks m (m.memoryportWrite model b) [] := by
  unfold Memory.memoryportWrite
  split
  · exact refl m
  · have mapped : Remapped { m with lastByte := b } ({ m with lastByte := b }.memoryMap model) :=
      Remapped.memoryMap _ model
    exact { remapped mapped with }

theorem memoryport2WriteInternal (m : Memory) (model : Model) (b : BitVec 8) :
    Marks m (m.memoryport2WriteInternal model b) [] := by
  have mapped : Remapped { m with lastByte2 := b } ({ m with lastByte2 := b }.memoryMap model) :=
    Remapped.memoryMap _ model
  exact { remapped mapped with }

theorem commonReset (m : Memory) (model : Model) :
    (m.commonReset model).dirty = m.dirty ∧ m.refreshes ≤ (m.commonReset model).refreshes := by
  obtain ⟨cleared, reset, clears⟩ := commonReset_eq m model
  have mapped := Remapped.normalMemoryMap cleared 0 0
  rw [reset, ← clears.refreshes]
  exact ⟨mapped.dirty.trans clears.dirty, mapped.refreshes⟩

/-- A reset marks the whole screen. -/
theorem machineReset (m : Memory) (model : Model) (image : Nat → Nat → BitVec 8) :
    (m.machineReset model image).dirty = m.dirty ∧ m.refreshes < (m.machineReset model image).refreshes := by
  have reset := commonReset { m with rom := image } model
  have mapped := Remapped.memoryMap ({ m with rom := image }.commonReset model) model
  exact ⟨mapped.dirty.trans reset.1, Nat.lt_succ_of_le (reset.2.trans mapped.refreshes)⟩

theorem fromSnapshot (m : Memory) (model : Model) (snap : Snap) :
    (m.fromSnapshot model snap).dirty = m.dirty ∧ m.refreshes ≤ (m.fromSnapshot model snap).refreshes := by
  have first := memoryportWrite m model snap.out128Memoryport
  cases model with
  | spec128 => exact ⟨first.dirty.trans (List.append_nil _), first.refreshes⟩
  | specplus3 =>
    have both := first.trans (memoryport2WriteInternal _ .specplus3 snap.outPlus3Memoryport)
    exact ⟨both.dirty.trans (List.append_nil _), both.refreshes⟩

/-- The bytes of a snapshot are copied without a mark, after the reset has marked them all. -/
theorem snapshotCopyFrom (m : Memory) (model : Model) (image : Nat → Nat → BitVec 8) (snap : Snap) :
    Marks m (m.snapshotCopyFrom model image snap) [] := by
  obtain ⟨dirty, marked⟩ := machineReset m model image
  obtain ⟨dirty', kept⟩ := fromSnapshot (m.machineReset model image) model snap
  have mapped := Remapped.memoryMap ((m.machineReset model image).fromSnapshot model snap) model
  have marked' := marked.trans_le (kept.trans mapped.refreshes)
  refine ⟨?_, marked'.le, .inl marked'⟩
  rw [List.append_nil]
  exact mapped.dirty.trans (dirty'.trans dirty)

theorem step (m : Memory) (model : Model) (image : Nat → Nat → BitVec 8) (act : Act) :
    ∃ more, Marks m (Paging.step model image m act) more := by
  cases act with
  | write address b => exact writebyte m address b
  | port b => exact ⟨[], memoryportWrite m model b⟩
  | port2 b =>
    cases model with
    | spec128 => exact ⟨[], refl m⟩
    | specplus3 =>
      simp only [Paging.step, Memory.memoryport2Write]
      split
      · exact ⟨[], refl m⟩
      · exact ⟨[], memoryport2WriteInternal m .specplus3 b⟩
  | writableRoms on => exact ⟨[], keeps rfl rfl rfl rfl⟩
  | reset =>
    obtain ⟨dirty, marked⟩ := machineReset m model image
    exact ⟨[], by rw [List.append_nil]; exact dirty, marked.le, .inl marked⟩
  | load snap => exact ⟨[], snapshotCopyFrom m model image snap⟩

theorem run (m : Memory) (model : Model) (image : Nat → Nat → BitVec 8) (acts : List Act) :
    ∃ more, Marks m (acts.foldl (Paging.step model image) m) more := by
  induction acts generalizing m with
  | nil => exact ⟨[], refl m⟩
  | cons act acts ih =>
    obtain ⟨more, first⟩ := step m model image act
    obtain ⟨more', rest⟩ := ih (Paging.step model image m act)
    exact ⟨more ++ more', first.trans rest⟩

end Marks

/-- Between any two moments of a run, the whole screen was marked to be drawn again, or every byte of the screen
that is shown now and differs from the one that was shown then was. -/
theorem screen_marked (model : Model) (image : Nat → Nat → BitVec 8) (m : Memory) (acts : List Act) :
    let m' := acts.foldl (step model image) m
    ∃ more, m'.dirty = m.dirty ++ more ∧
      (m.refreshes < m'.refreshes ∨
        ∀ offset < 6912, m'.ram m'.currentScreen offset ≠ m.ram m.currentScreen offset → offset ∈ more) := by
  obtain ⟨more, marks⟩ := Marks.run m model image acts
  exact ⟨more, marks.dirty, marks.covered⟩

/-! ## Snapshots are transparent -/

/-- Two memories look the same, and will after any step that writes no ROM. -/
structure Alike (model : Model) (p q : Paged) : Prop where
  rom : p.rom = q.rom
  ram : ∀ n < 8, p.ram n = q.ram n
  port : p.port = q.port
  port2 : model = .specplus3 → p.port2 = q.port2
  left : p.writableRoms = false
  right : q.writableRoms = false

/-- The ROMs stay as they are. -/
def Act.ReadOnly : Act → Prop
  | .writableRoms on => on = false
  | _ => True

section Transparent

variable {model : Model} {image : Nat → Nat → BitVec 8} {p q : Paged}

theorem page_lt (model : Model) (port port2 : BitVec 8) (quarter : Nat) (lt : quarter < 4) :
    (page model port port2 quarter).1 = .ram → (page model port port2 quarter).2 < 8 := by
  unfold page allRam
  interval_cases quarter <;> grind

theorem Alike.page (alike : Alike model p q) (quarter : Nat) :
    page model p.port p.port2 quarter = page model q.port q.port2 quarter := by
  rw [alike.port]
  cases model with
  | spec128 => simp [Paging.page]
  | specplus3 => rw [alike.port2 rfl]

theorem Alike.read (alike : Alike model p q) (address : BitVec 16) :
    p.read model address = q.read model address := by
  have lt : address.toNat / 0x4000 < 4 := by
    have := address.isLt
    omega
  have small := page_lt model q.port q.port2 _ lt
  rw [Paged.read, Paged.read, alike.page]
  generalize Paging.page model q.port q.port2 (address.toNat / 0x4000) = entry at small ⊢
  obtain ⟨source, n⟩ := entry
  cases source with
  | rom => rw [alike.rom]
  | ram =>
    dsimp only
    rw [alike.ram n (small rfl)]
  | none => rfl

theorem Alike.write (alike : Alike model p q) (address : BitVec 16) (b : BitVec 8) :
    Alike model (p.write model address b) (q.write model address b) := by
  rw [Paged.write, Paged.write, alike.page]
  rcases Paging.page model q.port q.port2 (address.toNat / 0x4000) with ⟨source, n⟩
  cases source with
  | rom => simpa [alike.left, alike.right] using alike
  | ram =>
    refine { alike with ram := ?_ }
    intro k lt
    simp only [set]
    by_cases same : k = n
    · subst same
      rw [Function.update_self, Function.update_self, alike.ram k lt]
    · rw [Function.update_of_ne same, Function.update_of_ne same, alike.ram k lt]
  | none => exact alike

theorem Alike.step (alike : Alike model p q) {act : Act} (only : act.ReadOnly) :
    Alike model (p.step model image act) (q.step model image act) := by
  cases act with
  | write address b => exact alike.write address b
  | port b =>
    simp only [Paged.step, alike.port]
    split
    · exact { alike with }
    · exact { alike with port := rfl }
  | port2 b =>
    simp only [Paged.step, alike.port]
    split
    · exact { alike with }
    · exact { alike with port := rfl, port2 := fun _ => rfl }
  | writableRoms on =>
    cases only
    exact { alike with left := rfl, right := rfl }
  | reset => exact { alike with rom := rfl, port := rfl, port2 := fun _ => rfl }
  | load snap =>
    refine { alike with rom := rfl, ram := ?_, port := rfl, port2 := fun _ => rfl }
    intro n lt
    have copied : n < 64 := by omega
    simp only [Paged.step, if_pos copied]

theorem Alike.run (alike : Alike model p q) {acts : List Act} (only : ∀ act ∈ acts, act.ReadOnly) :
    Alike model (acts.foldl (fun p act => p.step model image act) p)
      (acts.foldl (fun p act => p.step model image act) q) := by
  induction acts generalizing p q with
  | nil => exact alike
  | cons act acts ih =>
    have first : Alike model (p.step model image act) (q.step model image act) :=
      alike.step (only act (List.mem_cons_self ..))
    exact ih first fun later mem => only later (List.mem_cons_of_mem _ mem)

/-- No step writes a ROM. -/
theorem readOnly_step (model : Model) {act : Act} (only : act.ReadOnly) (rom : p.rom = image)
    (off : p.writableRoms = false) :
    (p.step model image act).rom = image ∧ (p.step model image act).writableRoms = false := by
  cases act with
  | write address b =>
    simp only [Paged.step, Paged.write]
    split <;> simp [off, rom]
  | port b =>
    simp only [Paged.step]
    split <;> exact ⟨rom, off⟩
  | port2 b =>
    simp only [Paged.step]
    split <;> exact ⟨rom, off⟩
  | writableRoms on =>
    cases only
    exact ⟨rom, rfl⟩
  | reset => exact ⟨rfl, off⟩
  | load snap => exact ⟨rfl, off⟩

theorem readOnly_run (model : Model) {acts : List Act} (only : ∀ act ∈ acts, act.ReadOnly) (rom : p.rom = image)
    (off : p.writableRoms = false) :
    (acts.foldl (fun p act => p.step model image act) p).rom = image ∧
      (acts.foldl (fun p act => p.step model image act) p).writableRoms = false := by
  induction acts generalizing p with
  | nil => exact ⟨rom, off⟩
  | cons act acts ih =>
    obtain ⟨rom', off'⟩ := readOnly_step model (only act (List.mem_cons_self ..)) rom off
    exact ih (fun later mem => only later (List.mem_cons_of_mem _ mem)) rom' off'

end Transparent

/-- A snapshot is transparent: whatever a machine has done, another one that loads its snapshot sees the same
memory, and goes on seeing the same whatever both do then. -/
theorem snapshot_transparent (model : Model) (image : Nat → Nat → BitVec 8) (m other : Memory)
    (acts acts' later : List Act) (off : m.writableRoms = false) (off' : other.writableRoms = false)
    (only : ∀ act ∈ acts ++ acts' ++ later, act.ReadOnly) :
    let taken := acts.foldl (step model image) (m.machineReset model image)
    let loaded := (acts'.foldl (step model image) (other.machineReset model image)).snapshotCopyFrom model image
      taken.toSnapshot
    ∀ address,
      (later.foldl (step model image) loaded).readbyte address =
        (later.foldl (step model image) taken).readbyte address := by
  intro taken loaded address
  simp only [List.mem_append, or_imp, forall_and] at only
  obtain ⟨⟨only_taken, only_other⟩, only_later⟩ := only
  have takenFollows : Follows model taken
      (acts.foldl (fun p act => p.step model image act) ⟨image, m.ram, 0, 0, m.writableRoms⟩) :=
    (machineReset_follows m model image).run acts
  have otherFollows : Follows model (acts'.foldl (step model image) (other.machineReset model image))
      (acts'.foldl (fun p act => p.step model image act) ⟨image, other.ram, 0, 0, other.writableRoms⟩) :=
    (machineReset_follows other model image).run acts'
  have loadedFollows := snapshotCopyFrom_follows
    (acts'.foldl (step model image) (other.machineReset model image)) model image taken.toSnapshot
  obtain ⟨rom, taken_off⟩ :=
    readOnly_run (p := ⟨image, m.ram, 0, 0, m.writableRoms⟩) model only_taken rfl off
  obtain ⟨-, other_off⟩ :=
    readOnly_run (p := ⟨image, other.ram, 0, 0, other.writableRoms⟩) model only_other rfl off'
  rw [(loadedFollows.run later).readbyte address, (takenFollows.run later).readbyte address]
  refine (Alike.run ?_ only_later).read address
  refine ⟨rom.symm, ?_, takenFollows.lastByte, takenFollows.lastByte2,
    otherFollows.writableRoms.trans other_off, taken_off⟩
  intro n lt
  have copied : n < 64 := by omega
  rw [← takenFollows.ram]
  exact if_pos copied

/-- A machine with its memory empty. -/
def blank : Memory where
  rom _ _ := 0
  ram _ _ := 0
  mapRead := memoryMapRam
  mapWrite := memoryMapRam
  lastByte := 0
  lastByte2 := 0
  locked := 0
  special := 0
  currentPage := 0
  currentRom := 0
  currentScreen := 5
  writableRoms := false
  dirty := []
  refreshes := 0

theorem snapshot_transparent_plus3 :
    let image := fun page _ => BitVec.ofNat 8 page
    let taken := [Act.port 0x17, .write 0xc000 0x55].foldl (step .specplus3 image)
      (blank.machineReset .specplus3 image)
    let loaded := ([Act.port2 0x01].foldl (step .specplus3 image)
      (blank.machineReset .specplus3 image)).snapshotCopyFrom .specplus3 image taken.toSnapshot
    ∀ address,
      ([Act.port2 0x04, .write 0xffff 0x01].foldl (step .specplus3 image) loaded).readbyte address =
        ([Act.port2 0x04, .write 0xffff 0x01].foldl (step .specplus3 image) taken).readbyte address :=
  snapshot_transparent .specplus3 _ blank blank [.port 0x17, .write 0xc000 0x55] [.port2 0x01]
    [.port2 0x04, .write 0xffff 0x01] rfl rfl (by simp [Act.ReadOnly])

end FuseX.Hardware.Paging
