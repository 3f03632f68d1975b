import FuseX.Lib.Orbits
import FuseX.Spectranet.Config
import Mathlib.Order.Interval.Finset.Nat

/-!
# Scanning the configuration page

The scans with the number of turns they are given and the places that they look at. Whatever the
page holds, the walk over the sections looks at places in the page only, and the scan of the items
ends. But the sizes of sections may lead the 16-bit pointer back to a section it was at, and then
the walk does not end; and the size of the section that is found may lead the scan of its items out
of the page (`scans_iff`).
-/

namespace FuseX.Spectranet

open Lib

namespace Config

variable (memory : Nat → UInt8)

/-! ## The walk over the sections -/

/-- The places of a word. -/
def wordPlaces (offset : Nat) : List Nat := [offset, offset + 1]

/-- The places that a walk looks at. -/
def walkPlaces (totalSize : Nat) (sectionId : UInt16) : Nat → Nat → List Nat
  | 0, _ => []
  | turns + 1, pointer =>
      if pointer < totalSize ∧ pointer < configPageSize - 4 then
        if readUint16 memory pointer = sectionId.toNat then wordPlaces pointer
        else
          wordPlaces pointer ++ wordPlaces (pointer + 2) ++
            walkPlaces totalSize sectionId turns
              ((pointer + 4 + readUint16 memory (pointer + 2)) % 2 ^ 16)
      else []

/-- `find_section` in so many turns of its loop. -/
def findSectionTurns (sectionId : UInt16) (turns : Nat) : Option (Option (Nat × Nat)) := do
  let (found, pointer) ← walkSections memory (readUint16 memory 0) sectionId turns 2
  return if found then some (pointer + 2, readUint16 memory (pointer + 2)) else none

def findSectionPlaces (sectionId : UInt16) (turns : Nat) : List Nat :=
  wordPlaces 0 ++ walkPlaces memory (readUint16 memory 0) sectionId turns 2 ++
    match findSectionTurns memory sectionId turns with
    | some (some (start, _)) => wordPlaces start
    | _ => []

/-- `find_section_insertion_point` in so many turns of its loop. -/
def insertionPointTurns (sectionId : UInt16) (turns : Nat) : Option Nat := do
  let totalSize := readUint16 memory 0
  if totalSize = 0 ∨ totalSize = 0xFFFF ∨ configPageSize ≤ totalSize then return 2
  let (_, pointer) ← walkSections memory totalSize sectionId turns 2
  return pointer

def insertionPointPlaces (sectionId : UInt16) (turns : Nat) : List Nat :=
  let totalSize := readUint16 memory 0
  wordPlaces 0 ++
    if totalSize = 0 ∨ totalSize = 0xFFFF ∨ configPageSize ≤ totalSize then []
    else walkPlaces memory totalSize sectionId turns 2

/-! ## The scan of the items -/

/-- The places of a string that are looked at for its end. -/
def stringPlaces : Nat → Nat → List Nat
  | 0, _ => []
  | left + 1, pointer =>
      pointer :: if memory pointer ≠ 0 then stringPlaces left (pointer + 1) else []

/-- The places of an item that are looked at. -/
def itemPlaces (stop pointer : Nat) : List Nat :=
  pointer ::
    if memory pointer &&& typeMask = typeString then
      stringPlaces memory (stop - (pointer + 1)) (pointer + 1)
    else []

/-- What `find_item` returns for the item at `pointer`. -/
def itemHere (stop pointer : Nat) : Option (UInt8 × Nat × Nat) :=
  let type := memory pointer &&& typeMask
  let pointer := pointer + 1
  if type = typeString then
    some (type, pointer, stringEnd memory (stop - pointer) pointer - pointer + 1)
  else if type = typeByte then some (type, pointer, 1)
  else if type = typeInt then some (type, pointer, 2)
  else none

/-- Where the item behind the one at `pointer` begins. -/
def nextItem (stop pointer : Nat) : Nat :=
  let type := memory pointer &&& typeMask
  let pointer := pointer + 1
  if type = typeString then stringEnd memory (stop - pointer) pointer + 1
  else if type = typeByte then pointer + 1
  else if type = typeInt then pointer + 2
  else pointer

/-- `find_item` in so many turns of its outer loop: what it returns, and the places it looks
at. -/
def findItemTurns (stop : Nat) (itemId : UInt8) :
    Nat → Nat → Option (Option (UInt8 × Nat × Nat) × List Nat)
  | 0, pointer => if stop ≤ pointer then some (none, []) else none
  | turns + 1, pointer =>
      if stop ≤ pointer then some (none, [])
      else if memory pointer = itemId then
        some (itemHere memory stop pointer, itemPlaces memory stop pointer)
      else
        (findItemTurns stop itemId turns (nextItem memory stop pointer)).map fun rest =>
          (rest.1, itemPlaces memory stop pointer ++ rest.2)

/-! ## What is asked of the scans -/

/-- The scans end, and look at places in the page only; the scan of the items is one of those of
the section that is found. -/
structure Scans (sectionId : UInt16) (itemId : UInt8) : Prop where
  sectionEnds : ∃ turns, (findSectionTurns memory sectionId turns).isSome = true
  sectionPlaces : ∀ turns, ∀ place ∈ findSectionPlaces memory sectionId turns,
    place < configPageSize
  insertionEnds : ∃ turns, (insertionPointTurns memory sectionId turns).isSome = true
  insertionPlaces : ∀ turns, ∀ place ∈ insertionPointPlaces memory sectionId turns,
    place < configPageSize
  item : ∀ turns start size, findSectionTurns memory sectionId turns = some (some (start, size)) →
    ∃ turns' found places,
      findItemTurns memory (start + 2 + size) itemId turns' (start + 2) = some (found, places) ∧
        ∀ place ∈ places, place < configPageSize

/-! ## When the page can be scanned -/

/-- Where the header behind the one at `pointer` begins, as a 16-bit pointer. -/
def nextHeader (pointer : Nat) : Nat :=
  (pointer + 4 + readUint16 memory (pointer + 2)) % 2 ^ 16

/-- There is a header at `pointer` of another section. -/
def OtherHeader (sectionId : UInt16) (pointer : Nat) : Prop :=
  pointer < readUint16 memory 0 ∧ pointer < configPageSize - 4 ∧
    readUint16 memory pointer ≠ sectionId.toNat

/-- The section's header is at `pointer`, behind other headers. -/
def HeaderAt (sectionId : UInt16) (pointer : Nat) : Prop :=
  (∃ k, (nextHeader memory)^[k] 2 = pointer ∧
    ∀ j < k, OtherHeader memory sectionId ((nextHeader memory)^[j] 2)) ∧
  pointer < readUint16 memory 0 ∧ pointer < configPageSize - 4 ∧
    readUint16 memory pointer = sectionId.toNat

/-- The item at `pointer` begins in the page, and if it is a string it has no byte outside of the
page up to its zero byte or the end of the section. -/
def ItemInPage (stop pointer : Nat) : Prop :=
  pointer < configPageSize ∧
    (memory pointer &&& typeMask = typeString → ∀ place, pointer < place → place < stop →
      (∀ before, pointer < before → before < place → memory before ≠ 0) → place < configPageSize)

/-- The items from `first` on, up to the wanted one, are in the page. -/
def ItemsInPage (stop : Nat) (itemId : UInt8) (first : Nat) : Prop :=
  ∀ k, (∀ j < k, (nextItem memory stop)^[j] first < stop ∧
      memory ((nextItem memory stop)^[j] first) ≠ itemId) →
    (nextItem memory stop)^[k] first < stop →
    ItemInPage memory stop ((nextItem memory stop)^[k] first)

/-- The sizes of the sections lead to no header twice, and the items of the section up to the
wanted one are in the page. -/
structure Scannable (sectionId : UInt16) (itemId : UInt8) : Prop where
  headers : ¬ ComesBack (nextHeader memory) (OtherHeader memory sectionId) 2
  items : ∀ pointer, HeaderAt memory sectionId pointer →
    ItemsInPage memory (pointer + 4 + readUint16 memory (pointer + 2)) itemId (pointer + 4)

variable {memory} {sectionId : UInt16} {itemId : UInt8} {stop : Nat}

/-! ## The walk -/

/-- Where a walk stands after some turns. -/
theorem walkSections_eq {turns pointer : Nat} {stopped : Bool × Nat}
    (ends : walkSections memory (readUint16 memory 0) sectionId turns pointer = some stopped) :
    ∃ k < turns, (∀ j < k, OtherHeader memory sectionId ((nextHeader memory)^[j] pointer)) ∧
      ¬ OtherHeader memory sectionId stopped.2 ∧ (nextHeader memory)^[k] pointer = stopped.2 ∧
      (stopped.1 = true ↔ stopped.2 < readUint16 memory 0 ∧ stopped.2 < configPageSize - 4 ∧
        readUint16 memory stopped.2 = sectionId.toNat) := by
  induction turns generalizing pointer with
  | zero => cases ends
  | succ turns ih =>
    rw [walkSections] at ends
    split at ends
    · next inside =>
      split at ends
      · next here =>
        cases ends
        exact ⟨0, Nat.succ_pos _, nofun, fun other => other.2.2 here, rfl,
          iff_of_true rfl ⟨inside.1, inside.2, here⟩⟩
      · next there =>
        obtain ⟨k, bound, passed, stops, place, found⟩ := ih ends
        refine ⟨k + 1, Nat.succ_lt_succ bound, fun j before => ?_, stops, place, found⟩
        cases j with
        | zero => exact ⟨inside.1, inside.2, there⟩
        | succ j => exact passed j (Nat.lt_of_succ_lt_succ before)
    · next outside =>
      cases ends
      exact ⟨0, Nat.succ_pos _, nofun, fun other => outside ⟨other.1, other.2.1⟩, rfl,
        iff_of_false Bool.false_ne_true fun here => outside ⟨here.1, here.2.1⟩⟩

theorem walkSections_ends {k turns pointer : Nat} (bound : k < turns)
    (stops : ¬ OtherHeader memory sectionId ((nextHeader memory)^[k] pointer)) :
    (walkSections memory (readUint16 memory 0) sectionId turns pointer).isSome = true := by
  induction turns generalizing k pointer with
  | zero => cases bound
  | succ turns ih =>
    rw [walkSections]
    split
    · next inside =>
      split
      · rfl
      · next there =>
        cases k with
        | zero => exact absurd ⟨inside.1, inside.2, there⟩ stops
        | succ k => exact ih (Nat.lt_of_succ_lt_succ bound) stops
    · rfl

theorem walk_halts : (∃ turns,
      (walkSections memory (readUint16 memory 0) sectionId turns 2).isSome = true) ↔
    Halts (nextHeader memory) (OtherHeader memory sectionId) 2 := by
  constructor
  · rintro ⟨turns, ends⟩
    obtain ⟨stopped, ends⟩ := Option.isSome_iff_exists.mp ends
    obtain ⟨k, -, -, stops, place, -⟩ := walkSections_eq ends
    exact ⟨k, place ▸ stops⟩
  · rintro ⟨k, stops⟩
    exact ⟨k + 1, walkSections_ends (Nat.lt_succ_self k) stops⟩

theorem walkPlaces_inPage {total turns pointer place : Nat}
    (looked : place ∈ walkPlaces memory total sectionId turns pointer) : place < configPageSize := by
  induction turns generalizing pointer with
  | zero => cases looked
  | succ turns ih =>
    rw [walkPlaces] at looked
    split at looked
    · next inside =>
      have bound : pointer + 4 < configPageSize := by
        have size : configPageSize = 4096 := rfl
        omega
      split at looked
      · simp only [wordPlaces, List.mem_cons, List.not_mem_nil, or_false] at looked
        omega
      · simp only [wordPlaces, List.mem_append, List.mem_cons, List.not_mem_nil, or_false] at looked
        rcases looked with looked | later
        · omega
        · exact ih later
    · cases looked

theorem findSectionTurns_eq {turns : Nat} :
    findSectionTurns memory sectionId turns =
      (walkSections memory (readUint16 memory 0) sectionId turns 2).map fun stopped =>
        if stopped.1 then some (stopped.2 + 2, readUint16 memory (stopped.2 + 2)) else none := by
  unfold findSectionTurns
  cases walkSections memory (readUint16 memory 0) sectionId turns 2 <;> rfl

theorem findSectionTurns_headerAt {turns start size : Nat}
    (found : findSectionTurns memory sectionId turns = some (some (start, size))) :
    ∃ pointer, HeaderAt memory sectionId pointer ∧ start = pointer + 2 ∧
      size = readUint16 memory (pointer + 2) := by
  rw [findSectionTurns_eq] at found
  obtain ⟨stopped, ends, found⟩ := Option.map_eq_some_iff.mp found
  obtain ⟨k, -, passed, -, place, here⟩ := walkSections_eq ends
  split at found
  · next isHere =>
    cases found
    exact ⟨stopped.2, ⟨⟨k, place, passed⟩, here.mp isHere⟩, rfl, rfl⟩
  · cases found

theorem HeaderAt.findSectionTurns {pointer : Nat} (header : HeaderAt memory sectionId pointer) :
    ∃ turns, findSectionTurns memory sectionId turns =
      some (some (pointer + 2, readUint16 memory (pointer + 2))) := by
  obtain ⟨⟨k, place, passed⟩, here⟩ := header
  have stops : ¬ OtherHeader memory sectionId ((nextHeader memory)^[k] 2) := by
    rw [place]
    exact fun other => other.2.2 here.2.2
  obtain ⟨stopped, ends⟩ :=
    Option.isSome_iff_exists.mp (walkSections_ends (Nat.lt_succ_self k) stops)
  obtain ⟨k', -, passed', stops', place', here'⟩ := walkSections_eq ends
  have same : k' = k := by
    rcases Nat.lt_trichotomy k' k with before | same | behind
    · exact absurd (place' ▸ passed k' before) stops'
    · exact same
    · exact absurd (passed' k behind) stops
  rw [same, place] at place'
  refine ⟨k + 1, ?_⟩
  rw [findSectionTurns_eq, ends, Option.map_some, if_pos (here'.mpr (place' ▸ here)), ← place']

theorem findSectionPlaces_inPage {turns place : Nat}
    (looked : place ∈ findSectionPlaces memory sectionId turns) : place < configPageSize := by
  unfold findSectionPlaces at looked
  have size : configPageSize = 4096 := rfl
  rcases List.mem_append.mp looked with front | last
  · rcases List.mem_append.mp front with first | walk
    · simp only [wordPlaces, List.mem_cons, List.not_mem_nil, or_false] at first
      omega
    · exact walkPlaces_inPage walk
  · split at last
    · next start _ found =>
      obtain ⟨pointer, header, rfl, -⟩ := findSectionTurns_headerAt found
      have bound := header.2.2.1
      simp only [wordPlaces, List.mem_cons, List.not_mem_nil, or_false] at last
      omega
    · cases last

theorem insertionPointPlaces_inPage {turns place : Nat}
    (looked : place ∈ insertionPointPlaces memory sectionId turns) : place < configPageSize := by
  unfold insertionPointPlaces at looked
  have size : configPageSize = 4096 := rfl
  rcases List.mem_append.mp looked with first | walk
  · simp only [wordPlaces, List.mem_cons, List.not_mem_nil, or_false] at first
    omega
  · split at walk
    · cases walk
    · exact walkPlaces_inPage walk

theorem insertionPoint_ends {turns : Nat}
    (ends : (walkSections memory (readUint16 memory 0) sectionId turns 2).isSome = true) :
    (insertionPointTurns memory sectionId turns).isSome = true := by
  obtain ⟨stopped, ends⟩ := Option.isSome_iff_exists.mp ends
  unfold insertionPointTurns
  dsimp only
  split
  · rfl
  · rw [ends]
    rfl

/-! ## The items -/

theorem le_stringEnd (left pointer : Nat) : pointer ≤ stringEnd memory left pointer := by
  induction left generalizing pointer with
  | zero => exact Nat.le_refl _
  | succ left ih =>
    rw [stringEnd]
    split
    · exact Nat.le_of_succ_le (ih (pointer + 1))
    · exact Nat.le_refl _

theorem lt_nextItem (pointer : Nat) : pointer < nextItem memory stop pointer := by
  have string := @le_stringEnd memory (stop - (pointer + 1)) (pointer + 1)
  unfold nextItem
  dsimp only
  split
  · omega
  · split
    · omega
    · split <;> omega

/-- The scan of the items ends, whatever they are. -/
theorem findItemTurns_ends {turns pointer : Nat} (enough : stop - pointer ≤ turns) :
    ∃ found places, findItemTurns memory stop itemId turns pointer = some (found, places) := by
  induction turns generalizing pointer with
  | zero =>
    rw [findItemTurns, if_pos (by omega)]
    exact ⟨none, [], rfl⟩
  | succ turns ih =>
    rw [findItemTurns]
    split
    · exact ⟨none, [], rfl⟩
    · split
      · exact ⟨_, _, rfl⟩
      · have further := @lt_nextItem memory stop pointer
        obtain ⟨found, places, rest⟩ := @ih (nextItem memory stop pointer) (by omega)
        rw [rest]
        exact ⟨_, _, rfl⟩

theorem mem_stringPlaces {left pointer place : Nat} :
    place ∈ stringPlaces memory left pointer ↔ pointer ≤ place ∧ place < pointer + left ∧
      ∀ before, pointer ≤ before → before < place → memory before ≠ 0 := by
  induction left generalizing pointer with
  | zero =>
    refine iff_of_false List.not_mem_nil fun inside => ?_
    omega
  | succ left ih =>
    rw [stringPlaces, List.mem_cons]
    constructor
    · rintro (rfl | later)
      · exact ⟨Nat.le_refl _, by omega, fun before low high => absurd high (by omega)⟩
      · split at later
        · next goesOn =>
          obtain ⟨low, high, nonzero⟩ := ih.mp later
          refine ⟨by omega, by omega, fun before first last => ?_⟩
          rcases Nat.eq_or_lt_of_le first with rfl | behind
          · exact goesOn
          · exact nonzero before behind last
        · cases later
    · rintro ⟨low, high, nonzero⟩
      rcases Nat.eq_or_lt_of_le low with rfl | behind
      · exact .inl rfl
      · refine .inr ?_
        rw [if_pos (nonzero pointer (Nat.le_refl _) behind)]
        exact ih.mpr ⟨behind, by omega, fun before first last => nonzero before (by omega) last⟩

theorem itemPlaces_inPage {pointer : Nat} (inside : pointer < stop) :
    (∀ place ∈ itemPlaces memory stop pointer, place < configPageSize) ↔
      ItemInPage memory stop pointer := by
  unfold itemPlaces ItemInPage
  rw [List.forall_mem_cons]
  refine and_congr_right fun _ => ?_
  split
  · next string =>
    constructor
    · intro all _ place low high nonzero
      exact all place (mem_stringPlaces.mpr ⟨low, by omega, nonzero⟩)
    · intro all place looked
      obtain ⟨low, high, nonzero⟩ := mem_stringPlaces.mp looked
      exact all string place low (by omega) nonzero
  · next other => exact ⟨fun _ string => absurd string other, fun _ => nofun⟩

theorem itemsInPage_stop {first : Nat} (outside : stop ≤ first) :
    ItemsInPage memory stop itemId first := by
  intro k passed inside
  cases k with
  | zero => exact absurd inside (Nat.not_lt.mpr outside)
  | succ k => exact absurd (passed 0 (Nat.succ_pos k)).1 (Nat.not_lt.mpr outside)

/-- The first item, and those behind it unless it is the wanted one. -/
theorem itemsInPage_iff {first : Nat} (inside : first < stop) :
    ItemsInPage memory stop itemId first ↔ ItemInPage memory stop first ∧
      (memory first ≠ itemId → ItemsInPage memory stop itemId (nextItem memory stop first)) := by
  constructor
  · intro all
    refine ⟨all 0 nofun inside, fun other k passed => ?_⟩
    refine all (k + 1) fun j before => ?_
    cases j with
    | zero => exact ⟨inside, other⟩
    | succ j => exact passed j (Nat.lt_of_succ_lt_succ before)
  · rintro ⟨here, later⟩ k passed
    cases k with
    | zero => exact fun _ => here
    | succ k =>
      exact later (passed 0 (Nat.succ_pos k)).2 k fun j before =>
        passed (j + 1) (Nat.succ_lt_succ before)

theorem findItemTurns_inPage {turns pointer : Nat} {found : Option (UInt8 × Nat × Nat)}
    {places : List Nat}
    (ends : findItemTurns memory stop itemId turns pointer = some (found, places)) :
    (∀ place ∈ places, place < configPageSize) ↔ ItemsInPage memory stop itemId pointer := by
  induction turns generalizing pointer found places with
  | zero =>
    rw [findItemTurns] at ends
    split at ends
    · next past =>
      cases ends
      exact iff_of_true nofun (itemsInPage_stop past)
    · cases ends
  | succ turns ih =>
    rw [findItemTurns] at ends
    split at ends
    · next past =>
      cases ends
      exact iff_of_true nofun (itemsInPage_stop past)
    · next notPast =>
      have inside := Nat.not_le.mp notPast
      rw [itemsInPage_iff inside]
      split at ends
      · next here =>
        cases ends
        rw [itemPlaces_inPage inside]
        exact ⟨fun inPage => ⟨inPage, fun other => absurd here other⟩, fun inPage => inPage.1⟩
      · next other =>
        obtain ⟨rest, later, same⟩ := Option.map_eq_some_iff.mp ends
        cases same
        rw [List.forall_mem_append, itemPlaces_inPage inside, ih later]
        exact and_congr_right fun _ =>
          ⟨fun inPage _ => inPage, fun inPage => inPage other⟩

/-- The scan of the items ends, and looks at the page only when they are in it. -/
theorem findItem_inPage {pointer : Nat} :
    (∃ turns found places, findItemTurns memory stop itemId turns pointer = some (found, places) ∧
        ∀ place ∈ places, place < configPageSize) ↔ ItemsInPage memory stop itemId pointer := by
  constructor
  · rintro ⟨turns, found, places, ends, inPage⟩
    exact (findItemTurns_inPage ends).mp inPage
  · intro inPage
    obtain ⟨found, places, ends⟩ :=
      @findItemTurns_ends memory itemId stop (stop - pointer) pointer (Nat.le_refl _)
    exact ⟨_, found, places, ends, (findItemTurns_inPage ends).mpr inPage⟩

/-! ## The turns there are -/

/-- A walk that ends does so in the turns that `find_section` has. -/
theorem walk_configPageSize {turns : Nat}
    (ends : (walkSections memory (readUint16 memory 0) sectionId turns 2).isSome = true) :
    (walkSections memory (readUint16 memory 0) sectionId configPageSize 2).isSome = true := by
  have below : ∀ p, OtherHeader memory sectionId p → p < configPageSize - 4 :=
    fun p other => other.2.1
  obtain ⟨k, early, stops⟩ := halts_within below (walk_halts.mp ⟨turns, ends⟩)
  have size : configPageSize = 4096 := rfl
  exact walkSections_ends (by omega) stops

/-- `find_section` has a result exactly when its loop ends. -/
theorem findSection_isSome : (findSection memory sectionId).isSome = true ↔
    ∃ turns, (findSectionTurns memory sectionId turns).isSome = true := by
  constructor
  · exact fun ends => ⟨configPageSize, ends⟩
  · rintro ⟨turns, ends⟩
    rw [findSectionTurns_eq, Option.isSome_map] at ends
    have all : (findSectionTurns memory sectionId configPageSize).isSome = true := by
      rw [findSectionTurns_eq, Option.isSome_map]
      exact walk_configPageSize ends
    exact all

theorem findItemTurns_findItemLoop {turns pointer : Nat} {found : Option (UInt8 × Nat × Nat)}
    {places : List Nat}
    (ends : findItemTurns memory stop itemId turns pointer = some (found, places)) :
    findItemLoop memory stop itemId turns pointer = found := by
  induction turns generalizing pointer found places with
  | zero =>
    rw [findItemTurns] at ends
    split at ends
    · cases ends
      rfl
    · cases ends
  | succ turns ih =>
    rw [findItemTurns] at ends
    rw [findItemLoop]
    split at ends
    · next past =>
      cases ends
      exact if_pos past
    · next notPast =>
      rw [if_neg notPast]
      split at ends
      · next here =>
        cases ends
        dsimp only
        rw [if_pos here]
        rfl
      · next other =>
        obtain ⟨rest, later, same⟩ := Option.map_eq_some_iff.mp ends
        cases same
        dsimp only
        rw [if_neg other, ← ih later]
        unfold nextItem
        dsimp only
        split
        · rfl
        · split
          · rfl
          · split <;> rfl

/-- `find_item` is the scan in as many turns as the section has bytes. -/
theorem findItemTurns_findItem {start size : Nat} : ∃ places,
    findItemTurns memory (start + 2 + size) itemId size (start + 2) =
      some (findItem memory start size itemId, places) := by
  obtain ⟨found, places, ends⟩ :=
    @findItemTurns_ends memory itemId (start + 2 + size) size (start + 2) (by omega)
  refine ⟨places, ?_⟩
  rw [ends, ← findItemTurns_findItemLoop ends]
  rfl

/-! ## The scans -/

/-- The scans end and stay in the page exactly when no section's size leads back and the items
are in the page. -/
theorem scans_iff : Scans memory sectionId itemId ↔ Scannable memory sectionId itemId := by
  have finite : {pointer | OtherHeader memory sectionId pointer}.Finite :=
    (Set.finite_Iio (configPageSize - 4)).subset fun pointer other => other.2.1
  constructor
  · intro scans
    refine ⟨(halts_iff finite).mp ?_, fun pointer header => ?_⟩
    · obtain ⟨turns, ends⟩ := scans.sectionEnds
      rw [findSectionTurns_eq, Option.isSome_map] at ends
      exact walk_halts.mp ⟨turns, ends⟩
    · obtain ⟨turns, found⟩ := header.findSectionTurns
      have item := findItem_inPage.mp (scans.item turns _ _ found)
      exact item
  · intro scannable
    obtain ⟨turns, ends⟩ := walk_halts.mpr ((halts_iff finite).mpr scannable.headers)
    refine ⟨⟨turns, ?_⟩, fun _ _ => findSectionPlaces_inPage, ⟨turns, insertionPoint_ends ends⟩,
      fun _ _ => insertionPointPlaces_inPage, fun turns' start size found => ?_⟩
    · rw [findSectionTurns_eq, Option.isSome_map]
      exact ends
    · obtain ⟨pointer, header, rfl, rfl⟩ := findSectionTurns_headerAt found
      exact findItem_inPage.mpr (scannable.items pointer header)

/-- A page whose only section has a size that leads from 2 to 2. -/
def endlessPage : Nat → UInt8 := overwrite (fun _ => 0) 0 [100, 0, 1, 0, 0xFC, 0xFF]

/-- A page whose second section begins five bytes before the end, with a string that goes on
behind it. -/
def straddlingPage : Nat → UInt8 :=
  overwrite (overwrite (fun _ => 0) 0 [0x00, 0x10, 9, 0, 0xF5, 0x0F]) 4091 [1, 0, 5, 0, 0x02]

theorem scan_endless :
    (∀ turns, findSectionTurns endlessPage 2 turns = none) ∧
      (∀ turns, insertionPointTurns endlessPage 2 turns = none) ∧
      findSectionTurns straddlingPage 1 2 = some (some (4093, 5)) ∧
      findItemTurns straddlingPage 4100 2 1 4095 = some (some (0, 4096, 1), [4095, 4096]) ∧
      ¬ ∀ memory sectionId itemId, Scans memory sectionId itemId := by
  have back : ComesBack (nextHeader endlessPage) (OtherHeader endlessPage 2) 2 := by
    refine ⟨0, 1, Nat.one_pos, fun j first => ?_, by decide⟩
    rw [Nat.lt_one_iff.mp first]
    exact ⟨by decide, by decide, by decide⟩
  have never : ∀ turns, walkSections endlessPage (readUint16 endlessPage 0) 2 turns 2 = none := by
    intro turns
    by_contra ends
    exact not_halts_of_comesBack back
      (walk_halts.mp ⟨turns, Option.isSome_iff_ne_none.mpr ends⟩)
  have section_ : ∀ turns, findSectionTurns endlessPage 2 turns = none := by
    intro turns
    rw [findSectionTurns_eq, never]
    rfl
  refine ⟨section_, fun turns => ?_, by decide, by decide, fun all => ?_⟩
  · unfold insertionPointTurns
    dsimp only
    rw [if_neg (by decide), never]
    rfl
  · obtain ⟨turns, ends⟩ := (all endlessPage 2 0x81).sectionEnds
    rw [section_] at ends
    exact Bool.noConfusion ends

end Config

end FuseX.Spectranet
