import FuseX.Lib.Writes
import FuseX.Spectranet.ConfigScan
import FuseX.Spectranet.ConfigStore

/-!
# What the setters write

The setters with a log of their writes (`set_eq_applyWrites`), on a page with any content. Where a
setter fails the page should be as it was, and no write should be outside of the page. Neither is
so when the section is made and the item does not fit behind it, or when the sizes that are stored
are not those of the page; `set_sound_iff` has the exact condition.
-/

namespace FuseX.Spectranet

open Lib

namespace ConfigValue

/-- The `data_size` that the setters hand to `append_item_to_section`. -/
def dataSize : ConfigValue → Nat
  | string text => (text.bytes.length + 1) % 2 ^ 16
  | byte _ => 1

/-- The writes over an item that has the type, or none where there is no space. -/
def storeWrites (place room : Nat) : ConfigValue → Writes UInt8 × Bool
  | string text =>
      if room < text.bytes.length + 1 then ([], false)
      else ([(place, text.bytes), (place + text.bytes.length, [0])], true)
  | byte value => ([(place, [value])], true)

end ConfigValue

namespace Config

variable (memory : Nat → UInt8)

/-! ## The logs -/

/-- The writes that give an empty page its total. -/
def startWrites : Writes UInt8 :=
  if readUint16 memory 0 = 0 ∨ readUint16 memory 0 = 0xFFFF then [(0, uint16Bytes 2)] else []

/-- The writes that make an empty section. -/
def sectionWrites (insertOffset : Nat) (sectionId : UInt16) : Writes UInt8 :=
  [(insertOffset, uint16Bytes sectionId.toNat), (insertOffset + 2, uint16Bytes 0),
    (0, uint16Bytes (insertOffset + 4)), (insertOffset + 4, [0xFF, 0xFF])]

/-- The writes of `ensure_section_exists`, and the section. -/
def ensureWrites (sectionId : UInt16) : Option (Writes UInt8 × Option (Nat × Nat)) := do
  match ← findSection memory sectionId with
  | some existing => return ([], some existing)
  | none =>
    let start := startWrites memory
    let insertOffset ← findSectionInsertionPoint (applyWrites memory start) sectionId
    if configPageSize - 2 < insertOffset + 4 + 2 then return (start, none)
    return (start ++ sectionWrites insertOffset sectionId, some (insertOffset + 2, 0))

/-- The writes of `append_item_to_section`, and whether there was space. -/
def appendWrites (start sectionSize : Nat) (itemId : UInt8) (data : List UInt8) (dataSize : Nat) :
    Writes UInt8 × Bool :=
  let newItemSize := (1 + dataSize) % 2 ^ 16
  let newSectionSize := (sectionSize + newItemSize) % 2 ^ 16
  if configPageSize < start - 2 + 2 + 2 + newSectionSize then ([], false)
  else
    let item := start + 2 + sectionSize
    let newTotalSize := (start + 2 + newSectionSize) % 2 ^ 16
    ([(item, [itemId]), (item + 1, data.take dataSize), (start, uint16Bytes newSectionSize)] ++
      if readUint16 memory 0 < newTotalSize then
        [(0, uint16Bytes newTotalSize), (newTotalSize, [0xFF, 0xFF])]
      else [], true)

/-- The writes to an item of a section that is there. -/
def itemWrites (start sectionSize : Nat) (itemId : UInt8) (value : ConfigValue) :
    Writes UInt8 × Bool :=
  match findItem memory start sectionSize itemId with
  | none =>
      appendWrites memory start sectionSize (itemId ||| value.type) value.data value.dataSize
  | some (itemType, place, room) =>
      if itemType ≠ value.type then ([], false) else value.storeWrites place room

/-- The writes of a setter, and whether it reports success. -/
def setWrites (sectionId : UInt16) (itemId : UInt8) (value : ConfigValue) :
    Option (Writes UInt8 × Bool) := do
  match ← ensureWrites memory sectionId with
  | (created, none) => return (created, false)
  | (created, some (start, sectionSize)) =>
    let (writes, ok) := itemWrites (applyWrites memory created) start sectionSize itemId value
    return (created ++ writes, ok)

/-! ## What is asked of the setters -/

/-- A setter that reports failure has left the page as it was, and none writes outside of it. -/
structure SetSound (sectionId : UInt16) (itemId : UInt8) (value : ConfigValue) : Prop where
  keeps : ∀ memory', set memory sectionId itemId value = some (memory', false) →
    ∀ place < configPageSize, memory' place = memory place
  inPage : ∀ writes ok, setWrites memory sectionId itemId value = some (writes, ok) →
    writes.Below configPageSize

/-! ## When they do -/

/-- The size of the section with the item, as `append_item_to_section` has it. -/
def grownSize (sectionSize : Nat) (value : ConfigValue) : Nat :=
  (sectionSize + (1 + value.dataSize) % 2 ^ 16) % 2 ^ 16

/-- There is space for the item, by the size that is compared with the page's. -/
def HasSpace (start sectionSize : Nat) (value : ConfigValue) : Prop :=
  start + 2 + grownSize sectionSize value ≤ configPageSize

/-- The item appended behind the section ends in the page, and so does a new terminator. -/
def AppendInPage (total start sectionSize : Nat) (value : ConfigValue) : Prop :=
  start + 2 + sectionSize + 1 + value.dataSize ≤ configPageSize ∧
    (total < start + 2 + grownSize sectionSize value →
      start + 2 + grownSize sectionSize value + 2 ≤ configPageSize)

structure SetInPage (sectionId : UInt16) (itemId : UInt8) (value : ConfigValue) : Prop where
  stores : ∀ start size place room, findSection memory sectionId = some (some (start, size)) →
    findItem memory start size itemId = some (value.type, place, room) →
    value.data.length ≤ room → place + value.data.length ≤ configPageSize
  appends : ∀ start size, findSection memory sectionId = some (some (start, size)) →
    findItem memory start size itemId = none → HasSpace start size value →
    AppendInPage (readUint16 memory 0) start size value
  creates : ∀ pointer, findSection memory sectionId = some none →
    findSectionInsertionPoint memory sectionId = some pointer →
    pointer + 4 + 2 ≤ configPageSize - 2 →
    HasSpace (pointer + 2) 0 value ∧ AppendInPage (pointer + 4) (pointer + 2) 0 value

variable {memory} {sectionId : UInt16} {itemId : UInt8} {value : ConfigValue}

/-! ## The setters and their logs -/

theorem dataSize_eq : value.dataSize = value.data.length % 2 ^ 16 := by
  cases value with
  | string text => rw [ConfigValue.dataSize, ConfigValue.data, List.length_append,
      List.length_singleton]
  | byte value => rfl

theorem applyWrites_startWrites : applyWrites memory (startWrites memory) =
    if readUint16 memory 0 = 0 ∨ readUint16 memory 0 = 0xFFFF then writeUint16 memory 0 2
    else memory := by
  unfold startWrites
  split <;> rfl

theorem ensureSectionExists_eq : ensureSectionExists memory sectionId =
    (ensureWrites memory sectionId).map fun made => (applyWrites memory made.1, made.2) := by
  unfold ensureSectionExists ensureWrites
  cases findSection memory sectionId with
  | none => rfl
  | some found =>
    cases found with
    | some existing => rfl
    | none =>
      simp only [Option.bind_eq_bind, Option.bind_some]
      rw [← applyWrites_startWrites]
      cases findSectionInsertionPoint _ sectionId with
      | none => rfl
      | some insertOffset =>
        simp only [Option.bind_some]
        split
        · rfl
        · have made := applyWrites_append memory (startWrites memory)
            (sectionWrites insertOffset sectionId)
          exact congrArg some (Prod.ext made.symm rfl)

theorem appendItemToSection_eq {start size : Nat} {data : List UInt8} {dataSize : Nat} :
    appendItemToSection memory start size itemId data dataSize =
      (applyWrites memory (appendWrites memory start size itemId data dataSize).1,
        (appendWrites memory start size itemId data dataSize).2) := by
  unfold appendItemToSection appendWrites
  dsimp only
  split
  · rfl
  · split <;> rfl

theorem itemWrites_absent {start size : Nat} (absent : findItem memory start size itemId = none) :
    itemWrites memory start size itemId value =
      appendWrites memory start size (itemId ||| value.type) value.data value.dataSize := by
  rw [itemWrites, absent]

theorem itemWrites_found {start size place room : Nat} {type : UInt8}
    (found : findItem memory start size itemId = some (type, place, room)) :
    itemWrites memory start size itemId value =
      if type = value.type then value.storeWrites place room else ([], false) := by
  rw [itemWrites, found]
  exact ite_not ..

/-- What a setter does to an item that is there, by the writes. -/
theorem set_found {memory₁ : Nat → UInt8} {start size place room : Nat} {type : UInt8}
    (ensured : ensureSectionExists memory sectionId = some (memory₁, some (start, size)))
    (found : findItem memory₁ start size itemId = some (type, place, room)) :
    set memory sectionId itemId value =
      some (if type = value.type then
        (applyWrites memory₁ (value.storeWrites place room).1, (value.storeWrites place room).2)
        else (memory₁, false)) := by
  cases value with
  | string text =>
    rw [set, setString, ensured]
    simp only [Option.bind_eq_bind, Option.bind_some, found, ConfigValue.storeWrites]
    by_cases same : type = typeString
    · rw [if_neg (not_not.mpr same), if_pos (show type = (ConfigValue.string text).type from same)]
      split <;> rfl
    · rw [if_pos same, if_neg (show ¬ type = (ConfigValue.string text).type from same)]
      rfl
  | byte value =>
    rw [set, setByte, ensured]
    simp only [Option.bind_eq_bind, Option.bind_some, found, ConfigValue.storeWrites]
    by_cases same : type = typeByte
    · rw [if_neg (not_not.mpr same), if_pos (show type = (ConfigValue.byte value).type from same)]
      rfl
    · rw [if_pos same, if_neg (show ¬ type = (ConfigValue.byte value).type from same)]
      rfl

/-- The setters do the writes of their log. -/
theorem set_eq_applyWrites : set memory sectionId itemId value =
    (setWrites memory sectionId itemId value).map fun done =>
      (applyWrites memory done.1, done.2) := by
  have ensured := @ensureSectionExists_eq memory sectionId
  unfold setWrites
  cases made : ensureWrites memory sectionId with
  | none =>
    rw [made] at ensured
    cases value <;> simp only [set, setString, setByte, ensured, Option.map_none] <;> rfl
  | some made' =>
    obtain ⟨created, place⟩ := made'
    rw [made, Option.map_some] at ensured
    cases place with
    | none =>
      cases value <;> simp only [set, setString, setByte, ensured] <;> rfl
    | some place =>
      obtain ⟨start, size⟩ := place
      dsimp only at ensured
      simp only [Option.bind_eq_bind, Option.bind_some]
      cases found : findItem (applyWrites memory created) start size itemId with
      | none =>
        rw [set_append ensured found, appendItemToSection_eq, ← dataSize_eq,
          itemWrites_absent found]
        exact congrArg some (Prod.ext (applyWrites_append ..).symm rfl)
      | some found' =>
        obtain ⟨type, place, room⟩ := found'
        rw [set_found ensured found, itemWrites_found found]
        refine congrArg some ?_
        split
        · exact Prod.ext (applyWrites_append ..).symm rfl
        · exact Prod.ext (congrArg (applyWrites memory) (List.append_nil created).symm) rfl

/-! ## The pages they keep -/

theorem length_take_data : (value.data.take value.dataSize).length = value.dataSize := by
  rw [List.length_take, dataSize_eq]
  exact Nat.min_eq_left (Nat.mod_le _ _)

/-- What is refused has no writes. -/
theorem appendWrites_full {start size : Nat} {data : List UInt8}
    (full : ¬ HasSpace start size value) (header : 2 ≤ start) :
    appendWrites memory start size itemId data value.dataSize = ([], false) := by
  unfold HasSpace grownSize at full
  unfold appendWrites
  dsimp only
  rw [if_pos (by omega)]

theorem appendWrites_spec (memory : Nat → UInt8) (itemId : UInt8) {start size : Nat} (space : HasSpace start size value)
    (header : 2 ≤ start) :
    (appendWrites memory start size itemId value.data value.dataSize).2 = true ∧
    ((appendWrites memory start size itemId value.data value.dataSize).1.Below configPageSize ↔
      AppendInPage (readUint16 memory 0) start size value) := by
  have page : configPageSize = 4096 := rfl
  unfold HasSpace grownSize at space
  unfold appendWrites AppendInPage grownSize
  dsimp only
  rw [if_neg (by omega), Nat.mod_eq_of_lt (show start + 2 +
    (size + (1 + value.dataSize) % 2 ^ 16) % 2 ^ 16 < 2 ^ 16 by omega)]
  refine ⟨rfl, ?_⟩
  generalize (size + (1 + value.dataSize) % 2 ^ 16) % 2 ^ 16 = grown at space
  rw [Writes.below_append, Writes.below_cons, Writes.below_cons, Writes.below_cons,
    length_take_data, ← List.length_eq_zero_iff, ← List.length_eq_zero_iff (l := value.data.take _),
    ← List.length_eq_zero_iff (l := uint16Bytes _), length_take_data, length_uint16Bytes,
    List.length_singleton]
  have tail : Writes.Below configPageSize
      (if readUint16 memory 0 < start + 2 + grown then
        [(0, uint16Bytes (start + 2 + grown)), (start + 2 + grown, [0xFF, 0xFF])] else []) ↔
      (readUint16 memory 0 < start + 2 + grown → start + 2 + grown + 2 ≤ configPageSize) := by
    split
    · next more =>
      rw [Writes.below_cons, Writes.below_cons]
      constructor
      · rintro ⟨-, ended | ended, -⟩ _
        · cases ended
        · exact ended
      · intro ended
        exact ⟨.inr (by rw [length_uint16Bytes]; omega), .inr (ended more), Writes.below_nil⟩
    · next less => exact iff_of_true Writes.below_nil fun more => absurd more less
  rw [tail]
  refine and_congr_left fun _ => ?_
  constructor
  · rintro ⟨first, second, -⟩
    omega
  · intro fits
    exact ⟨by omega, by omega, by omega, Writes.below_nil⟩

theorem le_start {start size : Nat}
    (found : findSection memory sectionId = some (some (start, size))) : 2 ≤ start := by
  obtain ⟨pointer, -, rfl, -⟩ := @findSectionTurns_headerAt memory sectionId configPageSize _ _ found
  exact Nat.le_add_left _ _

/-- The total that an empty page gets does not move the place of the first section. -/
theorem insertionPoint_started :
    findSectionInsertionPoint (applyWrites memory (startWrites memory)) sectionId =
      findSectionInsertionPoint memory sectionId := by
  unfold startWrites
  split
  · next empty =>
    have written : Holds (overwrite memory 0 (uint16Bytes 2)) 0 (uint16Bytes 2) :=
      Holds.overwritten
    have total : readUint16 (applyWrites memory [(0, uint16Bytes 2)]) 0 = 2 :=
      readUint16_eq written (by decide)
    have first : findSectionInsertionPoint memory sectionId = some 2 := by
      unfold findSectionInsertionPoint
      dsimp only
      rw [if_pos (by omega)]
      rfl
    rw [first]
    unfold findSectionInsertionPoint
    dsimp only
    rw [total]
    rfl
  · rfl

theorem startWrites_below : (startWrites memory).Below configPageSize := by
  unfold startWrites
  split
  · rw [Writes.below_cons]
    exact ⟨.inr (by decide), Writes.below_nil⟩
  · exact Writes.below_nil

theorem sectionWrites_below {pointer : Nat} (fits : pointer + 4 + 2 ≤ configPageSize - 2) :
    (sectionWrites pointer sectionId).Below configPageSize := by
  have page : configPageSize = 4096 := rfl
  unfold sectionWrites
  rw [Writes.below_cons, Writes.below_cons, Writes.below_cons, Writes.below_cons]
  simp only [length_uint16Bytes, List.length_cons, List.length_nil]
  exact ⟨.inr (by omega), .inr (by omega), .inr (by omega), .inr (by omega), Writes.below_nil⟩

/-- A section that is missing has its place at the end, whatever the page says about it. -/
theorem insertionPoint_total {pointer : Nat} (missing : findSection memory sectionId = some none)
    (place : findSectionInsertionPoint memory sectionId = some pointer)
    (fits : pointer + 4 + 2 ≤ configPageSize - 2) :
    readUint16 memory 0 ≠ pointer + 4 := by
  have page : configPageSize = 4096 := rfl
  unfold findSectionInsertionPoint at place
  dsimp only at place
  split at place
  · cases place
    omega
  · obtain ⟨stopped, ends, place⟩ := Option.bind_eq_some_iff.mp place
    cases place
    obtain ⟨-, -, -, stops, -, here⟩ := walkSections_eq ends
    have notFound : ¬ stopped.1 = true := by
      intro found
      have result : findSection memory sectionId =
          some (some (stopped.2 + 2, readUint16 memory (stopped.2 + 2))) := by
        have eq := @findSectionTurns_eq memory sectionId configPageSize
        rw [ends, Option.map_some, if_pos found] at eq
        exact eq
      rw [result] at missing
      cases missing
    have behind : ¬ stopped.2 < readUint16 memory 0 := by
      intro inside
      by_cases same : readUint16 memory stopped.2 = sectionId.toNat
      · exact notFound (here.mpr ⟨inside, by omega, same⟩)
      · exact stops ⟨inside, by omega, same⟩
    omega

theorem ensureWrites_missing {pointer : Nat} (missing : findSection memory sectionId = some none)
    (place : findSectionInsertionPoint memory sectionId = some pointer) :
    ensureWrites memory sectionId =
      some (if configPageSize - 2 < pointer + 4 + 2 then (startWrites memory, none)
        else (startWrites memory ++ sectionWrites pointer sectionId, some (pointer + 2, 0))) := by
  unfold ensureWrites
  rw [missing]
  simp only [Option.bind_eq_bind, Option.bind_some]
  rw [insertionPoint_started, place]
  simp only [Option.bind_some]
  split <;> rfl

/-- A section that was made has its end as the total. -/
theorem readUint16_created {pointer : Nat} (fits : pointer + 4 + 2 ≤ configPageSize - 2) :
    readUint16 (applyWrites memory (startWrites memory ++ sectionWrites pointer sectionId)) 0 =
      pointer + 4 := by
  have page : configPageSize = 4096 := rfl
  rw [applyWrites_append]
  refine readUint16_eq (Holds.overwrite_ne Holds.overwritten ?_) (by omega)
  rw [length_uint16Bytes]
  omega

/-- A page without space for the section's header is not empty. -/
theorem startWrites_full {pointer : Nat}
    (place : findSectionInsertionPoint memory sectionId = some pointer)
    (full : configPageSize - 2 < pointer + 4 + 2) : startWrites memory = [] := by
  have page : configPageSize = 4096 := rfl
  refine if_neg fun empty => ?_
  unfold findSectionInsertionPoint at place
  dsimp only at place
  rw [if_pos (by omega)] at place
  cases place
  omega

/-! ## The setters -/

theorem setSound_none (missing : ensureWrites memory sectionId = none) :
    SetSound memory sectionId itemId value := by
  have never : setWrites memory sectionId itemId value = none := by
    unfold setWrites
    rw [missing]
    rfl
  refine ⟨fun memory' failed => ?_, fun writes ok done => ?_⟩
  · rw [set_eq_applyWrites, never] at failed
    cases failed
  · rw [never] at done
    cases done

/-- The log of a setter, behind the section. -/
theorem setSound_iff_writes {writes : Writes UInt8} {ok : Bool}
    (done : setWrites memory sectionId itemId value = some (writes, ok)) :
    SetSound memory sectionId itemId value ↔
      (ok = false → ∀ place < configPageSize, applyWrites memory writes place = memory place) ∧
        writes.Below configPageSize := by
  constructor
  · rintro ⟨keeps, inPage⟩
    refine ⟨fun failed => keeps _ ?_, inPage writes ok done⟩
    rw [set_eq_applyWrites, done, Option.map_some, failed]
  · rintro ⟨keeps, inPage⟩
    refine ⟨fun memory' failed => ?_, fun writes' ok' done' => ?_⟩
    · rw [set_eq_applyWrites, done, Option.map_some] at failed
      cases failed
      exact keeps rfl
    · rw [done] at done'
      cases done'
      exact inPage

theorem setWrites_made {created : Writes UInt8} {start size : Nat}
    (made : ensureWrites memory sectionId = some (created, some (start, size))) :
    setWrites memory sectionId itemId value =
      some (created ++ (itemWrites (applyWrites memory created) start size itemId value).1,
        (itemWrites (applyWrites memory created) start size itemId value).2) := by
  unfold setWrites
  rw [made]
  rfl

theorem storeWrites_spec (place : Nat) {room : Nat} (byte : value.type = typeByte → room = 1) :
    ((value.storeWrites place room).2 = false → (value.storeWrites place room).1 = []) ∧
      ((value.storeWrites place room).1.Below configPageSize ↔
        (value.data.length ≤ room → place + value.data.length ≤ configPageSize)) := by
  cases value with
  | string text =>
    simp only [ConfigValue.storeWrites, ConfigValue.data, List.length_append,
      List.length_singleton]
    by_cases short : room < text.bytes.length + 1
    · rw [if_pos short]
      exact ⟨fun _ => rfl, iff_of_true Writes.below_nil fun fits => absurd fits (by omega)⟩
    · rw [if_neg short]
      refine ⟨fun fails => Bool.noConfusion fails, ?_⟩
      rw [Writes.below_cons, Writes.below_cons, List.length_singleton]
      constructor
      · intro inside _
        rcases inside.2.1 with ended | ended
        · exact absurd ended (List.cons_ne_nil _ _)
        · exact ended
      · intro fits
        have inside := fits (by omega)
        exact ⟨.inr (by omega), .inr inside, Writes.below_nil⟩
  | byte value =>
    have one := byte rfl
    simp only [ConfigValue.storeWrites, ConfigValue.data]
    rw [Writes.below_cons, List.length_singleton, one]
    refine ⟨fun fails => Bool.noConfusion fails, ?_⟩
    constructor
    · intro inside _
      rcases inside.1 with ended | ended
      · exact absurd ended (List.cons_ne_nil _ _)
      · exact ended
    · exact fun fits => ⟨.inr (fits (Nat.le_refl _)), Writes.below_nil⟩

/-- A byte that is found has the space of one. -/
theorem findItem_byte {start size place room : Nat} {type : UInt8}
    (found : findItem memory start size itemId = some (type, place, room))
    (byte : type = typeByte) : room = 1 := by
  unfold findItem at found
  generalize start + 2 + size = stop at found
  generalize start + 2 = pointer at found
  induction size generalizing pointer with
  | zero => cases found
  | succ size ih =>
    rw [findItemLoop] at found
    split at found
    · cases found
    · dsimp only at found
      split at found
      · split at found
        · next string =>
          cases found
          exact absurd (string.symm.trans byte) (by decide)
        · split at found
          · cases found
            rfl
          · next other =>
            split at found
            · cases found
              exact absurd byte other
            · cases found
      · split at found
        · exact ih _ found
        · split at found
          · exact ih _ found
          · split at found
            · exact ih _ found
            · exact ih _ found

/-- A setter of a section that is there. -/
theorem setSound_section {start size : Nat}
    (here : findSection memory sectionId = some (some (start, size))) :
    SetSound memory sectionId itemId value ↔
      (∀ place room, findItem memory start size itemId = some (value.type, place, room) →
        value.data.length ≤ room → place + value.data.length ≤ configPageSize) ∧
      (findItem memory start size itemId = none → HasSpace start size value →
        AppendInPage (readUint16 memory 0) start size value) := by
  have made : ensureWrites memory sectionId = some ([], some (start, size)) := by
    rw [ensureWrites, here]
    rfl
  rw [setSound_iff_writes (setWrites_made made)]
  have same : applyWrites memory [] = memory := rfl
  rw [same, List.nil_append]
  cases found : findItem memory start size itemId with
  | none =>
    rw [itemWrites_absent found]
    by_cases space : HasSpace start size value
    · obtain ⟨succeeds, inPage⟩ := appendWrites_spec memory (itemId ||| value.type)
        space (le_start here)
      rw [succeeds, inPage]
      exact ⟨fun sound => ⟨nofun, fun _ _ => sound.2⟩, fun fits => ⟨nofun, fits.2 rfl space⟩⟩
    · rw [appendWrites_full space (le_start here)]
      exact iff_of_true ⟨fun _ _ _ => rfl, Writes.below_nil⟩
        ⟨nofun, fun _ space' => absurd space' space⟩
  | some found' =>
    obtain ⟨type, place, room⟩ := found'
    rw [itemWrites_found found]
    by_cases typed : type = value.type
    · subst typed
      have byte : value.type = typeByte → room = 1 := findItem_byte found
      obtain ⟨failed, inPage⟩ := storeWrites_spec place byte
      rw [if_pos rfl, inPage]
      constructor
      · rintro ⟨-, fits⟩
        refine ⟨fun place' room' same => ?_, nofun⟩
        cases same
        exact fits
      · rintro ⟨fits, -⟩
        refine ⟨fun fails => ?_, fits place room rfl⟩
        rw [failed fails]
        exact fun _ _ => rfl
    · rw [if_neg typed]
      refine iff_of_true ⟨fun _ _ _ => rfl, Writes.below_nil⟩ ⟨fun place' room' same => ?_, nofun⟩
      cases same
      exact absurd rfl typed

/-- A setter of a section that it makes. -/
theorem setSound_created {pointer : Nat} (missing : findSection memory sectionId = some none)
    (place : findSectionInsertionPoint memory sectionId = some pointer)
    (fits : pointer + 4 + 2 ≤ configPageSize - 2) :
    SetSound memory sectionId itemId value ↔
      HasSpace (pointer + 2) 0 value ∧ AppendInPage (pointer + 4) (pointer + 2) 0 value := by
  have made := ensureWrites_missing missing place
  rw [if_neg (Nat.not_lt.mpr fits)] at made
  have total := @readUint16_created memory sectionId pointer fits
  have absent : findItem (applyWrites memory (startWrites memory ++ sectionWrites pointer sectionId))
      (pointer + 2) 0 itemId = none := rfl
  have below : (startWrites memory ++ sectionWrites pointer sectionId).Below configPageSize :=
    Writes.below_append.mpr ⟨startWrites_below, sectionWrites_below fits⟩
  rw [setSound_iff_writes (setWrites_made made), itemWrites_absent absent, Writes.below_append]
  by_cases space : HasSpace (pointer + 2) 0 value
  · obtain ⟨succeeds, inPage⟩ := appendWrites_spec
      (applyWrites memory (startWrites memory ++ sectionWrites pointer sectionId))
      (itemId ||| value.type) space (Nat.le_add_left _ _)
    rw [succeeds, inPage, total]
    exact ⟨fun sound => ⟨space, sound.2.2⟩, fun inPage => ⟨nofun, below, inPage.2⟩⟩
  · rw [appendWrites_full space (Nat.le_add_left _ _), List.append_nil]
    refine iff_of_false (fun sound => ?_) fun both => space both.1
    have low := sound.1 rfl 0 (by decide)
    have high := sound.1 rfl 1 (by decide)
    rw [readUint16, low, high] at total
    exact insertionPoint_total missing place fits total

/-- A setter of a section for which there is no space. -/
theorem setSound_full {pointer : Nat} (missing : findSection memory sectionId = some none)
    (place : findSectionInsertionPoint memory sectionId = some pointer)
    (full : configPageSize - 2 < pointer + 4 + 2) : SetSound memory sectionId itemId value := by
  have made := ensureWrites_missing missing place
  rw [if_pos full, startWrites_full place full] at made
  have done : setWrites memory sectionId itemId value = some ([], false) := by
    unfold setWrites
    rw [made]
    rfl
  exact (setSound_iff_writes done).mpr ⟨fun _ _ _ => rfl, Writes.below_nil⟩

/-- The setters keep the page when they fail and write in the page only, exactly when the item
ends in the page and a section that is made has the space for it. -/
theorem set_sound_iff :
    SetSound memory sectionId itemId value ↔ SetInPage memory sectionId itemId value := by
  cases found : findSection memory sectionId with
  | none =>
    have never : ensureWrites memory sectionId = none := by
      rw [ensureWrites, found]
      rfl
    refine iff_of_true (setSound_none never) ⟨?_, ?_, ?_⟩ <;> rw [found] <;> nofun
  | some found' =>
    cases found' with
    | some here =>
      obtain ⟨start, size⟩ := here
      rw [setSound_section found]
      constructor
      · rintro ⟨stores, appends⟩
        refine ⟨fun start' size' place room same => ?_, fun start' size' same => ?_, ?_⟩
        · rw [found] at same
          cases same
          exact stores place room
        · rw [found] at same
          cases same
          exact appends
        · rw [found]
          nofun
      · intro inPage
        exact ⟨fun place room => inPage.stores start size place room found,
          inPage.appends start size found⟩
    | none =>
      have others : SetInPage memory sectionId itemId value ↔
          ∀ pointer, findSectionInsertionPoint memory sectionId = some pointer →
            pointer + 4 + 2 ≤ configPageSize - 2 →
            HasSpace (pointer + 2) 0 value ∧ AppendInPage (pointer + 4) (pointer + 2) 0 value := by
        constructor
        · exact fun inPage pointer => inPage.creates pointer found
        · intro creates
          refine ⟨?_, ?_, fun pointer _ => creates pointer⟩ <;> rw [found] <;> nofun
      rw [others]
      cases place : findSectionInsertionPoint memory sectionId with
      | none =>
        have never : ensureWrites memory sectionId = none := by
          unfold ensureWrites
          rw [found]
          simp only [Option.bind_eq_bind, Option.bind_some]
          rw [insertionPoint_started, place]
          rfl
        exact iff_of_true (setSound_none never) nofun
      | some pointer =>
        by_cases fits : pointer + 4 + 2 ≤ configPageSize - 2
        · rw [setSound_created found place fits]
          constructor
          · rintro both pointer' same -
            cases same
            exact both
          · exact fun creates => creates pointer rfl fits
        · refine iff_of_true (setSound_full found place (Nat.lt_of_not_le fits)) ?_
          rintro pointer' same fits'
          cases same
          exact absurd fits' fits

/-- A page with one section, of empty strings, that ends at `stop`. -/
def pageEnding (stop : Nat) : Nat → UInt8 :=
  overwrite (fun _ => 0) 0 (uint16Bytes stop ++ [9, 0] ++ uint16Bytes (stop - 6))

def lettersText (count : Nat) : CString := ⟨List.replicate count 97, by simp⟩

/-- A section is made for a string that does not fit, and a terminator is written behind the
page. -/
theorem set_failed_halfway :
    (set (pageEnding 4066) 1 1 (.string (lettersText 40))).map
        (fun done => (done.2, readUint16 done.1 0, readUint16 done.1 4066)) =
        some (false, 4070, 1) ∧
      readUint16 (pageEnding 4066) 0 = 4066 ∧ readUint16 (pageEnding 4066) 4066 = 0 ∧
      (setWrites (pageEnding 4088) 1 1 (.string (lettersText 1))).map
        (fun done => (done.1.getLast?, done.2)) = some (some (4095, [0xFF, 0xFF]), true) ∧
      ¬ ∀ memory sectionId itemId value, SetSound memory sectionId itemId value := by
  refine ⟨by decide, by decide, by decide, by decide, fun all => ?_⟩
  have missing : findSection (pageEnding 4066) 1 = some none := by decide
  have place : findSectionInsertionPoint (pageEnding 4066) 1 = some 4066 := by decide
  have sound := all (pageEnding 4066) 1 1 (.string (lettersText 40))
  rw [setSound_created missing place (by decide)] at sound
  exact absurd sound.1 (by unfold HasSpace grownSize; decide)

end Config

end FuseX.Spectranet
