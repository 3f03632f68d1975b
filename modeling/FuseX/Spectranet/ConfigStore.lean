import FuseX.Spectranet.ConfigPage

/-!
# Setting an item of the configuration

A setter makes the section if it is missing, and then stores over an item that
is there or appends one. Neither moves what stands behind: an item appended to a
section that is not the last is written over the following ones, and of a longer
old string the end stays in the section. `SetFits` says for which configurations
this does no harm, and `set_law_iff` that the setters keep their law
(`SetLaw`) exactly there.
-/

namespace FuseX.Spectranet

open Lib

/-! ## The statement -/

/-- What a setter is given. -/
inductive ConfigValue : Type
  | string (text : CString)
  | byte (value : UInt8)

namespace ConfigValue

def type : ConfigValue → UInt8
  | string _ => typeString
  | byte _ => typeByte

/-- The data as they are stored. -/
def data : ConfigValue → List UInt8
  | string text => text.bytes ++ [0]
  | byte value => [value]

end ConfigValue

namespace Config

/-- The setter for the value's type. -/
def set (memory : Nat → UInt8) (sectionId : UInt16) (itemId : UInt8) :
    ConfigValue → Option ((Nat → UInt8) × Bool)
  | .string text => setString memory sectionId itemId text
  | .byte value => setByte memory sectionId itemId value

/-- The getter that matches the value's type returns it. -/
def Returns (memory : Nat → UInt8) (sectionId : UInt16) (itemId : UInt8) : ConfigValue → Prop
  | .string text => ∀ bufferSize, text.bytes.length < bufferSize →
      getString memory sectionId itemId bufferSize = some (some text.bytes)
  | .byte value => getByte memory sectionId itemId = some (some value)

/-- All getters return the same for a pair. -/
structure SameGets (memory memory' : Nat → UInt8) (sectionId : UInt16) (itemId : UInt8) : Prop where
  string : ∀ bufferSize,
    getString memory sectionId itemId bufferSize = getString memory' sectionId itemId bufferSize
  byte : getByte memory sectionId itemId = getByte memory' sectionId itemId
  int : getInt memory sectionId itemId = getInt memory' sectionId itemId

/-- What a setter promises. -/
structure SetLaw (memory memory' : Nat → UInt8) (sectionId : UInt16) (itemId : UInt8)
    (value : ConfigValue) : Prop where
  returns : Returns memory' sectionId itemId value
  others : ∀ section' item', (section', item') ≠ (sectionId, itemId) →
    SameGets memory memory' section' item'
  wellFormed : ∃ config, Represents memory' config

end Config

/-- The configuration with the section, which is made at the end if it is missing. -/
def withSection (config : List ConfigSection) (sectionId : UInt16) : List ConfigSection :=
  if config.any (·.id = sectionId) then config
  else config ++ [⟨sectionId, [], by decide⟩]

/-- A string or byte stored over an item `old`: what is left of the old data and the
items `after` it are items again, and those show the same. -/
def StoreFits (before after : List ConfigItem) (old : ConfigItem) (value : ConfigValue) : Prop :=
  ∃ after', encodeItems after' = old.data.drop value.data.length ++ encodeItems after ∧
    ∀ itemId, itemId ≠ old.id → (∀ item ∈ before, item.id ≠ itemId) →
      after'.find? (·.id = itemId) = after.find? (·.id = itemId)

/-- An item appended to a section `s`: it fits with the terminator, and what it leaves
of the sections behind are sections again, and those show the same. -/
def AppendFits (front behind : List ConfigSection) (s : ConfigSection) (value : ConfigValue) :
    Prop :=
  2 + (encodeSections front).length + s.encode.length +
      max (1 + value.data.length) (encodeSections behind).length + 2 ≤ configPageSize ∧
  ∃ behind', encodeSections behind' = (encodeSections behind).drop (1 + value.data.length) ∧
    ∀ sectionId itemId, sectionId ≠ s.id → (∀ t ∈ front, t.id ≠ sectionId) →
      itemOf behind' sectionId itemId = itemOf behind sectionId itemId

/-- Storing the value does no harm: the item's id has the bits of the value's type,
and what is written over or left over does not matter. -/
structure SetFits (config : List ConfigSection) (sectionId : UInt16) (itemId : UInt8)
    (value : ConfigValue) : Prop where
  typed : itemId &&& typeMask = value.type
  stores : ∀ front s behind before old after, withSection config sectionId = front ++ s :: behind →
    (∀ t ∈ front, t.id ≠ sectionId) → s.id = sectionId → s.items = before ++ old :: after →
    (∀ item ∈ before, item.id ≠ itemId) → old.id = itemId → StoreFits before after old value
  appends : ∀ front s behind, withSection config sectionId = front ++ s :: behind →
    (∀ t ∈ front, t.id ≠ sectionId) → s.id = sectionId → (∀ item ∈ s.items, item.id ≠ itemId) →
    AppendFits front behind s value

/-! ## Getters and items -/

theorem ConfigItem.ext_of {item item' : ConfigItem} (id : item.id = item'.id)
    (data : item.data = item'.data) : item = item' := by
  cases item
  cases item'
  cases id
  cases data
  rfl

/-- The getters tell an item. -/
theorem ConfigItem.of_gets {itemId : UInt8} {item : ConfigItem} {found : Option ConfigItem}
    (id : item.id = itemId) (ids : ∀ item' ∈ found, item'.id = itemId)
    (string : ∀ size, item.getString size = found.bind (·.getString size))
    (byte : item.getByte = found.bind (·.getByte)) (int : item.getInt = found.bind (·.getInt)) :
    found = some item := by
  have present : ∃ item', found = some item' := by
    cases found with
    | some item' => exact ⟨item', rfl⟩
    | none =>
      rcases item.sized with ⟨type, text, whole⟩ | ⟨type, length⟩ | ⟨type, length⟩
      · have given := string 1
        simp [ConfigItem.getString, type] at given
      · obtain ⟨value, whole⟩ := List.length_eq_one_iff.mp length
        simp [ConfigItem.getByte, type, whole] at byte
      · simp [ConfigItem.getInt, type] at int
  obtain ⟨item', rfl⟩ := present
  have id' : item'.id = item.id := (ids item' rfl).trans id.symm
  refine congrArg some (ConfigItem.ext_of id' ?_)
  rcases item.sized with ⟨type, text, whole⟩ | ⟨type, length⟩ | ⟨type, length⟩
  · obtain ⟨text', whole'⟩ := item'.text (id' ▸ type)
    have given := string (text.bytes.length + text'.bytes.length + 1)
    simp only [Option.bind_some, ConfigItem.getString, id', type, whole, whole',
      List.dropLast_concat] at given
    rw [if_pos ⟨by omega, trivial⟩, if_pos ⟨by omega, trivial⟩] at given
    have same := Option.some.inj given
    rw [List.take_of_length_le (by omega), List.take_of_length_le (by omega)] at same
    rw [whole, whole', same]
  · obtain ⟨value, whole⟩ := List.length_eq_one_iff.mp length
    obtain ⟨value', whole'⟩ := List.length_eq_one_iff.mp (item'.byte (id' ▸ type))
    simp [ConfigItem.getByte, id', type, whole, whole'] at byte
    rw [whole, whole', byte]
  · obtain ⟨low, high, whole⟩ := List.length_eq_two.mp length
    obtain ⟨low', high', whole'⟩ := List.length_eq_two.mp (item'.int (id' ▸ type))
    simp [ConfigItem.getInt, id', type, whole, whole'] at int
    have bounds := low.toNat_lt
    have bounds' := low'.toNat_lt
    obtain rfl : low = low' := UInt8.toNat_inj.mp (by omega)
    obtain rfl : high = high' := UInt8.toNat_inj.mp (by omega)
    rw [whole, whole']

/-- On well-formed pages the getters agree exactly where the items do. -/
theorem sameGets_iff {memory memory' : Nat → UInt8} {config config' : List ConfigSection}
    (page : Represents memory config) (page' : Represents memory' config') {sectionId : UInt16}
    {itemId : UInt8} :
    Config.SameGets memory memory' sectionId itemId ↔
      itemOf config' sectionId itemId = itemOf config sectionId itemId := by
  constructor
  · rintro ⟨string, byte, int⟩
    simp only [page.getString_eq, page'.getString_eq, page.getByte_eq, page'.getByte_eq,
      page.getInt_eq, page'.getInt_eq, Option.some.injEq] at string byte int
    have ids : ∀ item ∈ itemOf config sectionId itemId, item.id = itemId :=
      fun item present => Represents.itemOf_id present
    have ids' : ∀ item ∈ itemOf config' sectionId itemId, item.id = itemId :=
      fun item present => Represents.itemOf_id present
    cases present : itemOf config sectionId itemId with
    | some item =>
      rw [present] at string byte int ids
      exact ConfigItem.of_gets (ids item rfl) ids' string byte int
    | none =>
      cases present' : itemOf config' sectionId itemId with
      | none => rfl
      | some item' =>
        rw [present] at string byte int
        rw [present'] at string byte int ids'
        have found : (none : Option ConfigItem) = some item' :=
          ConfigItem.of_gets (ids' item' rfl) (by simp) (fun size => (string size).symm) byte.symm
            int.symm
        cases found
  · intro same
    constructor
    · intro bufferSize
      rw [page.getString_eq, page'.getString_eq, same]
    · rw [page.getByte_eq, page'.getByte_eq, same]
    · rw [page.getInt_eq, page'.getInt_eq, same]

/-- The matching getter returns a value exactly where it is the item's data. -/
theorem returns_iff {memory : Nat → UInt8} {config : List ConfigSection}
    (page : Represents memory config) {sectionId : UInt16} {itemId : UInt8} {value : ConfigValue} :
    Config.Returns memory sectionId itemId value ↔
      itemId &&& typeMask = value.type ∧
        ∃ item, itemOf config sectionId itemId = some item ∧ item.data = value.data := by
  cases value with
  | string text =>
    simp only [Config.Returns, page.getString_eq, Option.some.injEq, Option.bind_eq_some_iff]
    constructor
    · intro given
      obtain ⟨item, present, gives⟩ := given (text.bytes.length + 1) (by omega)
      have id := Represents.itemOf_id present
      obtain ⟨⟨-, type⟩, first⟩ := Option.ite_none_right_eq_some.mp gives
      refine ⟨id ▸ type, item, present, ?_⟩
      obtain ⟨text', whole⟩ := item.text type
      obtain ⟨item', present', gives'⟩ :=
        given (text.bytes.length + text'.bytes.length + 1) (by omega)
      obtain rfl := Option.some.inj (present.symm.trans present')
      obtain ⟨-, all⟩ := Option.ite_none_right_eq_some.mp gives'
      rw [whole, List.dropLast_concat, List.take_of_length_le (by omega)] at all
      rw [whole, Option.some.inj all]
      rfl
    · rintro ⟨type, item, present, whole⟩ bufferSize large
      refine ⟨item, present, ?_⟩
      have id := Represents.itemOf_id present
      have typed : item.id &&& typeMask = typeString := id ▸ type
      rw [ConfigItem.getString, if_pos ⟨by omega, typed⟩, whole]
      rw [ConfigValue.data, List.dropLast_concat, List.take_of_length_le (by omega)]
  | byte value =>
    simp only [Config.Returns, page.getByte_eq, Option.some.injEq, Option.bind_eq_some_iff]
    constructor
    · rintro ⟨item, present, gives⟩
      have id := Represents.itemOf_id present
      obtain ⟨type, first⟩ := Option.ite_none_right_eq_some.mp gives
      obtain ⟨byte, whole⟩ := List.length_eq_one_iff.mp (item.byte type)
      refine ⟨id ▸ type, item, present, ?_⟩
      rw [whole] at first ⊢
      rw [Option.some.inj first]
      rfl
    · rintro ⟨type, item, present, whole⟩
      have id := Represents.itemOf_id present
      have typed : item.id &&& typeMask = typeByte := id ▸ type
      refine ⟨item, present, ?_⟩
      rw [ConfigItem.getByte, if_pos typed, whole]
      rfl

/-! ## The bytes after a change -/

section Bytes

variable {memory : Nat → UInt8}

/-- The bytes of a page up to the items of a section, and these. -/
def bytesTo (total : Nat) (front : List UInt8) (sectionId size : Nat) (items : List UInt8) :
    List UInt8 :=
  Config.uint16Bytes total ++ (front ++ (Config.uint16Bytes sectionId ++
    (Config.uint16Bytes size ++ items)))

theorem length_bytesTo {total sectionId size : Nat} {front items : List UInt8} :
    (bytesTo total front sectionId size items).length = 2 + front.length + 4 + items.length := by
  simp only [bytesTo, List.length_append, Config.length_uint16Bytes]
  omega

/-- An item is written behind the items of a section, over what is there. -/
theorem appendItem_bytes {front items rest data : List UInt8} {sectionId : Nat} {itemId : UInt8}
    (page : Holds memory 0 (bytesTo (2 + front.length + 4 + items.length + rest.length) front
      sectionId items.length items ++ (rest ++ [0xFF, 0xFF])))
    (pageFits : 2 + front.length + 4 + items.length + rest.length + 2 ≤ configPageSize)
    (fits : 2 + front.length + 4 + items.length + (1 + data.length) ≤ configPageSize) :
    ∃ memory', Config.appendItemToSection memory (2 + front.length + 2) items.length itemId data
        data.length = (memory', true) ∧
      Holds memory' 0 (bytesTo
        (2 + front.length + 4 + items.length + max (1 + data.length) rest.length) front sectionId
        (items.length + (1 + data.length)) (items ++ itemId :: data) ++
        (rest.drop (1 + data.length) ++ [0xFF, 0xFF])) := by
  rw [configPageSize] at fits pageFits
  have total : Config.readUint16 memory 0 = 2 + front.length + 4 + items.length + rest.length := by
    rw [bytesTo, List.append_assoc] at page
    exact Config.readUint16_eq (Holds.append.mp page).1 (by omega)
  -- the item's id and its data
  have withId : Holds (overwrite memory (2 + front.length + 2 + 2 + items.length) [itemId]) 0 _ :=
    page.splice (by rw [length_bytesTo]; omega) [itemId]
  rw [← List.append_assoc] at withId
  have withData : Holds (overwrite (overwrite memory (2 + front.length + 2 + 2 + items.length) [itemId])
      (2 + front.length + 2 + 2 + items.length + 1) data) 0 _ :=
    withId.splice (by rw [List.length_append, length_bytesTo, List.length_singleton]; omega) data
  rw [List.length_singleton, List.drop_drop] at withData
  generalize withBoth : overwrite (overwrite memory (2 + front.length + 2 + 2 + items.length) [itemId])
    (2 + front.length + 2 + 2 + items.length + 1) data = memory₂ at *
  -- the size of the section
  have resized : Holds (Config.writeUint16 memory₂ (2 + front.length + 2)
      (items.length + (1 + data.length))) 0 (bytesTo
        (2 + front.length + 4 + items.length + rest.length) front sectionId
        (items.length + (1 + data.length)) (items ++ itemId :: data) ++
        (rest ++ [0xFF, 0xFF]).drop (1 + data.length)) := by
    have split : Holds memory₂ 0
        ((Config.uint16Bytes (2 + front.length + 4 + items.length + rest.length) ++
          (front ++ Config.uint16Bytes sectionId)) ++ (Config.uint16Bytes items.length ++
            (items ++ (itemId :: data ++ (rest ++ [0xFF, 0xFF]).drop (1 + data.length))))) := by
      simpa only [bytesTo, List.append_assoc, List.nil_append, List.cons_append] using withData
    have written : Holds (Config.writeUint16 memory₂ (2 + front.length + 2)
        (items.length + (1 + data.length))) 0 _ :=
      split.replace (by simp; omega) rfl
    simpa only [bytesTo, List.append_assoc, List.cons_append] using written
  have newSize : (items.length + (1 + data.length) % 2 ^ 16) % 2 ^ 16 =
      items.length + (1 + data.length) := by
    omega
  have newTotal : (2 + front.length + 2 + 2 + (items.length + (1 + data.length))) % 2 ^ 16 =
      2 + front.length + 4 + items.length + (1 + data.length) := by
    omega
  rw [Config.appendItemToSection]
  dsimp only
  rw [if_neg (by rw [configPageSize, newSize]; omega), total, newSize, List.take_length, newTotal,
    withBoth]
  by_cases grows : rest.length < 1 + data.length
  · -- all that follows is written over, and the terminator comes behind the item
    rw [if_pos (by omega), Nat.max_eq_left (by omega), List.drop_eq_nil_of_le (by omega)]
    refine ⟨_, rfl, ?_⟩
    rw [bytesTo, List.append_assoc, ← List.nil_append (_ ++ _)] at resized
    have retotalled : Holds (Config.writeUint16 (Config.writeUint16 memory₂ (2 + front.length + 2)
        (items.length + (1 + data.length))) 0
        (2 + front.length + 4 + items.length + (1 + data.length))) 0 _ :=
      resized.replace rfl rfl
    rw [List.nil_append, ← List.append_assoc, ← bytesTo] at retotalled
    have stop : 0 + (bytesTo (2 + front.length + 4 + items.length + (1 + data.length)) front
        sectionId (items.length + (1 + data.length)) (items ++ itemId :: data)).length =
        2 + front.length + 4 + items.length + (1 + data.length) := by
      rw [length_bytesTo, List.length_append, List.length_cons]
      omega
    have ended := retotalled.splice stop [0xFF, 0xFF]
    rw [List.drop_eq_nil_of_le (by simp; omega)] at ended
    exact ended
  · rw [if_neg (by omega), Nat.max_eq_right (by omega)]
    refine ⟨_, rfl, ?_⟩
    rw [List.drop_append_of_le_length (by omega)] at resized
    exact resized

end Bytes

/-! ## The law on the configurations -/

variable {memory memory' : Nat → UInt8} {config front behind : List ConfigSection}
  {s : ConfigSection} {sectionId : UInt16} {itemId : UInt8} {value : ConfigValue}

/-- The law, of the configuration before and the bytes after. -/
structure ItemLaw (config : List ConfigSection) (body : List UInt8) (sectionId : UInt16)
    (itemId : UInt8) (value : ConfigValue) : Prop where
  fits : 2 + body.length + 2 ≤ configPageSize
  config' : ∃ config', encodeSections config' = body ∧
    (∃ item, itemOf config' sectionId itemId = some item ∧ item.data = value.data) ∧
    ∀ section' item', (section', item') ≠ (sectionId, itemId) →
      itemOf config' section' item' = itemOf config section' item'

theorem Config.SetLaw.typed (law : Config.SetLaw memory memory' sectionId itemId value) :
    itemId &&& typeMask = value.type := by
  obtain ⟨config', page'⟩ := law.wellFormed
  exact ((returns_iff page').mp law.returns).1

theorem setLaw_iff (page : Represents memory config) {body : List UInt8}
    (small : 2 + body.length < 2 ^ 16)
    (page' : Holds memory' 0 (Config.uint16Bytes (2 + body.length) ++ (body ++ [0xFF, 0xFF]))) :
    Config.SetLaw memory memory' sectionId itemId value ↔
      itemId &&& typeMask = value.type ∧ ItemLaw config body sectionId itemId value := by
  constructor
  · intro law
    refine ⟨law.typed, ?_⟩
    obtain ⟨config', represents⟩ := law.wellFormed
    obtain ⟨packed, fits⟩ := (represents_iff small page').mp represents
    refine ⟨fits, config', packed, ((returns_iff represents).mp law.returns).2, ?_⟩
    intro section' item' other
    exact (sameGets_iff page represents).mp (law.others section' item' other)
  · rintro ⟨typed, fits, config', packed, item, others⟩
    have represents := (represents_iff small page').mpr ⟨packed, fits⟩
    refine ⟨(returns_iff represents).mpr ⟨typed, item⟩, ?_, config', represents⟩
    intro section' item' other
    exact (sameGets_iff page represents).mpr (others section' item' other)

theorem itemOf_append (config config' : List ConfigSection) (sectionId : UInt16) (itemId : UInt8) :
    itemOf (config ++ config') sectionId itemId =
      if config.any (·.id = sectionId) then itemOf config sectionId itemId
      else itemOf config' sectionId itemId := by
  rw [itemOf, List.find?_append]
  cases found : config.find? (·.id = sectionId) with
  | none =>
    have none_ : config.any (·.id = sectionId) = false := by simpa using found
    rw [none_]
    rfl
  | some s =>
    have some_ : config.any (·.id = sectionId) = true := by
      obtain ⟨id, -⟩ := find?_eq_some_split found
      exact List.any_eq_true.mpr ⟨s, List.mem_of_find?_eq_some found, by simpa using id⟩
    rw [some_, if_pos rfl, itemOf, found]
    rfl

theorem itemOf_cons (s : ConfigSection) (config : List ConfigSection) (sectionId : UInt16)
    (itemId : UInt8) :
    itemOf (s :: config) sectionId itemId =
      if s.id = sectionId then s.items.find? (·.id = itemId) else itemOf config sectionId itemId := by
  rw [itemOf, List.find?_cons]
  by_cases id : s.id = sectionId
  · simp [id]
  · simp [id, itemOf]

/-- The first section with an id shows its items. -/
theorem itemOf_here (others : ∀ t ∈ front, t.id ≠ sectionId) (id : s.id = sectionId) :
    itemOf (front ++ s :: behind) sectionId itemId = s.items.find? (·.id = itemId) := by
  have missing : front.any (·.id = sectionId) = false := by simpa using others
  rw [itemOf_append, missing, itemOf_cons, if_pos id]
  rfl

/-- A new section shows nothing. -/
theorem itemOf_withSection (config : List ConfigSection) (sectionId section' : UInt16)
    (itemId : UInt8) :
    itemOf (withSection config sectionId) section' itemId = itemOf config section' itemId := by
  rw [withSection]
  split
  · rfl
  · rw [itemOf_append, itemOf_cons]
    split
    · rfl
    · next missing =>
      have none_ : config.find? (·.id = section') = none := by simpa using missing
      have empty : itemOf config section' itemId = none := by
        rw [itemOf, none_]
        rfl
      rw [empty]
      split <;> rfl

/-- The frame of a change in one section, by what stands before and behind it. -/
theorem others_iff {s' : ConfigSection} {behind' : List ConfigSection} (id : s'.id = s.id)
    (items : ∀ item', item' ≠ itemId →
      s'.items.find? (·.id = item') = s.items.find? (·.id = item')) :
    (∀ section' item', (section', item') ≠ (s.id, itemId) →
      itemOf (front ++ s' :: behind') section' item' = itemOf (front ++ s :: behind) section' item') ↔
    ∀ section' item', section' ≠ s.id → (∀ t ∈ front, t.id ≠ section') →
      itemOf behind' section' item' = itemOf behind section' item' := by
  constructor
  · intro kept section' item' other hidden
    have same := kept section' item' fun pair => other (Prod.mk.inj pair).1
    have missing : front.any (·.id = section') = false := by simpa using hidden
    rw [itemOf_append, itemOf_append, missing, itemOf_cons, itemOf_cons, id] at same
    simpa [other.symm] using same
  · intro kept section' item' pair
    rw [itemOf_append, itemOf_append]
    split
    · rfl
    next visible =>
    have hidden : ∀ t ∈ front, t.id ≠ section' := by simpa using visible
    rw [itemOf_cons, itemOf_cons, id]
    split
    · next same =>
      refine items item' fun other => pair ?_
      rw [same, other]
    · next other => exact kept section' item' (fun same => other same.symm) hidden

theorem find?_append_singleton {items : List ConfigItem} {item : ConfigItem} {id : UInt8}
    (other : id ≠ item.id) :
    (items ++ [item]).find? (·.id = id) = items.find? (·.id = id) := by
  rw [List.find?_append, List.find?_singleton]
  simp [other.symm]

/-- An item whose data have the size of their type. -/
theorem ConfigValue.sized (value : ConfigValue) (typed : itemId &&& typeMask = value.type) :
    WellSized itemId value.data := by
  cases value with
  | string text => exact .inl ⟨typed, text, rfl⟩
  | byte value => exact .inr (.inl ⟨typed, rfl⟩)

/-- Where an item is appended the law is `AppendFits`. -/
theorem append_iff (typed : itemId &&& typeMask = value.type)
    (others : ∀ t ∈ front, t.id ≠ s.id) (absent : ∀ item ∈ s.items, item.id ≠ itemId)
    (small : (encodeItems s.items).length + (1 + value.data.length) < 2 ^ 16) :
    ItemLaw (front ++ s :: behind)
      (encodeSections front ++ (Config.uint16Bytes s.id.toNat ++
        (Config.uint16Bytes ((encodeItems s.items).length + (1 + value.data.length)) ++
          (encodeItems s.items ++ itemId :: value.data))) ++
        (encodeSections behind).drop (1 + value.data.length)) s.id itemId value ↔
    AppendFits front behind s value := by
  let item : ConfigItem := ⟨itemId, value.data, value.sized typed⟩
  have itemBytes : encodeItems (s.items ++ [item]) = encodeItems s.items ++ itemId :: value.data := by
    simp [item, encodeItems]
    rfl
  have size : (encodeItems (s.items ++ [item])).length =
      (encodeItems s.items).length + (1 + value.data.length) := by
    rw [itemBytes, List.length_append, List.length_cons]
    omega
  let s' : ConfigSection := ⟨s.id, s.items ++ [item], by rw [size]; exact small⟩
  have bytes : encodeSections front ++ (Config.uint16Bytes s.id.toNat ++
      (Config.uint16Bytes ((encodeItems s.items).length + (1 + value.data.length)) ++
        (encodeItems s.items ++ itemId :: value.data))) = encodeSections (front ++ [s']) := by
    rw [← itemBytes, ← size]
    simp [s', ConfigSection.encode, encodeSections]
  have total : 2 + (encodeSections (front ++ [s']) ++
        (encodeSections behind).drop (1 + value.data.length)).length + 2 ≤ configPageSize ↔
      2 + (encodeSections front).length + s.encode.length +
        max (1 + value.data.length) (encodeSections behind).length + 2 ≤ configPageSize := by
    have length : (encodeSections (front ++ [s'])).length =
        (encodeSections front).length + s.encode.length + (1 + value.data.length) := by
      rw [← bytes, s.length_encode]
      simp only [List.length_append, List.length_cons, Config.length_uint16Bytes]
      omega
    rw [List.length_append, length, List.length_drop]
    omega
  have frame : ∀ behind', (∀ section' item', (section', item') ≠ (s.id, itemId) →
      itemOf (front ++ s' :: behind') section' item' =
        itemOf (front ++ s :: behind) section' item') ↔ _ :=
    fun behind' => others_iff rfl fun item' other => find?_append_singleton other
  have shown : ∀ behind', itemOf (front ++ s' :: behind') s.id itemId = some item := by
    intro behind'
    have missing : s.items.find? (·.id = itemId) = none := by simpa using absent
    have here : itemOf (front ++ s' :: behind') s.id itemId = s'.items.find? (·.id = itemId) :=
      itemOf_here others rfl
    rw [here, List.find?_append, missing]
    simp [item]
  rw [bytes]
  constructor
  · rintro ⟨fits, config', packed, -, kept⟩
    obtain ⟨behind', rfl, rest⟩ := packed_front sections_delimit packed
    rw [List.append_assoc, List.singleton_append] at kept
    exact ⟨total.mp fits, behind', rest, (frame behind').mp kept⟩
  · rintro ⟨fits, behind', rest, kept⟩
    refine ⟨total.mpr fits, front ++ s' :: behind', ?_, ⟨item, shown behind', rfl⟩,
      (frame behind').mpr kept⟩
    rw [← rest, ← encodeSections_append, List.append_assoc, List.singleton_append]

theorem find?_replaced {before after : List ConfigItem} {item : ConfigItem} {id : UInt8}
    (other : id ≠ item.id) :
    (before ++ item :: after).find? (·.id = id) =
      (before.find? (·.id = id)).or (after.find? (·.id = id)) := by
  rw [List.find?_append, List.find?_cons]
  simp [other.symm]

/-- The items that show in a section, by what stands behind a changed item. -/
theorem items_iff {before after after' : List ConfigItem} {new old : ConfigItem}
    (id : new.id = old.id) :
    (∀ itemId, itemId ≠ old.id → (before ++ new :: after').find? (·.id = itemId) =
      (before ++ old :: after).find? (·.id = itemId)) ↔
    ∀ itemId, itemId ≠ old.id → (∀ item ∈ before, item.id ≠ itemId) →
      after'.find? (·.id = itemId) = after.find? (·.id = itemId) := by
  constructor
  · intro kept itemId other hidden
    have same := kept itemId other
    have missing : before.find? (·.id = itemId) = none := by simpa using hidden
    rw [find?_replaced (id ▸ other), find?_replaced other, missing] at same
    exact same
  · intro kept itemId other
    rw [find?_replaced (id ▸ other), find?_replaced other]
    cases found : before.find? (·.id = itemId) with
    | some item => rfl
    | none => exact kept itemId other (by simpa using found)

/-- The frame of a change of the items of one section. -/
theorem section_iff {s' : ConfigSection} (others : ∀ t ∈ front, t.id ≠ s.id) (id : s'.id = s.id) :
    (∀ section' item', (section', item') ≠ (s.id, itemId) →
      itemOf (front ++ s' :: behind) section' item' = itemOf (front ++ s :: behind) section' item') ↔
    ∀ item', item' ≠ itemId →
      s'.items.find? (·.id = item') = s.items.find? (·.id = item') := by
  constructor
  · intro kept item' other
    have same := kept s.id item' fun pair => other (Prod.mk.inj pair).2
    rw [itemOf_here others id, itemOf_here others rfl] at same
    exact same
  · intro items
    exact (others_iff id items).mpr fun _ _ _ _ => rfl

/-- A section is read off its bytes. -/
theorem section_bytes {s' : ConfigSection} {behind' : List ConfigSection} {items : List UInt8}
    (same : encodeSections (s' :: behind') = Config.uint16Bytes s.id.toNat ++
      (Config.uint16Bytes (encodeItems s.items).length ++ items) ++ encodeSections behind)
    (size : items.length = (encodeItems s.items).length) :
    behind' = behind ∧ s'.id = s.id ∧ encodeItems s'.items = items := by
  simp only [encodeSections_cons, ConfigSection.encode, List.append_assoc] at same
  obtain ⟨ids, same⟩ := List.append_inj same rfl
  obtain ⟨sizes, same⟩ := List.append_inj same rfl
  have length := Config.uint16Bytes_inj s'.small s.small sizes
  obtain ⟨packed, rest⟩ := List.append_inj same (length.trans size.symm)
  exact ⟨packed_inj sections_delimit rest,
    UInt16.toNat_inj.mp (Config.uint16Bytes_inj s'.id.toNat_lt s.id.toNat_lt ids), packed⟩

/-- Where a value is stored over an item the law is `StoreFits`. -/
theorem store_iff {before after : List ConfigItem} {old : ConfigItem}
    (typed : old.id &&& typeMask = value.type) (others : ∀ t ∈ front, t.id ≠ s.id)
    (split : s.items = before ++ old :: after) (earlier : ∀ item ∈ before, item.id ≠ old.id)
    (short : value.data.length ≤ old.data.length)
    (page : 2 + (encodeSections (front ++ s :: behind)).length + 2 ≤ configPageSize) :
    ItemLaw (front ++ s :: behind)
      (encodeSections front ++ (Config.uint16Bytes s.id.toNat ++
        (Config.uint16Bytes (encodeItems s.items).length ++
          (encodeItems before ++ old.id :: (value.data ++
            (old.data.drop value.data.length ++ encodeItems after))))) ++
        encodeSections behind) s.id old.id value ↔
    StoreFits before after old value := by
  rw [configPageSize] at page
  let new : ConfigItem := ⟨old.id, value.data, value.sized typed⟩
  have newBytes : ∀ tail, encodeItems before ++ old.id :: (value.data ++ tail) =
      encodeItems (before ++ [new]) ++ tail := by
    intro tail
    rw [encodeItems_append, List.append_assoc]
    exact congrArg _ (by simp [new, encodeItems, ConfigItem.encode])
  have size : ∀ tail, tail = old.data.drop value.data.length ++ encodeItems after →
      (encodeItems (before ++ [new]) ++ tail).length = (encodeItems s.items).length := by
    rintro tail rfl
    rw [← newBytes, split, encodeItems_append, encodeItems_cons]
    simp only [List.length_append, List.length_cons, List.length_drop]
    omega
  rw [newBytes]
  constructor
  · rintro ⟨-, config', packed, -, kept⟩
    rw [List.append_assoc] at packed
    obtain ⟨back, rfl, rest⟩ := packed_front sections_delimit packed
    cases back with
    | nil => cases rest
    | cons s' behind' =>
      obtain ⟨rfl, id, items⟩ := section_bytes rest (size _ rfl)
      obtain ⟨after', splits', tail⟩ := packed_front items_delimit items
      refine ⟨after', tail, (@items_iff before after after' new old rfl).mp ?_⟩
      have same := (section_iff others id).mp kept
      rw [splits', split, List.append_assoc, List.singleton_append] at same
      exact same
  · rintro ⟨after', tail, kept⟩
    have items : encodeItems (before ++ [new] ++ after') =
        encodeItems (before ++ [new]) ++ (old.data.drop value.data.length ++ encodeItems after) := by
      rw [encodeItems_append, tail]
    let s' : ConfigSection := ⟨s.id, before ++ [new] ++ after', by
      rw [items, size _ rfl]
      exact s.small⟩
    have bytes : s'.encode = Config.uint16Bytes s.id.toNat ++
        (Config.uint16Bytes (encodeItems s.items).length ++
          (encodeItems (before ++ [new]) ++
            (old.data.drop value.data.length ++ encodeItems after))) := by
      rw [ConfigSection.encode, List.append_assoc, items, size _ rfl]
    rw [← bytes, List.append_assoc, ← encodeSections_cons, ← encodeSections_append]
    have frame : (∀ section' item', (section', item') ≠ (s.id, old.id) →
        itemOf (front ++ s' :: behind) section' item' =
          itemOf (front ++ s :: behind) section' item') ↔ _ :=
      section_iff others rfl
    refine ⟨?_, front ++ s' :: behind, rfl, ⟨new, ?_, rfl⟩, frame.mpr ?_⟩
    · have length : s'.encode.length = s.encode.length := by
        rw [s'.length_encode, s.length_encode, items, size _ rfl]
      rw [encodeSections_append, encodeSections_cons, List.length_append, List.length_append] at page ⊢
      rw [configPageSize]
      omega
    · have here : itemOf (front ++ s' :: behind) s.id old.id = s'.items.find? (·.id = old.id) :=
        itemOf_here others rfl
      have missing : before.find? (·.id = old.id) = none := by simpa using earlier
      rw [here]
      simp [s', missing, new]
    · have same := (@items_iff before after after' new old rfl).mpr kept
      rw [split]
      simpa [s'] using same

/-! ## The setters -/

/-- A section that is missing is made at the end, if there is space. -/
theorem newSection (page : Represents memory config) (others : ∀ s ∈ config, s.id ≠ sectionId) :
    (∃ memory₁, Config.ensureSectionExists memory sectionId = some (memory₁, none)) ∨
    ∃ memory₁, Represents memory₁ (config ++ [⟨sectionId, [], by decide⟩]) ∧
      Config.ensureSectionExists memory sectionId =
        some (memory₁, some (2 + (encodeSections config).length + 2, 0)) := by
  have pageFits := page.fits
  rw [configPageSize] at pageFits
  have point : Config.findSectionInsertionPoint memory sectionId =
      some (2 + (encodeSections config).length) := by
    rw [Config.findSectionInsertionPoint, page.totalSize]
    dsimp only
    rw [if_neg (by rw [configPageSize]; omega), page.walk_absent others]
    rfl
  rw [Config.ensureSectionExists, page.findSection_absent others]
  simp only [Option.bind_eq_bind, Option.bind_some, page.totalSize]
  rw [if_neg (by omega), point]
  simp only [Option.bind_some]
  by_cases space : configPageSize - 2 < 2 + (encodeSections config).length + 4 + 2
  · rw [if_pos space]
    exact .inl ⟨_, rfl⟩
  · rw [if_neg space]
    refine .inr ⟨_, ?_, rfl⟩
    rw [configPageSize] at space
    have whole := page.holds
    rw [← List.append_assoc] at whole
    have named : Holds (Config.writeUint16 memory (2 + (encodeSections config).length)
        sectionId.toNat) 0 _ :=
      whole.splice (by simp) (Config.uint16Bytes sectionId.toNat)
    rw [← List.append_assoc] at named
    have sized : Holds (Config.writeUint16 _ (2 + (encodeSections config).length + 2) 0) 0 _ :=
      named.splice (by simp; omega) (Config.uint16Bytes 0)
    generalize Config.writeUint16 (Config.writeUint16 memory (2 + (encodeSections config).length)
      sectionId.toNat) (2 + (encodeSections config).length + 2) 0 = memory₂ at sized ⊢
    have bytes : encodeSections (config ++ [⟨sectionId, [], by decide⟩]) =
        encodeSections config ++ (Config.uint16Bytes sectionId.toNat ++ Config.uint16Bytes 0) := by
      rw [encodeSections_append]
      simp [encodeSections, ConfigSection.encode, encodeItems]
    have total : 2 + (encodeSections (config ++ [⟨sectionId, [], by decide⟩])).length =
        2 + (encodeSections config).length + 4 := by
      rw [bytes]
      simp
      omega
    refine ⟨by rw [configPageSize, total]; omega, ?_⟩
    rw [total, bytes]
    have split : Holds memory₂ 0 ([] ++ (Config.uint16Bytes (2 + (encodeSections config).length) ++
        (encodeSections config ++ (Config.uint16Bytes sectionId.toNat ++ Config.uint16Bytes 0)))) := by
      simpa [List.append_assoc] using sized
    have retotalled : Holds (Config.writeUint16 memory₂ 0 (2 + (encodeSections config).length + 4)) 0
        (Config.uint16Bytes (2 + (encodeSections config).length + 4) ++
        (encodeSections config ++ (Config.uint16Bytes sectionId.toNat ++ Config.uint16Bytes 0)) ++
          []) := by
      rw [List.append_nil]
      exact split.replace rfl rfl
    have stop : 0 + (Config.uint16Bytes (2 + (encodeSections config).length + 4) ++
        (encodeSections config ++ (Config.uint16Bytes sectionId.toNat ++
          Config.uint16Bytes 0))).length = 2 + (encodeSections config).length + 4 := by
      simp
      omega
    have ended := retotalled.splice stop [0xFF, 0xFF]
    rw [List.append_assoc] at ended
    exact ended

/-- After `ensure_section_exists` the section is there, or there was no space. -/
theorem ensureSection_spec (page : Represents memory config) (sectionId : UInt16) :
    (∃ memory₁, Config.ensureSectionExists memory sectionId = some (memory₁, none)) ∨
    ∃ memory₁ front s behind, withSection config sectionId = front ++ s :: behind ∧
      s.id = sectionId ∧ (∀ t ∈ front, t.id ≠ sectionId) ∧
      Represents memory₁ (front ++ s :: behind) ∧
      Config.ensureSectionExists memory sectionId =
        some (memory₁, some (2 + (encodeSections front).length + 2, (encodeItems s.items).length)) := by
  cases found : config.find? (·.id = sectionId) with
  | some s =>
    obtain ⟨rfl, front, behind, rfl, others⟩ := find?_eq_some_split found
    refine .inr ⟨memory, front, s, behind, ?_, rfl, others, page, ?_⟩
    · have there : (front ++ s :: behind).any (·.id = s.id) = true := by simp
      rw [withSection, if_pos there]
    · rw [Config.ensureSectionExists, page.findSection_here others]
      rfl
  | none =>
    have others : ∀ s ∈ config, s.id ≠ sectionId := by simpa using found
    have missing : config.any (·.id = sectionId) = false := by simpa using others
    rcases newSection page others with full | ⟨memory₁, page₁, made⟩
    · exact .inl full
    · refine .inr ⟨memory₁, config, _, [], ?_, rfl, others, page₁, made⟩
      rw [withSection, missing]
      rfl

/-- A setter appends what is not there. -/
theorem set_append {memory₁ : Nat → UInt8} {start size : Nat}
    (ensured : Config.ensureSectionExists memory sectionId = some (memory₁, some (start, size)))
    (absent : Config.findItem memory₁ start size itemId = none) :
    Config.set memory sectionId itemId value =
      some (Config.appendItemToSection memory₁ start size (itemId ||| value.type) value.data
        (value.data.length % 2 ^ 16)) := by
  cases value with
  | string text =>
    rw [Config.set, Config.setString, ensured]
    simp only [Option.bind_eq_bind, Option.bind_some, absent, ConfigValue.data, List.length_append,
      List.length_singleton]
    rfl
  | byte value =>
    rw [Config.set, Config.setByte, ensured]
    simp only [Option.bind_eq_bind, Option.bind_some, absent]
    rfl

/-- A setter stores over what is there, if it has the type and the space. -/
theorem set_store {memory₁ : Nat → UInt8} {start size place length : Nat} {type : UInt8}
    (ensured : Config.ensureSectionExists memory sectionId = some (memory₁, some (start, size)))
    (found : Config.findItem memory₁ start size itemId = some (type, place, length))
    (byte : type = typeByte → length = 1) :
    Config.set memory sectionId itemId value =
      some (if type = value.type ∧ value.data.length ≤ length then
        (overwrite memory₁ place value.data, true) else (memory₁, false)) := by
  cases value with
  | string text =>
    rw [Config.set, Config.setString, ensured]
    simp only [Option.bind_eq_bind, Option.bind_some, found, ConfigValue.data, List.length_append,
      List.length_singleton, ConfigValue.type]
    by_cases same : type = typeString
    · by_cases short : length < text.bytes.length + 1
      · rw [if_neg (by simp [same]), if_pos short, if_neg (by omega)]
        rfl
      · rw [if_neg (by simp [same]), if_neg short, if_pos ⟨same, by omega⟩, overwrite_append]
        rfl
    · rw [if_pos same, if_neg fun both => same both.1]
      rfl
  | byte value =>
    rw [Config.set, Config.setByte, ensured]
    simp only [Option.bind_eq_bind, Option.bind_some, found]
    by_cases same : type = typeByte
    · have both : type = (ConfigValue.byte value).type ∧
          (ConfigValue.byte value).data.length ≤ length := ⟨same, Nat.le_of_eq (byte same).symm⟩
      rw [if_pos both, if_neg (not_not.mpr same)]
      rfl
    · have neither : ¬ (type = (ConfigValue.byte value).type ∧
          (ConfigValue.byte value).data.length ≤ length) := fun both => same both.1
      rw [if_neg neither, if_pos same]
      rfl

/-- What a value stored over an item makes of a page. -/
theorem Represents.store {before after : List ConfigItem} {old : ConfigItem} {data : List UInt8}
    (page : Represents memory (front ++ s :: behind)) (split : s.items = before ++ old :: after)
    (short : data.length ≤ old.data.length) :
    let body := encodeSections front ++ (Config.uint16Bytes s.id.toNat ++
      (Config.uint16Bytes (encodeItems s.items).length ++
        (encodeItems before ++ old.id :: (data ++
          (old.data.drop data.length ++ encodeItems after))))) ++ encodeSections behind
    Holds (overwrite memory (2 + (encodeSections front).length + 2 + 2 +
        (encodeItems before).length + 1) data) 0
      (Config.uint16Bytes (2 + body.length) ++ (body ++ [0xFF, 0xFF])) := by
  intro body
  have whole := page.holds
  have length : body.length = (encodeSections (front ++ s :: behind)).length := by
    rw [encodeSections_append, encodeSections_cons]
    simp only [body, List.length_append, List.length_cons, Config.length_uint16Bytes,
      List.length_drop, s.length_encode, split, encodeItems_append, encodeItems_cons]
    omega
  have pieces : encodeSections (front ++ s :: behind) = encodeSections front ++
      (Config.uint16Bytes s.id.toNat ++ (Config.uint16Bytes (encodeItems s.items).length ++
        (encodeItems before ++ old.id :: (old.data ++ encodeItems after)))) ++
      encodeSections behind := by
    rw [encodeSections_append, encodeSections_cons, ConfigSection.encode]
    simp only [split, encodeItems_append, encodeItems_cons, List.append_assoc]
  rw [← length, pieces] at whole
  have places : Holds memory 0 ((Config.uint16Bytes (2 + body.length) ++ (encodeSections front ++
      (Config.uint16Bytes s.id.toNat ++ (Config.uint16Bytes (encodeItems s.items).length ++
        (encodeItems before ++ [old.id]))))) ++
      (old.data.take data.length ++ (old.data.drop data.length ++ (encodeItems after ++
        (encodeSections behind ++ [0xFF, 0xFF]))))) := by
    rw [← List.append_assoc (old.data.take _), List.take_append_drop]
    simpa only [List.append_assoc, List.cons_append, List.nil_append] using whole
  have place : 0 + (Config.uint16Bytes (2 + body.length) ++ (encodeSections front ++
      (Config.uint16Bytes s.id.toNat ++ (Config.uint16Bytes (encodeItems s.items).length ++
        (encodeItems before ++ [old.id]))))).length =
      2 + (encodeSections front).length + 2 + 2 + (encodeItems before).length + 1 := by
    simp only [List.length_append, List.length_singleton, Config.length_uint16Bytes]
    omega
  have size : data.length = (old.data.take data.length).length := by
    rw [List.length_take, Nat.min_eq_left short]
  have stored := places.replace place size
  simpa only [body, List.append_assoc, List.cons_append, List.nil_append] using stored

/-! ## When the law holds -/

/-- The law needs the value to have space on a page. -/
theorem Config.SetLaw.short (law : Config.SetLaw memory memory' sectionId itemId value) :
    value.data.length < configPageSize := by
  obtain ⟨config', page'⟩ := law.wellFormed
  obtain ⟨-, item, present, data⟩ := (returns_iff page').mp law.returns
  obtain ⟨s, found, within⟩ := Option.bind_eq_some_iff.mp present
  obtain ⟨-, front, behind, rfl, -⟩ := find?_eq_some_split found
  obtain ⟨-, before, after, split, -⟩ := find?_eq_some_split within
  have fits := page'.fits
  rw [encodeSections_append, encodeSections_cons, List.length_append, List.length_append,
    s.length_encode, split, encodeItems_append, encodeItems_cons, List.length_append,
    List.length_cons, List.length_append, data] at fits
  omega

/-- The law looks at the items before, and the section made is empty. -/
theorem ItemLaw.withSection_iff {body : List UInt8} :
    ItemLaw (withSection config sectionId) body sectionId itemId value ↔
      ItemLaw config body sectionId itemId value := by
  constructor
  · rintro ⟨fits, config', packed, item, others⟩
    refine ⟨fits, config', packed, item, fun section' item' other => ?_⟩
    rw [others section' item' other, itemOf_withSection]
  · rintro ⟨fits, config', packed, item, others⟩
    refine ⟨fits, config', packed, item, fun section' item' other => ?_⟩
    rw [others section' item' other, itemOf_withSection]

/-- The condition on an item that is appended. -/
theorem setFits_append (splits : withSection config sectionId = front ++ s :: behind)
    (id : s.id = sectionId) (others : ∀ t ∈ front, t.id ≠ sectionId)
    (absent : ∀ item ∈ s.items, item.id ≠ itemId) :
    SetFits config sectionId itemId value ↔
      itemId &&& typeMask = value.type ∧ AppendFits front behind s value := by
  constructor
  · intro fits
    exact ⟨fits.typed, fits.appends front s behind splits others id absent⟩
  · rintro ⟨typed, appends⟩
    refine ⟨typed, ?_, ?_⟩
    · intro front' s' behind' before old after splits' others' id' items _ oldId
      obtain ⟨rfl, rfl, rfl⟩ := first_unique (splits.symm.trans splits') id id' others others'
      exact absurd oldId (absent old (items ▸ by simp))
    · intro front' s' behind' splits' others' id' _
      obtain ⟨rfl, rfl, rfl⟩ := first_unique (splits.symm.trans splits') id id' others others'
      exact appends

/-- The condition on an item that is there. -/
theorem setFits_store {before after : List ConfigItem} {old : ConfigItem}
    (splits : withSection config sectionId = front ++ s :: behind)
    (id : s.id = sectionId) (others : ∀ t ∈ front, t.id ≠ sectionId)
    (items : s.items = before ++ old :: after) (earlier : ∀ item ∈ before, item.id ≠ itemId)
    (oldId : old.id = itemId) :
    SetFits config sectionId itemId value ↔
      itemId &&& typeMask = value.type ∧ StoreFits before after old value := by
  constructor
  · intro fits
    exact ⟨fits.typed,
      fits.stores front s behind before old after splits others id items earlier oldId⟩
  · rintro ⟨typed, stores⟩
    refine ⟨typed, ?_, ?_⟩
    · intro front' s' behind' before' old' after' splits' others' id' items' earlier' oldId'
      obtain ⟨rfl, rfl, rfl⟩ := first_unique (splits.symm.trans splits') id id' others others'
      obtain ⟨rfl, rfl, rfl⟩ := first_unique (items.symm.trans items') oldId oldId' earlier earlier'
      exact stores
    · intro front' s' behind' splits' others' id' absent
      obtain ⟨rfl, rfl, rfl⟩ := first_unique (splits.symm.trans splits') id id' others others'
      exact absurd oldId (absent old (items ▸ by simp))

theorem or_type (typed : itemId &&& typeMask = value.type) : itemId ||| value.type = itemId := by
  rw [← typed]
  apply UInt8.toBitVec_inj.mp
  simp only [UInt8.toBitVec_or, UInt8.toBitVec_and]
  apply BitVec.eq_of_getElem_eq
  intro i inside
  simp +contextual

/-- Appending an item that is not there. -/
theorem set_law_append {memory₁ : Nat → UInt8} (page : Represents memory config)
    (splits : withSection config sectionId = front ++ s :: behind) (id : s.id = sectionId)
    (others : ∀ t ∈ front, t.id ≠ sectionId) (page₁ : Represents memory₁ (front ++ s :: behind))
    (absent : ∀ item ∈ s.items, item.id ≠ itemId) {done : Bool}
    (appended : Config.appendItemToSection memory₁ (2 + (encodeSections front).length + 2)
      (encodeItems s.items).length (itemId ||| value.type) value.data
      (value.data.length % 2 ^ 16) = (memory', done)) (success : done = true) :
    Config.SetLaw memory memory' sectionId itemId value ↔ SetFits config sectionId itemId value := by
  subst success id
  rw [setFits_append splits rfl others absent]
  by_cases typed : itemId &&& typeMask = value.type
  swap
  · exact iff_of_false (fun law => typed law.typed) fun fits => typed fits.1
  rw [or_type typed] at appended
  have pageFits := page₁.fits
  have length := s.length_encode
  have total : (encodeSections (front ++ s :: behind)).length =
      (encodeSections front).length + (s.encode.length + (encodeSections behind).length) := by
    rw [encodeSections_append, encodeSections_cons, List.length_append, List.length_append]
  by_cases fits : 2 + (encodeSections front).length + s.encode.length +
      (1 + value.data.length) ≤ configPageSize
  · rw [Nat.mod_eq_of_lt (by rw [configPageSize] at fits; omega)] at appended
    have placed : Holds memory₁ 0 (bytesTo (2 + (encodeSections front).length + 4 +
        (encodeItems s.items).length + (encodeSections behind).length) (encodeSections front)
        s.id.toNat (encodeItems s.items).length (encodeItems s.items) ++
        (encodeSections behind ++ [0xFF, 0xFF])) := by
      have whole := page₁.holds
      rw [show 2 + (encodeSections (front ++ s :: behind)).length =
          2 + (encodeSections front).length + 4 + (encodeItems s.items).length +
            (encodeSections behind).length by omega,
        encodeSections_append, encodeSections_cons, ConfigSection.encode] at whole
      simpa only [bytesTo, List.append_assoc] using whole
    have pageRoom : 2 + (encodeSections front).length + 4 + (encodeItems s.items).length +
        (encodeSections behind).length + 2 ≤ configPageSize := by omega
    have room : 2 + (encodeSections front).length + 4 + (encodeItems s.items).length +
        (1 + value.data.length) ≤ configPageSize := by omega
    obtain ⟨made, appendedTo, holds⟩ :=
      @appendItem_bytes memory₁ _ _ _ value.data _ itemId placed pageRoom room
    obtain ⟨rfl, -⟩ := Prod.mk.inj (appended.symm.trans appendedTo)
    rw [configPageSize] at fits
    have bytes := @append_iff front behind s itemId value typed others absent (by omega)
    generalize bodyEq : encodeSections front ++ (Config.uint16Bytes s.id.toNat ++
        (Config.uint16Bytes ((encodeItems s.items).length + (1 + value.data.length)) ++
          (encodeItems s.items ++ itemId :: value.data))) ++
        (encodeSections behind).drop (1 + value.data.length) = body at bytes
    have size : 2 + body.length = 2 + (encodeSections front).length + 4 +
        (encodeItems s.items).length + max (1 + value.data.length) (encodeSections behind).length := by
      rw [← bodyEq]
      simp only [List.length_append, List.length_cons, Config.length_uint16Bytes, List.length_drop]
      omega
    have holds' : Holds memory' 0 (Config.uint16Bytes (2 + body.length) ++ (body ++ [0xFF, 0xFF])) := by
      rw [size, ← bodyEq]
      simpa only [bytesTo, List.append_assoc] using holds
    rw [configPageSize] at pageFits
    rw [setLaw_iff page (by omega) holds', and_iff_right typed, and_iff_right typed,
      ← ItemLaw.withSection_iff, splits]
    exact bytes
  · refine iff_of_false (fun law => ?_) fun bad => ?_
    · -- a value that would fit a page is refused
      have short := law.short
      rw [configPageSize] at short fits pageFits
      rw [Config.appendItemToSection] at appended
      dsimp only at appended
      rw [if_pos (by rw [configPageSize]; omega)] at appended
      cases appended
    · have := bad.2.1
      omega

/-- Storing over an item that is there. -/
theorem set_law_store {before after : List ConfigItem} {old : ConfigItem} {memory₁ : Nat → UInt8}
    (page : Represents memory config)
    (splits : withSection config sectionId = front ++ s :: behind) (id : s.id = sectionId)
    (others : ∀ t ∈ front, t.id ≠ sectionId) (page₁ : Represents memory₁ (front ++ s :: behind))
    (items : s.items = before ++ old :: after) (earlier : ∀ item ∈ before, item.id ≠ old.id)
    (typed : old.id &&& typeMask = value.type) (short : value.data.length ≤ old.data.length) :
    Config.SetLaw memory (overwrite memory₁ (2 + (encodeSections front).length + 2 + 2 +
        (encodeItems before).length + 1) value.data) sectionId old.id value ↔
      SetFits config sectionId old.id value := by
  subst id
  rw [setFits_store splits rfl others items earlier rfl]
  have holds := page₁.store items short
  have bytes := store_iff typed others items earlier short page₁.fits
  have fits := page₁.fits
  rw [configPageSize] at fits
  generalize bodyEq : encodeSections front ++ (Config.uint16Bytes s.id.toNat ++
    (Config.uint16Bytes (encodeItems s.items).length ++
      (encodeItems before ++ old.id :: (value.data ++
        (old.data.drop value.data.length ++ encodeItems after))))) ++
      encodeSections behind = body at bytes holds
  have size : body.length = (encodeSections (front ++ s :: behind)).length := by
    rw [← bodyEq, encodeSections_append, encodeSections_cons]
    simp only [List.length_append, List.length_cons, Config.length_uint16Bytes, List.length_drop,
      s.length_encode, items, encodeItems_append, encodeItems_cons]
    omega
  rw [setLaw_iff page (by omega) holds, and_iff_right typed, and_iff_right typed,
    ← ItemLaw.withSection_iff, splits]
  exact bytes

/-- The setters return, and where they report success they keep their law exactly
where the value does no harm. -/
theorem set_law_iff (page : Represents memory config) (sectionId : UInt16) (itemId : UInt8)
    (value : ConfigValue) :
    ∃ memory' done, Config.set memory sectionId itemId value = some (memory', done) ∧
      (done = true →
        (Config.SetLaw memory memory' sectionId itemId value ↔
          SetFits config sectionId itemId value)) := by
  rcases ensureSection_spec page sectionId with
    ⟨memory₁, full⟩ | ⟨memory₁, front, s, behind, splits, id, others, page₁, ensured⟩
  · refine ⟨memory₁, false, ?_, fun success => by cases success⟩
    cases value with
    | string text =>
      rw [Config.set, Config.setString, full]
      rfl
    | byte value =>
      rw [Config.set, Config.setByte, full]
      rfl
  cases found : s.items.find? (·.id = itemId) with
  | none =>
    have absent : ∀ item ∈ s.items, item.id ≠ itemId := by simpa using found
    refine ⟨_, _, set_append ensured (findItem_absent page₁.items absent), fun success => ?_⟩
    exact set_law_append page splits id others page₁ absent rfl success
  | some old =>
    obtain ⟨rfl, before, after, items, earlier⟩ := find?_eq_some_split found
    have holds := page₁.items
    rw [items] at holds
    have there := findItem_here holds earlier
    rw [← items] at there
    by_cases stores : old.id &&& typeMask = value.type ∧ value.data.length ≤ old.data.length
    · refine ⟨_, true, ?_, fun _ =>
        set_law_store page splits id others page₁ items earlier stores.1 stores.2⟩
      rw [set_store ensured there old.byte, if_pos stores]
    · refine ⟨memory₁, false, ?_, fun success => by cases success⟩
      rw [set_store ensured there old.byte, if_neg stores]

/-- A page made of a configuration. -/
def pageOf (config : List ConfigSection) : Nat → UInt8 :=
  overwrite (fun _ => 0xFF) 0 (Config.uint16Bytes (2 + (encodeSections config).length) ++
    (encodeSections config ++ [0xFF, 0xFF]))

theorem pageOf_represents (fits : 2 + (encodeSections config).length + 2 ≤ configPageSize) :
    Represents (pageOf config) config :=
  ⟨fits, Holds.overwritten⟩

/-- An empty section before one with a byte. -/
def twoSections : List ConfigSection :=
  [⟨1, [], by decide⟩, ⟨2, [⟨0x81, [7], .inr (.inl ⟨by decide, rfl⟩)⟩], by decide⟩]

theorem set_law_iff_twoSections :
    ∃ memory' done, Config.set (pageOf twoSections) 2 0x81 (.byte 5) = some (memory', done) ∧
      (done = true →
        (Config.SetLaw (pageOf twoSections) memory' 2 0x81 (.byte 5) ↔
          SetFits twoSections 2 0x81 (.byte 5))) :=
  set_law_iff (pageOf_represents (by decide)) 2 0x81 (.byte 5)

/-- A byte appended to the first section is written over the header of the second. -/
theorem set_byte_loses_section :
    Represents (pageOf twoSections) twoSections ∧
      ∃ memory', Config.set (pageOf twoSections) 1 0x81 (.byte 5) = some (memory', true) ∧
        ¬ Config.SetLaw (pageOf twoSections) memory' 1 0x81 (.byte 5) := by
  refine ⟨pageOf_represents (by decide), _, rfl, fun law => ?_⟩
  have lost := (law.others 2 0x81 (by decide)).byte
  revert lost
  decide +kernel

end FuseX.Spectranet
