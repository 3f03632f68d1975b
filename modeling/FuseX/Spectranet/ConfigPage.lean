import FuseX.Spectranet.Config

/-!
# Well-formed configuration pages

A configuration is a list of sections of typed items, and a page `Represents` it
when it holds its encoding, its size and the terminator. On such a page the walks
of the source are lookups in the configuration:

* `walkSections_eq` and `findItem_eq` say where the loops stop;
* `getString_eq`, `getByte_eq` and `getInt_eq` say what the getters return;
* `represents_iff` reads the configuration off the bytes of a page.
-/

namespace FuseX.Spectranet

open Lib

/-! ## Configurations -/

/-- The data have the size the type says. -/
def WellSized (id : UInt8) (data : List UInt8) : Prop :=
  id &&& typeMask = typeString ∧ (∃ text : CString, data = text.bytes ++ [0]) ∨
  id &&& typeMask = typeByte ∧ data.length = 1 ∨
  id &&& typeMask = typeInt ∧ data.length = 2

/-- A typed item. -/
structure ConfigItem : Type where
  id : UInt8
  data : List UInt8
  sized : WellSized id data

def ConfigItem.encode (item : ConfigItem) : List UInt8 :=
  item.id :: item.data

/-- The items of a section, as they are stored. -/
def encodeItems (items : List ConfigItem) : List UInt8 :=
  items.flatMap ConfigItem.encode

/-- A section whose size fits its field. -/
structure ConfigSection : Type where
  id : UInt16
  items : List ConfigItem
  small : (encodeItems items).length < 2 ^ 16

def ConfigSection.encode (s : ConfigSection) : List UInt8 :=
  Config.uint16Bytes s.id.toNat ++ Config.uint16Bytes (encodeItems s.items).length ++
    encodeItems s.items

/-- The sections of a page, as they are stored. -/
def encodeSections (config : List ConfigSection) : List UInt8 :=
  config.flatMap ConfigSection.encode

/-- The item a configuration has under the ids: the first of the first section. -/
def itemOf (config : List ConfigSection) (sectionId : UInt16) (itemId : UInt8) :
    Option ConfigItem :=
  (config.find? (·.id = sectionId)).bind fun s => s.items.find? (·.id = itemId)

/-- The page holds the configuration. -/
structure Represents (memory : Nat → UInt8) (config : List ConfigSection) : Prop where
  fits : 2 + (encodeSections config).length + 2 ≤ configPageSize
  holds : Holds memory 0 (Config.uint16Bytes (2 + (encodeSections config).length) ++
    (encodeSections config ++ [0xFF, 0xFF]))

namespace Config

variable {memory : Nat → UInt8}

/-! ## Words -/

@[simp]
theorem length_uint16Bytes (value : Nat) : (uint16Bytes value).length = 2 := rfl

theorem readUint16_eq {start value : Nat} (holds : Holds memory start (uint16Bytes value))
    (small : value < 2 ^ 16) : readUint16 memory start = value := by
  have low := holds 0 (by simp)
  have high := holds 1 (by simp)
  simp only [uint16Bytes, Nat.add_zero, List.getElem_cons_zero, List.getElem_cons_succ] at low high
  rw [readUint16, low, high, UInt8.toNat_ofNat', UInt8.toNat_ofNat']
  omega

theorem uint16Bytes_inj {value value' : Nat} (small : value < 2 ^ 16) (small' : value' < 2 ^ 16)
    (same : uint16Bytes value = uint16Bytes value') : value = value' := by
  have holds : Holds (overwrite (fun _ => 0) 0 (uint16Bytes value)) 0 (uint16Bytes value) :=
    Holds.overwritten
  rw [← readUint16_eq holds small]
  rw [same] at holds ⊢
  exact readUint16_eq holds small'

end Config

/-! ## Encodings -/

/-- A string is what stands before the first zero. -/
theorem CString.takeWhile (text : CString) (rest : List UInt8) :
    (text.bytes ++ 0 :: rest).takeWhile (· ≠ 0) = text.bytes := by
  rw [List.takeWhile_append_of_pos, List.takeWhile_cons_of_neg (by simp), List.append_nil]
  intro byte member
  have nonzero : byte ≠ 0 := fun zero => text.noNul (zero ▸ member)
  simpa using nonzero

/-- The type shows where an item's data end. -/
theorem WellSized.delimits {id : UInt8} {data data' s t : List UInt8} (sized : WellSized id data)
    (sized' : WellSized id data') (same : data ++ s = data' ++ t) : data = data' ∧ s = t := by
  have ofLength : data.length = data'.length → data = data' ∧ s = t :=
    fun length => List.append_inj same length
  rcases sized with ⟨type, text, rfl⟩ | ⟨type, length⟩ | ⟨type, length⟩ <;>
    rcases sized' with ⟨type', text', rfl⟩ | ⟨type', length'⟩ | ⟨type', length'⟩
  · -- both strings end at their first zero
    rw [List.append_assoc, List.append_assoc] at same
    have bytes : text.bytes = text'.bytes := by
      rw [← text.takeWhile s, ← text'.takeWhile t]
      exact congrArg _ same
    exact ofLength (by rw [bytes])
  · exact absurd (type.symm.trans type') (by decide)
  · exact absurd (type.symm.trans type') (by decide)
  · exact absurd (type.symm.trans type') (by decide)
  · exact ofLength (length.trans length'.symm)
  · exact absurd (type.symm.trans type') (by decide)
  · exact absurd (type.symm.trans type') (by decide)
  · exact absurd (type.symm.trans type') (by decide)
  · exact ofLength (length.trans length'.symm)

theorem items_delimit : SelfDelimiting ConfigItem.encode where
  nonempty item := List.cons_ne_nil _ _
  splits := by
    rintro ⟨id, data, sized⟩ ⟨id', data', sized'⟩ s t same
    have parts : id = id' ∧ data ++ s = data' ++ t := List.cons.inj same
    obtain ⟨rfl, tail⟩ := parts
    obtain ⟨rfl, rest⟩ := sized.delimits sized' tail
    exact ⟨rfl, rest⟩

theorem sections_delimit : SelfDelimiting ConfigSection.encode where
  nonempty s := by simp [ConfigSection.encode, Config.uint16Bytes]
  splits := by
    rintro ⟨id, items, small⟩ ⟨id', items', small'⟩ s t same
    simp only [ConfigSection.encode, List.append_assoc] at same
    obtain ⟨ids, same⟩ := List.append_inj same rfl
    obtain ⟨sizes, same⟩ := List.append_inj same rfl
    have length := Config.uint16Bytes_inj small small' sizes
    obtain ⟨packed, rest⟩ := List.append_inj same length
    obtain rfl := packed_inj items_delimit packed
    obtain rfl := UInt16.toNat_inj.mp (Config.uint16Bytes_inj id.toNat_lt id'.toNat_lt ids)
    exact ⟨rfl, rest⟩

@[simp]
theorem encodeSections_append (config config' : List ConfigSection) :
    encodeSections (config ++ config') = encodeSections config ++ encodeSections config' :=
  List.flatMap_append

@[simp]
theorem encodeSections_cons (s : ConfigSection) (config : List ConfigSection) :
    encodeSections (s :: config) = s.encode ++ encodeSections config :=
  List.flatMap_cons

@[simp]
theorem encodeItems_append (items items' : List ConfigItem) :
    encodeItems (items ++ items') = encodeItems items ++ encodeItems items' :=
  List.flatMap_append

@[simp]
theorem encodeItems_cons (item : ConfigItem) (items : List ConfigItem) :
    encodeItems (item :: items) = item.id :: (item.data ++ encodeItems items) :=
  List.flatMap_cons

@[simp]
theorem ConfigSection.length_encode (s : ConfigSection) :
    s.encode.length = 4 + (encodeItems s.items).length := by
  simp [ConfigSection.encode]
  omega

/-- A page whose bytes are known represents what packs to them. -/
theorem represents_iff {memory : Nat → UInt8} {body : List UInt8} {config : List ConfigSection}
    (small : 2 + body.length < 2 ^ 16)
    (holds : Holds memory 0 (Config.uint16Bytes (2 + body.length) ++ (body ++ [0xFF, 0xFF]))) :
    Represents memory config ↔
      encodeSections config = body ∧ 2 + body.length + 2 ≤ configPageSize := by
  constructor
  · rintro ⟨fits, represented⟩
    have total := Config.readUint16_eq (Holds.append.mp holds).1 small
    rw [Config.readUint16_eq (Holds.append.mp represented).1 (by rw [configPageSize] at fits; omega)]
      at total
    have length : (encodeSections config).length = body.length := by omega
    have same := (Holds.append.mp represented).2.unique (Holds.append.mp holds).2
      (by simp [length])
    obtain ⟨packed, -⟩ := List.append_inj same length
    exact ⟨packed, by rw [← length]; exact fits⟩
  · rintro ⟨rfl, fits⟩
    exact ⟨fits, holds⟩

/-! ## The walks -/

namespace Config

variable {memory : Nat → UInt8}

/-- The walk passes the sections with another id. -/
theorem walkSections_skip {sectionId : UInt16} {front : List ConfigSection} {start total fuel : Nat}
    (holds : Holds memory start (encodeSections front))
    (others : ∀ s ∈ front, s.id ≠ sectionId)
    (inside : start + (encodeSections front).length ≤ total) (small : total + 2 ≤ configPageSize) :
    walkSections memory total sectionId (front.length + fuel) start =
      walkSections memory total sectionId fuel (start + (encodeSections front).length) := by
  rw [configPageSize] at small
  induction front generalizing start with
  | nil =>
    rw [List.length_nil, Nat.zero_add]
    rfl
  | cons s front ih =>
    rw [encodeSections_cons, List.length_append, ConfigSection.length_encode] at inside ⊢
    rw [encodeSections_cons, Holds.append, ConfigSection.length_encode] at holds
    obtain ⟨here, behind⟩ := holds
    rw [ConfigSection.encode, List.append_assoc, Holds.append, Holds.append] at here
    obtain ⟨idHere, sizeHere, -⟩ := here
    have id := readUint16_eq idHere s.id.toNat_lt
    have size : readUint16 memory (start + 2) = (encodeItems s.items).length :=
      readUint16_eq sizeHere s.small
    have other : s.id.toNat ≠ sectionId.toNat := by
      rw [ne_eq, UInt16.toNat_inj]
      exact others s List.mem_cons_self
    have loop : start < total ∧ start < configPageSize - 4 := by
      rw [configPageSize]
      omega
    have next : (start + 4 + (encodeItems s.items).length) % 2 ^ 16 =
        start + (4 + (encodeItems s.items).length) := by
      omega
    rw [List.length_cons, Nat.add_right_comm, walkSections, if_pos loop, id, if_neg other, size, next,
      ih behind (fun t member => others t (List.mem_cons_of_mem _ member)) (by omega), Nat.add_assoc]

theorem stringEnd_eq {bytes : List UInt8} {pointer left : Nat} (nonzero : 0 ∉ bytes)
    (holds : Holds memory pointer (bytes ++ [0])) (enough : bytes.length < left) :
    stringEnd memory left pointer = pointer + bytes.length := by
  induction bytes generalizing pointer left with
  | nil =>
    obtain ⟨left, rfl⟩ := Nat.exists_eq_add_one_of_ne_zero (Nat.ne_zero_of_lt enough)
    have zero : memory pointer = 0 := (Holds.cons.mp holds).1
    rw [stringEnd, zero]
    rfl
  | cons byte bytes ih =>
    obtain ⟨left, rfl⟩ := Nat.exists_eq_add_one_of_ne_zero (Nat.ne_zero_of_lt enough)
    obtain ⟨first, rest⟩ := Holds.cons.mp holds
    have here : memory pointer ≠ 0 := by
      rw [first]
      rintro rfl
      exact nonzero List.mem_cons_self
    rw [List.length_cons] at enough ⊢
    rw [stringEnd, if_pos here,
      ih (fun member => nonzero (List.mem_cons_of_mem _ member)) rest (by omega)]
    omega

/-- The loop of `find_item` passes the items with another id. -/
theorem findItemLoop_skip {itemId : UInt8} {front : List ConfigItem} {start stop fuel : Nat}
    (holds : Holds memory start (encodeItems front)) (others : ∀ item ∈ front, item.id ≠ itemId)
    (inside : start + (encodeItems front).length ≤ stop) :
    findItemLoop memory stop itemId (front.length + fuel) start =
      findItemLoop memory stop itemId fuel (start + (encodeItems front).length) := by
  induction front generalizing start with
  | nil =>
    rw [List.length_nil, Nat.zero_add]
    rfl
  | cons item front ih =>
    rw [encodeItems_cons, Holds.cons, Holds.append] at holds
    obtain ⟨id, data, behind⟩ := holds
    rw [encodeItems_cons, List.length_cons, List.length_append] at inside
    have next := ih behind (fun other member => others other (List.mem_cons_of_mem _ member))
      (by omega)
    have place : start + (encodeItems (item :: front)).length =
        start + 1 + item.data.length + (encodeItems front).length := by
      rw [encodeItems_cons, List.length_cons, List.length_append]
      omega
    have other : item.id ≠ itemId := others item List.mem_cons_self
    have going : ¬ stop ≤ start := by omega
    rw [List.length_cons, Nat.add_right_comm, findItemLoop, if_neg going, id, place, ← next]
    dsimp only
    rw [if_neg other]
    rcases item.sized with ⟨type, text, whole⟩ | ⟨type, length⟩ | ⟨type, length⟩
    · rw [whole] at data inside
      rw [List.length_append, List.length_singleton] at inside
      rw [if_pos type, stringEnd_eq text.noNul data (by omega), whole, List.length_append]
      rfl
    · rw [if_neg (by rw [type]; decide), if_pos type, length]
    · rw [if_neg (by rw [type]; decide), if_neg (by rw [type]; decide), if_pos type, length]

/-- The loop of `find_item` stops at an item with the id. -/
theorem findItemLoop_here {item : ConfigItem} {start stop fuel : Nat}
    (holds : Holds memory start (item.id :: item.data)) (inside : start + 1 + item.data.length ≤ stop) :
    findItemLoop memory stop item.id (fuel + 1) start =
      some (item.id &&& typeMask, start + 1, item.data.length) := by
  obtain ⟨id, data⟩ := Holds.cons.mp holds
  rw [findItemLoop, if_neg (by omega), id]
  dsimp only
  rw [if_pos rfl]
  rcases item.sized with ⟨type, text, whole⟩ | ⟨type, length⟩ | ⟨type, length⟩
  · rw [whole] at data inside
    rw [List.length_append, List.length_singleton] at inside
    rw [if_pos type, stringEnd_eq text.noNul data (by omega), whole, List.length_append,
      Nat.add_sub_cancel_left]
    rfl
  · rw [if_neg (by rw [type]; decide), if_pos type, length]
  · rw [if_neg (by rw [type]; decide), if_neg (by rw [type]; decide), if_pos type, length]

end Config

/-! ## Lookups on a page -/

/-- Every item takes a byte at least. -/
theorem length_le_encodeItems (items : List ConfigItem) :
    items.length ≤ (encodeItems items).length := by
  induction items with
  | nil => exact Nat.le_refl _
  | cons item items ih =>
    rw [encodeItems_cons, List.length_cons, List.length_cons, List.length_append]
    omega

theorem length_le_encodeSections (config : List ConfigSection) :
    4 * config.length ≤ (encodeSections config).length := by
  induction config with
  | nil => exact Nat.le_refl _
  | cons s config ih =>
    rw [encodeSections_cons, List.length_cons, List.length_append, s.length_encode]
    omega

/-- An item, among those of a section. -/
theorem findItem_here {memory : Nat → UInt8} {front back : List ConfigItem} {item : ConfigItem}
    {start : Nat} (holds : Holds memory (start + 2) (encodeItems (front ++ item :: back)))
    (others : ∀ other ∈ front, other.id ≠ item.id) :
    Config.findItem memory start (encodeItems (front ++ item :: back)).length item.id =
      some (item.id &&& typeMask, start + 2 + (encodeItems front).length + 1, item.data.length) := by
  rw [encodeItems_append, encodeItems_cons, Holds.append, ← List.cons_append, Holds.append] at holds
  obtain ⟨first, here, -⟩ := holds
  have total : (encodeItems (front ++ item :: back)).length =
      (encodeItems front).length + (1 + item.data.length + (encodeItems back).length) := by
    simp only [encodeItems_append, encodeItems_cons, List.length_append, List.length_cons]
    omega
  have turns := length_le_encodeItems front
  rw [Config.findItem]
  generalize (encodeItems (front ++ item :: back)).length = size at *
  obtain ⟨fuel, rfl⟩ : ∃ fuel, size = front.length + (fuel + 1) :=
    ⟨size - front.length - 1, by omega⟩
  rw [Config.findItemLoop_skip first others (by omega), Config.findItemLoop_here here (by omega)]

/-- No item of a section has the id. -/
theorem findItem_absent {memory : Nat → UInt8} {items : List ConfigItem} {itemId : UInt8}
    {start : Nat} (holds : Holds memory (start + 2) (encodeItems items))
    (others : ∀ other ∈ items, other.id ≠ itemId) :
    Config.findItem memory start (encodeItems items).length itemId = none := by
  have turns := length_le_encodeItems items
  have skip := @Config.findItemLoop_skip memory itemId items (start + 2)
    (start + 2 + (encodeItems items).length) ((encodeItems items).length - items.length)
    holds others (Nat.le_refl _)
  rw [Nat.add_sub_cancel' turns] at skip
  rw [Config.findItem, skip]
  cases (encodeItems items).length - items.length with
  | zero => rfl
  | succ fuel => rw [Config.findItemLoop, if_pos (Nat.le_refl _)]

namespace Represents

variable {memory : Nat → UInt8} {config front behind : List ConfigSection} {s : ConfigSection}

theorem totalSize (page : Represents memory config) :
    Config.readUint16 memory 0 = 2 + (encodeSections config).length := by
  have fits := page.fits
  rw [configPageSize] at fits
  exact Config.readUint16_eq (Holds.append.mp page.holds).1 (by omega)

theorem sections (page : Represents memory config) : Holds memory 2 (encodeSections config) := by
  have body := (Holds.append.mp page.holds).2
  rw [Config.length_uint16Bytes, Nat.zero_add] at body
  exact (Holds.append.mp body).1

/-- Where no section has the id, the walk ends behind the sections. -/
theorem walk_absent {sectionId : UInt16} (page : Represents memory config)
    (others : ∀ s ∈ config, s.id ≠ sectionId) :
    Config.walkSections memory (2 + (encodeSections config).length) sectionId configPageSize 2 =
      some (false, 2 + (encodeSections config).length) := by
  have fits := page.fits
  have short := length_le_encodeSections config
  obtain ⟨fuel, enough⟩ : ∃ fuel, configPageSize = config.length + (fuel + 1) :=
    ⟨configPageSize - config.length - 1, by omega⟩
  rw [enough, Config.walkSections_skip page.sections others (Nat.le_refl _) fits, Config.walkSections,
    if_neg (by omega)]

theorem findSection_absent {sectionId : UInt16} (page : Represents memory config)
    (others : ∀ s ∈ config, s.id ≠ sectionId) : Config.findSection memory sectionId = some none := by
  rw [Config.findSection, page.totalSize, page.walk_absent others]
  rfl

theorem findSection_here (page : Represents memory (front ++ s :: behind))
    (others : ∀ t ∈ front, t.id ≠ s.id) :
    Config.findSection memory s.id =
      some (some (2 + (encodeSections front).length + 2, (encodeItems s.items).length)) := by
  have fits := page.fits
  have short := length_le_encodeSections front
  have sections := page.sections
  rw [encodeSections_append, encodeSections_cons, Holds.append, Holds.append] at sections
  obtain ⟨first, here, -⟩ := sections
  rw [ConfigSection.encode, List.append_assoc, Holds.append, Holds.append] at here
  obtain ⟨idHere, sizeHere, -⟩ := here
  have total : (encodeSections (front ++ s :: behind)).length = (encodeSections front).length +
      (4 + (encodeItems s.items).length + (encodeSections behind).length) := by
    simp
  obtain ⟨fuel, enough⟩ : ∃ fuel, configPageSize = front.length + (fuel + 1) :=
    ⟨configPageSize - front.length - 1, by omega⟩
  have id := Config.readUint16_eq idHere s.id.toNat_lt
  have size : Config.readUint16 memory (2 + (encodeSections front).length + 2) =
      (encodeItems s.items).length := Config.readUint16_eq sizeHere s.small
  have going : 2 + (encodeSections front).length < 2 + (encodeSections (front ++ s :: behind)).length ∧
      2 + (encodeSections front).length < configPageSize - 4 := by
    omega
  rw [Config.findSection, page.totalSize, enough,
    Config.walkSections_skip first others (by omega) fits, Config.walkSections, if_pos going, if_pos id]
  change some (some (_, Config.readUint16 memory _)) = _
  rw [size]

/-- Where the items of a section are. -/
theorem items (page : Represents memory (front ++ s :: behind)) :
    Holds memory (2 + (encodeSections front).length + 2 + 2) (encodeItems s.items) := by
  have sections := page.sections
  rw [encodeSections_append, encodeSections_cons, Holds.append, Holds.append] at sections
  obtain ⟨-, here, -⟩ := sections
  exact (Holds.append.mp here).2

end Represents

theorem find?_eq_some_split {α : Type} {p : α → Prop} [DecidablePred p] {list : List α} {a : α}
    (found : list.find? p = some a) :
    p a ∧ ∃ front back, list = front ++ a :: back ∧ ∀ b ∈ front, ¬ p b := by
  obtain ⟨holds, front, back, rfl, others⟩ := List.find?_eq_some_iff_append.mp found
  exact ⟨by simpa using holds, front, back, rfl, by simpa using others⟩

namespace Represents

variable {memory : Nat → UInt8} {config : List ConfigSection} {sectionId : UInt16} {itemId : UInt8}

/-- A pair that is not there is not found. -/
theorem lookup_none (page : Represents memory config)
    (absent : itemOf config sectionId itemId = none) (type : UInt8) :
    Config.lookup memory sectionId itemId type = some none := by
  rw [itemOf] at absent
  cases place : config.find? (·.id = sectionId) with
  | none =>
    have others : ∀ s ∈ config, s.id ≠ sectionId := by simpa using place
    rw [Config.lookup, page.findSection_absent others]
    rfl
  | some s =>
    obtain ⟨rfl, front, behind, rfl, others⟩ := find?_eq_some_split place
    rw [place] at absent
    have missing : ∀ item ∈ s.items, item.id ≠ itemId := by simpa using absent
    rw [Config.lookup, page.findSection_here others]
    simp only [Option.bind_eq_bind, Option.bind_some, findItem_absent page.items missing]
    rfl

/-- A pair that is there is found, with its data. -/
theorem lookup_some (page : Represents memory config) {item : ConfigItem}
    (present : itemOf config sectionId itemId = some item) :
    ∃ place, Holds memory place item.data ∧ ∀ type,
      Config.lookup memory sectionId itemId type =
        some (if itemId &&& typeMask = type then some (place, item.data.length) else none) := by
  obtain ⟨s, place, within⟩ := Option.bind_eq_some_iff.mp present
  obtain ⟨rfl, front, behind, rfl, others⟩ := find?_eq_some_split place
  obtain ⟨rfl, before, after, splits, missing⟩ := find?_eq_some_split within
  have holds := page.items
  rw [splits] at holds
  refine ⟨2 + (encodeSections front).length + 2 + 2 + (encodeItems before).length + 1, ?_, ?_⟩
  · rw [encodeItems_append, encodeItems_cons, Holds.append, ← List.cons_append, Holds.append,
      Holds.cons] at holds
    exact holds.2.1.2
  · intro type
    rw [Config.lookup, page.findSection_here others]
    simp only [Option.bind_eq_bind, Option.bind_some]
    rw [splits, findItem_here holds missing]
    rfl

end Represents

/-! ## What the getters return -/

namespace Config

theorem readBytes_eq {memory : Nat → UInt8} {place count : Nat} {bytes : List UInt8}
    (holds : Holds memory place bytes) (inside : count ≤ bytes.length) :
    readBytes memory place count = bytes.take count := by
  apply List.ext_getElem
  · simp [readBytes, inside]
  · intro i low _
    have short : i < count := by simpa [readBytes] using low
    simp only [readBytes, List.getElem_map, List.getElem_range, List.getElem_take]
    exact holds i (by omega)

end Config

theorem CString.takeWhile_take (text : CString) (count : Nat) :
    (text.bytes.take count).takeWhile (· ≠ 0) = text.bytes.take count := by
  rw [← List.append_nil (text.bytes.take count), List.takeWhile_append_of_pos, List.takeWhile_nil]
  intro byte member
  have nonzero : byte ≠ 0 := fun zero => text.noNul (zero ▸ List.mem_of_mem_take member)
  simpa using nonzero

namespace ConfigItem

variable (item : ConfigItem)

theorem text (type : item.id &&& typeMask = typeString) :
    ∃ text : CString, item.data = text.bytes ++ [0] := by
  rcases item.sized with ⟨-, text⟩ | ⟨other, -⟩ | ⟨other, -⟩
  · exact text
  · exact absurd (type.symm.trans other) (by decide)
  · exact absurd (type.symm.trans other) (by decide)

theorem byte (type : item.id &&& typeMask = typeByte) : item.data.length = 1 := by
  rcases item.sized with ⟨other, -⟩ | ⟨-, length⟩ | ⟨other, -⟩
  · exact absurd (type.symm.trans other) (by decide)
  · exact length
  · exact absurd (type.symm.trans other) (by decide)

theorem int (type : item.id &&& typeMask = typeInt) : item.data.length = 2 := by
  rcases item.sized with ⟨other, -⟩ | ⟨other, -⟩ | ⟨-, length⟩
  · exact absurd (type.symm.trans other) (by decide)
  · exact absurd (type.symm.trans other) (by decide)
  · exact length

/-- What `spectranet_config_get_string` gives of an item. -/
def getString (bufferSize : Nat) : Option (List UInt8) :=
  if bufferSize ≠ 0 ∧ item.id &&& typeMask = typeString then
    some (item.data.dropLast.take (bufferSize - 1))
  else none

def getByte : Option UInt8 :=
  if item.id &&& typeMask = typeByte then item.data.head? else none

def getInt : Option Nat :=
  if item.id &&& typeMask = typeInt then
    some ((item.data.getD 0 0).toNat + 256 * (item.data.getD 1 0).toNat)
  else none

end ConfigItem

namespace Represents

variable {memory : Nat → UInt8} {config : List ConfigSection} {sectionId : UInt16} {itemId : UInt8}

theorem itemOf_id {item : ConfigItem} (present : itemOf config sectionId itemId = some item) :
    item.id = itemId := by
  obtain ⟨s, -, within⟩ := Option.bind_eq_some_iff.mp present
  exact (find?_eq_some_split within).1

theorem getString_eq (page : Represents memory config) (bufferSize : Nat) :
    Config.getString memory sectionId itemId bufferSize =
      some ((itemOf config sectionId itemId).bind (·.getString bufferSize)) := by
  rw [Config.getString]
  by_cases empty : bufferSize = 0
  · cases itemOf config sectionId itemId <;> simp [empty, ConfigItem.getString]
  rw [if_neg empty]
  cases present : itemOf config sectionId itemId with
  | none =>
    rw [page.lookup_none present]
    rfl
  | some item =>
    obtain ⟨place, data, found⟩ := page.lookup_some present
    have id := itemOf_id present
    rw [found]
    by_cases type : itemId &&& typeMask = typeString
    · obtain ⟨text, whole⟩ := item.text (id ▸ type)
      rw [whole] at data
      rw [if_pos type]
      have given : item.getString bufferSize = some (text.bytes.take (bufferSize - 1)) := by
        simp [ConfigItem.getString, id, type, whole, empty]
      change some (some ((Config.readBytes memory place _).takeWhile _)) = _
      rw [Option.bind_some, given, whole, List.length_append, List.length_singleton]
      split
      · next fits =>
        rw [Config.readBytes_eq data (by simp), List.take_of_length_le (by simp), text.takeWhile [],
          List.take_of_length_le (by omega)]
      · next tight =>
        rw [Config.readBytes_eq data (by simp; omega), List.take_append_of_le_length (by omega),
          text.takeWhile_take]
    · simp [type, ConfigItem.getString, id]

theorem getByte_eq (page : Represents memory config) :
    Config.getByte memory sectionId itemId =
      some ((itemOf config sectionId itemId).bind (·.getByte)) := by
  rw [Config.getByte]
  cases present : itemOf config sectionId itemId with
  | none =>
    rw [page.lookup_none present]
    rfl
  | some item =>
    obtain ⟨place, data, found⟩ := page.lookup_some present
    have id := itemOf_id present
    rw [found]
    by_cases type : itemId &&& typeMask = typeByte
    · obtain ⟨value, whole⟩ := List.length_eq_one_iff.mp (item.byte (id ▸ type))
      rw [whole] at data
      rw [if_pos type]
      change some (some (memory place)) = _
      simp [ConfigItem.getByte, id, type, whole, (Holds.cons.mp data).1]
    · simp [type, ConfigItem.getByte, id]

theorem getInt_eq (page : Represents memory config) :
    Config.getInt memory sectionId itemId =
      some ((itemOf config sectionId itemId).bind (·.getInt)) := by
  rw [Config.getInt]
  cases present : itemOf config sectionId itemId with
  | none =>
    rw [page.lookup_none present]
    rfl
  | some item =>
    obtain ⟨place, data, found⟩ := page.lookup_some present
    have id := itemOf_id present
    rw [found]
    by_cases type : itemId &&& typeMask = typeInt
    · obtain ⟨low, high, whole⟩ := List.length_eq_two.mp (item.int (id ▸ type))
      rw [whole, Holds.cons, Holds.cons] at data
      rw [if_pos type]
      change some (some (Config.readUint16 memory place)) = _
      simp [ConfigItem.getInt, Config.readUint16, id, type, whole, data.1, data.2.1]
    · simp [type, ConfigItem.getInt, id]

end Represents

end FuseX.Spectranet
