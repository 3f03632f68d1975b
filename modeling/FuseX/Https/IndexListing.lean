import FuseX.Https.IndexText

/-!
# What an opened directory lists

`indexLines` and `statedEntry` say what an `index.txt` lists, with no loop and no counter: its
lines, and for each line the entry that the last `type`, `name` and `size` of its words state.
Both passes over the text read just these entries (`count_pass`, `fill_pass`). The count is
kept in eight bits; it does not wrap, for no line that names an entry is shorter than
`type=dir` and the buffer has no room for 256 of them (`validEntries_length`).
-/

namespace FuseX.Https

open Lib

/-! ## What the lines state -/

/-- The lines of an index, without the blanks in front of them. -/
def indexLines (body : Text) : List Text := pieces isBlank isLineEnd body

def word (text : Text) : Text := piece isBlank text

/-- The line from each of its words on. The first word without a `=` ends the line. -/
def pairs (line : Text) : List Text :=
  (starts isBlank isBlank false line).takeWhile fun text => decide ('=' ∈ word text)

def keyOf (text : Text) : Text := text.takeWhile (· ≠ '=')

/-- The line behind the `=`. -/
def afterKey (text : Text) : Text := (text.dropWhile (· ≠ '=')).tail

def valueOf (text : Text) : Text := word (afterKey text)

/-- What the last of the words with this key says. -/
def lastOf {β : Type} (key : String) (value : Text → Option β) (line : Text) : Option β :=
  ((pairs line).filterMap fun text => if keyOf text = key.toList then value text else none).getLast?

/-- A word that is too long for a kind is passed over. -/
def statedType (line : Text) : Text :=
  (lastOf "type" (fun text => if (valueOf text).length < typeSize then some (valueOf text)
    else none) line).getD []

def statedName (line : Text) : Text := (lastOf "name" (fun text => some (valueOf text)) line).getD []

/-- The number behind `size=`, in 32 bits. -/
def statedSize (line : Text) : UInt32 :=
  (lastOf "size" (fun text => some (UInt32.ofNat (strtoul (afterKey text)))) line).getD 0

/-- The entry that a line names, if it is valid. -/
def statedEntry (line : Text) : Option Entry :=
  let name := (statedName (lineText line)).take entryNameMax
  if statedType (lineText line) = "dir".toList then some { name, isDir := true, size := 0 }
  else if statedType (lineText line) = "file".toList then
    some { name, isDir := false, size := statedSize (lineText line) }
  else none

/-- The entries of the valid lines, in the order of the file. -/
def validEntries (body : Text) : List Entry := (indexLines body).filterMap statedEntry

/-! ## A line -/

theorem isKey_eq {c : Char} (key : isKey c = true) : c ≠ '=' ∧ isBlank c = false := by
  rw [isKey, Bool.not_eq_true'] at key
  obtain ⟨other, inside⟩ := Bool.or_eq_false_iff.mp key
  exact ⟨of_decide_eq_false other, inside⟩

/-- Where a key ends: at a `=`, or where the word does. -/
theorem key_ends {text rest : Text} {c : Char} (left : text.dropWhile isKey = c :: rest) :
    c = '=' ∨ isBlank c = true := by
  have stops := dropWhile_head left
  rw [isKey, Bool.not_eq_false', Bool.or_eq_true] at stops
  exact stops.imp of_decide_eq_true id

/-- A key at the front of a text belongs to the text's first word. -/
theorem word_key (text : Text) :
    word text = text.takeWhile isKey ++ word (text.dropWhile isKey) := by
  conv_lhs => rw [← List.takeWhile_append_dropWhile (p := isKey) (l := text)]
  rw [word, piece, List.takeWhile_append_of_pos]
  · rfl
  · intro c member
    rw [(isKey_eq (List.mem_takeWhile_imp member)).2]
    rfl

theorem not_mem_key (text : Text) : '=' ∉ text.takeWhile isKey :=
  fun member => (isKey_eq (List.mem_takeWhile_imp member)).1 rfl

/-- A word with a `=`. -/
theorem pair_parts {text valueStart : Text} (left : text.dropWhile isKey = '=' :: valueStart) :
    '=' ∈ word text ∧ keyOf text = text.takeWhile isKey ∧ afterKey text = valueStart
      ∧ behind isBlank text = behind isBlank valueStart := by
  have shape : text = text.takeWhile isKey ++ '=' :: valueStart := by
    rw [← left, List.takeWhile_append_dropWhile]
  have other : ∀ c ∈ text.takeWhile isKey, decide (c ≠ '=') = true :=
    fun c member => decide_eq_true (isKey_eq (List.mem_takeWhile_imp member)).1
  have inside : ∀ c ∈ text.takeWhile isKey, (!isBlank c) = true :=
    fun c member => by rw [(isKey_eq (List.mem_takeWhile_imp member)).2]; rfl
  refine ⟨?_, ?_, ?_, ?_⟩
  · rw [word_key, left]
    exact List.mem_append_right _ (List.mem_cons_self)
  · conv_lhs => rw [keyOf, shape]
    rw [List.takeWhile_append_of_pos other, List.takeWhile_cons_of_neg (by decide),
      List.append_nil]
  · conv_lhs => rw [afterKey, shape]
    rw [List.dropWhile_append_of_pos other, List.dropWhile_cons_of_neg (by decide)]
    rfl
  · conv_lhs => rw [behind, shape]
    rw [List.dropWhile_append_of_pos inside]
    exact behind_cons rfl valueStart

/-- A word without one. -/
theorem no_pair {text : Text} (left : ∀ rest, text.dropWhile isKey ≠ '=' :: rest) :
    '=' ∉ word text := by
  rw [word_key]
  intro member
  rcases List.mem_append.mp member with inKey | behindKey
  · exact not_mem_key text inKey
  · cases rest : text.dropWhile isKey with
    | nil =>
      rw [rest] at behindKey
      cases behindKey
    | cons c rest' =>
      rcases key_ends rest with rfl | blank
      · exact left rest' rest
      · rw [rest, word, piece, List.takeWhile_cons_of_neg (by rw [blank]; exact Bool.noConfusion)]
          at behindKey
        cases behindKey

def putPair (f : Fields) (text : Text) : Fields :=
  f.put (keyOf text) (valueOf text) (afterKey text)

theorem word_value {text : Text} (oneLine : ∀ c ∈ text, isLineEnd c = false) :
    text.takeWhile isValue = word text ∧ text.dropWhile isValue = behind isBlank text := by
  induction text with
  | nil => exact ⟨rfl, rfl⟩
  | cons c text ih =>
    obtain ⟨taken, left⟩ := ih fun c member => oneLine c (List.mem_cons_of_mem _ member)
    have same : isValue c = !isBlank c := by
      rw [isValue, oneLine c List.mem_cons_self, Bool.or_false]
    rw [word, piece, behind, List.takeWhile_cons, List.takeWhile_cons, List.dropWhile_cons,
      List.dropWhile_cons, same]
    exact ⟨by rw [taken]; rfl, by rw [left]; rfl⟩

theorem pairs_dropWhile (line : Text) : pairs (line.dropWhile isBlank) = pairs line := by
  rw [pairs, starts_dropWhile (fun c blank => by rw [blank]; rfl)]
  rfl

/-- The first word of a line that does not begin with a blank. -/
theorem pairs_word {line : Text} {c : Char} {rest : Text} (first : line = c :: rest)
    (inside : isBlank c = false) :
    pairs line = if '=' ∈ word line then line :: pairs (behind isBlank line) else [] := by
  rw [pairs, first, starts_cons (by rw [inside]; rfl), List.takeWhile_cons]
  simp only [decide_eq_true_eq]
  rfl

/-- A skip over blanks that leaves no line end leaves the front of a word. -/
theorem skip_word {p : Text}
    (going : ¬ (p.dropWhile isBlank).head?.all isLineEnd = true) :
    ∃ c rest, p.dropWhile isBlank = c :: rest ∧ isBlank c = false := by
  cases left : p.dropWhile isBlank with
  | nil =>
    rw [left] at going
    exact absurd rfl going
  | cons c rest => exact ⟨c, rest, rfl, dropWhile_head left⟩

theorem skip_end {p : Text} (oneLine : ∀ c ∈ p, isLineEnd c = false)
    (ended : (p.dropWhile isBlank).head?.all isLineEnd = true) : p.dropWhile isBlank = [] := by
  cases left : p.dropWhile isBlank with
  | nil => rfl
  | cons c rest =>
    have member : c ∈ p := (List.dropWhile_sublist _).subset (left ▸ List.mem_cons_self)
    rw [left, List.head?_cons, Option.all_some, oneLine c member] at ended
    cases ended

/-- The loop over a line goes over its pairs. -/
theorem readPairs_eq {p : Text} (oneLine : ∀ c ∈ p, isLineEnd c = false) (f : Fields) :
    readPairs p f = (pairs p).foldl putPair f := by
  fun_induction readPairs p f with
  | case1 p f keyStart ended =>
    rw [← pairs_dropWhile, skip_end oneLine ended]
    rfl
  | case2 p f keyStart going valueStart after ih =>
    obtain ⟨c, rest, first, inside⟩ := skip_word going
    obtain ⟨isPair, key, behindKey, next⟩ := pair_parts after
    have within : ∀ c ∈ valueStart, isLineEnd c = false := by
      intro c member
      have inKeyStart : c ∈ keyStart :=
        (List.dropWhile_sublist _).subset (after ▸ List.mem_cons_of_mem _ member)
      exact oneLine c ((List.dropWhile_sublist _).subset inKeyStart)
    obtain ⟨value, left⟩ := word_value within
    rw [ih fun c member => within c ((List.dropWhile_sublist _).subset member),
      ← pairs_dropWhile p, pairs_word first inside, if_pos isPair, List.foldl_cons, next, left,
      putPair, key, valueOf, behindKey, value]
  | case3 p f keyStart going none_ =>
    obtain ⟨c, rest, first, inside⟩ := skip_word going
    rw [← pairs_dropWhile, pairs_word first inside, if_neg (no_pair none_)]
    rfl

/-- What putting a pair does to a part of what is read of the line, the last such pair does. -/
theorem foldl_lastOf {β : Type} {get : Fields → β} {key : String} {value : Text → Option β}
    (each : ∀ f text, get (putPair f text)
      = (if keyOf text = key.toList then value text else none).getD (get f)) (line : Text) :
    get ((pairs line).foldl putPair {}) = (lastOf key value line).getD (get {}) :=
  foldl_last each _ _

theorem put_type (f : Fields) (text : Text) :
    (putPair f text).type = (if keyOf text = "type".toList then
      (if (valueOf text).length < typeSize then some (valueOf text) else none) else none).getD
        f.type := by
  rw [putPair, Fields.put]
  split
  · split <;> rfl
  · split
    · split <;> rfl
    · split <;> rfl

theorem put_name (f : Fields) (text : Text) :
    (putPair f text).name = (if keyOf text = "name".toList then
      (if (valueOf text).length < nameSize then some (valueOf text) else none) else none).getD
        f.name := by
  rw [putPair, Fields.put]
  split
  · next isType =>
    rw [isType, if_neg (show "type".toList ≠ "name".toList by decide)]
    split <;> rfl
  · split
    · split <;> rfl
    · split <;> rfl

theorem put_size (f : Fields) (text : Text) :
    (putPair f text).size = (if keyOf text = "size".toList then
      some (UInt32.ofNat (strtoul (afterKey text))) else none).getD f.size := by
  rw [putPair, Fields.put]
  split
  · next isType =>
    rw [isType, if_neg (show "type".toList ≠ "size".toList by decide)]
    split <;> rfl
  · split
    · next isName =>
      rw [isName, if_neg (show "name".toList ≠ "size".toList by decide)]
      split <;> rfl
    · split <;> rfl

theorem valueOf_length (text : Text) : (valueOf text).length ≤ text.length := by
  rw [valueOf, word, piece, afterKey]
  refine (List.takeWhile_sublist _).length_le.trans ?_
  rw [List.length_tail]
  exact (Nat.sub_le _ _).trans (List.length_dropWhile_le _ _)

theorem lineText_length (line : Text) : (lineText line).length < lineSize := by
  have kept : (lineText line).length ≤ (line.take (lineSize - 1)).length :=
    (List.takeWhile_sublist _).length_le
  exact kept.trans_lt (Nat.lt_succ_of_le (List.length_take_le _ _))

/-- No value in a line is too long for a name. -/
theorem lastOf_name (line : Text) :
    lastOf "name" (fun text => if (valueOf text).length < nameSize then some (valueOf text)
      else none) (lineText line) = lastOf "name" (fun text => some (valueOf text)) (lineText line) := by
  rw [lastOf, lastOf]
  congr 1
  refine List.filterMap_congr fun text member => ?_
  have short : (valueOf text).length < nameSize :=
    (valueOf_length text).trans_lt
      ((starts_length ((List.takeWhile_sublist _).subset member)).trans_lt (lineText_length line))
  rw [if_pos short]

theorem parse_line {line : Text} (oneLine : ∀ c ∈ line, isLineEnd c = false) :
    parseIndexLineToEntry (lineText line) = statedEntry line := by
  have within : ∀ c ∈ lineText line, isLineEnd c = false := fun c member =>
    oneLine c (List.mem_of_mem_take ((List.takeWhile_sublist _).subset member))
  have type := foldl_lastOf put_type (lineText line)
  have name := foldl_lastOf put_name (lineText line)
  have size := foldl_lastOf put_size (lineText line)
  rw [lastOf_name] at name
  rw [parseIndexLineToEntry, readPairs_eq within, statedEntry]
  simp only [type, name, size]
  rfl

/-! ## A pass over the text -/

theorem validEntries_dropWhile (buffer : Text) :
    validEntries (buffer.dropWhile fun c => isBlank c || isLineEnd c) = validEntries buffer := by
  rw [validEntries, indexLines, pieces, starts_dropWhile (fun c skipped => skipped)]
  rfl

theorem validEntries_skipLineEnd (buffer : Text) :
    validEntries (skipLineEnd buffer) = validEntries buffer := by
  have char : ∀ c, isLineEnd c = true → ∀ buffer,
      validEntries (skipChar c buffer) = validEntries buffer := by
    intro c isEnd buffer
    rw [skipChar]
    split
    · next first =>
      cases buffer with
      | nil => cases first
      | cons c' rest =>
        obtain rfl := Option.some.inj first
        rw [List.tail_cons, validEntries, validEntries, indexLines, indexLines, pieces, pieces,
          starts_skip (by rw [isEnd, Bool.or_true])]
    · rfl
  rw [skipLineEnd, char _ rfl, char _ rfl]

/-- The first line, and what lies behind it. -/
theorem validEntries_line {c : Char} (first : (isBlank c || isLineEnd c) = false) (rest : Text) :
    validEntries (c :: rest) = (statedEntry (piece isLineEnd (c :: rest))).toList
      ++ validEntries (skipLineEnd (behind isLineEnd (c :: rest))) := by
  rw [validEntries_skipLineEnd, validEntries, indexLines, pieces, starts_cons first,
    List.map_cons]
  cases stated : statedEntry (piece isLineEnd (c :: rest)) with
  | none => rw [List.filterMap_cons_none stated]; rfl
  | some entry => rw [List.filterMap_cons_some stated]; rfl

theorem line_ne_nil {c : Char} (first : (isBlank c || isLineEnd c) = false) (rest : Text) :
    piece isLineEnd (c :: rest) ≠ [] := by
  rw [piece, List.takeWhile_cons_of_pos (by rw [(Bool.or_eq_false_iff.mp first).2]; rfl)]
  exact List.cons_ne_nil _ _

/-- One line is counted. -/
theorem takeLine_count {memory : Nat → Bool} {line : Text} (some_ : line ≠ [])
    (oneLine : ∀ c ∈ line, isLineEnd c = false) (s : Pass) :
    s.takeLine memory 0 false line = some
      { s with entryIdx := s.entryIdx + UInt8.ofNat (statedEntry line).toList.length } := by
  rw [Pass.takeLine, if_neg some_, if_neg (fun asks => absurd asks.2 Bool.noConfusion),
    parse_line oneLine]
  cases statedEntry line with
  | none => simp
  | some entry => rfl

/-- One line is read for the array. -/
theorem takeLine_fill {memory : Nat → Bool} {maxEntries : UInt8} {line : Text} (some_ : line ≠ [])
    (oneLine : ∀ c ∈ line, isLineEnd c = false) (room : 0 < maxEntries)
    (granted : ∀ n, memory n = true) (s : Pass) :
    s.takeLine memory maxEntries true line = some
      { entryIdx := s.entryIdx + UInt8.ofNat (statedEntry line).toList.length
        entries := s.entries ++ (statedEntry line).toList
        asked := s.asked + 1 } := by
  rw [Pass.takeLine, if_neg some_, if_pos ⟨room, rfl⟩, if_pos (granted _), parse_line oneLine]
  cases statedEntry line with
  | none => simp
  | some entry => rfl

/-- The first pass counts the valid lines. -/
theorem count_pass (memory : Nat → Bool) (buffer : Text) (s : Pass) :
    parseIndexTxt memory 0 false buffer s
      = some { s with entryIdx := s.entryIdx + UInt8.ofNat (validEntries buffer).length } := by
  fun_induction parseIndexTxt memory 0 false buffer s with
  | case1 buffer s more ended =>
    rw [← validEntries_dropWhile, ended]
    simp [validEntries, indexLines, pieces, starts]
  | case2 buffer s more c rest start lineStart ih =>
    have first := dropWhile_head start
    rw [takeLine_count (line_ne_nil first rest) (fun c member => mem_piece member),
      Option.bind_some, ih, ← validEntries_dropWhile buffer, start, validEntries_line first,
      List.length_append, UInt8.ofNat_add, UInt8.add_assoc]
  | case3 buffer s more => exact absurd (.inl rfl) more

/-- Below the size of the array there is no wrap. -/
theorem advance_toNat {i m : UInt8} (below : i < m) {n : Nat} (one : n ≤ 1) :
    (i + UInt8.ofNat n).toNat = i.toNat + n ∧ i + UInt8.ofNat n ≤ m := by
  have less : i.toNat < m.toNat := below
  have bound := m.toNat_lt
  have sum : (i + UInt8.ofNat n).toNat = i.toNat + n := by
    rw [UInt8.toNat_add, UInt8.toNat_ofNat']
    omega
  refine ⟨sum, UInt8.le_iff_toNat_le.mpr ?_⟩
  omega

theorem toList_length {α : Type} (o : Option α) : o.toList.length ≤ 1 := by
  cases o with
  | none => exact Nat.zero_le 1
  | some _ => exact Nat.le_refl 1

/-- The second pass puts the entries into the array until it is full. -/
theorem fill_pass {memory : Nat → Bool} {maxEntries : UInt8} (room : 0 < maxEntries)
    (granted : ∀ n, memory n = true) (buffer : Text) (s : Pass)
    (counted : s.entryIdx.toNat = s.entries.length) (within : s.entryIdx ≤ maxEntries) :
    ∃ s', parseIndexTxt memory maxEntries true buffer s = some s'
      ∧ s'.entries = (s.entries ++ validEntries buffer).take maxEntries.toNat
      ∧ s'.entryIdx.toNat = s'.entries.length := by
  fun_induction parseIndexTxt memory maxEntries true buffer s with
  | case1 buffer s more ended =>
    refine ⟨s, rfl, ?_, counted⟩
    rw [← validEntries_dropWhile, ended, List.take_of_length_le]
    · exact (List.append_nil _).symm
    · rw [List.length_append, ← counted]
      exact within
  | case2 buffer s more c rest start lineStart ih =>
    have first := dropWhile_head start
    have below : s.entryIdx < maxEntries := by
      refine more.resolve_left fun none_ => ?_
      rw [none_] at room
      exact absurd room (Nat.lt_irrefl 0)
    obtain ⟨next, stays⟩ := advance_toNat below
      (toList_length (statedEntry (piece isLineEnd lineStart)))
    rw [takeLine_fill (line_ne_nil first rest) (fun c member => mem_piece member) room granted,
      Option.bind_some]
    obtain ⟨s', parsed, entries, idx⟩ :=
      ih { entryIdx := s.entryIdx
              + UInt8.ofNat (statedEntry (piece isLineEnd lineStart)).toList.length
           entries := s.entries ++ (statedEntry (piece isLineEnd lineStart)).toList
           asked := s.asked + 1 }
        (by rw [List.length_append, ← counted]; exact next) stays
    refine ⟨s', parsed, ?_, idx⟩
    rw [entries, List.append_assoc, ← validEntries_line first, ← start, validEntries_dropWhile]
  | case3 buffer s full =>
    have reached : s.entryIdx = maxEntries :=
      UInt8.le_antisymm within (UInt8.not_lt.mp fun below => full (.inr below))
    refine ⟨s, rfl, ?_, counted⟩
    rw [← reached, counted, List.take_left]

/-! ## The count does not wrap -/

theorem lastOf_mem {β : Type} {key : String} {value : Text → Option β} {line : Text} {v : β}
    (last : lastOf key value line = some v) :
    ∃ text ∈ starts isBlank isBlank false line, keyOf text = key.toList ∧ value text = some v := by
  obtain ⟨text, member, set⟩ := List.mem_filterMap.mp (List.mem_of_getLast? last)
  refine ⟨text, (List.takeWhile_sublist _).subset member, ?_⟩
  split at set
  · next key => exact ⟨key, set⟩
  · cases set

/-- A word has room for its key, the `=` and its value. -/
theorem pair_length {text : Text} (value : valueOf text ≠ []) :
    (keyOf text).length + 1 + (valueOf text).length ≤ text.length := by
  have parts : keyOf text ++ text.dropWhile (· ≠ '=') = text := List.takeWhile_append_dropWhile
  have whole : (keyOf text).length + (text.dropWhile (· ≠ '=')).length = text.length := by
    rw [← List.length_append, parts]
  have within : (valueOf text).length ≤ (afterKey text).length :=
    (List.takeWhile_sublist _).length_le
  have some_ := List.length_pos_iff.mpr value
  rw [afterKey, List.length_tail] at within
  omega

/-- What a line that says so much of its kind has at least. -/
theorem statedType_length {line type : Text} (stated : statedType line = type)
    (some_ : type ≠ []) : 5 + type.length ≤ line.length := by
  rw [statedType] at stated
  cases last : lastOf "type" (fun text => if (valueOf text).length < typeSize
      then some (valueOf text) else none) line with
  | none =>
    rw [last] at stated
    exact absurd stated.symm some_
  | some value =>
    rw [last, Option.getD_some] at stated
    obtain ⟨text, member, key, set⟩ := lastOf_mem last
    have same : valueOf text = type := by
      split at set
      · exact (Option.some.inj set).trans stated
      · cases set
    have room : (keyOf text).length + 1 + (valueOf text).length ≤ text.length :=
      pair_length (by rw [same]; exact some_)
    rw [same, key] at room
    exact Nat.le_trans room (starts_length member)

theorem statedEntry_length {line : Text} {entry : Entry} (stated : statedEntry line = some entry) :
    9 ≤ line.length + 1 := by
  have within : (lineText line).length ≤ line.length :=
    (List.takeWhile_sublist _).length_le.trans (List.length_take_le' _ _)
  rw [statedEntry] at stated
  split at stated
  · next dir =>
    have room := statedType_length dir (by decide)
    rw [show "dir".toList.length = 3 from rfl] at room
    omega
  · split at stated
    · next file =>
      have room := statedType_length file (by decide)
      rw [show "file".toList.length = 4 from rfl] at room
      omega
    · cases stated

theorem validEntries_length (body : Text) : 9 * (validEntries body).length ≤ body.length + 1 :=
  (filterMap_weight (fun _ _ stated => statedEntry_length stated) _).trans (pieces_length body)

/-! ## The opened directory -/

theorem getBuffer_eq (parts : List Text) : httpcGetBuffer parts
    = if parts.flatten.length ≤ indexBufferSize then some parts.flatten else none := by
  suffices behindUsed : ∀ used : Text, used.length ≤ indexBufferSize →
      parts.foldlM getBufferCb used = if (used ++ parts.flatten).length ≤ indexBufferSize
        then some (used ++ parts.flatten) else none from
    behindUsed [] (Nat.zero_le _)
  induction parts with
  | nil =>
    intro used fits
    rw [List.foldlM_nil, List.flatten_nil, List.append_nil, if_pos fits]
    rfl
  | cons part parts ih =>
    intro used fits
    rw [List.foldlM_cons, getBufferCb, List.flatten_cons, ← List.append_assoc]
    split
    · next beyond =>
      rw [if_neg]
      · rfl
      · simp only [List.length_append]
        omega
    · next within =>
      exact ih (used ++ part) (by rw [List.length_append]; omega)

/-- There is memory for whatever is asked for. -/
structure Allocation.Granted (memory : Allocation) : Prop where
  handle : memory.handle = true
  buffer : memory.buffer = true
  array : memory.array = true
  entry : ∀ n, memory.entry n = true

/-- The index of a body that the buffer holds. -/
theorem fetch_entries {request : Request} {memory : Allocation} {parts : List Text}
    (made : request.refused = none) (sent : request.body = some parts) (granted : memory.Granted)
    (fits : parts.flatten.length ≤ indexBufferSize) :
    fetchAndParseIndex request memory
      = .ok ((validEntries parts.flatten).take maxIndexEntries) := by
  have few := validEntries_length parts.flatten
  have size : indexBufferSize = 2048 := rfl
  have most : maxIndexEntries = 128 := rfl
  have noWrap : (UInt8.ofNat (validEntries parts.flatten).length).toNat
      = (validEntries parts.flatten).length := by
    rw [UInt8.toNat_ofNat']
    omega
  rw [fetchAndParseIndex, made, sent]
  simp only [granted.buffer, Bool.true_eq_false, if_false, Option.bind_some, getBuffer_eq,
    if_pos fits, count_pass, UInt8.zero_add, noWrap, granted.array]
  split
  · next empty =>
    have none_ : validEntries parts.flatten = [] := List.length_eq_zero_iff.mp (by omega)
    rw [none_]
    rfl
  · next some_ =>
    have array : (UInt8.ofNat (min (validEntries parts.flatten).length maxIndexEntries)).toNat
        = min (validEntries parts.flatten).length maxIndexEntries := by
      rw [UInt8.toNat_ofNat']
      omega
    have room : 0 < UInt8.ofNat (min (validEntries parts.flatten).length maxIndexEntries) :=
      UInt8.lt_iff_toNat_lt.mpr (by rw [array]; exact Nat.pos_of_ne_zero some_)
    obtain ⟨parsed, pass, entries, idx⟩ := fill_pass room granted.entry parts.flatten {} rfl
      (UInt8.le_iff_toNat_le.mpr (Nat.zero_le _))
    rw [pass]
    simp only
    rw [idx, List.take_length, entries, array, List.nil_append, Nat.min_comm,
      ← List.take_eq_take_min]

/-- The calls of `readdir` go through the entries that are left. -/
theorem read_eq (calls : Nat) (dir : DirHandle) :
    dir.read calls = ((dir.dirEntries.drop dir.dirEntriesPos).map Entry.stat).take calls := by
  induction calls generalizing dir with
  | zero => rfl
  | succ calls ih =>
    rw [DirHandle.read, DirHandle.readdir]
    cases here : dir.dirEntries[dir.dirEntriesPos]? with
    | none =>
      have done : dir.dirEntries.drop dir.dirEntriesPos = [] :=
        List.drop_eq_nil_of_le (List.getElem?_eq_none_iff.mp here)
      have rest := ih dir
      rw [done] at rest ⊢
      exact rest.trans List.take_nil
    | some entry =>
      obtain ⟨bound, isEntry⟩ := List.getElem?_eq_some_iff.mp here
      have rest := ih { dir with dirEntriesPos := dir.dirEntriesPos + 1 }
      rw [List.drop_eq_getElem_cons bound, isEntry, List.map_cons, List.take_succ_cons, ← rest]
      rfl

/-- An opened directory lists the first 128 entries of its index's valid lines. A body for
which the buffer has no room does not open one. -/
theorem opendir_lists {request : Request} {memory : Allocation} {parts : List Text}
    (made : request.refused = none) (sent : request.body = some parts)
    (granted : memory.Granted) :
    (parts.flatten.length ≤ indexBufferSize → ∃ dir, opendir request memory = .ok dir
      ∧ ∀ calls, dir.read calls
        = (((validEntries parts.flatten).take maxIndexEntries).map Entry.stat).take calls)
    ∧ (indexBufferSize < parts.flatten.length → opendir request memory = .error .noent) := by
  refine ⟨fun fits => ⟨{ dirEntries := (validEntries parts.flatten).take maxIndexEntries },
    ?_, fun calls => read_eq calls _⟩, fun beyond => ?_⟩
  · rw [opendir, granted.handle, fetch_entries made sent granted fits]
    rfl
  · rw [opendir, granted.handle, fetchAndParseIndex, made, sent]
    simp only [granted.buffer, Bool.true_eq_false, if_false, Option.bind_some, getBuffer_eq,
      if_neg (Nat.not_le_of_gt beyond)]
    rfl

/-- In two parts, a comment, a directory, and a file with no line end behind it. -/
def twoLines : List Text :=
  ["# games\r\ntype=dir name=ta".toList, "pes\n\n  type=file name=a.tap size=48".toList]

theorem opendir_lists_twoLines : ∃ dir, opendir { body := some twoLines } {} = .ok dir
    ∧ dir.read 5 = [{ isDir := true, size := 0, name := "tapes".toList },
      { isDir := false, size := 48, name := "a.tap".toList }] := by
  have granted : Allocation.Granted {} := ⟨rfl, rfl, rfl, fun _ => rfl⟩
  have made : ({ body := some twoLines } : Request).refused = none := rfl
  obtain ⟨dir, opened, lists⟩ := (opendir_lists made rfl granted).1 (by decide)
  exact ⟨dir, opened, (lists 5).trans (by decide)⟩

/-- A directory in a body of 2049 bytes. -/
def longBody : Text := "type=dir\n".toList ++ List.replicate 2040 ' '

/-- A name of 64 bytes, and a size of more than 32 bits. -/
def longName : Text :=
  "type=file name=".toList ++ List.replicate 64 'a' ++ " size=4294967297".toList

/-- A kind that stands behind the first 255 bytes of its line. -/
def longLine : Text := "name=".toList ++ List.replicate 250 'b' ++ " type=dir".toList

/-- The limits show: of the buffer, of a name and of a size, and of a line. -/
theorem opendir_limits :
    (opendir { body := some [longBody] } {} = .error .noent ∧ (validEntries longBody).length = 1)
    ∧ (∃ dir, opendir { body := some [longName] } {} = .ok dir
      ∧ dir.read 1 = [{ isDir := false, size := 1, name := List.replicate 63 'a' }])
    ∧ (∃ dir, opendir { body := some [longLine] } {} = .ok dir ∧ dir.read 1 = []) := by
  have granted : Allocation.Granted {} := ⟨rfl, rfl, rfl, fun _ => rfl⟩
  have opens : ∀ body : Text, body.length ≤ indexBufferSize →
      opendir { body := some [body] } {}
        = .ok { dirEntries := (validEntries body).take maxIndexEntries } := by
    intro body fits
    have whole : [body].flatten = body := List.append_nil body
    have made : ({ body := some [body] } : Request).refused = none := rfl
    have entries := fetch_entries made rfl granted (by rw [whole]; exact fits)
    rw [whole] at entries
    rw [opendir, entries]
    rfl
  refine ⟨⟨?_, by decide +kernel⟩, ⟨_, opens longName (by decide), ?_⟩,
    ⟨_, opens longLine (by decide +kernel), ?_⟩⟩
  · have none_ : httpcGetBuffer [longBody] = none := by
      rw [getBuffer_eq, if_neg (by decide +kernel)]
    rw [opendir, fetchAndParseIndex]
    simp only [Bool.true_eq_false, if_false, Option.bind_some, none_]
    rfl
  · rw [read_eq]
    decide
  · rw [read_eq]
    decide +kernel

end FuseX.Https
