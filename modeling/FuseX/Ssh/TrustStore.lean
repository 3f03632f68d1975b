import FuseX.Ssh.KnownHosts

/-!
# The laws of the trust store

Storing a fingerprint makes the lookup of its key find it and leaves the lookup of
every other key as it was (`lookup_store`, `lookup_store_other`), when the file is
`Storable`: where the entry goes behind the last line, that line has an end.
-/

namespace FuseX.Ssh

/-! ## Scanning -/

theorem cString_plain {s : Bytes} (plain : 0 ∉ s) : cString s = s := by
  rw [cString, List.takeWhile_eq_self_iff]
  intro c member
  simp only [ne_eq, decide_eq_true_eq]
  rintro rfl
  exact plain member

/-- A word in front of a space. -/
theorem scanWord_word {width : Nat} (word : Word width) {c : UInt8} (space : isSpace c = true)
    (rest : Bytes) : scanWord width (word.text ++ c :: rest) = (word.text, c :: rest) := by
  have plain : ∀ b ∈ word.text, isSpace b = false := fun b member => (word.plain b member).1
  obtain ⟨b, bs, text_eq⟩ := List.exists_cons_of_ne_nil word.nonempty
  have first : isSpace b = false := plain b (by rw [text_eq]; exact List.mem_cons_self)
  have front : (word.text ++ c :: rest).dropWhile isSpace = word.text ++ c :: rest := by
    rw [text_eq, List.cons_append, List.dropWhile_cons_of_neg (by simp [first])]
  have taken : (word.text ++ c :: rest).takeWhile (fun c => ¬ isSpace c) = word.text := by
    rw [List.takeWhile_append_of_pos (by simpa using plain), List.takeWhile_cons_of_neg (by simp [space]),
      List.append_nil]
  rw [scanWord]
  simp only [front, taken, List.take_of_length_le word.fits, List.drop_left]

/-- Spaces in front of a word are skipped. -/
theorem scanWord_skip {width : Nat} {c : UInt8} (space : isSpace c = true) (rest : Bytes) :
    scanWord width (c :: rest) = scanWord width rest := by
  rw [scanWord, scanWord, List.dropWhile_cons_of_pos space]

variable {key : Word 31} {fingerprint : Word 95}

theorem zero_notMem_entry : 0 ∉ entry key.text fingerprint.text := by
  intro member
  rw [entry] at member
  simp only [List.mem_append, List.mem_singleton] at member
  rcases member with ((inKey | space) | inFingerprint) | newline
  · exact (key.plain 0 inKey).2 rfl
  · cases space
  · exact (fingerprint.plain 0 inFingerprint).2 rfl
  · cases newline

theorem scan_entry : scanWord 31 (cString (entry key.text fingerprint.text)) =
    (key.text, ascii ' ' :: (fingerprint.text ++ [ascii '\n'])) := by
  rw [cString_plain zero_notMem_entry, entry, List.append_assoc, List.append_assoc,
    List.singleton_append]
  exact scanWord_word key (by decide) _

theorem fileKey_entry : fileKey (entry key.text fingerprint.text) = key.text := by
  rw [fileKey, scan_entry]

theorem storedWord_entry : storedWord (entry key.text fingerprint.text) = fingerprint.text := by
  rw [storedWord, scan_entry, scanWord_skip (by decide), scanWord_word fingerprint (by decide)]

theorem piece_entry : Piece (entry key.text fingerprint.text) ∧
    Closed (entry key.text fingerprint.text) := by
  refine ⟨⟨?_, ?_, ?_⟩, ?_⟩
  · exact List.append_ne_nil_of_right_ne_nil _ (List.cons_ne_nil _ _)
  · have keyFits := key.fits
    have fingerprintFits := fingerprint.fits
    simp only [entry, List.length_append, List.length_singleton, lineRoom]
    omega
  · rw [entry, List.dropLast_concat]
    simp only [List.mem_append, List.mem_singleton]
    rintro ((inKey | space) | inFingerprint)
    · exact absurd (key.plain _ inKey).1 (by decide)
    · cases space
    · exact absurd (fingerprint.plain _ inFingerprint).1 (by decide)
  · left
    rw [entry, List.getLast?_concat]

/-! ## The new file -/

/-- The lines of the new file. -/
def storedLines (key entry : Bytes) (stored : Bool) : List Bytes → List Bytes
  | [] => if stored then [] else [entry]
  | line :: lines =>
      if IsEntry key line then
        (if stored then [] else [entry]) ++ storedLines key entry true lines
      else line :: storedLines key entry stored lines

theorem storeLines_eq {key entry : Bytes} {lines : List Bytes} (plain : ∀ line ∈ lines, 0 ∉ line)
    (stored : Bool) :
    storeLines key entry stored lines = (storedLines key entry stored lines).flatten := by
  induction lines generalizing stored with
  | nil => cases stored <;> simp [storeLines, storedLines]
  | cons line lines ih =>
    have others := fun line' member => plain line' (List.mem_cons_of_mem line member)
    rw [storeLines, storedLines]
    by_cases same : IsEntry key line
    · rw [if_pos same, if_pos same, ih others, List.flatten_append]
      cases stored <;> simp
    · rw [if_neg same, if_neg same, ih others, List.flatten_cons,
        cString_plain (plain line List.mem_cons_self)]

/-- The entry can be added: the last line has an end, or the entry takes the place of
another one. -/
def Appendable (key : Bytes) (stored : Bool) (lines : List Bytes) : Prop :=
  (∀ line ∈ lines, Closed line) ∨ stored = true ∨ ∃ line ∈ lines, IsEntry key line

theorem ended_cons {line : Bytes} {lines : List Bytes} (ended : Ended lines)
    (closed : lines ≠ [] → Closed line) : Ended (line :: lines) := by
  cases lines with
  | nil => trivial
  | cons line' lines => exact ⟨closed (List.cons_ne_nil _ _), ended⟩

theorem storedLines_ended {key entry : Bytes} (piece : Piece entry) (closed : Closed entry)
    {lines : List Bytes} {stored : Bool} (pieces : ∀ line ∈ lines, Piece line)
    (ended : Ended lines) (appendable : Appendable key stored lines) :
    (∀ line ∈ storedLines key entry stored lines, Piece line) ∧
      Ended (storedLines key entry stored lines) := by
  induction lines generalizing stored with
  | nil =>
    rw [storedLines]
    cases stored with
    | true => exact ⟨fun _ member => absurd member List.not_mem_nil, trivial⟩
    | false => exact ⟨fun line member => (List.mem_singleton.mp member) ▸ piece, trivial⟩
  | cons line lines ih =>
    have others := fun line' member => pieces line' (List.mem_cons_of_mem line member)
    have ended' : Ended lines := by
      cases lines with
      | nil => trivial
      | cons line' lines => exact ended.2
    rw [storedLines]
    by_cases same : IsEntry key line
    · rw [if_pos same]
      obtain ⟨pieces', ended''⟩ := @ih true others ended' (.inr (.inl rfl))
      cases stored with
      | true => exact ⟨pieces', ended''⟩
      | false =>
        refine ⟨?_, ended_cons ended'' fun _ => closed⟩
        intro line' member
        rcases List.mem_cons.mp member with rfl | later
        · exact piece
        · exact pieces' line' later
    · rw [if_neg same]
      have appendable' : Appendable key stored lines := by
        rcases appendable with all | already | ⟨line', member, found⟩
        · exact .inl fun line' member => all line' (List.mem_cons_of_mem line member)
        · exact .inr (.inl already)
        · rcases List.mem_cons.mp member with rfl | later
          · exact absurd found same
          · exact .inr (.inr ⟨line', later, found⟩)
      obtain ⟨pieces', ended''⟩ := ih others ended' appendable'
      refine ⟨?_, ended_cons ended'' ?_⟩
      · intro line' member
        rcases List.mem_cons.mp member with rfl | later
        · exact pieces _ List.mem_cons_self
        · exact pieces' line' later
      · intro more
        cases lines with
        | cons line' lines => exact ended.1
        | nil =>
          -- the entry goes behind the last line
          rcases appendable' with - | already | ⟨line', member, -⟩
          · rcases appendable with all | already | ⟨line', member, found⟩
            · exact all line List.mem_cons_self
            · rw [already, storedLines, if_pos rfl] at more
              exact absurd rfl more
            · rw [List.mem_singleton.mp member] at found
              exact absurd found same
          · rw [already, storedLines, if_pos rfl] at more
            exact absurd rfl more
          · cases member

/-! ## The laws -/

/-- A file that an entry can be stored in. -/
structure Storable (key file : Bytes) : Prop where
  plain : 0 ∉ file
  appendable : Appendable key false (fgetsLines file)

theorem fgetsLines_store {file : Bytes} (storable : Storable key.text file) :
    fgetsLines (store key.text fingerprint.text file) =
      storedLines key.text (entry key.text fingerprint.text) false (fgetsLines file) := by
  obtain ⟨pieces, ended, whole⟩ := @fgetsFrom_pieces [] file List.not_mem_nil (by decide)
  have plain : ∀ line ∈ fgetsLines file, 0 ∉ line := by
    intro line member zero
    apply storable.plain
    have inside : (0 : UInt8) ∈ (fgetsLines file).flatten := List.mem_flatten_of_mem member zero
    have file_eq : (fgetsLines file).flatten = file := whole
    rw [file_eq] at inside
    exact inside
  obtain ⟨pieces', ended'⟩ := storedLines_ended piece_entry.1 (@piece_entry key fingerprint).2 pieces
    ended storable.appendable
  rw [store, storeLines_eq plain]
  exact fgetsLines_flatten pieces' ended'

/-- The host's fingerprint is found. -/
theorem lookup_store {file : Bytes} (storable : Storable key.text file) :
    lookup key.text (store key.text fingerprint.text file) = some fingerprint.text := by
  have found : lineLookup key.text (entry key.text fingerprint.text) = some fingerprint.text := by
    rw [lineLookup, fileKey_entry, storedWord_entry]
    exact if_pos ⟨key.nonempty, fingerprint.nonempty, rfl⟩
  rw [lookup, fgetsLines_store storable]
  induction fgetsLines file with
  | nil =>
    rw [storedLines]
    simp only [Bool.false_eq_true, if_false, List.findSome?_cons, found]
  | cons line lines ih =>
    rw [storedLines]
    by_cases same : IsEntry key.text line
    · rw [if_pos same]
      simp only [Bool.false_eq_true, if_false, List.singleton_append, List.findSome?_cons, found]
    · have passed : lineLookup key.text line = none :=
        if_neg fun all => same ⟨all.1, all.2.2⟩
      rw [if_neg same, List.findSome?_cons, passed]
      exact ih

/-- Every other key is looked up as before. -/
theorem lookup_store_other {file other : Bytes} (storable : Storable key.text file)
    (different : other ≠ key.text) :
    lookup other (store key.text fingerprint.text file) = lookup other file := by
  have passed {line : Bytes} (same : fileKey line = key.text) : lineLookup other line = none :=
    if_neg fun all => different (all.2.2.symm.trans same)
  rw [lookup, lookup, fgetsLines_store storable]
  generalize false = stored
  induction fgetsLines file generalizing stored with
  | nil =>
    rw [storedLines]
    cases stored with
    | true => rfl
    | false =>
      simp only [Bool.false_eq_true, if_false, List.findSome?_cons, passed fileKey_entry]
  | cons line lines ih =>
    rw [storedLines]
    by_cases same : IsEntry key.text line
    · rw [if_pos same, List.findSome?_cons, passed same.2, ← ih true]
      cases stored with
      | true => rfl
      | false =>
        simp only [Bool.false_eq_true, if_false, List.singleton_append, List.findSome?_cons,
          passed fileKey_entry]
    · rw [if_neg same, List.findSome?_cons, List.findSome?_cons, ih stored]

end FuseX.Ssh
