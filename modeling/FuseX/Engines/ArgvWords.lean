import FuseX.Engines.Argv

/-!
# Both passes over a word

The search for the end of a word and the pass that takes its quotes out go through the same states:
`Word` is a piece of a line, the characters that are left of it, and the quotation it begins and
ends in. Each pass, and `words`, is followed along it.
-/

namespace FuseX.Engines.Argv

open Lib

/-! ## Pieces of a word -/

/-- A piece of a word, from one state of the quotation to another, and its characters without the
quotes. -/
inductive Word : Option UInt8 → Buffer → Buffer → Option UInt8 → Prop
  | nil {quote : Option UInt8} : Word quote [] [] quote
  | char {c : UInt8} {raw chars : Buffer} {quote' : Option UInt8} (other : c ≠ space)
      (plain : isQuote c = false) (rest : Word none raw chars quote') :
      Word none (c :: raw) (c :: chars) quote'
  | opening {c : UInt8} {raw chars : Buffer} {quote' : Option UInt8} (quotes : isQuote c = true)
      (rest : Word (some c) raw chars quote') : Word none (c :: raw) chars quote'
  | closing {c : UInt8} {raw chars : Buffer} {quote' : Option UInt8}
      (rest : Word none raw chars quote') : Word (some c) (c :: raw) chars quote'
  | inside {c quote : UInt8} {raw chars : Buffer} {quote' : Option UInt8} (other : c ≠ quote)
      (rest : Word (some quote) raw chars quote') :
      Word (some quote) (c :: raw) (c :: chars) quote'

/-- A line begins with a word, which ends at a space or with the line. -/
theorem exists_word (quote : Option UInt8) (line : Buffer) :
    ∃ raw chars quote' rest, line = raw ++ rest ∧ Word quote raw chars quote' ∧
      (rest = [] ∨ quote' = none ∧ ∃ rest', rest = space :: rest') := by
  induction line generalizing quote with
  | nil => exact ⟨[], [], quote, [], rfl, .nil, Or.inl rfl⟩
  | cons c line ih =>
    rcases quote with _ | quote
    · by_cases ends : c = space
      · exact ⟨[], [], none, c :: line, rfl, .nil, Or.inr ⟨rfl, line, by rw [ends]⟩⟩
      rcases quotes : isQuote c with _ | _
      · obtain ⟨raw, chars, quote', rest, rfl, word, ended⟩ := ih none
        exact ⟨c :: raw, c :: chars, quote', rest, rfl, .char ends quotes word, ended⟩
      · obtain ⟨raw, chars, quote', rest, rfl, word, ended⟩ := ih (some c)
        exact ⟨c :: raw, chars, quote', rest, rfl, .opening quotes word, ended⟩
    · by_cases closes : c = quote
      · obtain ⟨raw, chars, quote', rest, rfl, word, ended⟩ := ih none
        exact ⟨c :: raw, chars, quote', rest, rfl, closes ▸ .closing word, ended⟩
      · obtain ⟨raw, chars, quote', rest, rfl, word, ended⟩ := ih (some quote)
        exact ⟨c :: raw, c :: chars, quote', rest, rfl, .inside closes word, ended⟩

variable {quote quote' : Option UInt8} {raw chars : Buffer}

theorem space_not_quote : isQuote space = false := by
  decide

/-- The words of a line that goes on with a piece of a word. -/
theorem wordsIn_word (word : Word quote raw chars quote') (before rest : Buffer) :
    wordsIn before quote (raw ++ rest) = wordsIn (before ++ chars) quote' rest := by
  induction word generalizing before with
  | nil => rw [List.append_nil, List.nil_append]
  | char other plain _ ih =>
    rw [List.cons_append, wordsIn, if_neg other, plain, if_neg Bool.false_ne_true, ih,
      List.append_assoc, List.singleton_append]
  | @opening c _ _ _ quotes _ ih =>
    have other : c ≠ space := by
      rintro rfl
      exact absurd quotes (by decide)
    rw [List.cons_append, wordsIn, if_neg other, quotes, if_pos rfl, ih]
  | closing _ ih => rw [List.cons_append, wordsIn, if_pos rfl, ih]
  | inside other _ ih =>
    rw [List.cons_append, wordsIn, if_neg other, ih, List.append_assoc, List.singleton_append]

/-- `quote`, as the code has it. -/
def quoteChar (quote : Option UInt8) : UInt8 := quote.getD 0

/-- A quotation that is open is open with a character. -/
def Proper (quote : Option UInt8) : Prop := quote ≠ some 0

/-- The characters of a word are read where they are. -/
theorem read_here (done line : Buffer) (c : UInt8) :
    (done ++ c :: line)[done.length]? = some c := by
  rw [List.getElem?_append_right (Nat.le_refl _), Nat.sub_self]
  rfl

/-- The state of the quotation behind a character that does not end the word. -/
def quoteBehind (q c : UInt8) : UInt8 :=
  if q ≠ 0 then if c = q then 0 else q else if isQuote c then c else q

/-- What the search does with a character, and where it goes on. -/
theorem findEnd_cons {done raw rest : Buffer} {c q q₁ q' : UInt8} {left : Nat}
    (more : q ≠ 0 ∨ c ≠ space) (behind : quoteBehind q c = q₁)
    (going : findEnd ((done ++ [c]) ++ (raw ++ rest)) (raw.length + left) (done ++ [c]).length q₁ =
      findEnd ((done ++ [c]) ++ raw ++ rest) left ((done ++ [c]) ++ raw).length q') :
    findEnd (done ++ (c :: raw ++ rest)) ((c :: raw).length + left) done.length q =
      findEnd ((done ++ c :: raw) ++ rest) left (done ++ c :: raw).length q' := by
  rw [List.append_cons done c raw, ← going, ← behind, List.length_cons, Nat.add_right_comm,
    List.cons_append, findEnd, read_here, List.length_append, List.length_singleton,
    List.append_assoc, List.singleton_append]
  by_cases inQuotes : q ≠ 0
  · simp only [if_pos inQuotes, quoteBehind]
  · simp only [if_neg inQuotes, if_neg (more.resolve_left inQuotes), quoteBehind]

/-- The search for the end of a word. -/
theorem findEnd_word (word : Word quote raw chars quote') (proper : Proper quote)
    (plain : 0 ∉ raw) (done rest : Buffer) (left : Nat) :
    findEnd (done ++ (raw ++ rest)) (raw.length + left) done.length (quoteChar quote) =
      findEnd ((done ++ raw) ++ rest) left (done ++ raw).length (quoteChar quote') := by
  induction word generalizing done with
  | nil => rw [List.length_nil, Nat.zero_add, List.append_nil, List.nil_append]
  | @char c _ _ _ other plainChar _ ih =>
    have behind : quoteBehind 0 c = 0 := by
      rw [quoteBehind, if_neg (not_not.mpr rfl), plainChar, if_neg Bool.false_ne_true]
    exact findEnd_cons (Or.inr other) behind
      (ih (Option.some_ne_none _).symm (fun zero => plain (List.mem_cons_of_mem c zero)) _)
  | @opening c _ _ _ quotes _ ih =>
    have other : c ≠ space := by
      rintro rfl
      exact absurd quotes (by decide)
    have inLine : c ≠ 0 := fun zero => plain (zero ▸ List.mem_cons_self)
    have behind : quoteBehind 0 c = c := by
      rw [quoteBehind, if_neg (not_not.mpr rfl), quotes, if_pos rfl]
    exact findEnd_cons (Or.inr other) behind
      (ih (fun same => inLine (Option.some.inj same))
        (fun zero => plain (List.mem_cons_of_mem c zero)) _)
  | @closing c _ _ _ _ ih =>
    have inLine : c ≠ 0 := fun zero => plain (zero ▸ List.mem_cons_self)
    have behind : quoteBehind c c = 0 := by
      rw [quoteBehind, if_pos inLine, if_pos rfl]
    exact findEnd_cons (Or.inl inLine) behind
      (ih (Option.some_ne_none _).symm (fun zero => plain (List.mem_cons_of_mem c zero)) _)
  | @inside c quote _ _ _ other _ ih =>
    have inLine : quote ≠ 0 := fun zero => proper (congrArg some zero)
    have behind : quoteBehind quote c = quote := by
      rw [quoteBehind, if_pos inLine, if_neg other]
    exact findEnd_cons (Or.inl inLine) behind
      (ih proper (fun zero => plain (List.mem_cons_of_mem c zero)) _)

/-- A write where there is something. -/
theorem write_here (done line : Buffer) (c d : UInt8) :
    write (done ++ c :: line) done.length d = some (done ++ d :: line) := by
  have inside : done.length < (done ++ c :: line).length := by
    rw [List.length_append, List.length_cons]
    omega
  rw [write, if_pos inside, List.set_append_right _ _ (Nat.le_refl _), Nat.sub_self]
  rfl

/-- A character is moved to the end of what is done, over a gap of which the length stays. -/
theorem write_moved (done gap line : Buffer) (c : UInt8) :
    ∃ gap', gap'.length = gap.length ∧
      write (done ++ gap ++ c :: line) done.length c = some ((done ++ [c]) ++ gap' ++ line) := by
  rcases gap with _ | ⟨g, gap⟩
  · refine ⟨[], rfl, ?_⟩
    rw [List.append_nil, List.append_nil, write_here, List.append_cons]
  · refine ⟨gap ++ [c], by rw [List.length_append]; rfl, ?_⟩
    rw [List.append_assoc, List.cons_append, write_here]
    simp only [List.append_assoc, List.cons_append, List.nil_append]

/-- The second pass over a character that is kept. -/
theorem collapse_keep {fuel : Nat} {done gap line : Buffer} {c q : UInt8} (inLine : c ≠ 0)
    (kept : if q ≠ 0 then c ≠ q else isQuote c = false) :
    ∃ gap', gap'.length = gap.length ∧
      collapseLoop (fuel + 1) (done ++ gap ++ c :: line) done.length (done ++ gap).length q =
        collapseLoop fuel ((done ++ [c]) ++ gap' ++ line) (done ++ [c]).length
          ((done ++ [c]) ++ gap').length q := by
  obtain ⟨gap', same, written⟩ := write_moved done gap line c
  have wide : (done ++ [c]).length = done.length + 1 := List.length_append
  have far : ((done ++ [c]) ++ gap').length = (done ++ gap).length + 1 := by
    rw [List.length_append, wide, List.length_append, same]
    omega
  refine ⟨gap', same, ?_⟩
  rw [collapseLoop, read_here, far, wide]
  by_cases inQuotes : q ≠ 0
  · rw [if_pos inQuotes] at kept
    simp only [if_neg inLine, if_pos inQuotes, if_neg kept, written, Option.bind_some]
  · rw [if_neg inQuotes] at kept
    simp only [if_neg inLine, if_neg inQuotes, kept, Bool.false_eq_true, if_false, written,
      Option.bind_some]

/-- The second pass over a quote. -/
theorem collapse_drop {fuel : Nat} {done gap line : Buffer} {c q q' : UInt8} (inLine : c ≠ 0)
    (dropped : if q ≠ 0 then c = q ∧ q' = 0 else isQuote c = true ∧ q' = c) :
    collapseLoop (fuel + 1) (done ++ gap ++ c :: line) done.length (done ++ gap).length q =
      collapseLoop fuel (done ++ (gap ++ [c]) ++ line) done.length (done ++ (gap ++ [c])).length
        q' := by
  have far : (done ++ (gap ++ [c])).length = (done ++ gap).length + 1 := by
    rw [← List.append_assoc, List.length_append, List.length_singleton]
  have shape : done ++ (gap ++ [c]) ++ line = done ++ gap ++ c :: line := by
    simp only [List.append_assoc, List.singleton_append]
  rw [collapseLoop, read_here, shape, far]
  by_cases inQuotes : q ≠ 0
  · rw [if_pos inQuotes] at dropped
    simp only [if_neg inLine, if_pos inQuotes, if_pos dropped.1, dropped.2]
  · rw [if_neg inQuotes] at dropped
    simp only [if_neg inLine, if_neg inQuotes, dropped.1, if_true, dropped.2]

/-- The second pass over a piece `raw` of a word leaves `chars` of it, and a longer gap. -/
def Collapses (raw chars : Buffer) (q q' : UInt8) : Prop :=
  ∀ (fuel : Nat) (done gap line : Buffer),
    ∃ gap', chars.length + gap'.length = gap.length + raw.length ∧
      collapseLoop (raw.length + fuel) (done ++ gap ++ (raw ++ line)) done.length
          (done ++ gap).length q =
        collapseLoop fuel ((done ++ chars) ++ gap' ++ line) (done ++ chars).length
          ((done ++ chars) ++ gap').length q'

theorem Collapses.keep {c q q' : UInt8} (inLine : c ≠ 0)
    (kept : if q ≠ 0 then c ≠ q else isQuote c = false) (rest : Collapses raw chars q q') :
    Collapses (c :: raw) (c :: chars) q q' := by
  intro fuel done gap line
  obtain ⟨gap₁, same, here⟩ := @collapse_keep (raw.length + fuel) done gap (raw ++ line) c q inLine kept
  obtain ⟨gap₂, lengths, going⟩ := rest fuel (done ++ [c]) gap₁ line
  refine ⟨gap₂, ?_, ?_⟩
  · rw [List.length_cons, List.length_cons]
    omega
  · rw [List.length_cons, Nat.add_right_comm, List.append_cons done c chars]
    exact here.trans going

theorem Collapses.drop {c q q₁ q' : UInt8} (inLine : c ≠ 0)
    (dropped : if q ≠ 0 then c = q ∧ q₁ = 0 else isQuote c = true ∧ q₁ = c)
    (rest : Collapses raw chars q₁ q') : Collapses (c :: raw) chars q q' := by
  intro fuel done gap line
  have here := @collapse_drop (raw.length + fuel) done gap (raw ++ line) c q q₁ inLine dropped
  obtain ⟨gap', lengths, going⟩ := rest fuel done (gap ++ [c]) line
  refine ⟨gap', ?_, ?_⟩
  · rw [List.length_append, List.length_singleton] at lengths
    rw [List.length_cons]
    omega
  · rw [List.length_cons, Nat.add_right_comm]
    exact here.trans going

/-- The second pass over a piece of a word. -/
theorem collapse_word (word : Word quote raw chars quote') (proper : Proper quote)
    (plain : 0 ∉ raw) : Collapses raw chars (quoteChar quote) (quoteChar quote') := by
  induction word with
  | nil =>
    intro fuel done gap line
    refine ⟨gap, Nat.add_comm _ _, ?_⟩
    rw [List.length_nil, Nat.zero_add, List.nil_append, List.append_nil]
  | char _ plainChar _ ih =>
    obtain ⟨inLine, others⟩ := List.ne_and_not_mem_of_not_mem_cons plain
    refine Collapses.keep inLine.symm ?_ (ih (Option.some_ne_none _).symm others)
    rwa [quoteChar, Option.getD_none, if_neg (not_not.mpr rfl)]
  | opening quotes _ ih =>
    obtain ⟨inLine, others⟩ := List.ne_and_not_mem_of_not_mem_cons plain
    refine Collapses.drop inLine.symm ?_ (ih (fun same => inLine (Option.some.inj same).symm) others)
    rw [quoteChar, Option.getD_none, if_neg (not_not.mpr rfl)]
    exact ⟨quotes, rfl⟩
  | closing _ ih =>
    obtain ⟨inLine, others⟩ := List.ne_and_not_mem_of_not_mem_cons plain
    refine Collapses.drop inLine.symm ?_ (ih (Option.some_ne_none _).symm others)
    rw [quoteChar, Option.getD_some, if_pos inLine.symm]
    exact ⟨rfl, rfl⟩
  | @inside c quote _ _ _ other _ ih =>
    obtain ⟨inLine, others⟩ := List.ne_and_not_mem_of_not_mem_cons plain
    have unclosed : quote ≠ 0 := fun zero => proper (congrArg some zero)
    refine Collapses.keep inLine.symm ?_ (ih proper others)
    rwa [quoteChar, Option.getD_some, if_pos unclosed]

/-- The quotes are taken out of a whole word, in its place. -/
theorem collapseQuotes_word (word : Word none raw chars none) (plain : 0 ∉ raw)
    (done line : Buffer) :
    ∃ gap, chars.length + gap.length = raw.length ∧
      collapseQuotes (done ++ (raw ++ 0 :: line)) done.length =
        some ((done ++ chars) ++ 0 :: gap ++ line) := by
  obtain ⟨gap, lengths, pass⟩ := collapse_word word (Option.some_ne_none _).symm plain
    (done.length + line.length + 2) done [] (0 :: line)
  obtain ⟨gap', same, written⟩ := write_moved (done ++ chars) gap line 0
  refine ⟨gap', by rw [same, lengths, List.length_nil, Nat.zero_add], ?_⟩
  have fuel : (done ++ (raw ++ 0 :: line)).length + 1 =
      raw.length + (done.length + line.length + 2) := by
    simp only [List.length_append, List.length_cons]
    omega
  rw [List.append_nil] at pass
  rw [collapseQuotes, fuel]
  refine pass.trans ?_
  rw [collapseLoop, read_here]
  refine written.trans ?_
  simp only [List.append_assoc, List.cons_append, List.nil_append]

/-! ## The spaces between words -/

theorem skipSpaces_spec (done rest : Buffer) (line : Buffer) :
    ∃ spaces line', line = spaces ++ line' ∧ words line = words line' ∧
      (∀ c line'', line' = c :: line'' → c ≠ space) ∧
      skipSpaces (done ++ (line ++ rest)) line.length done.length =
        some (done ++ spaces).length := by
  induction line generalizing done with
  | nil =>
    refine ⟨[], [], rfl, rfl, fun c line'' same => absurd same (List.cons_ne_nil c line'').symm, ?_⟩
    rw [List.append_nil]
    rfl
  | cons c line ih =>
    by_cases skipped : c = space
    · obtain ⟨spaces, line', rfl, same, other, skip⟩ := ih (done ++ [c])
      refine ⟨c :: spaces, line', rfl, ?_, other, ?_⟩
      · rw [words, if_pos skipped, same]
      · have wide : (done ++ [c]).length = done.length + 1 := List.length_append
        rw [List.append_cons done c spaces, ← skip, List.cons_append, List.length_cons, skipSpaces,
          read_here, wide, List.append_assoc done, List.singleton_append]
        simp only [if_pos skipped]
    · refine ⟨[], c :: line, rfl, rfl, fun d line'' same => ?_, ?_⟩
      · cases same
        exact skipped
      · rw [List.cons_append, List.length_cons, skipSpaces, read_here, List.append_nil]
        simp only [if_neg skipped]

/-- A line that does not begin with a space begins with a word. -/
theorem words_begin {line : Buffer} (inLine : line ≠ []) (other : ∀ c rest, line = c :: rest → c ≠ space) :
    words line = wordsIn [] none line := by
  rcases line with _ | ⟨c, rest⟩
  · exact absurd rfl inLine
  · have notSpace := other c rest rfl
    rw [words, wordsIn, if_neg notSpace, if_neg notSpace, List.nil_append]

theorem Word.mem {c : UInt8} (word : Word quote raw chars quote') (member : c ∈ chars) : c ∈ raw := by
  induction word with
  | nil => exact member
  | char _ _ _ ih =>
    rcases List.mem_cons.mp member with rfl | later
    · exact List.mem_cons_self
    · exact List.mem_cons_of_mem _ (ih later)
  | opening _ _ ih => exact List.mem_cons_of_mem _ (ih member)
  | closing _ ih => exact List.mem_cons_of_mem _ (ih member)
  | inside _ _ ih =>
    rcases List.mem_cons.mp member with rfl | later
    · exact List.mem_cons_self
    · exact List.mem_cons_of_mem _ (ih later)

theorem Word.proper (word : Word quote raw chars quote') (proper : Proper quote) (plain : 0 ∉ raw) :
    Proper quote' := by
  induction word with
  | nil => exact proper
  | char _ _ _ ih =>
    exact ih (Option.some_ne_none _).symm (List.ne_and_not_mem_of_not_mem_cons plain).2
  | opening _ _ ih =>
    obtain ⟨inLine, others⟩ := List.ne_and_not_mem_of_not_mem_cons plain
    exact ih (fun same => inLine (Option.some.inj same).symm) others
  | closing _ ih =>
    exact ih (Option.some_ne_none _).symm (List.ne_and_not_mem_of_not_mem_cons plain).2
  | inside _ _ ih => exact ih proper (List.ne_and_not_mem_of_not_mem_cons plain).2

/-- The search for the end of a word finds it. -/
theorem findEnd_found {rest : Buffer} (word : Word none raw chars quote') (plain : 0 ∉ raw)
    (ended : rest = [] ∨ quote' = none ∧ ∃ rest', rest = space :: rest') (done more : Buffer) :
    findEnd (done ++ (raw ++ (rest ++ more))) (raw.length + rest.length) done.length 0 =
      some ((done ++ raw).length, quoteChar quote') := by
  have pass := findEnd_word word (Option.some_ne_none _).symm plain done (rest ++ more) rest.length
  refine pass.trans ?_
  rcases ended with rfl | ⟨rfl, rest', rfl⟩
  · rfl
  · rw [List.cons_append, List.length_cons, findEnd, read_here]
    rfl

/-- A word with no quotation open is cut out in front of the character behind it. -/
theorem takeWord_closed {n : Nat} {done more : Buffer} {c : UInt8} (word : Word none raw chars none)
    (plain : 0 ∉ raw)
    (found : findEnd (done ++ (raw ++ c :: more)) (n - done.length) done.length 0 =
      some ((done ++ raw).length, quoteChar none)) :
    ∃ gap, chars.length + gap.length = raw.length ∧
      takeWord n (done ++ (raw ++ c :: more)) done.length =
        some (done ++ chars ++ 0 :: gap ++ more,
          some (if c = space then (done ++ raw).length + 1 else (done ++ raw).length)) := by
  obtain ⟨gap, lengths, collapsed⟩ := collapseQuotes_word word plain done more
  have here := read_here (done ++ raw) more c
  have written := write_here (done ++ raw) more c 0
  rw [List.append_assoc done raw] at here written
  rw [List.append_assoc done raw] at written
  refine ⟨gap, lengths, ?_⟩
  rw [takeWord, found, Option.bind_some]
  have closed : ¬ quoteChar none ≠ 0 := not_not.mpr rfl
  refine (if_neg closed).trans ?_
  rw [here, Option.bind_some, written, Option.bind_some, collapsed, Option.bind_some]

/-- A word is cut out of the line: a quotation is left open, or the line is at its end, or it goes
on behind a space. -/
theorem takeWord_spec {n : Nat} {done line rest : Buffer} (inLine : line ≠ [])
    (other : ∀ c rest, line = c :: rest → c ≠ space) (plain : 0 ∉ line)
    (length : n = done.length + line.length) :
    (words line = none ∧ takeWord n (done ++ (line ++ 0 :: rest)) done.length =
        some (done ++ (line ++ 0 :: rest), none)) ∨
      ∃ chars gap, 0 ∉ chars ∧
        ((words line = some [chars] ∧ chars.length + gap.length = line.length ∧
            takeWord n (done ++ (line ++ 0 :: rest)) done.length =
              some (done ++ chars ++ 0 :: gap ++ rest, some n)) ∨
          ∃ line', words line = (words line').map (chars :: ·) ∧ 0 ∉ line' ∧
            chars.length + gap.length + 1 + line'.length = line.length ∧
            takeWord n (done ++ (line ++ 0 :: rest)) done.length =
              some (done ++ chars ++ 0 :: gap ++ (line' ++ 0 :: rest),
                some (done ++ chars ++ 0 :: gap).length)) := by
  rw [words_begin inLine other]
  obtain ⟨raw, chars, quote', rest', rfl, word, ended⟩ := exists_word none line
  have plainRaw : 0 ∉ raw := fun zero => plain (List.mem_append_left _ zero)
  have plainChars : 0 ∉ chars := fun zero => plainRaw (word.mem zero)
  rw [List.length_append] at length
  have left : n - done.length = raw.length + rest'.length := by omega
  have found := findEnd_found word plainRaw ended done (0 :: rest)
  rw [wordsIn_word word, List.nil_append]
  rcases quote' with _ | quote
  · refine Or.inr ?_
    rcases ended with rfl | ⟨-, line', rfl⟩
    · rw [List.length_nil, Nat.add_zero] at left length
      rw [List.nil_append, ← left] at found
      obtain ⟨gap, lengths, cut⟩ := takeWord_closed word plainRaw found
      have next : (done ++ raw).length = n := by rw [List.length_append, length]
      rw [if_neg (by decide), next] at cut
      refine ⟨chars, gap, plainChars, Or.inl ⟨rfl, ?_, ?_⟩⟩
      · rwa [List.append_nil]
      · rwa [List.append_nil]
    · rw [List.cons_append, ← left] at found
      obtain ⟨gap, lengths, cut⟩ := takeWord_closed word plainRaw found
      have next : (done ++ raw).length + 1 = (done ++ chars ++ 0 :: gap).length := by
        simp only [List.length_append, List.length_cons]
        omega
      rw [if_pos rfl, next] at cut
      refine ⟨chars, gap, plainChars, Or.inr ⟨line', ?_, ?_, ?_, ?_⟩⟩
      · rw [wordsIn, if_pos rfl]
      · exact fun zero => plain (List.mem_append_right _ (List.mem_cons_of_mem _ zero))
      · rw [List.length_append, List.length_cons]
        omega
      · rwa [List.append_assoc raw]
  · have unclosed : quote ≠ 0 := fun zero =>
      word.proper (Option.some_ne_none _).symm plainRaw (congrArg some zero)
    obtain rfl : rest' = [] := ended.resolve_right fun closed => Option.some_ne_none _ closed.1
    refine Or.inl ⟨rfl, ?_⟩
    rw [takeWord, left, List.append_assoc raw, found, Option.bind_some]
    exact if_pos unclosed

end FuseX.Engines.Argv
