import FuseX.Automation.Json
import FuseX.Lib.Utf8

/-!
# Values written by the JSON writer

What is in the file after the calls for a value, if no error is set: the text of the value, from
which it is read back. There is an error if a write failed, if the value is too deep, and if the
calls are not balanced, and otherwise there is none.
-/

namespace FuseX.Automation

open Lib.Json

/-! ## Errors stay -/

/-- No error so far. -/
def Good (json : Json) : Prop :=
  json.error = false ∧ json.file.failed = false

/-- No write has failed, and none will. -/
def Clean (file : File) : Prop :=
  file.failed = false ∧ ∀ n, file.failures n = none

/-- Something was written, and nothing else was done. -/
structure Puts (json json' : Json) (text : List UInt8) : Prop where
  depth : json'.depth = json.depth
  first : json'.first = json.first
  object : json'.object = json.object
  back : Good json' → Good json ∧ json'.file.bytes = json.file.bytes ++ text
  clean : Good json → Clean json.file → Good json' ∧ Clean json'.file

theorem Puts.refl (json : Json) : Puts json json [] where
  depth := rfl
  first := rfl
  object := rfl
  back := fun good => ⟨good, (List.append_nil _).symm⟩
  clean := fun good clean => ⟨good, clean⟩

theorem Puts.trans {json json' json'' : Json} {text text' : List UInt8}
    (left : Puts json json' text) (right : Puts json' json'' text') :
    Puts json json'' (text ++ text') where
  depth := right.depth.trans left.depth
  first := right.first.trans left.first
  object := right.object.trans left.object
  back := by
    intro good
    obtain ⟨good', bytes'⟩ := right.back good
    obtain ⟨good, bytes⟩ := left.back good'
    exact ⟨good, by rw [bytes', bytes, List.append_assoc]⟩
  clean := by
    intro good clean
    obtain ⟨good', clean'⟩ := left.clean good clean
    exact right.clean good' clean'

/-- A write that does not fail. -/
theorem File.put_done {file : File} (text : List UInt8) (done : file.failures 0 = none) :
    file.put text = ({ file with bytes := file.bytes ++ text, failures := fun n => file.failures (n + 1) },
      false) := by
  rw [File.put, done]

/-- A write that fails. -/
theorem File.put_failed {file : File} {written : Nat} (text : List UInt8)
    (fails : file.failures 0 = some written) :
    (file.put text).1.failed = true ∧ (file.put text).2 = true := by
  rw [File.put, fails]
  exact ⟨rfl, rfl⟩

theorem puts_put (json : Json) (text : List UInt8) : Puts json (json.put text) text where
  depth := rfl
  first := rfl
  object := rfl
  back := by
    rintro ⟨error, sound⟩
    rcases outcome : json.file.failures 0 with _ | written
    · rw [Json.put, File.put_done text outcome] at error sound ⊢
      exact ⟨⟨error, sound⟩, rfl⟩
    · rw [Json.put] at sound
      rw [(File.put_failed text outcome).1] at sound
      exact absurd sound Bool.noConfusion
  clean := by
    rintro ⟨error, sound⟩ ⟨-, none⟩
    rw [Json.put, File.put_done text (none 0)]
    exact ⟨⟨error, sound⟩, sound, fun n => none (n + 1)⟩

theorem puts_putChecked (json : Json) (text : List UInt8) :
    Puts json (json.putChecked text) text where
  depth := rfl
  first := rfl
  object := rfl
  back := by
    rintro ⟨error, sound⟩
    rcases outcome : json.file.failures 0 with _ | written
    · rw [Json.putChecked, File.put_done text outcome] at error sound ⊢
      rw [Bool.or_false] at error
      exact ⟨⟨error, sound⟩, rfl⟩
    · rw [Json.putChecked] at sound
      rw [(File.put_failed text outcome).1] at sound
      exact absurd sound Bool.noConfusion
  clean := by
    rintro ⟨error, sound⟩ ⟨-, none⟩
    rw [Json.putChecked, File.put_done text (none 0)]
    exact ⟨⟨by rw [error]; rfl, sound⟩, sound, fun n => none (n + 1)⟩

theorem puts_checkFile (json : Json) : Puts json json.checkFile [] where
  depth := rfl
  first := rfl
  object := rfl
  back := by
    rintro ⟨error, sound⟩
    rw [Json.checkFile, Bool.or_eq_false_iff] at error
    exact ⟨⟨error.1, sound⟩, (List.append_nil _).symm⟩
  clean := by
    rintro ⟨error, sound⟩ clean
    refine ⟨⟨?_, sound⟩, clean⟩
    rw [Json.checkFile, error, sound]
    rfl

/-! ## Strings -/

theorem utf8_append (chars chars' : List Char) : utf8 (chars ++ chars') = utf8 chars ++ utf8 chars' :=
  List.flatMap_append

theorem utf8_cons (c : Char) (chars : List Char) :
    utf8 (c :: chars) = String.utf8EncodeChar c ++ utf8 chars :=
  List.flatMap_cons

theorem escape_high : ∀ n < 256, 0x80 ≤ n → escape (UInt8.ofNat n) = [UInt8.ofNat n] := by
  decide +kernel

theorem escape_low : ∀ n < 0x80, (String.utf8EncodeChar (Char.ofNat n)).flatMap escape =
    utf8 (escapeChar (Char.ofNat n)) := by
  decide

/-- The first character that takes two bytes is above all that are escaped. -/
theorem escapeChar_high {c : Char} (high : 0x80 ≤ c.toNat) : escapeChar c = [c] := by
  have small : ∀ pair ∈ shortEscapes, pair.1.toNat < 0x80 := by decide
  have absent : shortEscapes.lookup c = none := by
    rw [List.lookup_eq_none_iff]
    intro pair member
    have below := small pair member
    rw [bne_iff_ne]
    rintro rfl
    omega
  rw [escapeChar, absent]
  exact if_neg (by omega)

/-- The bytes of a character that takes more than one are all above those that are escaped. -/
theorem high_bytes {c : Char} (high : 0x80 ≤ c.toNat) :
    ∀ b ∈ String.utf8EncodeChar c, 0x80 ≤ b.toNat := by
  change 0x80 ≤ c.val.toNat at high
  intro b member
  have encoded := Lib.Utf8.encoded c
  revert encoded member
  generalize String.utf8EncodeChar c = encoding
  intro member encoded
  rcases encoded with ⟨low, same⟩ | ⟨low, -, tail, -⟩ | ⟨low, -, tail, tail', -, -⟩ |
    ⟨low, -, tail, tail', tail'', -, -⟩
  · omega
  all_goals simp only [List.mem_cons, List.not_mem_nil, or_false] at member
  · rcases member with rfl | rfl
    · omega
    · exact tail.1
  · rcases member with rfl | rfl | rfl
    · omega
    · exact tail.1
    · exact tail'.1
  · rcases member with rfl | rfl | rfl | rfl
    · omega
    · exact tail.1
    · exact tail'.1
    · exact tail''.1

/-- Escaping the bytes is escaping the character. -/
theorem escape_encode (c : Char) : (String.utf8EncodeChar c).flatMap escape = utf8 (escapeChar c) := by
  rcases Nat.lt_or_ge c.toNat 0x80 with low | high
  · have whole := escape_low c.toNat low
    rw [Char.ofNat_toNat] at whole
    exact whole
  · have plain : ∀ b ∈ String.utf8EncodeChar c, escape b = [b] := by
      intro b member
      have kept := escape_high b.toNat b.toNat_lt (high_bytes high b member)
      rw [UInt8.ofNat_toNat] at kept
      exact kept
    rw [escapeChar_high high, utf8, List.flatMap_cons, List.flatMap_nil, List.append_nil,
      List.flatMap_congr plain, List.flatMap_singleton']

theorem encode_low_ne_zero :
    ∀ n < 0x80, n ≠ 0 → (0 : UInt8) ∉ String.utf8EncodeChar (Char.ofNat n) := by
  decide

theorem encode_ne_zero {c : Char} (other : c ≠ '\x00') : (0 : UInt8) ∉ String.utf8EncodeChar c := by
  rcases Nat.lt_or_ge c.toNat 0x80 with low | high
  · have absent := encode_low_ne_zero c.toNat low
    rw [Char.ofNat_toNat] at absent
    apply absent
    intro zero
    apply other
    rw [← c.ofNat_toNat, zero]
  · intro member
    exact absurd (high_bytes high 0 member) (by decide)

theorem stringLoop_puts (text : List UInt8) (json : Json) (plain : (0 : UInt8) ∉ text) :
    Puts json (stringLoop json text) (text.flatMap escape) := by
  induction text generalizing json with
  | nil => exact Puts.refl json
  | cons p text ih =>
    have here : p ≠ 0 := by
      rintro rfl
      exact plain List.mem_cons_self
    have behind : (0 : UInt8) ∉ text := fun member => plain (List.mem_cons_of_mem p member)
    rw [stringLoop, if_neg here, List.flatMap_cons]
    exact (puts_put json (escape p)).trans (ih _ behind)

theorem utf8_plain {chars : List Char} (plain : '\x00' ∉ chars) : (0 : UInt8) ∉ utf8 chars := by
  intro member
  obtain ⟨c, inside, zero⟩ := List.mem_flatMap.mp member
  refine encode_ne_zero ?_ zero
  rintro rfl
  exact plain inside

theorem escape_utf8 (chars : List Char) :
    (utf8 chars).flatMap escape = utf8 (chars.flatMap escapeChar) := by
  induction chars with
  | nil => rfl
  | cons c chars ih =>
    rw [utf8_cons, List.flatMap_append, escape_encode, ih, List.flatMap_cons, utf8_append]

/-- `string` writes the string. -/
theorem string_puts {chars : List Char} (plain : '\x00' ∉ chars) (json : Json) :
    Puts json (string json (utf8 chars)) (utf8 (quoted chars)) := by
  have puts := (((puts_putChecked json [34]).trans
    (stringLoop_puts (utf8 chars) _ (utf8_plain plain))).trans
      (puts_putChecked _ [34])).trans (puts_checkFile _)
  have text : utf8 (quoted chars) = (([34] ++ (utf8 chars).flatMap escape) ++ [34]) ++ [] := by
    rw [quoted, utf8_cons, utf8_append, escape_utf8, List.append_nil, List.append_assoc]
    rfl
  rw [text]
  exact puts

/-- `%lu` writes the digits. -/
theorem digits_utf8 (n : Nat) :
    ((Nat.toDigits 10 n).map fun c => UInt8.ofNat c.toNat) = utf8 (Nat.toDigits 10 n) := by
  have digit : ∀ c ∈ Nat.toDigits 10 n, [UInt8.ofNat c.toNat] = String.utf8EncodeChar c := by
    intro c member
    have isDigit : c.isDigit = true := Nat.isDigit_of_mem_toDigits (by decide) (by decide) member
    refine (Lib.Utf8.encode_one ?_).symm
    rw [Char.isDigit, Bool.and_eq_true, decide_eq_true_eq, decide_eq_true_eq] at isDigit
    exact Nat.le_trans isDigit.2 (by decide)
  rw [List.map_eq_flatMap, utf8]
  exact List.flatMap_congr digit

/-! ## Places -/

/-- The levels around this one are as they were, and so is what this one is. -/
structure Kept (json json' : Json) : Prop where
  depth : json'.depth = json.depth
  first : ∀ level, level + 1 < json.depth → json'.first level = json.first level
  object : ∀ level < json.depth, json'.object level = json.object level

/-- `text` was written, by something that goes `need` levels down. -/
structure Does (json json' : Json) (text : List UInt8) (need : Nat) : Prop where
  back : Good json' → json.depth + need ≤ levels ∧ Good json ∧
    json'.file.bytes = json.file.bytes ++ text ∧ Kept json json'
  clean : Good json → Clean json.file → json.depth + need ≤ levels → Good json' ∧ Clean json'.file

theorem Kept.trans {json json' json'' : Json} (left : Kept json json') (right : Kept json' json'') :
    Kept json json'' where
  depth := right.depth.trans left.depth
  first := by
    intro level below
    rw [right.first level (by rw [left.depth]; exact below), left.first level below]
  object := by
    intro level below
    rw [right.object level (by rw [left.depth]; exact below), left.object level below]

theorem Puts.does {json json' : Json} {text : List UInt8} (puts : Puts json json' text)
    (fits : json.depth ≤ levels) : Does json json' text 0 where
  back := by
    intro good
    obtain ⟨good, bytes⟩ := puts.back good
    exact ⟨fits, good, bytes, puts.depth, fun _ _ => by rw [puts.first],
      fun _ _ => by rw [puts.object]⟩
  clean := fun good clean _ => puts.clean good clean

/-- What is done first need not be known to be right if what comes then is in error with it. -/
theorem Does.trans {json json' json'' : Json} {text text' : List UInt8} {need need' : Nat}
    (left : Does json json' text need) (stays : Good json'' → Good json')
    (right : Good json' → Does json' json'' text' need') :
    Does json json'' (text ++ text') (max need need') where
  back := by
    intro good
    have good' := stays good
    obtain ⟨enough', -, bytes', kept'⟩ := (right good').back good
    obtain ⟨enough, good, bytes, kept⟩ := left.back good'
    rw [kept.depth] at enough'
    exact ⟨by omega, good, by rw [bytes', bytes, List.append_assoc], kept.trans kept'⟩
  clean := by
    intro good clean enough
    obtain ⟨good', clean'⟩ := left.clean good clean (by omega)
    obtain ⟨-, -, -, kept⟩ := left.back good'
    exact (right good').clean good' clean' (by rw [kept.depth]; omega)

/-! ## Calls in error -/

theorem good_of_puts {json json' : Json} {text : List UInt8} (puts : Puts json json' text)
    (good : Good json') : Good json :=
  (puts.back good).1

theorem good_of_stringLoop (text : List UInt8) (json : Json) (good : Good (stringLoop json text)) :
    Good json := by
  induction text generalizing json with
  | nil => exact good
  | cons p text ih =>
    rw [stringLoop] at good
    split at good
    · exact good
    · exact good_of_puts (puts_put json (escape p)) (ih _ good)

theorem good_of_string {text : List UInt8} {json : Json} (good : Good (string json text)) :
    Good json := by
  have inside := good_of_puts (puts_putChecked _ [34]) (good_of_puts (puts_checkFile _) good)
  exact good_of_puts (puts_putChecked json [34]) (good_of_stringLoop text _ inside)

/-- The comma in front of a value. -/
def separated (json : Json) : Json :=
  if json.first (json.depth - 1) then json else json.put [44]

theorem separated_puts (json : Json) :
    Puts json (separated json) (utf8 (comma (json.first (json.depth - 1)))) := by
  rw [separated]
  rcases json.first (json.depth - 1) with _ | _
  · exact puts_put json [44]
  · exact Puts.refl json

theorem member_top {json : Json} (top : json.depth = 0) (name : List UInt8) :
    member json name = json :=
  if_neg (not_not_intro top)

theorem member_inside {json : Json} (inside : json.depth ≠ 0) (name : List UInt8) :
    member json name =
      if json.object (json.depth - 1) then (string (separated json).begun name).put [58]
      else (separated json).begun := by
  have depth := (separated_puts json).depth
  have object := (separated_puts json).object
  rw [member, if_pos inside]
  change (if (separated json).begun.object ((separated json).begun.depth - 1) then _ else _) = _
  have same : (separated json).begun.object ((separated json).begun.depth - 1) =
      json.object (json.depth - 1) := by
    change (separated json).object ((separated json).depth - 1) = _
    rw [depth, object]
  rw [same]
  rfl

theorem good_of_member {name : List UInt8} {json : Json} (good : Good (member json name)) :
    Good json := by
  by_cases inside : json.depth = 0
  · rw [member_top inside] at good
    exact good
  · have begun : Good (separated json).begun := by
      rw [member_inside inside] at good
      split at good
      · exact good_of_string (good_of_puts (puts_put _ [58]) good)
      · exact good
    exact good_of_puts (separated_puts json) begun

theorem not_good_fail (json : Json) : ¬ Good json.fail :=
  fun good => Bool.noConfusion good.1

theorem good_of_begin {name : List UInt8} {object : Bool} {json : Json}
    (good : Good (begin json name object)) :
    Good (member json name) ∧ (member json name).depth < levels := by
  rw [begin] at good
  split at good
  · exact absurd good (not_good_fail _)
  · rename_i room
    exact ⟨good_of_puts (puts_put _ _) good, Nat.not_le.mp room⟩

theorem good_of_end {json : Json} (good : Good (automationJsonEnd json)) :
    Good json ∧ 0 < json.depth := by
  rw [automationJsonEnd] at good
  split at good
  · exact absurd good (not_good_fail _)
  · rename_i inside
    have above : Good json.up := good_of_puts (puts_put json.up _) good
    exact ⟨above, Nat.pos_of_ne_zero inside⟩

theorem good_of_call {json : Json} {c : Call} (good : Good (call json c)) : Good json := by
  rcases c with name | name | _ | ⟨name, value⟩ | ⟨name, value⟩ | ⟨name, value⟩
  · exact good_of_member (good_of_begin good).1
  · exact good_of_member (good_of_begin good).1
  · exact (good_of_end good).1
  · exact good_of_member (good_of_string good)
  · exact good_of_member (good_of_puts (puts_putChecked _ _) good)
  · exact good_of_member (good_of_puts (puts_putChecked _ _) good)

theorem run_append (json : Json) (calls calls' : List Call) :
    run json (calls ++ calls') = run (run json calls) calls' :=
  List.foldl_append

theorem run_cons (json : Json) (c : Call) (calls : List Call) :
    run json (c :: calls) = run (call json c) calls :=
  rfl

/-- An error is there to the end. -/
theorem good_of_run (calls : List Call) (json : Json) (good : Good (run json calls)) : Good json := by
  induction calls generalizing json with
  | nil => exact good
  | cons c calls ih => exact good_of_call (ih _ good)

/-! ## Levels -/

theorem stringLoop_depth (text : List UInt8) (json : Json) :
    (stringLoop json text).depth = json.depth := by
  induction text generalizing json with
  | nil => rfl
  | cons p text ih =>
    rw [stringLoop]
    split
    · rfl
    · exact ih _

theorem string_depth (json : Json) (text : List UInt8) : (string json text).depth = json.depth :=
  stringLoop_depth text _

theorem member_depth (json : Json) (name : List UInt8) : (member json name).depth = json.depth := by
  by_cases inside : json.depth = 0
  · rw [member_top inside]
  · have separated : (separated json).begun.depth = json.depth := (separated_puts json).depth
    rw [member_inside inside]
    split
    · exact (string_depth _ name).trans separated
    · exact separated

theorem begin_depth {json : Json} {name : List UInt8} {object : Bool}
    (good : Good (begin json name object)) : (begin json name object).depth = json.depth + 1 := by
  have room := (good_of_begin good).2
  rw [begin, if_neg (Nat.not_le.mpr room)]
  exact congrArg (· + 1) (member_depth json name)

/-- Without an error, the level is the one that the calls say. -/
theorem levelAfter_run (calls : List Call) (json : Json) (good : Good (run json calls)) :
    levelAfter json.depth calls = some (run json calls).depth := by
  induction calls generalizing json with
  | nil => rfl
  | cons c calls ih =>
    have after := ih (call json c) good
    have here := good_of_run calls (call json c) good
    rw [run_cons, ← after]
    rcases c with name | name | _ | ⟨name, value⟩ | ⟨name, value⟩ | ⟨name, value⟩
    · exact congrArg (levelAfter · calls) (begin_depth here).symm
    · exact congrArg (levelAfter · calls) (begin_depth here).symm
    · obtain ⟨-, inside⟩ := good_of_end here
      obtain ⟨level, depth⟩ := Nat.exists_eq_add_of_lt inside
      rw [Nat.zero_add] at depth
      have above : (call json .finish).depth = level := by
        change (automationJsonEnd json).depth = level
        rw [automationJsonEnd, if_neg (Nat.ne_of_gt inside)]
        exact (congrArg (· - 1) depth).trans (Nat.add_sub_cancel level 1)
      rw [above, depth]
      rfl
    · exact congrArg (levelAfter · calls)
        ((string_depth _ value).trans (member_depth json name)).symm
    · exact congrArg (levelAfter · calls) (member_depth json name).symm
    · exact congrArg (levelAfter · calls) (member_depth json name).symm

/-! ## Values -/

/-- What is written in front of a value. -/
def lead (json : Json) (name : List Char) : List UInt8 :=
  if json.depth = 0 then []
  else utf8 (comma (json.first (json.depth - 1)) ++
    if json.object (json.depth - 1) then quoted name ++ [':'] else [])

/-- A value was written: what follows it is not the first of its level. -/
structure Places (json json' : Json) (text : List UInt8) (need : Nat) : Prop where
  does : Does json json' text need
  begun : Good json' → json.depth ≠ 0 → json'.first (json.depth - 1) = false

theorem begun_does {json : Json} (fits : json.depth ≤ levels) : Does json json.begun [] 0 where
  back := by
    intro good
    refine ⟨fits, good, (List.append_nil _).symm, rfl, ?_, fun _ _ => rfl⟩
    intro level below
    exact if_neg (by omega)
  clean := fun good clean _ => ⟨good, clean⟩

theorem begun_first (json : Json) : json.begun.first (json.depth - 1) = false :=
  if_pos rfl

/-- What `member` writes. -/
theorem member_places {name : List Char} (plain : '\x00' ∉ name) {json : Json}
    (fits : json.depth ≤ levels) :
    Places json (member json (utf8 name)) (lead json name) 0 := by
  by_cases inside : json.depth = 0
  · rw [member_top inside, lead, if_pos inside]
    exact ⟨(Puts.refl json).does fits, fun _ absurdity => absurd inside absurdity⟩
  · have depth : (separated json).depth = json.depth := (separated_puts json).depth
    have fits' : (separated json).depth ≤ levels := Nat.le_trans (Nat.le_of_eq depth) fits
    have stays : Good (separated json).begun → Good (separated json) := fun good => good
    have comma := ((separated_puts json).does fits).trans stays fun _ => begun_does fits'
    have first : (separated json).begun.first (json.depth - 1) = false := by
      rw [← depth]
      exact begun_first _
    rw [member_inside inside, lead, if_neg inside, utf8_append]
    rcases json.object (json.depth - 1) with _ | _
    · rw [List.append_nil] at comma
      refine ⟨?_, fun _ _ => first⟩
      rw [if_neg Bool.false_ne_true, if_neg Bool.false_ne_true]
      exact (List.append_nil _).symm ▸ comma
    · have label := (string_puts plain (separated json).begun).trans (puts_put _ [58])
      rw [List.append_nil] at comma
      rw [if_pos rfl, if_pos rfl, utf8_append]
      refine ⟨comma.trans (good_of_puts label) fun _ => label.does fits', fun _ _ => ?_⟩
      rw [label.first]
      exact first

/-- Something is written behind what `member` writes. -/
theorem Places.puts {json json' json'' : Json} {text text' : List UInt8}
    (places : Places json json' text 0) (fits : json.depth ≤ levels) (puts : Puts json' json'' text') :
    Places json json'' (text ++ text') 0 := by
  refine ⟨places.does.trans (good_of_puts puts) ?_, ?_⟩
  · intro good
    obtain ⟨-, -, -, kept⟩ := places.does.back good
    exact puts.does (Nat.le_trans (Nat.le_of_eq kept.depth) fits)
  · intro good inside
    rw [puts.first]
    exact places.begun (good_of_puts puts good) inside

theorem automationJsonEnd_inside {json : Json} (inside : json.depth ≠ 0) :
    automationJsonEnd json =
      json.up.put [if json.object (json.depth - 1) then 125 else 93] :=
  if_neg inside

theorem begin_room {json : Json} {name : List UInt8} (room : (member json name).depth < levels)
    (object : Bool) :
    begin json name object =
      ((member json name).put [if object then 123 else 91]).deeper object :=
  if_neg (Nat.not_le.mpr room)

/-- A list or an object was begun, one level down. -/
structure Opens (json json' : Json) (object : Bool) (text : List UInt8) : Prop where
  depth : json'.depth = json.depth + 1
  objectHere : json'.object json.depth = object
  firstHere : json'.first json.depth = true
  back : Good json' → Good json ∧ json'.file.bytes = json.file.bytes ++ text
  above : Good json' → (∀ level, level + 1 < json.depth → json'.first level = json.first level) ∧
    (∀ level < json.depth, json'.object level = json.object level) ∧
    (json.depth ≠ 0 → json'.first (json.depth - 1) = false)
  clean : Good json → Clean json.file → Good json' ∧ Clean json'.file

theorem begin_opens {name : List Char} (plain : '\x00' ∉ name) {json : Json}
    (room : json.depth < levels) (object : Bool) :
    Opens json (begin json (utf8 name) object) object
      (lead json name ++ [if object then 123 else 91]) := by
  have depth := member_depth json (utf8 name)
  have places := member_places plain (Nat.le_of_lt room)
  have bracket := puts_put (member json (utf8 name)) [if object then 123 else 91]
  rw [begin_room (by omega) object]
  refine ⟨congrArg (· + 1) depth, ?_, ?_, ?_, ?_, ?_⟩
  · rw [← depth]
    exact if_pos rfl
  · rw [← depth]
    exact if_pos rfl
  · intro good
    obtain ⟨good', bytes'⟩ := bracket.back good
    obtain ⟨-, good, bytes, -⟩ := places.does.back good'
    rw [bytes, List.append_assoc] at bytes'
    exact ⟨good, bytes'⟩
  · intro good
    obtain ⟨good', -⟩ := bracket.back good
    obtain ⟨-, -, -, kept⟩ := places.does.back good'
    have other : ∀ level < json.depth, level ≠ (member json (utf8 name)).depth := by
      intro level below
      omega
    refine ⟨fun level below => ?_, fun level below => ?_, fun inside => ?_⟩
    · exact (if_neg (other level (by omega))).trans (kept.first level below)
    · exact (if_neg (other level below)).trans (kept.object level below)
    · exact (if_neg (other _ (by omega))).trans (places.begun good' inside)
  · intro good clean
    obtain ⟨good, clean⟩ := places.does.clean good clean (Nat.le_of_lt room)
    exact bracket.clean good clean

/-- What was begun and filled is ended. -/
theorem Opens.close {json json' json'' : Json} {object : Bool} {text text' : List UInt8} {need : Nat}
    (opens : Opens json json' object text) (does : Does json' json'' text' need) :
    Places json (automationJsonEnd json'')
      (text ++ text' ++ [if object then 125 else 93]) (need + 1) := by
  -- The end of something that went without an error.
  have closing : Good json'' → json''.depth = json.depth + 1 ∧ automationJsonEnd json'' =
      json''.up.put [if object then 125 else 93] := by
    intro good
    obtain ⟨-, -, -, kept⟩ := does.back good
    have depth := kept.depth.trans opens.depth
    have same : json''.object json.depth = object := by
      rw [kept.object json.depth (by rw [opens.depth]; omega), opens.objectHere]
    refine ⟨depth, ?_⟩
    rw [automationJsonEnd_inside (by omega), depth, Nat.add_sub_cancel, same]
  refine ⟨⟨?_, ?_⟩, ?_⟩
  · intro ended
    obtain ⟨good'', -⟩ := good_of_end ended
    obtain ⟨depth, same⟩ := closing good''
    obtain ⟨enough, good', bytes', kept⟩ := does.back good''
    obtain ⟨first, objects, -⟩ := opens.above good'
    obtain ⟨good, bytes⟩ := opens.back good'
    rw [opens.depth] at enough
    rw [same] at ended ⊢
    obtain ⟨-, bytes''⟩ := (puts_put json''.up [if object then 125 else 93]).back ended
    refine ⟨by omega, good, ?_, ?_, ?_, ?_⟩
    · rw [bytes'']
      change json''.file.bytes ++ _ = _
      rw [bytes', bytes]
      simp only [List.append_assoc]
    · change json''.depth - 1 = json.depth
      omega
    · intro level below
      change json''.first level = _
      rw [kept.first level (by rw [opens.depth]; omega), first level below]
    · intro level below
      change json''.object level = _
      rw [kept.object level (by rw [opens.depth]; omega), objects level below]
  · intro good clean enough
    obtain ⟨good', clean'⟩ := opens.clean good clean
    obtain ⟨good'', clean''⟩ := does.clean good' clean' (by rw [opens.depth]; omega)
    obtain ⟨-, same⟩ := closing good''
    rw [same]
    exact (puts_put json''.up _).clean good'' clean''
  · intro good inside
    obtain ⟨good'', -⟩ := good_of_end good
    obtain ⟨-, same⟩ := closing good''
    obtain ⟨-, good', -, kept⟩ := does.back good''
    obtain ⟨-, -, begun⟩ := opens.above good'
    rw [same]
    change json''.first (json.depth - 1) = false
    rw [kept.first _ (by rw [opens.depth]; omega)]
    exact begun inside

/-- The calls for what is in a list or an object write `text` at any place in one. -/
def Fills (object : Bool) (calls : List Call) (text : Bool → List Char) (need : Nat) : Prop :=
  ∀ json : Json, json.depth ≤ levels → json.depth ≠ 0 →
    json.object (json.depth - 1) = object →
      Does json (run json calls) (utf8 (text (json.first (json.depth - 1)))) need

/-- A list or an object is written by what fills it. -/
theorem nested_places {name : List Char} (plain : '\x00' ∉ name) {json : Json}
    {object : Bool} {calls : List Call} {text : Bool → List Char}
    {need : Nat} (fills : Fills object calls text need) :
    Places json (automationJsonEnd (run (begin json (utf8 name) object) calls))
      (lead json name ++ ([if object then 123 else 91] ++ utf8 (text true) ++
        [if object then 125 else 93])) (need + 1) := by
  rcases Nat.lt_or_ge json.depth levels with room | full
  · have opens := begin_opens plain room object
    have depth := opens.depth
    have does := fills (begin json (utf8 name) object) (by omega) (by omega)
    rw [depth, Nat.add_sub_cancel, opens.objectHere, opens.firstHere] at does
    have places := opens.close (does rfl)
    simp only [List.append_assoc] at places ⊢
    exact places
  · -- There is no room: the error of `begin` stays.
    have bad : ¬ Good (automationJsonEnd (run (begin json (utf8 name) object) calls)) := by
      intro ended
      have begun := good_of_run calls _ (good_of_end ended).1
      have room := (good_of_begin begun).2
      rw [member_depth] at room
      omega
    exact ⟨⟨fun good => absurd good bad, fun _ _ enough => absurd enough (by omega)⟩,
      fun good => absurd good bad⟩

/-- A value that fills a place in a list or an object. -/
theorem Places.fills {object : Bool} {name : List Char} {json json' : Json} {calls : List Call}
    {text : List Char} {more : Bool → List Char} {need need' : Nat}
    (places : Places json json' (lead json name ++ utf8 text) need) (fits : json.depth ≤ levels)
    (inside : json.depth ≠ 0) (here : json.object (json.depth - 1) = object)
    (fills : Fills object calls more need') :
    Does json (run json' calls)
      (lead json name ++ utf8 text ++ utf8 (more false)) (max need need') := by
  refine places.does.trans (good_of_run calls json') fun good => ?_
  obtain ⟨-, -, -, kept⟩ := places.does.back good
  have does := fills json' (by rw [kept.depth]; exact fits) (by rw [kept.depth]; exact inside)
  rw [kept.depth, kept.object _ (by omega), here, places.begun good inside] at does
  exact does rfl

theorem utf8_text_array (items : Items) :
    utf8 (Value.array items).text = [91] ++ utf8 (items.text true) ++ [93] := by
  rw [Value.text, utf8_cons, utf8_append]
  rfl

theorem utf8_text_object (members : Members) :
    utf8 (Value.object members).text = [123] ++ utf8 (members.text true) ++ [125] := by
  rw [Value.text, utf8_cons, utf8_append]
  rfl

mutual

/-- The calls for a value write its text. -/
theorem value_places : ∀ (value : Value), Plain value → ∀ {name : List Char}, '\x00' ∉ name →
    ∀ {json : Json}, json.depth ≤ levels →
      Places json (run json (valueCalls (utf8 name) value)) (lead json name ++ utf8 value.text)
        (height value)
  | .string chars, plain, name, named, json, fits =>
    (member_places named fits).puts fits (string_puts plain _)
  | .number n, _, name, named, json, fits => by
    rw [Value.text, ← digits_utf8]
    exact (member_places named fits).puts fits (puts_putChecked _ _)
  | .boolean b, _, name, named, json, fits => by
    rcases b with _ | _
    · exact (member_places named fits).puts fits (puts_putChecked _ [102, 97, 108, 115, 101])
    · exact (member_places named fits).puts fits (puts_putChecked _ [116, 114, 117, 101])
  | .array items, plain, name, named, json, _ => by
    rw [valueCalls, run_cons, run_append, utf8_text_array]
    exact nested_places named (items_fill items plain)
  | .object members, plain, name, named, json, _ => by
    rw [valueCalls, run_cons, run_append, utf8_text_object]
    exact nested_places named (members_fill members plain)

theorem items_fill : ∀ (items : Items), PlainItems items →
    Fills false (itemsCalls items) items.text (itemsHeight items)
  | .nil, _, json, fits, _, _ => (Puts.refl json).does fits
  | .cons value items, ⟨plain, plains⟩, json, fits, inside, here => by
    have places := @value_places value plain [] List.not_mem_nil json fits
    have does := places.fills fits inside here (items_fill items plains)
    rw [lead, if_neg inside, here, if_neg Bool.false_ne_true, List.append_nil] at does
    change Does json _ (utf8 (Items.text (json.first (json.depth - 1)) (.cons value items))) _
    rw [itemsCalls, run_append, Items.text, utf8_append, utf8_append, ← List.append_assoc]
    exact does

theorem members_fill : ∀ (members : Members), PlainMembers members →
    Fills true (membersCalls members) members.text (membersHeight members)
  | .nil, _, json, fits, _, _ => (Puts.refl json).does fits
  | .cons name value members, ⟨named, plain, plains⟩, json, fits, inside, here => by
    have places := @value_places value plain name named json fits
    have does := places.fills fits inside here (members_fill members plains)
    have shape : ∀ start : List Char,
        start ++ (quoted name ++ ':' :: (value.text ++ members.text false)) =
          (start ++ (quoted name ++ [':'])) ++ value.text ++ members.text false := by
      intro start
      simp only [List.append_assoc, List.cons_append, List.nil_append]
    rw [lead, if_neg inside, here, if_pos rfl] at does
    change Does json _ (utf8 (Members.text (json.first (json.depth - 1)) (.cons name value members))) _
    rw [membersCalls, run_append, Members.text, shape, utf8_append, utf8_append]
    exact does

end

/-! ## Whole texts -/

theorem valueCalls_top {json : Json} (top : json.depth = 0) (name : List UInt8) (value : Value) :
    run json (valueCalls name value) = run json (valueCalls [] value) := by
  have unnamed : ∀ name, member json name = json := member_top top
  rcases value with chars | n | b | items | members
  · change string (member json name) _ = string (member json []) _
    rw [unnamed, unnamed]
  · change (member json name).putChecked _ = (member json []).putChecked _
    rw [unnamed, unnamed]
  · change (member json name).putChecked _ = (member json []).putChecked _
    rw [unnamed, unnamed]
  · rw [valueCalls, valueCalls, run_cons, run_cons]
    change run (begin json name false) _ = run (begin json [] false) _
    rw [begin, begin, unnamed, unnamed]
  · rw [valueCalls, valueCalls, run_cons, run_cons]
    change run (begin json name true) _ = run (begin json [] true) _
    rw [begin, begin, unnamed, unnamed]

theorem good_of_no_error {json : Json} (none : automationJsonError json = false) :
    Good json ∧ json.depth = 0 := by
  rw [automationJsonError, Bool.or_eq_false_iff, Bool.or_eq_false_iff, decide_eq_false_iff_not,
    not_not] at none
  exact none

/-- The calls for a value leave an error, as they do if it is too deep for the writer and do not if
it is not and no write fails, or they leave the text of the value and nothing else; calls that are
not balanced leave an error. -/
theorem writer_faithful (name : List UInt8) (value : Value) (plain : Plain value) (file : File) :
    let json := run (automationJsonInit file) (valueCalls name value)
    (automationJsonError json = true ∨
      ∃ text, json.file.bytes = file.bytes ++ utf8 text ∧ parse text = some value) ∧
    (levels < height value → automationJsonError json = true) ∧
    (Clean file → height value ≤ levels → automationJsonError json = false) ∧
    ∀ calls, ¬ Balanced calls → automationJsonError (run (automationJsonInit file) calls) = true := by
  have fits : (automationJsonInit file).depth ≤ levels := Nat.zero_le _
  obtain ⟨⟨back, forth⟩, -⟩ :=
    value_places value plain (List.not_mem_nil (a := '\x00')) fits
  have top : lead (automationJsonInit file) [] = [] := if_pos rfl
  rw [top, List.nil_append] at back
  rw [valueCalls_top rfl name value]
  refine ⟨?_, ?_, ?_, ?_⟩
  · rcases outcome : automationJsonError (run (automationJsonInit file) (valueCalls [] value)) with
      _ | _
    · obtain ⟨-, -, bytes, -⟩ := back (good_of_no_error outcome).1
      exact Or.inr ⟨value.text, bytes, parse_text value⟩
    · exact Or.inl rfl
  · intro deep
    rcases outcome : automationJsonError (run (automationJsonInit file) (valueCalls [] value)) with
      _ | _
    · obtain ⟨enough, -⟩ := back (good_of_no_error outcome).1
      exact absurd enough (by change ¬ 0 + _ ≤ _; omega)
    · rfl
  · intro clean enough
    have good := (forth ⟨rfl, clean.1⟩ clean (by change 0 + _ ≤ _; omega)).1
    obtain ⟨-, -, -, kept⟩ := back good
    have depth : (run (automationJsonInit file) (valueCalls [] value)).depth = 0 := kept.depth
    change (Json.error _ || File.failed _ || decide _) = false
    rw [depth]
    change (Json.error _ || File.failed _ || false) = false
    have error := good.1
    have failed := good.2
    change Json.error (run (automationJsonInit file) (valueCalls [] value)) = false at error
    change File.failed (run (automationJsonInit file) (valueCalls [] value)).file = false at failed
    exact Bool.or_eq_false_iff.mpr ⟨Bool.or_eq_false_iff.mpr ⟨error, failed⟩, rfl⟩
  · intro calls unbalanced
    rcases outcome : automationJsonError (run (automationJsonInit file) calls) with _ | _
    · obtain ⟨good, depth⟩ := good_of_no_error outcome
      have level := levelAfter_run calls _ good
      rw [depth] at level
      exact absurd level unbalanced
    · rfl

/-- `{"a":["\n",7]}`. -/
def small : Value :=
  .object (.cons ['a'] (.array (.cons (.string ['\n']) (.cons (.number 7) .nil))) .nil)

theorem writer_small :
    automationJsonError (run (automationJsonInit ⟨[], false, fun _ => none⟩) (valueCalls [] small)) =
      false :=
  (writer_faithful [] small
    ⟨show '\x00' ∉ ['a'] by decide, ⟨show '\x00' ∉ ['\n'] by decide, trivial, trivial⟩, trivial⟩
    ⟨[], false, fun _ => none⟩).2.2.1 ⟨rfl, fun _ => rfl⟩ (by decide)

end FuseX.Automation
