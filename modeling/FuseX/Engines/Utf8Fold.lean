import FuseX.Engines.Utf8Decode
import FuseX.Lib.Strip

/-!
# `engine_utf8_fold` over whole buffers

`utf8_fold` says for which texts the loop examines nothing behind the end of the text and comes to
the fold of its well-formed sequences: those of which the reading comes to no place where
`utf8_decode` takes too much. `foldFrom_run` is the run of the loop, by one of three outcomes.
-/

namespace FuseX.Engines.Utf8

open Lib Lib.Utf8

/-! ## Plain characters -/

/-- The printable characters of ASCII, and TAB, LF and CR. -/
def Plain (b : UInt8) : Prop :=
  (0x20 ≤ b ∧ b ≤ 0x7e) ∨ b = 9 ∨ b = 10 ∨ b = 13

instance (b : UInt8) : Decidable (Plain b) :=
  inferInstanceAs (Decidable ((0x20 ≤ b ∧ b ≤ 0x7e) ∨ b = 9 ∨ b = 10 ∨ b = 13))

theorem plain_nonzero {b : UInt8} (plain : Plain b) : b ≠ 0 := by
  rintro rfl
  exact absurd plain (by decide)

theorem plain_low {b : UInt8} (plain : Plain b) : b.toNat < 0x80 := by
  rcases plain with ⟨_, most⟩ | rfl | rfl | rfl
  · exact Nat.lt_of_le_of_lt (UInt8.le_iff_toNat_le.mp most) (by decide)
  · decide
  · decide
  · decide

set_option maxRecDepth 4000 in
theorem latin1Fold_plain : ∀ b ∈ latin1Fold, Plain b := by
  decide

set_option maxRecDepth 4000 in
theorem latinExtAFold_plain : ∀ b ∈ latinExtAFold, Plain b := by
  decide

set_option maxRecDepth 4000 in
theorem latinExtAFold_length : latinExtAFold.length = 128 := by
  decide

set_option maxRecDepth 4000 in
theorem latinExtBFold_plain : ∀ b ∈ latinExtBFold, Plain b := by
  decide

set_option maxRecDepth 4000 in
theorem latinExtBFold_length : latinExtBFold.length = 208 := by
  decide

theorem punctuation_plain : ∀ row ∈ punctuation, Plain row.2 := by
  decide

theorem plain_getD {table : List UInt8} (plain : ∀ b ∈ table, Plain b) {k : Nat} (inside : k < table.length) :
    Plain (table.getD k 0) := by
  rw [List.getD_eq_getElem _ _ inside]
  exact plain _ (List.getElem_mem inside)

/-- Whatever a code point is folded to is plain. -/
theorem foldCodepoint_plain (cp : UInt32) : Plain (foldCodepoint cp) := by
  have space : Plain 0x20 := by decide
  unfold foldCodepoint
  split
  · rename_i low
    have low : cp.toNat < 128 := UInt32.lt_iff_toNat_lt.mp low
    have byte : cp.toUInt8.toNat = cp.toNat := by
      rw [UInt32.toNat_toUInt8]
      exact Nat.mod_eq_of_lt (by omega)
    split
    · rename_i printable
      have least : 32 ≤ cp.toNat := UInt32.le_iff_toNat_le.mp printable.1
      have most : cp.toNat ≤ 126 := UInt32.le_iff_toNat_le.mp printable.2
      refine .inl ⟨UInt8.le_iff_toNat_le.mpr ?_, UInt8.le_iff_toNat_le.mpr ?_⟩
      · rw [byte]
        exact least
      · rw [byte]
        exact most
    split
    · rename_i control
      rcases control with rfl | rfl | rfl <;> decide
    · exact space
  · split
    · rename_i punct found
      obtain ⟨row, member, rfl⟩ := Option.map_eq_some_iff.mp found
      exact punctuation_plain row (List.mem_of_find?_eq_some member)
    · have above : ∀ k : UInt32, k ≤ cp → k.toNat ≤ cp.toNat := fun _ => UInt32.le_iff_toNat_le.mp
      have below : ∀ k : UInt32, cp ≤ k → cp.toNat ≤ k.toNat := fun _ => UInt32.le_iff_toNat_le.mp
      split
      · rename_i here
        have least : 0xc0 ≤ cp.toNat := above 0xc0 here.1
        have most : cp.toNat ≤ 0xff := below 0xff here.2
        have length : latin1Fold.length = 64 := by decide
        exact plain_getD latin1Fold_plain (by rw [length]; omega)
      split
      · rename_i here
        have least : 0x100 ≤ cp.toNat := above 0x100 here.1
        have most : cp.toNat ≤ 0x17f := below 0x17f here.2
        exact plain_getD latinExtAFold_plain (by rw [latinExtAFold_length]; omega)
      split
      · rename_i here
        have least : 0x180 ≤ cp.toNat := above 0x180 here.1
        have most : cp.toNat ≤ 0x24f := below 0x24f here.2
        exact plain_getD latinExtBFold_plain (by rw [latinExtBFold_length]; omega)
      · exact space

/-- What is plain is folded to itself. -/
theorem foldCodepoint_self {b : UInt8} (plain : Plain b) : foldCodepoint b.toUInt32 = b := by
  have all : ∀ n < 128, Plain (UInt8.ofNat n) → foldCodepoint (UInt8.ofNat n).toUInt32 = UInt8.ofNat n := by
    decide
  have here := all b.toNat (plain_low plain)
  rw [UInt8.ofNat_toNat] at here
  exact here plain

/-- What a character is folded to. -/
def foldChar (c : Char) : UInt8 :=
  foldCodepoint c.val

theorem folded_plain {text out : List UInt8} (folded : Folded foldChar 0x20 text out) : ∀ b ∈ out, Plain b := by
  induction folded with
  | nil => exact fun b member => absurd member List.not_mem_nil
  | char _ ih => exact List.forall_mem_cons.mpr ⟨foldCodepoint_plain _, ih⟩
  | stray _ _ ih => exact List.forall_mem_cons.mpr ⟨by decide, ih⟩

/-! ## The loop -/

theorem overwrite_update {buf : Nat → UInt8} {w : Nat} (x : UInt8) (behind : List UInt8) :
    overwrite (Function.update buf w x) (w + 1) behind = overwrite buf w (x :: behind) := by
  have single : Function.update buf w x = overwrite buf w [x] := by
    funext place
    rcases Nat.lt_trichotomy place w with before | rfl | after
    · rw [overwrite_before before, Function.update_of_ne (Nat.ne_of_lt before)]
    · rw [overwrite_from (Nat.le_refl _), Nat.sub_self, Function.update_self]
      rfl
    · rw [overwrite_elsewhere, Function.update_of_ne (Nat.ne_of_gt after)]
      exact fun inside => Nat.not_lt.mpr after inside.2
  rw [single]
  exact overwrite_append buf w [x] behind

/-- What the text on is unaffected by writes before it. -/
theorem holds_update {buf : Nat → UInt8} {r w : Nat} {text : List UInt8} (x : UInt8) (before : w < r)
    (holds : Holds buf r text) : Holds (Function.update buf w x) r text :=
  holds.of_same fun place above _ => Function.update_of_ne (by omega) _ _

/-- A misreading that the reading comes to. -/
def Misreads (text : List UInt8) : Prop :=
  ∃ rest, Reaches text rest ∧ Misread rest

/-- What a run of the loop comes to, from the place `r` of the text on: it examines too much, or it folds
the text, or it comes to less. -/
inductive Outcome (text : List UInt8) (buf : Nat → UInt8) (r w : Nat) (run : Run) : Prop
  | beyond (turn : Turn) : turn ∈ run.turns → r + text.length + 1 < turn.r + turn.examined → Misreads text →
    Outcome text buf r w run
  | folded (out : List UInt8) : (∀ turn ∈ run.turns, turn.r + turn.examined ≤ r + text.length + 1 ∧
      turn.w ≤ turn.r) → Folded foldChar 0x20 text out → run.buf = overwrite buf w (out ++ [0]) →
    ¬ Misreads text → Outcome text buf r w run
  | less (out : List UInt8) : run.buf = overwrite buf w (out ++ [0]) →
    (∀ out', Folded foldChar 0x20 text out' → out.length < out'.length) → Misreads text →
    Outcome text buf r w run

variable {buf : Nat → UInt8} {left r w : Nat} {text rest : List UInt8}

/-- Every run begins where it is. -/
theorem foldFrom_turn (left : Nat) (buf : Nat → UInt8) (r w : Nat) :
    ∃ turn ∈ (foldFrom left buf r w).turns, r + 1 ≤ turn.r + turn.examined := by
  cases left with
  | zero => exact ⟨⟨r, 1, w⟩, List.mem_singleton.mpr rfl, Nat.le_refl _⟩
  | succ left =>
    rw [foldFrom]
    split
    · exact ⟨⟨r, 1, w⟩, List.mem_singleton.mpr rfl, Nat.le_refl _⟩
    · refine ⟨_, List.mem_cons_self, Nat.add_le_add_left ?_ r⟩
      unfold utf8Decode
      simp only
      split_ifs <;> exact Nat.succ_le_succ (Nat.zero_le _)

theorem misreads_iff (reaches : ∀ place, Reaches text place ↔ place = text ∨ Reaches rest place) :
    Misreads text ↔ Misread text ∨ Misreads rest := by
  constructor
  · rintro ⟨place, reached, misread⟩
    rcases (reaches place).mp reached with rfl | behind
    · exact .inl misread
    · exact .inr ⟨place, behind, misread⟩
  · rintro (misread | ⟨place, behind, misread⟩)
    · exact ⟨text, .start, misread⟩
    · exact ⟨place, (reaches place).mpr (.inr behind), misread⟩

/-- The outcome of a turn that reads a character or a byte alone. -/
theorem Outcome.turn {n examined : Nat} {x : UInt8} {run : Run} (before : w ≤ r)
    (length : text.length = n + rest.length) (few : examined ≤ text.length + 1) (well : ¬ Misread text)
    (reaches : ∀ place, Reaches text place ↔ place = text ∨ Reaches rest place)
    (folds : ∀ out, Folded foldChar 0x20 rest out → Folded foldChar 0x20 text (x :: out))
    (outcome : Outcome rest (Function.update buf w x) (r + n) (w + 1) run) :
    Outcome text buf r w ⟨⟨r, examined, w⟩ :: run.turns, run.buf⟩ := by
  have misreads := misreads_iff reaches
  cases outcome with
  | beyond turn member far misread =>
    exact .beyond turn (List.mem_cons_of_mem _ member) (by omega) (misreads.mpr (.inr misread))
  | folded out turns folded written none =>
    refine .folded (x :: out) ?_ (folds out folded) ?_ fun misread => ?_
    · refine List.forall_mem_cons.mpr ⟨⟨Nat.add_le_add_left few r, before⟩, fun turn member => ?_⟩
      have here := turns turn member
      exact ⟨by omega, here.2⟩
    · rw [List.cons_append, ← overwrite_update]
      exact written
    · exact (misreads.mp misread).elim well none
  | less out written shorter misread =>
    refine .less (x :: out) ?_ (fun out' folded' => ?_) (misreads.mpr (.inr misread))
    · rw [List.cons_append, ← overwrite_update]
      exact written
    · obtain ⟨out'', folded⟩ := exists_folded foldChar 0x20 rest
      rw [folded'.unique (folds out'' folded)]
      exact Nat.succ_lt_succ (shorter out'' folded)

/-- Bytes of ASCII and continuation bytes are folded one by one. -/
theorem folded_front {front out : List UInt8} (each : ∀ b ∈ front, Low b ∨ Tail b)
    (folded : Folded foldChar 0x20 (front ++ rest) out) :
    ∃ out', out.length = front.length + out'.length ∧ Folded foldChar 0x20 rest out' := by
  induction front generalizing out with
  | nil => exact ⟨out, (Nat.zero_add _).symm, folded⟩
  | cons b front ih =>
    obtain ⟨head, each⟩ := List.forall_mem_cons.mp each
    rw [List.cons_append] at folded
    have step : ∃ x out', out = x :: out' ∧ Folded foldChar 0x20 (front ++ rest) out' := by
      rcases head with low | tail
      · rw [Low] at low
        obtain ⟨c, value⟩ := exists_char (v := b.toNat) (.inl (by omega))
        have encode := (Encoded.one (show b.toNat < 0x80 by omega) value).encode
        have split : b :: (front ++ rest) = String.utf8EncodeChar c ++ (front ++ rest) := by
          rw [encode]
          rfl
        rw [split] at folded
        obtain ⟨out', same, folded⟩ := folded_char folded
        exact ⟨_, out', same, folded⟩
      · have none : ∀ c, ¬ Begins (b :: (front ++ rest)) c := by
          intro c begins
          rw [Tail] at tail
          obtain ⟨encoding, rest', same, encoded⟩ := begins_encoded begins
          cases encoded with
          | one plain _ => rw [(List.cons.inj same).1] at tail; omega
          | two low => rw [(List.cons.inj same).1] at tail; omega
          | three low => rw [(List.cons.inj same).1] at tail; omega
          | four low => rw [(List.cons.inj same).1] at tail; omega
        obtain ⟨out', same, folded⟩ := folded_stray none folded
        exact ⟨_, out', same, folded⟩
    obtain ⟨x, out', rfl, inner⟩ := step
    obtain ⟨out'', length, folded⟩ := ih each inner
    refine ⟨out'', ?_, folded⟩
    rw [List.length_cons, List.length_cons, length]
    omega

/-- A misreading comes to less than the text says. -/
theorem Outcome.mixed {b x : UInt8} {front : List UInt8} {examined : Nat} {run : Run}
    (text_eq : text = b :: (front ++ rest)) (two : 2 ≤ front.length) (each : ∀ b ∈ front, Low b ∨ Tail b)
    (none : ∀ c, ¬ Begins text c) (misread : Misread text)
    (outcome : Outcome rest (Function.update buf w x) (r + (front.length + 1)) (w + 1) run) :
    Outcome text buf r w ⟨⟨r, examined, w⟩ :: run.turns, run.buf⟩ := by
  have misreads : Misreads text := ⟨text, .start, misread⟩
  have length : text.length = front.length + 1 + rest.length := by
    rw [text_eq, List.length_cons, List.length_append]
    omega
  have longer : ∀ out', Folded foldChar 0x20 text out' →
      ∃ out'', out'.length = front.length + 1 + out''.length ∧ Folded foldChar 0x20 rest out'' := by
    intro out' folded'
    rw [text_eq] at none folded'
    obtain ⟨out'', rfl, inner⟩ := folded_stray none folded'
    obtain ⟨behind, length, folded⟩ := folded_front each inner
    exact ⟨behind, by rw [List.length_cons, length]; omega, folded⟩
  cases outcome with
  | beyond turn member far _ => exact .beyond turn (List.mem_cons_of_mem _ member) (by omega) misreads
  | folded out _ folded written _ =>
    refine .less (x :: out) ?_ (fun out' folded' => ?_) misreads
    · rw [List.cons_append, ← overwrite_update]
      exact written
    · obtain ⟨out'', length, folded''⟩ := longer out' folded'
      rw [length, folded.unique folded'', List.length_cons]
      omega
  | less out written shorter _ =>
    refine .less (x :: out) ?_ (fun out' folded' => ?_) misreads
    · rw [List.cons_append, ← overwrite_update]
      exact written
    · obtain ⟨out'', length, folded''⟩ := longer out' folded'
      have less := shorter out'' folded''
      rw [length, List.length_cons]
      omega

theorem not_misreads_nil : ¬ Misreads [] := by
  rintro ⟨rest, reaches, misread⟩
  rw [List.suffix_nil.mp reaches.suffix] at misread
  cases misread with
  | short3 _ _ _ same => cases same
  | short4 _ _ _ _ same _ => cases same
  | mixed3 _ _ _ _ _ _ _ _ same => cases same
  | mixed4 _ _ _ _ _ _ _ _ _ same => cases same

/-- The end of the text. -/
theorem outcome_end (before : w ≤ r) : Outcome [] buf r w ⟨[⟨r, 1, w⟩], Function.update buf w 0⟩ := by
  refine .folded [] ?_ .nil ?_ not_misreads_nil
  · exact List.forall_mem_cons.mpr ⟨⟨Nat.le_refl _, before⟩, fun turn member => absurd member List.not_mem_nil⟩
  · have written := @overwrite_update buf w 0 []
    rw [overwrite_nil] at written
    exact written

/-- The run of the loop over a text. -/
theorem foldFrom_run (nonzero : (0 : UInt8) ∉ text) (holds : Holds buf r (text ++ [0])) (before : w ≤ r)
    (room : text.length ≤ left) : Outcome text buf r w (foldFrom left buf r w) := by
  induction left generalizing buf r w text with
  | zero =>
    obtain rfl := List.eq_nil_of_length_eq_zero (Nat.le_zero.mp room)
    exact outcome_end before
  | succ left ih =>
    cases text with
    | nil =>
      have zero : buf r = 0 := (Holds.cons.mp holds).1
      rw [foldFrom, if_pos zero]
      exact outcome_end before
    | cons b tail =>
      have first : buf r = b := (Holds.cons.mp holds).1
      have here : b ≠ 0 := fun zero => nonzero (zero ▸ List.mem_cons_self)
      have ahead : Holds (fun k => buf (r + k)) 0 (b :: tail ++ [0]) := fun k inside => by
        rw [Nat.zero_add]
        exact holds k inside
      rw [foldFrom, if_neg (by rw [first]; exact here)]
      -- the rest of the text is untouched by the write
      have behind : ∀ (front : List UInt8) {rest : List UInt8} (x : UInt8), b :: tail = front ++ rest →
          0 < front.length →
          Holds (Function.update buf w x) (r + front.length) (rest ++ [0]) ∧ (0 : UInt8) ∉ rest := by
        intro front rest x same positive
        rw [same, List.append_assoc, Holds.append] at holds
        refine ⟨holds_update x (by omega) holds.2, fun member => nonzero ?_⟩
        rw [same]
        exact List.mem_append_right _ member
      rw [List.length_cons] at room
      cases reading here ahead with
      | char c rest same n cp examined well =>
        have positive := List.length_pos_of_ne_nil (String.utf8EncodeChar_ne_nil (c := c))
        have length : tail.length + 1 = (String.utf8EncodeChar c).length + rest.length := by
          rw [← List.length_append, ← same, List.length_cons]
        obtain ⟨rest_holds, rest_nonzero⟩ := behind _ (foldChar c) same positive
        simp only [n, cp, if_neg (Nat.ne_of_gt positive)]
        rw [same] at well ⊢
        refine Outcome.turn (x := foldChar c) before (by rw [List.length_append]) ?_ well
          (fun place => reaches_char) (fun out folded => .char folded)
          (ih rest_nonzero rest_holds (by omega) (by omega))
        rw [examined, n, List.length_append]
        omega
      | stray n none examined well =>
        obtain ⟨rest_holds, rest_nonzero⟩ := behind [b] 0x20 rfl (Nat.lt_succ_self 0)
        simp only [n, if_true]
        exact Outcome.turn (n := 1) (x := 0x20) before (by rw [List.length_cons, Nat.add_comm]) examined well
          (fun place => reaches_stray none) (fun out folded => .stray none folded)
          (ih rest_nonzero rest_holds (by omega) (by omega))
      | long far misread =>
        have misreads : Misreads (b :: tail) := ⟨_, .start, misread⟩
        rcases far with far | past
        · exact .beyond ⟨r, _, w⟩ List.mem_cons_self (by rw [Nat.add_assoc]; exact Nat.add_lt_add_left far r)
            misreads
        · simp only [past, if_neg (Nat.succ_ne_zero _)]
          obtain ⟨turn, member, far⟩ := foldFrom_turn left
            (Function.update buf w (foldCodepoint (utf8Decode fun k => buf (r + k)).cp))
            (r + ((b :: tail).length + 1)) (w + 1)
          exact .beyond turn (List.mem_cons_of_mem _ member) (by omega) misreads
      | mixed b' front rest same n two each none examined misread =>
        obtain ⟨rest_holds, rest_nonzero⟩ := behind (b' :: front)
          (foldCodepoint (utf8Decode fun k => buf (r + k)).cp) same (Nat.succ_pos _)
        have length : tail.length + 1 = front.length + 1 + rest.length := by
          rw [← List.length_cons, same, List.length_cons, List.length_append]
          omega
        simp only [n, if_neg (Nat.succ_ne_zero front.length)]
        exact Outcome.mixed same two each none misread
          (ih rest_nonzero rest_holds (by omega) (by omega))

/-! ## The whole buffer -/

/-- The buffer is folded as it should be: nothing behind the end of the text is examined, no write is
before a byte that is still to be read, the text becomes the fold of its sequences, which is plain, and
folding it again changes nothing. -/
def FoldsRight (buf : Nat → UInt8) (cap : Nat) (text : List UInt8) : Prop :=
  (∀ turn ∈ (engineUtf8Fold buf cap).turns, turn.r + turn.examined ≤ text.length + 1 ∧ turn.w ≤ turn.r) ∧
  ∃ out, Folded foldChar 0x20 text out ∧ Holds (engineUtf8Fold buf cap).buf 0 (out ++ [0]) ∧
    (∀ b ∈ out, Plain b) ∧
    (engineUtf8Fold (engineUtf8Fold buf cap).buf cap).buf = (engineUtf8Fold buf cap).buf

theorem plain_not_misreads (plain : ∀ b ∈ text, Plain b) : ¬ Misreads text := by
  rintro ⟨rest, reaches, misread⟩
  cases rest with
  | nil => exact not_misreads_nil ⟨[], .start, misread⟩
  | cons b rest =>
    have low := plain_low (plain b (reaches.suffix.subset List.mem_cons_self))
    have high := misread.lead
    omega

theorem folded_self (plain : ∀ b ∈ text, Plain b) : Folded foldChar 0x20 text text := by
  induction text with
  | nil => exact .nil
  | cons b text ih =>
    obtain ⟨head, rest⟩ := List.forall_mem_cons.mp plain
    have low := plain_low head
    obtain ⟨c, value⟩ := exists_char (v := b.toNat) (.inl (by omega))
    have encode := (Encoded.one low value).encode
    have same : foldChar c = b := by
      have code : c.val = b.toUInt32 := UInt32.toNat_inj.mp (value.trans (UInt8.toNat_toUInt32 b).symm)
      rw [foldChar, code]
      exact foldCodepoint_self head
    have folded := Folded.char (c := c) (ih rest)
    rw [encode, same] at folded
    exact folded

theorem outcome_fold {cap : Nat} (two : 2 ≤ cap) (nonzero : (0 : UInt8) ∉ text)
    (holds : Holds buf 0 (text ++ [0])) (inside : text.length < cap) :
    Outcome text buf 0 0 (engineUtf8Fold buf cap) := by
  rw [engineUtf8Fold, if_neg (by omega)]
  exact foldFrom_run nonzero holds (Nat.le_refl 0) (by omega)

theorem overwrite_held {start : Nat} {bytes : List UInt8} (holds : Holds buf start bytes) :
    overwrite buf start bytes = buf := by
  funext place
  by_cases inside : start ≤ place ∧ place < start + bytes.length
  · have here := holds (place - start) (by omega)
    rw [overwrite_from inside.1, List.getElem?_eq_getElem (by omega), Option.getD_some, ← here,
      Nat.add_sub_cancel' inside.1]
  · exact overwrite_elsewhere inside

theorem foldsRight_of {cap : Nat} (two : 2 ≤ cap) (nonzero : (0 : UInt8) ∉ text) (inside : text.length < cap)
    (holds : Holds buf 0 (text ++ [0])) (none : ¬ Misreads text) : FoldsRight buf cap text := by
  cases outcome_fold two nonzero holds inside with
  | beyond _ _ _ misreads => exact absurd misreads none
  | less _ _ _ misreads => exact absurd misreads none
  | folded out turns folded written _ =>
    have plain := folded_plain folded
    have result : Holds (engineUtf8Fold buf cap).buf 0 (out ++ [0]) := by
      rw [written]
      exact Holds.overwritten
    refine ⟨fun turn member => ?_, out, folded, result, plain, ?_⟩
    · have here := turns turn member
      exact ⟨by omega, here.2⟩
    · have short := Nat.lt_of_le_of_lt folded.length_le inside
      cases outcome_fold two (fun member => plain_nonzero (plain 0 member) rfl) result short with
      | beyond _ _ _ misreads => exact absurd misreads (plain_not_misreads plain)
      | folded out' _ folded' written' _ =>
        rw [written', folded'.unique (folded_self plain)]
        exact overwrite_held result
      | less _ _ _ misreads => exact absurd misreads (plain_not_misreads plain)

theorem not_foldsRight_of {cap : Nat} (two : 2 ≤ cap) (nonzero : (0 : UInt8) ∉ text) (inside : text.length < cap)
    (holds : Holds buf 0 (text ++ [0])) (misreads : Misreads text) : ¬ FoldsRight buf cap text := by
  intro right
  cases outcome_fold two nonzero holds inside with
  | beyond turn member far _ =>
    have near := (right.1 turn member).1
    omega
  | folded _ _ _ _ none => exact none misreads
  | less out written shorter _ =>
    obtain ⟨_, out', folded, result, plain, _⟩ := right
    have less := shorter out' folded
    have stop := @Holds.overwritten UInt8 buf 0 (out ++ [0]) out.length
      (by rw [List.length_append]; exact Nat.lt_succ_self _)
    have goes := result out.length (by rw [List.length_append]; omega)
    rw [written, stop, List.getElem_append_right (Nat.le_refl _), List.getElem_append_left less] at goes
    apply plain_nonzero (plain _ (List.getElem_mem less))
    rw [← goes]
    simp

/-- **A buffer is folded as it should be just when the reading of its text comes to no place where a lead
byte takes too much.** -/
theorem utf8_fold {cap : Nat} (two : 2 ≤ cap) (nonzero : (0 : UInt8) ∉ text) (inside : text.length < cap)
    (holds : Holds buf 0 (text ++ [0])) :
    FoldsRight buf cap text ↔ ∀ rest, Reaches text rest → ¬ Misread rest := by
  constructor
  · intro right rest reaches misread
    exact not_foldsRight_of two nonzero inside holds ⟨rest, reaches, misread⟩ right
  · intro none
    exact foldsRight_of two nonzero inside holds fun ⟨rest, reaches, misread⟩ => none rest reaches misread

/-- A buffer with a text in it. -/
def bufferOf (text : List UInt8) : Nat → UInt8 :=
  overwrite (fun _ => 0xff) 0 (text ++ [0])

theorem utf8_fold_accent : FoldsRight (bufferOf [0x63, 0xc3, 0xa9]) 4 [0x63, 0xc3, 0xa9] ↔
    ∀ rest, Reaches [0x63, 0xc3, 0xa9] rest → ¬ Misread rest :=
  utf8_fold (by decide) (by decide) (by decide) Holds.overwritten

/-- A lead byte of three bytes and one continuation byte take the end of the text with them. -/
theorem end_skipped : ¬ FoldsRight (bufferOf [0xe2, 0x80]) 3 [0xe2, 0x80] := by
  refine not_foldsRight_of (by decide) (by decide) (by decide) Holds.overwritten ⟨_, .start, ?_⟩
  refine .mixed3 0xe2 0x80 0 [] (by decide) (by decide) ?_ ⟨by decide, by decide, by decide⟩ rfl
  exact mixed_two (.inr ⟨by decide, by decide⟩) (.inl low_zero) (.inl ⟨by decide, by decide⟩)
    fun tails => tails.2.ne_zero rfl

end FuseX.Engines.Utf8
