import FuseX.Ssh.Control
import Mathlib.Data.List.Induction

/-!
# The lines of the guest's bytes

A carriage return, a newline and the two together end a line. `linesOf` is what the
stream of the guest's bytes says, in whatever pieces it comes; `feedControl_lines` is
what `ssh_socket_feed_control` makes of a piece: it stops behind the first line, and
the stream says the same unless the piece starts with the second half of an end.
-/

namespace FuseX.Ssh

/-! ## The stream -/

/-- The lines of a stream, and what stands behind the last of them. -/
structure Lines : Type where
  done : List Bytes
  part : Bytes
  afterCr : Bool
  deriving DecidableEq

def endsLine (c : UInt8) : Bool :=
  c = ascii '\r' ∨ c = ascii '\n'

def Lines.next (l : Lines) (c : UInt8) : Lines :=
  if c = ascii '\n' ∧ l.afterCr then { l with afterCr := false }
  else if endsLine c then
    { done := l.done ++ [l.part], part := [], afterCr := c = ascii '\r' }
  else { l with part := l.part ++ [c], afterCr := false }

def linesOf (stream : Bytes) : Lines :=
  stream.foldl Lines.next ⟨[], [], false⟩

theorem linesOf_snoc (stream : Bytes) (c : UInt8) :
    linesOf (stream ++ [c]) = (linesOf stream).next c := by
  rw [linesOf, List.foldl_append]
  rfl

theorem Lines.next_plain {c : UInt8} (plain : endsLine c = false) (l : Lines) :
    l.next c = { l with part := l.part ++ [c], afterCr := false } := by
  have notNewline : c ≠ ascii '\n' := by
    rintro rfl
    cases plain
  rw [Lines.next, if_neg fun both => notNewline both.1, plain]
  exact if_neg Bool.false_ne_true

theorem Lines.next_cr (l : Lines) :
    l.next (ascii '\r') = { done := l.done ++ [l.part], part := [], afterCr := true } := by
  rw [Lines.next, if_neg fun both => absurd both.1 (by decide)]
  rfl

theorem Lines.next_newline {l : Lines} (alone : l.afterCr = false) :
    l.next (ascii '\n') = { done := l.done ++ [l.part], part := [], afterCr := false } := by
  rw [Lines.next, if_neg fun both => Bool.false_ne_true (alone.symm.trans both.2)]
  rfl

theorem Lines.next_afterCr (l : Lines) {c : UInt8} : (l.next c).afterCr = true ↔ c = ascii '\r' := by
  rw [Lines.next]
  split_ifs with pair ends
  · refine iff_of_false (by simp) ?_
    rw [pair.1]
    decide
  · exact decide_eq_true_iff
  · refine iff_of_false (by simp) ?_
    rintro rfl
    exact ends rfl

/-- The stream ends with a carriage return. -/
theorem linesOf_afterCr (stream : Bytes) :
    (linesOf stream).afterCr = true ↔ stream.getLast? = some (ascii '\r') := by
  rcases List.eq_nil_or_concat stream with rfl | ⟨front, c, rfl⟩
  · exact iff_of_false Bool.false_ne_true (by simp)
  · rw [List.concat_eq_append, linesOf_snoc, Lines.next_afterCr, List.getLast?_concat,
      Option.some.injEq]

theorem linesOf_plain {stream part : Bytes} (plain : ∀ c ∈ part, endsLine c = false) :
    (linesOf (stream ++ part)).done = (linesOf stream).done ∧
      (linesOf (stream ++ part)).part = (linesOf stream).part ++ part ∧
      (part ≠ [] → (linesOf (stream ++ part)).afterCr = false) := by
  induction part using List.reverseRec with
  | nil => exact ⟨by rw [List.append_nil], by rw [List.append_nil, List.append_nil], by simp⟩
  | append_singleton front c ih =>
    obtain ⟨done, part, -⟩ := ih fun b member => plain b (List.mem_append_left _ member)
    rw [← List.append_assoc, linesOf_snoc,
      Lines.next_plain (plain c (List.mem_append_right _ List.mem_cons_self))]
    exact ⟨done, by rw [part, List.append_assoc], fun _ => rfl⟩

/-! ## A piece -/

/-- The ends of a line. -/
inductive Ending : Bytes → Bytes → Prop
  | pair {rest : Bytes} : Ending [ascii '\r', ascii '\n'] rest
  | cr {rest : Bytes} : rest.head? ≠ some (ascii '\n') → Ending [ascii '\r'] rest
  | newline {rest : Bytes} : Ending [ascii '\n'] rest

/-- The first line of a piece. -/
structure FirstLine (buf part ending rest : Bytes) : Prop where
  whole : buf = part ++ ending ++ rest
  plain : ∀ c ∈ part, endsLine c = false
  ending : Ending ending rest

/-- The bytes in front of the first end of a line. -/
def firstPart (buf : Bytes) : Bytes :=
  buf.takeWhile fun c => ¬ endsLine c

theorem FirstLine.firstPart {buf part ending rest : Bytes}
    (first : FirstLine buf part ending rest) : firstPart buf = part := by
  obtain ⟨rfl, plain, ends⟩ := first
  rw [Ssh.firstPart, List.append_assoc, List.takeWhile_append_of_pos (by simpa using plain)]
  cases ends <;> exact List.append_nil part

theorem firstPart_plain {buf : Bytes} (plain : ∀ c ∈ buf, endsLine c = false) :
    firstPart buf = buf := by
  rw [firstPart, List.takeWhile_eq_self_iff]
  simpa using plain

theorem firstLine_cases (buf : Bytes) :
    (∀ c ∈ buf, endsLine c = false) ∨ ∃ part ending rest, FirstLine buf part ending rest := by
  induction buf with
  | nil => exact .inl fun _ member => absurd member List.not_mem_nil
  | cons c buf ih =>
    by_cases ends : endsLine c = true
    · right
      rcases of_decide_eq_true ends with rfl | rfl
      · rcases Option.eq_none_or_eq_some buf.head? with none_ | ⟨b, some_⟩
        · exact ⟨[], _, buf, rfl, by simp, .cr (by rw [none_]; simp)⟩
        · obtain ⟨more, rfl⟩ := List.head?_eq_some_iff.mp some_
          by_cases pair : b = ascii '\n'
          · obtain rfl := pair
            exact ⟨[], _, more, rfl, by simp, .pair⟩
          · exact ⟨[], _, b :: more, rfl, by simp, .cr fun same => pair (Option.some.inj same)⟩
      · exact ⟨[], _, buf, rfl, by simp, .newline⟩
    · have plain := Bool.eq_false_iff.mpr ends
      rcases ih with all | ⟨part, ending, rest, rfl, others, ending_⟩
      · exact .inl (List.forall_mem_cons.mpr ⟨plain, all⟩)
      · exact .inr ⟨c :: part, ending, rest, rfl, List.forall_mem_cons.mpr ⟨plain, others⟩, ending_⟩

variable {s : Socket} {buf part ending rest : Bytes}

theorem feedLoop_plain (plain : ∀ c ∈ part, endsLine c = false)
    (fits : (s.line ++ part).length ≤ lineMax) (rest : Bytes) :
    feedLoop (part ++ rest) s =
      ((feedLoop rest { s with line := s.line ++ part }).1 + part.length,
        (feedLoop rest { s with line := s.line ++ part }).2) := by
  induction part generalizing s with
  | nil => rw [List.nil_append, List.append_nil]; rfl
  | cons c part ih =>
    obtain ⟨first, others⟩ := List.forall_mem_cons.mp plain
    have room : s.line.length < lineMax := by
      rw [List.length_append, List.length_cons] at fits
      omega
    have notEnd : ¬ (c = ascii '\r' ∨ c = ascii '\n') := of_decide_eq_false first
    have split : s.line ++ c :: part = s.line ++ [c] ++ part := by
      rw [List.append_assoc, List.singleton_append]
    rw [List.cons_append, feedLoop, if_neg notEnd]
    simp only [if_pos room]
    rw [@ih { s with line := s.line ++ [c] } others (by rw [← split]; exact fits)]
    rw [split, List.length_cons, Nat.add_assoc]

theorem feedLoop_ending (ends : Ending ending rest) :
    feedLoop (ending ++ rest) s =
      (ending.length, { s with lineReady := true, promptPending := false }) := by
  cases ends with
  | pair => rfl
  | newline => rfl
  | cr alone =>
    rw [List.singleton_append, feedLoop, if_pos (.inl rfl), if_neg fun both => alone both.2]
    rfl

/-- The whole piece belongs to one line. -/
theorem feedControl_plain (pending : s.promptPending = true)
    (plain : ∀ c ∈ buf, endsLine c = false) (fits : (s.line ++ buf).length ≤ lineMax) :
    feedControl buf s = (buf.length, { s with line := s.line ++ buf, fed := s.fed ++ buf }) := by
  have loop := feedLoop_plain plain fits []
  rw [List.append_nil, feedLoop, Nat.zero_add] at loop
  rw [feedControl, if_pos pending]
  simp only [loop, List.take_length]

/-- A line ends in the piece. -/
theorem feedControl_line (pending : s.promptPending = true) (first : FirstLine buf part ending rest)
    (fits : (s.line ++ part).length ≤ lineMax) :
    feedControl buf s = ((part ++ ending).length,
      { s with
        line := s.line ++ part
        fed := s.fed ++ (part ++ ending)
        lineReady := true
        promptPending := false }) := by
  obtain ⟨rfl, plain, ends⟩ := first
  have count : ending.length + part.length = (part ++ ending).length := by
    rw [List.length_append, Nat.add_comm]
  rw [feedControl, if_pos pending, List.append_assoc]
  simp only [feedLoop_plain plain fits, feedLoop_ending ends, count]
  rw [← List.append_assoc, List.take_left']
  rfl

/-- The stream says that the line has ended too. -/
theorem linesOf_line {stream : Bytes} (plain : ∀ c ∈ part, endsLine c = false)
    (ends : Ending ending rest)
    (whole : ¬ (stream.getLast? = some (ascii '\r') ∧ (part ++ ending).head? = some (ascii '\n'))) :
    (linesOf (stream ++ (part ++ ending))).done =
        (linesOf stream).done ++ [(linesOf stream).part ++ part] ∧
      (linesOf (stream ++ (part ++ ending))).part = [] := by
  obtain ⟨done, part_eq, after⟩ := @linesOf_plain stream part plain
  rw [← List.append_assoc]
  cases ends with
  | cr =>
    rw [linesOf_snoc, Lines.next_cr, done, part_eq]
    exact ⟨rfl, rfl⟩
  | pair =>
    -- the second half of the end follows the first
    have halves : stream ++ part ++ [ascii '\r', ascii '\n'] =
        stream ++ part ++ [ascii '\r'] ++ [ascii '\n'] := by
      rw [List.append_assoc _ [ascii '\r'], List.singleton_append]
    rw [halves, linesOf_snoc, linesOf_snoc, Lines.next_cr, done, part_eq]
    exact ⟨rfl, rfl⟩
  | newline =>
    have alone : (linesOf (stream ++ part)).afterCr = false := by
      cases part with
      | cons c part => exact after (List.cons_ne_nil _ _)
      | nil =>
        rw [List.append_nil]
        refine Bool.eq_false_iff.mpr fun afterCr => whole ⟨(linesOf_afterCr _).mp afterCr, rfl⟩
    rw [linesOf_snoc, Lines.next_newline alone, done, part_eq]
    exact ⟨rfl, rfl⟩

end FuseX.Ssh
