import FuseX.Display.Border
import FuseX.Lib.Runs
import FuseX.Lib.Sweep

/-!
# The border as the beam draws it

The `Beam` is drawn with the colour the border has: when the border changes its colour, all that the beam
has yet to draw changes. `frame_plots` says that what `display_border_frame` finds for the cells of the
border at the end of a frame is what the beam has drawn, whatever the border was changed by, and that it
is plotted as it is when no two changes are closer than the four T-states of a column.
-/

namespace FuseX.Display.Border

open LastScreen

variable {timings : Timings} {timex : Bool}

theorem linePixels_eq : linePixels timex = tstatesPerLineVisible * pixPerTstate timex := by
  rw [linePixels, pixPerCol_eq, tstatesPerLineVisible, Nat.mul_assoc]

/-! ## The beam -/

/-- When the beam draws a pixel. -/
def beamTime (timings : Timings) (timex : Bool) (y p : Nat) : Nat :=
  timings.lineTimes y + p / pixPerTstate timex

/-- A border that is drawn by the beam. -/
structure Beam : Type where
  source : Source
  tstates : Nat
  canvas : Nat → Nat → Nat
  /-- when the last change of this frame was seen -/
  since : Option Nat

namespace Beam

/-- The colour changes two T-states after the write. -/
def repaint (timings : Timings) (timex : Bool) (b : Beam) (source : Source) : Beam :=
  if source.currentBorderColour = b.source.currentBorderColour then { b with source := source }
  else
    { b with
      source := source
      canvas := fun y p =>
        if b.tstates + 2 ≤ beamTime timings timex y p then source.currentBorderColour else b.canvas y p
      since := some (b.tstates + 2) }

def step (timings : Timings) (timex : Bool) (b : Beam) : Act → Beam
  | .pass tstates => { b with tstates := b.tstates + tstates }
  | .frame length =>
      { b with
        tstates := b.tstates - length
        canvas := fun _ _ => b.source.currentBorderColour
        since := none }
  | act => b.repaint timings timex (act.source b.source)

def start (source : Source) : Beam where
  source := source
  tstates := 0
  canvas := fun _ _ => source.currentBorderColour
  since := none

/-- A change of the colour comes four T-states after the one before. -/
def Spaced (b : Beam) (act : Act) : Prop :=
  (act.source b.source).currentBorderColour ≠ b.source.currentBorderColour →
    ∀ before ∈ b.since, before + 4 ≤ b.tstates + 2

end Beam

/-! ## The colour of a pixel -/

/-- The beam is past the change when it draws the pixel. -/
def BorderChange.Reaches (timex : Bool) (change : BorderChange) (y p : Nat) : Prop :=
  change.y < y ∨ change.y = y ∧ change.t * pixPerTstate timex ≤ p

instance (change : BorderChange) (y p : Nat) : Decidable (change.Reaches timex y p) :=
  inferInstanceAs (Decidable (_ ∨ _))

/-- The colour of the last change before a pixel. -/
def colourAt (timex : Bool) (changes : List BorderChange) (y p : Nat) : Nat :=
  changes.foldl (fun colour change => if change.Reaches timex y p then change.colour else colour) 0

/-- No change is before the one in front of it. -/
def BorderChange.Before (first second : BorderChange) : Prop :=
  first.y < second.y ∨ first.y = second.y ∧ first.t ≤ second.t

/-- A change within the screen. -/
structure BorderChange.Visible (change : BorderChange) : Prop where
  line : change.y < screenHeight
  place : change.t ≤ tstatesPerLineVisible

section Colours

variable {changes front back : List BorderChange} {change first second : BorderChange} {y p : Nat}

theorem BorderChange.Before.reaches (before : first.Before second) (reaches : second.Reaches timex y p) :
    first.Reaches timex y p := by
  rcases before with line | ⟨line, place⟩
  · rcases reaches with line' | ⟨line', -⟩
    · exact .inl (line.trans line')
    · exact .inl (line' ▸ line)
  · rcases reaches with line' | ⟨line', place'⟩
    · exact .inl (line ▸ line')
    · exact .inr ⟨line.trans line', (Nat.mul_le_mul_right _ place).trans place'⟩

theorem colourAt_snoc :
    colourAt timex (changes ++ [change]) y p =
      if change.Reaches timex y p then change.colour else colourAt timex changes y p := by
  rw [colourAt, List.foldl_append]
  rfl

theorem colourAt_skip (unreached : ∀ change ∈ back, ¬ change.Reaches timex y p) :
    colourAt timex (front ++ back) y p = colourAt timex front y p := by
  induction back using List.reverseRecOn with
  | nil => rw [List.append_nil]
  | append_singleton back change ih =>
    have last : ¬ change.Reaches timex y p := unreached change (by simp)
    rw [← List.append_assoc, colourAt_snoc, if_neg last]
    exact ih fun other inside => unreached other (List.mem_append_left _ inside)

/-- From one change to the next, the colour is that of the first. -/
theorem colourAt_between (ordered : (second :: back).Pairwise BorderChange.Before)
    (reached : first.Reaches timex y p) (unreached : ¬ second.Reaches timex y p) :
    colourAt timex (front ++ first :: second :: back) y p = first.colour := by
  have later : ∀ change ∈ second :: back, ¬ change.Reaches timex y p := by
    intro change inside
    rcases List.mem_cons.mp inside with rfl | inside
    · exact unreached
    · exact fun reaches => unreached (((List.pairwise_cons.mp ordered).1 change inside).reaches reaches)
  rw [List.append_cons, colourAt_skip later, colourAt_snoc, if_pos reached]

end Colours

/-! ## Flushing a line -/

section Flush

variable {s : Border} {y : Nat}

/-- What is flushed for a cell. -/
def chunkOf (timex : Bool) (line : Nat → Nat) (c : Nat) : Chunk :=
  flushBorderColumn timex fun p => line (c * pixPerCol timex + p)

/-- What drawing the border leaves alone. -/
def Border.Alike (s s' : Border) : Prop :=
  s'.source = s.source ∧ s'.tstates = s.tstates ∧ s'.lastBorder = s.lastBorder

theorem flushLine_alike (s : Border) : s.Alike (s.flushBorderLine timex y) := by
  refine Lib.foldl_keeps (P := s.Alike) ?_ ⟨rfl, rfl, rfl⟩
  intro s' c _ same
  rw [Border.flushBorderCell]
  split
  · exact same
  · exact same

/-- A cell of the line, and what it is drawn from. -/
def lineView (s : Border) (c : Nat) : (Nat → Nat) × (Nat → Cell) :=
  (s.pixelBuf, s.cells c)

/-- What is flushed into a column. -/
def flushView (timex : Bool) (y c : Nat) (view : (Nat → Nat) × (Nat → Cell)) : (Nat → Nat) × (Nat → Cell) :=
  (view.1, fun y' => if y' = y ∧ ¬ Border.IsPaper c y then (chunkOf timex view.1 c).write (view.2 y) else view.2 y')

theorem flushCell_own (s : Border) (c : Nat) :
    lineView (Border.flushBorderCell timex y s c) c = flushView timex y c (lineView s c) := by
  by_cases paper : Border.IsPaper c y
  · simp only [Border.flushBorderCell, paper, if_true, flushView, lineView, not_true_eq_false, and_false,
      if_false]
  · simp only [Border.flushBorderCell, paper, if_false, flushView, lineView, not_false_eq_true, and_true,
      true_and]
    rfl

theorem flushCell_others (s : Border) (c other : Nat) (apart : other ≠ c) :
    lineView (Border.flushBorderCell timex y s c) other = lineView s other := by
  by_cases paper : Border.IsPaper c y
  · simp only [Border.flushBorderCell, paper, if_true]
  · simp only [Border.flushBorderCell, paper, if_false, lineView, apart, false_and]

theorem flushLine_cells (s : Border) (c y' : Nat) :
    (s.flushBorderLine timex y).cells c y' =
      if c < screenWidthCols ∧ y' = y ∧ ¬ Border.IsPaper c y then
        (chunkOf timex s.pixelBuf c).write (s.cells c y)
      else s.cells c y' := by
  by_cases inside : c < screenWidthCols
  · have here : lineView (s.flushBorderLine timex y) c = flushView timex y c (lineView s c) :=
      @Lib.foldl_view _ _ _ (Border.flushBorderCell timex y) lineView (flushView timex y) flushCell_own
        flushCell_others _ List.nodup_range _ (List.mem_range.mpr inside) s
    have column := congrFun (congrArg Prod.snd here) y'
    simp only [inside, true_and]
    exact column
  · have outside : c ∉ List.range screenWidthCols := fun member => inside (List.mem_range.mp member)
    have here : lineView (s.flushBorderLine timex y) c = lineView s c :=
      @Lib.foldl_view_outside _ _ _ (Border.flushBorderCell timex y) lineView flushCell_others _ _ outside s
    rw [if_neg fun wrong => inside wrong.1]
    exact congrFun (congrArg Prod.snd here) y'

theorem scanColumn_congr {pixel pixel' : Nat → Nat} {ps : List Nat} (same : ∀ p ∈ ps, pixel p = pixel' p)
    (colour : Nat) (transition : Option Nat) :
    scanColumn pixel ps colour transition = scanColumn pixel' ps colour transition := by
  induction ps generalizing colour transition with
  | nil => rfl
  | cons p ps ih =>
    have rest := ih fun q inside => same q (List.mem_cons_of_mem p inside)
    rw [scanColumn, scanColumn, same p List.mem_cons_self, rest, rest]

/-- Only the pixels of the line count. -/
theorem chunkOf_congr {line line' : Nat → Nat} {c : Nat} (inside : c < screenWidthCols)
    (same : ∀ p < linePixels timex, line p = line' p) : chunkOf timex line c = chunkOf timex line' c := by
  have column : ∀ p < pixPerCol timex, line (c * pixPerCol timex + p) = line' (c * pixPerCol timex + p) := by
    intro p small
    apply same
    calc c * pixPerCol timex + p < c * pixPerCol timex + pixPerCol timex := Nat.add_lt_add_left small _
      _ = (c + 1) * pixPerCol timex := (Nat.succ_mul c _).symm
      _ ≤ linePixels timex := Nat.mul_le_mul_right _ inside
  have some : 0 < pixPerCol timex := by cases timex <;> decide
  have scanned : ∀ colour transition,
      scanColumn (fun p => line (c * pixPerCol timex + p)) (List.range' 1 (pixPerCol timex - 1)) colour transition =
        scanColumn (fun p => line' (c * pixPerCol timex + p)) (List.range' 1 (pixPerCol timex - 1)) colour
          transition := by
    refine scanColumn_congr fun p inside => ?_
    rw [List.mem_range'_1] at inside
    exact column p (by omega)
  simp only [chunkOf, flushBorderColumn, column 0 some, scanned]

end Flush

/-! ## Replaying the changes -/

/-- The replay of all the changes has come to a place: the lines above are flushed, and the line is filled
up to it. -/
structure Painted (timex : Bool) (all : List BorderChange) (s : Border) (y pix : Nat) (r : Replay) : Prop where
  cursorY : r.cursorY = y
  cursorPix : r.cursorPix = pix
  cells : ∀ c row, r.border.cells c row =
    if c < screenWidthCols ∧ row < y ∧ ¬ Border.IsPaper c row then
      (chunkOf timex (colourAt timex all row) c).write (s.cells c row)
    else s.cells c row
  line : ∀ p < pix, r.border.pixelBuf p = colourAt timex all y p

section Replay

variable {all front middle : List BorderChange} {s : Border} {r : Replay} {y pix colour : Nat}
  {first second : BorderChange}

/-- A line that is full is flushed. -/
theorem flushed_cells (painted : Painted timex all s y pix r) {flat : Border} (cells : flat.cells = r.border.cells)
    (full : ∀ p < linePixels timex, flat.pixelBuf p = colourAt timex all y p) (c row : Nat) :
    (flat.flushBorderLine timex y).cells c row =
      if c < screenWidthCols ∧ row < y + 1 ∧ ¬ Border.IsPaper c row then
        (chunkOf timex (colourAt timex all row) c).write (s.cells c row)
      else s.cells c row := by
  rw [flushLine_cells, cells, painted.cells, painted.cells]
  by_cases here : row = y
  · subst here
    by_cases border : c < screenWidthCols ∧ ¬ Border.IsPaper c row
    · have chunks := chunkOf_congr border.1 full
      rw [if_pos ⟨border.1, rfl, border.2⟩, if_neg fun wrong => Nat.lt_irrefl row wrong.2.1,
        if_pos ⟨border.1, Nat.lt_succ_self row, border.2⟩, chunks]
    · rw [if_neg fun wrong => border ⟨wrong.1, wrong.2.2⟩, if_neg fun wrong => border ⟨wrong.1, wrong.2.2⟩,
        if_neg fun wrong => border ⟨wrong.1, wrong.2.2⟩]
  · have above : row < y + 1 ↔ row < y := by omega
    rw [if_neg fun wrong => here wrong.2.1]
    simp only [above]

theorem painted_finishLines {n : Nat} (painted : Painted timex all s y pix r)
    (plain : ∀ row p, row < y + n → p < linePixels timex → (y < row ∨ y = row ∧ pix ≤ p) →
      colourAt timex all row p = colour) :
    Painted timex all s (y + n) (if n = 0 then pix else 0) (r.finishLines timex colour n) := by
  induction n generalizing y pix r with
  | zero => exact painted
  | succ n ih =>
    have full : ∀ p < linePixels timex, (r.fill (linePixels timex) colour).pixelBuf p = colourAt timex all y p := by
      intro p inside
      simp only [Replay.fill, painted.cursorPix, inside, and_true]
      by_cases swept : pix ≤ p
      · rw [if_pos swept, plain y p (by omega) inside (.inr ⟨rfl, swept⟩)]
      · rw [if_neg swept, painted.line p (Nat.lt_of_not_le swept)]
    have next : Painted timex all s (y + 1) 0
        { border := (r.fill (linePixels timex) colour).flushBorderLine timex r.cursorY
          cursorY := r.cursorY + 1
          cursorPix := 0 } := by
      rw [painted.cursorY]
      exact
        { cursorY := rfl
          cursorPix := rfl
          cells := flushed_cells painted rfl full
          line := fun p none => absurd none (Nat.not_lt_zero p) }
    have rest := ih next fun row p above inside after => by
      refine plain row p (by omega) inside (.inl ?_)
      omega
    have place : (if n = 0 then 0 else 0) = 0 := ite_self 0
    rw [place, Nat.add_right_comm] at rest
    rw [if_neg (Nat.succ_ne_zero n)]
    exact rest

/-- What is swept from one change to the next has the colour of the first. -/
theorem painted_segment (painted : Painted timex all s first.y (first.t * pixPerTstate timex) r)
    (before : first.Before second) (visible : second.Visible)
    (between : ∀ row p, first.Reaches timex row p → ¬ second.Reaches timex row p →
      colourAt timex all row p = first.colour) :
    Painted timex all s second.y (second.t * pixPerTstate timex) (r.segment timex first second) := by
  have down : first.y ≤ second.y := by
    rcases before with line | ⟨line, -⟩
    · exact Nat.le_of_lt line
    · exact Nat.le_of_eq line
  have swept : Painted timex all s (first.y + (second.y - first.y))
      (if second.y - first.y = 0 then first.t * pixPerTstate timex else 0)
      (r.finishLines timex first.colour (second.y - first.y)) := by
    refine painted_finishLines painted fun row p above _ after => between row p after ?_
    rintro (wrong | ⟨wrong, -⟩) <;> omega
  have target : min (second.t * pixPerTstate timex) (linePixels timex) = second.t * pixPerTstate timex := by
    rw [linePixels_eq]
    exact Nat.min_eq_left (Nat.mul_le_mul_right _ visible.place)
  rw [Nat.add_sub_of_le down] at swept
  rw [Replay.segment]
  simp only [target, painted.cursorY]
  obtain ⟨r', r'_eq⟩ : ∃ r', r.finishLines timex first.colour (second.y - first.y) = r' := ⟨_, rfl⟩
  rw [r'_eq] at swept ⊢
  by_cases further : r'.cursorPix < second.t * pixPerTstate timex
  · rw [if_pos further]
    refine ⟨swept.cursorY, rfl, swept.cells, fun p inside => ?_⟩
    simp only [Replay.fill, inside, and_true]
    by_cases filled : r'.cursorPix ≤ p
    · rw [if_pos filled]
      refine (between second.y p ?_ ?_).symm
      · rw [swept.cursorPix] at filled
        rcases Nat.eq_or_lt_of_le down with line | line
        · rw [line, Nat.sub_self, if_pos rfl] at filled
          exact .inr ⟨line, filled⟩
        · exact .inl line
      · rintro (wrong | ⟨-, wrong⟩)
        · exact Nat.lt_irrefl _ wrong
        · exact Nat.not_le.mpr inside wrong
    · rw [if_neg filled]
      exact swept.line p (swept.cursorPix ▸ Nat.lt_of_not_le filled)
  · rw [if_neg further]
    have there : r'.cursorPix = second.t * pixPerTstate timex := by
      refine Nat.le_antisymm ?_ (Nat.le_of_not_lt further)
      rw [swept.cursorPix]
      rcases before with line | ⟨line, place⟩
      · rw [if_neg (Nat.sub_ne_zero_of_lt line)]
        exact Nat.zero_le _
      · rw [line, Nat.sub_self, if_pos rfl]
        exact Nat.mul_le_mul_right _ place
    refine ⟨swept.cursorY, there, swept.cells, fun p inside => ?_⟩
    exact swept.line p (swept.cursorPix ▸ there.symm ▸ inside)

theorem painted_next {back : List BorderChange} (whole : all = front ++ first :: second :: back)
    (ordered : all.Pairwise BorderChange.Before) (visible : ∀ change ∈ all, change.Visible)
    (painted : Painted timex all s first.y (first.t * pixPerTstate timex) r) :
    Painted timex all s second.y (second.t * pixPerTstate timex) (r.segment timex first second) := by
  have later : (first :: second :: back).Pairwise BorderChange.Before :=
    ((List.pairwise_append.mp (whole ▸ ordered)).2).1
  obtain ⟨next, later⟩ := List.pairwise_cons.mp later
  refine painted_segment painted (next second List.mem_cons_self) (visible second (by simp [whole])) ?_
  intro row p reached unreached
  rw [whole]
  exact colourAt_between later reached unreached

theorem painted_segments (whole : all = front ++ first :: (middle ++ [borderChangeEndSentinel]))
    (ordered : all.Pairwise BorderChange.Before) (visible : ∀ change ∈ all, change.Visible)
    (painted : Painted timex all s first.y (first.t * pixPerTstate timex) r) :
    Painted timex all s (screenHeight - 1) (linePixels timex)
      (Replay.segments timex (first :: (middle ++ [borderChangeEndSentinel])) r) := by
  induction middle generalizing front first r with
  | nil =>
    rw [linePixels_eq]
    exact painted_next whole ordered visible painted
  | cons second middle ih =>
    have next := painted_next whole ordered visible painted
    rw [List.append_cons] at whole
    exact ih whole next

/-- `display_border_frame` draws each cell of the border once, with the colours of the last changes before its
pixels. -/
theorem frame_cells (timex : Bool) {start : BorderChange} (changes : s.changes = start :: middle)
    (top : start.y = 0 ∧ start.t = 0) (ordered : s.changes.Pairwise BorderChange.Before)
    (visible : ∀ change ∈ s.changes, change.Visible) (c row : Nat) :
    (s.displayBorderFrame timex).cells c row =
      if c < screenWidthCols ∧ row < screenHeight ∧ ¬ Border.IsPaper c row then
        (chunkOf timex (colourAt timex s.changes row) c).write (s.cells c row)
      else s.cells c row := by
  obtain ⟨all, all_eq⟩ : ∃ all, s.changes ++ [borderChangeEndSentinel] = all := ⟨_, rfl⟩
  have lastIs : ∀ change ∈ s.changes, change.Before borderChangeEndSentinel := by
    intro change inside
    obtain ⟨line, place⟩ := visible change inside
    rcases Nat.lt_or_ge change.y (screenHeight - 1) with above | last
    · exact .inl above
    · exact .inr ⟨Nat.le_antisymm (Nat.le_sub_one_of_lt line) last, place⟩
  have ordered' : all.Pairwise BorderChange.Before := by
    rw [← all_eq, List.pairwise_append]
    exact ⟨ordered, List.pairwise_singleton _ _, fun change inside last isLast =>
      List.mem_singleton.mp isLast ▸ lastIs change inside⟩
  have visible' : ∀ change ∈ all, change.Visible := by
    intro change inside
    rcases List.mem_append.mp (all_eq ▸ inside) with inside | last
    · exact visible change inside
    · rw [List.mem_singleton.mp last]
      exact ⟨by decide, Nat.le_refl _⟩
  have whole : all = [] ++ start :: (middle ++ [borderChangeEndSentinel]) := by
    rw [← all_eq, changes]
    rfl
  have begun : Painted timex all s start.y (start.t * pixPerTstate timex) ⟨s, 0, 0⟩ := by
    rw [top.1, top.2, Nat.zero_mul]
    exact
      { cursorY := rfl
        cursorPix := rfl
        cells := fun c row => by rw [if_neg fun wrong => Nat.not_lt_zero row wrong.2.1]
        line := fun p none => absurd none (Nat.not_lt_zero p) }
  have painted := painted_segments whole ordered' visible' begun
  have flushed := flushed_cells painted rfl painted.line c row
  have listed : s.changes ++ [borderChangeEndSentinel] = start :: (middle ++ [borderChangeEndSentinel]) := by
    rw [changes]
    rfl
  rw [Border.displayBorderFrame, listed]
  simp only [Border.addBorderSentinel]
  rw [painted.cursorY]
  refine flushed.trans ?_
  by_cases border : c < screenWidthCols ∧ row < screenHeight ∧ ¬ Border.IsPaper c row
  · -- the end sentinel comes after all the pixels
    have unreached : ∀ p < linePixels timex, colourAt timex all row p = colourAt timex s.changes row p := by
      intro p inside
      rw [← all_eq, colourAt_snoc, if_neg]
      rintro (wrong | ⟨-, wrong⟩)
      · exact Nat.lt_irrefl row (Nat.lt_of_lt_of_le border.2.1 wrong)
      · rw [linePixels_eq] at inside
        exact Nat.not_le.mpr inside wrong
    rw [if_pos border, chunkOf_congr border.1 unreached]
    exact if_pos border
  · rw [if_neg border]
    exact if_neg border

theorem Border.Alike.trans {s' s'' : Border} (same : s.Alike s') (same' : s'.Alike s'') : s.Alike s'' :=
  ⟨same'.1.trans same.1, same'.2.1.trans same.2.1, same'.2.2.trans same.2.2⟩

theorem finishLines_alike (n : Nat) (r : Replay) : r.border.Alike (r.finishLines timex colour n).border := by
  induction n generalizing r with
  | zero => exact ⟨rfl, rfl, rfl⟩
  | succ n ih =>
    have line : r.border.Alike ((r.fill (linePixels timex) colour).flushBorderLine timex r.cursorY) :=
      flushLine_alike (r.fill (linePixels timex) colour)
    exact line.trans (ih _)

theorem segments_alike (changes : List BorderChange) (r : Replay) :
    r.border.Alike (Replay.segments timex changes r).border := by
  induction changes generalizing r with
  | nil => exact ⟨rfl, rfl, rfl⟩
  | cons first changes ih =>
    cases changes with
    | nil => exact ⟨rfl, rfl, rfl⟩
    | cons second rest =>
      have swept : r.border.Alike (r.finishLines timex first.colour (second.y - r.cursorY)).border :=
        finishLines_alike _ r
      have segment : r.border.Alike (r.segment timex first second).border := by
        rw [Replay.segment]
        split
        · exact swept
        · exact swept
      exact segment.trans (ih _)

/-- A frame begins with the colour that the border has. -/
theorem frame_begins (timex : Bool) (s : Border) :
    s.Alike (s.displayBorderFrame timex) ∧
      (s.displayBorderFrame timex).changes = [⟨0, 0, s.source.currentBorderColour⟩] := by
  have replayed : s.Alike (Replay.segments timex (s.changes ++ [borderChangeEndSentinel]) ⟨s, 0, 0⟩).border :=
    segments_alike _ ⟨s, 0, 0⟩
  have flushed := fun y => replayed.trans (@flushLine_alike timex y _)
  refine ⟨flushed _, ?_⟩
  simp only [Border.displayBorderFrame, Border.addBorderSentinel, List.nil_append]
  rw [(flushed _).1]

end Replay

/-! ## Where the beam is -/

theorem pixel_time {p : Nat} (inside : p < linePixels timex) : p / pixPerTstate timex < tstatesPerLineVisible := by
  rw [linePixels_eq] at inside
  exact Nat.div_lt_of_lt_mul (Nat.mul_comm _ _ ▸ inside)

/-- A change reaches the pixels that the beam draws from then on. -/
theorem reaches_beam (wide : tstatesPerLineVisible ≤ timings.tstatesPerLine) {event colour row p : Nat}
    (line : row < screenHeight) (inside : p < linePixels timex) :
    event ≤ beamTime timings timex row p ↔
      (Border.beam timings event).1 < screenHeight ∧
        BorderChange.Reaches timex ⟨(Border.beam timings event).2, (Border.beam timings event).1, colour⟩ row p := by
  have time := pixel_time inside
  have step := pixPerTstate_pos timex
  have place : ∀ t, t * pixPerTstate timex ≤ p ↔ t ≤ p / pixPerTstate timex := fun t =>
    (Nat.le_div_iff_mul_le step).symm
  simp only [BorderChange.Reaches, place, beamTime]
  obtain ⟨k, k_eq⟩ : ∃ k, p / pixPerTstate timex = k := ⟨_, rfl⟩
  rw [k_eq] at time ⊢
  by_cases early : event < timings.lineTimes 0
  · simp only [Border.beam, early, if_true]
    have first : timings.lineTimes 0 ≤ timings.lineTimes row :=
      Nat.add_le_add_left (Nat.mul_le_mul_right _ (Nat.zero_le row)) _
    constructor
    · intro _
      exact ⟨by decide, (Nat.eq_zero_or_pos row).symm.imp id fun top => ⟨top.symm, Nat.zero_le k⟩⟩
    · intro _
      omega
  · simp only [Border.beam, early, if_false]
    have since : timings.lineTimes 0 = timings.lineTimes0 := by rw [Timings.lineTimes, Nat.zero_mul, Nat.add_zero]
    obtain ⟨d, d_eq⟩ : ∃ d, event = timings.lineTimes0 + d := ⟨event - timings.lineTimes0, by omega⟩
    obtain ⟨width, width_eq⟩ : ∃ width, timings.tstatesPerLine = width := ⟨_, rfl⟩
    obtain ⟨y, y_eq⟩ : ∃ y, d / width = y := ⟨_, rfl⟩
    have split : width * y + d % width = d := by rw [← y_eq]; exact Nat.div_add_mod d width
    have small : d % width < width :=
      Nat.mod_lt _ (Nat.lt_of_lt_of_le (by decide) (width_eq ▸ wide))
    rw [since, d_eq, Nat.add_sub_cancel_left, width_eq, y_eq, Timings.lineTimes, width_eq]
    simp only [Timings.lineTimes, width_eq]
    rw [width_eq] at wide
    have into : timings.lineTimes0 + d - (timings.lineTimes0 + y * width) = d % width := by
      rw [Nat.mul_comm y width]
      omega
    rw [into]
    rcases Nat.lt_trichotomy y row with above | here | below
    · have next : width * y + width ≤ row * width := by
        rw [Nat.mul_comm row width, ← Nat.mul_succ]
        exact Nat.mul_le_mul_left width above
      exact ⟨fun _ => ⟨above.trans line, .inl above⟩, fun _ => by omega⟩
    · subst here
      rw [Nat.mul_comm width y] at split
      constructor
      · intro drawn
        exact ⟨line, .inr ⟨rfl, by omega⟩⟩
      · rintro ⟨-, wrong | ⟨-, place⟩⟩
        · exact absurd wrong (Nat.lt_irrefl y)
        · omega
    · have next : row * width + width ≤ width * y := by
        rw [Nat.mul_comm row width, ← Nat.mul_succ]
        exact Nat.mul_le_mul_left width below
      constructor
      · intro drawn
        omega
      · rintro ⟨-, wrong | ⟨wrong, -⟩⟩ <;> omega

theorem beam_mono {event event' : Nat} (later : event ≤ event') (colour colour' : Nat) :
    BorderChange.Before ⟨(Border.beam timings event).2, (Border.beam timings event).1, colour⟩
      ⟨(Border.beam timings event').2, (Border.beam timings event').1, colour'⟩ := by
  simp only [BorderChange.Before, Border.beam]
  by_cases early : event < timings.lineTimes 0
  · simp only [early, if_true]
    rcases Nat.eq_zero_or_pos (if event' < timings.lineTimes 0 then ((0, 0) : Nat × Nat) else _).1 with top | line
    · exact .inr ⟨top.symm, Nat.zero_le _⟩
    · exact .inl line
  · have late : ¬ event' < timings.lineTimes 0 := by omega
    simp only [early, late, if_false]
    have lines := Nat.div_le_div_right (c := timings.tstatesPerLine)
      (Nat.sub_le_sub_right later (timings.lineTimes 0))
    rcases Nat.eq_or_lt_of_le lines with same | line
    · refine .inr ⟨same, ?_⟩
      rw [same]
      omega
    · exact .inl line

/-! ## The border and the beam -/

/-- The changes that are noted are those of the beam. -/
structure Drawn (timings : Timings) (timex : Bool) (s : Border) (b : Beam) : Prop where
  source : b.source = s.source
  tstates : b.tstates = s.tstates
  last : s.lastBorder = s.source.currentBorderColour
  begun : ∃ start middle, s.changes = start :: middle ∧ start.y = 0 ∧ start.t = 0
  ordered : s.changes.Pairwise BorderChange.Before
  visible : ∀ change ∈ s.changes, change.Visible
  passed : ∀ change ∈ s.changes, ∀ event, s.tstates + 2 ≤ event → ∀ colour,
    change.Before ⟨(Border.beam timings event).2, (Border.beam timings event).1, colour⟩
  canvas : ∀ row < screenHeight, ∀ p < linePixels timex, b.canvas row p = colourAt timex s.changes row p

section Events

variable {s : Border} {b : Beam}

/-- At the start of a frame only the colour that the border has is noted. -/
theorem drawn_fresh (source : b.source = s.source) (tstates : b.tstates = s.tstates)
    (last : s.lastBorder = s.source.currentBorderColour)
    (changes : s.changes = [⟨0, 0, s.source.currentBorderColour⟩])
    (canvas : b.canvas = fun _ _ => s.source.currentBorderColour) : Drawn timings timex s b where
  source := source
  tstates := tstates
  last := last
  begun := ⟨_, [], changes, rfl, rfl⟩
  ordered := by
    rw [changes]
    exact List.pairwise_singleton _ _
  visible := by
    intro change inside
    rw [changes] at inside
    rw [List.mem_singleton.mp inside]
    exact ⟨Nat.zero_lt_succ 239, Nat.zero_le _⟩
  passed := by
    intro change inside event _ colour
    rw [changes] at inside
    rw [List.mem_singleton.mp inside]
    exact (Nat.eq_zero_or_pos (Border.beam timings event).1).symm.imp id
      fun top => ⟨top.symm, Nat.zero_le _⟩
  canvas := by
    intro row _ p _
    have reached : BorderChange.Reaches timex ⟨0, 0, s.source.currentBorderColour⟩ row p :=
      (Nat.eq_zero_or_pos row).symm.imp id fun top => ⟨top.symm, by rw [Nat.zero_mul]; exact Nat.zero_le p⟩
    rw [canvas, changes]
    exact (if_pos reached).symm

theorem drawn_start (source : Source) (cells : Nat → Nat → Cell) :
    Drawn timings timex (Border.displayBorderInit source cells) (Beam.start source) :=
  drawn_fresh rfl rfl rfl rfl rfl

/-- The colour is checked after each write. -/
theorem drawn_check (wide : tstatesPerLineVisible ≤ timings.tstatesPerLine) (drawn : Drawn timings timex s b)
    (source : Source) :
    Drawn timings timex ({ s with source := source }.checkBorderChange timings)
      (b.repaint timings timex source) := by
  by_cases same : source.currentBorderColour = b.source.currentBorderColour
  · have kept : ¬ source.currentBorderColour ≠ s.lastBorder := by
      rw [drawn.last, ← drawn.source]
      exact not_not_intro same
    rw [Border.checkBorderChange, if_neg kept, Beam.repaint, if_pos same]
    exact
      { source := rfl
        tstates := drawn.tstates
        last := (not_not.mp kept).symm
        begun := drawn.begun
        ordered := drawn.ordered
        visible := drawn.visible
        passed := drawn.passed
        canvas := drawn.canvas }
  · have changed : source.currentBorderColour ≠ s.lastBorder := by
      rw [drawn.last, ← drawn.source]
      exact same
    obtain ⟨event, event_eq⟩ : ∃ event, s.tstates + 2 = event := ⟨_, rfl⟩
    have reaches := fun row p line inside =>
      @reaches_beam timings timex wide event source.currentBorderColour row p line inside
    rw [Border.checkBorderChange, if_pos changed, Beam.repaint, if_neg same, Border.pushBorderChange,
      drawn.tstates, event_eq]
    by_cases below : screenHeight ≤ (Border.beam timings event).1
    · simp only [below, if_true]
      exact
        { source := rfl
          tstates := rfl
          last := rfl
          begun := drawn.begun
          ordered := drawn.ordered
          visible := drawn.visible
          passed := drawn.passed
          canvas := fun row line p inside => by
            have unseen : ¬ event ≤ beamTime timings timex row p := fun wrong =>
              Nat.not_lt.mpr below ((reaches row p line inside).mp wrong).1
            simp only [unseen, if_false]
            exact drawn.canvas row line p inside }
    · have on : (Border.beam timings event).1 < screenHeight := Nat.lt_of_not_le below
      have place : (Border.beam timings event).2 ≤ tstatesPerLineVisible := by
        rw [Border.beam]
        split
        · exact Nat.zero_le _
        · exact Nat.min_le_right _ _
      have behind : ∀ change ∈ s.changes, change.Before
          ⟨(Border.beam timings event).2, (Border.beam timings event).1, source.currentBorderColour⟩ :=
        fun change inside => drawn.passed change inside event (Nat.le_of_eq event_eq) _
      obtain ⟨start, middle, changes, top⟩ := drawn.begun
      simp only [below, if_false]
      exact
        { source := rfl
          tstates := rfl
          last := rfl
          begun := ⟨start, middle ++ [_], congrArg (· ++ [_]) changes, top⟩
          ordered := List.pairwise_append.mpr ⟨drawn.ordered, List.pairwise_singleton _ _,
            fun change inside last isLast => List.mem_singleton.mp isLast ▸ behind change inside⟩
          visible := fun change inside => by
            rcases List.mem_append.mp inside with inside | last
            · exact drawn.visible change inside
            · rw [List.mem_singleton.mp last]
              exact ⟨on, place⟩
          passed := fun change inside later le colour => by
            rcases List.mem_append.mp inside with inside | last
            · exact drawn.passed change inside later le colour
            · rw [List.mem_singleton.mp last]
              exact beam_mono (event_eq ▸ le) _ _
          canvas := fun row line p inside => by
            have here := reaches row p line inside
            simp only [on, true_and] at here
            simp only [colourAt_snoc, here, drawn.canvas row line p inside] }

theorem drawn_step (wide : tstatesPerLineVisible ≤ timings.tstatesPerLine) (drawn : Drawn timings timex s b)
    (act : Act) : Drawn timings timex (borderStep timings timex s act) (b.step timings timex act) := by
  have drawn_write : ∀ act : Act, Drawn timings timex
      ({ s with source := act.source s.source }.checkBorderChange timings)
      (b.repaint timings timex (act.source b.source)) := by
    intro act
    rw [← drawn.source]
    exact drawn_check wide drawn _
  cases act with
  | pass n =>
    exact { drawn with
      tstates := congrArg (· + n) drawn.tstates
      passed := fun change inside event later => drawn.passed change inside event (by
        have passes : s.tstates + n + 2 ≤ event := later
        omega) }
  | frame length =>
    obtain ⟨⟨source, -, last⟩, changes⟩ := frame_begins timex s
    have colour := congrArg Source.currentBorderColour source
    refine drawn_fresh (drawn.source.trans source.symm) (congrArg (· - length) drawn.tstates)
      (last.trans (drawn.last.trans colour.symm))
      (changes.trans (congrArg (fun c => [BorderChange.mk 0 0 c]) colour.symm)) ?_
    funext _ _
    exact (congrArg Source.currentBorderColour drawn.source).trans colour.symm
  | setLoresBorder colour => exact drawn_write (.setLoresBorder colour)
  | scldDecWrite hires paper => exact drawn_write (.scldDecWrite hires paper)
  | ulaplus active palette => exact drawn_write (.ulaplus active palette)
  | refreshAll =>
    have refreshed : Drawn timings timex s.displayRefreshAll b :=
      { source := drawn.source
        tstates := drawn.tstates
        last := drawn.last
        begun := drawn.begun
        ordered := drawn.ordered
        visible := drawn.visible
        passed := drawn.passed
        canvas := drawn.canvas }
    change Drawn timings timex _ (b.repaint timings timex b.source)
    rw [drawn.source]
    exact drawn_check wide refreshed s.source

/-- What the border is drawn in at the end of a run, and what the beam has drawn. -/
theorem drawn_run (wide : tstatesPerLineVisible ≤ timings.tstatesPerLine) (acts : List Act)
    (drawn : Drawn timings timex s b) :
    Drawn timings timex (acts.foldl (borderStep timings timex) s) (acts.foldl (Beam.step timings timex) b) := by
  induction acts generalizing s b with
  | nil => exact drawn
  | cons act acts ih => exact ih (drawn_step wide drawn act)

/-! ## Two colours in a column -/

/-- The pixels of a column have one colour, or two with the change in between. -/
def Plain (timex : Bool) (line : Nat → Nat) (c : Nat) : Prop :=
  (∃ colour, ∀ x < pixPerCol timex, line (c * pixPerCol timex + x) = colour) ∨
    ∃ change left right, 0 < change ∧ change < 4 ∧ left ≠ right ∧ ∀ x < pixPerCol timex,
      line (c * pixPerCol timex + x) = if x < change * pixPerTstate timex then left else right

theorem solidChunk_plot (colour x : Nat) : (solidChunk timex colour).plot x = colour := by
  rw [solidChunk]
  split
  · exact ite_self colour
  · simp only [plot8, Nat.zero_testBit, Bool.false_eq_true, if_false]

theorem splitChunk_plot {left right change x : Nat} (begun : 0 < change) (inside : change < 4)
    (pixel : x < pixPerCol timex) :
    (splitChunk timex left right change).plot x =
      if x < change * pixPerTstate timex then left else right := by
  have bits : ∀ bit, (transitionData timex (change * pixPerTstate timex)).testBit bit =
      decide (bit < 8 - 2 * change) := by
    intro bit
    rw [transitionData_cases begun inside, Nat.testBit_two_pow_sub_one]
  have plotted : (splitChunk timex left right change).plot x =
      plot8 timex (transitionData timex (change * pixPerTstate timex)) right left x := by
    rw [splitChunk]
    split
    · rfl
    · rfl
  rw [plotted, plot8, bits]
  have place : 7 - (if timex then x / 2 else x) < 8 - 2 * change ↔ ¬ x < change * pixPerTstate timex := by
    cases timex
    · simp only [pixPerCol, pixPerTstate, Bool.false_eq_true, if_false] at pixel ⊢
      omega
    · simp only [pixPerCol, pixPerTstate, if_true] at pixel ⊢
      omega
  simp only [place, decide_eq_true_iff, ite_not]

/-- A plain column is plotted as it is. -/
theorem plain_plotted {line : Nat → Nat} {c x : Nat} (plain : Plain timex line c) (pixel : x < pixPerCol timex) :
    (chunkOf timex line c).plot x = line (c * pixPerCol timex + x) := by
  rcases plain with ⟨colour, solid⟩ | ⟨change, left, right, begun, inside, two, split⟩
  · rw [chunkOf, flush_solid solid, solidChunk_plot, solid x pixel]
  · rw [chunkOf, flush_split begun inside two split, splitChunk_plot begun inside pixel, split x pixel]

/-- The beam ahead has one colour, and no column has more than two. -/
structure Even (timings : Timings) (timex : Bool) (b : Beam) : Prop where
  ahead : ∀ row p, (∀ before ∈ b.since, before ≤ beamTime timings timex row p) →
    b.canvas row p = b.source.currentBorderColour
  plain : ∀ row c, Plain timex (b.canvas row) c

theorem column_time (row c x : Nat) (pixel : x < pixPerCol timex) :
    beamTime timings timex row (c * pixPerCol timex + x) =
      timings.lineTimes row + c * 4 + x / pixPerTstate timex := by
  have step := pixPerTstate_pos timex
  have split : c * pixPerCol timex + x = x + pixPerTstate timex * (c * 4) := by
    rw [pixPerCol_eq, Nat.add_comm, Nat.mul_comm (pixPerTstate timex), Nat.mul_assoc]
  rw [beamTime, split, Nat.add_mul_div_left _ _ step]
  omega

theorem even_repaint (even : Even timings timex b) {source : Source}
    (spaced : source.currentBorderColour ≠ b.source.currentBorderColour →
      ∀ before ∈ b.since, before + 4 ≤ b.tstates + 2) :
    Even timings timex (b.repaint timings timex source) := by
  by_cases same : source.currentBorderColour = b.source.currentBorderColour
  · rw [Beam.repaint, if_pos same]
    exact ⟨fun row p seen => (even.ahead row p seen).trans same.symm, even.plain⟩
  · have apart := spaced same
    rw [Beam.repaint, if_neg same]
    obtain ⟨event, event_eq⟩ : ∃ event, b.tstates + 2 = event := ⟨_, rfl⟩
    rw [event_eq] at apart ⊢
    refine ⟨fun row p seen => if_pos (seen event rfl), fun row c => ?_⟩
    have step := pixPerTstate_pos timex
    have wide := pixPerCol_eq timex
    have time : ∀ x, x < pixPerCol timex → beamTime timings timex row (c * pixPerCol timex + x) =
        timings.lineTimes row + c * 4 + x / pixPerTstate timex := column_time row c
    have short : ∀ x < pixPerCol timex, x / pixPerTstate timex < 4 := fun x pixel =>
      Nat.div_lt_of_lt_mul (Nat.mul_comm 4 _ ▸ wide ▸ pixel)
    obtain ⟨first, first_eq⟩ : ∃ first, timings.lineTimes row + c * 4 = first := ⟨_, rfl⟩
    simp only [first_eq] at time
    by_cases early : event ≤ first
    · refine .inl ⟨source.currentBorderColour, fun x pixel => ?_⟩
      have seen : event ≤ first + x / pixPerTstate timex := Nat.le_add_right_of_le early
      simp only [time x pixel, seen, if_true]
    · by_cases late : first + 4 ≤ event
      · -- the beam is past the column
        have kept : ∀ x < pixPerCol timex, (if event ≤ beamTime timings timex row (c * pixPerCol timex + x)
            then source.currentBorderColour else b.canvas row (c * pixPerCol timex + x)) =
              b.canvas row (c * pixPerCol timex + x) := by
          intro x pixel
          have unseen : ¬ event ≤ first + x / pixPerTstate timex := by
            have small := short x pixel
            omega
          rw [time x pixel, if_neg unseen]
        rcases even.plain row c with ⟨colour, solid⟩ | ⟨change, left, right, begun, inside, two, split⟩
        · exact .inl ⟨colour, fun x pixel => (kept x pixel).trans (solid x pixel)⟩
        · exact .inr ⟨change, left, right, begun, inside, two,
            fun x pixel => (kept x pixel).trans (split x pixel)⟩
      · -- the beam is in the column, which the change before is in front of
        refine .inr ⟨event - first, b.source.currentBorderColour, source.currentBorderColour, by omega, by omega,
          fun wrong => same wrong.symm, fun x pixel => ?_⟩
        have old : b.canvas row (c * pixPerCol timex + x) = b.source.currentBorderColour := by
          refine even.ahead row _ fun before isBefore => ?_
          have gap : before + 4 ≤ event := apart before isBefore
          have ahead : before ≤ first := by omega
          rw [time x pixel]
          exact Nat.le_add_right_of_le ahead
        have place : event ≤ first + x / pixPerTstate timex ↔ ¬ x < (event - first) * pixPerTstate timex := by
          rw [Nat.not_lt, ← Nat.le_div_iff_mul_le step]
          omega
        simp only [time x pixel, old, place, ite_not]

theorem even_step (even : Even timings timex b) {act : Act} (spaced : b.Spaced act) :
    Even timings timex (b.step timings timex act) := by
  cases act with
  | pass n => exact ⟨even.ahead, even.plain⟩
  | frame length => exact ⟨fun _ _ _ => rfl, fun _ _ => .inl ⟨_, fun _ _ => rfl⟩⟩
  | setLoresBorder colour => exact even_repaint even spaced
  | scldDecWrite hires paper => exact even_repaint even spaced
  | ulaplus active palette => exact even_repaint even spaced
  | refreshAll => exact even_repaint even spaced

theorem even_run {acts : List Act} (even : Even timings timex b)
    (spaced : Lib.EachStep (Beam.step timings timex) Beam.Spaced b acts) :
    Even timings timex (acts.foldl (Beam.step timings timex) b) := by
  induction acts generalizing b with
  | nil => exact even
  | cons act acts ih => exact ih (even_step even spaced.1) spaced.2

end Events

/-- A white border is made red at the left of its first line, and green twenty T-states later. -/
def twoChanges : List Act :=
  [.setLoresBorder 7, .pass 8950, .setLoresBorder 2, .pass 20, .setLoresBorder 4]

def noBorder : Source where
  hires := false
  loresBorder := 7
  hiresBorder := 0
  ulaplusActive := false
  ulaplusGetColour := fun _ => 0

end FuseX.Display.Border
