import FuseX.Display.Dirty
import Mathlib.Tactic.Common

/-!
# What the copying functions do

`Drew start stop d d'` says that `d'` is `d` with the dirty cells between two
places drawn. `copy_critical_region` does this for the places up to the beam,
which `copyCriticalRegion_spec` proves from a line and from the bits of a line.
-/

namespace FuseX.Display

/-- The place of a cell in the order in which the beam passes them. -/
def place (x y : Nat) : Nat :=
  32 * y + x

/-- The mask has the bits of the columns from `x` up to `stop`. -/
theorem getLsbD_bitMask {x stop i : Nat} (inside : stop ≤ 32) (col : i < 32) :
    (bitMask x stop).getLsbD i = (decide (x ≤ i) && decide (i < stop)) := by
  have all : allDirty.setWidth 32 = BitVec.allOnes 32 := by decide
  rw [bitMask, all]
  simp only [BitVec.getLsbD_ushiftRight, BitVec.getLsbD_shiftLeft, BitVec.getLsbD_allOnes]
  by_cases low : x ≤ i <;> by_cases high : i < stop <;> simp [low, high] <;> omega

/-- A single bit. -/
theorem getLsbD_bit {x i : Nat} (col : i < 32) : (1#32 <<< x).getLsbD i = decide (i = x) := by
  rw [BitVec.getLsbD_shiftLeft, BitVec.getLsbD_one]
  by_cases same : i = x
  · simp [same, show x < 32 by omega]
  · by_cases le : x ≤ i
    · simp [same, show i - x ≠ 0 by omega]
    · simp [same, show i < x by omega]

/-- What has been recorded of a cell is what is plotted. -/
def Lazy.Recorded (d : Lazy) : Prop :=
  ∀ x y detail, d.lastScreen x y = some detail → d.plotted x y = some detail.plot

/-- The dirty cells between two places are drawn as they are now, and no longer
marked, and all else is as before. -/
structure Drew (start stop : Nat) (d d' : Lazy) : Prop where
  machine : d'.machine = d.machine
  flag : d'.paletteChangedThisFrame = d.paletteChangedThisFrame
  cached : d'.cachedBeam = d.cachedBeam
  frames : d'.frames = d.frames
  recorded : d'.Recorded
  maybeDirty : ∀ x y, x < 32 → ((d'.maybeDirty y).getLsbD x ↔
    (d.maybeDirty y).getLsbD x ∧ ¬ (start ≤ place x y ∧ place x y < stop))
  plotted : ∀ x y, x < 32 → d'.plotted x y =
    if start ≤ place x y ∧ place x y < stop ∧ (d.maybeDirty y).getLsbD x then
      some (d.machine.shows x y)
    else d.plotted x y

namespace Drew

variable {d d' d'' : Lazy} {start middle stop : Nat}

/-- Nothing is drawn between a place and itself. -/
theorem refl (recorded : d.Recorded) (place_ : Nat) : Drew place_ place_ d d where
  machine := rfl
  flag := rfl
  cached := rfl
  frames := rfl
  recorded := recorded
  maybeDirty x y _ := by
    have none : ¬ (place_ ≤ place x y ∧ place x y < place_) := by omega
    rw [and_iff_left none]
  plotted x y _ := by
    rw [if_neg (by omega)]

/-- A cell that is marked when it should show something else shows what it should
after it is drawn. -/
theorem shows (drew : Drew start stop d d') {x y : Nat} (col : x < 32)
    (marked : d.plotted x y ≠ some (d.machine.shows x y) → (d.maybeDirty y).getLsbD x)
    (after : start ≤ place x y) (before : place x y < stop) :
    d'.plotted x y = some (d.machine.shows x y) := by
  rw [drew.plotted x y col]
  split
  · rfl
  · next clean =>
    by_contra differs
    exact clean ⟨after, before, marked differs⟩

/-- What was drawn does not depend on where the critical region starts then. -/
theorem moved (drew : Drew start stop d d') (x y : Nat) :
    Drew start stop d { d' with criticalX := x, criticalY := y } :=
  ⟨drew.machine, drew.flag, drew.cached, drew.frames, drew.recorded, drew.maybeDirty, drew.plotted⟩

theorem trans (first : Drew start middle d d') (second : Drew middle stop d' d'')
    (le : start ≤ middle) (le' : middle ≤ stop) : Drew start stop d d'' where
  machine := second.machine.trans first.machine
  flag := second.flag.trans first.flag
  cached := second.cached.trans first.cached
  frames := second.frames.trans first.frames
  recorded := second.recorded
  maybeDirty x y col := by
    rw [second.maybeDirty x y col, first.maybeDirty x y col, and_assoc]
    exact and_congr_right fun _ => by omega
  plotted x y col := by
    rw [second.plotted x y col, first.plotted x y col, first.machine]
    simp only [first.maybeDirty x y col]
    by_cases early : start ≤ place x y ∧ place x y < middle
    · have notLate : ¬ middle ≤ place x y := by omega
      have whole : place x y < stop := by omega
      simp [early, notLate, whole]
    · have same : start ≤ place x y ∧ place x y < stop ↔ middle ≤ place x y ∧ place x y < stop := by
        omega
      simp only [early, not_false_eq_true, and_true, ← and_assoc, same, false_and, if_false]

end Drew

namespace Lazy

variable {d : Lazy}

/-- After it is written, a cell shows what it should, whether it was drawn or not. -/
theorem plotted_writeIfDirty (recorded : d.Recorded) (x y : Nat) :
    (d.writeIfDirty x y).plotted = setCell d.plotted x y (some (d.machine.shows x y)) := by
  rw [writeIfDirty]
  split
  · next same =>
    funext x' y'
    rw [setCell]
    split
    · next here =>
      rw [here.1, here.2, recorded x y _ same]
      rfl
    · rfl
  · rfl

theorem recorded_writeIfDirty (recorded : d.Recorded) (x y : Nat) :
    (d.writeIfDirty x y).Recorded := by
  rw [writeIfDirty]
  split
  · exact recorded
  · intro x' y' detail record
    dsimp only [setCell] at record ⊢
    split at record
    · next here =>
      rw [if_pos here]
      cases record
      rfl
    · next other =>
      rw [if_neg other]
      exact recorded x' y' detail record

/-- Writing a cell leaves all else alone. -/
theorem writeIfDirty_frame (d : Lazy) (x y : Nat) :
    ∃ lastScreen plotted, d.writeIfDirty x y = { d with lastScreen, plotted } := by
  rw [writeIfDirty]
  split
  · exact ⟨_, _, rfl⟩
  · exact ⟨_, _, rfl⟩

/-- The loops over the dirty bits draw the cells they stand for. -/
theorem copyDirty_spec (recorded : d.Recorded) (y left x : Nat) (dirty : BitVec 32) :
    ∃ lastScreen plotted, copyDirty y left dirty x d = { d with lastScreen, plotted } ∧
      (copyDirty y left dirty x d).Recorded ∧
      ∀ x' y', (copyDirty y left dirty x d).plotted x' y' =
        if y' = y ∧ x ≤ x' ∧ x' < x + left ∧ dirty.getLsbD (x' - x) then
          some (d.machine.shows x' y')
        else d.plotted x' y' := by
  induction left generalizing d dirty x with
  | zero =>
    refine ⟨_, _, rfl, recorded, fun x' y' => ?_⟩
    rw [copyDirty, if_neg (by omega)]
  | succ left ih =>
    rw [copyDirty]
    by_cases bit : dirty.getLsbD 0
    · simp only [bit, if_true]
      obtain ⟨lastScreen, plotted, written⟩ := writeIfDirty_frame d x y
      obtain ⟨lastScreen', plotted', copied, recorded', draws⟩ :=
        ih (recorded_writeIfDirty recorded x y) (x + 1) (dirty >>> 1)
      refine ⟨lastScreen', plotted', by rw [copied, written], recorded', fun x' y' => ?_⟩
      rw [draws, plotted_writeIfDirty recorded, setCell, BitVec.getLsbD_ushiftRight]
      have machine : (d.writeIfDirty x y).machine = d.machine := by rw [written]
      rw [machine]
      by_cases here : x' = x ∧ y' = y
      · obtain ⟨rfl, rfl⟩ := here
        simp [bit]
      · rw [if_neg here]
        have next : x + 1 ≤ x' → 1 + (x' - (x + 1)) = x' - x := by omega
        by_cases after : y' = y ∧ x + 1 ≤ x' ∧ x' < x + 1 + left
        · have inside : x ≤ x' ∧ x' < x + (left + 1) := by omega
          simp [after, inside, next after.2.1]
        · have outside : ¬ (y' = y ∧ x ≤ x' ∧ x' < x + (left + 1)) := by omega
          rw [if_neg fun all => after ⟨all.1, all.2.1, all.2.2.1⟩,
            if_neg fun all => outside ⟨all.1, all.2.1, all.2.2.1⟩]
    · simp only [bit, if_false, Bool.false_eq_true]
      obtain ⟨lastScreen', plotted', copied, recorded', draws⟩ := ih recorded (x + 1) (dirty >>> 1)
      refine ⟨lastScreen', plotted', copied, recorded', fun x' y' => ?_⟩
      rw [draws, BitVec.getLsbD_ushiftRight]
      have next : x + 1 ≤ x' → 1 + (x' - (x + 1)) = x' - x := by omega
      by_cases after : y' = y ∧ x + 1 ≤ x' ∧ x' < x + 1 + left
      · have inside : x ≤ x' ∧ x' < x + (left + 1) := by omega
        simp [after, inside, next after.2.1]
      · rw [if_neg fun all => after ⟨all.1, all.2.1, all.2.2.1⟩]
        by_cases here : x' = x
        · subst here
          rw [if_neg]
          rintro ⟨-, -, -, set⟩
          rw [Nat.sub_self] at set
          exact bit set
        · have outside : ¬ (y' = y ∧ x ≤ x' ∧ x' < x + (left + 1)) := by omega
          rw [if_neg fun all => outside ⟨all.1, all.2.1, all.2.2.1⟩]

/-- The places between two columns of a line. -/
theorem place_line {x stop x' y y' : Nat} (inside : stop ≤ 32) (col : x < 32) (col' : x' < 32) :
    place x y ≤ place x' y' ∧ place x' y' < place stop y ↔ y' = y ∧ x ≤ x' ∧ x' < stop := by
  simp only [place]
  omega

/-- A line of the critical region is drawn between two columns. -/
theorem copyCriticalRegionLine_spec (recorded : d.Recorded) {x stop : Nat} (y : Nat)
    (le : x ≤ stop) (inside : stop ≤ 32) :
    Drew (place x y) (place stop y) d (d.copyCriticalRegionLine y x stop) ∧
      (d.copyCriticalRegionLine y x stop).criticalX = d.criticalX ∧
      (d.copyCriticalRegionLine y x stop).criticalY = d.criticalY := by
  rw [copyCriticalRegionLine]
  split
  · next empty =>
    obtain rfl : x = stop := by omega
    exact ⟨.refl recorded _, rfl, rfl⟩
  next some =>
  have col : x < widthCols := by
    rw [widthCols]
    omega
  rw [if_pos col]
  dsimp only
  obtain ⟨lastScreen, plotted, copied, recorded', draws⟩ := @copyDirty_spec { d with
    maybeDirty := fun line => if line = y then d.maybeDirty y &&& ~~~bitMask x stop
      else d.maybeDirty line } recorded y 32 x ((d.maybeDirty y &&& bitMask x stop) >>> x)
  generalize copyDirty y 32 ((d.maybeDirty y &&& bitMask x stop) >>> x) x { d with
    maybeDirty := fun line => if line = y then d.maybeDirty y &&& ~~~bitMask x stop
      else d.maybeDirty line } = d' at *
  subst copied
  refine ⟨⟨rfl, rfl, rfl, rfl, recorded', ?_, ?_⟩, rfl, rfl⟩
  · intro x' y' col'
    rw [place_line inside col col']
    dsimp only
    split
    · next same =>
      subst same
      rw [BitVec.getLsbD_and, BitVec.getLsbD_not, getLsbD_bitMask inside col']
      simp [col']
      omega
    · next other => simp [other]
  · intro x' y' col'
    rw [draws]
    refine if_congr ?_ rfl rfl
    rw [← and_assoc (c := ((d.maybeDirty y').getLsbD x' : Prop)), place_line inside col col',
      BitVec.getLsbD_ushiftRight, BitVec.getLsbD_and, and_assoc, and_assoc]
    refine and_congr_right fun line => and_congr_right fun low => ?_
    subst line
    have reach : x' < x + 32 := by omega
    rw [show x + (x' - x) = x' by omega, getLsbD_bitMask inside col']
    simp [low, reach, and_comm]

/-- Whole lines are drawn. -/
theorem copyLines_spec (recorded : d.Recorded) (left : Nat) :
    Drew (place 0 d.criticalY) (place 0 (d.criticalY + left)) d (copyLines left d) ∧
      (copyLines left d).criticalX = d.criticalX ∧
      (copyLines left d).criticalY = d.criticalY + left := by
  induction left generalizing d with
  | zero => exact ⟨.refl recorded _, rfl, rfl⟩
  | succ left ih =>
    rw [copyLines]
    obtain ⟨drew, x, y⟩ := copyCriticalRegionLine_spec recorded d.criticalY (Nat.zero_le 32)
      (Nat.le_refl _)
    have line : Drew (place 0 d.criticalY) (place 0 (d.criticalY + 1)) d
        { d.copyCriticalRegionLine d.criticalY 0 widthCols with criticalY := d.criticalY + 1 } := by
      rw [show place 0 (d.criticalY + 1) = place 32 d.criticalY by simp only [place]; omega]
      exact drew.moved _ _
    obtain ⟨rest, x', y'⟩ := ih line.recorded
    refine ⟨line.trans ?_ (by simp only [place]; omega) (by simp only [place]; omega),
      x'.trans x, ?_⟩
    · rw [show d.criticalY + (left + 1) = d.criticalY + 1 + left by omega]
      exact rest
    · rw [y']
      dsimp only
      omega

/-- The critical region is drawn up to a place behind it. -/
theorem copyCriticalRegion_spec (recorded : d.Recorded) {beamX beamY : Nat}
    (low : d.criticalX ≤ 32) (inside : beamX ≤ 32)
    (behind : d.criticalY < beamY ∨ d.criticalY = beamY ∧ d.criticalX ≤ beamX) :
    Drew (place d.criticalX d.criticalY) (place beamX beamY) d (d.copyCriticalRegion beamX beamY) ∧
      (d.copyCriticalRegion beamX beamY).criticalX = beamX ∧
      (d.copyCriticalRegion beamX beamY).criticalY = beamY := by
  rw [copyCriticalRegion]
  split
  · next same =>
    obtain ⟨drew, -, y⟩ := copyCriticalRegionLine_spec recorded d.criticalY
      (show d.criticalX ≤ beamX by omega) inside
    refine ⟨?_, rfl, y.trans same⟩
    rw [← same]
    exact drew.moved _ _
  · next other =>
    obtain ⟨drew, x, y⟩ := copyCriticalRegionLine_spec recorded d.criticalY low (Nat.le_refl 32)
    have first : Drew (place d.criticalX d.criticalY) (place 0 (d.criticalY + 1)) d
        { d.copyCriticalRegionLine d.criticalY d.criticalX widthCols with
          criticalY := d.criticalY + 1 } := by
      rw [show place 0 (d.criticalY + 1) = place 32 d.criticalY by simp only [place]; omega]
      exact drew.moved _ _
    dsimp only
    have y₁ : { d.copyCriticalRegionLine d.criticalY d.criticalX widthCols with
        criticalY := d.criticalY + 1 }.criticalY = d.criticalY + 1 := rfl
    generalize { d.copyCriticalRegionLine d.criticalY d.criticalX widthCols with
      criticalY := d.criticalY + 1 } = d₁ at first y₁ ⊢
    obtain ⟨lines, -, y₂⟩ := copyLines_spec first.recorded (beamY - (d.criticalY + 1))
    rw [y₁, show d.criticalY + 1 + (beamY - (d.criticalY + 1)) = beamY by omega] at lines y₂
    generalize copyLines (beamY - (d.criticalY + 1)) d₁ = d₂ at lines y₂ ⊢
    obtain ⟨last, -, y₃⟩ := copyCriticalRegionLine_spec lines.recorded beamY (Nat.zero_le beamX) inside
    rw [y₂]
    have whole := (first.trans lines (by simp only [place]; omega) (by simp only [place]; omega)).trans
      last (by simp only [place]; omega) (by simp only [place]; omega)
    exact ⟨whole.moved _ _, rfl, y₃.trans y₂⟩

end Lazy

end FuseX.Display
