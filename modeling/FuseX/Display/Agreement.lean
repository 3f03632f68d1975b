import FuseX.Display.CriticalRegion
import Mathlib.Data.List.Forall2
import Mathlib.Tactic.SplitIfs

/-!
# The lazy display agrees with the beam

`Eager` is the display without tricks: each cell is drawn when the beam passes
it, with what the memory holds then. `Sim` relates it to the lazy display. In a
frame the cells fall into three parts:

* those before the critical region are on the screen as the beam saw them;
* those from there to the beam have not changed since the beam passed them;
* the others have not been passed.

Every cell that does not show what it should is marked as dirty, except that
after a change of the palette the cells of the first part are marked by the next
frame. `Sim.change` is the one argument about a change of the machine: the cells
that it alters have been announced.
-/

namespace FuseX.Display

open Lib

/-! ## The reference -/

/-- How many cells the beam has passed. -/
def beamPlace (timings : Timings) (tstates : Nat) : Nat :=
  place (screenBeam timings tstates).1 (screenBeam timings tstates).2

/-- The display that draws each cell when the beam passes it. -/
structure Eager : Type where
  machine : Machine
  drawn : Picture
  frames : List Picture

namespace Eager

/-- The cells between two places are drawn. -/
def pass (e : Eager) (start stop : Nat) : Eager :=
  { e with drawn := fun x y =>
      if start ≤ place x y ∧ place x y < stop then some (e.machine.shows x y) else e.drawn x y }

@[simp]
theorem pass_machine (e : Eager) (start stop : Nat) : (e.pass start stop).machine = e.machine :=
  rfl

@[simp]
theorem pass_frames (e : Eager) (start stop : Nat) : (e.pass start stop).frames = e.frames :=
  rfl

/-- The beam may be on the screen already. -/
def start (timings : Timings) (machine : Machine) : Eager :=
  { machine, drawn := fun _ _ => none, frames := [] : Eager }.pass 0
    (beamPlace timings machine.tstates)

end Eager

/-- A write to the data port of the ULA+. -/
def Machine.dataWrite (m : Machine) (data : UInt8) : Machine :=
  let group := m.registerValue.toNat / 64
  if group = 0 then m.setColour (m.registerValue.toNat % 64) data
  else if group = 1 then { m with modeEnabled := decide (data.toNat % 2 = 1) }
  else m

/-- An event, of the reference. -/
def eagerStep (timings : Timings) (e : Eager) : DisplayAct → Option Eager
  | .elapse tstates =>
      let now := e.machine.tstates + tstates
      let e := e.pass (beamPlace timings e.machine.tstates) (beamPlace timings now)
      some { e with machine := { e.machine with tstates := now } }
  | .write offset value => some { e with machine := e.machine.write offset value }
  | .registerWrite value => some { e with machine := { e.machine with registerValue := value } }
  | .dataWrite value => some { e with machine := e.machine.dataWrite value }
  | .flash =>
      if screenBeam timings e.machine.tstates = (0, 0) then
        some { e with machine := { e.machine with flashReversed := !e.machine.flashReversed } }
      else none
  | .frame length =>
      if length ≤ e.machine.tstates then
        let e := e.pass (beamPlace timings e.machine.tstates) (widthCols * height)
        let now := e.machine.tstates - length
        let e := { e with
          machine := { e.machine with tstates := now }
          frames := e.frames ++ [e.drawn] }
        some (e.pass 0 (beamPlace timings now))
      else none

/-- Two pictures show the same in every cell. -/
def SamePicture (p q : Picture) : Prop :=
  ∀ x y, x < widthCols → y < height → p x y = q x y

/-! ## The beam -/

/-- A place of the screen is not after another. -/
def NotAfter (p q : Nat × Nat) : Prop :=
  p.2 < q.2 ∨ p.2 = q.2 ∧ p.1 ≤ q.1

theorem NotAfter.trans {p q r : Nat × Nat} (first : NotAfter p q) (second : NotAfter q r) :
    NotAfter p r := by
  unfold NotAfter at *
  omega

theorem NotAfter.place_le {p q : Nat × Nat} (notAfter : NotAfter p q) (col : p.1 ≤ 32) :
    place p.1 p.2 ≤ place q.1 q.2 := by
  unfold NotAfter at notAfter
  simp only [place]
  omega

theorem toScreen_low (x y : Int) : (toScreen x y).1 ≤ 32 ∧ (toScreen x y).2 ≤ 191 := by
  unfold toScreen
  split_ifs <;> dsimp only <;> omega

theorem toScreen_mono {x y x' y' : Int} (before : y < y' ∨ y = y' ∧ x ≤ x') :
    NotAfter (toScreen x y) (toScreen x' y') := by
  unfold toScreen NotAfter
  split_ifs <;> dsimp only <;> omega

theorem screenBeam_low (timings : Timings) (tstates : Nat) :
    (screenBeam timings tstates).1 ≤ 32 ∧ (screenBeam timings tstates).2 ≤ 191 :=
  toScreen_low _ _

theorem displayGetBeamPosition_mono (timings : Timings) {tstates tstates' : Nat}
    (le : tstates ≤ tstates') :
    (displayGetBeamPosition timings tstates).2 < (displayGetBeamPosition timings tstates').2 ∨
      (displayGetBeamPosition timings tstates).2 = (displayGetBeamPosition timings tstates').2 ∧
        (displayGetBeamPosition timings tstates).1 ≤ (displayGetBeamPosition timings tstates').1 := by
  unfold displayGetBeamPosition
  split_ifs with early early'
  · exact .inr ⟨rfl, Int.le_refl _⟩
  · exact .inl (Int.lt_of_lt_of_le (by decide : (-1 : Int) < 0) (Int.natCast_nonneg _))
  · omega
  · have lines : (tstates - timings.lineTimes 0) / timings.tstatesPerLine ≤
        (tstates' - timings.lineTimes 0) / timings.tstatesPerLine :=
      Nat.div_le_div_right (by omega)
    rcases Nat.lt_or_eq_of_le lines with above | same
    · exact .inl (Int.ofNat_lt.mpr above)
    · refine .inr ⟨congrArg Int.ofNat same, Int.ofNat_le.mpr ?_⟩
      rw [same]
      split_ifs
      · exact Nat.div_le_div_right (Nat.sub_le_sub_right le _)
      · exact Nat.le_refl _

/-- The beam goes forward. -/
theorem screenBeam_mono (timings : Timings) {tstates tstates' : Nat} (le : tstates ≤ tstates') :
    NotAfter (screenBeam timings tstates) (screenBeam timings tstates') :=
  toScreen_mono (displayGetBeamPosition_mono timings le)

theorem beamPlace_mono (timings : Timings) {tstates tstates' : Nat} (le : tstates ≤ tstates') :
    beamPlace timings tstates ≤ beamPlace timings tstates' :=
  (screenBeam_mono timings le).place_le (screenBeam_low timings tstates).1

theorem beamPlace_le (timings : Timings) (tstates : Nat) :
    beamPlace timings tstates ≤ widthCols * height := by
  have low := screenBeam_low timings tstates
  rw [beamPlace, place, widthCols, height]
  omega

/-! ## The simulation -/

/-- The start of the critical region, in the order of the beam. -/
def Lazy.critical (d : Lazy) : Nat :=
  place d.criticalX d.criticalY

structure Sim (timings : Timings) (d : Lazy) (e : Eager) : Prop where
  machine : e.machine = d.machine
  low : d.criticalX ≤ 32 ∧ d.criticalY ≤ 191
  behind : NotAfter (d.criticalX, d.criticalY) (screenBeam timings d.machine.tstates)
  cached : ∀ tstates beam, d.cachedBeam = some (tstates, beam) → beam = screenBeam timings tstates
  recorded : d.Recorded
  done : ∀ x y, x < 32 → place x y < d.critical → d.plotted x y = e.drawn x y
  passed : ∀ x y, x < 32 → d.critical ≤ place x y →
    place x y < beamPlace timings d.machine.tstates → e.drawn x y = some (d.machine.shows x y)
  dirty : ∀ x y, x < 32 → y < 192 → d.plotted x y ≠ some (d.machine.shows x y) →
    (d.maybeDirty y).getLsbD x ∨ place x y < d.critical ∧ d.paletteChangedThisFrame
  frames : List.Forall₂ SamePicture d.frames e.frames

/-- A cell may be changed: the beam has not passed it, or it is drawn, and it is
marked, now or by the next frame. -/
def Lazy.Announced (timings : Timings) (d : Lazy) (x y : Nat) : Prop :=
  ¬ (d.critical ≤ place x y ∧ place x y < beamPlace timings d.machine.tstates) ∧
    ((d.maybeDirty y).getLsbD x ∨ place x y < d.critical ∧ d.paletteChangedThisFrame)

namespace Sim

variable {timings : Timings} {d : Lazy} {e : Eager}

theorem critical_le (sim : Sim timings d e) : d.critical ≤ beamPlace timings d.machine.tstates :=
  sim.behind.place_le sim.low.1

/-- From the critical region on the cells that differ are marked now. -/
theorem marked (sim : Sim timings d e) {x y : Nat} (col : x < 32) (line : y < 192)
    (after : d.critical ≤ place x y) (differs : d.plotted x y ≠ some (d.machine.shows x y)) :
    (d.maybeDirty y).getLsbD x := by
  rcases sim.dirty x y col line differs with marked | early
  · exact marked
  · omega

/-- A change of the machine that alters announced cells only. -/
theorem change (sim : Sim timings d e) {m : Machine} (clock : m.tstates = d.machine.tstates)
    (announced : ∀ x y, x < 32 → y < 192 → m.shows x y ≠ d.machine.shows x y →
      d.Announced timings x y) :
    Sim timings { d with machine := m } { e with machine := m } where
  machine := rfl
  low := sim.low
  behind := by
    dsimp only
    rw [clock]
    exact sim.behind
  cached := sim.cached
  recorded := sim.recorded
  done := sim.done
  passed x y col after before := by
    dsimp only [Lazy.critical] at after before ⊢
    rw [clock] at before
    rw [sim.passed x y col after before]
    by_contra altered
    have line : y < 192 := by
      have stop := beamPlace_le timings d.machine.tstates
      simp only [place, widthCols, height] at before stop
      omega
    refine (announced x y col line fun same => altered ?_).1 ⟨after, before⟩
    rw [same]
  dirty x y col line differs := by
    by_cases same : m.shows x y = d.machine.shows x y
    · exact sim.dirty x y col line (same ▸ differs)
    · exact (announced x y col line same).2
  frames := sim.frames

/-- Drawing the critical region up to the beam. -/
theorem copy (sim : Sim timings d e) {d' : Lazy}
    (drew : Drew d.critical (beamPlace timings d.machine.tstates) d d')
    (x : d'.criticalX = (screenBeam timings d.machine.tstates).1)
    (y : d'.criticalY = (screenBeam timings d.machine.tstates).2) : Sim timings d' e where
  machine := sim.machine.trans drew.machine.symm
  low := by
    rw [x, y]
    exact screenBeam_low timings _
  behind := by
    rw [x, y, drew.machine]
    exact .inr ⟨rfl, Nat.le_refl _⟩
  cached := by
    rw [drew.cached]
    exact sim.cached
  recorded := drew.recorded
  done x' y' col before := by
    have whole : place x' y' < beamPlace timings d.machine.tstates := by
      rwa [Lazy.critical, x, y] at before
    by_cases after : d.critical ≤ place x' y'
    · rw [sim.passed x' y' col after whole]
      have line : y' < 192 := by
        have stop := beamPlace_le timings d.machine.tstates
        simp only [place, widthCols, height] at whole stop
        omega
      exact drew.shows col (sim.marked col line after) after whole
    · rw [drew.plotted x' y' col, if_neg (by omega)]
      exact sim.done x' y' col (by omega)
  passed x' y' _ after before := by
    rw [drew.machine] at before
    rw [Lazy.critical, x, y] at after
    rw [beamPlace] at before
    omega
  dirty x' y' col line differs := by
    have here : d'.critical = beamPlace timings d.machine.tstates := by
      rw [Lazy.critical, x, y, beamPlace]
    rw [drew.machine, drew.plotted x' y' col] at differs
    rw [drew.maybeDirty x' y' col, here, drew.flag]
    have le := sim.critical_le
    split at differs
    · exact absurd rfl differs
    · next clean =>
      rcases sim.dirty x' y' col line differs with marked | early
      · exact .inl ⟨marked, fun inside => clean ⟨inside.1, inside.2, marked⟩⟩
      · exact .inr ⟨by omega, early.2⟩
  frames := by
    rw [drew.frames]
    exact sim.frames

/-- The beam is cached for the T-state it is asked for. -/
theorem updateCachedBeam (sim : Sim timings d e) :
    ∃ cachedBeam, d.updateCachedBeam timings =
        (screenBeam timings d.machine.tstates, { d with cachedBeam }) ∧
      Sim timings { d with cachedBeam } e := by
  have kept : ∀ cachedBeam, (∀ tstates beam, cachedBeam = some (tstates, beam) →
      beam = screenBeam timings tstates) → Sim timings { d with cachedBeam } e :=
    fun cachedBeam holds => ⟨sim.machine, sim.low, sim.behind, holds, sim.recorded, sim.done,
      sim.passed, sim.dirty, sim.frames⟩
  have now : ∀ tstates beam, some (d.machine.tstates, screenBeam timings d.machine.tstates) =
      some (tstates, beam) → beam = screenBeam timings tstates := by
    rintro tstates beam ⟨⟩
    rfl
  rw [Lazy.updateCachedBeam]
  rcases cache : d.cachedBeam with _ | ⟨tstates, beam⟩
  · exact ⟨_, rfl, kept _ now⟩
  · dsimp only
    by_cases same : d.machine.tstates = tstates
    · rw [if_neg (not_not.mpr same)]
      refine ⟨d.cachedBeam, ?_, kept _ sim.cached⟩
      rw [sim.cached tstates beam cache, same]
    · rw [if_pos same]
      exact ⟨_, rfl, kept _ now⟩

/-- What has been announced before stays announced. -/
structure Marks (timings : Timings) (e : Eager) (d d' : Lazy) : Prop where
  sim : Sim timings d' e
  machine : d'.machine = d.machine
  announced : ∀ x y, x < 32 → d.Announced timings x y → d'.Announced timings x y

namespace Marks

variable {d' d'' : Lazy}

theorem refl (sim : Sim timings d e) : Marks timings e d d :=
  ⟨sim, rfl, fun _ _ _ announced => announced⟩

theorem trans (first : Marks timings e d d') (second : Marks timings e d' d'') :
    Marks timings e d d'' :=
  ⟨second.sim, second.machine.trans first.machine, fun x y col announced =>
    second.announced x y col (first.announced x y col announced)⟩

/-- A loop that announces cells. -/
theorem foldl {ι : Type} {f : Lazy → ι → Lazy} {m : Machine} (cells : ι → Nat → Nat → Prop)
    (list : List ι)
    (turn : ∀ d i, i ∈ list → Sim timings d e → d.machine = m → Marks timings e d (f d i) ∧
      ∀ x y, x < 32 → cells i x y → (f d i).Announced timings x y)
    (sim : Sim timings d e) (machine : d.machine = m) :
    Marks timings e d (list.foldl f d) ∧
      ∀ i ∈ list, ∀ x y, x < 32 → cells i x y → (list.foldl f d).Announced timings x y := by
  induction list generalizing d with
  | nil => exact ⟨refl sim, fun i member => absurd member List.not_mem_nil⟩
  | cons i list ih =>
    obtain ⟨marks, here⟩ := turn d i List.mem_cons_self sim machine
    obtain ⟨marks', rest⟩ := ih (fun d j member => turn d j (List.mem_cons_of_mem i member))
      marks.sim (marks.machine.trans machine)
    rw [List.foldl_cons]
    refine ⟨marks.trans marks', fun j member x y col cell => ?_⟩
    rcases List.mem_cons.mp member with rfl | later
    · exact marks'.announced x y col (here x y col cell)
    · exact rest j later x y col cell

end Marks

/-- The critical region is drawn when the beam has passed the cell. -/
theorem updateCritical (sim : Sim timings d e) {x y : Nat} (col : x < 32) :
    Marks timings e d (d.updateCritical timings x y) ∧
      (place x y < beamPlace timings d.machine.tstates →
        (d.updateCritical timings x y).critical = beamPlace timings d.machine.tstates) := by
  obtain ⟨cachedBeam, cached, sim'⟩ := sim.updateCachedBeam
  have low := screenBeam_low timings d.machine.tstates
  rw [Lazy.updateCritical, cached]
  dsimp only
  split
  · next passed =>
    obtain ⟨drew, x', y'⟩ := Lazy.copyCriticalRegion_spec sim'.recorded sim'.low.1 low.1 sim'.behind
    generalize Lazy.copyCriticalRegion { d with cachedBeam } _ _ = d' at drew x' y' ⊢
    have critical : d'.critical = beamPlace timings d.machine.tstates := by
      rw [Lazy.critical, x', y', beamPlace]
    refine ⟨⟨sim'.copy drew x' y', drew.machine, ?_⟩, fun _ => critical⟩
    rintro x₁ y₁ col₁ ⟨outside, marked⟩
    have le := sim.critical_le
    refine ⟨?_, ?_⟩
    · rw [critical, drew.machine]
      dsimp only
      omega
    · rw [drew.maybeDirty x₁ y₁ col₁, drew.flag, critical]
      rcases marked with marked | early
      · exact .inl ⟨marked, outside⟩
      · exact .inr ⟨by omega, early.2⟩
  · next ahead =>
    refine ⟨⟨sim', rfl, fun _ _ _ announced => announced⟩, fun before => absurd ?_ ahead⟩
    simp only [beamPlace, place] at before
    omega

/-- A cell is announced: if the beam has passed it, it is drawn first. -/
theorem dirtyChunk (sim : Sim timings d e) {x y : Nat} (col : x < 32) :
    Marks timings e d (d.dirtyChunk timings x y) ∧
      (d.dirtyChunk timings x y).Announced timings x y := by
  have flushed : ∃ d', Marks timings e d d' ∧
      ¬ (d'.critical ≤ place x y ∧ place x y < beamPlace timings d.machine.tstates) ∧
      d.dirtyChunk timings x y = { d' with
        maybeDirty := fun line => if line = y then d'.maybeDirty y ||| (1#32 <<< x)
          else d'.maybeDirty line } := by
    rw [Lazy.dirtyChunk]
    split
    · next after =>
      obtain ⟨marks, drawn⟩ := sim.updateCritical col (y := y)
      refine ⟨_, marks, fun inside => ?_, rfl⟩
      have critical := drawn inside.2
      omega
    · next before =>
      refine ⟨d, .refl sim, fun inside => before ?_, rfl⟩
      have low := sim.low
      have after := inside.1
      simp only [Lazy.critical, place] at after
      omega
  obtain ⟨d', marks, outside, result⟩ := flushed
  have bits : ∀ x' y', x' < 32 → (((if y' = y then d'.maybeDirty y ||| (1#32 <<< x)
      else d'.maybeDirty y') : BitVec 32).getLsbD x' ↔
        (d'.maybeDirty y').getLsbD x' ∨ x' = x ∧ y' = y) := by
    intro x' y' col'
    split
    · next same =>
      subst same
      rw [BitVec.getLsbD_or, getLsbD_bit col']
      simp
    · next other => simp [other]
  have sim' := marks.sim
  rw [result]
  refine ⟨⟨⟨sim'.machine, sim'.low, sim'.behind, sim'.cached, sim'.recorded, sim'.done, sim'.passed,
    ?_, sim'.frames⟩, marks.machine, ?_⟩, ?_⟩
  · intro x' y' col' line differs
    rw [bits x' y' col']
    exact (sim'.dirty x' y' col' line differs).imp_left .inl
  · intro x' y' col' announced
    obtain ⟨outside', marked⟩ := marks.announced x' y' col' announced
    refine ⟨outside', ?_⟩
    rw [bits x' y' col']
    exact marked.imp_left .inl
  · refine ⟨?_, ?_⟩
    · dsimp only
      rw [marks.machine]
      exact outside
    · rw [bits x y col]
      exact .inl (.inr ⟨rfl, rfl⟩)

/-! ## Writes to the screen -/

/-- The line that `display_dirty8` finds for a byte of bitmap. -/
theorem line_of_offset {x y : Nat} (col : x < 32) (line : y < 192) :
    64 * ((lineStart y + x) / 2 ^ 11 % 4) + 8 * ((lineStart y + x) / 2 ^ 5 % 8) +
      (lineStart y + x) / 2 ^ 8 % 8 = y := by
  have row : (lineStart y + x) / 2 ^ 5 = 64 * (y / 64) + y / 8 % 8 + y % 8 * 8 := by
    rw [lineStart]
    omega
  have pixel : (lineStart y + x) / 2 ^ 8 = 8 * (y / 64) + y % 8 := by
    rw [lineStart]
    omega
  have third : (lineStart y + x) / 2 ^ 11 = y / 64 := by
    rw [lineStart]
    omega
  have row_mod : (64 * (y / 64) + y / 8 % 8 + y % 8 * 8) % 8 = y / 8 % 8 := by omega
  have pixel_mod : (8 * (y / 64) + y % 8) % 8 = y % 8 := by omega
  rw [row, pixel, third, row_mod, pixel_mod, Nat.mod_eq_of_lt (show y / 64 < 4 by omega)]
  clear row pixel third row_mod pixel_mod
  omega

/-- The cell of a byte of bitmap is announced. -/
theorem dirty8 (sim : Sim timings d e) (offset : Nat) :
    Marks timings e d (d.dirty8 timings offset) ∧
      ∀ x y, x < 32 → y < 192 → lineStart y + x = offset →
        (d.dirty8 timings offset).Announced timings x y := by
  have col : offset % widthCols < 32 := Nat.mod_lt _ (by decide)
  obtain ⟨marks, announced⟩ := sim.dirtyChunk col
    (y := 64 * (offset / 2 ^ 11 % 4) + 8 * (offset / 2 ^ 5 % 8) + offset / 2 ^ 8 % 8)
  refine ⟨marks, fun x y col' line here => ?_⟩
  have x_eq : offset % widthCols = x := by
    simp only [lineStart, widthCols] at here ⊢
    omega
  have y_eq := line_of_offset col' line
  rw [here] at y_eq
  rw [x_eq, y_eq] at announced
  rwa [Lazy.dirty8, x_eq, y_eq]

/-- The eight cells of an attribute are announced. -/
theorem dirty64 (sim : Sim timings d e) (offset : Nat) :
    Marks timings e d (d.dirty64 timings offset) ∧
      ∀ x y, x < 32 → attrStart y + x = offset →
        (d.dirty64 timings offset).Announced timings x y := by
  have col : (offset - pixelBytes) % widthCols < 32 := Nat.mod_lt _ (by decide)
  obtain ⟨marks, announced⟩ := Marks.foldl (f := fun d i => d.dirtyChunk timings
      ((offset - pixelBytes) % widthCols) ((offset - pixelBytes) / widthCols * 8 + i))
    (fun i x y => x = (offset - pixelBytes) % widthCols ∧
      y = (offset - pixelBytes) / widthCols * 8 + i)
    (List.range 8) (fun d i _ sim' _ => by
      obtain ⟨marks, here⟩ := sim'.dirtyChunk col (y := (offset - pixelBytes) / widthCols * 8 + i)
      refine ⟨marks, ?_⟩
      rintro x y - ⟨x_eq, y_eq⟩
      rw [x_eq, y_eq]
      exact here) sim rfl
  refine ⟨marks, fun x y col' here => ?_⟩
  refine announced (y % 8) (List.mem_range.mpr (Nat.mod_lt y (by decide))) x y col' ?_
  simp only [attrStart, widthCols] at here ⊢
  omega

/-- A cell shows the byte of its bitmap and its attribute. -/
theorem shows_write {m : Machine} {offset x y : Nat} {value : UInt8}
    (bitmap : lineStart y + x ≠ offset) (attr : attrStart y + x ≠ offset) :
    (m.write offset value).shows x y = m.shows x y := by
  have bitmapByte : (m.write offset value).screen (lineStart y + x) = m.screen (lineStart y + x) :=
    if_neg bitmap
  have attrByte : (m.write offset value).screen (attrStart y + x) = m.screen (attrStart y + x) :=
    if_neg attr
  rw [Machine.shows, Machine.detail, bitmapByte, attrByte]
  rfl

theorem writebyte (sim : Sim timings d e) (offset : Nat) (value : UInt8) :
    Sim timings (d.writebyte timings offset value)
      { e with machine := e.machine.write offset value } := by
  rw [Lazy.writebyte, sim.machine]
  have flushed : ∃ d', (if offset < fileSize ∧ d.machine.screen offset ≠ value then
        d.dirtySinclair timings offset else d) = d' ∧ Marks timings e d d' ∧
      ∀ x y, x < 32 → y < 192 → (d.machine.write offset value).shows x y ≠ d.machine.shows x y →
        d'.Announced timings x y := by
    refine ⟨_, rfl, ?_⟩
    split
    · next inside =>
      rw [Lazy.dirtySinclair, if_neg (Nat.not_le.mpr inside.1)]
      split
      · next bitmap =>
        obtain ⟨marks, announced⟩ := sim.dirty8 offset
        refine ⟨marks, fun x y col line altered => announced x y col line ?_⟩
        by_contra bitmapNe
        refine altered (shows_write bitmapNe ?_)
        simp only [attrStart]
        omega
      · next attr =>
        obtain ⟨marks, announced⟩ := sim.dirty64 offset
        refine ⟨marks, fun x y col line altered => announced x y col ?_⟩
        by_contra attrNe
        refine altered (shows_write ?_ attrNe)
        simp only [lineStart, pixelBytes, height, widthCols] at attr ⊢
        omega
    · next outside =>
      refine ⟨.refl sim, fun x y col line altered => absurd ?_ altered⟩
      by_cases inside : offset < fileSize
      · have same : d.machine.screen offset = value := by
          by_contra differs
          exact outside ⟨inside, differs⟩
        have unchanged : d.machine.write offset value = d.machine := by
          rw [Machine.write, ← same]
          congr
          funext place
          split
          · next here => rw [here]
          · rfl
        rw [unchanged]
      · refine shows_write ?_ ?_
        · simp only [lineStart, fileSize, pixelBytes, height, widthCols] at inside ⊢
          omega
        · simp only [attrStart, fileSize, pixelBytes, height, widthCols] at inside ⊢
          omega
  obtain ⟨d', same, marks, announced⟩ := flushed
  rw [same, marks.machine]
  refine marks.sim.change (by rw [marks.machine]; rfl) fun x y col line altered =>
    announced x y col line ?_
  rwa [marks.machine] at altered

/-! ## The palette and FLASH -/

/-- After a change of the palette all cells are announced. -/
theorem paletteChanged (sim : Sim timings d e) :
    Sim timings (d.paletteChanged timings) e ∧ (d.paletteChanged timings).machine = d.machine ∧
      ∀ x y, x < 32 → y < 192 → (d.paletteChanged timings).Announced timings x y := by
  obtain ⟨cachedBeam, cached, sim'⟩ := sim.updateCachedBeam
  have low := screenBeam_low timings d.machine.tstates
  have flushed : ∃ d', Sim timings d' e ∧ d'.machine = d.machine ∧
      d'.critical = beamPlace timings d.machine.tstates ∧ d.paletteChanged timings = { d' with
        maybeDirty := fun line =>
          if line = (screenBeam timings d.machine.tstates).2 ∧
              (screenBeam timings d.machine.tstates).1 < widthCols then
            d'.maybeDirty (screenBeam timings d.machine.tstates).2 |||
              (allDirty.setWidth 32 <<< (screenBeam timings d.machine.tstates).1)
          else if (screenBeam timings d.machine.tstates).2 < line ∧ line < height then
            allDirty.setWidth 32
          else d'.maybeDirty line
        paletteChangedThisFrame := true } := by
    rw [Lazy.paletteChanged, cached]
    dsimp only
    split
    · next passed =>
      obtain ⟨drew, x', y'⟩ := Lazy.copyCriticalRegion_spec sim'.recorded sim'.low.1 low.1 sim'.behind
      refine ⟨_, sim'.copy drew x' y', drew.machine, ?_, rfl⟩
      rw [Lazy.critical, x', y', beamPlace]
    · next ahead =>
      refine ⟨_, sim', rfl, ?_, rfl⟩
      have behind := sim.behind
      unfold NotAfter at behind
      dsimp only [Lazy.critical, beamPlace, place] at behind ⊢
      omega
  obtain ⟨d', sim₁, machine, critical, result⟩ := flushed
  have all : allDirty.setWidth 32 = BitVec.allOnes 32 := by decide
  rw [all] at result
  -- every cell that the beam has not passed is marked
  have marked : ∀ x y, x < 32 → y < 192 → beamPlace timings d.machine.tstates ≤ place x y →
      ((d.paletteChanged timings).maybeDirty y).getLsbD x := by
    intro x y col line ahead
    rw [result]
    simp only [beamPlace, place] at ahead
    dsimp only
    split
    · next here =>
      rw [BitVec.getLsbD_or, BitVec.getLsbD_shiftLeft, BitVec.getLsbD_allOnes]
      simp [col]
      omega
    · next away =>
      rw [widthCols] at away
      rw [height, if_pos (by omega), BitVec.getLsbD_allOnes]
      exact decide_eq_true col
  have machine' : (d.paletteChanged timings).machine = d.machine := by
    rw [result]
    exact machine
  have announced : ∀ x y, x < 32 → y < 192 → (d.paletteChanged timings).Announced timings x y := by
    intro x y col line
    have critical' : (d.paletteChanged timings).critical = beamPlace timings d.machine.tstates := by
      rw [result]
      exact critical
    refine ⟨by rw [critical', machine']; omega, ?_⟩
    by_cases ahead : beamPlace timings d.machine.tstates ≤ place x y
    · exact .inl (marked x y col line ahead)
    · refine .inr ⟨by omega, ?_⟩
      rw [result]
  refine ⟨?_, machine', announced⟩
  have dirty := fun x y col line => (announced x y col line).2
  rw [result] at dirty ⊢
  exact ⟨sim₁.machine, sim₁.low, sim₁.behind, sim₁.cached, sim₁.recorded, sim₁.done, sim₁.passed,
    fun x y col line _ => dirty x y col line, sim₁.frames⟩

theorem ulaplusDataWrite (sim : Sim timings d e) (data : UInt8) :
    Sim timings (d.ulaplusDataWrite timings data)
      { e with machine := e.machine.dataWrite data } := by
  rw [Lazy.ulaplusDataWrite, Machine.dataWrite, sim.machine]
  dsimp only
  split
  · next palette =>
    split
    · next differs =>
      by_cases mode : d.machine.modeEnabled
      · rw [if_pos mode]
        obtain ⟨sim', machine, announced⟩ := sim.paletteChanged
        rw [machine]
        exact sim'.change (by rw [machine]; rfl) fun x y col line _ => announced x y col line
      · rw [if_neg mode]
        refine sim.change rfl fun x y _ _ altered => absurd ?_ altered
        -- without the mode the palette is not looked at
        have off : d.machine.ulaplusIsEnabled = false := by
          simp [Machine.ulaplusIsEnabled, mode]
        have off' : (d.machine.setColour (d.machine.registerValue.toNat % 64) data).ulaplusIsEnabled
            = false := off
        rw [Machine.shows, Machine.shows, Machine.detail, Machine.detail, off, off']
        rfl
    · next same =>
      have unchanged : d.machine.setColour (d.machine.registerValue.toNat % 64) data = d.machine := by
        rw [Machine.setColour]
        congr
        funext entry
        split
        · next here => rw [here, not_not.mp same]
        · rfl
      rw [unchanged, ← sim.machine]
      exact sim
  · next notPalette =>
    split
    · next group =>
      split
      · next differs =>
        obtain ⟨sim', machine, announced⟩ := sim.paletteChanged
        rw [machine]
        exact sim'.change (by rw [machine]) fun x y col line _ => announced x y col line
      · next same =>
        rw [← not_not.mp same, ← sim.machine]
        exact sim
    · rw [← sim.machine]
      exact sim

/-- Announcing a cell does not look at the machine while the beam is above the screen. -/
theorem dirtyChunk_machine (sim : Sim timings d e)
    (above : screenBeam timings d.machine.tstates = (0, 0)) {m : Machine}
    (clock : m.tstates = d.machine.tstates) (x y : Nat) :
    Lazy.dirtyChunk timings { d with machine := m } x y =
      { d.dirtyChunk timings x y with machine := m } := by
  have cached : Lazy.updateCachedBeam timings { d with machine := m } =
      ((0, 0), { (d.updateCachedBeam timings).2 with machine := m }) ∧
      (d.updateCachedBeam timings).1 = (0, 0) := by
    simp only [Lazy.updateCachedBeam, clock, above]
    rcases cache : d.cachedBeam with _ | ⟨tstates, beam⟩
    · exact ⟨rfl, rfl⟩
    · by_cases same : d.machine.tstates = tstates
      · have here := sim.cached tstates beam cache
        rw [← same, above] at here
        simp [same, here, cache]
      · simp [same]
  have idle : Lazy.updateCritical timings { d with machine := m } x y =
      { d.updateCritical timings x y with machine := m } := by
    simp only [Lazy.updateCritical, cached.1, cached.2, Nat.not_lt_zero, and_false, or_false,
      if_false]
  simp only [Lazy.dirtyChunk, idle]
  split <;> rfl

/-- A loop that does not look at the machine. -/
theorem foldl_machine {ι : Type} {f : Lazy → ι → Lazy} {m m' : Machine} (list : List ι)
    (turn : ∀ d i, Sim timings d e → d.machine = m → Marks timings e d (f d i) ∧
      f { d with machine := m' } i = { f d i with machine := m' })
    (sim : Sim timings d e) (machine : d.machine = m) :
    list.foldl f { d with machine := m' } = { list.foldl f d with machine := m' } := by
  induction list generalizing d with
  | nil => rfl
  | cons i list ih =>
    obtain ⟨marks, commutes⟩ := turn d i sim machine
    rw [List.foldl_cons, List.foldl_cons, commutes]
    exact ih marks.sim (marks.machine.trans machine)

theorem dirty64_machine (sim : Sim timings d e)
    (above : screenBeam timings d.machine.tstates = (0, 0)) {m : Machine}
    (clock : m.tstates = d.machine.tstates) (offset : Nat) :
    Lazy.dirty64 timings { d with machine := m } offset =
      { d.dirty64 timings offset with machine := m } := by
  refine foldl_machine _ (fun d' i sim' machine => ⟨?_, ?_⟩) sim rfl
  · exact (sim'.dirtyChunk (Nat.mod_lt _ (by decide))).1
  · exact sim'.dirtyChunk_machine (machine ▸ above) (machine ▸ clock) _ _

/-- The flashing cells are announced. -/
theorem dirtyFlashing (sim : Sim timings d e) :
    Marks timings e d (d.dirtyFlashing timings) ∧
      ∀ x y, x < 32 → y < 192 → d.machine.ulaplusIsEnabled = false →
        128 ≤ (d.machine.screen (attrStart y + x)).toNat →
        (d.dirtyFlashing timings).Announced timings x y := by
  rw [Lazy.dirtyFlashing]
  split
  · next enabled =>
    refine ⟨.refl sim, fun x y _ _ off => ?_⟩
    rw [off] at enabled
    cases enabled
  next off =>
  obtain ⟨marks, announced⟩ := Marks.foldl (f := fun d i =>
      if 128 ≤ (d.machine.screen (pixelBytes + i)).toNat then d.dirty64 timings (pixelBytes + i)
      else d)
    (fun i x y => 128 ≤ (d.machine.screen (pixelBytes + i)).toNat ∧
      attrStart y + x = pixelBytes + i)
    (List.range (fileSize - pixelBytes)) (fun d' i _ sim' machine => by
      rw [machine]
      split
      · obtain ⟨marks, here⟩ := sim'.dirty64 (pixelBytes + i)
        exact ⟨marks, fun x y col cell => here x y col cell.2⟩
      · next steady =>
        exact ⟨.refl sim', fun x y _ cell => absurd cell.1 steady⟩) sim rfl
  refine ⟨marks, fun x y col line _ flashing => ?_⟩
  have member : y / 8 * 32 + x ∈ List.range (fileSize - pixelBytes) := by
    simp only [List.mem_range, fileSize, pixelBytes, height, widthCols]
    omega
  have cell : attrStart y + x = pixelBytes + (y / 8 * 32 + x) := by
    rw [attrStart, widthCols]
    omega
  exact announced _ member x y col ⟨cell ▸ flashing, cell⟩

/-- FLASH turns over while the beam is above the screen. -/
theorem flash (sim : Sim timings d e)
    (above : screenBeam timings d.machine.tstates = (0, 0)) :
    Sim timings
      (Lazy.dirtyFlashing timings { d with
        machine := { d.machine with flashReversed := !d.machine.flashReversed } })
      { e with machine := { e.machine with flashReversed := !e.machine.flashReversed } } := by
  rw [sim.machine]
  generalize reversed : { d.machine with flashReversed := !d.machine.flashReversed } = m
  have clock : m.tstates = d.machine.tstates := by rw [← reversed]
  have commutes : Lazy.dirtyFlashing timings { d with machine := m } =
      { d.dirtyFlashing timings with machine := m } := by
    rw [Lazy.dirtyFlashing, Lazy.dirtyFlashing]
    have enabled : m.ulaplusIsEnabled = d.machine.ulaplusIsEnabled := by
      rw [← reversed]
      rfl
    rw [enabled]
    split
    · rfl
    · refine foldl_machine (m := d.machine) _ (fun d' i sim' machine => ?_) sim rfl
      have screen : m.screen = d'.machine.screen := by rw [← reversed, machine]
      rw [screen]
      split
      · exact ⟨(sim'.dirty64 _).1, sim'.dirty64_machine (machine ▸ above) (machine ▸ clock) _⟩
      · exact ⟨.refl sim', rfl⟩
  obtain ⟨marks, announced⟩ := sim.dirtyFlashing
  rw [commutes]
  refine marks.sim.change (by rw [marks.machine, clock]) fun x y col line altered => ?_
  rw [marks.machine] at altered
  by_cases enabled : d.machine.ulaplusIsEnabled
  · refine absurd ?_ altered
    have enabled' : m.ulaplusIsEnabled = true := by
      rw [← reversed]
      exact enabled
    rw [Machine.shows, Machine.shows, Machine.detail, Machine.detail, enabled, enabled', ← reversed]
    rfl
  · rw [Bool.not_eq_true] at enabled
    refine announced x y col line enabled ?_
    by_contra steady
    refine altered ?_
    have enabled' : m.ulaplusIsEnabled = false := by
      rw [← reversed]
      exact enabled
    have screen : m.screen = d.machine.screen := by rw [← reversed]
    rw [Machine.shows, Machine.shows, Machine.detail, Machine.detail, enabled, enabled', screen]
    simp [Detail.plot, parseAttr, steady]

/-! ## Time -/

/-- The beam goes on. -/
theorem elapse (sim : Sim timings d e) (tstates : Nat) :
    Sim timings { d with machine := { d.machine with tstates := d.machine.tstates + tstates } }
      { e.pass (beamPlace timings e.machine.tstates)
          (beamPlace timings (e.machine.tstates + tstates)) with
        machine := { e.machine with tstates := e.machine.tstates + tstates } } := by
  rw [sim.machine]
  have le := sim.critical_le
  refine ⟨rfl, sim.low, sim.behind.trans (screenBeam_mono timings (Nat.le_add_right _ _)),
    sim.cached, sim.recorded, ?_, ?_, sim.dirty, sim.frames⟩
  · intro x y col before
    dsimp only [Lazy.critical, Eager.pass] at before le ⊢
    rw [if_neg (by omega)]
    exact sim.done x y col before
  · intro x y col after before
    dsimp only [Lazy.critical, Eager.pass] at after before le ⊢
    split
    · rw [sim.machine]
      rfl
    · exact sim.passed x y col after (by omega)

/-- The frame ends: what is left is drawn, and the picture is that of the reference. -/
theorem frame (sim : Sim timings d e) {length : Nat} {d' : Lazy}
    (step : displayStep timings d (.frame length) = some d') :
    ∃ e', eagerStep timings e (.frame length) = some e' ∧ Sim timings d' e' := by
  obtain ⟨le, rfl⟩ := Option.ite_none_right_eq_some.mp step |>.imp id Option.some.inj
  dsimp only [eagerStep, Eager.pass_machine, Eager.pass_frames]
  rw [sim.machine, if_pos le]
  refine ⟨_, rfl, ?_⟩
  rw [Lazy.dirtyFrameBegin]
  dsimp only
  have behind : d.criticalY < height - 1 ∨ d.criticalY = height - 1 ∧ d.criticalX ≤ widthCols := by
    have low := sim.low
    simp only [height, widthCols]
    omega
  generalize now : d.machine.tstates - length = tstates'
  obtain ⟨drew, -, -⟩ := @Lazy.copyCriticalRegion_spec { d with
    machine := { d.machine with tstates := tstates' }, cachedBeam := none } sim.recorded widthCols
      (height - 1) sim.low.1 (Nat.le_refl _) behind
  generalize Lazy.copyCriticalRegion { d with
    machine := { d.machine with tstates := tstates' }, cachedBeam := none } widthCols
      (height - 1) = d₁ at drew ⊢
  have whole : ∀ x y, x < 32 → y < 192 → place x y < place widthCols (height - 1) := by
    intro x y col line
    simp only [place, widthCols, height]
    omega
  have late : ∀ x y, x < 32 → y < 192 → d.critical ≤ place x y →
      d₁.plotted x y = some (d.machine.shows x y) := fun x y col line after =>
    drew.shows col (sim.marked col line after) after (whole x y col line)
  have same : SamePicture d₁.plotted
      (e.pass (beamPlace timings d.machine.tstates) (widthCols * height)).drawn := by
    intro x y col line
    have inside := whole x y col line
    have critical_le := sim.critical_le
    dsimp only [Eager.pass]
    rw [sim.machine]
    simp only [widthCols, height, place] at inside
    by_cases after : d.critical ≤ place x y
    · rw [late x y col line after]
      split
      · rfl
      · next passed =>
        refine (sim.passed x y col after ?_).symm
        simp only [widthCols, height, place] at passed ⊢
        omega
    · rw [if_neg (by omega), drew.plotted x y col, if_neg fun draws => after draws.1]
      exact sim.done x y col (by omega)
  have frames : List.Forall₂ SamePicture (d₁.frames ++ [d₁.plotted])
      (e.frames ++ [(e.pass (beamPlace timings d.machine.tstates) (widthCols * height)).drawn]) := by
    rw [drew.frames]
    exact List.rel_append sim.frames (.cons same .nil)
  -- a new frame begins with the beam near its start and all marked that differs
  have begin_ : ∀ maybeDirty, (∀ x y, x < 32 → y < 192 →
      d₁.plotted x y ≠ some (d.machine.shows x y) → (maybeDirty y : BitVec 32).getLsbD x) →
      Sim timings { d₁ with
        criticalX := 0, criticalY := 0, maybeDirty, paletteChangedThisFrame := false
        frames := d₁.frames ++ [d₁.plotted] }
      (Eager.pass { e.pass (beamPlace timings d.machine.tstates) (widthCols * height) with
        machine := { d.machine with tstates := tstates' }
        frames := e.frames ++
          [(e.pass (beamPlace timings d.machine.tstates) (widthCols * height)).drawn] }
        0 (beamPlace timings tstates')) := by
    intro maybeDirty marked
    have start : place 0 0 = 0 := rfl
    refine ⟨drew.machine.symm, ⟨Nat.zero_le _, Nat.zero_le _⟩, ?_, ?_, drew.recorded, ?_, ?_, ?_,
      frames⟩
    · unfold NotAfter
      dsimp only
      omega
    · intro tstates beam cached
      dsimp only at cached
      rw [drew.cached] at cached
      cases cached
    · intro x y _ before
      dsimp only [Lazy.critical] at before
      omega
    · intro x y _ _ before
      rw [drew.machine] at before ⊢
      dsimp only [Eager.pass] at before ⊢
      exact if_pos ⟨Nat.zero_le _, before⟩
    · intro x y col line differs
      dsimp only at differs ⊢
      rw [drew.machine] at differs
      exact .inl (marked x y col line differs)
  by_cases flag : d₁.paletteChangedThisFrame
  · rw [if_pos flag]
    refine begin_ _ fun x y col line _ => ?_
    have all : allDirty.setWidth 32 = BitVec.allOnes 32 := by decide
    have refreshed : (Lazy.refreshMainScreen { d₁ with criticalX := 0, criticalY := 0 }).maybeDirty y
        = BitVec.allOnes 32 := (if_pos line).trans all
    rw [refreshed, BitVec.getLsbD_allOnes]
    exact decide_eq_true col
  · rw [if_neg flag]
    rw [Bool.not_eq_true] at flag
    have marked : ∀ x y, x < 32 → y < 192 → d₁.plotted x y ≠ some (d.machine.shows x y) →
        (d₁.maybeDirty y).getLsbD x := by
      intro x y col line differs
      have before : ¬ d.critical ≤ place x y := fun after => differs (late x y col line after)
      rw [drew.plotted x y col, if_neg fun draws => before draws.1] at differs
      refine (drew.maybeDirty x y col).mpr ⟨?_, fun inside => before inside.1⟩
      rcases sim.dirty x y col line differs with marked | changed
      · exact marked
      · rw [drew.flag, changed.2] at flag
        cases flag
    have result := begin_ d₁.maybeDirty marked
    rw [← flag] at result
    exact result

/-- Each event is one of the reference. -/
theorem step (sim : Sim timings d e) {act : DisplayAct} {d' : Lazy}
    (step : displayStep timings d act = some d') :
    ∃ e', eagerStep timings e act = some e' ∧ Sim timings d' e' := by
  cases act with
  | elapse tstates =>
    obtain rfl := Option.some.inj step
    exact ⟨_, rfl, sim.elapse tstates⟩
  | write offset value =>
    obtain rfl := Option.some.inj step
    exact ⟨_, rfl, sim.writebyte offset value⟩
  | registerWrite value =>
    obtain rfl := Option.some.inj step
    refine ⟨_, rfl, ?_⟩
    rw [sim.machine]
    exact sim.change rfl fun x y _ _ altered => absurd rfl altered
  | dataWrite value =>
    obtain rfl := Option.some.inj step
    exact ⟨_, rfl, sim.ulaplusDataWrite value⟩
  | flash =>
    obtain ⟨above, rfl⟩ := Option.ite_none_right_eq_some.mp step |>.imp id Option.some.inj
    refine ⟨_, ?_, sim.flash above⟩
    rw [eagerStep, sim.machine, if_pos above]
  | frame length => exact sim.frame step

theorem start (timings : Timings) (machine : Machine) :
    Sim timings (Lazy.start machine) (Eager.start timings machine) where
  machine := rfl
  low := ⟨Nat.zero_le _, Nat.zero_le _⟩
  behind := by
    unfold NotAfter
    dsimp only [Lazy.start]
    omega
  cached _ _ cached := by cases cached
  recorded _ _ _ record := by cases record
  done x y _ before := by
    dsimp only [Lazy.start, Lazy.critical, place] at before
    omega
  passed x y _ _ before := if_pos ⟨Nat.zero_le _, before⟩
  dirty x y col _ _ := by
    have all : allDirty.setWidth 32 = BitVec.allOnes 32 := by decide
    refine .inl ?_
    dsimp only [Lazy.start]
    rw [all, BitVec.getLsbD_allOnes]
    exact decide_eq_true col
  frames := .nil

/-- Each run is one of the reference. -/
theorem run {machine : Machine} {acts : List DisplayAct}
    (run : Runs (displayStep timings) anyStep (Lazy.start machine) acts d) :
    ∃ e, Runs (eagerStep timings) anyStep (Eager.start timings machine) acts e ∧
      Sim timings d e := by
  induction run with
  | nil => exact ⟨_, .nil, .start timings machine⟩
  | snoc _ _ stepEq ih =>
    obtain ⟨e, run, sim⟩ := ih
    obtain ⟨e', stepEq', sim'⟩ := sim.step stepEq
    exact ⟨e', .snoc run True.intro stepEq', sim'⟩

end Sim

/-! ## The pictures -/

/-- At the end of each frame of a run, the screen shows what the beam has seen. -/
theorem lazy_agrees (timings : Timings) (machine : Machine) (acts : List DisplayAct) (d : Lazy)
    (run : Runs (displayStep timings) anyStep (Lazy.start machine) acts d) :
    ∃ e, Runs (eagerStep timings) anyStep (Eager.start timings machine) acts e ∧
      List.Forall₂ SamePicture d.frames e.frames := by
  obtain ⟨e, run', sim⟩ := Sim.run run
  exact ⟨e, run', sim.frames⟩

/-- The timings of the 48K machine. -/
def timings48 : Timings where
  lineTimes0 := 8944
  tstatesPerLine := 224

/-- A cleared machine, with the beam above the screen. -/
def blank : Machine where
  screen := fun _ => 0
  palette := fun _ => 0
  registerValue := 0
  modeEnabled := false
  ulaplusActive := true
  flashReversed := false
  tstates := 0

theorem run_frame {timings : Timings} {start d : Lazy} {acts : List DisplayAct} {length : Nat}
    (run : Runs (displayStep timings) anyStep start acts d) (long : length ≤ d.machine.tstates) :
    ∃ d', Runs (displayStep timings) anyStep start (acts ++ [.frame length]) d' :=
  ⟨_, run.snoc True.intro (if_pos long)⟩

/-- The first cell is written behind the beam, and the frame ends. -/
theorem lazy_agrees_behindBeam :
    ∃ d e, Runs (displayStep timings48) anyStep (Lazy.start blank)
        [.elapse 14400, .write 0 255, .elapse 55488, .frame 69888] d ∧
      Runs (eagerStep timings48) anyStep (Eager.start timings48 blank)
        [.elapse 14400, .write 0 255, .elapse 55488, .frame 69888] e ∧
      List.Forall₂ SamePicture d.frames e.frames := by
  have front : Runs (displayStep timings48) anyStep (Lazy.start blank)
      [.elapse 14400, .write 0 255, .elapse 55488] _ := Runs.of_foldlM rfl
  obtain ⟨d, run⟩ := @run_frame _ _ _ _ 69888 front (by decide)
  obtain ⟨e, run', same⟩ := lazy_agrees timings48 blank _ _ run
  exact ⟨d, e, run, run', same⟩

end FuseX.Display
