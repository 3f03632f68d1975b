import FuseX.Lib.Runs
import FuseX.Lib.Spacing
import FuseX.Rzx.Autosave

/-!
# The spacing of automatic snapshots

Pruning looks at a snapshot only when its age is one of the thresholds. That is enough as long as the ages
of all automatic snapshots are multiples of the interval whenever a snapshot is taken: `Aligned` is kept by
every event that `Allowed` permits, and from it follows that after each autosave the old snapshots are
spaced (`spaced_run`).
-/

namespace FuseX.Rzx.Autosave

open Lib

/-! ## Where the snapshots are -/

/-- The frames before the snapshots of a kind. -/
def snapsFrom (automatic : Bool) : Nat → List Block → List Nat
  | _, [] => []
  | frames, .input n :: blocks => snapsFrom automatic (frames + n) blocks
  | frames, .snap kind :: blocks =>
    if kind = automatic then frames :: snapsFrom automatic frames blocks else snapsFrom automatic frames blocks

def snaps (automatic : Bool) (blocks : List Block) : List Nat :=
  snapsFrom automatic 0 blocks

theorem totalFrames_append (front back : List Block) :
    totalFrames (front ++ back) = totalFrames front + totalFrames back := by
  induction front with
  | nil => simp [totalFrames]
  | cons block front ih =>
    cases block with
    | input n => simp only [List.cons_append, totalFrames, ih]; omega
    | snap kind => simp only [List.cons_append, totalFrames, ih]

theorem snapsFrom_append (automatic : Bool) (frames : Nat) (front back : List Block) :
    snapsFrom automatic frames (front ++ back) =
      snapsFrom automatic frames front ++ snapsFrom automatic (frames + totalFrames front) back := by
  induction front generalizing frames with
  | nil => rfl
  | cons block front ih =>
    cases block with
    | input n => simp only [List.cons_append, snapsFrom, totalFrames, ih, Nat.add_assoc]
    | snap kind =>
      simp only [List.cons_append, snapsFrom, totalFrames, ih]
      split <;> rfl

theorem snaps_append (automatic : Bool) (front back : List Block) :
    snaps automatic (front ++ back) = snaps automatic front ++ snapsFrom automatic (totalFrames front) back := by
  rw [snaps, snapsFrom_append, Nat.zero_add]
  rfl

theorem autosavesFrom_append (it frames : Nat) (front back : List Block) :
    autosavesFrom it frames (front ++ back) =
      autosavesFrom it frames front ++ autosavesFrom (it + front.length) (frames + totalFrames front) back := by
  induction front generalizing it frames with
  | nil => rfl
  | cons block front ih =>
    cases block with
    | input n =>
      simp only [List.cons_append, autosavesFrom, totalFrames, ih, List.length_cons]
      rw [show it + 1 + front.length = it + (front.length + 1) by omega, Nat.add_assoc]
    | snap kind =>
      cases kind with
      | true =>
        simp only [List.cons_append, autosavesFrom, totalFrames, ih, List.length_cons]
        rw [show it + 1 + front.length = it + (front.length + 1) by omega]
      | false =>
        simp only [List.cons_append, autosavesFrom, totalFrames, ih, List.length_cons]
        rw [show it + 1 + front.length = it + (front.length + 1) by omega]

theorem autosavesFrom_frames (it frames : Nat) (blocks : List Block) :
    (autosavesFrom it frames blocks).map PruneInfo.frames = snapsFrom true frames blocks := by
  induction blocks generalizing it frames with
  | nil => rfl
  | cons block blocks ih =>
    cases block with
    | input n => exact ih (it + 1) (frames + n)
    | snap kind =>
      cases kind with
      | true => simp [autosavesFrom, snapsFrom, ih]
      | false => simp [autosavesFrom, snapsFrom, ih]

theorem snapsFrom_le {automatic : Bool} {frames p : Nat} {blocks : List Block}
    (among : p ∈ snapsFrom automatic frames blocks) : p ≤ frames + totalFrames blocks := by
  induction blocks generalizing frames with
  | nil => nomatch among
  | cons block blocks ih =>
    cases block with
    | input n =>
      have bound := ih among
      rw [totalFrames]
      omega
    | snap kind =>
      rw [snapsFrom] at among
      rw [totalFrames]
      split at among
      · rcases List.mem_cons.mp among with rfl | later
        · omega
        · exact ih later
      · exact ih among

/-! ## Thinning -/

/-- A snapshot of an age that goes, behind the others. -/
def goes (now : Nat) (ps : List Nat) (q : Nat) : Bool :=
  match ps.getLast? with
  | none => false
  | some p => prunes (now - q) (now - p)

/-- What is left of the positions of some snapshots when the close ones have gone. -/
inductive Thinned (now : Nat) : List Nat → List Nat → Prop
  | nil : Thinned now [] []
  | keep {ps ks : List Nat} {q : Nat} : Thinned now ps ks → goes now ps q = false → Thinned now (ps ++ [q]) (ks ++ [q])
  | drop {ps ks : List Nat} {q : Nat} : Thinned now ps ks → goes now ps q = true → Thinned now (ps ++ [q]) ks

theorem Thinned.sublist {now : Nat} {ps ks : List Nat} (thinned : Thinned now ps ks) : ks.Sublist ps := by
  induction thinned with
  | nil => exact List.Sublist.refl _
  | keep _ _ ih => exact ih.append (List.Sublist.refl _)
  | drop _ _ ih => exact ih.trans (List.sublist_append_left _ _)

/-- The oldest snapshot stays. -/
theorem Thinned.head {now : Nat} {ps ks : List Nat} (thinned : Thinned now ps ks) : ks.head? = ps.head? := by
  induction thinned with
  | nil => rfl
  | @keep ps ks q thinned _ ih =>
    cases ps with
    | nil =>
      obtain rfl := List.eq_nil_of_sublist_nil thinned.sublist
      rfl
    | cons p ps =>
      cases ks with
      | nil => nomatch ih
      | cons k ks => exact ih
  | @drop ps ks q _ going ih =>
    cases ps with
    | nil => nomatch going
    | cons p ps => exact ih

/-- The pruning loop over the snapshots of some first blocks. -/
theorem pruneLoop_thinned {ρ : Type} (lib : Libspectrum ρ) (now : Nat) (front back : List Block) (rzx : ρ)
    (blocks : lib.blocks rzx = front ++ back) :
    ∃ kept, lib.blocks (pruneLoop lib
        ((autosavesFrom 0 0 front).map fun info => { info with frames := now - info.frames }).reverse rzx) =
          kept ++ back ∧
      totalFrames kept = totalFrames front ∧ Thinned now (snaps true front) (snaps true kept) ∧
      snaps false kept = snaps false front := by
  induction front using List.reverseRec generalizing back rzx with
  | nil => exact ⟨[], by simpa [autosavesFrom, pruneLoop] using blocks, rfl, .nil, rfl⟩
  | append_singleton front block ih =>
    rw [autosavesFrom_append, Nat.zero_add, Nat.zero_add]
    rw [List.append_assoc] at blocks
    cases block with
    | input n =>
      obtain ⟨kept, after, total, thinned, same⟩ := ih _ _ blocks
      refine ⟨kept ++ [.input n], ?_, ?_, ?_, ?_⟩
      · rw [autosavesFrom, autosavesFrom, List.append_nil, after, List.append_assoc]
      · rw [totalFrames_append, totalFrames_append, total]
      · rw [snaps_append, snaps_append]
        simpa [snapsFrom] using thinned
      · rw [snaps_append, snaps_append]
        simpa [snapsFrom] using same
    | snap kind =>
      cases kind with
      | false =>
        obtain ⟨kept, after, total, thinned, same⟩ := ih _ _ blocks
        refine ⟨kept ++ [.snap false], ?_, ?_, ?_, ?_⟩
        · rw [autosavesFrom, autosavesFrom, List.append_nil, after, List.append_assoc]
        · rw [totalFrames_append, totalFrames_append, total]
        · rw [snaps_append, snaps_append]
          simpa [snapsFrom] using thinned
        · rw [snaps_append, snaps_append, same, total]
      | true =>
        rw [autosavesFrom, autosavesFrom, List.map_append, List.reverse_append]
        have positions := autosavesFrom_frames 0 0 front
        rcases List.eq_nil_or_concat (autosavesFrom 0 0 front) with none_ | ⟨older, save2, whole⟩
        · -- it is the oldest one
          rw [none_] at positions ⊢
          have none' : snaps true front = [] := positions.symm
          refine ⟨front ++ [.snap true], ?_, rfl, ?_, rfl⟩
          · show lib.blocks rzx = _
            rw [blocks, List.append_assoc]
          · rw [snaps_append, none']
            exact .keep .nil rfl
        · rw [List.concat_eq_append] at whole
          rw [whole] at positions ih ⊢
          have last : (snaps true front).getLast? = some save2.frames := by
            rw [snaps, ← positions, List.map_append, List.map_singleton, List.getLast?_concat]
          have loop : ∀ rzx, pruneLoop lib
              ((List.map (fun info : PruneInfo => { info with frames := now - info.frames })
                  [⟨front.length, totalFrames front⟩]).reverse ++
                (List.map (fun info : PruneInfo => { info with frames := now - info.frames })
                  (older ++ [save2])).reverse) rzx =
              pruneLoop lib ((older ++ [save2]).map fun info => { info with frames := now - info.frames }).reverse
                (if prunes (now - totalFrames front) (now - save2.frames) then
                  lib.iteratorDelete rzx front.length else rzx) := by
            intro rzx
            rw [List.map_append, List.reverse_append]
            rfl
          rw [loop]
          have age : goes now (snaps true front) (totalFrames front) =
              prunes (now - totalFrames front) (now - save2.frames) := by
            rw [goes, last]
          by_cases going : prunes (now - totalFrames front) (now - save2.frames) = true
          · rw [if_pos going]
            have deleted : lib.blocks (lib.iteratorDelete rzx front.length) = front ++ back := by
              rw [lib.blocks_iteratorDelete, blocks, List.eraseIdx_append_of_length_le (Nat.le_refl _),
                Nat.sub_self]
              rfl
            obtain ⟨kept, after, total, thinned, same⟩ := ih _ _ deleted
            refine ⟨kept, after, ?_, ?_, ?_⟩
            · rw [totalFrames_append, total]
              rfl
            · rw [snaps_append]
              exact .drop thinned (age.trans going)
            · rw [snaps_append, same]
              simp [snapsFrom]
          · rw [if_neg going]
            obtain ⟨kept, after, total, thinned, same⟩ := ih _ _ blocks
            refine ⟨kept ++ [.snap true], ?_, ?_, ?_, ?_⟩
            · rw [after, List.append_assoc]
            · rw [totalFrames_append, totalFrames_append, total]
            · rw [snaps_append, snaps_append, total]
              exact .keep thinned (age.trans (Bool.eq_false_iff.mpr going))
            · rw [snaps_append, snaps_append, same, total]

theorem autosavePrune_thinned {ρ : Type} {lib : Libspectrum ρ} {rzx : ρ} {front : List Block} {n : Nat}
    (blocks : lib.blocks rzx = front ++ [.input n]) :
    ∃ kept, lib.blocks (autosavePrune lib rzx) = kept ++ [.input n] ∧ totalFrames kept = totalFrames front ∧
      Thinned (totalFrames front + n) (snaps true front) (snaps true kept) ∧
      snaps false kept = snaps false front := by
  have pruned := pruneLoop_thinned lib (totalFrames front + n) front [.input n] rzx blocks
  have now : totalFrames (lib.blocks rzx) = totalFrames front + n := by
    rw [blocks, totalFrames_append]
    rfl
  have infos : autosavesFrom 0 0 (lib.blocks rzx) = autosavesFrom 0 0 front := by
    rw [blocks, autosavesFrom_append]
    exact List.append_nil _
  rw [autosavePrune, now, infos]
  exact pruned

/-! ## Spaced snapshots -/

/-- Two snapshots are far enough from one another for every threshold that the later one is beyond. -/
def Far (beyond : Nat → Nat → Prop) (now p q : Nat) : Prop :=
  p < q ∧ ∀ threshold ∈ thresholds, beyond threshold (now - q) → p + threshold ≤ q

/-- The snapshots are spaced, for the thresholds that they have reached, or passed. -/
def Spaced (beyond : Nat → Nat → Prop) (now : Nat) (ps : List Nat) : Prop :=
  ps.Pairwise (Far beyond now)

/-- A snapshot that has just reached a threshold stays only if it is spaced. -/
theorem spaced_thinned {now : Nat} {ps ks : List Nat} (thinned : Thinned now ps ks)
    (spaced : Spaced (· < ·) now ps) (bounded : ∀ p ∈ ps, p ≤ now) : Spaced (· ≤ ·) now ks := by
  induction thinned with
  | nil => exact List.Pairwise.nil
  | @keep ps ks q thinned stays ih =>
    obtain ⟨before, -, far⟩ := List.pairwise_append.mp spaced
    have inner := ih before fun p among => bounded p (List.mem_append_left _ among)
    refine List.pairwise_append.mpr ⟨inner, List.pairwise_singleton _ _, ?_⟩
    intro p' among q' isLast
    obtain rfl := List.mem_singleton.mp isLast
    have among' := thinned.sublist.subset among
    obtain ⟨ordered, passed⟩ := far p' among' q' isLast
    refine ⟨ordered, fun threshold isThreshold reached => ?_⟩
    rcases Nat.lt_or_eq_of_le reached with past | just
    · exact passed threshold isThreshold past
    -- it has just reached the threshold: the one before it was far enough away
    obtain ⟨older, p, rfl⟩ : ∃ older p, ps = older ++ [p] := by
      rcases List.eq_nil_or_concat ps with rfl | ⟨older, p, whole⟩
      · nomatch among'
      · exact ⟨older, p, by rw [whole, List.concat_eq_append]⟩
    have kept : prunes (now - q') (now - p) = false := by
      rw [goes, List.getLast?_concat] at stays
      exact stays
    have late := bounded q' (List.mem_append_right _ isLast)
    have apart : ¬now - p < 2 * (now - q') := by
      intro close
      rw [prunes, ← just, decide_eq_false_iff_not] at kept
      exact kept ⟨isThreshold, by rw [just]; exact close⟩
    have order : p' ≤ p := by
      rcases List.mem_append.mp among' with old | new
      · obtain ⟨-, -, cross⟩ := List.pairwise_append.mp before
        exact Nat.le_of_lt (cross p' old p (List.mem_singleton_self p)).1
      · exact Nat.le_of_eq (List.mem_singleton.mp new)
    omega
  | @drop ps ks q _ _ ih =>
    obtain ⟨before, -, -⟩ := List.pairwise_append.mp spaced
    exact ih before fun p among => bounded p (List.mem_append_left _ among)

/-! ## The invariant -/

section Invariant

variable {ρ : Type} {lib : Libspectrum ρ} {s : Recorder ρ}

/-- The order of thresholds and ages while a snapshot is due, or is not. -/
def beyond (pending : Bool) : Nat → Nat → Prop :=
  if pending then (· < ·) else (· ≤ ·)

/-- The recording is open for frames; the ages of its automatic snapshots are right for the count of frames,
and the snapshots are spaced. -/
structure Aligned (lib : Libspectrum ρ) (s : Recorder ρ) : Prop where
  opened : ∃ front n, lib.blocks s.rzx = front ++ [.input n]
  ages : ∀ p ∈ snaps true (lib.blocks s.rzx),
    (totalFrames (lib.blocks s.rzx) - p) % autosaveInterval = s.autosaveFrameCount % autosaveInterval
  spaced : Spaced (beyond s.autosavePending) (totalFrames (lib.blocks s.rzx)) (snaps true (lib.blocks s.rzx))
  due : s.autosavePending = true → s.autosaveFrameCount % autosaveInterval = 0 ∧
    ∀ p ∈ snaps true (lib.blocks s.rzx), p < totalFrames (lib.blocks s.rzx)

/-- While it is recorded, the recording is aligned. -/
def Good (lib : Libspectrum ρ) (s : Recorder ρ) : Prop :=
  s.recording = true → Aligned lib s

/-- A recording that goes on with a count of zero. -/
def Ready (blocks : List Block) : Prop :=
  (∀ p ∈ snaps true blocks, (totalFrames blocks - p) % autosaveInterval = 0) ∧
    Spaced (· ≤ ·) (totalFrames blocks) (snaps true blocks)

/-- A rollback with the setting on, or to where there is no automatic snapshot; a snapshot that is due is
behind it. -/
def Retains (lib : Libspectrum ρ) (s : Recorder ρ) (rolled : ρ) : Prop :=
  (s.rzxAutosaves = true ∨ snaps true (lib.blocks rolled) = []) ∧
    (s.autosavePending = false ∨ totalFrames (lib.blocks rolled) < totalFrames (lib.blocks s.rzx))

/-- The events that keep a recording aligned: every frame counts once there is an automatic snapshot, and none
comes while a snapshot is due. -/
def Allowed (lib : Libspectrum ρ) (s : Recorder ρ) : Event ρ → Prop
  | .frame _ =>
    s.recording = true → s.autosavePending = false ∧
      (s.competitionMode = false ∧ s.rzxAutosaves = true ∨ snaps true (lib.blocks s.rzx) = [])
  | .rollback => s.recording = true → ∀ rolled, lib.rollback s.rzx = some rolled → Retains lib s rolled
  | .rollbackTo which =>
    s.recording = true → ∀ rolled, lib.rollbackTo s.rzx which = some rolled → Retains lib s rolled
  | .continueRecording file => s.recording = false → Ready (lib.blocks file)
  | .start _ _ | .interruptComplete _ | .setAutosaves _ | .insertSnapshot | .stop => True

theorem snaps_opened (automatic : Bool) (front : List Block) (n : Nat) :
    snaps automatic (front ++ [.input n]) = snaps automatic front := by
  rw [snaps_append]
  exact List.append_nil _

theorem total_opened (front : List Block) (n : Nat) : totalFrames (front ++ [.input n]) = totalFrames front + n := by
  rw [totalFrames_append]
  rfl

theorem Far.weaken {beyond beyond' : Nat → Nat → Prop} {now now' p q : Nat} (far : Far beyond now p q)
    (weaker : ∀ threshold ∈ thresholds, beyond' threshold (now' - q) → beyond threshold (now - q)) :
    Far beyond' now' p q :=
  ⟨far.1, fun threshold among reached => far.2 threshold among (weaker threshold among reached)⟩

/-- A recording without automatic snapshots is aligned. -/
theorem aligned_none (opened : ∃ front n, lib.blocks s.rzx = front ++ [.input n])
    (none : snaps true (lib.blocks s.rzx) = [])
    (due : s.autosavePending = true → s.autosaveFrameCount % autosaveInterval = 0) : Aligned lib s where
  opened := opened
  ages := by
    rw [none]
    exact fun p among => absurd among List.not_mem_nil
  spaced := by
    rw [none]
    exact List.Pairwise.nil
  due pending := ⟨due pending, by
    rw [none]
    exact fun p among => absurd among List.not_mem_nil⟩

theorem thresholds_multiple : ∀ threshold ∈ thresholds, threshold % autosaveInterval = 0 := by
  decide

theorem thresholds_pos : ∀ threshold ∈ thresholds, 0 < threshold := by
  decide

/-! ## One event -/

/-- A frame that counts. -/
theorem aligned_counted {rzx : ρ} {front : List Block} {n : Nat} (aligned : Aligned lib s)
    (before : lib.blocks s.rzx = front ++ [.input n]) (after : lib.blocks rzx = front ++ [.input (n + 1)])
    (idle : s.autosavePending = false) : Aligned lib { s with rzx }.autosaveFrame := by
  obtain ⟨-, ages, spaced, -⟩ := aligned
  rw [before, snaps_opened, total_opened] at ages spaced
  have inside : ∀ p ∈ snaps true front, p ≤ totalFrames front := by
    intro p among
    have bound := snapsFrom_le among
    omega
  have aged : ∀ p ∈ snaps true front, (totalFrames front + (n + 1) - p) % autosaveInterval =
      (s.autosaveFrameCount + 1) % autosaveInterval := by
    intro p among
    have age := ages p among
    have bound := inside p among
    unfold autosaveInterval at age ⊢
    omega
  rw [beyond, idle] at spaced
  refine ⟨⟨front, n + 1, after⟩, ?_, ?_, ?_⟩
  · show ∀ p ∈ snaps true (lib.blocks rzx), (totalFrames (lib.blocks rzx) - p) % autosaveInterval = _
    rw [after, snaps_opened, total_opened]
    exact aged
  · show Spaced (beyond (s.autosavePending || _)) (totalFrames (lib.blocks rzx)) (snaps true (lib.blocks rzx))
    rw [after, snaps_opened, total_opened, idle, Bool.false_or]
    refine List.Pairwise.imp_of_mem ?_ spaced
    intro p q _ among far
    refine far.weaken ?_
    intro threshold isThreshold reached
    have bound := inside q among
    have age := aged q among
    have multiple := thresholds_multiple threshold isThreshold
    show threshold ≤ totalFrames front + n - q
    unfold beyond at reached
    by_cases due : (s.autosaveFrameCount + 1) % autosaveInterval = 0
    · rw [decide_eq_true due] at reached
      have past : threshold < totalFrames front + (n + 1) - q := reached
      omega
    · rw [decide_eq_false due] at reached
      have past : threshold ≤ totalFrames front + (n + 1) - q := reached
      rcases Nat.lt_or_eq_of_le past with more | just
      · omega
      · rw [just] at multiple
        exact absurd (age.symm.trans multiple) due
  · intro due
    have isDue : (s.autosaveFrameCount + 1) % autosaveInterval = 0 := by
      have flag : (s.autosavePending || decide ((s.autosaveFrameCount + 1) % autosaveInterval = 0)) = true := due
      rwa [idle, Bool.false_or, decide_eq_true_eq] at flag
    refine ⟨isDue, ?_⟩
    show ∀ p ∈ snaps true (lib.blocks rzx), p < totalFrames (lib.blocks rzx)
    rw [after, snaps_opened, total_opened]
    intro p among
    have bound := inside p among
    omega

theorem storeFrame_opened {front : List Block} {n : Nat} (opened : lib.blocks s.rzx = front ++ [.input n]) :
    ∃ rzx, lib.storeFrame s.rzx = some rzx ∧ lib.blocks rzx = front ++ [.input (n + 1)] := by
  have stored := lib.blocks_storeFrame s.rzx
  rw [opened, addFrame, List.getLast?_concat, List.dropLast_concat] at stored
  obtain ⟨rzx, found, blocks⟩ := Option.map_eq_some_iff.mp stored
  exact ⟨rzx, found, blocks⟩

theorem good_stopped (s : Recorder ρ) : Good lib (s.rzxStopRecording lib) := by
  intro recording
  unfold Recorder.rzxStopRecording at recording
  split at recording
  · exact absurd recording Bool.false_ne_true
  · next stopped => exact absurd recording stopped

theorem good_frame {offSpeed : Bool} (good : Good lib s) (allowed : Allowed lib s (.frame offSpeed)) :
    Good lib (s.rzxRecordingFrame lib offSpeed) := by
  unfold Recorder.rzxRecordingFrame
  by_cases recording : s.recording = true
  · have aligned := good recording
    obtain ⟨idle, counted⟩ := allowed recording
    obtain ⟨front, n, opened⟩ := aligned.opened
    obtain ⟨rzx, stored, blocks⟩ := storeFrame_opened opened
    have unchanged : snaps true (lib.blocks rzx) = snaps true (lib.blocks s.rzx) := by
      rw [blocks, opened, snaps_opened, snaps_opened]
    have without : snaps true (lib.blocks s.rzx) = [] → Aligned lib { s with rzx } := by
      intro none
      exact aligned_none ⟨front, n + 1, blocks⟩ (unchanged.trans none)
        fun pending => absurd (idle.symm.trans pending) Bool.false_ne_true
    rw [if_pos recording, stored]
    dsimp only
    by_cases competition : s.competitionMode = true
    · have none : snaps true (lib.blocks s.rzx) = [] := by
        rcases counted with ⟨free, -⟩ | none
        · exact absurd (free.symm.trans competition) Bool.false_ne_true
        · exact none
      rw [if_pos competition]
      cases offSpeed with
      | true => exact good_stopped _
      | false => exact fun _ => without none
    · rw [if_neg competition]
      by_cases on : s.rzxAutosaves = true
      · rw [if_pos on]
        exact fun _ => aligned_counted aligned opened blocks idle
      · have none : snaps true (lib.blocks s.rzx) = [] := by
          rcases counted with ⟨-, set⟩ | none
          · exact absurd set on
          · exact none
        rw [if_neg on]
        exact fun _ => without none
  · rw [if_neg recording]
    exact good

/-- What an autosave makes of a recording: its user's snapshots stay, the oldest automatic one stays, and the
automatic ones are spaced. -/
theorem autosave_spaced (aligned : Aligned lib s) (due : s.autosavePending = true) :
    ∃ kept, lib.blocks (autosavePrune lib (lib.startInput (lib.addSnap s.rzx true))) = kept ++ [.input 0] ∧
      totalFrames kept = totalFrames (lib.blocks s.rzx) ∧ snaps false kept = snaps false (lib.blocks s.rzx) ∧
      (snaps true kept).head? = (snaps true (lib.blocks s.rzx) ++ [totalFrames (lib.blocks s.rzx)]).head? ∧
      (∀ p ∈ snaps true kept, (totalFrames (lib.blocks s.rzx) - p) % autosaveInterval = 0) ∧
      Spaced (· ≤ ·) (totalFrames (lib.blocks s.rzx)) (snaps true kept) := by
  obtain ⟨-, ages, spaced, isDue⟩ := aligned
  obtain ⟨zero, late⟩ := isDue due
  have blocks : lib.blocks (lib.startInput (lib.addSnap s.rzx true)) =
      (lib.blocks s.rzx ++ [.snap true]) ++ [.input 0] := by
    rw [lib.blocks_startInput, lib.blocks_addSnap]
  obtain ⟨kept, after, total, thinned, same⟩ := autosavePrune_thinned blocks
  have frames : totalFrames (lib.blocks s.rzx ++ [.snap true]) = totalFrames (lib.blocks s.rzx) := by
    rw [totalFrames_append]
    rfl
  have own : snaps true (lib.blocks s.rzx ++ [.snap true]) =
      snaps true (lib.blocks s.rzx) ++ [totalFrames (lib.blocks s.rzx)] := by
    rw [snaps_append]
    rfl
  have user : snaps false (lib.blocks s.rzx ++ [.snap true]) = snaps false (lib.blocks s.rzx) := by
    rw [snaps_append]
    exact List.append_nil _
  rw [Nat.add_zero, frames, own] at thinned
  rw [user] at same
  rw [beyond, due] at spaced
  have strict : Spaced (· < ·) (totalFrames (lib.blocks s.rzx))
      (snaps true (lib.blocks s.rzx) ++ [totalFrames (lib.blocks s.rzx)]) := by
    refine List.pairwise_append.mpr ⟨spaced, List.pairwise_singleton _ _, ?_⟩
    intro p among q isNow
    obtain rfl := List.mem_singleton.mp isNow
    refine ⟨late p among, fun threshold _ past => ?_⟩
    rw [Nat.sub_self] at past
    exact absurd past (Nat.not_lt_zero _)
  have bounded : ∀ p ∈ snaps true (lib.blocks s.rzx) ++ [totalFrames (lib.blocks s.rzx)],
      p ≤ totalFrames (lib.blocks s.rzx) := by
    intro p among
    rcases List.mem_append.mp among with old | new
    · exact Nat.le_of_lt (late p old)
    · exact Nat.le_of_eq (List.mem_singleton.mp new)
  refine ⟨kept, after, total.trans frames, same, thinned.head, ?_, spaced_thinned thinned strict bounded⟩
  intro p among
  rcases List.mem_append.mp (thinned.sublist.subset among) with old | new
  · rw [ages p old, zero]
  · rw [List.mem_singleton.mp new, Nat.sub_self]
    rfl

theorem good_interruptComplete {postponed : Bool} (good : Good lib s) :
    Good lib (s.rzxFrameInterruptComplete lib postponed) := by
  unfold Recorder.rzxFrameInterruptComplete
  split
  · exact good
  next busy =>
  split
  · exact good
  have recording : s.recording = true := by
    by_contra off
    exact busy (.inl (Bool.eq_false_iff.mpr off))
  have due : s.autosavePending = true := by
    by_contra off
    exact busy (.inr (Bool.eq_false_iff.mpr off))
  have aligned := good recording
  obtain ⟨kept, after, total, -, -, ages, spaced⟩ := autosave_spaced aligned due
  intro _
  refine ⟨⟨kept, 0, after⟩, ?_, ?_, fun pending => absurd pending Bool.false_ne_true⟩
  · show ∀ p ∈ snaps true (lib.blocks (autosavePrune lib _)), (totalFrames (lib.blocks (autosavePrune lib _)) - p) % _ = _
    rw [after, snaps_opened, total_opened, Nat.add_zero, total, (aligned.due due).1]
    exact ages
  · show Spaced (beyond false) (totalFrames (lib.blocks (autosavePrune lib _))) (snaps true (lib.blocks (autosavePrune lib _)))
    rw [after, snaps_opened, total_opened, Nat.add_zero, total]
    exact spaced

/-- The frames behind the last automatic snapshot. -/
theorem sinceAutomatic_last (since frames : Nat) (blocks : List Block) :
    Recorder.sinceAutomatic since blocks =
      match (snapsFrom true frames blocks).getLast? with
      | none => since + totalFrames blocks
      | some p => frames + totalFrames blocks - p := by
  induction blocks generalizing since frames with
  | nil => rfl
  | cons block blocks ih =>
    cases block with
    | input n =>
      rw [Recorder.sinceAutomatic, snapsFrom, totalFrames, ih (since + n) (frames + n)]
      simp only [Nat.add_assoc]
    | snap kind =>
      cases kind with
      | false =>
        rw [Recorder.sinceAutomatic, snapsFrom, totalFrames, if_neg (by decide)]
        exact ih since frames
      | true =>
        rw [Recorder.sinceAutomatic, snapsFrom, totalFrames, if_pos rfl, ih 0 frames, List.getLast?_cons]
        cases (snapsFrom true frames blocks).getLast? with
        | none =>
          rw [Option.getD_none]
          show 0 + totalFrames blocks = frames + totalFrames blocks - frames
          omega
        | some p => rw [Option.getD_some]

theorem upToSnap_prefix {which : Nat} {blocks cut : List Block} (found : upToSnap which blocks = some cut) :
    cut <+: blocks := by
  induction blocks generalizing which cut with
  | nil => cases which <;> nomatch found
  | cons block blocks ih =>
    cases block with
    | input n =>
      rw [upToSnap] at found
      obtain ⟨cut', found', rfl⟩ := Option.map_eq_some_iff.mp found
      exact List.cons_prefix_cons.mpr ⟨rfl, ih found'⟩
    | snap kind =>
      cases which with
      | zero =>
        rw [upToSnap] at found
        obtain rfl := Option.some.inj found
        exact List.cons_prefix_cons.mpr ⟨rfl, List.nil_prefix⟩
      | succ which =>
        rw [upToSnap] at found
        obtain ⟨cut', found', rfl⟩ := Option.map_eq_some_iff.mp found
        exact List.cons_prefix_cons.mpr ⟨rfl, ih found'⟩

/-- Recording goes on from an earlier snapshot. -/
theorem aligned_rolled {rolled : ρ} {rest : List Block} (aligned : Aligned lib s)
    (cut : lib.blocks s.rzx = lib.blocks rolled ++ rest) (retains : Retains lib s rolled) :
    Aligned lib (s.rzxStartAfterRollback lib rolled) := by
  obtain ⟨-, ages, spaced, -⟩ := aligned
  obtain ⟨reset, behind⟩ := retains
  have blocks := lib.blocks_startInput rolled
  have total : totalFrames (lib.blocks s.rzx) = totalFrames (lib.blocks rolled) + totalFrames rest := by
    rw [cut, totalFrames_append]
  have among : ∀ p ∈ snaps true (lib.blocks rolled), p ∈ snaps true (lib.blocks s.rzx) := by
    intro p here
    rw [cut, snaps_append]
    exact List.mem_append_left _ here
  by_cases on : s.rzxAutosaves = true
  · rw [Recorder.rzxStartAfterRollback, if_pos on]
    refine ⟨⟨_, 0, blocks⟩, ?_, ?_, fun pending => absurd pending Bool.false_ne_true⟩
    · show ∀ p ∈ snaps true (lib.blocks (lib.startInput rolled)),
        (totalFrames (lib.blocks (lib.startInput rolled)) - p) % _ =
          Recorder.sinceAutomatic 0 (lib.blocks (lib.startInput rolled)) % autosaveInterval % autosaveInterval
      rw [sinceAutomatic_last 0 0, Nat.mod_mod, ← snaps, blocks, snaps_opened, total_opened, Nat.add_zero,
        Nat.zero_add]
      intro p here
      cases last : (snaps true (lib.blocks rolled)).getLast? with
      | none =>
        rw [List.getLast?_eq_none_iff] at last
        rw [last] at here
        exact absurd here List.not_mem_nil
      | some q =>
        have there := List.mem_of_getLast? last
        have age := ages p (among p here)
        have age' := ages q (among q there)
        have inside : p ≤ 0 + totalFrames (lib.blocks rolled) := snapsFrom_le here
        have inside' : q ≤ 0 + totalFrames (lib.blocks rolled) := snapsFrom_le there
        rw [total] at age age'
        show (totalFrames (lib.blocks rolled) - p) % 250 = (totalFrames (lib.blocks rolled) - q) % 250
        have multiple := age.trans age'.symm
        unfold autosaveInterval at multiple
        omega
    · show Spaced (beyond false) (totalFrames (lib.blocks (lib.startInput rolled)))
        (snaps true (lib.blocks (lib.startInput rolled)))
      rw [blocks, snaps_opened, total_opened, Nat.add_zero]
      rw [cut, snaps_append] at spaced
      obtain ⟨front, -, -⟩ := List.pairwise_append.mp spaced
      refine List.Pairwise.imp_of_mem ?_ front
      intro p q _ here far
      refine far.weaken fun threshold isThreshold reached => ?_
      have reached' : threshold ≤ totalFrames (lib.blocks rolled) - q := reached
      have positive := thresholds_pos threshold isThreshold
      rw [← cut, total]
      rcases behind with idle | behind
      · rw [beyond, idle]
        show threshold ≤ _
        omega
      · have past : threshold < totalFrames (lib.blocks rolled) + totalFrames rest - q := by omega
        unfold beyond
        split
        · exact past
        · exact Nat.le_of_lt past
  · have none : snaps true (lib.blocks rolled) = [] := by
      rcases reset with set | none
      · exact absurd set on
      · exact none
    rw [Recorder.rzxStartAfterRollback, if_neg on]
    refine aligned_none ⟨_, 0, blocks⟩ ?_ fun pending => absurd pending Bool.false_ne_true
    show snaps true (lib.blocks (lib.startInput rolled)) = []
    rw [blocks, snaps_opened, none]

theorem good_rollback {rolled : Option ρ} (good : Good lib s)
    (cuts : ∀ rzx, rolled = some rzx → ∃ which, upToSnap which (lib.blocks s.rzx) = some (lib.blocks rzx))
    (allowed : s.recording = true → ∀ rzx, rolled = some rzx → Retains lib s rzx) :
    Good lib (s.rollback lib rolled) := by
  unfold Recorder.rollback
  by_cases recording : s.recording = true
  · rw [if_pos recording]
    cases rolled with
    | none => exact good
    | some rzx =>
      obtain ⟨which, found⟩ := cuts rzx rfl
      obtain ⟨rest, whole⟩ := upToSnap_prefix found
      exact fun _ => aligned_rolled (good recording) whole.symm (allowed recording rzx rfl)
  · rw [if_neg recording]
    exact good

theorem good_insertSnapshot (good : Good lib s) : Good lib (s.insertSnapshot lib) := by
  unfold Recorder.insertSnapshot
  by_cases recording : s.recording = true
  · rw [if_pos recording]
    intro _
    obtain ⟨-, ages, spaced, due⟩ := good recording
    have blocks : lib.blocks (lib.startInput (lib.addSnap s.rzx false)) =
        (lib.blocks s.rzx ++ [.snap false]) ++ [.input 0] := by
      rw [lib.blocks_startInput, lib.blocks_addSnap]
    have total : totalFrames (lib.blocks (lib.startInput (lib.addSnap s.rzx false))) =
        totalFrames (lib.blocks s.rzx) := by
      rw [blocks, total_opened, totalFrames_append]
      rfl
    have own : snaps true (lib.blocks (lib.startInput (lib.addSnap s.rzx false))) = snaps true (lib.blocks s.rzx) := by
      rw [blocks, snaps_opened, snaps_append]
      exact List.append_nil _
    refine ⟨⟨_, 0, blocks⟩, ?_, ?_, ?_⟩
    · show ∀ p ∈ snaps true (lib.blocks (lib.startInput (lib.addSnap s.rzx false))),
        (totalFrames (lib.blocks (lib.startInput (lib.addSnap s.rzx false))) - p) % _ = _
      rw [own, total]
      exact ages
    · show Spaced (beyond s.autosavePending) (totalFrames (lib.blocks (lib.startInput (lib.addSnap s.rzx false))))
        (snaps true (lib.blocks (lib.startInput (lib.addSnap s.rzx false))))
      rw [own, total]
      exact spaced
    · show s.autosavePending = true → _ ∧ ∀ p ∈ snaps true (lib.blocks (lib.startInput (lib.addSnap s.rzx false))),
        p < totalFrames (lib.blocks (lib.startInput (lib.addSnap s.rzx false)))
      rw [own, total]
      exact due
  · rw [if_neg recording]
    exact good

theorem good_start {embedSnapshot competitionMode : Bool} (good : Good lib s) :
    Good lib (s.rzxStartRecording lib embedSnapshot competitionMode) := by
  unfold Recorder.rzxStartRecording
  by_cases recording : s.recording = true
  · rw [if_pos recording]
    exact good
  · rw [if_neg recording]
    intro _
    refine aligned_none ⟨_, 0, lib.blocks_startInput _⟩ ?_ fun pending => absurd pending Bool.false_ne_true
    show snaps true (lib.blocks (lib.startInput _)) = []
    rw [lib.blocks_startInput, snaps_opened]
    cases embedSnapshot with
    | true =>
      rw [if_pos rfl, lib.blocks_addSnap, lib.blocks_alloc]
      rfl
    | false =>
      rw [if_neg Bool.false_ne_true, lib.blocks_alloc]
      rfl

theorem good_continue {file : ρ} (good : Good lib s) (allowed : Allowed lib s (.continueRecording file)) :
    Good lib (s.rzxContinueRecording lib file) := by
  unfold Recorder.rzxContinueRecording
  by_cases recording : s.recording = true
  · rw [if_pos recording]
    exact good
  · rw [if_neg recording]
    obtain ⟨ages, spaced⟩ := allowed (Bool.eq_false_iff.mpr recording)
    split
    · intro _
      refine ⟨⟨_, 0, lib.blocks_startInput file⟩, ?_, ?_, fun pending => absurd pending Bool.false_ne_true⟩
      · show ∀ p ∈ snaps true (lib.blocks (lib.startInput file)),
          (totalFrames (lib.blocks (lib.startInput file)) - p) % _ = _
        rw [lib.blocks_startInput, snaps_opened, total_opened]
        exact ages
      · show Spaced (beyond false) (totalFrames (lib.blocks (lib.startInput file)))
          (snaps true (lib.blocks (lib.startInput file)))
        rw [lib.blocks_startInput, snaps_opened, total_opened]
        exact spaced
    · exact good

theorem good_step {event : Event ρ} (good : Good lib s) (allowed : Allowed lib s event) :
    Good lib (s.step lib event) := by
  cases event with
  | start embedSnapshot competitionMode => exact good_start good
  | continueRecording file => exact good_continue good allowed
  | frame offSpeed => exact good_frame good allowed
  | interruptComplete postponed => exact good_interruptComplete good
  | setAutosaves on =>
    intro recording
    obtain ⟨opened, ages, spaced, due⟩ := good recording
    exact ⟨opened, ages, spaced, due⟩
  | insertSnapshot => exact good_insertSnapshot good
  | rollback => exact good_rollback good (lib.blocks_rollback s.rzx) allowed
  | rollbackTo which =>
    exact good_rollback good (fun rzx found => ⟨which, lib.blocks_rollbackTo s.rzx which rzx found⟩) allowed
  | stop => exact good_stopped s

end Invariant

/-! ## Runs -/

/-- What the automatic snapshots of a recording are after an autosave. -/
structure Thin (blocks : List Block) : Prop where
  spaced : ∀ threshold ∈ thresholds,
    Apart threshold ((snaps true blocks).filter fun p => threshold ≤ totalFrames blocks - p)
  few : (snaps true blocks).length ≤ 10 + totalFrames blocks / (300 * 50)

instance (gap : Nat) (ps : List Nat) : Decidable (Apart gap ps) :=
  inferInstanceAs (Decidable (ps.Pairwise _))

/-- At most so many of some snapshots of a class of ages are as far apart as `gap`. -/
theorem class_length {now gap young old : Nat} {ps : List Nat} (apart : Apart gap ps)
    (class_ : ∀ p ∈ ps, p ≤ now ∧ young ≤ now - p ∧ now - p < old) (ordered : young < old) :
    ps.length * gap ≤ old - 1 - young + gap := by
  have bound := @Apart.length_le gap (now - (old - 1)) (now - young) ps apart fun p among => by
    obtain ⟨early, above, below⟩ := class_ p among
    omega
  omega

theorem le_div_of_apart {count now gap : Nat} (positive : 0 < gap) (late : gap ≤ now)
    (bound : count * gap ≤ now - gap - 0 + gap) : count ≤ now / gap := by
  rw [Nat.le_div_iff_mul_le positive]
  omega

/-- Spaced snapshots are few. -/
theorem few_of_spaced {now : Nat} {ps : List Nat} (bounded : ∀ p ∈ ps, p ≤ now)
    (close : Apart autosaveInterval ps)
    (apart : ∀ threshold ∈ thresholds, Apart threshold (ps.filter fun p => threshold ≤ now - p)) :
    ps.length ≤ 10 + now / (300 * 50) := by
  have first := length_parts (fun p => decide (750 ≤ now - p)) ps
  have second := length_parts (fun p => decide (3000 ≤ now - p)) (ps.filter fun p => 750 ≤ now - p)
  have third := length_parts (fun p => decide (15000 ≤ now - p))
    ((ps.filter fun p => 750 ≤ now - p).filter fun p => 3000 ≤ now - p)
  have young := @class_length now autosaveInterval 0 750 (ps.filter fun p => !decide (750 ≤ now - p))
    (close.sublist List.filter_sublist) (by
      intro p among
      obtain ⟨old, age⟩ := List.mem_filter.mp among
      have bound := bounded p old
      simp only [Bool.not_eq_true', decide_eq_false_iff_not] at age
      omega) (by decide)
  have seconds := @class_length now 750 750 3000
    ((ps.filter fun p => 750 ≤ now - p).filter fun p => !decide (3000 ≤ now - p))
    ((apart 750 (by decide)).sublist List.filter_sublist) (by
      intro p among
      obtain ⟨old, age⟩ := List.mem_filter.mp among
      obtain ⟨older, age'⟩ := List.mem_filter.mp old
      have bound := bounded p older
      simp only [Bool.not_eq_true', decide_eq_false_iff_not, decide_eq_true_eq] at age age'
      omega) (by decide)
  have part : (ps.filter fun p => 750 ≤ now - p).Sublist ps := List.filter_sublist
  have minutes := @class_length now 3000 3000 15000
    (((ps.filter fun p => 750 ≤ now - p).filter fun p => 3000 ≤ now - p).filter fun p => !decide (15000 ≤ now - p))
    (((apart 3000 (by decide)).sublist (part.filter _)).sublist List.filter_sublist) (by
      intro p among
      obtain ⟨old, age⟩ := List.mem_filter.mp among
      obtain ⟨older, age'⟩ := List.mem_filter.mp old
      have bound := bounded p (part.subset older)
      simp only [Bool.not_eq_true', decide_eq_false_iff_not, decide_eq_true_eq] at age age'
      omega) (by decide)
  have part' : ((ps.filter fun p => 750 ≤ now - p).filter fun p => 3000 ≤ now - p).Sublist ps :=
    List.filter_sublist.trans part
  have rest := @Apart.length_le 15000 0 (now - 15000)
    (((ps.filter fun p => 750 ≤ now - p).filter fun p => 3000 ≤ now - p).filter fun p => 15000 ≤ now - p)
    ((apart 15000 (by decide)).sublist (part'.filter _)) (by
      intro p among
      obtain ⟨old, age⟩ := List.mem_filter.mp among
      have bound := bounded p (part'.subset old)
      simp only [decide_eq_true_eq] at age
      omega)
  have last : (((ps.filter fun p => 750 ≤ now - p).filter fun p => 3000 ≤ now - p).filter
      fun p => 15000 ≤ now - p).length ≤ now / 15000 := by
    rcases Nat.lt_or_ge now 15000 with early | late
    · have none_ : ((ps.filter fun p => 750 ≤ now - p).filter fun p => 3000 ≤ now - p).filter
          (fun p => 15000 ≤ now - p) = [] := by
        apply List.filter_eq_nil_iff.mpr
        intro p _ age
        simp only [decide_eq_true_eq] at age
        omega
      rw [none_]
      exact Nat.zero_le _
    · exact le_div_of_apart (by decide) late rest
  unfold autosaveInterval at young
  omega

section Run

variable {ρ : Type} {lib : Libspectrum ρ}

/-- The recorder after some events, which are all allowed. -/
def RunTo (lib : Libspectrum ρ) (events : List (Event ρ)) (s : Recorder ρ) : Prop :=
  Runs (fun s event => some (Recorder.step lib s event)) (Allowed lib) (initial lib) events s

theorem good_run {events : List (Event ρ)} {s : Recorder ρ} (run : RunTo lib events s) : Good lib s := by
  apply Runs.invariant run
  · intro recording
    exact absurd recording Bool.false_ne_true
  · intro s event t good allowed stepEq
    rw [← Option.some.inj stepEq]
    exact good_step good allowed

/-- In every run of allowed events each autosave leaves the user's snapshots and the oldest automatic one, and
thins the automatic ones. -/
theorem spaced_run {events : List (Event ρ)} {s : Recorder ρ} (run : RunTo lib events s)
    (recording : s.recording = true) (due : s.autosavePending = true) :
    let after := lib.blocks (s.step lib (.interruptComplete false)).rzx
    Thin after ∧ snaps false after = snaps false (lib.blocks s.rzx) ∧
      (snaps true after).head? = (snaps true (lib.blocks s.rzx) ++ [totalFrames (lib.blocks s.rzx)]).head? := by
  obtain ⟨kept, blocks, total, user, head, ages, spaced⟩ := autosave_spaced (good_run run recording) due
  have after : lib.blocks (s.step lib (.interruptComplete false)).rzx = kept ++ [.input 0] := by
    have takes : s.step lib (.interruptComplete false) =
        { s with autosavePending := false, rzx := autosavePrune lib (lib.startInput (lib.addSnap s.rzx true)) } := by
      simp [Recorder.step, Recorder.rzxFrameInterruptComplete, recording, due]
    rw [takes]
    exact blocks
  dsimp only
  rw [after, snaps_opened, snaps_opened]
  have now : totalFrames (kept ++ [.input 0]) = totalFrames (lib.blocks s.rzx) := by
    rw [total_opened, total, Nat.add_zero]
  have bounded : ∀ p ∈ snaps true kept, p ≤ totalFrames (lib.blocks s.rzx) := by
    intro p among
    have bound : p ≤ 0 + totalFrames kept := snapsFrom_le among
    omega
  have close : Apart autosaveInterval (snaps true kept) := by
    refine List.Pairwise.imp_of_mem ?_ spaced
    intro p q first second far
    have age := ages p first
    have age' := ages q second
    have bound := bounded q second
    have ordered := far.1
    unfold autosaveInterval at age age' ⊢
    omega
  have apart : ∀ threshold ∈ thresholds, Apart threshold
      ((snaps true kept).filter fun p => threshold ≤ totalFrames (lib.blocks s.rzx) - p) := by
    intro threshold isThreshold
    refine List.Pairwise.imp_of_mem ?_ (List.Pairwise.filter _ spaced)
    intro p q _ second far
    exact far.2 threshold isThreshold (of_decide_eq_true (List.mem_filter.mp second).2)
  refine ⟨⟨?_, ?_⟩, user, head⟩
  · rw [snaps_opened, now]
    exact apart
  · rw [snaps_opened, now]
    exact few_of_spaced bounded close apart

end Run

/-! ## Two recordings -/

/-- Recordings that are their lists of blocks. -/
def listLib : Libspectrum (List Block) where
  blocks blocks := blocks
  alloc := []
  startInput blocks := blocks ++ [.input 0]
  storeFrame := addFrame
  addSnap blocks automatic := blocks ++ [.snap automatic]
  iteratorDelete blocks it := blocks.eraseIdx it
  rollback blocks := upToSnap ((snaps true blocks).length + (snaps false blocks).length - 1) blocks
  rollbackTo blocks which := upToSnap which blocks
  blocks_alloc := rfl
  blocks_startInput _ := rfl
  blocks_storeFrame _ := Option.map_id'
  blocks_addSnap _ _ := rfl
  blocks_iteratorDelete _ _ := rfl
  blocks_rollback _ _ found := ⟨_, found⟩
  blocks_rollbackTo _ _ _ found := found

/-- The first frames of a recording. -/
def firstFrames (n : Nat) : Recorder (List Block) where
  rzx := [.input n]
  recording := true
  competitionMode := false
  rzxAutosaves := true
  autosaveFrameCount := n
  autosavePending := n = autosaveInterval

theorem firstFrames_run {n : Nat} (few : n ≤ autosaveInterval) :
    RunTo listLib (.start false false :: List.replicate n (.frame false)) (firstFrames n) := by
  induction n with
  | zero => exact .snoc .nil True.intro rfl
  | succ n ih =>
    have before := ih (Nat.le_of_succ_le few)
    have early : n ≠ autosaveInterval := Nat.ne_of_lt few
    rw [List.replicate_succ', ← List.cons_append]
    refine .snoc before ?_ ?_
    · intro _
      exact ⟨decide_eq_false early, .inr rfl⟩
    · have due : (n + 1) % autosaveInterval = 0 ↔ n + 1 = autosaveInterval := by
        unfold autosaveInterval at few ⊢
        omega
      simp [Recorder.step, Recorder.rzxRecordingFrame, Recorder.autosaveFrame, firstFrames, listLib, addFrame,
        early, due]

theorem spaced_run_first :
    let after := (Recorder.step listLib (firstFrames 250) (.interruptComplete false)).rzx
    Thin after ∧ snaps false after = [] ∧ (snaps true after).head? = some 250 :=
  spaced_run (firstFrames_run (Nat.le_refl 250)) rfl rfl

/-- The interval passes, and the snapshot is taken. -/
def autosave : List (Event (List Block)) :=
  List.replicate 250 (.frame false) ++ [.interruptComplete false]

/-- After three snapshots the setting is off for 100 frames. -/
def toggled : List (Event (List Block)) :=
  .start false false :: (autosave ++ autosave ++ autosave) ++
    (.setAutosaves false :: List.replicate 100 (.frame false) ++ [.setAutosaves true]) ++ autosave ++ autosave

/-- Two snapshots older than 15 seconds are 250 frames apart. -/
theorem toggled_close :
    ¬Thin (toggled.foldl (Recorder.step listLib) (initial listLib)).rzx := by
  intro thin
  have spaced := thin.spaced 750 (by decide)
  exact absurd spaced (by decide +kernel)

end FuseX.Rzx.Autosave
