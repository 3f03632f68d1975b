import FuseX.Xfs.OverlayNamespace
import Mathlib.Algebra.Ring.Nat

/-!
# The cursor of an overlay directory

`overlay_opendir` merges the layers' listings once; a handle then goes through the merged
records, with the parent's `..` in front. `overlay_telldir` gives the position among the merged
records as a number of 32 bits, and `overlay_seekdir` puts the handle there, behind the `..`.

`cursorStep` is one call on an open directory. `remaining` is what a handle has still to give;
`readdirUpTo_eq` says that the calls of `overlay_readdir` give just that, in order.
-/

namespace FuseX.Xfs

open Lib

/-! ## Calls on an open directory -/

/-- `overlay_telldir`. -/
def overlayTelldir (handle : OverlayDirHandle) : UInt32 :=
  UInt32.ofNat handle.position

/-- `overlay_seekdir`; none is `INVAL`. -/
def overlaySeekdir (position : UInt32) (handle : OverlayDirHandle) : Option OverlayDirHandle :=
  if handle.entries.length < position.toNat then none
  else some { handle with position := position.toNat, parentEmitted := true }

inductive CursorAct : Type
  | readdir
  | telldir
  | seekdir (position : UInt32)

/-- The handle after a call; a seek that is refused leaves it as it was. -/
def cursorStep (handle : OverlayDirHandle) : CursorAct → OverlayDirHandle
  | .readdir => (overlayReaddir handle).2
  | .telldir => handle
  | .seekdir position => (overlaySeekdir position handle).getD handle

/-- The handle after so many calls of `overlay_readdir`. -/
def readdirs : Nat → OverlayDirHandle → OverlayDirHandle
  | 0, handle => handle
  | calls + 1, handle => readdirs calls (overlayReaddir handle).2

/-! ## What a handle has still to give -/

def remaining (handle : OverlayDirHandle) : List XfsStatInfo :=
  (if handle.parentEmitted then [] else [overlayEmitParent]) ++
    handle.entries.drop handle.position

theorem readdirUpTo_eq (calls : Nat) {handle : OverlayDirHandle}
    (start : handle.parentEmitted = false → handle.position = 0) :
    readdirUpTo calls handle = (remaining handle).take calls := by
  induction calls generalizing handle with
  | zero => rfl
  | succ calls ih =>
    rcases handle with ⟨entries, position, _ | _⟩
    · cases start rfl
      have rest : readdirUpTo calls { entries := entries, position := 0, parentEmitted := true }
          = _ := ih nofun
      exact congrArg (overlayEmitParent :: ·) rest
    · have rest : ∀ next,
          readdirUpTo calls { entries := entries, position := next, parentEmitted := true }
            = (entries.drop next).take calls := fun next => ih nofun
      rw [readdirUpTo, overlayReaddir]
      by_cases inside : position < entries.length
      · have here : entries[position]? = some entries[position] :=
          List.getElem?_eq_getElem inside
        have next := rest (position + 1)
        simp only [Bool.not_true, Bool.false_eq_true, if_false, here, next]
        rw [remaining, if_pos rfl, List.nil_append, List.drop_eq_getElem_cons inside]
        rfl
      · have here : entries[position]? = none := List.getElem?_eq_none (by omega)
        simp only [Bool.not_true, Bool.false_eq_true, if_false, here]
        rw [remaining, if_pos rfl, List.nil_append,
          List.drop_eq_nil_of_le (Nat.le_of_not_lt inside)]
        rfl

/-! ## The merged names -/

def IsDots (name : CString) : Prop := name = [dot] ∨ name = [dot, dot]

/-- A name some available layer lists for the directory. -/
def Listed (layers : List OverlayLayer) (path : List Name) (name : CString) : Prop :=
  ∃ layer ∈ layers, overlayLayerAvailable layer ∧
    ∃ infos, layer.opendir path = .ok infos ∧ ∃ info ∈ infos, info.name = name

/-- One record puts its name into the cache, if it is not there and no dots. -/
theorem names_step {o : Overlay} {path : List Name} {cached merged : List XfsStatInfo}
    {info : XfsStatInfo} (ok : overlayCacheReaddirEntry o path cached info = .ok merged)
    (name : CString) :
    name ∈ merged.map (·.name) ↔
      name ∈ cached.map (·.name) ∨ info.name = name ∧ ¬ IsDots name := by
  rw [overlayCacheReaddirEntry] at ok
  split at ok
  · next dots =>
    cases ok
    exact ⟨.inl, fun either => either.elim id fun new => absurd (new.1 ▸ dots) new.2⟩
  · next plain =>
    split at ok
    · next seen =>
      cases ok
      refine ⟨.inl, fun either => either.elim id fun new => ?_⟩
      rw [overlayCachedNameSeen, List.any_eq_true] at seen
      obtain ⟨held, member, same⟩ := seen
      exact List.mem_map.mpr ⟨held, member, (of_decide_eq_true same).trans new.1⟩
    · have appended : ∃ kept : XfsStatInfo, merged = cached ++ [kept] ∧ kept.name = info.name := by
        split at ok
        · split at ok
          · cases ok
          · cases ok
            exact ⟨_, rfl, by split <;> rfl⟩
        · cases ok
          exact ⟨info, rfl, rfl⟩
      obtain ⟨kept, rfl, same⟩ := appended
      rw [List.map_append, List.mem_append, List.map_singleton, List.mem_singleton, same]
      refine or_congr_right ⟨fun named => ⟨named.symm, ?_⟩, fun new => new.1.symm⟩
      rw [named]
      exact plain

theorem names_all {o : Overlay} {path : List Name} {infos cached merged : List XfsStatInfo}
    (ok : overlayCacheAll o path cached infos = .ok merged) (name : CString) :
    name ∈ merged.map (·.name) ↔
      name ∈ cached.map (·.name) ∨ (∃ info ∈ infos, info.name = name) ∧ ¬ IsDots name := by
  induction infos generalizing cached with
  | nil =>
    cases ok
    exact ⟨.inl, fun either => either.elim id fun new => absurd new.1 (by simp)⟩
  | cons info infos ih =>
    rw [overlayCacheAll] at ok
    split at ok
    · next next_ step =>
      rw [ih ok, names_step step, or_assoc]
      refine or_congr_right ⟨?_, ?_⟩
      · rintro (⟨here, plain⟩ | ⟨⟨later, member, named⟩, plain⟩)
        · exact ⟨⟨info, List.mem_cons_self, here⟩, plain⟩
        · exact ⟨⟨later, List.mem_cons_of_mem _ member, named⟩, plain⟩
      · rintro ⟨⟨some_, member, named⟩, plain⟩
        rcases List.mem_cons.mp member with rfl | later
        · exact .inl ⟨named, plain⟩
        · exact .inr ⟨⟨some_, later, named⟩, plain⟩
    · cases ok

theorem Listed.cons {layers : List OverlayLayer} {layer : OverlayLayer} {path : List Name}
    {name : CString} : Listed (layer :: layers) path name ↔
      (overlayLayerAvailable layer ∧ ∃ infos, layer.opendir path = .ok infos ∧
        ∃ info ∈ infos, info.name = name) ∨ Listed layers path name := by
  rw [Listed, List.exists_mem_cons_iff]
  rfl

/-- The scan merges the names that the layers list. -/
theorem names_scan {o : Overlay} {path : List Name} {layers : List OverlayLayer} {openedAny : Bool}
    {cached merged : List XfsStatInfo}
    (ok : overlayScanDir o path layers openedAny cached = .ok merged) (name : CString) :
    name ∈ merged.map (·.name) ↔
      name ∈ cached.map (·.name) ∨ Listed layers path name ∧ ¬ IsDots name := by
  induction layers generalizing openedAny cached with
  | nil =>
    rw [overlayScanDir] at ok
    split at ok
    · cases ok
      refine ⟨.inl, fun either => either.elim id fun new => ?_⟩
      obtain ⟨layer, member, -⟩ := new.1
      cases member
    · cases ok
  | cons layer layers ih =>
    rw [overlayScanDir] at ok
    split at ok
    · next available =>
      split at ok
      · next missing =>
        rw [ih ok, Listed.cons]
        refine or_congr_right (and_congr_left' ⟨.inr, fun either => either.elim (fun here => ?_) id⟩)
        obtain ⟨-, infos, opened, -⟩ := here
        rw [missing] at opened
        cases opened
      · cases ok
      · next infos opened =>
        split at ok
        · next next_ all =>
          rw [ih ok, names_all all, Listed.cons, or_assoc]
          refine or_congr_right ⟨?_, ?_⟩
          · rintro (⟨here, plain⟩ | ⟨below, plain⟩)
            · exact ⟨.inl ⟨available, infos, opened, here⟩, plain⟩
            · exact ⟨.inr below, plain⟩
          · rintro ⟨⟨-, other, same, here⟩ | below, plain⟩
            · rw [opened] at same
              cases same
              exact .inl ⟨here, plain⟩
            · exact .inr ⟨below, plain⟩
        · cases ok
    · next unavailable =>
      rw [ih ok, Listed.cons]
      refine or_congr_right (and_congr_left' ⟨.inr, fun either => either.elim (fun here => ?_) id⟩)
      exact absurd here.1 unavailable

theorem nodup_scan {o : Overlay} {path : List Name} {layers : List OverlayLayer} {openedAny : Bool}
    {cached merged : List XfsStatInfo} (cacheOk : CacheOk cached)
    (ok : overlayScanDir o path layers openedAny cached = .ok merged) : CacheOk merged := by
  induction layers generalizing openedAny cached with
  | nil =>
    rw [overlayScanDir] at ok
    split at ok
    · cases ok
      exact cacheOk
    · cases ok
  | cons layer layers ih =>
    rw [overlayScanDir] at ok
    split at ok
    · split at ok
      · exact ih cacheOk ok
      · cases ok
      · split at ok
        · next next_ all => exact ih (cacheOk.all all) ok
        · cases ok
    · exact ih cacheOk ok

/-- What an opened directory lists: the parent, then each merged name once. -/
structure ListsMerged (o : Overlay) (path : List Name) (start : OverlayDirHandle) : Prop where
  inOrder : ∀ calls, readdirUpTo calls start = (overlayEmitParent :: start.entries).take calls
  once : (start.entries.map (·.name)).Nodup
  merged : ∀ name, name ∈ start.entries.map (·.name) ↔ Listed o.layers path name ∧ ¬ IsDots name

theorem listsMerged {o : Overlay} {path : List Name} {start : OverlayDirHandle}
    (opened : overlayOpendir o path = .ok start) : ListsMerged o path start := by
  rw [overlayOpendir] at opened
  split at opened
  · next entries scan =>
    cases opened
    have empty : CacheOk [] := ⟨List.nodup_nil, fun info member => absurd member List.not_mem_nil⟩
    refine ⟨fun calls => readdirUpTo_eq calls fun _ => rfl, (nodup_scan empty scan).nodup,
      fun name => ?_⟩
    rw [names_scan scan]
    exact ⟨fun either => either.elim (fun none_ => absurd none_ List.not_mem_nil) id, .inr⟩
  · cases opened

/-! ## Reachable handles -/

/-- Where a handle can be: among its records, and at the first before the `..` is given. -/
structure CursorInv (entries : List XfsStatInfo) (handle : OverlayDirHandle) : Prop where
  entries : handle.entries = entries
  within : handle.position ≤ handle.entries.length
  start : handle.parentEmitted = false → handle.position = 0

theorem CursorInv.readdir {entries : List XfsStatInfo} {handle : OverlayDirHandle}
    (inv : CursorInv entries handle) : CursorInv entries (overlayReaddir handle).2 := by
  rw [overlayReaddir]
  split
  · exact ⟨inv.entries, inv.within, fun not => Bool.noConfusion not⟩
  · next emitted =>
    cases here : handle.entries[handle.position]? with
    | none => exact inv
    | some info =>
      obtain ⟨inside, -⟩ := List.getElem?_eq_some_iff.mp here
      refine ⟨inv.entries, inside, fun not => ?_⟩
      have given : handle.parentEmitted = false := not
      rw [given] at emitted
      exact absurd rfl emitted

theorem CursorInv.seekdir {entries : List XfsStatInfo} {handle : OverlayDirHandle}
    (inv : CursorInv entries handle) (position : UInt32) :
    CursorInv entries ((overlaySeekdir position handle).getD handle) := by
  rw [overlaySeekdir]
  split
  · exact inv
  · next within => exact ⟨inv.entries, Nat.le_of_not_lt within, fun not => Bool.noConfusion not⟩

theorem CursorInv.run {entries : List XfsStatInfo} {handle : OverlayDirHandle}
    (inv : CursorInv entries handle) (acts : List CursorAct) :
    CursorInv entries (acts.foldl cursorStep handle) := by
  induction acts generalizing handle with
  | nil => exact inv
  | cons act acts ih =>
    cases act with
    | readdir => exact ih inv.readdir
    | telldir => exact ih inv
    | seekdir position => exact ih (inv.seekdir position)

theorem CursorInv.readdirs {entries : List XfsStatInfo} {handle : OverlayDirHandle}
    (inv : CursorInv entries handle) (calls : Nat) :
    CursorInv entries (readdirs calls handle) := by
  induction calls generalizing handle with
  | zero => exact inv
  | succ calls ih => exact ih inv.readdir

/-! ## Telling and seeking -/

/-- After a `telldir`, whatever is read further, a `seekdir` to the told position brings back
what was to be read. -/
def Restores (handle : OverlayDirHandle) : Prop :=
  ∀ further, ∃ restored,
    overlaySeekdir (overlayTelldir handle) (readdirs further handle) = some restored ∧
      ∀ calls, readdirUpTo calls restored = readdirUpTo calls handle

theorem take_injective {α : Type} {xs ys : List α} (same : ∀ n, xs.take n = ys.take n) :
    xs = ys := by
  have whole := same (xs.length + ys.length)
  rwa [List.take_of_length_le (Nat.le_add_right _ _),
    List.take_of_length_le (Nat.le_add_left _ _)] at whole

theorem telldir_toNat (handle : OverlayDirHandle) :
    (overlayTelldir handle).toNat = handle.position % 2 ^ 32 :=
  UInt32.toNat_ofNat'

/-- The handle that a seek to the told position gives. -/
theorem seekdir_told {entries : List XfsStatInfo} {handle : OverlayDirHandle}
    (inv : CursorInv entries handle) (further : Nat) :
    overlaySeekdir (overlayTelldir handle) (readdirs further handle)
      = some { entries := entries, position := handle.position % 2 ^ 32, parentEmitted := true } := by
  have later := inv.readdirs further
  have low : handle.position % 2 ^ 32 ≤ handle.position := Nat.mod_le _ _
  have within := inv.within
  rw [overlaySeekdir, later.entries, telldir_toNat, if_neg]
  rw [inv.entries] at within
  omega

theorem restores_iff {entries : List XfsStatInfo} {handle : OverlayDirHandle}
    (inv : CursorInv entries handle) :
    Restores handle ↔ handle.parentEmitted = true ∧ handle.position < 2 ^ 32 := by
  have reads : ∀ calls, readdirUpTo calls handle = (remaining handle).take calls :=
    fun calls => readdirUpTo_eq calls inv.start
  have restored : ∀ calls, readdirUpTo calls
      { entries := entries, position := handle.position % 2 ^ 32, parentEmitted := true }
        = (entries.drop (handle.position % 2 ^ 32)).take calls :=
    fun calls => readdirUpTo_eq calls nofun
  constructor
  · intro restores
    obtain ⟨handle', sought, same⟩ := restores 0
    rw [seekdir_told inv] at sought
    cases sought
    have whole : entries.drop (handle.position % 2 ^ 32) = remaining handle :=
      take_injective fun calls => by rw [← restored, same, reads]
    have lengths := congrArg List.length whole
    have within := inv.within
    have low : handle.position % 2 ^ 32 ≤ handle.position := Nat.mod_le _ _
    rw [remaining, inv.entries, List.length_append, List.length_drop, List.length_drop] at lengths
    rw [inv.entries] at within
    cases emitted : handle.parentEmitted with
    | false =>
      -- the `..` is still to come, and the seek passes over it
      rw [emitted, inv.start emitted] at lengths
      simp at lengths
    | true =>
      refine ⟨rfl, ?_⟩
      rw [emitted, if_pos rfl, List.length_nil] at lengths
      have same : handle.position % 2 ^ 32 = handle.position := by omega
      rw [← same]
      exact Nat.mod_lt _ (by decide)
  · rintro ⟨emitted, short⟩ further
    refine ⟨_, seekdir_told inv further, fun calls => ?_⟩
    rw [restored, reads, remaining, emitted, if_pos rfl, List.nil_append, inv.entries,
      Nat.mod_eq_of_lt short]

/-- An opened directory lists the parent and each merged name once; from a handle that any
calls lead to, the told position brings back what was to be read just when the parent has been
given (and the position has room in 32 bits). -/
theorem overlay_cursor_iff {o : Overlay} {path : List Name} {start : OverlayDirHandle}
    (opened : overlayOpendir o path = .ok start) :
    ListsMerged o path start ∧ ∀ acts : List CursorAct,
      (Restores (acts.foldl cursorStep start) ↔
        (acts.foldl cursorStep start).parentEmitted = true ∧
          (acts.foldl cursorStep start).position < 2 ^ 32) := by
  have first : CursorInv start.entries start := by
    rw [overlayOpendir] at opened
    split at opened
    · cases opened
      exact ⟨rfl, Nat.zero_le _, fun _ => rfl⟩
    · cases opened
  exact ⟨listsMerged opened, fun acts => restores_iff (first.run acts)⟩

/-- A host directory with the file `b`, which the image has too. -/
def directoryB : Overlay :=
  hostOverImage (.dir [(nameA, .dir [(nameB, .file [1, 2])])]) imageAB

theorem overlay_cursor_directoryB : ∃ start, overlayOpendir directoryB [nameA] = .ok start ∧
    Restores ([CursorAct.readdir, .readdir].foldl cursorStep start) := by
  have opened : overlayOpendir directoryB [nameA]
      = .ok { entries := [fsStatInfo (.file [1, 2]) [98]] } := rfl
  exact ⟨_, opened, ((overlay_cursor_iff opened).2 _).mpr (by decide)⟩

/-- Told before the first call, the position brings back the listing without its parent. -/
theorem overlay_cursor_loses_parent : ∃ start restored,
    overlayOpendir directoryB [nameA] = .ok start ∧
      overlaySeekdir (overlayTelldir start) (readdirs 1 start) = some restored ∧
        (readdirUpTo 1 start).map (·.name) = [[dot, dot]] ∧
          (readdirUpTo 1 restored).map (·.name) = [nameB.val] :=
  ⟨_, _, rfl, rfl, by decide, by decide⟩

end FuseX.Xfs
