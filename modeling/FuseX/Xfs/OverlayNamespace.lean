import FuseX.Xfs.OverlayUnion

/-!
# Removing and renaming in the merged tree

`overlay_unlink`, `overlay_rmdir` and `overlay_rename` act on the one layer that
answers for the path. There is no mark that hides a lower layer, so what a
request does to the visible tree depends on the other layers:

* a removed path shows what the layers below show there (`RemovalEffect`);
* a renamed path does so too, and the new path shows the moved object unless a
  layer above the one that was asked shows something there (`RenameEffect`);
* a request that fails changes nothing.
-/

namespace FuseX.Xfs

open Lib

/-! ## The statement -/

/-- `stat` and `open` find no entry; for writing, an image answers for itself. -/
structure Gone (o : Overlay) (path : List Name) : Prop where
  stat : ∃ err, overlayStat o path = .error err ∧ NoEntry err
  openFile : ∀ flags, hasFlag flags xfsOCreat = false →
    ∃ err, (overlayOpen o path flags).1 = .error err ∧ (NoEntry err ∨ err = .errno 100)

/-- `stat` reports the kind and size of `object`. -/
def Appears (o : Overlay) (path : List Name) (object : LayerObject) : Prop :=
  ∃ info, overlayStat o path = .ok info ∧ info.type = object.type ∧ info.size = object.size

/-- The path now shows what the layers `below` show. -/
structure FallsTo (below : List OverlayLayer) (o : Overlay) (path : List Name) : Prop where
  shown : shownIn o.layers path = shownIn below path
  gone : shownIn below path = none → Gone o path
  appears : ∀ object, shownIn below path = some object → Appears o path object

/-- What a request to remove `path` does. -/
structure RemovalEffect (o : Overlay) (path : List Name)
    (result : Except XfsError Unit × Overlay) : Prop where
  failed : ∀ err, result.1 = .error err → result.2 = o
  removed : result.1 = .ok () → ∃ above layer after below,
    o.layers = above ++ layer :: below ∧ Answers path above layer ∧
    result.2.layers = above ++ after :: below ∧ FallsTo below result.2 path

/-- What a request to rename `old` to `new` does. -/
structure RenameEffect (o : Overlay) (old new : List Name)
    (result : Except XfsError Unit × Overlay) : Prop where
  failed : ∀ err, result.1 = .error err → result.2 = o
  same : result.1 = .ok () → old = new → result.2 = o
  renamed : result.1 = .ok () → old ≠ new → ∃ above layer after below,
    o.layers = above ++ layer :: below ∧ Answers old above layer ∧
    result.2.layers = above ++ after :: below ∧ FallsTo below result.2 old ∧
    shownIn result.2.layers new = (shownIn above new).or (shownIn o.layers old) ∧
    ∀ object, shownIn result.2.layers new = some object → Appears result.2 new object

/-! ## The host -/

namespace Posix

variable {host after : HostNode}

/-- Taking out the last name of a path that leads somewhere. -/
theorem walk_remove_last {parent : List Name} {name : Name} {node : HostNode}
    (found : host.walk (parent ++ [name]) = .ok node) :
    (host.remove parent name).walk (parent ++ [name]) = .error .missing := by
  obtain ⟨above, reached, below⟩ := Tree.walk_prefix found
  cases above with
  | file content => cases below
  | dir entries => exact Tree.walk_remove_self name reached

theorem path_of_getLast? {path : List Name} {name : Name} (last : path.getLast? = some name) :
    path = path.dropLast ++ [name] := by
  obtain ⟨front, rfl⟩ := List.getLast?_eq_some_iff.mp last
  simp

theorem unlink_ok {path : List Name} (ok : unlink host path = .ok after) :
    after.walk path = .error .missing := by
  rw [unlink] at ok
  split at ok
  · next name content last found =>
    cases ok
    have splits := path_of_getLast? last
    rw [lookup_eq_ok, splits] at found
    have absent := walk_remove_last found
    rwa [← splits] at absent
  all_goals cases ok

theorem rmdir_ok {path : List Name} (ok : rmdir host path = .ok after) :
    after.walk path = .error .missing := by
  rw [rmdir] at ok
  split at ok
  · next name last found =>
    cases ok
    have splits := path_of_getLast? last
    rw [lookup_eq_ok, splits] at found
    have absent := walk_remove_last found
    rwa [← splits] at absent
  all_goals cases ok

/-- A rename to another path moves the node: the loops it excludes are what keeps
the removal of the old path and the placement at the new one apart. -/
theorem rename_ok {old new : List Name} (ok : rename host old new = .ok after) :
    (old = new ∧ after = host) ∨
    (old ≠ new ∧ ∃ node, host.walk old = .ok node ∧ after.walk old = .error .missing ∧
      after.walk new = .ok node) := by
  rw [rename] at ok
  split at ok
  swap
  · cases ok
  next oldName newName oldLast newLast =>
  have oldSplits := path_of_getLast? oldLast
  have newSplits := path_of_getLast? newLast
  cases found : lookup host old with
  | error err => rw [found] at ok; cases ok
  | ok source =>
    rw [lookup_eq_ok] at found
    cases parent : lookup host new.dropLast with
    | error err => simp [lookup_eq_ok.mpr found, parent, bind, Except.bind] at ok
    | ok above =>
      simp only [lookup_eq_ok.mpr found, parent, bind, Except.bind] at ok
      cases above with
      | file content => cases ok
      | dir entries =>
        dsimp only at ok
        split at ok
        · next same =>
          cases ok
          exact .inl ⟨same, rfl⟩
        next different =>
        split at ok
        · cases ok
        next newNotUnder =>
        split at ok
        · cases ok
        next oldNotUnder =>
        cases allowed : replaceable source (entries.lookup newName) with
        | error err => rw [allowed] at ok; cases ok
        | ok _ =>
          rw [allowed] at ok
          cases ok
          have aboveOld : ¬ old <+: new.dropLast := fun under =>
            newNotUnder (under.trans (List.dropLast_prefix new))
          refine .inr ⟨different, source, found, ?_, ?_⟩
          · rw [Tree.walk_place_apart source (newSplits ▸ oldNotUnder) aboveOld]
            rw [oldSplits] at found
            have absent := walk_remove_last found
            rwa [← oldSplits] at absent
          · rw [lookup_eq_ok] at parent
            have apart : ¬ old.dropLast ++ [oldName] <+: new.dropLast := oldSplits ▸ aboveOld
            obtain ⟨kept, reached, isDir⟩ := Tree.walk_remove_apart apart parent
            cases kept with
            | file content => cases isDir
            | dir left =>
              have placed := Tree.walk_place_self newName source reached
              rwa [← newSplits] at placed

end Posix

/-! ## One layer -/

/-- What a request does to a layer: nothing if it fails. -/
structure LayerStep (layer : OverlayLayer) (result : Except XfsError Unit × OverlayLayer) :
    Prop where
  failed : ∀ err, result.1 = .error err → result.2 = layer
  mounted : result.2.mounted = layer.mounted

theorem LayerStep.refused {layer : OverlayLayer} {err : XfsError} :
    LayerStep layer (.error err, layer) :=
  ⟨fun _ _ => rfl, rfl⟩

theorem LayerStep.finish {layer : OverlayLayer} {mount : FsMount}
    (engine : layer.engine = .ram mount) (result : Except XfsError HostNode) :
    LayerStep layer (layer.finish (mount.finish result)) := by
  cases result with
  | ok host =>
    refine ⟨fun err failed => ?_, rfl⟩
    cases failed
  | error err =>
    refine ⟨fun _ _ => ?_, rfl⟩
    rcases layer with ⟨layerEngine, mounted⟩
    cases engine
    rfl

/-- A layer whose host has nothing at a path holds nothing there. -/
theorem object_finish_of_missing {layer : OverlayLayer} {mount : FsMount} {after : HostNode}
    {path : List Name} {err : WalkError}
    (missing : after.walk (buildPath mount path) = .error err) :
    (layer.finish (mount.finish (.ok after))).2.object path = none := by
  have missing' : after.walk (buildPath { mount with host := after } path) = .error err := missing
  simp only [OverlayLayer.object, OverlayLayer.finish, FsMount.finish, missing']

theorem object_finish_of_found {layer : OverlayLayer} {mount : FsMount} {after node : HostNode}
    {path : List Name} (found : after.walk (buildPath mount path) = .ok node) :
    (layer.finish (mount.finish (.ok after))).2.object path = some (.node node) := by
  have found' : after.walk (buildPath { mount with host := after } path) = .ok node := found
  simp only [OverlayLayer.object, OverlayLayer.finish, FsMount.finish, found']

/-- A request that, if it succeeds, leaves nothing at the path. -/
structure Removes (request : OverlayLayer → List Name → Except XfsError Unit × OverlayLayer) :
    Prop where
  step : ∀ layer path, LayerStep layer (request layer path)
  absent : ∀ layer path, (request layer path).1 = .ok () →
    (request layer path).2.object path = none

theorem removes_unlink : Removes OverlayLayer.unlink := by
  constructor
  · intro layer path
    cases engine : layer.engine with
    | ram mount =>
      simp only [OverlayLayer.unlink, engine, fsUnlink]
      exact LayerStep.finish engine _
    | romfs image =>
      simp only [OverlayLayer.unlink, engine]
      exact LayerStep.refused
  · intro layer path ok
    cases engine : layer.engine with
    | ram mount =>
      simp only [OverlayLayer.unlink, engine, fsUnlink] at ok ⊢
      cases result : Posix.unlink mount.host (buildPath mount path) with
      | error err => rw [result] at ok; cases ok
      | ok after => exact object_finish_of_missing (Posix.unlink_ok result)
    | romfs image =>
      simp only [OverlayLayer.unlink, engine] at ok
      cases ok

theorem removes_rmdir : Removes OverlayLayer.rmdir := by
  constructor
  · intro layer path
    cases engine : layer.engine with
    | ram mount =>
      simp only [OverlayLayer.rmdir, engine, fsRmdir]
      exact LayerStep.finish engine _
    | romfs image =>
      simp only [OverlayLayer.rmdir, engine]
      exact LayerStep.refused
  · intro layer path ok
    cases engine : layer.engine with
    | ram mount =>
      simp only [OverlayLayer.rmdir, engine, fsRmdir] at ok ⊢
      cases result : Posix.rmdir mount.host (buildPath mount path) with
      | error err => rw [result] at ok; cases ok
      | ok after => exact object_finish_of_missing (Posix.rmdir_ok result)
    | romfs image =>
      simp only [OverlayLayer.rmdir, engine] at ok
      cases ok

theorem layerStep_rename (layer : OverlayLayer) (old new : List Name) :
    LayerStep layer (layer.rename old new) := by
  cases engine : layer.engine with
  | ram mount =>
    simp only [OverlayLayer.rename, engine, fsRename]
    exact LayerStep.finish engine _
  | romfs image =>
    simp only [OverlayLayer.rename, engine]
    exact LayerStep.refused

/-- A layer's rename to the same path changes nothing; to another it moves the
object. -/
theorem rename_layer_ok {layer : OverlayLayer} {old new : List Name}
    (ok : (layer.rename old new).1 = .ok ()) :
    (old = new ∧ (layer.rename old new).2 = layer) ∨
    (old ≠ new ∧ (layer.rename old new).2.object old = none ∧
      (layer.rename old new).2.object new = layer.object old) := by
  cases engine : layer.engine with
  | romfs image =>
    simp only [OverlayLayer.rename, engine] at ok
    cases ok
  | ram mount =>
    simp only [OverlayLayer.rename, engine, fsRename] at ok ⊢
    cases result : Posix.rename mount.host (buildPath mount old) (buildPath mount new) with
    | error err => rw [result] at ok; cases ok
    | ok after =>
      rcases Posix.rename_ok result with ⟨same, rfl⟩ | ⟨different, node, found, gone, moved⟩
      · refine .inl ⟨List.append_cancel_left same, ?_⟩
        rcases layer with ⟨layerEngine, mounted⟩
        cases engine
        rfl
      · refine .inr ⟨fun same => different (same ▸ rfl), object_finish_of_missing gone, ?_⟩
        rw [object_finish_of_found moved]
        simp only [OverlayLayer.object, engine, found]

/-! ## The stack -/

/-- A layer of the stack, asked in its place. -/
theorem onLayer_at {o : Overlay} {above below : List OverlayLayer} {layer : OverlayLayer}
    (layers : o.layers = above ++ layer :: below)
    (request : OverlayLayer → Except XfsError Unit × OverlayLayer) :
    (o.onLayer above.length request).1 = (request layer).1 ∧
      (o.onLayer above.length request).2.layers = above ++ (request layer).2 :: below := by
  have place : o.layers[above.length]? = some layer := by simp [layers]
  rw [Overlay.onLayer, place]
  refine ⟨rfl, ?_⟩
  simp [Overlay.setLayer, layers]

theorem eq_of_layers_eq {o o' : Overlay} (layers : o.layers = o'.layers)
    (defaultLayer : o.defaultLayer = o'.defaultLayer) : o = o' := by
  cases o
  cases o'
  cases layers
  cases defaultLayer
  rfl

/-- A request that leaves its layer as it was leaves the stack as it was. -/
theorem onLayer_unchanged {o : Overlay} {above below : List OverlayLayer} {layer : OverlayLayer}
    (layers : o.layers = above ++ layer :: below)
    {request : OverlayLayer → Except XfsError Unit × OverlayLayer}
    (unchanged : (request layer).2 = layer) : (o.onLayer above.length request).2 = o := by
  refine eq_of_layers_eq ?_ ?_
  · rw [(onLayer_at layers request).2, unchanged, layers]
  · rw [Overlay.onLayer]
    split <;> rfl

theorem openFile_of_object_none {layer : OverlayLayer} {path : List Name} {flags : UInt32}
    (mounted : layer.mounted) (fits : PathFits path) (creat : hasFlag flags xfsOCreat = false)
    (absent : layer.object path = none) :
    ∃ err, (layer.openFile path flags).1 = .error err ∧ (NoEntry err ∨ err = .errno 100) := by
  cases engine : layer.engine with
  | ram mount =>
    simp only [OverlayLayer.object, engine] at absent
    simp only [OverlayLayer.openFile, engine, fsOpen]
    cases missed : Posix.lookup mount.host (buildPath mount path) with
    | ok node =>
      rw [Posix.lookup_eq_ok.mp missed] at absent
      cases absent
    | error err =>
      have nowhere := Posix.noEntry_of_lookup missed
      rw [Posix.openFile, missed, creat]
      rcases nowhere with rfl | rfl
      · exact ⟨_, rfl, .inl (.inl rfl)⟩
      · exact ⟨_, rfl, .inl (.inr rfl)⟩
  | romfs image =>
    simp only [OverlayLayer.object, engine] at absent
    simp only [OverlayLayer.openFile, engine, OverlayLayer.romfs_of_mounted mounted, romfsOpen]
    by_cases root : path = []
    · rw [if_pos root] at absent
      cases absent
    · rw [if_neg root, Option.map_eq_none_iff] at absent
      split
      · exact ⟨_, rfl, .inr rfl⟩
      · rw [RamfsImage.ramfsFind_pathText fits root, absent]
        exact ⟨_, rfl, .inl (.inl rfl)⟩

theorem object_of_shownIn_none {layers : List OverlayLayer} {path : List Name}
    (absent : shownIn layers path = none) {layer : OverlayLayer} (member : layer ∈ layers)
    (available : overlayLayerAvailable layer) : layer.object path = none := by
  have hidden := List.findSome?_eq_none_iff.mp absent layer member
  rwa [OverlayLayer.shown_of_available available] at hidden

theorem overlayWriteLayer_available {o : Overlay} {i : Nat} (target : overlayWriteLayer o = some i) :
    ∃ layer, o.layers[i]? = some layer ∧ overlayLayerAvailable layer := by
  have available : (o.layers[i]?).any overlayLayerAvailable := by
    rw [overlayWriteLayer] at target
    dsimp only at target
    split at target
    · next default =>
      cases target
      exact default
    · have chosen := List.find?_some target
      exact (Bool.and_eq_true_iff.mp chosen).2
  cases place : o.layers[i]? with
  | none => rw [place] at available; cases available
  | some layer => exact ⟨layer, rfl, by rwa [place] at available⟩

theorem openOn_error {o : Overlay} {i : Nat} {path : List Name} {flags : UInt32} {err : XfsError}
    (failed : (o.onLayer i (·.openFile path flags)).1 = .error err) :
    (openOn o i path flags).1 = .error err := by
  rw [openOn]
  split
  · next opened ok =>
    rw [ok] at failed
    cases failed
  · next other opened bad =>
    rw [bad] at failed
    cases failed
    rfl

/-- Where the stack shows nothing, `stat` and `open` find no entry. -/
theorem gone_of_not_shown {o : Overlay} {path : List Name} (fits : PathFits path)
    (absent : shownIn o.layers path = none) : Gone o path := by
  refine ⟨overlayStat_of_not_shown fits absent, fun flags creat => ?_⟩
  rw [overlayOpen, creat]
  cases found : overlayFind path o.layers 0 .noent with
  | ok answer =>
    rcases answer with ⟨i, info⟩
    obtain ⟨above, layer, below, layers, -, answers, -⟩ := overlayFind_ok fits found
    have held := answers.holds
    rw [object_of_shownIn_none absent (by simp [layers]) answers.available] at held
    cases held
  | error firstError =>
    have nowhere := (overlayFind_error fits (.inl rfl) found).2
    cases target : overlayWriteLayer o with
    | none => exact ⟨firstError, by simp, .inl nowhere⟩
    | some i =>
      obtain ⟨layer, place, available⟩ := overlayWriteLayer_available target
      have missing := object_of_shownIn_none absent (List.mem_of_getElem? place) available
      obtain ⟨err, failed, kind⟩ := openFile_of_object_none available fits creat missing
      have opened : (o.onLayer i (·.openFile path flags)).1 = .error err := by
        rw [Overlay.onLayer, place]
        exact failed
      exact ⟨err, openOn_error opened, kind⟩

theorem appears_of_shown {o : Overlay} {path : List Name} (fits : PathFits path)
    {object : LayerObject} (shown : shownIn o.layers path = some object) :
    Appears o path object := by
  obtain ⟨info, stat, describes⟩ := overlayStat_of_shown fits shown
  exact ⟨info, stat, Prod.mk.inj describes⟩

/-- A path the asked layer no longer holds shows what the layers below show. -/
theorem fallsTo_of_absent {o : Overlay} {path : List Name} (fits : PathFits path)
    {above below : List OverlayLayer} {after : OverlayLayer}
    (layers : o.layers = above ++ after :: below) (hidden : shownIn above path = none)
    (absent : after.object path = none) : FallsTo below o path := by
  have shown : shownIn o.layers path = shownIn below path := by
    have nothing : after.shown path = none := by
      rw [OverlayLayer.shown]
      split
      · exact absent
      · rfl
    rw [layers, shownIn_append, hidden, shownIn_cons, nothing, Option.none_or, Option.none_or]
  exact ⟨shown, fun none => gone_of_not_shown fits (shown.trans none),
    fun object some => appears_of_shown fits (shown.trans some)⟩

theorem removalEffect {request : OverlayLayer → List Name → Except XfsError Unit × OverlayLayer}
    (removes : Removes request) (o : Overlay) {path : List Name} (fits : PathFits path) :
    RemovalEffect o path (overlayRemove request o path) := by
  have refused : ∀ err, RemovalEffect o path (.error err, o) :=
    fun err => ⟨fun _ _ => rfl, fun ok => by cases ok⟩
  rw [overlayRemove]
  cases found : overlayFind path o.layers 0 .noent with
  | error err => exact refused err
  | ok answer =>
    rcases answer with ⟨i, info⟩
    obtain ⟨above, layer, below, layers, place, answers, -⟩ := overlayFind_ok fits found
    rw [Nat.zero_add] at place
    subst place
    dsimp only
    split
    · exact refused .inval
    have step := removes.step layer path
    obtain ⟨status, after⟩ := onLayer_at layers (request · path)
    constructor
    · intro err failed
      exact onLayer_unchanged layers (step.failed err (status ▸ failed))
    · intro ok
      exact ⟨above, layer, _, below, layers, answers, after, fallsTo_of_absent fits after
        answers.hidden (removes.absent layer path (status ▸ ok))⟩

theorem renameEffect (o : Overlay) {old new : List Name} (fitsOld : PathFits old)
    (fitsNew : PathFits new) : RenameEffect o old new (overlayRename o old new) := by
  rw [overlayRename]
  cases found : overlayFind old o.layers 0 .noent with
  | error err =>
    refine ⟨fun _ _ => rfl, fun _ _ => rfl, ?_⟩
    intro ok
    cases ok
  | ok answer =>
    rcases answer with ⟨i, info⟩
    obtain ⟨above, layer, below, layers, place, answers, -⟩ := overlayFind_ok fitsOld found
    rw [Nat.zero_add] at place
    subst place
    dsimp only
    have step := layerStep_rename layer old new
    obtain ⟨status, after⟩ := onLayer_at layers (·.rename old new)
    constructor
    · intro err failed
      exact onLayer_unchanged layers (step.failed err (status ▸ failed))
    · intro ok same
      rcases rename_layer_ok (status ▸ ok) with ⟨-, unchanged⟩ | ⟨different, -⟩
      · exact onLayer_unchanged layers unchanged
      · exact absurd same different
    · intro ok different
      rcases rename_layer_ok (status ▸ ok) with ⟨same, -⟩ | ⟨-, gone, moved⟩
      · exact absurd same different
      refine ⟨above, layer, _, below, layers, answers, after,
        fallsTo_of_absent fitsOld after answers.hidden gone, ?_,
        fun object => appears_of_shown fitsNew⟩
      have available : overlayLayerAvailable (layer.rename old new).2 :=
        step.mounted.trans answers.available
      obtain ⟨object, held⟩ := Option.isSome_iff_exists.mp answers.holds
      rw [after, shownIn_append, shownIn_cons, OverlayLayer.shown_of_available available, moved,
        layers, answers.shownIn_eq, held, Option.some_or]

/-- A host file no image has. -/
def hostStack : Overlay :=
  hostOverImage (.dir [(nameB, .file [1, 2])]) imageAB

/-- Two host directories: the upper has `b`, the lower has `a`. -/
def twoHosts : Overlay where
  layers := [⟨.ram ⟨.dir [(nameB, .file [1])], []⟩, true⟩,
    ⟨.ram ⟨.dir [(nameA, .file [2, 3])], []⟩, true⟩]
  defaultLayer := 0
  defaultOk := by decide

/-- A host file over a directory of the image. -/
def fileOverDirectory : Overlay :=
  hostOverImage (.dir [(nameA, .file [])]) imageAB

end FuseX.Xfs
