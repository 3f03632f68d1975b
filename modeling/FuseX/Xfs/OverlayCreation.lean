import FuseX.Xfs.OverlayNamespace

/-!
# Creating files and directories through the overlay

`overlay_open` with `XFS_O_CREAT` and `overlay_mkdir` work on the write layer. The open first
makes the parent there if another layer shows it; mkdir does not, and neither looks for the
path itself in the other layers.

* `mkdir_layer` and `openFile_layer` say what a layer makes, `overlayMkdirShadow_spec` and
  `overlayOpen_creates` what the stack does;
* `Creatable` is the state in which the write layer has the parent, or is given it;
* `creation_iff` says for which stacks creation does what the union of the layers promises.
-/

namespace FuseX.Xfs

open Lib

/-! ## The host -/

namespace Posix

variable {host : HostNode} {path : List Name}

/-- The directory in which a path would be made. -/
def ParentDir (host : HostNode) (path : List Name) : Prop :=
  ∃ entries, host.walk path.dropLast = .ok (.dir entries)

/-- A path that leads nowhere has a last name. -/
theorem splits_of_absent {err : WalkError} (absent : host.walk path = .error err) :
    ∃ name, path.getLast? = some name ∧ path = path.dropLast ++ [name] := by
  cases last : path.getLast? with
  | none =>
    rw [List.getLast?_eq_none_iff.mp last] at absent
    simp at absent
  | some name => exact ⟨name, rfl, path_of_getLast? last⟩

/-- In its directory, what leads nowhere is missing. -/
theorem absent_child {err : WalkError} {entries : List (Name × HostNode)} {parent : List Name}
    {name : Name} (found : host.walk parent = .ok (.dir entries))
    (absent : host.walk (parent ++ [name]) = .error err) :
    entries.lookup name = none ∧ err = .missing := by
  rw [Tree.walk_child name found] at absent
  cases held : entries.lookup name with
  | none =>
    rw [held] at absent
    cases absent
    exact ⟨rfl, rfl⟩
  | some node =>
    rw [held] at absent
    cases absent

theorem lookup_of_missing (missing : host.walk path = .error .missing) :
    lookup host path = .error .noent := by
  rw [lookup, missing]

theorem mkdir_exist_iff : mkdir host path = .error .exist ↔ ∃ node, host.walk path = .ok node := by
  cases last : path.getLast? with
  | none =>
    rw [List.getLast?_eq_none_iff.mp last]
    exact ⟨fun _ => ⟨host, Tree.walk_nil host⟩, fun _ => rfl⟩
  | some name =>
    have splits := path_of_getLast? last
    rw [mkdir, last]
    cases found : lookup host path.dropLast with
    | error err =>
      have nowhere := noEntry_of_lookup found
      constructor
      · intro same
        rcases nowhere with rfl | rfl <;> cases same
      · rintro ⟨node, reached⟩
        rw [splits] at reached
        obtain ⟨above, held, -⟩ := Tree.walk_prefix reached
        rw [lookup_eq_ok.mpr held] at found
        cases found
    | ok above =>
      rw [lookup_eq_ok] at found
      cases above with
      | file content =>
        constructor
        · intro same
          cases same
        · rintro ⟨node, reached⟩
          rw [splits] at reached
          obtain ⟨above, held, below⟩ := Tree.walk_prefix reached
          rw [found] at held
          cases held
          cases below
      | dir entries =>
        have child := Tree.walk_child name found
        rw [← splits] at child
        dsimp only
        rw [child]
        cases entries.lookup name with
        | none =>
          constructor
          · intro same
            cases same
          · rintro ⟨node, reached⟩
            cases reached
        | some node => exact ⟨fun _ => ⟨node, rfl⟩, fun _ => rfl⟩

theorem mkdir_of_parentDir {err : WalkError} (absent : host.walk path = .error err)
    (parent : ParentDir host path) :
    ∃ after, mkdir host path = .ok after ∧ after.walk path = .ok (.dir []) := by
  obtain ⟨name, last, splits⟩ := splits_of_absent absent
  obtain ⟨entries, found⟩ := parent
  rw [splits] at absent
  have unlisted := (absent_child found absent).1
  refine ⟨host.place path.dropLast name (.dir []), ?_, ?_⟩
  · rw [mkdir, last]
    dsimp only
    rw [lookup_eq_ok.mpr found]
    dsimp only
    rw [unlisted]
    rfl
  · have placed := Tree.walk_place_self name (.dir []) found
    rwa [← splits] at placed

theorem mkdir_of_no_parentDir {err : WalkError} (absent : host.walk path = .error err)
    (orphan : ¬ ParentDir host path) : ∃ err, mkdir host path = .error err := by
  obtain ⟨name, last, -⟩ := splits_of_absent absent
  rw [mkdir, last]
  dsimp only
  cases found : lookup host path.dropLast with
  | error err => exact ⟨err, rfl⟩
  | ok above =>
    cases above with
    | file content => exact ⟨.notdir, rfl⟩
    | dir entries => exact absurd ⟨entries, lookup_eq_ok.mp found⟩ orphan

theorem openFile_of_parentDir {err : WalkError} {flags : HostOpenFlags} (creat : flags.creat = true)
    (absent : host.walk path = .error err) (parent : ParentDir host path) :
    ∃ after, openFile host path flags = .ok after ∧ after.walk path = .ok (.file []) := by
  obtain ⟨name, last, splits⟩ := splits_of_absent absent
  obtain ⟨entries, found⟩ := parent
  have missing : host.walk path = .error .missing := by
    have child := absent
    rw [splits] at child
    rw [absent, (absent_child found child).2]
  refine ⟨host.place path.dropLast name (.file []), ?_, ?_⟩
  · rw [openFile, lookup_of_missing missing]
    dsimp only
    rw [if_pos creat, last, lookup_eq_ok.mpr found]
  · have placed := Tree.walk_place_self name (.file []) found
    rwa [← splits] at placed

theorem openFile_of_no_parentDir {err : WalkError} {flags : HostOpenFlags}
    (absent : host.walk path = .error err) (orphan : ¬ ParentDir host path) :
    ∃ err, openFile host path flags = .error err := by
  obtain ⟨name, last, -⟩ := splits_of_absent absent
  cases missed : lookup host path with
  | ok node =>
    rw [lookup_eq_ok.mp missed] at absent
    cases absent
  | error err =>
    rcases noEntry_of_lookup missed with rfl | rfl
    · rw [openFile, missed]
      dsimp only
      split
      · rw [last]
        cases found : lookup host path.dropLast with
        | error err => exact ⟨err, rfl⟩
        | ok above =>
          cases above with
          | file content => exact ⟨.notdir, rfl⟩
          | dir entries => exact absurd ⟨entries, lookup_eq_ok.mp found⟩ orphan
      · exact ⟨.noent, rfl⟩
    · rw [openFile, missed]
      exact ⟨.notdir, rfl⟩

/-- Without `O_TRUNC`, what is there stays. -/
theorem openFile_held {node : HostNode} {flags : HostOpenFlags} (trunc : flags.trunc = false)
    (found : host.walk path = .ok node) :
    openFile host path flags = .ok host ∨ ∃ err, openFile host path flags = .error err := by
  rw [openFile, lookup_eq_ok.mpr found, trunc]
  cases node with
  | file content => exact .inl rfl
  | dir entries =>
    dsimp only
    split
    · exact .inr ⟨.isdir, rfl⟩
    · exact .inl rfl

end Posix

/-! ## One layer -/

namespace OverlayLayer

variable {layer : OverlayLayer} {path : List Name}

def IsHost (layer : OverlayLayer) : Prop := ∃ mount, layer.engine = .ram mount

/-- A host layer with the directory in which the path would be made. -/
def ParentDir (layer : OverlayLayer) (path : List Name) : Prop :=
  ∃ mount, layer.engine = .ram mount ∧ Posix.ParentDir mount.host (buildPath mount path)

def HoldsDir (layer : OverlayLayer) (path : List Name) : Prop :=
  ∃ object, layer.object path = some object ∧ object.type = .dir

theorem walk_of_object_none {mount : FsMount} (engine : layer.engine = .ram mount)
    (absent : layer.object path = none) :
    ∃ err, mount.host.walk (buildPath mount path) = .error err := by
  simp only [object, engine] at absent
  cases reached : mount.host.walk (buildPath mount path) with
  | error err => exact ⟨err, rfl⟩
  | ok node => rw [reached] at absent; cases absent

theorem walk_of_object {mount : FsMount} {held : LayerObject} (engine : layer.engine = .ram mount)
    (here : layer.object path = some held) :
    ∃ node, mount.host.walk (buildPath mount path) = .ok node ∧ held = .node node := by
  simp only [object, engine] at here
  cases reached : mount.host.walk (buildPath mount path) with
  | error err => rw [reached] at here; cases here
  | ok node =>
    rw [reached] at here
    exact ⟨node, rfl, (Option.some.inj here).symm⟩

/-- A host layer holds the directory in which a child of it would be made. -/
theorem parentDir_child {mount : FsMount} {parent : List Name} {name : Name}
    (engine : layer.engine = .ram mount) :
    layer.ParentDir (parent ++ [name]) ↔ layer.HoldsDir parent := by
  have above : (buildPath mount (parent ++ [name])).dropLast = buildPath mount parent := by
    rw [buildPath, buildPath, ← List.append_assoc, List.dropLast_concat]
  constructor
  · rintro ⟨mount', same, entries, found⟩
    cases engine.symm.trans same
    rw [above] at found
    exact ⟨.node (.dir entries), by simp only [object, engine, found], rfl⟩
  · rintro ⟨held, here, isDir⟩
    obtain ⟨node, found, rfl⟩ := walk_of_object engine here
    cases node with
    | file content => cases isDir
    | dir entries => exact ⟨mount, engine, entries, by rw [above, found]⟩

theorem holdsDir_of_parentDir {parent : List Name} {name : Name}
    (parentDir : layer.ParentDir (parent ++ [name])) : layer.HoldsDir parent := by
  obtain ⟨mount, engine, -⟩ := id parentDir
  exact (parentDir_child engine).mp parentDir

/-- What a request makes of a path that the layer does not hold: something where its directory
is there, and nothing elsewhere. -/
structure Makes (layer : OverlayLayer) (path : List Name) (made : LayerObject)
    (result : Except XfsError Unit × OverlayLayer) : Prop where
  step : LayerStep layer result
  made : layer.ParentDir path → result.1 = .ok () ∧ result.2.object path = some made
  refused : ¬ layer.ParentDir path → ∃ err, result.1 = .error err

theorem mkdir_layer (absent : layer.object path = none) :
    layer.Makes path (.node (.dir [])) (layer.mkdir path) := by
  cases engine : layer.engine with
  | romfs image =>
    have result : layer.mkdir path = (.error .inval, layer) := by
      simp only [mkdir, engine]
      rfl
    rw [result]
    refine ⟨LayerStep.refused, fun parent => ?_, fun _ => ⟨.inval, rfl⟩⟩
    obtain ⟨mount, same, -⟩ := parent
    cases engine.symm.trans same
  | ram mount =>
    obtain ⟨err, missing⟩ := walk_of_object_none engine absent
    have result : layer.mkdir path
        = layer.finish (mount.finish (Posix.mkdir mount.host (buildPath mount path))) := by
      simp only [mkdir, engine]
      rfl
    rw [result]
    refine ⟨LayerStep.finish engine _, fun parent => ?_, fun orphan => ?_⟩
    · obtain ⟨mount', same, parent⟩ := parent
      cases engine.symm.trans same
      obtain ⟨after, ok, found⟩ := Posix.mkdir_of_parentDir missing parent
      rw [ok]
      exact ⟨rfl, object_finish_of_found found⟩
    · have none_ : ¬ Posix.ParentDir mount.host (buildPath mount path) :=
        fun parent => orphan ⟨mount, engine, parent⟩
      obtain ⟨err, failed⟩ := Posix.mkdir_of_no_parentDir missing none_
      rw [failed]
      exact ⟨err, rfl⟩

/-- The flags with which the host engine opens. -/
def hostFlags (flags : UInt32) : HostOpenFlags where
  write := writeMode flags || hasFlag flags xfsOCreat
  creat := hasFlag flags xfsOCreat
  trunc := hasFlag flags xfsOTrunc

theorem openFile_ram {mount : FsMount} {flags : UInt32} (engine : layer.engine = .ram mount) :
    layer.openFile path flags = layer.finish (mount.finish
      (Posix.openFile mount.host (buildPath mount path) (hostFlags flags))) := by
  rw [openFile, engine]
  rfl

theorem openFile_romfs {image : RamfsImage} {flags : UInt32} (engine : layer.engine = .romfs image)
    (path : List Name) (creat : hasFlag flags xfsOCreat = true) :
    ∃ err, layer.openFile path flags = (.error err, layer) := by
  have refuses : romfsOpen image (pathText path) flags = .error (.errno 100) := by
    rw [romfsOpen, creat, Bool.or_true, Bool.true_or, Bool.true_or]
    rfl
  rw [openFile, engine]
  dsimp only
  rw [refuses, romfs]
  split
  · exact ⟨_, rfl⟩
  · exact ⟨_, rfl⟩

theorem openFile_layer {flags : UInt32} (creat : hasFlag flags xfsOCreat = true)
    (absent : layer.object path = none) :
    layer.Makes path (.node (.file [])) (layer.openFile path flags) := by
  cases engine : layer.engine with
  | romfs image =>
    obtain ⟨err, result⟩ := openFile_romfs engine path creat
    rw [result]
    refine ⟨LayerStep.refused, fun parent => ?_, fun _ => ⟨err, rfl⟩⟩
    obtain ⟨mount, same, -⟩ := parent
    cases engine.symm.trans same
  | ram mount =>
    obtain ⟨err, missing⟩ := walk_of_object_none engine absent
    rw [openFile_ram engine]
    refine ⟨LayerStep.finish engine _, fun parent => ?_, fun orphan => ?_⟩
    · obtain ⟨mount', same, parent⟩ := parent
      cases engine.symm.trans same
      have creates : (hostFlags flags).creat = true := creat
      obtain ⟨after, ok, found⟩ := Posix.openFile_of_parentDir creates missing parent
      rw [ok]
      exact ⟨rfl, object_finish_of_found found⟩
    · have none_ : ¬ Posix.ParentDir mount.host (buildPath mount path) :=
        fun parent => orphan ⟨mount, engine, parent⟩
      obtain ⟨err, failed⟩ := Posix.openFile_of_no_parentDir missing none_
      rw [failed]
      exact ⟨err, rfl⟩

/-- An open without `XFS_O_TRUNC` leaves what the layer holds. -/
theorem openFile_keeps {flags : UInt32} (creat : hasFlag flags xfsOCreat = true)
    (trunc : hasFlag flags xfsOTrunc = false) {held : LayerObject}
    (here : layer.object path = some held) : (layer.openFile path flags).2 = layer := by
  cases engine : layer.engine with
  | romfs image =>
    obtain ⟨err, result⟩ := openFile_romfs engine path creat
    rw [result]
  | ram mount =>
    obtain ⟨node, found, -⟩ := walk_of_object engine here
    have truncates : (hostFlags flags).trunc = false := trunc
    rw [openFile_ram engine]
    rcases Posix.openFile_held truncates found with ok | ⟨err, failed⟩
    · rw [ok]
      rcases layer with ⟨layerEngine, mounted⟩
      cases engine
      rfl
    · rw [failed]
      exact (LayerStep.finish engine (.error err)).failed err rfl

theorem mkdir_exist_iff :
    (layer.mkdir path).1 = .error .exist ↔ layer.IsHost ∧ layer.object path ≠ none := by
  cases engine : layer.engine with
  | romfs image =>
    constructor
    · intro same
      simp only [mkdir, engine] at same
      cases same
    · rintro ⟨⟨mount, same⟩, -⟩
      cases engine.symm.trans same
  | ram mount =>
    have result : (layer.mkdir path).1 = .error .exist ↔
        Posix.mkdir mount.host (buildPath mount path) = .error .exist := by
      simp only [mkdir, engine, fsMkdir]
      cases Posix.mkdir mount.host (buildPath mount path) with
      | ok after => exact ⟨fun same => (by cases same), fun same => (by cases same)⟩
      | error err =>
        have answer : (layer.finish (mount.finish (.error err))).1 = .error err := rfl
        rw [answer, Except.error.injEq, Except.error.injEq]
    rw [result, Posix.mkdir_exist_iff]
    constructor
    · rintro ⟨node, found⟩
      refine ⟨⟨mount, engine⟩, fun absent => ?_⟩
      obtain ⟨err, missing⟩ := walk_of_object_none engine absent
      rw [found] at missing
      cases missing
    · rintro ⟨-, here⟩
      obtain ⟨held, isHeld⟩ := Option.ne_none_iff_exists'.mp here
      obtain ⟨node, found, -⟩ := walk_of_object engine isHeld
      exact ⟨node, found⟩

/-- An empty directory of a layer. -/
theorem empty_dir {parent : List Name} (here : layer.object parent = some (.node (.dir [])))
    (name : Name) :
    layer.object (parent ++ [name]) = none ∧ layer.ParentDir (parent ++ [name]) := by
  cases engine : layer.engine with
  | romfs image =>
    simp only [object, engine] at here
    split at here
    · cases here
    · obtain ⟨entry, -, same⟩ := Option.map_eq_some_iff.mp here
      cases same
  | ram mount =>
    obtain ⟨node, found, same⟩ := walk_of_object engine here
    cases same
    have child : mount.host.walk (buildPath mount (parent ++ [name])) = .error .missing := by
      rw [buildPath, ← List.append_assoc]
      exact Tree.walk_child name found
    refine ⟨?_, (parentDir_child engine).mpr ⟨_, here, rfl⟩⟩
    simp only [object, engine, child]

/-- Where a layer could make the path, it says that there is no entry. -/
theorem stat_of_parentDir (parent : layer.ParentDir path) (absent : layer.object path = none) :
    layer.stat path = .error .noent := by
  obtain ⟨mount, engine, entries, found⟩ := parent
  obtain ⟨err, missing⟩ := walk_of_object_none engine absent
  obtain ⟨name, -, splits⟩ := Posix.splits_of_absent missing
  have child := missing
  rw [splits] at child
  rw [(Posix.absent_child found child).2] at missing
  rw [stat, engine]
  dsimp only
  rw [fsStat, Posix.lookup_of_missing missing]

theorem holdsDir_of_stat {info : XfsStatInfo} (mounted : layer.mounted) (fits : PathFits path)
    (found : layer.stat path = .ok info) : layer.HoldsDir path ↔ info.type = .dir := by
  obtain ⟨held, here, describes⟩ := object_of_stat mounted fits found
  have sameType : info.type = held.type := congrArg Prod.fst describes
  rw [sameType]
  constructor
  · rintro ⟨other, same, isDir⟩
    rw [here] at same
    cases same
    exact isDir
  · exact fun isDir => ⟨held, here, isDir⟩

theorem not_holdsDir_of_stat {err : XfsError} (mounted : layer.mounted) (fits : PathFits path)
    (failed : layer.stat path = .error err) : ¬ layer.HoldsDir path := by
  rintro ⟨held, here, -⟩
  rw [(object_none_of_stat mounted fits failed).1] at here
  cases here

end OverlayLayer

/-! ## The parent on the write layer -/

/-- The first available layer but the target that has another answer than `NOENT`. -/
def answering (target : Nat) (path : List Name) : List OverlayLayer → Nat → Option OverlayLayer
  | [], _ => none
  | layer :: layers, i =>
      if (i = target ∨ !overlayLayerAvailable layer) ∨ layer.stat path = .error .noent then
        answering target path layers (i + 1)
      else some layer

/-- The target misses the parent but has the directory above it, and of the other layers the
first one with an answer has the parent as a directory. -/
structure Given (o : Overlay) (target : Nat) (layer : OverlayLayer) (path : List Name) :
    Prop where
  deep : 1 < path.length
  missing : layer.object path.dropLast = none
  above : layer.ParentDir path.dropLast
  shown : ∃ other, answering target path.dropLast o.layers 0 = some other ∧
    other.HoldsDir path.dropLast

theorem answering_available {target i : Nat} {path : List Name} {layers : List OverlayLayer}
    {other : OverlayLayer} (first : answering target path layers i = some other) :
    overlayLayerAvailable other := by
  induction layers generalizing i with
  | nil => cases first
  | cons layer layers ih =>
    rw [answering] at first
    split at first
    · exact ih first
    · next here =>
      cases first
      cases available : overlayLayerAvailable other with
      | true => rfl
      | false => exact absurd (.inl (.inr (by rw [available]; rfl))) here

/-- A parent that is there already will do. -/
def shadowMade (made : Except XfsError Unit × Overlay) : Except XfsError Unit × Overlay :=
  if made.1 = .error .exist then (.ok (), made.2) else made

/-- What the layer that answers for the parent leads to. -/
def shadowFrom (o : Overlay) (target : Nat) (parent : List Name) :
    Option OverlayLayer → Except XfsError Unit × Overlay
  | none => (.error .noent, o)
  | some other =>
      match other.stat parent with
      | .ok info =>
          if info.type = .dir then shadowMade (o.onLayer target (·.mkdir parent))
          else (.error .notdir, o)
      | .error err => (.error err, o)

/-- The loop over the other layers ends at the first one with an answer. -/
theorem overlayShadowLoop_eq (o : Overlay) (target : Nat) (parent : List Name)
    (layers : List OverlayLayer) (i : Nat) :
    overlayShadowLoop o target parent layers i
      = shadowFrom o target parent (answering target parent layers i) := by
  induction layers generalizing i with
  | nil => rfl
  | cons layer layers ih =>
    rw [overlayShadowLoop, answering]
    by_cases skipped : i = target ∨ !overlayLayerAvailable layer
    · rw [if_pos skipped, if_pos (.inl skipped), ih]
    · rw [if_neg skipped]
      split
      · next info answer =>
        have answers : layer.stat parent ≠ .error .noent := by
          rw [answer]
          exact fun same => by cases same
        have from_ : shadowFrom o target parent (some layer)
            = if info.type = .dir then shadowMade (o.onLayer target (·.mkdir parent))
              else (.error .notdir, o) := by
          rw [shadowFrom, answer]
        rw [if_neg (not_or_intro skipped answers), from_]
        refine if_congr Iff.rfl ?_ rfl
        rw [shadowMade]
        split
        · next made result => rw [result, if_pos rfl]
        · next other => rw [if_neg fun same => other _ (Prod.ext same rfl)]
      · next answer =>
        rw [if_pos (.inr answer)]
        exact ih (i + 1)
      · next err other answer =>
        have answers : layer.stat parent ≠ .error .noent := by
          rw [answer]
          exact fun same => other (Except.error.inj same)
        rw [if_neg (not_or_intro skipped answers), shadowFrom]
        simp only [answer]

/-- The write layer has the directory of the path, or is given it. -/
def Obtains (o : Overlay) (target : Nat) (layer : OverlayLayer) (path : List Name) : Prop :=
  layer.ParentDir path ∨ Given o target layer path

theorem shadowFrom_given {o : Overlay} {above below : List OverlayLayer} {layer other : OverlayLayer}
    {parent : List Name} {name : Name} (layers : o.layers = above ++ layer :: below)
    (available : overlayLayerAvailable other) (fits : PathFits parent)
    (missing : layer.object parent = none) (grand : layer.ParentDir parent)
    (holds : other.HoldsDir parent) :
    ∃ layer', (shadowFrom o above.length parent (some other)).1 = .ok () ∧
      (shadowFrom o above.length parent (some other)).2.layers = above ++ layer' :: below ∧
        layer'.mounted = layer.mounted ∧ layer'.object (parent ++ [name]) = none ∧
          layer'.ParentDir (parent ++ [name]) := by
  have makes := OverlayLayer.mkdir_layer missing
  obtain ⟨ok, made⟩ := makes.made grand
  obtain ⟨childless, parentDir⟩ := OverlayLayer.empty_dir made name
  obtain ⟨held, here, isHeldDir⟩ := holds
  obtain ⟨info, found, describes⟩ := OverlayLayer.stat_of_object available fits here
  have isDir : info.type = .dir := (congrArg Prod.fst describes).trans isHeldDir
  have result : o.onLayer above.length (·.mkdir parent)
      = (.ok (), (o.onLayer above.length (·.mkdir parent)).2) :=
    Prod.ext ((onLayer_at layers _).1.trans ok) rfl
  have shadowed : shadowFrom o above.length parent (some other)
      = (.ok (), (o.onLayer above.length (·.mkdir parent)).2) := by
    rw [shadowFrom, found]
    dsimp only
    rw [if_pos isDir, shadowMade, result, if_neg (fun same => by cases same)]
  rw [shadowed]
  exact ⟨_, rfl, (onLayer_at layers _).2, makes.step.mounted, childless, parentDir⟩

theorem shadowFrom_not_given {o : Overlay} {above below : List OverlayLayer} {layer : OverlayLayer}
    {parent : List Name} (layers : o.layers = above ++ layer :: below)
    (missing : layer.object parent = none) {other : Option OverlayLayer}
    (available : ∀ layer, other = some layer → overlayLayerAvailable layer) (fits : PathFits parent)
    (refused : ¬ (layer.ParentDir parent ∧ ∃ layer, other = some layer ∧ layer.HoldsDir parent)) :
    ∃ err, shadowFrom o above.length parent other = (.error err, o) := by
  cases other with
  | none => exact ⟨.noent, rfl⟩
  | some other =>
    rw [shadowFrom]
    cases answer : other.stat parent with
    | error err => exact ⟨err, rfl⟩
    | ok info =>
      dsimp only
      split
      · next isDir =>
        have holds := (OverlayLayer.holdsDir_of_stat (available other rfl) fits answer).mpr isDir
        have makes := OverlayLayer.mkdir_layer missing
        have orphan : ¬ layer.ParentDir parent := fun parent => refused ⟨parent, other, rfl, holds⟩
        obtain ⟨err, failed⟩ := makes.refused orphan
        have notExist : err ≠ .exist := by
          rintro rfl
          exact (OverlayLayer.mkdir_exist_iff.mp failed).2 missing
        have result : o.onLayer above.length (·.mkdir parent) = (.error err, o) :=
          Prod.ext ((onLayer_at layers _).1.trans failed)
            (onLayer_unchanged layers (makes.step.failed err failed))
        exact ⟨err, by rw [result, shadowMade, if_neg fun same => notExist (Except.error.inj same)]⟩
      · exact ⟨.notdir, rfl⟩

/-- The shadow of a path that the write layer does not hold. -/
theorem overlayMkdirShadow_spec {o : Overlay} {above below : List OverlayLayer}
    {layer : OverlayLayer} {path : List Name} (layers : o.layers = above ++ layer :: below)
    (available : overlayLayerAvailable layer) (fits : PathFits path)
    (absent : layer.object path = none) :
    ∃ layer', (overlayMkdirShadow o above.length path).2.layers = above ++ layer' :: below ∧
      layer'.mounted = layer.mounted ∧ layer'.object path = none ∧
        (Obtains o above.length layer path →
          (overlayMkdirShadow o above.length path).1 = .ok () ∧ layer'.ParentDir path) ∧
        (¬ Obtains o above.length layer path →
          (∃ err, (overlayMkdirShadow o above.length path).1 = .error err) ∨
            ¬ layer'.ParentDir path) := by
  by_cases shallow : path.length ≤ 1
  · rw [overlayMkdirShadow, if_pos shallow]
    refine ⟨layer, layers, rfl, absent, fun obtains => ⟨rfl, ?_⟩, fun refused => .inr fun parent =>
      refused (.inl parent)⟩
    exact obtains.resolve_right fun given => absurd given.deep (Nat.not_lt_of_ge shallow)
  rcases List.eq_nil_or_concat' path with rfl | ⟨parent, name, rfl⟩
  · exact absurd (Nat.zero_le 1) shallow
  have parentFits : PathFits parent := fits.parent
  have up : (parent ++ [name]).dropLast = parent := List.dropLast_concat
  have place : o.layers[above.length]? = some layer := by simp [layers]
  rw [overlayMkdirShadow, if_neg shallow, up, if_neg (Nat.not_le_of_gt parentFits)]
  simp only [place]
  cases answer : layer.stat parent with
  | ok info =>
    obtain ⟨held, here, -⟩ := OverlayLayer.object_of_stat available parentFits answer
    have notGiven : ¬ Given o above.length layer (parent ++ [name]) := by
      intro given
      have missing := given.missing
      rw [up, here] at missing
      cases missing
    dsimp only
    split
    · refine ⟨layer, layers, rfl, absent, fun obtains => ⟨rfl, obtains.resolve_right notGiven⟩,
        fun refused => .inr fun parentDir => refused (.inl parentDir)⟩
    · next notDir =>
      refine ⟨layer, layers, rfl, absent, fun obtains => ?_, fun _ => .inl ⟨.notdir, rfl⟩⟩
      have holds := OverlayLayer.holdsDir_of_parentDir (obtains.resolve_right notGiven)
      exact absurd ((OverlayLayer.holdsDir_of_stat available parentFits answer).mp holds) notDir
  | error err =>
    have missing := (OverlayLayer.object_none_of_stat available parentFits answer).1
    have noParentDir : ¬ layer.ParentDir (parent ++ [name]) := fun parentDir =>
      OverlayLayer.not_holdsDir_of_stat available parentFits answer
        (OverlayLayer.holdsDir_of_parentDir parentDir)
    by_cases none_ : err = .noent
    · subst none_
      dsimp only
      rw [overlayShadowLoop_eq]
      by_cases given : Given o above.length layer (parent ++ [name])
      · have grand := given.above
        obtain ⟨other, first, holds⟩ := given.shown
        rw [up] at grand first holds
        obtain ⟨layer', ok, layers', mounted, childless, parentDir⟩ := shadowFrom_given
          layers (answering_available first) parentFits missing grand holds
        rw [first]
        exact ⟨layer', layers', mounted, childless, fun _ => ⟨ok, parentDir⟩,
          fun refused => absurd (.inr given) refused⟩
      · have refused : ¬ (layer.ParentDir parent ∧ ∃ other,
            answering above.length parent o.layers 0 = some other ∧ other.HoldsDir parent) := by
          rintro ⟨grand, other, first, holds⟩
          refine given ⟨Nat.lt_of_not_le shallow, ?_, ?_, other, ?_, ?_⟩
          · rwa [up]
          · rwa [up]
          · rwa [up]
          · rwa [up]
        obtain ⟨err, failed⟩ := shadowFrom_not_given layers missing
          (fun _ first => answering_available first) parentFits refused
        rw [failed]
        exact ⟨layer, layers, rfl, absent,
          fun obtains => (obtains.elim noParentDir given).elim, fun _ => .inl ⟨err, rfl⟩⟩
    · have notGiven : ¬ Given o above.length layer (parent ++ [name]) := by
        intro given
        have grand := given.above
        rw [up] at grand
        rw [OverlayLayer.stat_of_parentDir grand missing] at answer
        exact none_ (Except.error.inj answer).symm
      split
      · next same => cases same
      · next same => exact absurd (Except.error.inj same) none_
      · next other _ same =>
        exact ⟨layer, layers, rfl, absent,
          fun obtains => (obtains.elim noParentDir notGiven).elim, fun _ => .inl ⟨_, rfl⟩⟩

/-- The shadow of a path that the write layer holds changes nothing. -/
theorem overlayMkdirShadow_held {o : Overlay} {above below : List OverlayLayer}
    {layer : OverlayLayer} {path : List Name} (layers : o.layers = above ++ layer :: below)
    (available : overlayLayerAvailable layer) (fits : PathFits path) {held : LayerObject}
    (here : layer.object path = some held) :
    (overlayMkdirShadow o above.length path).2 = o := by
  by_cases shallow : path.length ≤ 1
  · rw [overlayMkdirShadow, if_pos shallow]
  rcases List.eq_nil_or_concat' path with rfl | ⟨parent, name, rfl⟩
  · exact absurd (Nat.zero_le 1) shallow
  have parentFits : PathFits parent := fits.parent
  have up : (parent ++ [name]).dropLast = parent := List.dropLast_concat
  have place : o.layers[above.length]? = some layer := by simp [layers]
  rw [overlayMkdirShadow, if_neg shallow, up, if_neg (Nat.not_le_of_gt parentFits)]
  simp only [place]
  split
  · split <;> rfl
  · next answer =>
    have missing := (OverlayLayer.object_none_of_stat available parentFits answer).1
    have notHost : ¬ layer.IsHost := by
      rintro ⟨mount, engine⟩
      obtain ⟨node, found, -⟩ := OverlayLayer.walk_of_object engine here
      obtain ⟨err, gone⟩ := OverlayLayer.walk_of_object_none engine missing
      rw [buildPath, ← List.append_assoc] at found
      obtain ⟨node', reached, -⟩ := Tree.walk_prefix found
      rw [buildPath, reached] at gone
      cases gone
    obtain ⟨err, failed⟩ := shadowFrom_not_given layers missing
      (fun _ first => answering_available first) parentFits
      (fun grand => notHost (grand.1.imp fun _ parentDir => parentDir.1))
    rw [overlayShadowLoop_eq, failed]
  · rfl

/-! ## Opening on the write layer -/

theorem openOn_at {o : Overlay} {above below : List OverlayLayer} {layer : OverlayLayer}
    (layers : o.layers = above ++ layer :: below) (path : List Name) (flags : UInt32) :
    (openOn o above.length path flags).2.layers = above ++ (layer.openFile path flags).2 :: below ∧
      ((layer.openFile path flags).1 = .ok () →
        (openOn o above.length path flags).1 = .ok above.length) := by
  have answer := onLayer_at layers (·.openFile path flags)
  constructor
  · rw [← answer.2, openOn]
    split
    · next opened ok => rw [ok]
    · next err opened failed => rw [failed]
  · intro ok
    rw [openOn]
    split
    · rfl
    · next err opened failed =>
      rw [failed, ok] at answer
      cases answer.1

/-- Opening a path with `XFS_O_CREAT` that the write layer does not hold. -/
theorem overlayOpen_creates {o : Overlay} {above below : List OverlayLayer} {layer : OverlayLayer}
    {path : List Name} {flags : UInt32} (target : overlayWriteLayer o = some above.length)
    (layers : o.layers = above ++ layer :: below) (available : overlayLayerAvailable layer)
    (fits : PathFits path) (creat : hasFlag flags xfsOCreat = true)
    (absent : layer.object path = none) :
    ∃ layer', (overlayOpen o path flags).2.layers = above ++ layer' :: below ∧
      overlayLayerAvailable layer' ∧
        (Obtains o above.length layer path → (overlayOpen o path flags).1 = .ok above.length ∧
          layer'.object path = some (.node (.file []))) ∧
        (¬ Obtains o above.length layer path →
          (∃ err, (overlayOpen o path flags).1 = .error err) ∧ layer'.object path = none) := by
  obtain ⟨shadow, layers', mounted, absent', ok, refused⟩ :=
    overlayMkdirShadow_spec layers available fits absent
  have makes := OverlayLayer.openFile_layer creat absent'
  rcases result : overlayMkdirShadow o above.length path with ⟨_ | ⟨⟨⟩⟩, shadowed⟩
  · next err =>
    rw [result] at layers' ok
    have opened : overlayOpen o path flags = (.error err, shadowed) := by
      simp only [overlayOpen, creat, if_true, target, result]
    rw [opened]
    refine ⟨shadow, layers', mounted.trans available, fun obtains => ?_, fun _ => ⟨⟨err, rfl⟩, absent'⟩⟩
    cases (ok obtains).1
  · rw [result] at layers' ok refused
    have opened : overlayOpen o path flags = openOn shadowed above.length path flags := by
      simp only [overlayOpen, creat, if_true, target, result]
    obtain ⟨after, answers⟩ := openOn_at layers' path flags
    have kept : overlayLayerAvailable (shadow.openFile path flags).2 :=
      makes.step.mounted.trans (mounted.trans available)
    rw [opened]
    refine ⟨_, after, kept, fun obtains => ?_, fun gone => ?_⟩
    · obtain ⟨success, made⟩ := makes.made (ok obtains).2
      exact ⟨answers success, made⟩
    · rcases refused gone with ⟨err, failed⟩ | orphan
      · cases failed
      · obtain ⟨err, failed⟩ := makes.refused orphan
        refine ⟨⟨err, openOn_error ((onLayer_at layers' _).1.trans failed)⟩, ?_⟩
        rw [makes.step.failed err failed]
        exact absent'

/-- Opening one that it holds, without `XFS_O_TRUNC`. -/
theorem overlayOpen_keeps {o : Overlay} {above below : List OverlayLayer} {layer : OverlayLayer}
    {path : List Name} {flags : UInt32} (target : overlayWriteLayer o = some above.length)
    (layers : o.layers = above ++ layer :: below) (available : overlayLayerAvailable layer)
    (fits : PathFits path) (creat : hasFlag flags xfsOCreat = true)
    (trunc : hasFlag flags xfsOTrunc = false) {held : LayerObject}
    (here : layer.object path = some held) :
    (overlayOpen o path flags).2.layers = o.layers := by
  have unchanged := overlayMkdirShadow_held layers available fits here
  rcases result : overlayMkdirShadow o above.length path with ⟨_ | ⟨⟨⟩⟩, shadowed⟩
  · next err =>
    rw [result] at unchanged
    have opened : overlayOpen o path flags = (.error err, shadowed) := by
      simp only [overlayOpen, creat, if_true, target, result]
    rw [opened]
    exact congrArg Overlay.layers unchanged
  · rw [result] at unchanged
    have opened : overlayOpen o path flags = openOn shadowed above.length path flags := by
      simp only [overlayOpen, creat, if_true, target, result]
    have sameStack : shadowed = o := unchanged
    rw [opened, sameStack, (openOn_at layers path flags).1,
      OverlayLayer.openFile_keeps creat trunc here, layers]

/-- The write layer in its place. -/
theorem writeLayer_at {o : Overlay} {i : Nat} (target : overlayWriteLayer o = some i) :
    ∃ above layer below, o.layers = above ++ layer :: below ∧ above.length = i ∧
      overlayLayerAvailable layer := by
  obtain ⟨layer, place, available⟩ := overlayWriteLayer_available target
  obtain ⟨bound, here⟩ := List.getElem?_eq_some_iff.mp place
  refine ⟨o.layers.take i, layer, o.layers.drop (i + 1), ?_, ?_, available⟩
  · rw [← here, ← List.drop_eq_getElem_cons bound, List.take_append_drop]
  · rw [List.length_take]
    exact Nat.min_eq_left (Nat.le_of_lt bound)

/-- With no write layer nothing is shown. -/
theorem not_shown_of_no_writeLayer {o : Overlay} (none_ : overlayWriteLayer o = none)
    (path : List Name) : shownIn o.layers path = none := by
  rw [shownIn, List.findSome?_eq_none_iff]
  intro layer member
  refine OverlayLayer.shown_of_unavailable fun available => ?_
  obtain ⟨i, place⟩ := List.mem_iff_getElem?.mp member
  have here : (o.layers[i]?).any overlayLayerAvailable = true := by
    rw [place]
    exact available
  rw [overlayWriteLayer] at none_
  dsimp only at none_
  split at none_
  · cases none_
  · next defaultGone =>
    have passed := List.find?_eq_none.mp none_ i
      (List.mem_range.mpr (List.getElem?_eq_some_iff.mp place).1)
    rw [here, Bool.and_true, bne_iff_ne, not_not] at passed
    rw [passed] at here
    exact defaultGone here

/-! ## What creation should do -/

/-- What a reader of the object gets; `data` is the data of the image's entries. -/
def LayerObject.content (data : RamfsEntry → List UInt8) : LayerObject → List UInt8
  | .node (.file content) => content
  | .node (.dir _) => []
  | .entry found => data found
  | .romRoot => []

def VisibleDir (o : Overlay) (path : List Name) : Prop :=
  ∃ object, shownIn o.layers path = some object ∧ object.type = .dir

/-- Creation as in one file system: an open for writing leaves a file as it is, mkdir makes a
path in a visible directory and reports `EXIST` for what is visible, and a new file can be
opened in any visible directory. -/
structure CreationLaw (data : RamfsEntry → List UInt8) (o : Overlay) (path : List Name) :
    Prop where
  keeps : ∀ flags object, hasFlag flags xfsOCreat = true → hasFlag flags xfsOTrunc = false →
    shownIn o.layers path = some object → object.type = .reg →
      ∃ after, shownIn (overlayOpen o path flags).2.layers path = some after ∧
        after.type = .reg ∧ after.content data = object.content data
  makes : VisibleDir o path.dropLast → shownIn o.layers path = none →
    (overlayMkdir o path).1 = .ok ()
  reports : (overlayMkdir o path).1 = .error .exist ↔ shownIn o.layers path ≠ none
  creates : ∀ flags, hasFlag flags xfsOCreat = true → VisibleDir o path.dropLast →
    shownIn o.layers path = none → ∃ i, (overlayOpen o path flags).1 = .ok i

/-- The layer is the one new files and directories are made on, `above` the layers over it. -/
structure Writes (o : Overlay) (above : List OverlayLayer) (layer : OverlayLayer) : Prop where
  target : overlayWriteLayer o = some above.length
  place : ∃ below, o.layers = above ++ layer :: below

/-- When creation does so. A visible file is empty, or shown by the write layer or a layer
over it, or cannot be made on the write layer; what is visible is held by the write layer, on
the host; a visible directory in which nothing of the name is visible is on the write layer,
or at least given to it. -/
structure CreationCondition (data : RamfsEntry → List UInt8) (o : Overlay) (path : List Name) :
    Prop where
  keeps : ∀ object above layer, shownIn o.layers path = some object → object.type = .reg →
    Writes o above layer → object.content data = [] ∨
      shownIn (above ++ [layer]) path ≠ none ∨ ¬ Obtains o above.length layer path
  makes : ∀ above layer, VisibleDir o path.dropLast → shownIn o.layers path = none →
    Writes o above layer → layer.ParentDir path
  reports : ∀ above layer, shownIn o.layers path ≠ none → Writes o above layer →
    layer.IsHost ∧ layer.object path ≠ none
  creates : ∀ above layer, VisibleDir o path.dropLast → shownIn o.layers path = none →
    Writes o above layer → Obtains o above.length layer path

theorem Writes.ofShown {o : Overlay} {path : List Name} {object : LayerObject}
    (shown : shownIn o.layers path = some object) : ∃ above layer, Writes o above layer := by
  cases target : overlayWriteLayer o with
  | none =>
    rw [not_shown_of_no_writeLayer target] at shown
    cases shown
  | some i =>
    obtain ⟨above, layer, below, layers, rfl, -⟩ := writeLayer_at target
    exact ⟨above, layer, target, below, layers⟩

theorem Writes.available {o : Overlay} {above : List OverlayLayer} {layer : OverlayLayer}
    (writes : Writes o above layer) : overlayLayerAvailable layer := by
  obtain ⟨other, place, available⟩ := overlayWriteLayer_available writes.target
  obtain ⟨below, layers⟩ := writes.place
  rw [layers, List.getElem?_append_right (Nat.le_refl _), Nat.sub_self] at place
  cases place
  exact available

theorem Writes.overlayMkdir {o : Overlay} {above : List OverlayLayer} {layer : OverlayLayer}
    (writes : Writes o above layer) (path : List Name) :
    (overlayMkdir o path).1 = (layer.mkdir path).1 := by
  obtain ⟨below, layers⟩ := writes.place
  rw [FuseX.Xfs.overlayMkdir, writes.target]
  exact (onLayer_at layers _).1

/-- What is not shown, the write layer does not hold. -/
theorem Writes.absent {o : Overlay} {above : List OverlayLayer} {layer : OverlayLayer}
    {path : List Name} (writes : Writes o above layer) (hidden : shownIn o.layers path = none) :
    layer.object path = none := by
  obtain ⟨below, layers⟩ := writes.place
  exact object_of_shownIn_none hidden (by rw [layers]; simp) writes.available

theorem shownIn_at (above below : List OverlayLayer) (layer : OverlayLayer) (path : List Name) :
    shownIn (above ++ layer :: below) path =
      (shownIn (above ++ [layer]) path).or (shownIn below path) := by
  rw [← shownIn_append, List.append_assoc]
  rfl

theorem shownIn_last {above : List OverlayLayer} {layer : OverlayLayer} {path : List Name}
    (available : overlayLayerAvailable layer) :
    shownIn (above ++ [layer]) path = (shownIn above path).or (layer.object path) := by
  rw [shownIn_append, shownIn_cons, shownIn_nil, Option.or_none,
    OverlayLayer.shown_of_available available]

/-- An open of a shown file leaves it just when no empty file comes over it. -/
theorem keeps_iff {data : RamfsEntry → List UInt8} {o : Overlay} {path : List Name}
    (fits : PathFits path) {object : LayerObject} (shown : shownIn o.layers path = some object)
    (isReg : object.type = .reg) {above : List OverlayLayer} {layer : OverlayLayer}
    (writes : Writes o above layer) {flags : UInt32} (creat : hasFlag flags xfsOCreat = true)
    (trunc : hasFlag flags xfsOTrunc = false) :
    (∃ after, shownIn (overlayOpen o path flags).2.layers path = some after ∧
        after.type = .reg ∧ after.content data = object.content data) ↔
      object.content data = [] ∨ shownIn (above ++ [layer]) path ≠ none ∨
        ¬ Obtains o above.length layer path := by
  obtain ⟨below, layers⟩ := writes.place
  have available := writes.available
  have before := shown
  rw [layers, shownIn_at, shownIn_last available] at before
  cases here : layer.object path with
  | some held =>
    have same := overlayOpen_keeps writes.target layers available fits creat trunc here
    have covered : shownIn (above ++ [layer]) path ≠ none := by
      rw [shownIn_last available, here]
      cases shownIn above path <;> exact Option.some_ne_none _
    exact ⟨fun _ => .inr (.inl covered), fun _ => ⟨object, by rw [same, shown], isReg, rfl⟩⟩
  | none =>
    rw [here, Option.or_none] at before
    obtain ⟨layer', layers', available', made, refused⟩ :=
      overlayOpen_creates writes.target layers available fits creat here
    rw [layers', shownIn_at, shownIn_last available', shownIn_last available, here, Option.or_none]
    cases up : shownIn above path with
    | some covering =>
      rw [up, Option.some_or] at before
      cases before
      exact ⟨fun _ => .inr (.inl (Option.some_ne_none _)), fun _ =>
        ⟨object, by rw [Option.some_or, Option.some_or], isReg, rfl⟩⟩
    | none =>
      rw [up, Option.none_or] at before
      rw [Option.none_or]
      by_cases obtains : Obtains o above.length layer path
      · rw [(made obtains).2, Option.some_or]
        constructor
        · rintro ⟨after, same, -, content⟩
          cases same
          exact .inl content.symm
        · rintro (empty | covered | gone)
          · exact ⟨_, rfl, rfl, empty.symm⟩
          · exact absurd rfl covered
          · exact absurd obtains gone
      · rw [(refused obtains).2, Option.none_or]
        exact ⟨fun _ => .inr (.inr obtains), fun _ => ⟨object, before, isReg, rfl⟩⟩

theorem reports_iff {o : Overlay} {path : List Name} :
    ((overlayMkdir o path).1 = .error .exist ↔ shownIn o.layers path ≠ none) ↔
      ∀ above layer, shownIn o.layers path ≠ none → Writes o above layer →
        layer.IsHost ∧ layer.object path ≠ none := by
  constructor
  · intro law above layer visible writes
    have answer := law.mpr visible
    rw [writes.overlayMkdir] at answer
    exact OverlayLayer.mkdir_exist_iff.mp answer
  · intro condition
    constructor
    · intro answer hidden
      cases target : overlayWriteLayer o with
      | none =>
        rw [overlayMkdir, target] at answer
        cases answer
      | some i =>
        obtain ⟨above, layer, below, layers, rfl, -⟩ := writeLayer_at target
        have writes : Writes o above layer := ⟨target, below, layers⟩
        rw [writes.overlayMkdir] at answer
        exact (OverlayLayer.mkdir_exist_iff.mp answer).2 (writes.absent hidden)
    · intro visible
      obtain ⟨object, shown⟩ := Option.ne_none_iff_exists'.mp visible
      obtain ⟨above, layer, writes⟩ := Writes.ofShown shown
      rw [writes.overlayMkdir]
      exact OverlayLayer.mkdir_exist_iff.mpr (condition above layer visible writes)

/-- Creation does as in one file system just under its condition. -/
theorem creation_iff (data : RamfsEntry → List UInt8) (o : Overlay) {path : List Name}
    (fits : PathFits path) : CreationLaw data o path ↔ CreationCondition data o path := by
  have creatFlag : hasFlag xfsOCreat xfsOCreat = true := by decide
  constructor
  · intro law
    constructor
    · intro object above layer shown isReg writes
      exact (keeps_iff fits shown isReg writes creatFlag (by decide)).mp
        (law.keeps xfsOCreat object creatFlag (by decide) shown isReg)
    · intro above layer parent hidden writes
      have ok := law.makes parent hidden
      rw [writes.overlayMkdir] at ok
      by_contra orphan
      obtain ⟨err, failed⟩ := (OverlayLayer.mkdir_layer (writes.absent hidden)).refused orphan
      rw [ok] at failed
      cases failed
    · exact reports_iff.mp law.reports
    · intro above layer parent hidden writes
      obtain ⟨below, layers⟩ := writes.place
      obtain ⟨i, opened⟩ := law.creates xfsOCreat creatFlag parent hidden
      obtain ⟨_, -, -, -, refused⟩ := overlayOpen_creates writes.target layers writes.available fits
        creatFlag (writes.absent hidden)
      by_contra gone
      obtain ⟨err, failed⟩ := (refused gone).1
      rw [opened] at failed
      cases failed
  · intro condition
    constructor
    · intro flags object creat trunc shown isReg
      obtain ⟨above, layer, writes⟩ := Writes.ofShown shown
      exact (keeps_iff fits shown isReg writes creat trunc).mpr
        (condition.keeps object above layer shown isReg writes)
    · intro parent hidden
      obtain ⟨object, shown, -⟩ := id parent
      obtain ⟨above, layer, writes⟩ := Writes.ofShown shown
      rw [writes.overlayMkdir]
      exact ((OverlayLayer.mkdir_layer (writes.absent hidden)).made
        (condition.makes above layer parent hidden writes)).1
    · exact reports_iff.mpr condition.reports
    · intro flags creat parent hidden
      obtain ⟨object, shown, -⟩ := id parent
      obtain ⟨above, layer, writes⟩ := Writes.ofShown shown
      obtain ⟨below, layers⟩ := writes.place
      obtain ⟨_, -, -, made, -⟩ := overlayOpen_creates writes.target layers writes.available fits
        creat (writes.absent hidden)
      exact ⟨_, (made (condition.creates above layer parent hidden writes)).1⟩

theorem Writes.unique {o : Overlay} {above : List OverlayLayer} {i : Nat}
    {layer layer' : OverlayLayer} (writes : Writes o above layer)
    (target : overlayWriteLayer o = some i) (place : o.layers[i]? = some layer') :
    above = o.layers.take i ∧ layer = layer' := by
  obtain ⟨below, layers⟩ := writes.place
  have same : above.length = i := Option.some.inj (writes.target.symm.trans target)
  subst same
  constructor
  · rw [layers, List.take_left]
  · rw [layers, List.getElem?_append_right (Nat.le_refl _), Nat.sub_self] at place
    exact Option.some.inj place

/-- The host's own file `b`. -/
theorem creation_iff_host : CreationLaw (fun _ => []) hostStack [nameB] := by
  refine (creation_iff _ _ (by decide)).mpr ?_
  have visible : shownIn hostStack.layers [nameB] ≠ none := Option.some_ne_none _
  constructor
  · intro object above layer _ _ writes
    obtain ⟨rfl, rfl⟩ := writes.unique rfl rfl
    exact .inr (.inl (Option.some_ne_none _))
  · exact fun _ _ _ hidden => absurd hidden visible
  · intro above layer _ writes
    obtain ⟨-, rfl⟩ := writes.unique rfl rfl
    exact ⟨⟨_, rfl⟩, Option.some_ne_none _⟩
  · exact fun _ _ _ hidden => absurd hidden visible

/-- An image with the directories `/a` and `/a/a`. -/
def imageAA : RamfsImage where
  entries := [{ parent := [slash], name := [97], type := .dir, size := 0 },
    { parent := [slash, 97], name := [97], type := .dir, size := 0 }]
  named := by decide
  parented := by decide
  unique := by decide

/-- Over an image, an empty host: the seven bytes of `/a/b` are gone after an open for writing,
`/a` can be made again, nothing can be made in `/a`, and no file be opened in `/a/a`. -/
theorem creation_hides :
    ((overlayStat (hostOverImage (.dir []) imageAB) [nameA, nameB]).map (·.size) = .ok 7 ∧
      (overlayStat (overlayOpen (hostOverImage (.dir []) imageAB) [nameA, nameB] xfsOCreat).2
        [nameA, nameB]).map (·.size) = .ok 0) ∧
    (overlayMkdir (hostOverImage (.dir []) imageAB) [nameA]).1 = .ok () ∧
    (overlayMkdir (hostOverImage (.dir []) imageAB) [nameA, nameA]).1 = .error .noent ∧
    ((overlayStat (hostOverImage (.dir []) imageAA) [nameA, nameA]).map (·.type) = .ok .dir ∧
      (overlayOpen (hostOverImage (.dir []) imageAA) [nameA, nameA, nameB] xfsOCreat).1
        = .error .noent) := by
  decide

end FuseX.Xfs
