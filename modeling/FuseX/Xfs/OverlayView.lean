import FuseX.Xfs.Overlay

/-!
# What a stack shows

A layer's `stat` reports what the layer holds (`OverlayLayer.kindSize_stat`), the
loop over the layers stops at the topmost one that holds the path
(`overlayFind_ok`, `overlayFind_error`), and so the overlay's `stat` reports what
`shownIn` says it shows (`kindSize_overlayStat`).
-/

namespace FuseX.Xfs

open Lib

/-- Kind and size of what a record is about. -/
def XfsStatInfo.kindSize (info : XfsStatInfo) : XfsType × UInt32 :=
  (info.type, info.size)

/-- Kind and size of what a layer holds. -/
def LayerObject.kindSize (object : LayerObject) : XfsType × UInt32 :=
  (object.type, object.size)

/-- The errors that say a path leads nowhere. -/
def NoEntry (err : XfsError) : Prop :=
  err = .noent ∨ err = .notdir

/-! ## Paths that fit -/

theorem PathFits.parent {parent : List Name} {name : Name} (fits : PathFits (parent ++ [name])) :
    PathFits parent := by
  by_cases root : parent = []
  · subst root
    exact (by decide : PathFits [])
  · rw [PathFits, pathText_child, ← pathText_of_ne_nil root, List.length_append] at fits
    exact lt_of_le_of_lt (Nat.le_add_right _ _) fits

theorem romfsStat_root (image : RamfsImage) :
    romfsStat image (pathText []) =
      .ok { type := .dir, storage := .system, size := 0, name := [slash] } := by
  rw [romfsStat, if_pos (.inr pathText_root)]

theorem romfsStat_of_ne_nil {image : RamfsImage} {path : List Name} (fits : PathFits path)
    (nonroot : path ≠ []) :
    romfsStat image (pathText path) =
      match image.entryAt path with
      | some entry => .ok (romfsStatInfo entry)
      | none => .error .noent := by
  have found := image.ramfsFind_pathText fits nonroot
  unfold romfsStat
  rw [if_neg (not_or_intro (pathText_ne_nil path) (pathText_ne_slash nonroot))]
  cases entry : image.entryAt path <;> simp only [found, entry]

/-! ## Layers -/

theorem Posix.lookup_eq_ok {host node : HostNode} {path : List Name} :
    Posix.lookup host path = .ok node ↔ host.walk path = .ok node := by
  rw [Posix.lookup]
  rcases host.walk path with (_ | _) | found <;> simp

theorem Posix.noEntry_of_lookup {host : HostNode} {path : List Name} {err : XfsError}
    (failed : Posix.lookup host path = .error err) : NoEntry err := by
  rw [Posix.lookup] at failed
  rcases reached : host.walk path with (_ | _) | found
  · rw [reached] at failed
    cases failed
    exact .inl rfl
  · rw [reached] at failed
    cases failed
    exact .inr rfl
  · rw [reached] at failed
    cases failed

theorem kindSize_fsStatInfo (node : HostNode) (name : CString) :
    (fsStatInfo node name).kindSize = (LayerObject.node node).kindSize := by
  cases node with
  | file content => rfl
  | dir entries => rfl

namespace OverlayLayer

variable {layer : OverlayLayer} {path : List Name}

theorem romfs_of_mounted {α : Type} (mounted : layer.mounted) (answer : Except XfsError α) :
    layer.romfs answer = answer := by
  rw [romfs, if_pos mounted]

/-- A mounted layer's `stat` succeeds on what the layer holds. -/
theorem stat_of_object {object : LayerObject} (mounted : layer.mounted) (fits : PathFits path)
    (held : layer.object path = some object) :
    ∃ info, layer.stat path = .ok info ∧ info.kindSize = object.kindSize := by
  cases engine : layer.engine with
  | ram mount =>
    simp only [OverlayLayer.object, engine] at held
    simp only [OverlayLayer.stat, engine]
    cases reached : mount.host.walk (buildPath mount path) with
    | error err => rw [reached] at held; cases held
    | ok node =>
      rw [reached] at held
      cases held
      rw [fsStat, Posix.lookup_eq_ok.mpr reached]
      exact ⟨_, rfl, kindSize_fsStatInfo node _⟩
  | romfs image =>
    simp only [OverlayLayer.object, engine] at held
    simp only [OverlayLayer.stat, engine, romfs_of_mounted mounted]
    by_cases root : path = []
    · subst root
      cases held
      exact ⟨_, romfsStat_root image, rfl⟩
    · rw [if_neg root] at held
      obtain ⟨entry, found, rfl⟩ := Option.map_eq_some_iff.mp held
      rw [romfsStat_of_ne_nil fits root, found]
      exact ⟨romfsStatInfo entry, rfl, rfl⟩

/-- A mounted layer's `stat` finds no entry where the layer holds nothing. -/
theorem stat_of_object_none (mounted : layer.mounted) (fits : PathFits path)
    (absent : layer.object path = none) : ∃ err, layer.stat path = .error err ∧ NoEntry err := by
  cases engine : layer.engine with
  | ram mount =>
    simp only [OverlayLayer.object, engine] at absent
    simp only [OverlayLayer.stat, engine]
    cases missed : Posix.lookup mount.host (buildPath mount path) with
    | ok node =>
      rw [Posix.lookup_eq_ok.mp missed] at absent
      cases absent
    | error err =>
      rw [fsStat, missed]
      exact ⟨err, rfl, Posix.noEntry_of_lookup missed⟩
  | romfs image =>
    simp only [OverlayLayer.object, engine] at absent
    simp only [OverlayLayer.stat, engine, romfs_of_mounted mounted]
    by_cases root : path = []
    · rw [if_pos root] at absent
      cases absent
    · rw [if_neg root, Option.map_eq_none_iff] at absent
      rw [romfsStat_of_ne_nil fits root, absent]
      exact ⟨.noent, rfl, .inl rfl⟩

theorem object_of_stat {info : XfsStatInfo} (mounted : layer.mounted) (fits : PathFits path)
    (found : layer.stat path = .ok info) :
    ∃ object, layer.object path = some object ∧ info.kindSize = object.kindSize := by
  cases held : layer.object path with
  | none =>
    obtain ⟨err, failed, -⟩ := stat_of_object_none mounted fits held
    rw [found] at failed
    cases failed
  | some object =>
    obtain ⟨other, same, describes⟩ := stat_of_object mounted fits held
    rw [found] at same
    cases same
    exact ⟨object, rfl, describes⟩

theorem object_none_of_stat {err : XfsError} (mounted : layer.mounted) (fits : PathFits path)
    (failed : layer.stat path = .error err) : layer.object path = none ∧ NoEntry err := by
  cases held : layer.object path with
  | none =>
    obtain ⟨other, same, nowhere⟩ := stat_of_object_none mounted fits held
    rw [failed] at same
    cases same
    exact ⟨rfl, nowhere⟩
  | some object =>
    obtain ⟨info, found, -⟩ := stat_of_object mounted fits held
    rw [failed] at found
    cases found

theorem shown_of_available (available : overlayLayerAvailable layer) :
    layer.shown path = layer.object path := by
  rw [shown, if_pos available]

theorem shown_of_unavailable (unavailable : ¬ overlayLayerAvailable layer) :
    layer.shown path = none := by
  rw [shown, if_neg unavailable]

end OverlayLayer

/-! ## The stack -/

@[simp] theorem shownIn_nil (path : List Name) : shownIn [] path = none := rfl

@[simp] theorem shownIn_cons (layer : OverlayLayer) (layers : List OverlayLayer)
    (path : List Name) :
    shownIn (layer :: layers) path = (layer.shown path).or (shownIn layers path) := by
  rw [shownIn, List.findSome?_cons]
  cases layer.shown path with
  | none => rfl
  | some object => rfl

theorem shownIn_append (above below : List OverlayLayer) (path : List Name) :
    shownIn (above ++ below) path = (shownIn above path).or (shownIn below path) := by
  rw [shownIn, List.findSome?_append]
  rfl

/-- The place of a layer in the stack that answers for a path: available, with
the path, below layers that show nothing there. -/
structure Answers (path : List Name) (above : List OverlayLayer) (layer : OverlayLayer) : Prop where
  hidden : shownIn above path = none
  available : overlayLayerAvailable layer
  holds : (layer.object path).isSome

theorem Answers.cons {path : List Name} {above : List OverlayLayer} {layer upper : OverlayLayer}
    (answers : Answers path above layer) (absent : upper.shown path = none) :
    Answers path (upper :: above) layer where
  hidden := by rw [shownIn_cons, absent, answers.hidden, Option.or_none]
  available := answers.available
  holds := answers.holds

/-- What a stack shows is what the layer that answers holds. -/
theorem Answers.shownIn_eq {path : List Name} {above : List OverlayLayer} {layer : OverlayLayer}
    (answers : Answers path above layer) (below : List OverlayLayer) :
    shownIn (above ++ layer :: below) path = layer.object path := by
  obtain ⟨object, held⟩ := Option.isSome_iff_exists.mp answers.holds
  rw [shownIn_append, answers.hidden, shownIn_cons, Option.none_or,
    OverlayLayer.shown_of_available answers.available, held, Option.some_or]

/-- The loop ends at the layer that answers. -/
theorem overlayFind_ok {path : List Name} (fits : PathFits path) {layers : List OverlayLayer}
    {i j : Nat} {firstError : XfsError} {info : XfsStatInfo}
    (found : overlayFind path layers i firstError = .ok (j, info)) :
    ∃ above layer below, layers = above ++ layer :: below ∧ j = i + above.length ∧
      Answers path above layer ∧ layer.stat path = .ok info := by
  induction layers generalizing i firstError with
  | nil => cases found
  | cons layer layers ih =>
    have later : ∀ {firstError}, layer.shown path = none →
        overlayFind path layers (i + 1) firstError = .ok (j, info) →
        ∃ above next below, layer :: layers = above ++ next :: below ∧ j = i + above.length ∧
          Answers path above next ∧ next.stat path = .ok info := by
      intro firstError absent rest
      obtain ⟨above, next, below, rfl, place, answers, stat⟩ := ih rest
      refine ⟨layer :: above, next, below, rfl, ?_, answers.cons absent, stat⟩
      rw [place, List.length_cons]
      omega
    rw [overlayFind] at found
    by_cases available : overlayLayerAvailable layer
    · rw [if_pos available] at found
      cases stat : layer.stat path with
      | ok other =>
        rw [stat] at found
        cases found
        obtain ⟨object, held, -⟩ := OverlayLayer.object_of_stat available fits stat
        exact ⟨[], layer, layers, rfl, rfl, ⟨rfl, available, by simp [held]⟩, stat⟩
      | error err =>
        rw [stat] at found
        refine later ?_ found
        rw [OverlayLayer.shown_of_available available]
        exact (OverlayLayer.object_none_of_stat available fits stat).1
    · rw [if_neg available] at found
      exact later (OverlayLayer.shown_of_unavailable available) found

/-- The loop runs out of layers only if no layer shows the path. -/
theorem overlayFind_error {path : List Name} (fits : PathFits path) {layers : List OverlayLayer}
    {i : Nat} {firstError err : XfsError} (nowhere : NoEntry firstError)
    (failed : overlayFind path layers i firstError = .error err) :
    shownIn layers path = none ∧ NoEntry err := by
  induction layers generalizing i firstError with
  | nil =>
    cases failed
    exact ⟨rfl, nowhere⟩
  | cons layer layers ih =>
    rw [overlayFind] at failed
    by_cases available : overlayLayerAvailable layer
    · rw [if_pos available] at failed
      cases stat : layer.stat path with
      | ok info => rw [stat] at failed; cases failed
      | error missed =>
        rw [stat] at failed
        have absent := OverlayLayer.object_none_of_stat available fits stat
        obtain ⟨rest, final⟩ := ih (by split <;> [exact absent.2; exact nowhere]) failed
        refine ⟨?_, final⟩
        rw [shownIn_cons, OverlayLayer.shown_of_available available, absent.1, rest, Option.or_none]
    · rw [if_neg available] at failed
      obtain ⟨rest, final⟩ := ih nowhere failed
      refine ⟨?_, final⟩
      rw [shownIn_cons, OverlayLayer.shown_of_unavailable available, rest, Option.or_none]

theorem overlayStat_of_shown {o : Overlay} {path : List Name} (fits : PathFits path)
    {object : LayerObject} (shown : shownIn o.layers path = some object) :
    ∃ info, overlayStat o path = .ok info ∧ info.kindSize = object.kindSize := by
  rw [overlayStat]
  cases found : overlayFind path o.layers 0 .noent with
  | error err =>
    have absent := (overlayFind_error fits (.inl rfl) found).1
    rw [shown] at absent
    cases absent
  | ok answer =>
    rcases answer with ⟨i, info⟩
    obtain ⟨above, layer, below, layers, -, answers, stat⟩ := overlayFind_ok fits found
    obtain ⟨held, same, describes⟩ := OverlayLayer.object_of_stat answers.available fits stat
    rw [layers, answers.shownIn_eq, same] at shown
    cases shown
    dsimp only
    split
    · exact ⟨_, rfl, describes⟩
    · exact ⟨_, rfl, describes⟩

theorem overlayStat_of_not_shown {o : Overlay} {path : List Name} (fits : PathFits path)
    (absent : shownIn o.layers path = none) :
    ∃ err, overlayStat o path = .error err ∧ NoEntry err := by
  rw [overlayStat]
  cases found : overlayFind path o.layers 0 .noent with
  | error err => exact ⟨err, rfl, (overlayFind_error fits (.inl rfl) found).2⟩
  | ok answer =>
    rcases answer with ⟨i, info⟩
    obtain ⟨above, layer, below, layers, -, answers, -⟩ := overlayFind_ok fits found
    have held := answers.holds
    rw [layers, answers.shownIn_eq] at absent
    rw [absent] at held
    cases held

end FuseX.Xfs
