import FuseX.Xfs.OverlayView

/-!
# Stat and listing of the merged tree

`overlay_stat` walks the layers per path, `overlay_opendir` merges what the
layers list. The two views of a child agree (`UnionConsistent`) where the
parent is `Mergeable`: every available layer either lists it or has no such
entry, and the names and paths below it fit their buffers. A name that starts
with a dot is left out, as the host engine does not list it.

The argument is one `find?` through all stages: what a layer lists under a name
is what it holds there (`OverlayLayer.find?_opendir`), the cache looks a name up
in the layers in turn (`overlayCacheAll_find?`, `overlayScanDir_spec`), and that
is what the stack shows.
-/

namespace FuseX.Xfs

open Lib

/-! ## The statement -/

/-- The stat of a child and the listing of its parent agree. -/
structure UnionConsistent (o : Overlay) (parent : List Name) (name : Name) : Prop where
  visible : (∃ info, overlayStat o (parent ++ [name]) = .ok info) ↔
    ∃ infos, overlayListing o parent = .ok infos ∧ ∃ entry ∈ infos, entry.name = name.val
  agree : ∀ info infos, overlayStat o (parent ++ [name]) = .ok info →
    overlayListing o parent = .ok infos → ∀ entry ∈ infos, entry.name = name.val →
      entry.type = info.type ∧ entry.size = info.size
  once : ∀ infos, overlayListing o parent = .ok infos → (infos.map (·.name)).Nodup
  topmostStat : ∀ info, overlayStat o (parent ++ [name]) = .ok info →
    ∃ object, shownIn o.layers (parent ++ [name]) = some object ∧
      info.type = object.type ∧ info.size = object.size
  topmostEntry : ∀ infos, overlayListing o parent = .ok infos →
    ∀ entry ∈ infos, entry.name = name.val →
      ∃ object, shownIn o.layers (parent ++ [name]) = some object ∧
        entry.type = object.type ∧ entry.size = object.size

/-- A layer whose part of the directory the scan can merge. -/
structure LayerMergeable (layer : OverlayLayer) (parent : List Name) : Prop where
  opens : (∃ infos, layer.opendir parent = .ok infos) ∨ layer.opendir parent = .error .noent
  namesFit : ∀ child : Name, (layer.object (parent ++ [child])).isSome →
    child.val.length ≤ statNameMax
  dirsFit : ∀ infos, layer.opendir parent = .ok infos → ∀ info ∈ infos, info.type = .dir →
    ∀ proper : IsName info.name, PathFits (parent ++ [⟨info.name, proper⟩])

/-- All available layers can be merged. -/
def Mergeable (layers : List OverlayLayer) (parent : List Name) : Prop :=
  ∀ layer ∈ layers, overlayLayerAvailable layer → LayerMergeable layer parent

/-! ## One layer -/

theorem statName_of_fits {name : CString} (fits : name.length ≤ statNameMax) :
    statName name = name :=
  List.take_of_length_le fits

theorem name_fsStatInfo (node : HostNode) (name : CString) :
    (fsStatInfo node name).name = statName name := by
  cases node with
  | file content => rfl
  | dir entries => rfl

/-- A name of a host directory that fits its field and is not hidden is listed
with the node it leads to. -/
theorem find?_filterMap_fsReaddirEntry {name : Name} (plain : name.val.head? ≠ some dot)
    {entries : List (Name × HostNode)}
    (namesFit : ∀ entry ∈ entries, entry.1.val.length ≤ statNameMax) :
    ((entries.filterMap fsReaddirEntry).find? (·.name = name.val)).map XfsStatInfo.kindSize =
      (entries.lookup name).map (LayerObject.kindSize ∘ LayerObject.node) := by
  induction entries with
  | nil => rfl
  | cons entry entries ih =>
    rcases entry with ⟨key, node⟩
    have rest := ih fun other member => namesFit other (List.mem_cons_of_mem _ member)
    have kept := statName_of_fits (namesFit _ List.mem_cons_self)
    by_cases same : name = key
    · subst same
      have listed : fsReaddirEntry (name, node) = some (fsStatInfo node name.val) := by
        rw [fsReaddirEntry, if_neg plain]
      have named : (fsStatInfo node name.val).name = name.val :=
        (name_fsStatInfo node name.val).trans kept
      rw [List.filterMap_cons_some listed, List.find?_cons_of_pos (by simpa using named),
        List.lookup_cons_self]
      exact congrArg some (kindSize_fsStatInfo node name.val)
    · have unequal : (name == key) = false := by simpa using same
      rw [List.lookup_cons, unequal]
      cases listed : fsReaddirEntry (key, node) with
      | none => rw [List.filterMap_cons_none listed, rest]
      | some info =>
        have named : info.name = key.val := by
          rw [fsReaddirEntry] at listed
          split at listed
          · cases listed
          · cases listed
            exact (name_fsStatInfo node key.val).trans kept
        have other : ¬ info.name = name.val := by
          rw [named]
          exact fun equal => same (Name.ext equal.symm)
        rw [List.filterMap_cons_some listed, List.find?_cons_of_neg (by simpa using other), rest]

namespace OverlayLayer

variable {layer : OverlayLayer} {parent : List Name} {infos : List XfsStatInfo}

theorem object_child_ram {mount : FsMount} {entries : List (Name × HostNode)}
    (engine : layer.engine = .ram mount)
    (reached : mount.host.walk (buildPath mount parent) = .ok (.dir entries)) (name : Name) :
    layer.object (parent ++ [name]) = (entries.lookup name).map .node := by
  have child : buildPath mount (parent ++ [name]) = buildPath mount parent ++ [name] :=
    (List.append_assoc mount.base parent [name]).symm
  simp only [OverlayLayer.object, engine]
  rw [child, Tree.walk_child name reached]
  cases entries.lookup name with
  | none => rfl
  | some node => rfl

theorem object_child_romfs {image : RamfsImage} (engine : layer.engine = .romfs image)
    (name : Name) :
    layer.object (parent ++ [name]) = (image.entryAt (parent ++ [name])).map .entry := by
  simp only [OverlayLayer.object, engine]
  rw [if_neg (by simp)]

/-- The two ways an `opendir` of the host engine ends in a listing or not. -/
theorem opendir_ram_ok {mount : FsMount} (engine : layer.engine = .ram mount)
    (opened : layer.opendir parent = .ok infos) :
    ∃ entries, mount.host.walk (buildPath mount parent) = .ok (.dir entries) ∧
      infos = { type := .dir, storage := .flash, size := 0, name := [dot, dot] } ::
        entries.filterMap fsReaddirEntry := by
  simp only [OverlayLayer.opendir, engine, fsOpendir] at opened
  split at opened
  · next entries reached =>
    cases opened
    exact ⟨entries, Posix.lookup_eq_ok.mp reached, rfl⟩
  · cases opened
  · cases opened

/-- The path `ramfs_readdir` compares with is the canonical one. -/
theorem ramfsOpendir_pathText {image : RamfsImage} (fits : PathFits parent) :
    ramfsOpendir image (pathText parent) =
      if parent = [] then some (pathText parent)
      else
        match image.entryAt parent with
        | some entry => if entry.type = .dir then some (pathText parent) else none
        | none => none := by
  rw [ramfsOpendir, normalizePath_pathText fits]
  by_cases root : parent = []
  · subst root
    rfl
  · have found := image.ramfsFind_pathText fits root
    rw [if_neg (pathText_ne_slash root), if_neg root]
    cases entry : image.entryAt parent <;> simp only [found, entry]

theorem opendir_romfs_ok {image : RamfsImage} (engine : layer.engine = .romfs image)
    (mounted : layer.mounted) (fits : PathFits parent)
    (opened : layer.opendir parent = .ok infos) :
    infos = (image.entries.filter (·.parent = pathText parent)).map romfsStatInfo := by
  simp only [OverlayLayer.opendir, engine, romfs_of_mounted mounted, romfsOpendir] at opened
  split at opened
  · next dirPath located =>
    cases opened
    rw [ramfsOpendir_pathText fits] at located
    have same : pathText parent = dirPath := by
      split at located
      · exact Option.some.inj located
      · split at located
        · split at located
          · exact Option.some.inj located
          · cases located
        · cases located
    rw [ramfsReaddir, same]
  · cases opened

theorem opendir_romfs_root {image : RamfsImage} (engine : layer.engine = .romfs image)
    (mounted : layer.mounted) : layer.opendir [] ≠ .error .noent := by
  have fits : PathFits [] := by decide
  simp only [OverlayLayer.opendir, engine, romfs_of_mounted mounted, romfsOpendir]
  rw [ramfsOpendir_pathText fits, if_pos rfl]
  intro failed
  cases failed

/-- An image lists nothing only where no directory of the table is. -/
theorem entryAt_of_opendir_noent {image : RamfsImage} (engine : layer.engine = .romfs image)
    (mounted : layer.mounted) (fits : PathFits parent) {above : RamfsEntry}
    (found : image.entryAt parent = some above) (isDir : above.type = .dir) :
    layer.opendir parent ≠ .error .noent := by
  simp only [OverlayLayer.opendir, engine, romfs_of_mounted mounted, romfsOpendir]
  rw [ramfsOpendir_pathText fits, found]
  dsimp only
  rw [if_pos isDir]
  intro failed
  split at failed
  · cases failed
  · next missing => split at missing <;> cases missing

/-- What a layer lists under a name is what it holds there. -/
theorem find?_opendir {name : Name} (plain : name.val.head? ≠ some dot) (mounted : layer.mounted)
    (fits : PathFits parent) (mergeable : LayerMergeable layer parent)
    (opened : layer.opendir parent = .ok infos) :
    (infos.find? (·.name = name.val)).map XfsStatInfo.kindSize =
      (layer.object (parent ++ [name])).map LayerObject.kindSize := by
  cases engine : layer.engine with
  | ram mount =>
    obtain ⟨entries, reached, rfl⟩ := opendir_ram_ok engine opened
    have namesFit : ∀ entry ∈ entries, entry.1.val.length ≤ statNameMax := by
      intro entry member
      refine mergeable.namesFit entry.1 ?_
      rw [object_child_ram engine reached, Option.isSome_map, List.lookup_isSome_iff]
      exact ⟨entry, member, by simp⟩
    have notParent : ¬ ([dot, dot] : CString) = name.val := name.property.2.2.1 ∘ Eq.symm
    rw [List.find?_cons_of_neg (by simpa using notParent),
      find?_filterMap_fsReaddirEntry plain namesFit, object_child_ram engine reached,
      Option.map_map]
  | romfs image =>
    have listed := opendir_romfs_ok engine mounted fits opened
    rw [listed, object_child_romfs engine, List.find?_map, List.find?_filter, Option.map_map,
      Option.map_map, RamfsImage.entryAt]
    refine congrArg (Option.map fun entry : RamfsEntry => (entry.type, entry.size))
      (List.find?_congr fun entry member => ?_)
    have short := (image.named entry member).2
    have kept : (romfsStatInfo entry).name = entry.name :=
      statName_of_fits (Nat.le_of_lt_succ short)
    rw [decide_eq_decide, RamfsImage.fullText_child_iff member parent name]
    simp [kept]

/-- A layer without the directory holds nothing in it. -/
theorem object_of_opendir_noent {name : Name} (mounted : layer.mounted) (fits : PathFits parent)
    (missing : layer.opendir parent = .error .noent) : layer.object (parent ++ [name]) = none := by
  cases engine : layer.engine with
  | ram mount =>
    have child : buildPath mount (parent ++ [name]) = buildPath mount parent ++ [name] :=
      (List.append_assoc mount.base parent [name]).symm
    simp only [OverlayLayer.opendir, engine, fsOpendir] at missing
    simp only [OverlayLayer.object, engine]
    rw [child, Tree.walk_append]
    cases reached : mount.host.walk (buildPath mount parent) with
    | error err => rfl
    | ok node =>
      rw [Posix.lookup_eq_ok.mpr reached] at missing
      cases node with
      | file content => cases missing
      | dir entries => cases missing
  | romfs image =>
    rw [object_child_romfs engine, Option.map_eq_none_iff]
    cases found : image.entryAt (parent ++ [name]) with
    | none => rfl
    | some entry =>
      rcases RamfsImage.parent_of_entryAt found with rfl | ⟨above, located, isDir⟩
      · exact absurd missing (opendir_romfs_root engine mounted)
      · exact absurd missing (entryAt_of_opendir_noent engine mounted fits located isDir)

/-- Every name a mergeable layer lists can be listed, the parent's apart. -/
theorem proper_of_opendir (mounted : layer.mounted) (fits : PathFits parent)
    (mergeable : LayerMergeable layer parent) (opened : layer.opendir parent = .ok infos) :
    ∀ info ∈ infos, info.name = [dot, dot] ∨ IsName info.name := by
  intro info member
  cases engine : layer.engine with
  | ram mount =>
    obtain ⟨entries, reached, rfl⟩ := opendir_ram_ok engine opened
    rcases List.mem_cons.mp member with rfl | below
    · exact .inl rfl
    · obtain ⟨entry, entryMember, listed⟩ := List.mem_filterMap.mp below
      have held : (layer.object (parent ++ [entry.1])).isSome := by
        rw [object_child_ram engine reached, Option.isSome_map, List.lookup_isSome_iff]
        exact ⟨entry, entryMember, by simp⟩
      rw [fsReaddirEntry] at listed
      split at listed
      · cases listed
      · cases listed
        rw [name_fsStatInfo, statName_of_fits (mergeable.namesFit entry.1 held)]
        exact .inr entry.1.property
  | romfs image =>
    rw [opendir_romfs_ok engine mounted fits opened] at member
    obtain ⟨entry, entryMember, rfl⟩ := List.mem_map.mp member
    have named := image.named entry (List.mem_filter.mp entryMember).1
    have kept : (romfsStatInfo entry).name = entry.name :=
      statName_of_fits (Nat.le_of_lt_succ named.2)
    exact .inr (kept ▸ named.1)

end OverlayLayer

/-! ## The cache -/

/-- The cache lists every name once and never the parent. -/
structure CacheOk (cached : List XfsStatInfo) : Prop where
  nodup : (cached.map (·.name)).Nodup
  noParent : ∀ info ∈ cached, info.name ≠ [dot, dot]

/-- The kind and size cached under a name. -/
def cachedAt (infos : List XfsStatInfo) (name : CString) : Option (XfsType × UInt32) :=
  (infos.find? (·.name = name)).map XfsStatInfo.kindSize

theorem cachedAt_append (front rest : List XfsStatInfo) (name : CString) :
    cachedAt (front ++ rest) name = (cachedAt front name).or (cachedAt rest name) := by
  rw [cachedAt, List.find?_append]
  cases found : front.find? (·.name = name) with
  | none => simp [cachedAt, found]
  | some info => simp [cachedAt, found]

theorem cachedAt_cons (info : XfsStatInfo) (infos : List XfsStatInfo) (name : CString) :
    cachedAt (info :: infos) name =
      if info.name = name then some info.kindSize else cachedAt infos name := by
  by_cases same : info.name = name
  · rw [cachedAt, List.find?_cons_of_pos (by simpa using same), if_pos same]
    rfl
  · rw [cachedAt, List.find?_cons_of_neg (by simpa using same), if_neg same]
    rfl

theorem cachedAt_isSome_iff {infos : List XfsStatInfo} {name : CString} :
    (cachedAt infos name).isSome ↔ ∃ info ∈ infos, info.name = name := by
  rw [cachedAt, Option.isSome_map, List.find?_isSome]
  simp

/-- In a cache with one record a name, that record is the one found. -/
theorem cachedAt_of_mem {infos : List XfsStatInfo} (nodup : (infos.map (·.name)).Nodup)
    {info : XfsStatInfo} (member : info ∈ infos) :
    cachedAt infos info.name = some info.kindSize := by
  induction infos with
  | nil => exact absurd member List.not_mem_nil
  | cons first infos ih =>
    rw [List.map_cons, List.nodup_cons] at nodup
    rw [cachedAt_cons]
    rcases List.mem_cons.mp member with rfl | later
    · rw [if_pos rfl]
    · have different : first.name ≠ info.name := by
        intro same
        exact nodup.1 (same ▸ List.mem_map_of_mem later)
      rw [if_neg different, ih nodup.2 later]

/-- What one record does to the cache: nothing, or it is appended under a new
name with its kind and size. -/
theorem overlayCacheReaddirEntry_cases {o : Overlay} {path : List Name}
    {cached merged : List XfsStatInfo} {info : XfsStatInfo}
    (ok : overlayCacheReaddirEntry o path cached info = .ok merged) :
    merged = cached ∧ (info.name = [dot] ∨ info.name = [dot, dot] ∨
      (cachedAt cached info.name).isSome) ∨
    ∃ kept, merged = cached ++ [kept] ∧ kept.name = info.name ∧ kept.kindSize = info.kindSize ∧
      info.name ≠ [dot, dot] ∧ cachedAt cached info.name = none := by
  rw [overlayCacheReaddirEntry] at ok
  split at ok
  · next dots =>
    cases ok
    exact .inl ⟨rfl, dots.elim .inl fun up => .inr (.inl up)⟩
  · next plain =>
    have notParent : info.name ≠ [dot, dot] := fun up => plain (.inr up)
    split at ok
    · next seen =>
      cases ok
      refine .inl ⟨rfl, .inr (.inr (cachedAt_isSome_iff.mpr ?_))⟩
      simpa [overlayCachedNameSeen] using seen
    · next unseen =>
      have fresh : cachedAt cached info.name = none := by
        rw [← Option.not_isSome_iff_eq_none, cachedAt_isSome_iff]
        simpa [overlayCachedNameSeen] using unseen
      right
      split at ok
      · split at ok
        · cases ok
        · cases ok
          refine ⟨_, rfl, ?_, ?_, notParent, fresh⟩
          · split <;> rfl
          · split <;> rfl
      · cases ok
        exact ⟨info, rfl, rfl, rfl, notParent, fresh⟩

/-- A record is cached unless it is a directory whose path does not fit. -/
theorem overlayCacheReaddirEntry_ok (o : Overlay) {path : List Name} (cached : List XfsStatInfo)
    {info : XfsStatInfo} (proper : info.name = [dot, dot] ∨ IsName info.name)
    (fits : info.type = .dir → ∀ proper : IsName info.name,
      PathFits (path ++ [⟨info.name, proper⟩])) :
    ∃ merged, overlayCacheReaddirEntry o path cached info = .ok merged := by
  rw [overlayCacheReaddirEntry]
  split
  · exact ⟨cached, rfl⟩
  · next plain =>
    have named : IsName info.name := proper.resolve_left fun up => plain (.inr up)
    split
    · exact ⟨cached, rfl⟩
    · split
      · next isDir =>
        rw [overlayJoinPath, dif_pos named, if_pos (fits isDir named)]
        exact ⟨_, rfl⟩
      · exact ⟨_, rfl⟩

theorem CacheOk.step {o : Overlay} {path : List Name} {cached merged : List XfsStatInfo}
    {info : XfsStatInfo} (cacheOk : CacheOk cached)
    (ok : overlayCacheReaddirEntry o path cached info = .ok merged) : CacheOk merged := by
  rcases overlayCacheReaddirEntry_cases ok with ⟨rfl, -⟩ | ⟨kept, rfl, name, -, notParent, fresh⟩
  · exact cacheOk
  · constructor
    · rw [List.map_append, List.nodup_append]
      refine ⟨cacheOk.nodup, List.nodup_singleton _, ?_⟩
      intro other otherMember last lastMember same
      obtain ⟨held, heldMember, rfl⟩ := List.mem_map.mp otherMember
      rw [List.map_singleton, List.mem_singleton, name] at lastMember
      have seen := cachedAt_isSome_iff.mpr ⟨held, heldMember, same.trans lastMember⟩
      rw [fresh] at seen
      cases seen
    · intro other member
      rcases List.mem_append.mp member with old | new
      · exact cacheOk.noParent other old
      · rw [List.mem_singleton.mp new, name]
        exact notParent

/-- After one record the cache answers for a name as before, or as the record
does. -/
theorem cachedAt_step {o : Overlay} {path : List Name} {cached merged : List XfsStatInfo}
    {info : XfsStatInfo} {name : CString} (proper : IsName name)
    (ok : overlayCacheReaddirEntry o path cached info = .ok merged) :
    cachedAt merged name =
      (cachedAt cached name).or (if info.name = name then some info.kindSize else none) := by
  rcases overlayCacheReaddirEntry_cases ok with
    ⟨rfl, dotted | parent | seen⟩ | ⟨kept, rfl, named, kindSize, -, -⟩
  · have other : info.name ≠ name := fun same => proper.2.1 (same ▸ dotted)
    rw [if_neg other, Option.or_none]
  · have other : info.name ≠ name := fun same => proper.2.2.1 (same ▸ parent)
    rw [if_neg other, Option.or_none]
  · by_cases same : info.name = name
    · rw [same] at seen
      obtain ⟨found, held⟩ := Option.isSome_iff_exists.mp seen
      rw [held, Option.some_or]
    · rw [if_neg same, Option.or_none]
  · rw [cachedAt_append, cachedAt_cons, named, kindSize]
    rfl

theorem CacheOk.all {o : Overlay} {path : List Name} {infos cached merged : List XfsStatInfo}
    (cacheOk : CacheOk cached) (ok : overlayCacheAll o path cached infos = .ok merged) :
    CacheOk merged := by
  induction infos generalizing cached with
  | nil =>
    cases ok
    exact cacheOk
  | cons info infos ih =>
    rw [overlayCacheAll] at ok
    cases entry : overlayCacheReaddirEntry o path cached info with
    | error err => rw [entry] at ok; cases ok
    | ok next =>
      rw [entry] at ok
      exact ih (cacheOk.step entry) ok

theorem cachedAt_all {o : Overlay} {path : List Name} {infos cached merged : List XfsStatInfo}
    {name : CString} (proper : IsName name)
    (ok : overlayCacheAll o path cached infos = .ok merged) :
    cachedAt merged name = (cachedAt cached name).or (cachedAt infos name) := by
  induction infos generalizing cached with
  | nil =>
    cases ok
    exact (Option.or_none).symm
  | cons info infos ih =>
    rw [overlayCacheAll] at ok
    cases entry : overlayCacheReaddirEntry o path cached info with
    | error err => rw [entry] at ok; cases ok
    | ok next =>
      rw [entry] at ok
      rw [ih ok, cachedAt_step proper entry, Option.or_assoc, cachedAt_cons]
      split
      · rw [Option.some_or]
      · rw [Option.none_or]

theorem overlayCacheAll_ok (o : Overlay) {path : List Name} {infos : List XfsStatInfo}
    (cached : List XfsStatInfo)
    (proper : ∀ info ∈ infos, info.name = [dot, dot] ∨ IsName info.name)
    (fits : ∀ info ∈ infos, info.type = .dir → ∀ proper : IsName info.name,
      PathFits (path ++ [⟨info.name, proper⟩])) :
    ∃ merged, overlayCacheAll o path cached infos = .ok merged := by
  induction infos generalizing cached with
  | nil => exact ⟨cached, rfl⟩
  | cons info infos ih =>
    obtain ⟨next, entry⟩ := overlayCacheReaddirEntry_ok o cached
      (proper info List.mem_cons_self) (fits info List.mem_cons_self)
    obtain ⟨merged, rest⟩ := ih next (fun other member => proper other (.tail _ member))
      (fun other member => fits other (.tail _ member))
    refine ⟨merged, ?_⟩
    rw [overlayCacheAll, entry]
    exact rest

/-! ## The scan -/

/-- The scan of mergeable layers ends in a cache that answers for every plain
name as the layers do, or finds no layer with the directory. -/
theorem overlayScanDir_spec (o : Overlay) {parent : List Name} (fits : PathFits parent)
    {layers : List OverlayLayer} (mergeable : Mergeable layers parent) (openedAny : Bool)
    {cached : List XfsStatInfo} (cacheOk : CacheOk cached) :
    (∃ merged, overlayScanDir o parent layers openedAny cached = .ok merged ∧ CacheOk merged ∧
      ∀ name : Name, name.val.head? ≠ some dot → cachedAt merged name.val =
        (cachedAt cached name.val).or
          ((shownIn layers (parent ++ [name])).map LayerObject.kindSize)) ∨
    (overlayScanDir o parent layers openedAny cached = .error .noent ∧ openedAny = false ∧
      ∀ name : Name, shownIn layers (parent ++ [name]) = none) := by
  induction layers generalizing openedAny cached with
  | nil =>
    cases openedAny with
    | true => exact .inl ⟨cached, rfl, cacheOk, fun name _ => (Option.or_none).symm⟩
    | false => exact .inr ⟨rfl, rfl, fun name => rfl⟩
  | cons layer layers ih =>
    have rest : Mergeable layers parent := fun next member => mergeable next (.tail _ member)
    rw [overlayScanDir]
    by_cases available : overlayLayerAvailable layer
    · have layerOk := mergeable layer List.mem_cons_self available
      rw [if_pos available]
      rcases layerOk.opens with ⟨infos, opened⟩ | missing
      · have proper := OverlayLayer.proper_of_opendir available fits layerOk opened
        obtain ⟨next, all⟩ := overlayCacheAll_ok o cached proper (layerOk.dirsFit infos opened)
        simp only [opened, all]
        rcases ih rest true (cacheOk.all all) with ⟨merged, scan, mergedOk, finds⟩ | ⟨-, no, -⟩
        · refine .inl ⟨merged, scan, mergedOk, fun name plain => ?_⟩
          have listed := OverlayLayer.find?_opendir plain available fits layerOk opened
          rw [finds name plain, cachedAt_all name.property all, Option.or_assoc, shownIn_cons,
            OverlayLayer.shown_of_available available]
          rw [show cachedAt infos name.val = _ from listed]
          cases layer.object (parent ++ [name]) with
          | none => simp
          | some object => simp
        · cases no
      · have nothing : ∀ name : Name, layer.shown (parent ++ [name]) = none := by
          intro name
          rw [OverlayLayer.shown_of_available available,
            OverlayLayer.object_of_opendir_noent available fits missing]
        simp only [missing]
        rcases ih rest openedAny cacheOk with ⟨merged, scan, mergedOk, finds⟩ | ⟨scan, no, absent⟩
        · refine .inl ⟨merged, scan, mergedOk, fun name plain => ?_⟩
          rw [finds name plain, shownIn_cons, nothing name, Option.none_or]
        · refine .inr ⟨scan, no, fun name => ?_⟩
          rw [shownIn_cons, nothing name, absent name, Option.none_or]
    · have nothing : ∀ name : Name, layer.shown (parent ++ [name]) = none :=
        fun name => OverlayLayer.shown_of_unavailable available
      rw [if_neg available]
      rcases ih rest openedAny cacheOk with ⟨merged, scan, mergedOk, finds⟩ | ⟨scan, no, absent⟩
      · refine .inl ⟨merged, scan, mergedOk, fun name plain => ?_⟩
        rw [finds name plain, shownIn_cons, nothing name, Option.none_or]
      · refine .inr ⟨scan, no, fun name => ?_⟩
        rw [shownIn_cons, nothing name, absent name, Option.none_or]

/-! ## Reading the handle -/

/-- Enough calls read the cache from the position of the handle to its end. -/
theorem readdirUpTo_emitted {entries : List XfsStatInfo} {position calls : Nat}
    (enough : entries.length - position < calls) :
    readdirUpTo calls { entries := entries, position := position, parentEmitted := true } =
      entries.drop position := by
  induction calls generalizing position with
  | zero => omega
  | succ calls ih =>
    rw [readdirUpTo, overlayReaddir]
    by_cases inside : position < entries.length
    · have rest := @ih (position + 1) (by omega)
      rw [List.drop_eq_getElem_cons inside, ← rest]
      simp [inside]
    · rw [List.drop_eq_nil_of_le (by omega)]
      simp [inside]

theorem overlayListing_eq {o : Overlay} {path : List Name} :
    overlayListing o path =
      (overlayScanDir o path o.layers false []).map (overlayEmitParent :: ·) := by
  rw [overlayListing, overlayOpendir]
  cases overlayScanDir o path o.layers false [] with
  | error err => rfl
  | ok entries =>
    change Except.ok (overlayEmitParent ::
      readdirUpTo (entries.length + 1) { entries := entries, position := 0, parentEmitted := true })
      = _
    rw [readdirUpTo_emitted (by omega)]
    rfl

/-! ## The two views -/

/-- The listing of a mergeable directory: the parent's record and a cache that
answers as the stack does, or no directory and nothing in it. -/
theorem overlayListing_spec {o : Overlay} {parent : List Name} (fits : PathFits parent)
    (mergeable : Mergeable o.layers parent) :
    (∃ cached, overlayListing o parent = .ok (overlayEmitParent :: cached) ∧ CacheOk cached ∧
      ∀ name : Name, name.val.head? ≠ some dot → cachedAt cached name.val =
        (shownIn o.layers (parent ++ [name])).map LayerObject.kindSize) ∨
    (overlayListing o parent = .error .noent ∧
      ∀ name : Name, shownIn o.layers (parent ++ [name]) = none) := by
  have empty : CacheOk [] := ⟨List.nodup_nil, fun info member => absurd member List.not_mem_nil⟩
  rw [overlayListing_eq]
  rcases overlayScanDir_spec o fits mergeable false empty with
    ⟨cached, scan, cacheOk, finds⟩ | ⟨scan, -, absent⟩
  · exact .inl ⟨cached, by rw [scan]; rfl, cacheOk, fun name plain => finds name plain⟩
  · exact .inr ⟨by rw [scan]; rfl, absent⟩

/-- A record of the listing under a proper name shows what the stack shows. -/
theorem kindSize_of_mem_listing {cached : List XfsStatInfo} (cacheOk : CacheOk cached)
    {name : Name} {object : Option LayerObject}
    (finds : cachedAt cached name.val = object.map LayerObject.kindSize)
    {entry : XfsStatInfo} (member : entry ∈ overlayEmitParent :: cached)
    (named : entry.name = name.val) :
    ∃ shown, object = some shown ∧ entry.kindSize = shown.kindSize := by
  rcases List.mem_cons.mp member with rfl | listed
  · exact absurd named.symm name.property.2.2.1
  · have held := cachedAt_of_mem cacheOk.nodup listed
    rw [named, finds] at held
    obtain ⟨shown, same, kindSize⟩ := Option.map_eq_some_iff.mp held
    exact ⟨shown, same, kindSize.symm⟩

/-- Where the directory can be merged, the stat of a plain child and the listing
agree, and both show the topmost layer's object. -/
theorem union_consistent (o : Overlay) (parent : List Name) (name : Name)
    (fits : PathFits (parent ++ [name])) (plain : name.val.head? ≠ some dot)
    (mergeable : Mergeable o.layers parent) : UnionConsistent o parent name := by
  have statShows : ∀ info, overlayStat o (parent ++ [name]) = .ok info →
      ∃ object, shownIn o.layers (parent ++ [name]) = some object ∧
        info.kindSize = object.kindSize := by
    intro info stat
    cases shown : shownIn o.layers (parent ++ [name]) with
    | none =>
      obtain ⟨err, failed, -⟩ := overlayStat_of_not_shown fits shown
      rw [stat] at failed
      cases failed
    | some object =>
      obtain ⟨other, same, describes⟩ := overlayStat_of_shown fits shown
      rw [stat] at same
      cases same
      exact ⟨object, rfl, describes⟩
  have listingShows : ∀ infos, overlayListing o parent = .ok infos →
      (infos.map (·.name)).Nodup ∧ ∀ entry ∈ infos, entry.name = name.val →
        ∃ object, shownIn o.layers (parent ++ [name]) = some object ∧
          entry.kindSize = object.kindSize := by
    intro infos listing
    rcases overlayListing_spec fits.parent mergeable with ⟨cached, same, cacheOk, finds⟩ | ⟨no, -⟩
    · rw [listing] at same
      cases same
      refine ⟨?_, fun entry member named =>
        kindSize_of_mem_listing cacheOk (finds name plain) member named⟩
      rw [List.map_cons, List.nodup_cons]
      refine ⟨fun member => ?_, cacheOk.nodup⟩
      obtain ⟨entry, entryMember, named⟩ := List.mem_map.mp member
      exact cacheOk.noParent entry entryMember named
    · rw [listing] at no
      cases no
  constructor
  · constructor
    · rintro ⟨info, stat⟩
      obtain ⟨object, shown, -⟩ := statShows info stat
      rcases overlayListing_spec fits.parent mergeable with ⟨cached, listing, -, finds⟩ | ⟨-, no⟩
      · have held : (cachedAt cached name.val).isSome := by
          rw [finds name plain, shown]
          rfl
        obtain ⟨entry, member, named⟩ := cachedAt_isSome_iff.mp held
        exact ⟨_, listing, entry, .tail _ member, named⟩
      · rw [no name] at shown
        cases shown
    · rintro ⟨infos, listing, entry, member, named⟩
      obtain ⟨object, shown, -⟩ := (listingShows infos listing).2 entry member named
      obtain ⟨info, stat, -⟩ := overlayStat_of_shown fits shown
      exact ⟨info, stat⟩
  · intro info infos stat listing entry member named
    obtain ⟨object, shown, ofStat⟩ := statShows info stat
    obtain ⟨other, same, ofEntry⟩ := (listingShows infos listing).2 entry member named
    rw [shown] at same
    cases same
    exact Prod.mk.inj (ofEntry.trans ofStat.symm)
  · exact fun infos listing => (listingShows infos listing).1
  · intro info stat
    obtain ⟨object, shown, describes⟩ := statShows info stat
    exact ⟨object, shown, Prod.mk.inj describes⟩
  · intro infos listing entry member named
    obtain ⟨object, shown, describes⟩ := (listingShows infos listing).2 entry member named
    exact ⟨object, shown, Prod.mk.inj describes⟩

/-- A ROM layer can always be merged: its image keeps names and paths short. -/
theorem layerMergeable_romfs {layer : OverlayLayer} {image : RamfsImage} {parent : List Name}
    (engine : layer.engine = .romfs image) (mounted : layer.mounted) (fits : PathFits parent) :
    LayerMergeable layer parent where
  opens := by
    simp only [OverlayLayer.opendir, engine, OverlayLayer.romfs_of_mounted mounted, romfsOpendir]
    split
    · exact .inl ⟨_, rfl⟩
    · exact .inr rfl
  namesFit := by
    intro child held
    rw [OverlayLayer.object_child_romfs engine, Option.isSome_map] at held
    obtain ⟨entry, found⟩ := Option.isSome_iff_exists.mp held
    have member := List.mem_of_find?_eq_some found
    have same := List.find?_some found
    rw [decide_eq_true_eq, RamfsImage.fullText_child_iff member] at same
    rw [← same.2]
    exact Nat.le_of_lt_succ (image.named entry member).2
  dirsFit := by
    intro infos opened info member _ proper
    rw [OverlayLayer.opendir_romfs_ok engine mounted fits opened] at member
    obtain ⟨entry, entryMember, rfl⟩ := List.mem_map.mp member
    obtain ⟨inTable, below⟩ := List.mem_filter.mp entryMember
    rw [decide_eq_true_eq] at below
    have named := image.named entry inTable
    have kept : (romfsStatInfo entry).name = entry.name :=
      statName_of_fits (Nat.le_of_lt_succ named.2)
    have text : pathText (parent ++ [⟨(romfsStatInfo entry).name, proper⟩]) = entry.fullText :=
      ((RamfsImage.fullText_child_iff inTable parent _).mpr ⟨below, kept.symm⟩).symm
    rw [PathFits, text]
    have fitting := RamfsImage.entryFullPath_eq inTable
    rw [entryFullPath] at fitting
    split at fitting
    · next short => exact short
    · cases fitting

/-! ## Two stacks -/

/-- A host directory over an image. -/
def hostOverImage (host : HostNode) (image : RamfsImage) : Overlay where
  layers := [⟨.ram ⟨host, []⟩, true⟩, ⟨.romfs image, true⟩]
  defaultLayer := 0
  defaultOk := Nat.zero_lt_succ _

def nameA : Name := ⟨[97], by decide⟩
def nameB : Name := ⟨[98], by decide⟩

/-- An image with the directory `/a` and the file `/a/b`. -/
def imageAB : RamfsImage where
  entries := [{ parent := [slash], name := [97], type := .dir, size := 0 },
    { parent := [slash, 97], name := [98], type := .reg, size := 7 }]
  named := by decide
  parented := by decide
  unique := by decide

/-- The file `b` of a host directory `a` hides the image's file: the listing of
`/a` has it once. -/
theorem union_consistent_shadowed :
    UnionConsistent (hostOverImage (.dir [(nameA, .dir [(nameB, .file [1, 2])])]) imageAB)
      [nameA] nameB := by
  refine union_consistent _ _ _ (by decide) (by decide) ?_
  intro layer member _
  rcases List.mem_cons.mp member with rfl | image
  · constructor
    · exact .inl ⟨_, rfl⟩
    · intro child held
      have children := @OverlayLayer.object_child_ram
        ⟨.ram ⟨.dir [(nameA, .dir [(nameB, .file [1, 2])])], []⟩, true⟩ [nameA] _
        [(nameB, .file [1, 2])] rfl rfl child
      rw [children, Option.isSome_map, List.lookup_isSome_iff] at held
      obtain ⟨entry, entryMember, same⟩ := held
      rw [List.mem_singleton.mp entryMember] at same
      rw [eq_of_beq same]
      decide
    · intro infos opened info infoMember isDir proper
      cases opened
      rcases List.mem_cons.mp infoMember with rfl | file
      · exact absurd rfl proper.2.2.1
      · rw [List.mem_singleton.mp file] at isDir
        cases isDir
  · rw [List.mem_singleton.mp image]
    exact layerMergeable_romfs rfl rfl (by decide)

/-- A stat that succeeds and a listing without the name. -/
theorem not_unionConsistent {o : Overlay} {parent : List Name} {name : Name}
    (stat : (overlayStat o (parent ++ [name])).isOk)
    (unlisted : (overlayListing o parent).toOption.all fun infos =>
      infos.all (·.name ≠ name.val)) : ¬ UnionConsistent o parent name := by
  intro consistent
  cases found : overlayStat o (parent ++ [name]) with
  | error err => rw [found] at stat; cases stat
  | ok info =>
    obtain ⟨infos, listing, entry, member, named⟩ := consistent.visible.mp ⟨info, found⟩
    rw [listing] at unlisted
    have different : ∀ info ∈ infos, info.name ≠ name.val := by
      simpa [Except.toOption] using unlisted
    exact different entry member named

/-- Four stacks on which the views differ: a hidden name of the host, a host file
over a directory of the image, a name that is cut off in the listing, and a
sibling directory whose path does not fit. -/
theorem union_views_differ :
    ¬ UnionConsistent (hostOverImage (.dir [(⟨[dot, 97], by decide⟩, .file [])]) imageAB) []
      ⟨[dot, 97], by decide⟩ ∧
    ¬ UnionConsistent (hostOverImage (.dir [(nameA, .file [])]) imageAB) [nameA] nameB ∧
    ¬ UnionConsistent (hostOverImage (.dir [(⟨.replicate 64 97, by decide⟩, .file [])]) imageAB) []
      ⟨.replicate 64 97, by decide⟩ ∧
    ¬ UnionConsistent
      (hostOverImage
        (.dir [(⟨.replicate 250 97, by decide⟩,
          .dir [(nameB, .file []), (⟨.replicate 5 97, by decide⟩, .dir [])])]) imageAB)
      [⟨.replicate 250 97, by decide⟩] nameB :=
  ⟨not_unionConsistent (by decide) (by decide),
    not_unionConsistent (by decide) (by decide),
    not_unionConsistent (by decide) (by decide),
    not_unionConsistent (by decide +kernel) (by decide +kernel)⟩

end FuseX.Xfs
