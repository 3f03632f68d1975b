import FuseX.Xfs.Romfs

/-!
# The overlay engine

`xfs_overlay.c` stacks layers, the topmost first. A layer is a mount of the host
engine or of the ROM engine.

* `overlayStat`, `overlayUnlink`, `overlayRmdir`, `overlayRename` and
  `overlayOpen` walk the layers for the first available one that has the path
  (`overlayFind`) and hand the request to it;
* `overlayOpendir` merges the listings of all available layers into a cache that
  `overlayReaddir` reads out;
* `shownIn` is the reference: what the topmost layer that holds a path holds
  there.

Allocation failures are left out, and the layers do not share state.
-/

namespace FuseX.Xfs

open Lib

/-! ## Layers -/

/-- The engines a layer can be mounted with. -/
inductive LayerEngine : Type
  | ram (mount : FsMount)
  | romfs (image : RamfsImage)

/-- `xfs_overlay_layer_t`; `mounted` says that its `mount_data` is not `NULL`. -/
structure OverlayLayer : Type where
  engine : LayerEngine
  mounted : Bool

/-- `overlay_layer_available`; both engines have an `is_mounted`. -/
def overlayLayerAvailable (layer : OverlayLayer) : Bool :=
  layer.mounted

namespace OverlayLayer

/-- The layer after a call of the host engine. -/
def finish (layer : OverlayLayer) (result : Except XfsError Unit × FsMount) :
    Except XfsError Unit × OverlayLayer :=
  (result.1, { layer with engine := .ram result.2 })

/-- The ROM engine answers `IO` without a mount. -/
def romfs {α : Type} (layer : OverlayLayer) (answer : Except XfsError α) : Except XfsError α :=
  if layer.mounted then answer else .error .io

def stat (layer : OverlayLayer) (path : List Name) : Except XfsError XfsStatInfo :=
  match layer.engine with
  | .ram mount => fsStat mount path
  | .romfs image => layer.romfs (romfsStat image (pathText path))

def opendir (layer : OverlayLayer) (path : List Name) : Except XfsError (List XfsStatInfo) :=
  match layer.engine with
  | .ram mount => fsOpendir mount path
  | .romfs image => layer.romfs (romfsOpendir image (pathText path))

def openFile (layer : OverlayLayer) (path : List Name) (flags : UInt32) :
    Except XfsError Unit × OverlayLayer :=
  match layer.engine with
  | .ram mount => layer.finish (fsOpen mount path flags)
  | .romfs image => (layer.romfs (romfsOpen image (pathText path) flags), layer)

def unlink (layer : OverlayLayer) (path : List Name) : Except XfsError Unit × OverlayLayer :=
  match layer.engine with
  | .ram mount => layer.finish (fsUnlink mount path)
  | .romfs _ => (romfsUnlink, layer)

def mkdir (layer : OverlayLayer) (path : List Name) : Except XfsError Unit × OverlayLayer :=
  match layer.engine with
  | .ram mount => layer.finish (fsMkdir mount path)
  | .romfs _ => (romfsMkdir, layer)

def rmdir (layer : OverlayLayer) (path : List Name) : Except XfsError Unit × OverlayLayer :=
  match layer.engine with
  | .ram mount => layer.finish (fsRmdir mount path)
  | .romfs _ => (romfsRmdir, layer)

def rename (layer : OverlayLayer) (old new : List Name) : Except XfsError Unit × OverlayLayer :=
  match layer.engine with
  | .ram mount => layer.finish (fsRename mount old new)
  | .romfs _ => (romfsRename, layer)

end OverlayLayer

/-! ## The stack -/

/-- `xfs_overlay_mount_t`; `overlay_mount` sees to it that the default layer is
one of the stack. -/
structure Overlay : Type where
  layers : List OverlayLayer
  defaultLayer : Nat
  defaultOk : defaultLayer < layers.length

namespace Overlay

/-- The stack with its layer `i` replaced. -/
def setLayer (o : Overlay) (i : Nat) (layer : OverlayLayer) : Overlay where
  layers := o.layers.set i layer
  defaultLayer := o.defaultLayer
  defaultOk := by simpa using o.defaultOk

/-- Let layer `i` carry out a request. -/
def onLayer (o : Overlay) (i : Nat)
    (request : OverlayLayer → Except XfsError Unit × OverlayLayer) :
    Except XfsError Unit × Overlay :=
  match o.layers[i]? with
  | some layer => ((request layer).1, o.setLayer i (request layer).2)
  | none => (.error .io, o)

end Overlay

/-- `overlay_write_layer`: the default layer, or the first other available one. -/
def overlayWriteLayer (o : Overlay) : Option Nat :=
  let available := fun i => (o.layers[i]?).any overlayLayerAvailable
  if available o.defaultLayer then some o.defaultLayer
  else (List.range o.layers.length).find? fun i => i != o.defaultLayer && available i

/-- `overlay_is_system_dir`: the last layer has a system directory there. -/
def overlayIsSystemDir (o : Overlay) (path : List Name) : Bool :=
  match o.layers.getLast? with
  | some layer =>
      match layer.stat path with
      | .ok info => info.type = .dir && info.storage = .system
      | .error _ => false
  | none => false

/-- The loop over the layers that the path operations share: the first available
layer with the path and its record, or the first error that is not `NOENT`. -/
def overlayFind (path : List Name) :
    List OverlayLayer → Nat → XfsError → Except XfsError (Nat × XfsStatInfo)
  | [], _, firstError => .error firstError
  | layer :: layers, i, firstError =>
      if overlayLayerAvailable layer then
        match layer.stat path with
        | .ok info => .ok (i, info)
        | .error err =>
            overlayFind path layers (i + 1)
              (if err ≠ .noent ∧ firstError = .noent then err else firstError)
      else overlayFind path layers (i + 1) firstError

/-! ## Path operations -/

/-- `overlay_stat`. -/
def overlayStat (o : Overlay) (path : List Name) : Except XfsError XfsStatInfo :=
  match overlayFind path o.layers 0 .noent with
  | .ok (_, info) =>
      if info.type = .dir ∧ overlayIsSystemDir o path then
        .ok { info with storage := .system }
      else .ok info
  | .error err => .error err

/-- The body of `overlay_unlink` and `overlay_rmdir`: a system directory is
refused, anything else is left to the layer that has it. -/
def overlayRemove (request : OverlayLayer → List Name → Except XfsError Unit × OverlayLayer)
    (o : Overlay) (path : List Name) : Except XfsError Unit × Overlay :=
  match overlayFind path o.layers 0 .noent with
  | .ok (i, info) =>
      if info.type = .dir ∧ overlayIsSystemDir o path then (.error .inval, o)
      else o.onLayer i (request · path)
  | .error err => (.error err, o)

/-- `overlay_unlink`. -/
def overlayUnlink : Overlay → List Name → Except XfsError Unit × Overlay :=
  overlayRemove OverlayLayer.unlink

/-- `overlay_rmdir`. -/
def overlayRmdir : Overlay → List Name → Except XfsError Unit × Overlay :=
  overlayRemove OverlayLayer.rmdir

/-- `overlay_rename`: system directories are not asked after. -/
def overlayRename (o : Overlay) (old new : List Name) : Except XfsError Unit × Overlay :=
  match overlayFind old o.layers 0 .noent with
  | .ok (i, _) => o.onLayer i (·.rename old new)
  | .error err => (.error err, o)

/-- `overlay_mkdir`. -/
def overlayMkdir (o : Overlay) (path : List Name) : Except XfsError Unit × Overlay :=
  match overlayWriteLayer o with
  | some i => o.onLayer i (·.mkdir path)
  | none => (.error .io, o)

/-! ## Opening a file -/

/-- The loop of `overlay_mkdir_shadow` over the layers other than the target. -/
def overlayShadowLoop (o : Overlay) (target : Nat) (parent : List Name) :
    List OverlayLayer → Nat → Except XfsError Unit × Overlay
  | [], _ => (.error .noent, o)
  | layer :: layers, i =>
      if i = target ∨ !overlayLayerAvailable layer then
        overlayShadowLoop o target parent layers (i + 1)
      else
        match layer.stat parent with
        | .ok info =>
            if info.type = .dir then
              match o.onLayer target (·.mkdir parent) with
              | (.error .exist, made) => (.ok (), made)
              | made => made
            else (.error .notdir, o)
        | .error .noent => overlayShadowLoop o target parent layers (i + 1)
        | .error err => (.error err, o)

/-- `overlay_mkdir_shadow`: the parent of the path, made on the target layer if
another layer has it. -/
def overlayMkdirShadow (o : Overlay) (target : Nat) (path : List Name) :
    Except XfsError Unit × Overlay :=
  if path.length ≤ 1 then (.ok (), o)
  else if xfsPathMax ≤ (pathText path.dropLast).length then (.error .nametoolong, o)
  else
    match o.layers[target]? with
    | none => (.error .io, o)
    | some layer =>
        match layer.stat path.dropLast with
        | .ok info => if info.type = .dir then (.ok (), o) else (.error .notdir, o)
        | .error .noent => overlayShadowLoop o target path.dropLast o.layers 0
        | .error err => (.error err, o)

/-- Open on layer `i`; the handle remembers the layer. -/
def openOn (o : Overlay) (i : Nat) (path : List Name) (flags : UInt32) :
    Except XfsError Nat × Overlay :=
  match o.onLayer i (·.openFile path flags) with
  | (.ok (), opened) => (.ok i, opened)
  | (.error err, opened) => (.error err, opened)

/-- `overlay_open`: the layer the file is opened on. With `XFS_O_CREAT` that is
the write layer, otherwise the first layer that has the path. -/
def overlayOpen (o : Overlay) (path : List Name) (flags : UInt32) :
    Except XfsError Nat × Overlay :=
  if hasFlag flags xfsOCreat then
    match overlayWriteLayer o with
    | none => (.error .io, o)
    | some i =>
        match overlayMkdirShadow o i path with
        | (.ok (), shadowed) => openOn shadowed i path flags
        | (.error err, shadowed) => (.error err, shadowed)
  else
    match overlayFind path o.layers 0 .noent with
    | .ok (i, _) => openOn o i path flags
    | .error firstError =>
        match overlayWriteLayer o with
        | some i => openOn o i path flags
        | none => (.error firstError, o)

/-! ## Directories -/

/-- `overlay_join_path`, with the path of the child it stands for. -/
def overlayJoinPath (dir : List Name) (name : CString) : Except XfsError (List Name) :=
  if h : IsName name then
    if PathFits (dir ++ [⟨name, h⟩]) then .ok (dir ++ [⟨name, h⟩]) else .error .nametoolong
  else .error .nametoolong

/-- `overlay_cached_name_seen`. -/
def overlayCachedNameSeen (cached : List XfsStatInfo) (name : CString) : Bool :=
  cached.any (·.name = name)

/-- `overlay_cache_readdir_entry`. -/
def overlayCacheReaddirEntry (o : Overlay) (path : List Name) (cached : List XfsStatInfo)
    (info : XfsStatInfo) : Except XfsError (List XfsStatInfo) :=
  if info.name = [dot] ∨ info.name = [dot, dot] then .ok cached
  else if overlayCachedNameSeen cached info.name then .ok cached
  else if info.type = .dir then
    match overlayJoinPath path info.name with
    | .error err => .error err
    | .ok child =>
        .ok (cached ++ [if overlayIsSystemDir o child then { info with storage := .system }
          else info])
  else .ok (cached ++ [info])

/-- The inner loop of `overlay_scan_dir`, over the records of one layer. -/
def overlayCacheAll (o : Overlay) (path : List Name) :
    List XfsStatInfo → List XfsStatInfo → Except XfsError (List XfsStatInfo)
  | cached, [] => .ok cached
  | cached, info :: infos =>
      match overlayCacheReaddirEntry o path cached info with
      | .ok cached => overlayCacheAll o path cached infos
      | .error err => .error err

/-- `overlay_scan_dir`. -/
def overlayScanDir (o : Overlay) (path : List Name) :
    List OverlayLayer → Bool → List XfsStatInfo → Except XfsError (List XfsStatInfo)
  | [], openedAny, cached => if openedAny then .ok cached else .error .noent
  | layer :: layers, openedAny, cached =>
      if overlayLayerAvailable layer then
        match layer.opendir path with
        | .error .noent => overlayScanDir o path layers openedAny cached
        | .error err => .error err
        | .ok infos =>
            match overlayCacheAll o path cached infos with
            | .ok cached => overlayScanDir o path layers true cached
            | .error err => .error err
      else overlayScanDir o path layers openedAny cached

/-- `xfs_overlay_dir_handle_t`. -/
structure OverlayDirHandle : Type where
  entries : List XfsStatInfo
  position : Nat := 0
  parentEmitted : Bool := false

/-- `overlay_opendir`. -/
def overlayOpendir (o : Overlay) (path : List Name) : Except XfsError OverlayDirHandle :=
  match overlayScanDir o path o.layers false [] with
  | .ok entries => .ok { entries := entries }
  | .error err => .error err

/-- `overlay_emit_parent`. -/
def overlayEmitParent : XfsStatInfo :=
  { type := .dir, storage := .ram, size := 0, name := [dot, dot] }

/-- `overlay_readdir`: the next record, or none at the end. -/
def overlayReaddir (handle : OverlayDirHandle) : Option XfsStatInfo × OverlayDirHandle :=
  if !handle.parentEmitted then
    (some overlayEmitParent, { handle with parentEmitted := true })
  else
    match handle.entries[handle.position]? with
    | some info => (some info, { handle with position := handle.position + 1 })
    | none => (none, handle)

/-- The records of at most `calls` calls of `overlay_readdir`, up to the end. -/
def readdirUpTo : Nat → OverlayDirHandle → List XfsStatInfo
  | 0, _ => []
  | calls + 1, handle =>
      match overlayReaddir handle with
      | (some info, rest) => info :: readdirUpTo calls rest
      | (none, _) => []

/-- Open a directory and read it to its end; the handle holds as many records as
it has, so two calls more than that reach it. -/
def overlayListing (o : Overlay) (path : List Name) : Except XfsError (List XfsStatInfo) :=
  match overlayOpendir o path with
  | .ok handle => .ok (readdirUpTo (handle.entries.length + 2) handle)
  | .error err => .error err

/-! ## The reference -/

/-- What a layer holds at a path: a node of the host with all below it, an entry
of the image, or the root of the image. -/
inductive LayerObject : Type
  | node (node : HostNode)
  | entry (entry : RamfsEntry)
  | romRoot

namespace LayerObject

def type : LayerObject → XfsType
  | .node (.dir _) => .dir
  | .node (.file _) => .reg
  | .entry found => found.type
  | .romRoot => .dir

def size : LayerObject → UInt32
  | .node (.dir _) => 0
  | .node (.file content) => .ofNat content.length
  | .entry found => found.size
  | .romRoot => 0

end LayerObject

def OverlayLayer.object (layer : OverlayLayer) (path : List Name) : Option LayerObject :=
  match layer.engine with
  | .ram mount =>
      match mount.host.walk (buildPath mount path) with
      | .ok node => some (.node node)
      | .error _ => none
  | .romfs image => if path = [] then some .romRoot else (image.entryAt path).map .entry

/-- The object of an available layer. -/
def OverlayLayer.shown (layer : OverlayLayer) (path : List Name) : Option LayerObject :=
  if overlayLayerAvailable layer then layer.object path else none

/-- The object of the topmost available layer that holds the path. -/
def shownIn (layers : List OverlayLayer) (path : List Name) : Option LayerObject :=
  layers.findSome? (·.shown path)

end FuseX.Xfs
