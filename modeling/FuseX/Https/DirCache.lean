import Mathlib.Data.List.FinRange
import Mathlib.Logic.Function.Basic

/-!
# The directory cache of the HTTPS file system

A directory on a web server is its `index.txt`. `opendir` fetches it; `stat` looks for the
entry in the cached index of the directory and fetches the index when it is not there. Both
put what they have fetched into one of four slots.

What the server answers is a parameter of each call, as is whether there is memory. Next to
the slots, a state remembers what has been fetched last for each directory.
-/

namespace FuseX.Https

/-- A C string. -/
abbrev Text := List Char

/-! ## Paths -/

def httpsCachePathMax : Nat := 256

/-- `https_normalize_dir_path` -/
def normalizeDirPath (path : Text) : Text :=
  if path = ['.'] ∨ path = ['.', '/'] then ['/']
  else
    let normalized := path.take (httpsCachePathMax - 1)
    if 1 < normalized.length ∧ normalized.getLast? = some '/' then normalized.dropLast
    else normalized

/-- Where the last slash is: `strrchr`. -/
def lastSlash (path : Text) : Option Nat :=
  (path.reverse.findIdx? (· = '/')).map fun back => path.length - 1 - back

/-- What fits into `entry_name`. -/
def entryName (name : Text) : Text := name.take 63

/-- The directory and the entry in it for which `https_stat` looks. -/
def splitPath (path : Text) : Text × Text :=
  match lastSlash path with
  | none => (['/'], entryName path)
  | some i =>
      let dir := if i = 0 then ['/'] else path.take (min i (httpsCachePathMax - 1))
      let name := path.drop (i + 1)
      if name ≠ [] then (dir, entryName name)
      else if dir = ['/'] then (dir, [])
      else
        -- the path ends with a slash: the entry is the directory itself
        match lastSlash dir with
        | none => (['/'], entryName dir)
        | some j => (if j = 0 then ['/'] else dir.take j, entryName (dir.drop (j + 1)))

/-! ## The cache -/

/-- `struct xfs_handle_https_dir_entry_t` -/
structure Entry where
  name : Text
  isDir : Bool
  size : UInt32
  deriving DecidableEq

def httpsDirCacheSize : Nat := 4

/-- `struct https_dir_cache_entry_t`, and in which fetch its entries came. -/
structure Slot where
  path : Text := []
  dirEntries : List Entry := []
  inUse : Bool := false
  fetch : Nat := 0

/-- `struct https_engine_mount_data_t`, and what has been fetched: how often, and for each
directory when it was last and what came. -/
structure Mount where
  dirCache : Fin httpsDirCacheSize → Slot := fun _ => {}
  nextCache : Fin httpsDirCacheSize := ⟨0, Nat.zero_lt_succ 3⟩
  fetches : Nat := 0
  latest : Text → Option (Nat × List Entry) := fun _ => none

/-- The index that was fetched last. -/
def Mount.listing (m : Mount) (dirPath : Text) : List Entry :=
  ((m.latest dirPath).map (·.2)).getD []

def findEntry (entries : List Entry) (name : Text) : Option Entry :=
  entries.find? (·.name = name)

/-- The first slot in use for the directory. -/
def Mount.findSlot (m : Mount) (dirPath : Text) : Option (Fin httpsDirCacheSize) :=
  (List.finRange httpsDirCacheSize).find? fun i =>
    (m.dirCache i).inUse && decide ((m.dirCache i).path = normalizeDirPath dirPath)

/-- `https_cache_find_entry` -/
def Mount.cacheFindEntry (m : Mount) (dirPath name : Text) : Option Entry :=
  (m.findSlot dirPath).bind fun i => findEntry (m.dirCache i).dirEntries name

def following (i : Fin httpsDirCacheSize) : Fin httpsDirCacheSize :=
  ⟨(i.val + 1) % httpsDirCacheSize, Nat.mod_lt _ (Nat.zero_lt_succ 3)⟩

/-- The first slot that is free. -/
def Mount.freeSlot (m : Mount) : Option (Fin httpsDirCacheSize) :=
  (List.finRange httpsDirCacheSize).find? fun i => !(m.dirCache i).inUse

/-- The slot for new entries. -/
def Mount.chosen (m : Mount) : Fin httpsDirCacheSize := m.freeSlot.getD m.nextCache

/-- A slot is filled, and when none was free it is another one's turn next. -/
def Mount.fill (slot : Slot) (m : Mount) : Mount :=
  { m with
    dirCache := Function.update m.dirCache m.chosen slot
    nextCache := if m.freeSlot = none then following m.nextCache else m.nextCache }

structure Memory where
  array : Bool := true
  copies : Nat → Bool := fun _ => true

/-- `https_cache_put_entries`, with the directory's normalized path. -/
def Mount.cachePutEntries (dirPath : Text) (entries : List Entry) (memory : Memory) (m : Mount) :
    Mount :=
  if entries = [] then m
  else if memory.array = false then
    m.fill { path := dirPath.take (httpsCachePathMax - 1), inUse := false }
  else
    m.fill
      { path := dirPath.take (httpsCachePathMax - 1)
        dirEntries := (entries.zipIdx.filter fun (_, i) => memory.copies i).map (·.1)
        inUse := true
        fetch := m.fetches }

/-- `https_cache_store_entries`, with the directory's normalized path. -/
def Mount.cacheStoreEntries (dirPath : Text) (entries : List Entry) (m : Mount) : Mount :=
  if entries = [] then m
  else
    m.fill
      { path := dirPath.take (httpsCachePathMax - 1)
        dirEntries := entries
        inUse := true
        fetch := m.fetches }

/-! ## Calls -/

inductive Failure
  | io
  | inval
  | noent
  | nomem
  deriving DecidableEq

/-- What `https_fetch_and_parse_index` gives. -/
abbrev Index := Except Failure (List Entry)

/-- An index has come. -/
def Mount.fetched (dirPath : Text) (entries : List Entry) (m : Mount) : Mount :=
  { m with
    fetches := m.fetches + 1
    latest := Function.update m.latest dirPath (some (m.fetches + 1, entries)) }

/-- `https_opendir`, and what `readdir` will see. -/
def Mount.opendir (path : Text) (index : Index) (memory : Memory) (m : Mount) : Mount × Index :=
  match index with
  | .error failure => (m, .error failure)
  | .ok entries =>
      let cachePath := normalizeDirPath path
      ((m.fetched cachePath entries).cachePutEntries cachePath entries memory, .ok entries)

structure Stat where
  isDir : Bool
  size : UInt32
  name : Text
  deriving DecidableEq

def Entry.stat (entry : Entry) : Stat :=
  { isDir := entry.isDir, size := if entry.isDir then 0 else entry.size, name := entry.name }

/-- The cached directory in which `https_stat` looks for a path. -/
def statKey (path : Text) : Text := normalizeDirPath (splitPath path).1

/-- `https_stat` -/
def Mount.stat (path : Text) (index : Index) (m : Mount) : Mount × Except Failure Stat :=
  let (dirPath, name) := splitPath path
  match m.cacheFindEntry dirPath name with
  | some entry => (m, .ok entry.stat)
  | none =>
      match index with
      | .error failure => (m, .error failure)
      | .ok entries =>
          let cachePath := normalizeDirPath dirPath
          ((m.fetched cachePath entries).cacheStoreEntries cachePath entries,
            match findEntry entries name with
            | some entry => .ok entry.stat
            | none => .error .noent)

end FuseX.Https
