import Mathlib.Data.List.Basic

/-!
# Trees with named children

A directory tree over arbitrary names and file contents. Of two children with
one name, the first counts.

* `walk` follows a path of names, `modify` changes the node a path leads to;
* `walk_modify_under`, `walk_modify_above` and `walk_modify_apart` say what a
  walk meets after a change at another path;
* `remove` and `place` take one name out of a directory and put one in, and
  `walk_remove_self`, `walk_remove_apart`, `walk_place_self` and
  `walk_place_apart` are their frame rules.
-/

namespace Lib

/-- A file, or a directory that lists its children by name. -/
inductive Tree (κ φ : Type) : Type
  | file (content : φ)
  | dir (entries : List (κ × Tree κ φ))

/-- Why a walk stops before the end of its path. -/
inductive WalkError : Type
  | missing
  | notDir
  deriving DecidableEq, Repr

namespace Tree

variable {κ φ : Type} [DecidableEq κ]

def isDir : Tree κ φ → Bool
  | .file _ => false
  | .dir _ => true

/-- The children of a node; a file has none. -/
def entries : Tree κ φ → List (κ × Tree κ φ)
  | .file _ => []
  | .dir entries => entries

/-- Follow a path of names down from a node. -/
def walk : Tree κ φ → List κ → Except WalkError (Tree κ φ)
  | node, [] => .ok node
  | .file _, _ :: _ => .error .notDir
  | .dir entries, name :: rest =>
      match entries.lookup name with
      | some node => node.walk rest
      | none => .error .missing

/-- Change the node at a path; nothing happens if there is none. -/
def modify (change : Tree κ φ → Tree κ φ) : List κ → Tree κ φ → Tree κ φ
  | [], node => change node
  | _ :: _, .file content => .file content
  | name :: rest, .dir entries =>
      .dir (entries.map fun entry =>
        if entry.1 = name then (entry.1, modify change rest entry.2) else entry)

/-- A directory without the child `name`. -/
def without (name : κ) : Tree κ φ → Tree κ φ
  | .file content => .file content
  | .dir entries => .dir (entries.filter (·.1 ≠ name))

/-- A directory with `node` as its only child `name`. -/
def including (name : κ) (node : Tree κ φ) : Tree κ φ → Tree κ φ
  | .file content => .file content
  | .dir entries => .dir (entries.filter (·.1 ≠ name) ++ [(name, node)])

/-- Take the child `name` out of the directory at `path`. -/
def remove (tree : Tree κ φ) (path : List κ) (name : κ) : Tree κ φ :=
  tree.modify (without name) path

/-- Put `node` into the directory at `path` under `name`. -/
def place (tree : Tree κ φ) (path : List κ) (name : κ) (node : Tree κ φ) : Tree κ φ :=
  tree.modify (including name node) path

/-! ## Walks -/

@[simp] theorem walk_nil (tree : Tree κ φ) : tree.walk [] = .ok tree := by
  cases tree with
  | file content => rw [walk]
  | dir entries => rw [walk]

@[simp] theorem walk_file_cons (content : φ) (name : κ) (rest : List κ) :
    (file content : Tree κ φ).walk (name :: rest) = .error .notDir := by
  rw [walk]

theorem walk_dir_cons (entries : List (κ × Tree κ φ)) (name : κ) (rest : List κ) :
    (dir entries).walk (name :: rest) =
      match entries.lookup name with
      | some node => node.walk rest
      | none => .error .missing := by
  rw [walk]

theorem walk_append (tree : Tree κ φ) (front rest : List κ) :
    tree.walk (front ++ rest) = (tree.walk front).bind (·.walk rest) := by
  induction front generalizing tree with
  | nil => simp [Except.bind]
  | cons name front ih =>
    cases tree with
    | file content => simp [Except.bind]
    | dir entries =>
      rw [List.cons_append, walk_dir_cons, walk_dir_cons]
      cases entries.lookup name with
      | none => rfl
      | some node => exact ih node

/-- A walk that succeeds has succeeded on every prefix of its path. -/
theorem walk_prefix {tree node : Tree κ φ} {front rest : List κ}
    (found : tree.walk (front ++ rest) = .ok node) :
    ∃ above, tree.walk front = .ok above ∧ above.walk rest = .ok node := by
  rw [walk_append] at found
  cases reached : tree.walk front with
  | error err => rw [reached] at found; cases found
  | ok above => exact ⟨above, rfl, by rwa [reached] at found⟩

/-- Only a directory is walked on from. -/
theorem isDir_of_walk_cons {tree node : Tree κ φ} {name : κ} {rest : List κ}
    (found : tree.walk (name :: rest) = .ok node) : tree.isDir := by
  cases tree with
  | file content => simp at found
  | dir entries => rfl

/-- The walk meets nothing at a child of a directory that lists no such name. -/
theorem walk_child {tree : Tree κ φ} {path : List κ} {entries : List (κ × Tree κ φ)} (name : κ)
    (found : tree.walk path = .ok (dir entries)) :
    tree.walk (path ++ [name]) =
      match entries.lookup name with
      | some node => .ok node
      | none => .error .missing := by
  rw [walk_append, found]
  change (dir entries).walk [name] = _
  rw [walk_dir_cons]
  cases entries.lookup name with
  | none => rfl
  | some node => simp

/-! ## Lists of children -/

theorem lookup_filter_self (entries : List (κ × Tree κ φ)) (name : κ) :
    (entries.filter (·.1 ≠ name)).lookup name = none := by
  rw [List.lookup_eq_none_iff]
  intro entry member
  have kept := (List.mem_filter.mp member).2
  simp only [ne_eq, decide_not, Bool.not_eq_true', decide_eq_false_iff_not] at kept
  simpa using fun same => kept same.symm

theorem lookup_filter_other (entries : List (κ × Tree κ φ)) {name other : κ}
    (different : other ≠ name) :
    (entries.filter (·.1 ≠ name)).lookup other = entries.lookup other := by
  induction entries with
  | nil => rfl
  | cons entry entries ih =>
    rcases entry with ⟨key, node⟩
    by_cases same : key = name
    · have unequal : (other == key) = false := by simpa [same] using different
      rw [List.filter_cons_of_neg (by simpa using same), ih, List.lookup_cons, unequal]
    · rw [List.filter_cons_of_pos (by simpa using same), List.lookup_cons, List.lookup_cons, ih]

theorem lookup_map_other (change : Tree κ φ → Tree κ φ) (entries : List (κ × Tree κ φ))
    {name other : κ} (different : other ≠ name) :
    (entries.map fun entry => if entry.1 = name then (entry.1, change entry.2) else entry).lookup
      other = entries.lookup other := by
  induction entries with
  | nil => rfl
  | cons entry entries ih =>
    rcases entry with ⟨key, node⟩
    rw [List.map_cons]
    by_cases same : key = name
    · have unequal : (other == name) = false := by simpa using different
      rw [if_pos same, List.lookup_cons, List.lookup_cons, ih, same, unequal]
    · rw [if_neg same, List.lookup_cons, List.lookup_cons, ih]

theorem lookup_map_self (change : Tree κ φ → Tree κ φ) (entries : List (κ × Tree κ φ)) (name : κ) :
    (entries.map fun entry => if entry.1 = name then (entry.1, change entry.2) else entry).lookup
      name = (entries.lookup name).map change := by
  induction entries with
  | nil => rfl
  | cons entry entries ih =>
    rcases entry with ⟨key, node⟩
    rw [List.map_cons]
    by_cases same : key = name
    · subst same
      simp
    · have unequal : (name == key) = false := by simpa using fun equal => same equal.symm
      rw [if_neg same, List.lookup_cons, List.lookup_cons, ih, unequal]

/-! ## Walks after a change -/

theorem walk_modify_under {change : Tree κ φ → Tree κ φ} {tree node : Tree κ φ} {path : List κ}
    (found : tree.walk path = .ok node) (rest : List κ) :
    (tree.modify change path).walk (path ++ rest) = (change node).walk rest := by
  induction path generalizing tree with
  | nil =>
    rw [walk_nil] at found
    cases found
    rw [modify, List.nil_append]
  | cons name path ih =>
    cases tree with
    | file content => simp at found
    | dir entries =>
      rw [walk_dir_cons] at found
      rw [modify, List.cons_append, walk_dir_cons, lookup_map_self]
      cases child : entries.lookup name with
      | none => rw [child] at found; cases found
      | some below =>
        rw [child] at found
        exact ih found

/-- A change at a path that leads nowhere is not met. -/
theorem walk_modify_error {change : Tree κ φ → Tree κ φ} {tree : Tree κ φ} {path : List κ}
    {err : WalkError} (failed : tree.walk path = .error err) (rest : List κ) :
    (tree.modify change path).walk (path ++ rest) = .error err := by
  induction path generalizing tree with
  | nil => simp at failed
  | cons name path ih =>
    cases tree with
    | file content =>
      rw [walk_file_cons] at failed
      rw [modify, List.cons_append, walk_file_cons, failed]
    | dir entries =>
      rw [walk_dir_cons] at failed
      rw [modify, List.cons_append, walk_dir_cons, lookup_map_self]
      cases child : entries.lookup name with
      | none =>
        rw [child] at failed
        exact failed
      | some below =>
        rw [child] at failed
        exact ih failed

/-- Above the change the walk meets the same node, changed further down. -/
theorem walk_modify_above {change : Tree κ φ → Tree κ φ} {tree node : Tree κ φ} {path : List κ}
    (rest : List κ) (found : tree.walk path = .ok node) :
    (tree.modify change (path ++ rest)).walk path = .ok (node.modify change rest) := by
  induction path generalizing tree with
  | nil =>
    rw [walk_nil] at found
    cases found
    simp
  | cons name path ih =>
    cases tree with
    | file content => simp at found
    | dir entries =>
      rw [walk_dir_cons] at found
      rw [List.cons_append, modify, walk_dir_cons, lookup_map_self]
      cases child : entries.lookup name with
      | none => rw [child] at found; cases found
      | some below =>
        rw [child] at found
        exact ih found

theorem walk_modify_apart {change : Tree κ φ → Tree κ φ} {path other : List κ}
    (notUnder : ¬ path <+: other) (notAbove : ¬ other <+: path) (tree : Tree κ φ) :
    (tree.modify change path).walk other = tree.walk other := by
  induction path generalizing tree other with
  | nil => exact absurd List.nil_prefix notUnder
  | cons name path ih =>
    cases other with
    | nil => exact absurd List.nil_prefix notAbove
    | cons next other =>
      cases tree with
      | file content => rw [modify]
      | dir entries =>
        rw [modify, walk_dir_cons, walk_dir_cons]
        by_cases same : next = name
        · subst same
          rw [lookup_map_self]
          cases entries.lookup next with
          | none => rfl
          | some below =>
            exact ih (fun under => notUnder (List.cons_prefix_cons.mpr ⟨rfl, under⟩))
              (fun above => notAbove (List.cons_prefix_cons.mpr ⟨rfl, above⟩)) below
        · rw [lookup_map_other _ _ same]

theorem isDir_modify_cons (change : Tree κ φ → Tree κ φ) (name : κ) (rest : List κ)
    (tree : Tree κ φ) : (tree.modify change (name :: rest)).isDir = tree.isDir := by
  cases tree with
  | file content => rw [modify]
  | dir entries => rw [modify]; rfl

/-! ## Removing and placing a child -/

theorem walk_remove_self {tree : Tree κ φ} {path : List κ} {entries : List (κ × Tree κ φ)}
    (name : κ) (found : tree.walk path = .ok (dir entries)) :
    (tree.remove path name).walk (path ++ [name]) = .error .missing := by
  rw [remove, walk_modify_under found, without, walk_dir_cons, lookup_filter_self]

/-- A path that does not run through the removed child still leads somewhere,
and to a directory if it did before. -/
theorem walk_remove_apart {tree node : Tree κ φ} {path other : List κ} {name : κ}
    (apart : ¬ path ++ [name] <+: other) (found : tree.walk other = .ok node) :
    ∃ kept, (tree.remove path name).walk other = .ok kept ∧ kept.isDir = node.isDir := by
  by_cases under : path <+: other
  · rcases under with ⟨rest, rfl⟩
    obtain ⟨above, reached, below⟩ := walk_prefix found
    rw [remove, walk_modify_under reached]
    cases rest with
    | nil =>
      rw [walk_nil] at below
      cases below
      refine ⟨_, walk_nil _, ?_⟩
      cases node with
      | file content => rfl
      | dir entries => rfl
    | cons next rest =>
      have different : next ≠ name := by
        rintro rfl
        exact apart ⟨rest, by simp⟩
      cases above with
      | file content => simp at below
      | dir entries =>
        refine ⟨node, ?_, rfl⟩
        rw [without, walk_dir_cons, lookup_filter_other _ different, ← walk_dir_cons]
        exact below
  · by_cases above : other <+: path
    · rcases above with ⟨rest, rfl⟩
      cases rest with
      | nil => exact absurd ⟨[], by simp⟩ under
      | cons next rest =>
        exact ⟨_, walk_modify_above _ found, isDir_modify_cons _ _ _ _⟩
    · exact ⟨node, by rw [remove, walk_modify_apart under above, found], rfl⟩

theorem walk_place_self {tree : Tree κ φ} {path : List κ} {entries : List (κ × Tree κ φ)}
    (name : κ) (node : Tree κ φ) (found : tree.walk path = .ok (dir entries)) :
    (tree.place path name node).walk (path ++ [name]) = .ok node := by
  rw [place, walk_modify_under found, including, walk_dir_cons, List.lookup_append,
    lookup_filter_self]
  simp

/-- Placing a child changes nothing at a path that neither runs through it nor
ends above it. -/
theorem walk_place_apart {tree : Tree κ φ} {path other : List κ} {name : κ} (node : Tree κ φ)
    (apart : ¬ path ++ [name] <+: other) (notAbove : ¬ other <+: path) :
    (tree.place path name node).walk other = tree.walk other := by
  by_cases under : path <+: other
  · rcases under with ⟨rest, rfl⟩
    cases rest with
    | nil => exact absurd ⟨[], by simp⟩ notAbove
    | cons next rest =>
      have different : next ≠ name := by
        rintro rfl
        exact apart ⟨rest, by simp⟩
      cases reached : tree.walk path with
      | error err =>
        rw [place, walk_modify_error reached, walk_append, reached]
        rfl
      | ok above =>
        rw [place, walk_modify_under reached, walk_append, reached]
        cases above with
        | file content => rfl
        | dir entries =>
          change (dir _).walk (next :: rest) = (dir entries).walk (next :: rest)
          rw [walk_dir_cons, walk_dir_cons, List.lookup_append, lookup_filter_other _ different]
          cases entries.lookup next with
          | none =>
            have unequal : (next == name) = false := by simpa using different
            rw [Option.none_or, List.lookup_cons, unequal]
            rfl
          | some below => rfl
  · rw [place, walk_modify_apart under notAbove]

end Tree

end Lib
