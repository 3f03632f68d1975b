import FuseX.Lib.Runs
import FuseX.Xfs.PathWalk

/-!
# When the resolver computes the canonical path

The walk of `xfs_resolve_path` and the reference resolution are read side by
side with the `..` count of the request (`ClimbRel`). They hold the same words
exactly when the count is clean, so a request that fits the combined buffer is
resolved canonically if and only if it has no `..` or its last `..` reaches the
root. A request that does not fit is refused whatever it resolves to.

`xfsHandleChdir` stores what the resolver returns, so the stored directory stays
canonical along every sequence of such requests.
-/

namespace FuseX.Xfs

open Lib

/-! ## Reference facts -/

namespace CanonicalPath

@[simp] theorem push_dot (p : CanonicalPath) : p.push [dot] = p := by
  rw [push, dif_neg (by decide), if_neg (by decide)]

theorem names_push_dotdot (p : CanonicalPath) :
    (p.push [dot, dot]).names = p.names.dropLast := by
  rw [push, dif_neg (by decide), if_pos rfl]

theorem names_push_name {p : CanonicalPath} {segment : CString} (name : IsName segment) :
    (p.push segment).names = p.names ++ [segment] := by
  rw [push, dif_pos name]

theorem push_nil (p : CanonicalPath) : p.push [] = p := by
  rw [push, dif_neg (by decide), if_neg (by decide)]

/-- Empty segments do not matter to the reference. -/
theorem foldl_push_segments (p : CanonicalPath) (text : CString) :
    (text.splitOn slash).foldl push p = (segments slash text).foldl push p := by
  unfold segments
  generalize text.splitOn slash = segs
  induction segs generalizing p with
  | nil => rfl
  | cons segment segs ih =>
    by_cases empty : segment = []
    · simp [empty, push_nil, ih]
    · simp [empty, ih]

theorem names_foldl_push_names {p : CanonicalPath} {names : List CString}
    (proper : ∀ name ∈ names, IsName name) : (names.foldl push p).names = p.names ++ names := by
  induction names generalizing p with
  | nil => simp
  | cons name names ih =>
    rw [List.foldl_cons, ih fun n member => proper n (by simp [member]),
      names_push_name (proper name (by simp))]
    simp

theorem ext_names {p q : CanonicalPath} (same : p.names = q.names) : p = q := by
  cases p
  cases q
  simp_all

theorem segments_render (p : CanonicalPath) : segments slash p.render = p.names := by
  unfold render
  split
  · simp_all
  · exact segments_join fun name member => ⟨(p.wf name member).1, (p.wf name member).2.2.2⟩

theorem head?_render (p : CanonicalPath) : p.render.head? = some slash := by
  unfold render
  split
  · rfl
  · cases names : p.names <;> simp_all

/-- Resolving a canonical path from any directory gives the path itself. -/
theorem resolve_render (cwd p : CanonicalPath) : cwd.resolve p.render = p := by
  apply ext_names
  rw [resolve, if_pos p.head?_render, foldl_push_segments, segments_render,
    names_foldl_push_names p.wf]
  rfl

end CanonicalPath

/-! ## The combined request -/

theorem combinedPath_eq {mount : XfsEngineMount} {cwd : CanonicalPath}
    (at_cwd : mount.cwd = some cwd.render) (path : CString) :
    combinedPath mount path =
      if path.head? = some slash then path
      else join slash cwd.names ++ slash :: path := by
  have cwdHead := cwd.head?_render
  unfold combinedPath
  rw [at_cwd]
  cases text : cwd.render with
  | nil => simp [text] at cwdHead
  | cons c cs =>
    obtain rfl : c = slash := by simpa [text] using cwdHead
    by_cases absolute : path.head? = some slash
    · simp [absolute]
    · by_cases top : cwd.names = []
      · have : cs = [] := by simpa [CanonicalPath.render, top] using text.symm
        simp [absolute, top, this]
      · have rendered : join slash cwd.names = slash :: cs := by
          simpa [CanonicalPath.render, top] using text
        have notRoot : slash :: cs ≠ [slash] := by
          intro root
          have segs := cwd.segments_render
          rw [text, root] at segs
          exact top (by simpa using segs.symm)
        simp [absolute, notRoot, rendered]

theorem head?_combinedPath {mount : XfsEngineMount} {cwd : CanonicalPath}
    (at_cwd : mount.cwd = some cwd.render) (path : CString) :
    (combinedPath mount path).head? = some slash := by
  rw [combinedPath_eq at_cwd]
  split
  · assumption
  · cases names : cwd.names <;> simp

/-- The combined request resolves from the root to what the request resolves to
from the current directory. -/
theorem resolve_combinedPath {mount : XfsEngineMount} {cwd : CanonicalPath}
    (at_cwd : mount.cwd = some cwd.render) (path : CString) :
    CanonicalPath.root.resolve (combinedPath mount path) = cwd.resolve path := by
  have head := head?_combinedPath at_cwd path
  rw [CanonicalPath.resolve, if_pos head, CanonicalPath.foldl_push_segments, CanonicalPath.resolve,
    CanonicalPath.foldl_push_segments, combinedPath_eq at_cwd]
  split
  · rfl
  · have prefixSegs : segments slash (join slash cwd.names) = cwd.names :=
      segments_join fun name member => ⟨(cwd.wf name member).1, (cwd.wf name member).2.2.2⟩
    rw [segments_append_separated, prefixSegs, List.foldl_append]
    congr 1
    exact CanonicalPath.ext_names (by simp [CanonicalPath.names_foldl_push_names cwd.wf,
      CanonicalPath.root])

/-! ## The walk beside the reference -/

/-- The walk, the reference and the count after the same segments. -/
structure ClimbRel (words : List CString) (p : CanonicalPath) (c : Climb) : Prop where
  ok : WalkOk words
  pending : c.pending = if words.head? = some [] then words.length - 1 else words.length
  popped : words.head? = some [] ↔ c.popped = true ∧ 0 < c.pending
  depth : p.names.length ≤ c.pending
  clean : c.clean = true → words = p.names.reverse
  dirty : c.clean = false → [] ∈ words

theorem ClimbRel.nil : ClimbRel [] .root {} where
  ok := .nil
  pending := rfl
  popped := by simp
  depth := by simp [CanonicalPath.root]
  clean := by simp [CanonicalPath.root]
  dirty := by simp

theorem ClimbRel.dotdot {words : List CString} {p : CanonicalPath} {c : Climb}
    (rel : ClimbRel words p c) :
    ClimbRel (walkPop words) (p.push [dot, dot]) (c.step [dot, dot]) := by
  have stepped : c.step [dot, dot] =
      { pending := c.pending - 1, popped := true, clean := decide (c.pending ≤ 1) } := by
    rw [Climb.step, if_neg (by decide), if_pos rfl]
  have depth := rel.depth
  have pending := rel.pending
  have toRoot : c.pending ≤ 1 → (p.push [dot, dot]).names = [] := by
    intro low
    rw [CanonicalPath.names_push_dotdot]
    exact List.length_eq_zero_iff.mp (by rw [List.length_dropLast]; omega)
  have shallower : (p.push [dot, dot]).names.length ≤ c.pending - 1 := by
    rw [CanonicalPath.names_push_dotdot, List.length_dropLast]
    omega
  rw [stepped]
  -- `walkPop` either empties the stack (the count is at most one) or leaves an empty word on top.
  have shape : (walkPop words = [] ∧ c.pending ≤ 1) ∨
      ∃ below, below ≠ [] ∧ walkPop words = [] :: below ∧ c.pending = below.length + 1 := by
    match words, rel.ok.grounded with
    | [], _ => left; simp [walkPop] at pending ⊢; omega
    | [[]], bad => exact absurd rfl bad
    | [c :: cs], _ => left; simp [walkPop] at pending ⊢; omega
    | [[], _], _ => left; simp [walkPop] at pending ⊢; omega
    | [] :: _ :: u :: below, _ =>
      right
      exact ⟨u :: below, by simp, rfl, by simpa using pending⟩
    | (_ :: _) :: u :: below, _ =>
      right
      exact ⟨u :: below, by simp, by simp [walkPop], by simpa using pending⟩
  rcases shape with ⟨empty, low⟩ | ⟨below, nonempty, left, count⟩
  · have none : c.pending - 1 = 0 := by omega
    exact {
      ok := rel.ok.pop
      pending := by simp [empty, none]
      popped := by simp [empty, none]
      depth := shallower
      clean := by simp [empty, toRoot low]
      dirty := by simp [low] }
  · have positive : 0 < below.length := List.length_pos_iff.mpr nonempty
    exact {
      ok := rel.ok.pop
      pending := by simp [left]; omega
      popped := by simp [left]; omega
      depth := shallower
      clean := by simp; omega
      dirty := by simp [left] }

theorem ClimbRel.name {words : List CString} {p : CanonicalPath} {c : Climb} {segment : CString}
    (rel : ClimbRel words p c) (name : IsName segment) :
    ClimbRel (segment :: words) (p.push segment) (c.step segment) := by
  have pending := rel.pending
  have depth := rel.depth
  have stepped : c.step segment =
      { c with
        pending := c.pending + (if c.popped ∧ 0 < c.pending then 2 else 1)
        popped := false } := by
    rw [Climb.step, if_neg name.2.1, if_neg name.2.2.1]
  have count : c.pending + (if c.popped ∧ 0 < c.pending then 2 else 1) = words.length + 1 := by
    by_cases top : words.head? = some []
    · have positive : 0 < words.length := List.length_pos_iff.mpr (by rintro rfl; simp at top)
      rw [if_pos (rel.popped.mp top)]
      rw [if_pos top] at pending
      omega
    · rw [if_neg (by simpa using mt rel.popped.mpr top)]
      rw [if_neg top] at pending
      omega
  rw [stepped]
  exact {
    ok := rel.ok.push name.1 name.2.2.2
    pending := by simpa [name.1] using count
    popped := by simp [name.1]
    depth := by
      rw [CanonicalPath.names_push_name name, List.length_append, List.length_singleton]
      simp only
      split <;> omega
    clean := fun clean => by
      rw [CanonicalPath.names_push_name name, rel.clean clean, List.reverse_append]
      rfl
    dirty := fun dirty => by simp [rel.dirty dirty] }

/-- One segment keeps the three readings together. -/
theorem ClimbRel.step {words : List CString} {p : CanonicalPath} {c : Climb} {segment : CString}
    (rel : ClimbRel words p c) (proper : segment ≠ [] ∧ slash ∉ segment) :
    ClimbRel (walkStep words segment) (p.push segment) (c.step segment) := by
  unfold walkStep
  by_cases isDot : segment = [dot]
  · subst isDot
    simpa [Climb.step] using rel
  by_cases isDotDot : segment = [dot, dot]
  · subst isDotDot
    rw [if_neg isDot, if_pos rfl]
    exact rel.dotdot
  rw [if_neg isDot, if_neg isDotDot]
  exact rel.name ⟨proper.1, isDot, isDotDot, proper.2⟩

theorem ClimbRel.foldl {segs words : List CString} {p : CanonicalPath} {c : Climb}
    (rel : ClimbRel words p c) (proper : ∀ s ∈ segs, s ≠ [] ∧ slash ∉ s) :
    ClimbRel (segs.foldl walkStep words) (segs.foldl CanonicalPath.push p)
      (segs.foldl Climb.step c) := by
  induction segs generalizing words p c with
  | nil => exact rel
  | cons segment segs ih =>
    exact ih (rel.step (proper segment (by simp))) fun s member => proper s (by simp [member])

/-- The buffer holds the canonical path exactly when the count is clean. -/
theorem ClimbRel.walkText_eq_iff {words : List CString} {p : CanonicalPath} {c : Climb}
    (rel : ClimbRel words p c) : walkText words = p.render ↔ c.clean = true := by
  constructor
  · intro same
    by_contra notClean
    have emptyWord := rel.dirty (by simpa using notClean)
    have nonempty : words ≠ [] := List.ne_nil_of_mem emptyWord
    have longer := one_lt_length_walkText rel.ok nonempty
    by_cases top : p.names = []
    · rw [same] at longer
      simp [CanonicalPath.render, top] at longer
    · rw [walkText, if_neg nonempty, CanonicalPath.render, if_neg top] at same
      have names := join_injective (by simpa using rel.ok.free)
        (fun name member => (p.wf name member).2.2.2) same
      exact (p.wf [] (names ▸ by simpa using emptyWord)).1 rfl
  · intro clean
    rw [rel.clean clean, walkText, CanonicalPath.render]
    simp

theorem length_join_foldl_walkStep_le {segs words : List CString} (ok : WalkOk words)
    (proper : ∀ s ∈ segs, s ≠ [] ∧ slash ∉ s) :
    (join slash (segs.foldl walkStep words).reverse).length ≤
      (join slash words.reverse).length + (segs.map (·.length + 1)).sum := by
  induction segs generalizing words with
  | nil => simp
  | cons segment segs ih =>
    have here := length_join_walkStep_le ok segment
    have rest := ih (ok.step (proper segment (by simp))) fun s member => proper s (by simp [member])
    simp only [List.foldl_cons, List.map_cons, List.sum_cons]
    omega

/-- The words the walk over a whole request leaves in the buffer. -/
def walkOf (text : CString) : List CString :=
  (segments slash text).foldl walkStep []

theorem climbRel_walkOf {text : CString} (absolute : text.head? = some slash) :
    ClimbRel (walkOf text) (CanonicalPath.root.resolve text)
      ((segments slash text).foldl Climb.step {}) := by
  rw [CanonicalPath.resolve, if_pos absolute, CanonicalPath.foldl_push_segments]
  exact ClimbRel.nil.foldl fun s member => of_mem_segments member

/-- The slashes and names of an absolute request are no longer than the request. -/
theorem sum_length_segments_absolute {text : CString} (absolute : text.head? = some slash) :
    ((segments slash text).map (·.length + 1)).sum ≤ text.length := by
  cases text with
  | nil => simp at absolute
  | cons c rest =>
    obtain rfl : c = slash := by simpa using absolute
    simpa using @sum_length_segments_le _ slash _ rest

/-- A request that fits the combined buffer resolves to the walk's buffer. -/
theorem xfsResolvePath_eq_walk {mount : XfsEngineMount} {cwd : CanonicalPath}
    (at_cwd : mount.cwd = some cwd.render) {path : CString}
    (fits : (combinedPath mount path).length < xfsPathMax) :
    xfsResolvePath mount path xfsPathMax = .ok (walkText (walkOf (combinedPath mount path))) := by
  have absolute := head?_combinedPath at_cwd path
  have room := sum_length_segments_absolute absolute
  rw [xfsResolvePath, if_neg (by decide)]
  simp only [if_neg (Nat.not_le.mpr fits)]
  rw [resolveLoop_eq_foldlM _ _ le_rfl]
  refine foldlM_resolveSegment .nil (fun s member => of_mem_segments member) ?_
  rw [List.reverse_nil, join_nil, List.length_nil, Nat.zero_add]
  exact Nat.lt_of_le_of_lt room fits

theorem xfsResolvePath_too_long {mount : XfsEngineMount} {path : CString}
    (long : xfsPathMax ≤ (combinedPath mount path).length) :
    xfsResolvePath mount path xfsPathMax = .error .nametoolong := by
  rw [xfsResolvePath, if_neg (by decide)]
  simp only [if_pos long]

end FuseX.Xfs
