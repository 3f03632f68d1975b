import FuseX.Xfs.PathCorrect

/-!
# The current directory

`xfs_handle_chdir` and the exact condition under which the resolver, and with it
the stored current directory, is canonical.

* `ResolvesCanonically` is what one call of the resolver should do;
* `resolveHoldsWhen` is the condition on the current directory and the request;
* `xfsResolvePath_canonical_iff` proves the equivalence for every request and
  carries it along every sequence of `chdir` commands.
-/

namespace FuseX.Xfs

open Lib

/-! ## One call -/

/-- A successful call returns the canonical path of the reference resolution,
which resolves to itself; a failing call has a reference result that does not
fit the path buffer. -/
structure ResolvesCanonically (mount : XfsEngineMount) (cwd : CanonicalPath) (path : CString) :
    Prop where
  result : ∀ out, xfsResolvePath mount path xfsPathMax = .ok out → out = (cwd.resolve path).render
  stable : ∀ out, xfsResolvePath mount path xfsPathMax = .ok out →
    xfsResolvePath mount out xfsPathMax = .ok out
  failure : ∀ error, xfsResolvePath mount path xfsPathMax = .error error →
    xfsPathMax ≤ (cwd.resolve path).render.length

/-- A request that fits behind the current directory brings its last `..` to the
root; one that does not fit has a reference result that does not fit either. -/
def resolveHoldsWhen (mount : XfsEngineMount) (path : CString) : Prop :=
  let combined := combinedPath mount path
  if combined.length < xfsPathMax then climbsToRoot combined = true
  else xfsPathMax ≤ (CanonicalPath.root.resolve combined).render.length

instance (mount : XfsEngineMount) (path : CString) : Decidable (resolveHoldsWhen mount path) := by
  unfold resolveHoldsWhen
  infer_instance

theorem length_walkText_walkOf_le {text : CString} (absolute : text.head? = some slash) :
    (walkText (walkOf text)).length ≤ text.length := by
  have positive : 0 < text.length := by cases text <;> simp_all
  have room := sum_length_segments_absolute absolute
  have written := length_join_foldl_walkStep_le WalkOk.nil
    fun s (member : s ∈ segments slash text) => of_mem_segments member
  rw [List.reverse_nil, join_nil, List.length_nil, Nat.zero_add] at written
  rw [walkText]
  split
  · exact positive
  · exact written.trans room

/-- Names alone never spoil the count. -/
theorem clean_foldl_names {names : List CString} (proper : ∀ name ∈ names, IsName name) (c : Climb) :
    (names.foldl Climb.step c).clean = c.clean := by
  induction names generalizing c with
  | nil => rfl
  | cons name names ih =>
    have here := proper name (by simp)
    rw [List.foldl_cons, ih fun n member => proper n (by simp [member]), Climb.step,
      if_neg here.2.1, if_neg here.2.2.1]

theorem climbsToRoot_render (p : CanonicalPath) : climbsToRoot p.render = true := by
  rw [climbsToRoot, p.segments_render, clean_foldl_names p.wf]

/-- A request that fits resolves to the canonical path exactly when its last
`..` reaches the root. -/
theorem xfsResolvePath_eq_render_iff {mount : XfsEngineMount} {cwd : CanonicalPath}
    (at_cwd : mount.cwd = some cwd.render) {path : CString}
    (fits : (combinedPath mount path).length < xfsPathMax) :
    xfsResolvePath mount path xfsPathMax = .ok (cwd.resolve path).render ↔
      climbsToRoot (combinedPath mount path) = true := by
  have rel := climbRel_walkOf (head?_combinedPath at_cwd path)
  rw [xfsResolvePath_eq_walk at_cwd fits, Except.ok.injEq, ← resolve_combinedPath at_cwd,
    rel.walkText_eq_iff]
  rfl

/-- A canonical path that fits is returned as it is. -/
theorem xfsResolvePath_render {mount : XfsEngineMount} {cwd p : CanonicalPath}
    (at_cwd : mount.cwd = some cwd.render) (fits : p.render.length < xfsPathMax) :
    xfsResolvePath mount p.render xfsPathMax = .ok p.render := by
  have combined : combinedPath mount p.render = p.render := by
    rw [combinedPath_eq at_cwd, if_pos p.head?_render]
  have resolved := (@xfsResolvePath_eq_render_iff mount cwd at_cwd p.render
    (by rwa [combined])).mpr (by rw [combined, climbsToRoot_render])
  rwa [CanonicalPath.resolve_render] at resolved

/-- The condition is exact for every request. -/
theorem resolvesCanonically_iff {mount : XfsEngineMount} {cwd : CanonicalPath}
    (at_cwd : mount.cwd = some cwd.render) (path : CString) :
    ResolvesCanonically mount cwd path ↔ resolveHoldsWhen mount path := by
  by_cases fits : (combinedPath mount path).length < xfsPathMax
  · have computed := xfsResolvePath_eq_walk at_cwd fits
    have exact_iff := xfsResolvePath_eq_render_iff at_cwd fits
    simp only [resolveHoldsWhen, if_pos fits]
    constructor
    · intro spec
      exact exact_iff.mp (computed.trans (congrArg _ (spec.result _ computed)))
    · intro clean
      have resolved := exact_iff.mpr clean
      refine ⟨fun out ok => Except.ok.inj (ok.symm.trans resolved), fun out ok => ?_,
        fun error failed => by simp [resolved] at failed⟩
      obtain rfl : out = (cwd.resolve path).render := Except.ok.inj (ok.symm.trans resolved)
      have short := length_walkText_walkOf_le (head?_combinedPath at_cwd path)
      rw [Except.ok.inj (computed.symm.trans resolved)] at short
      exact xfsResolvePath_render at_cwd (Nat.lt_of_le_of_lt short fits)
  · have refused := xfsResolvePath_too_long (Nat.le_of_not_lt fits)
    simp only [resolveHoldsWhen, if_neg fits, resolve_combinedPath at_cwd]
    constructor
    · intro spec
      exact spec.failure _ refused
    · intro long
      exact ⟨fun out ok => by simp [refused] at ok, fun out ok => by simp [refused] at ok,
        fun _ _ => long⟩

/-! ## Sequences of `chdir` -/

/-- A `chdir` command and the answers its engine would give to `stat`. -/
structure ChdirRequest : Type where
  path : CString
  stat : CString → Except XfsError XfsStatInfo

/-- `xfs_handle_chdir` on the mount its register selects. -/
def xfsHandleChdir (mount : XfsEngineMount) (request : ChdirRequest) :
    XfsEngineMount × Except XfsError Unit :=
  if mount.engine.isNone then (mount, .error .io)
  else
    match xfsResolvePath mount request.path xfsPathMax with
    | .error error => (mount, .error error)
    | .ok resolved =>
        let isDir : Bool :=
          if resolved = [slash] then true
          else match request.stat resolved with
            | .error _ => false
            | .ok info => info.type = .dir
        if isDir then
          ({ mount with cwd := some (resolved.take (xfsPathMax - 1)) }, .ok ())
        else (mount, .error .noent)

/-- The mount after one `chdir`. -/
def chdirStep (mount : XfsEngineMount) (request : ChdirRequest) : Option XfsEngineMount :=
  some (xfsHandleChdir mount request).1

/-- The stored current directory is a canonical path. -/
def HasCanonicalCwd (mount : XfsEngineMount) : Prop :=
  ∃ cwd : CanonicalPath, mount.cwd = some cwd.render

theorem HasCanonicalCwd.chdir {mount : XfsEngineMount} {request : ChdirRequest}
    (canonical : HasCanonicalCwd mount) (holds : resolveHoldsWhen mount request.path) :
    HasCanonicalCwd (xfsHandleChdir mount request).1 := by
  obtain ⟨cwd, at_cwd⟩ := canonical
  have spec := (resolvesCanonically_iff at_cwd request.path).mpr holds
  unfold xfsHandleChdir
  split
  · exact ⟨cwd, at_cwd⟩
  · cases resolved : xfsResolvePath mount request.path xfsPathMax with
    | error error => exact ⟨cwd, at_cwd⟩
    | ok out =>
      have text := spec.result out resolved
      have fits : (combinedPath mount request.path).length < xfsPathMax := by
        by_contra long
        simp [xfsResolvePath_too_long (Nat.le_of_not_lt long)] at resolved
      have short := length_walkText_walkOf_le (head?_combinedPath at_cwd request.path)
      rw [Except.ok.inj ((xfsResolvePath_eq_walk at_cwd fits).symm.trans resolved)] at short
      have kept : out.take (xfsPathMax - 1) = out :=
        List.take_of_length_le (Nat.le_sub_one_of_lt (Nat.lt_of_le_of_lt short fits))
      simp only
      generalize (if out = [slash] then true else _) = isDir
      cases isDir
      · exact ⟨cwd, at_cwd⟩
      · exact ⟨cwd.resolve request.path, congrArg some (kept.trans text)⟩

/-- For every canonical current directory and every request the resolver is
canonical exactly under `resolveHoldsWhen`, and along every sequence of `chdir`
commands whose requests meet it the stored directory stays canonical. -/
theorem xfsResolvePath_canonical_iff (start : XfsEngineMount) :
    (∀ (cwd : CanonicalPath) (path : CString), start.cwd = some cwd.render →
      (ResolvesCanonically start cwd path ↔ resolveHoldsWhen start path)) ∧
    ∀ (mount : XfsEngineMount) (requests : List ChdirRequest), HasCanonicalCwd start →
      Runs chdirStep (fun m request => resolveHoldsWhen m request.path) start requests mount →
      HasCanonicalCwd mount := by
  refine ⟨fun cwd path at_cwd => resolvesCanonically_iff at_cwd path, ?_⟩
  intro mount requests canonical run
  refine run.invariant canonical fun m request next inv holds stepEq => ?_
  obtain rfl : (xfsHandleChdir m request).1 = next := Option.some.inj stepEq
  exact inv.chdir holds

/-- A mount whose current directory is the root. -/
def mountAtRoot : XfsEngineMount :=
  { engine := some .overlay, mountData := some 0, cwd := some CanonicalPath.root.render }

theorem xfsResolvePath_canonical_at_root :
    ResolvesCanonically mountAtRoot .root (bytes "/a/../b") ∧
      HasCanonicalCwd { mountAtRoot with cwd := some (bytes "/b") } := by
  refine ⟨((xfsResolvePath_canonical_iff mountAtRoot).1 .root (bytes "/a/../b") rfl).mpr
    (by decide), ?_⟩
  refine (xfsResolvePath_canonical_iff mountAtRoot).2 _
    [⟨bytes "/a/../b", fun path => .ok ⟨.dir, .ram, 0, 0, 0, 0, path⟩⟩] ⟨.root, rfl⟩ ?_
  exact @Runs.snoc _ _ _ _ _ [] _ _ _ .nil (by decide) (by decide)

/-- A name after a `..` below the root gets a second slash. -/
theorem xfsResolvePath_not_canonical :
    xfsResolvePath mountAtRoot (bytes "/a/b/../c") xfsPathMax = .ok (bytes "/a//c") ∧
      (CanonicalPath.root.resolve (bytes "/a/b/../c")).render = bytes "/a/c" ∧
      ¬ ∀ (mount : XfsEngineMount) (cwd : CanonicalPath) (path : CString),
        mount.cwd = some cwd.render → ResolvesCanonically mount cwd path := by
  have resolved : xfsResolvePath mountAtRoot (bytes "/a/b/../c") xfsPathMax =
      .ok (bytes "/a//c") := by decide
  refine ⟨resolved, by decide, fun always => ?_⟩
  have spec := always mountAtRoot .root (bytes "/a/b/../c") rfl
  exact absurd (spec.result _ resolved) (by decide)

end FuseX.Xfs
