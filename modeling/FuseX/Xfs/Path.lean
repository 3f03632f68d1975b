import FuseX.Lib.Segments
import FuseX.Xfs.Types

/-!
# Path resolution

`xfs_resolve_path` prefixes a request with the mount's current directory and
walks its segments over an output buffer that it edits in place. A name is
written after a `/`; a `..` deletes the last bytes of the buffer up to a `/`
and leaves that `/` standing unless it is the first byte.

* `xfsResolvePath` is the function, segment scan and buffer edits included;
* `CanonicalPath.resolve` is the reference: components are pushed and popped;
* `Climb` counts the `..` the walk still needs to come back to the root.

The buffer is followed through `Walk`, the stack of words between its slashes.
`Walk` and the reference agree exactly when the last `..` of the request takes
the walk back to the root (`Climb.clean`).
-/

namespace FuseX.Xfs

/-- The byte `'/'`. -/
def slash : UInt8 := 47

/-- The byte `'.'`. -/
def dot : UInt8 := 46

/-! ## The resolver -/

/-- The inner loop of a `..`: move `out_len` down to just after a `/`. -/
def backToSlash (out : CString) : Nat → Nat
  | 0 => 0
  | 1 => 1
  | outLen + 2 =>
      if out[outLen + 1]? = some slash then outLen + 2 else backToSlash out (outLen + 1)

/-- One segment of the request, applied to the output buffer. -/
def resolveSegment (outSize : Nat) (out segment : CString) : Except XfsError CString :=
  if segment = [dot] then .ok out
  else if segment = [dot, dot] then
    if 1 < out.length then .ok (out.take (backToSlash out (out.length - 1))) else .ok out
  else
    if 1 < out.length then
      if outSize ≤ out.length + 1 then .error .nametoolong
      else if outSize ≤ out.length + 1 + segment.length then .error .nametoolong
      else .ok (out ++ [slash] ++ segment)
    else if outSize ≤ out.length + segment.length then .error .nametoolong
    else .ok (out ++ segment)

/-- The outer loop: skip slashes, take one segment, apply it. Every round
consumes at least one byte, which bounds the rounds by `fuel`. -/
def resolveLoop (outSize : Nat) : Nat → CString → CString → Except XfsError CString
  | 0, out, _ => .ok out
  | fuel + 1, out, segment =>
      match segment.dropWhile (· == slash) with
      | [] => .ok out
      | c :: rest => do
          let out ← resolveSegment outSize out ((c :: rest).takeWhile (· != slash))
          resolveLoop outSize fuel out ((c :: rest).dropWhile (· != slash))

/-- The request with the current directory written in front of it. -/
def combinedPath (mount : XfsEngineMount) (path : CString) : CString :=
  let cwd := match mount.cwd with
    | some (c :: cs) => c :: cs
    | _ => [slash]
  if path.head? = some slash then path
  else if cwd = [slash] then slash :: path
  else cwd ++ slash :: path

/-- `xfs_resolve_path`. -/
def xfsResolvePath (mount : XfsEngineMount) (path : CString) (outSize : Nat) :
    Except XfsError CString :=
  if outSize < 2 then .error .inval
  else
    let combined := combinedPath mount path
    if xfsPathMax ≤ combined.length then .error .nametoolong
    else resolveLoop outSize combined.length [slash] combined

/-! ## The reference -/

/-- A name a canonical path may contain. -/
def IsName (segment : CString) : Prop :=
  segment ≠ [] ∧ segment ≠ [dot] ∧ segment ≠ [dot, dot] ∧ slash ∉ segment

instance (segment : CString) : Decidable (IsName segment) :=
  inferInstanceAs (Decidable (_ ∧ _ ∧ _ ∧ _))

/-- A canonical absolute path: its names from the root down. -/
structure CanonicalPath : Type where
  names : List CString
  wf : ∀ name ∈ names, IsName name
  deriving DecidableEq

namespace CanonicalPath

def root : CanonicalPath := ⟨[], by simp⟩

/-- The text of a canonical path. -/
def render (p : CanonicalPath) : CString :=
  if p.names = [] then [slash] else Lib.join slash p.names

/-- Push one segment: `.` and the empty segment stay, `..` pops. -/
def push (p : CanonicalPath) (segment : CString) : CanonicalPath :=
  if h : IsName segment then
    ⟨p.names ++ [segment], by
      intro name member
      rcases List.mem_append.mp member with old | new
      · exact p.wf name old
      · exact List.mem_singleton.mp new ▸ h⟩
  else if segment = [dot, dot] then
    ⟨p.names.dropLast, fun name member => p.wf name (List.dropLast_subset _ member)⟩
  else p

/-- The reference resolution of a request from a current directory. -/
def resolve (cwd : CanonicalPath) (path : CString) : CanonicalPath :=
  (path.splitOn slash).foldl push (if path.head? = some slash then root else cwd)

end CanonicalPath

/-! ## Counting the way back to the root -/

/-- What a left-to-right reading of the segments knows about the walk:
`pending` is the number of `..` that would bring it back to the root, `popped`
says that the last name or `..` was a `..`, and `clean` that no `..` has been
read or that the last one brought `pending` to zero. -/
structure Climb : Type where
  pending : Nat := 0
  popped : Bool := false
  clean : Bool := true
  deriving DecidableEq, Repr

/-- A name costs one `..`, and a second one for the `/` that a preceding `..`
left standing below the root. -/
def Climb.step (c : Climb) (segment : CString) : Climb :=
  if segment = [dot] then c
  else if segment = [dot, dot] then
    { pending := c.pending - 1, popped := true, clean := decide (c.pending ≤ 1) }
  else
    { c with
      pending := c.pending + (if c.popped ∧ 0 < c.pending then 2 else 1)
      popped := false }

/-- The last `..` of `text`, if there is one, takes the walk to the root. -/
def climbsToRoot (text : CString) : Bool :=
  ((Lib.segments slash text).foldl Climb.step {}).clean

end FuseX.Xfs
