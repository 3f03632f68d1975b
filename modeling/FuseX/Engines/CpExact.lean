import FuseX.Engines.Cp

/-!
# What a copy leaves behind

A copy that succeeds has put exactly the bytes of the source, or of the range of it, into the destination
(`copied_exactly`). A copy of a file to itself is refused only where the two paths are the same text behind
their leading slashes; `cp_faithful` says that this is all that goes wrong.
-/

namespace FuseX.Engines.Cp

open Lib Xfs Xfs.Transfer

/-! ## Directories stay -/

def IsDirAt (host : HostNode) (place : List Name) : Prop :=
  ∃ entries, host.walk place = .ok (.dir entries)

/-- Every directory of a host is one of another. -/
def KeepsDirs (host host' : HostNode) : Prop :=
  ∀ place, IsDirAt host place → IsDirAt host' place

theorem KeepsDirs.trans {first second third : HostNode} (before : KeepsDirs first second)
    (after : KeepsDirs second third) : KeepsDirs first third :=
  fun place dir => after place (before place dir)

theorem isDirAt_of_isDir {host node : HostNode} {place : List Name} (found : host.walk place = .ok node)
    (dir : node.isDir = true) : IsDirAt host place := by
  cases node with
  | file content => exact absurd dir Bool.false_ne_true
  | dir entries => exact ⟨entries, found⟩

theorem lookup_ok {host node : HostNode} {place : List Name} (found : Posix.lookup host place = .ok node) :
    host.walk place = .ok node := by
  unfold Posix.lookup at found
  split at found
  · next walked => rwa [← Except.ok.inj found]
  · nomatch found
  · nomatch found

theorem lookup_walk {host node : HostNode} {place : List Name} (found : host.walk place = .ok node) :
    Posix.lookup host place = .ok node := by
  rw [Posix.lookup, found]

/-- A walk to a directory does not go through a place that has none. -/
theorem not_under {host : HostNode} {place other : List Name} (dir : IsDirAt host other)
    (none : ¬IsDirAt host place) : ¬place <+: other := by
  rintro ⟨rest, rfl⟩
  obtain ⟨entries, found⟩ := dir
  obtain ⟨above, reached, below⟩ := Tree.walk_prefix found
  apply none
  cases rest with
  | nil =>
    obtain rfl : above = .dir entries := by simpa using below
    exact ⟨entries, reached⟩
  | cons name rest => exact isDirAt_of_isDir reached (Tree.isDir_of_walk_cons below)

theorem keepsDirs_modify {host : HostNode} {place : List Name} (change : HostNode → HostNode)
    (none : ¬IsDirAt host place) : KeepsDirs host (host.modify change place) := by
  intro other dir
  have apart := not_under dir none
  obtain ⟨entries, found⟩ := dir
  by_cases above : other <+: place
  · obtain ⟨rest, rfl⟩ := above
    cases rest with
    | nil => exact absurd (by simp) apart
    | cons name rest =>
      have kept := @Tree.walk_modify_above _ _ _ change _ _ _ (name :: rest) found
      exact isDirAt_of_isDir kept (Tree.isDir_modify_cons change name rest _)
  · exact ⟨entries, by rw [Tree.walk_modify_apart apart above, found]⟩

theorem keepsDirs_place {host : HostNode} {parent : List Name} {name : Name} (node : HostNode)
    (none : ¬IsDirAt host (parent ++ [name])) : KeepsDirs host (host.place parent name node) := by
  intro other dir
  have apart := not_under dir none
  obtain ⟨entries, found⟩ := dir
  by_cases above : other <+: parent
  · obtain ⟨rest, rfl⟩ := above
    have kept := @Tree.walk_modify_above _ _ _ (Tree.including name node) _ _ _ rest found
    cases rest with
    | nil => exact ⟨_, by rw [Tree.place, kept]; rfl⟩
    | cons next rest =>
      exact isDirAt_of_isDir kept (Tree.isDir_modify_cons _ next rest _)
  · exact ⟨entries, by rw [Tree.walk_place_apart node apart above, found]⟩

theorem nameiSegments_keeps {host host' : HostNode} (kept : KeepsDirs host host') {here place : List Name}
    {segments : List CString} (found : nameiSegments host here segments = .ok place) :
    nameiSegments host' here segments = .ok place := by
  induction segments generalizing here with
  | nil => exact found
  | cons segment rest ih =>
    rw [nameiSegments] at found ⊢
    cases looked : Posix.lookup host here with
    | error err => rw [looked] at found; nomatch found
    | ok node =>
      cases node with
      | file content => rw [looked] at found; nomatch found
      | dir entries =>
        obtain ⟨entries', found'⟩ := kept here ⟨entries, lookup_ok looked⟩
        rw [looked] at found
        rw [lookup_walk found']
        simp only at found ⊢
        split at found
        · next proper => rw [dif_pos proper]; exact ih found
        · next improper =>
          rw [dif_neg improper]
          split at found
          · next up => rw [if_pos up]; exact ih found
          · next stay => rw [if_neg stay]; exact ih found

theorem namei_keeps {mount mount' : FsMount} (base : mount'.base = mount.base)
    (kept : KeepsDirs mount.host mount'.host) {path : CString} {place : List Name}
    (found : namei mount path = .ok place) : namei mount' path = .ok place := by
  rw [namei, base]
  exact nameiSegments_keeps kept found

/-! ## The destination -/

variable {σ : Type} {setting : Setting σ}

/-- A mount with the directories of another, and a file at a place. -/
structure Holds (before after : FsMount) (place : List Name) (content : List UInt8) : Prop where
  base : after.base = before.base
  kept : KeepsDirs before.host after.host
  file : after.host.walk place = .ok (.file content)

theorem Holds.not_dir {before after : FsMount} {place : List Name} {content : List UInt8}
    (holds : Holds before after place content) : ¬IsDirAt after.host place := by
  rintro ⟨entries, found⟩
  rw [holds.file] at found
  nomatch found

theorem openFile_holds {host host' : HostNode} {place : List Name}
    (opened : Posix.openFile host place { write := true, creat := true, trunc := true } = .ok host') :
    KeepsDirs host host' ∧ host'.walk place = .ok (.file []) := by
  unfold Posix.openFile at opened
  simp only [Bool.or_true, if_true] at opened
  rcases looked : Posix.lookup host place with err | ⟨content | entries⟩
  · rw [looked] at opened
    have missing : ¬IsDirAt host place := by
      rintro ⟨entries, found⟩
      rw [lookup_walk found] at looked
      nomatch looked
    cases err
    case noent =>
      cases last : place.getLast? with
      | none => simp [last] at opened
      | some name =>
        have whole : place.dropLast ++ [name] = place := List.dropLast_append_getLast? name last
        rcases parent : Posix.lookup host place.dropLast with err | ⟨content | entries⟩
        · simp [last, parent] at opened
        · simp [last, parent] at opened
        · simp only [last, parent] at opened
          obtain rfl := Except.ok.inj opened
          have self := Tree.walk_place_self name (.file []) (lookup_ok parent)
          rw [whole] at self
          exact ⟨keepsDirs_place _ (by rwa [whole]), self⟩
    all_goals nomatch opened
  · rw [looked] at opened
    obtain rfl := Except.ok.inj opened
    have found := lookup_ok looked
    have plain : ¬IsDirAt host place := by
      rintro ⟨entries, dir⟩
      rw [found] at dir
      nomatch dir
    have under := @Tree.walk_modify_under _ _ _ (fun _ => .file []) _ _ _ found []
    rw [List.append_nil, Tree.walk_nil] at under
    exact ⟨keepsDirs_modify _ plain, under⟩
  · rw [looked] at opened
    nomatch opened

theorem ramOpenWrite_holds {mount mount' : FsMount} {path : CString} {place : List Name}
    (opened : setting.ramOpenWrite mount path = (some place, mount')) :
    namei mount' path = .ok place ∧ Holds mount' mount' place [] := by
  have truncated : ∃ middle, setting.openTruncated middle path = (.ok place, mount') := by
    unfold Setting.ramOpenWrite at opened
    split at opened
    · next middle _ =>
      split at opened
      · next made => exact ⟨middle, by rw [made]; simpa using opened⟩
      · simp at opened
    · next middle _ =>
      split at opened
      · next made => exact ⟨middle, by rw [made]; simpa using opened⟩
      · simp at opened
    · simp at opened
  obtain ⟨middle, truncated⟩ := truncated
  unfold Setting.openTruncated at truncated
  split at truncated
  · simp at truncated
  · split at truncated
    · simp at truncated
    · next found =>
      split at truncated
      · simp at truncated
      · next made =>
        obtain ⟨rfl, rfl⟩ : _ = place ∧ _ = mount' := by simpa using truncated
        obtain ⟨kept, file⟩ := openFile_holds made
        refine ⟨?_, ⟨rfl, fun _ dir => dir, file⟩⟩
        apply namei_keeps _ _ found
        · rfl
        · exact kept

theorem ramWrite_holds {before mount : FsMount} {place : List Name} {content : List UInt8}
    (holds : Holds before mount place content) (answer : Answer) (bytes : List UInt8) :
    (ramWrite mount place answer bytes).1 = some bytes.length →
      Holds before (ramWrite mount place answer bytes).2 place (content ++ bytes) := by
  intro whole
  unfold ramWrite at whole ⊢
  split at whole
  · nomatch whole
  · have all : bytes.take answer.limit = bytes := by
      apply List.take_of_length_le
      have short := Option.some.inj whole
      rw [List.length_take] at short
      omega
    simp only [all]
    have under := @Tree.walk_modify_under _ _ _ (appendTo bytes) _ _ _ holds.file []
    rw [List.append_nil, Tree.walk_nil] at under
    exact ⟨holds.base, holds.kept.trans (keepsDirs_modify _ holds.not_dir), under⟩

/-! ## The loop -/

section Loop

variable {reader : Reader XfsError UInt8 σ} {place : List Name} {ranged : Bool} {rounds remaining copied : Nat}
  {source : σ} {before mount after : FsMount} {done : List UInt8}

theorem copyLoop_done (holds : Holds before mount place done)
    (ended : copyLoop setting reader place ranged rounds source remaining copied mount = some (0, after)) :
    ∃ taken rest, reader.left source = taken ++ rest ∧ Holds before after place (done ++ taken) ∧
      (ranged = true → taken.length = remaining) ∧ (ranged = false → 0 < remaining → rest = []) := by
  induction rounds generalizing source remaining copied mount done with
  | zero => nomatch ended
  | succ rounds ih =>
    rw [copyLoop] at ended
    generalize asked : (if remaining < cpBufferSize then remaining else cpBufferSize) = requested at ended
    have bounded : requested ≤ remaining ∧ (requested = 0 → remaining = 0) := by
      rw [← asked]
      unfold cpBufferSize
      split <;> omega
    by_cases none : requested = 0
    · simp only [none, if_true] at ended
      obtain rfl : mount = after := by simpa using ended
      refine ⟨[], _, rfl, by rwa [List.append_nil], fun _ => (bounded.2 none).symm, fun _ more => ?_⟩
      exact absurd (bounded.2 none) (Nat.pos_iff_ne_zero.mp more)
    · simp only [none, if_false] at ended
      rcases read : reader.read source requested with ⟨⟨_⟩ | ⟨_ | ⟨byte, bytes⟩⟩, next⟩
      · simp [read] at ended
      · have empty := reader.atEnd (Nat.pos_of_ne_zero none) (congrArg Prod.fst read)
        simp only [read, Option.some.injEq, Prod.mk.injEq] at ended
        obtain ⟨result, rfl⟩ := ended
        have whole : ranged = false := by
          cases ranged with
          | false => rfl
          | true => exact absurd result (by decide)
        exact ⟨[], [], empty, by rwa [List.append_nil], fun on => absurd (on.symm.trans whole) (by decide),
          fun _ _ => rfl⟩
      · simp only [read] at ended
        obtain ⟨split, short⟩ := reader.piece (congrArg Prod.fst read)
        rw [read] at split
        rcases wrote : ramWrite mount place (setting.writes copied) (byte :: bytes) with ⟨_ | written, mount'⟩
        · simp [wrote] at ended
        · simp only [wrote] at ended
          by_cases partly : written ≠ (byte :: bytes).length
          · rw [if_pos partly] at ended
            simp at ended
          · rw [if_neg partly] at ended
            have whole : written = (byte :: bytes).length := not_not.mp partly
            have holds' := ramWrite_holds holds (setting.writes copied) (byte :: bytes)
              (by rw [wrote, whole])
            rw [wrote] at holds'
            obtain ⟨taken, rest, left, final, full, atEnd⟩ := ih holds' ended
            refine ⟨byte :: bytes ++ taken, rest, ?_, ?_, ?_, ?_⟩
            · rw [split, left, List.append_assoc]
            · rwa [← List.append_assoc]
            · intro on
              have length := full on
              rw [if_pos on] at length
              rw [List.length_append, length]
              omega
            · intro off more
              apply atEnd off
              rw [if_neg (by simp [off])]
              exact more

theorem copyLoop_result {result : Int × FsMount}
    (ended : copyLoop setting reader place ranged rounds source remaining copied mount = some result) :
    result.1 = 0 ∨ result.1 = -2 := by
  induction rounds generalizing source remaining copied mount with
  | zero => nomatch ended
  | succ rounds ih =>
    rw [copyLoop] at ended
    generalize (if remaining < cpBufferSize then remaining else cpBufferSize) = requested at ended
    by_cases none : requested = 0
    · simp only [none, if_true] at ended
      obtain rfl := Option.some.inj ended
      exact .inl rfl
    · simp only [none, if_false] at ended
      rcases read : reader.read source requested with ⟨⟨_⟩ | ⟨_ | ⟨byte, bytes⟩⟩, next⟩ <;> rw [read] at ended
      · obtain rfl := Option.some.inj ended
        exact .inr rfl
      · obtain rfl := Option.some.inj ended
        cases ranged with
        | true => exact .inr rfl
        | false => exact .inl rfl
      · dsimp only at ended
        rcases wrote : ramWrite mount place (setting.writes copied) (byte :: bytes) with ⟨_ | written, mount'⟩ <;>
          rw [wrote] at ended
        · obtain rfl := Option.some.inj ended
          exact .inr rfl
        · by_cases partly : written ≠ (byte :: bytes).length
          · simp only [if_pos partly] at ended
            obtain rfl := Option.some.inj ended
            exact .inr rfl
          · simp only [if_neg partly] at ended
            exact ih ended

theorem copyLoop_ends (enough : (reader.left source).length < rounds) :
    ∃ result, copyLoop setting reader place ranged rounds source remaining copied mount = some result := by
  induction rounds generalizing source remaining copied mount with
  | zero => exact absurd enough (Nat.not_lt_zero _)
  | succ rounds ih =>
    rw [copyLoop]
    generalize (if remaining < cpBufferSize then remaining else cpBufferSize) = requested
    by_cases none : requested = 0
    · exact ⟨(0, mount), by simp [none]⟩
    · simp only [none, if_false]
      rcases read : reader.read source requested with ⟨⟨_⟩ | ⟨_ | ⟨byte, bytes⟩⟩, next⟩
      · exact ⟨_, rfl⟩
      · exact ⟨_, rfl⟩
      · obtain ⟨split, -⟩ := reader.piece (congrArg Prod.fst read)
        rw [read] at split
        rw [split, List.length_append, List.length_cons] at enough
        dsimp only at enough ⊢
        rcases ramWrite mount place (setting.writes copied) (byte :: bytes) with ⟨_ | written, mount'⟩
        · exact ⟨_, rfl⟩
        · by_cases partly : written ≠ (byte :: bytes).length
          · exact ⟨_, by simp only [if_pos partly]; rfl⟩
          · simp only [if_neg partly]
            apply ih
            omega

end Loop

/-! ## Copies -/

/-- The bytes of a source that are asked for. -/
def asked (content : List UInt8) : Option (Nat × Nat) → List UInt8
  | none => content
  | some (offset, count) => (content.drop offset).take count

/-- The content of the file that a path leads to. -/
def fileAt (mount : FsMount) (path : CString) : Option (List UInt8) :=
  match namei mount path with
  | .error _ => none
  | .ok place =>
    match Posix.lookup mount.host place with
    | .ok (.file content) => some content
    | _ => none

/-- The destination has the bytes that are asked for, and a range is one of the source. -/
def Copies (setting : Setting σ) (mount : FsMount) (input output : CString) (argv : List CString)
    (after : FsMount) : Prop :=
  ∃ index path range mounted source, setting.parse input output argv = some (index, path, range) ∧
    setting.mounts index = some mounted ∧ mounted.openRead mount path = .ok source ∧
    fileAt after output = some (asked (mounted.reader.left source) range) ∧
    ∀ offset count, range = some (offset, count) → offset + count ≤ (mounted.reader.left source).length

/-- The source is a file of the RAM file system, and the destination is the same file. -/
def SameFile (setting : Setting σ) (mount : FsMount) (input output : CString) : Prop :=
  ∃ index path mounted place content, parseMountSpec setting.defaultMount input = some (index, path) ∧
    setting.mounts index = some mounted ∧ mounted.kind ≠ .other ∧ namei mount path = .ok place ∧
    namei mount output = .ok place ∧ mount.host.walk place = .ok (.file content)

/-- A copy that succeeds is exact, and a copy of a file to itself is refused with the file intact. -/
def Faithful (setting : Setting σ) (mount : FsMount) (input output : CString) (argv : List CString)
    (outcome : Int × FsMount) : Prop :=
  (outcome.1 = 0 → Copies setting mount input output argv outcome.2) ∧
    (SameFile setting mount input output → outcome = (-3, mount))

/-- The arguments are right and name one file twice, but not with the same text behind leading slashes. -/
def Overlooked (setting : Setting σ) (mount : FsMount) (input output : CString) (argv : List CString) : Prop :=
  SameFile setting mount input output ∧
    ∃ index path range, setting.parse input output argv = some (index, path, range) ∧
      stripSlashes path ≠ stripSlashes output

theorem Holds.fileAt {before after : FsMount} {place : List Name} {content : List UInt8}
    (holds : Holds before after place content) {path : CString} (found : namei before path = .ok place) :
    Cp.fileAt after path = some content := by
  rw [Cp.fileAt, namei_keeps holds.base holds.kept found]
  simp only [lookup_walk holds.file]

/-- What has been skipped and what has been copied make up the range. -/
theorem asked_of_parts {content gone taken rest : List UInt8} {range : Option (Nat × Nat)}
    (whole : content = gone ++ (taken ++ rest)) (skipped : gone.length = (range.map Prod.fst).getD 0)
    (full : range.isSome = true → taken.length = (range.map Prod.snd).getD (2 ^ 32 - 1))
    (atEnd : range.isSome = false → rest = []) :
    asked content range = taken ∧
      ∀ offset count, range = some (offset, count) → offset + count ≤ content.length := by
  cases range with
  | none =>
    obtain rfl := atEnd rfl
    obtain rfl : gone = [] := List.eq_nil_of_length_eq_zero skipped
    refine ⟨by simp [asked, whole], ?_⟩
    intro _ _ absurd
    nomatch absurd
  | some range =>
    obtain ⟨offset, count⟩ := range
    have taking : taken.length = count := full rfl
    have skipping : gone.length = offset := skipped
    refine ⟨?_, ?_⟩
    · rw [whole, asked, ← skipping, List.drop_left, ← taking, List.take_left]
    · intro offset' count' same
      obtain ⟨rfl, rfl⟩ : offset = offset' ∧ count = count' := by simpa using same
      rw [whole, List.length_append, List.length_append, skipping, taking]
      omega

section Call

variable {mount : FsMount} {input output : CString} {argv : List CString} {rounds : Nat} {outcome : Int × FsMount}

/-- How a call ends: it is refused for its arguments or for its paths, it fails, or the loop that copies
succeeds. -/
theorem engineCpCall_cases (ended : setting.engineCpCall rounds mount input output argv = some outcome) :
    (setting.parse input output argv = none ∧ outcome = (-3, mount)) ∨
      ∃ index path range, setting.parse input output argv = some (index, path, range) ∧
        ((setting.ramSourceAliasesDestination index path output = true ∧ outcome = (-3, mount)) ∨
          (setting.ramSourceAliasesDestination index path output = false ∧ (outcome.1 = -2 ∨
            ∃ mounted source skipped place opened, outcome.1 = 0 ∧ setting.mounts index = some mounted ∧
              mounted.openRead mount path = .ok source ∧
              mounted.reader.skip cpBufferSize rounds source ((range.map Prod.fst).getD 0) =
                some (some skipped) ∧
              setting.ramOpenWrite mount output = (some place, opened) ∧
              copyLoop setting mounted.reader place range.isSome rounds skipped
                ((range.map Prod.snd).getD (2 ^ 32 - 1)) 0 opened = some (0, outcome.2)))) := by
  unfold Setting.engineCpCall at ended
  split at ended
  · next wrong => exact .inl ⟨wrong, (Option.some.inj ended).symm⟩
  next index path range parsed =>
  refine .inr ⟨index, path, range, parsed, ?_⟩
  split at ended
  · next aliased => exact .inl ⟨aliased, (Option.some.inj ended).symm⟩
  next apart =>
  refine .inr ⟨by simpa using apart, ?_⟩
  have failed : some (-2, mount) = some outcome → outcome.1 = -2 := by
    intro same
    rw [← Option.some.inj same]
  split at ended
  · exact .inl (failed ended)
  next mounted mountedEq =>
  split at ended
  · exact .inl (failed ended)
  next source opened =>
  split at ended
  · nomatch ended
  · exact .inl (failed ended)
  next skipped skips =>
  split at ended
  · exact .inl (failed ended)
  split at ended
  · obtain rfl := Option.some.inj ended
    exact .inl rfl
  next place mount' writes =>
  obtain ⟨⟨result, after⟩, looped, rfl⟩ := Option.map_eq_some_iff.mp ended
  rcases copyLoop_result looped with success | failure
  · obtain rfl : result = 0 := success
    cases setting.closes with
    | false => exact .inl rfl
    | true => exact .inr ⟨mounted, source, skipped, place, mount', rfl, mountedEq, opened, skips, writes, looped⟩
  · obtain rfl : result = -2 := failure
    exact .inl (by simp)

/-- A call that succeeds has copied exactly. -/
theorem copied_exactly (ended : setting.engineCpCall rounds mount input output argv = some outcome)
    (success : outcome.1 = 0) : Copies setting mount input output argv outcome.2 := by
  rcases engineCpCall_cases ended with ⟨-, rfl⟩ | ⟨index, path, range, parsed, ends⟩
  · exact absurd success (show ¬(-3 : Int) = 0 by decide)
  rcases ends with ⟨-, rfl⟩ | ⟨-, failed | ⟨mounted, source, skipped, place, opened, ends⟩⟩
  · exact absurd success (show ¬(-3 : Int) = 0 by decide)
  · exact absurd (failed.symm.trans success) (by decide)
  obtain ⟨-, mountedEq, reads, skips, writes, looped⟩ := ends
  obtain ⟨found, holds⟩ := ramOpenWrite_holds writes
  obtain ⟨gone, front, length⟩ := Reader.skip_done skips
  obtain ⟨taken, rest, back, final, full, atEnd⟩ := copyLoop_done holds looped
  rw [List.nil_append] at final
  rw [back] at front
  have last : range.isSome = false → rest = [] := by
    intro off
    apply atEnd off
    cases range with
    | none => decide
    | some _ => nomatch off
  obtain ⟨bytes, inside⟩ := asked_of_parts front length full last
  refine ⟨index, path, range, mounted, source, parsed, mountedEq, reads, ?_, inside⟩
  rw [bytes]
  exact final.fileAt found

theorem aliases_iff {index : Nat} {path : CString} {mounted : SourceMount σ}
    (mountedEq : setting.mounts index = some mounted) (own : mounted.kind ≠ .other) :
    setting.ramSourceAliasesDestination index path output = true ↔ stripSlashes path = stripSlashes output := by
  simp [Setting.ramSourceAliasesDestination, mountedEq, own]

theorem parse_spec {index : Nat} {path : CString} {range : Option (Nat × Nat)}
    (parsed : setting.parse input output argv = some (index, path, range)) :
    parseMountSpec setting.defaultMount input = some (index, path) := by
  unfold Setting.parse at parsed
  split at parsed
  · nomatch parsed
  next found =>
  split at parsed
  · nomatch parsed
  split at parsed
  · nomatch parsed
  simp only [Option.some.injEq, Prod.mk.injEq] at parsed
  obtain ⟨rfl, rfl, -⟩ := parsed
  exact found

theorem engineCpCall_ends (setting : Setting σ) (mount : FsMount) (input output : CString)
    (argv : List CString) :
    ∃ enough, ∀ rounds, enough ≤ rounds →
      ∃ outcome, setting.engineCpCall rounds mount input output argv = some outcome := by
  unfold Setting.engineCpCall
  split
  · exact ⟨0, fun _ _ => ⟨_, rfl⟩⟩
  next index path range parsed =>
  split
  · exact ⟨0, fun _ _ => ⟨_, rfl⟩⟩
  split
  · exact ⟨0, fun _ _ => ⟨_, rfl⟩⟩
  next mounted _ =>
  split
  · exact ⟨0, fun _ _ => ⟨_, rfl⟩⟩
  next source opened =>
  refine ⟨(range.map Prod.fst).getD 0 + (mounted.reader.left source).length + 1, ?_⟩
  intro rounds enough
  obtain ⟨result, skips⟩ := @Reader.skip_ends _ _ _ mounted.reader cpBufferSize rounds
    ((range.map Prod.fst).getD 0) source (by omega)
  rw [skips]
  cases result with
  | none => exact ⟨_, rfl⟩
  | some skipped =>
    dsimp only
    split
    · exact ⟨_, rfl⟩
    split
    · exact ⟨_, rfl⟩
    next place mount' _ =>
    obtain ⟨gone, front, -⟩ := Reader.skip_done skips
    have shorter := congrArg List.length front
    rw [List.length_append] at shorter
    obtain ⟨result, loops⟩ := @copyLoop_ends _ setting mounted.reader place range.isSome rounds
      ((range.map Prod.snd).getD (2 ^ 32 - 1)) 0 skipped mount' (by omega)
    rw [loops]
    exact ⟨_, rfl⟩

end Call

/-- Every call ends. It is faithful unless it overlooks that the destination is the source. -/
theorem cp_faithful (setting : Setting σ) (mount : FsMount) (input output : CString) (argv : List CString) :
    ∃ enough, ∀ rounds, enough ≤ rounds →
      ∃ outcome, setting.engineCpCall rounds mount input output argv = some outcome ∧
        (Faithful setting mount input output argv outcome ↔ ¬Overlooked setting mount input output argv) := by
  obtain ⟨enough, ends⟩ := engineCpCall_ends setting mount input output argv
  refine ⟨enough, fun rounds long => ?_⟩
  obtain ⟨outcome, ended⟩ := ends rounds long
  refine ⟨outcome, ended, ?_, ?_⟩
  · rintro ⟨-, refused⟩ ⟨same, index, path, range, parsed, differ⟩
    have outcome_eq := refused same
    obtain ⟨index', path', mounted, place, content, spec, mountedEq, own, -⟩ := same
    obtain ⟨rfl, rfl⟩ : index' = index ∧ path' = path := by
      simpa using spec.symm.trans (parse_spec parsed)
    have apart := mt (aliases_iff mountedEq own).mp differ
    rcases engineCpCall_cases ended with ⟨wrong, -⟩ | ⟨index, path, range', parsed', cases_⟩
    · exact absurd (wrong.symm.trans parsed) (Option.some_ne_none _).symm
    obtain ⟨rfl, rfl, -⟩ : index' = index ∧ path' = path ∧ range = range' := by
      simpa using parsed.symm.trans parsed'
    rw [outcome_eq] at cases_
    rcases cases_ with ⟨aliased, -⟩ | ⟨-, failed | ⟨_, _, _, _, _, success, -⟩⟩
    · exact apart aliased
    · exact absurd failed (show ¬(-3 : Int) = -2 by decide)
    · exact absurd success (show ¬(-3 : Int) = 0 by decide)
  · intro noticed
    refine ⟨copied_exactly ended, fun same => ?_⟩
    rcases engineCpCall_cases ended with ⟨-, refused⟩ | ⟨index, path, range, parsed, cases_⟩
    · exact refused
    have kept := same
    obtain ⟨index', path', mounted, place, content, spec, mountedEq, own, -⟩ := same
    obtain ⟨rfl, rfl⟩ : index' = index ∧ path' = path := by
      simpa using spec.symm.trans (parse_spec parsed)
    rcases cases_ with ⟨-, refused⟩ | ⟨apart, -⟩
    · exact refused
    · refine absurd ⟨kept, index', path', range, parsed, fun equal => ?_⟩ noticed
      have aliased := (@aliases_iff _ setting output _ _ _ mountedEq own).mpr equal
      exact absurd (aliased.symm.trans apart) (by decide)

/-! ## The RAM file system as the source -/

theorem take_append_rest (content : List UInt8) (size : Nat) :
    content.take size ++ content.drop (content.take size).length = content := by
  rw [List.length_take]
  rcases Nat.le_total size content.length with fits | long
  · rw [Nat.min_eq_left fits, List.take_append_drop]
  · rw [Nat.min_eq_right long, List.take_of_length_le long, List.drop_length, List.append_nil]

/-- `fs_read`: how many bytes the host gives in one read depends on the position; it gives at least one. -/
def ramReader (limits : Nat → Nat) : Reader XfsError UInt8 HostFile where
  read file size :=
    let bytes := bytesAt file.content file.position (min size (limits file.position + 1))
    (.ok bytes, { file with position := file.position + bytes.length })
  left file := file.content.drop file.position
  piece := by
    intro file size items read
    obtain rfl := Except.ok.inj read
    refine ⟨?_, ?_⟩
    · simp only [bytesAt]
      rw [← List.drop_drop]
      exact (take_append_rest _ _).symm
    · rw [bytesAt, List.length_take]
      omega
  atEnd := by
    intro file size some_ read
    have empty := Except.ok.inj read
    simp only [bytesAt, List.take_eq_nil_iff] at empty
    rcases empty with zero | ended
    · omega
    · exact ended

/-- The RAM engine as a source, for files. -/
def ramSource (limits : Nat → Nat) : SourceMount HostFile where
  kind := .ram
  reader := ramReader limits
  openRead mount path :=
    match fileAt mount path with
    | some content => .ok { content := content }
    | none => .error .noent

theorem ramSource_left {limits : Nat → Nat} {mount : FsMount} {path : CString} {source : HostFile}
    (opened : (ramSource limits).openRead mount path = .ok source) :
    fileAt mount path = some ((ramSource limits).reader.left source) := by
  unfold ramSource at opened
  dsimp only at opened
  split at opened
  · next found =>
    obtain rfl := Except.ok.inj opened
    exact found
  · nomatch opened

/-- Mount 0 is the RAM file system, and the host does all that it is asked for. -/
def ramSetting : Setting HostFile where
  defaultMount := 0
  mounts index := if index = 0 then some (ramSource fun _ => cpBufferSize) else none
  ramMounts := true
  unlinkFails := none
  openFails := none
  writes _ := { limit := cpBufferSize }
  closes := true

/-- A directory with the file `a`. -/
def oneFile (content : List UInt8) : FsMount where
  host := .dir [(⟨bytes "a", by decide⟩, .file content)]
  base := []

/-- `cp ./a a 0 1` cuts the file `a`. -/
theorem same_file_cut :
    ∃ outcome,
      ramSetting.engineCpCall 5 (oneFile [1, 2, 3]) (bytes "./a") (bytes "a") [bytes "cp", bytes "0", bytes "1"] =
        some outcome ∧ outcome.1 = 0 ∧ fileAt outcome.2 (bytes "a") = some [1] ∧
        ¬Faithful ramSetting (oneFile [1, 2, 3]) (bytes "./a") (bytes "a") [bytes "cp", bytes "0", bytes "1"]
          outcome := by
  refine ⟨(0, oneFile [1]), rfl, rfl, rfl, ?_⟩
  rintro ⟨-, refused⟩
  have same : SameFile ramSetting (oneFile [1, 2, 3]) (bytes "./a") (bytes "a") :=
    ⟨0, bytes "./a", ramSource fun _ => cpBufferSize, [⟨bytes "a", by decide⟩], [1, 2, 3], rfl, rfl, nofun, rfl,
      rfl, rfl⟩
  exact absurd (congrArg Prod.fst (refused same)) (show ¬(0 : Int) = -3 by decide)

end FuseX.Engines.Cp
