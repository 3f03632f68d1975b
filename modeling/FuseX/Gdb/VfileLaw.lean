import FuseX.Gdb.VfileServed

/-!
# A file request and its answer

What a request leads to should depend on the request, not on what the input buffer holds
behind it nor on what the response buffer held before, and a request without one of its
arguments should be turned down (`RequestLaw`). The requests for which that is so are those of
`RequestOk` (`requests_iff`): the dispatcher hands `mv` a length that has nothing to do with
its arguments, and some handlers act before or without looking at theirs.
-/

namespace FuseX.Gdb

open Lib

variable {σ : Type} {engine : XfsEngine σ} {v : Vfile σ}

/-! ## What is logged -/

theorem call_length (engine : XfsEngine σ) (call : XfsCall) (v : Vfile σ) :
    v.events.length < (v.call engine call).1.events.length := by
  show v.events.length < (v.events ++ [_]).length
  rw [List.length_append]
  exact Nat.lt_succ_self _

theorem ensureMounted_mounted (mounted : v.mounted = true) :
    v.ensureMounted engine = (v, true) := by
  rw [Vfile.ensureMounted, if_pos mounted]

theorem ensureMounted_unmounted (engine : XfsEngine σ) (unmounted : v.mounted = false) :
    v.events.length < (v.ensureMounted engine).1.events.length := by
  rw [Vfile.ensureMounted, if_neg (by rw [unmounted]; nofun)]
  dsimp only
  split <;> exact call_length engine .mount v

theorem ensureMounted_length : v.events.length ≤ (v.ensureMounted engine).1.events.length := by
  rcases mounted : v.mounted with _ | _
  · exact Nat.le_of_lt (ensureMounted_unmounted engine mounted)
  · exact Nat.le_of_eq (by rw [ensureMounted_mounted mounted])

theorem clearHandle_length : v.events.length < (v.clearHandle engine).1.events.length := by
  unfold Vfile.clearHandle
  dsimp only
  refine Nat.lt_of_le_of_lt ?_ (call_length engine .freeHandle _)
  split
  · exact Nat.le_refl _
  · exact Nat.le_of_lt (call_length engine .close v)
  · exact Nat.le_of_lt (call_length engine .closedir v)

theorem dropHandle_length (engine : XfsEngine σ) (v : Vfile σ) :
    v.events.length ≤ (v.dropHandle engine).events.length := by
  unfold Vfile.dropHandle
  split
  · exact Nat.le_refl _
  · exact Nat.le_of_lt clearHandle_length

theorem dropHandle_none (none_ : v.handle = .none) : v.dropHandle engine = v := if_pos none_

theorem dropHandle_some (some_ : v.handle ≠ .none) :
    v.events.length < (v.dropHandle engine).events.length := by
  rw [Vfile.dropHandle, if_neg some_]
  exact clearHandle_length

/-- Whether there is a file system after `ensure_mounted`. -/
def Mounts (engine : XfsEngine σ) (v : Vfile σ) : Prop :=
  v.mounted = true ∨ (engine.call v.fs .mount).2.result = 0

theorem ensureMounted_iff : (v.ensureMounted engine).2 = true ↔ Mounts engine v := by
  unfold Vfile.ensureMounted Mounts
  rcases mounted : v.mounted with _ | _
  · dsimp only [Vfile.call]
    rw [if_neg Bool.false_ne_true]
    split
    · next result => exact ⟨fun _ => .inr result, fun _ => rfl⟩
    · next result =>
      exact ⟨nofun, fun mounts => absurd (mounts.resolve_left nofun) result⟩
  · exact ⟨fun _ => .inl rfl, fun _ => rfl⟩

/-! ## Subcommands without an argument -/

/-- The commas between the arguments of a subcommand that has some. -/
def Subcommand.commas : Subcommand → Option Nat
  | .open => some 3
  | .pread | .pwrite | .mv => some 1
  | .close | .size | .exists | .unlink | .opendir | .mkdir | .rmdir => some 0
  | .reboot | .autoboot | .status | .readdir | .closedir => none

/-- The condition on a subcommand with its `actual_args` and `actual_args_len`: a path is
there; without one of its arguments `open` finds no handle to close and does not come to an
empty path; `mv` finds its slices in the packet, and without one of its arguments it does not
come to two paths. -/
def Subcommand.Ok (engine : XfsEngine σ) (v : Vfile σ) (args : Bytes) (n : Nat) :
    Subcommand → Prop
  | .size | .exists | .unlink | .opendir | .mkdir | .rmdir => stringAt 0 args ≠ some []
  | .open => ∀ s, stringAt 0 args = some s → missingField 3 s = true →
      v.mounted = true ∧ v.handle = .none ∧ ¬ PathLess s
  | .mv => (Mounts engine v → SlicesEnd args n) ∧
      ∀ s, stringAt 0 args = some s → missingField 1 s = true →
        v.mounted = true ∧ ¬ TwoPaths args n
  | .close | .pread | .pwrite | .reboot | .autoboot | .status | .readdir | .closedir => True

/-- The responses `F-1,` and `E` with a number. -/
def IsError (response : Bytes) : Prop :=
  ∃ errno, response = fileError errno ∨ response = spectranextError errno

theorem closeAnswer_missing {s : Bytes} (missing : missingField 0 s = true) :
    closeAnswer engine v s = (v, fileError 22) := by
  rw [closeAnswer, missingField_close missing]

theorem preadAnswer_missing (engine : XfsEngine σ) (v : Vfile σ) {s : Bytes}
    (missing : missingField 1 s = true) :
    ∃ errno, preadAnswer engine v s = (v, fileError errno) := by
  rw [preadAnswer, missingField_pread missing]
  split
  · exact ⟨9, rfl⟩
  · exact ⟨22, rfl⟩

theorem pwriteAnswer_missing (engine : XfsEngine σ) (v : Vfile σ) {s : Bytes}
    (missing : missingField 1 s = true) :
    ∃ errno, pwriteAnswer engine v s = (v, fileError errno) := by
  rw [pwriteAnswer, missingField_pwrite missing]
  split
  · exact ⟨9, rfl⟩
  · exact ⟨22, rfl⟩

theorem openAnswer_missing {s : Bytes} (missing : missingField 3 s = true)
    (mounted : v.mounted = true) (none_ : v.handle = .none) (notPathLess : ¬ PathLess s) :
    openAnswer engine v s = (v, fileError 22) := by
  have malformed : openOf s = none :=
    Classical.not_not.mp fun parsed => notPathLess ((missingField_open missing).mp parsed)
  rw [openAnswer, ensureMounted_mounted mounted]
  dsimp only
  rw [if_neg fun same => Bool.noConfusion same, dropHandle_none none_, malformed]

theorem openAnswer_length {s : Bytes} :
    (v.ensureMounted engine).1.events.length ≤ (openAnswer engine v s).1.events.length := by
  rw [openAnswer]
  dsimp only
  split
  · exact Nat.le_refl _
  · have dropped := dropHandle_length engine (v.ensureMounted engine).1
    rcases openOf s with _ | ⟨flags, path⟩
    · exact dropped
    · refine Nat.le_trans dropped (Nat.le_of_lt ?_)
      have called := call_length engine (.open path (xfsFlags flags))
        ((v.ensureMounted engine).1.dropHandle engine)
      dsimp only
      split <;> exact called

/-- `open` without one of its arguments does something all the same. -/
theorem openAnswer_acts {s : Bytes} (missing : missingField 3 s = true)
    (acts : ¬ (v.mounted = true ∧ v.handle = .none ∧ ¬ PathLess s)) :
    v.events.length < (openAnswer engine v s).1.events.length := by
  rcases mounted : v.mounted with _ | _
  · exact Nat.lt_of_lt_of_le (ensureMounted_unmounted engine mounted) openAnswer_length
  rw [openAnswer, ensureMounted_mounted mounted]
  dsimp only
  rw [if_neg fun same => Bool.noConfusion same]
  rcases parsed : openOf s with _ | ⟨flags, path⟩
  · have notPathLess : ¬ PathLess s := fun pathLess =>
      (missingField_open missing).mpr pathLess parsed
    exact dropHandle_some fun none_ => acts ⟨mounted, none_, notPathLess⟩
  · have called := call_length engine (.open path (xfsFlags flags)) (v.dropHandle engine)
    refine Nat.lt_of_le_of_lt (dropHandle_length engine v) ?_
    dsimp only
    split <;> exact called

/-- A path that is not there is a path to the handlers. -/
theorem pathAnswer_acts (error : Nat → Bytes) (call : Bytes → XfsCall)
    (answer : XfsReply → Bytes) :
    v.events.length < (pathAnswer error call answer engine v []).1.events.length := by
  rcases mounted : v.mounted with _ | _
  · refine Nat.lt_of_lt_of_le (ensureMounted_unmounted engine mounted) ?_
    rw [pathAnswer]
    dsimp only
    split
    · exact Nat.le_refl _
    · exact Nat.le_of_lt (call_length engine (call []) _)
  · rw [pathAnswer, ensureMounted_mounted mounted]
    exact call_length engine (call []) v

theorem opendirAnswer_acts :
    v.events.length < (opendirAnswer engine v []).1.events.length := by
  have opens : ∀ w : Vfile σ, w.events.length <
      (if (w.call engine (.opendir [])).2.result = 0 then
        ({ (w.call engine (.opendir [])).1 with handle := HandleType.dir }, text "OK")
      else ((w.call engine (.opendir [])).1, spectranextError
        (xfsErrnoToGdbErrno (w.call engine (.opendir [])).2.result))).1.events.length := by
    intro w
    split <;> exact call_length engine (.opendir []) w
  rcases mounted : v.mounted with _ | _
  · refine Nat.lt_of_lt_of_le (ensureMounted_unmounted engine mounted) ?_
    rw [opendirAnswer]
    dsimp only
    split
    · exact Nat.le_refl _
    · exact Nat.le_trans (dropHandle_length engine _) (Nat.le_of_lt (opens _))
  · rw [opendirAnswer, ensureMounted_mounted mounted]
    exact Nat.lt_of_le_of_lt (dropHandle_length engine _) (opens _)

theorem mvAnswer_acts {paths : Option (Bytes × Bytes)}
    (acts : v.mounted = false ∨ paths ≠ none) :
    v.events.length < (mvAnswer engine v paths).1.events.length := by
  rcases mounted : v.mounted with _ | _
  · refine Nat.lt_of_lt_of_le (ensureMounted_unmounted engine mounted) ?_
    rw [mvAnswer]
    dsimp only
    split
    · exact Nat.le_refl _
    · rcases paths with _ | ⟨oldPath, newPath⟩
      · exact Nat.le_refl _
      · exact Nat.le_of_lt (call_length engine (.rename oldPath newPath) _)
  · obtain ⟨⟨oldPath, newPath⟩, rfl⟩ := Option.ne_none_iff_exists'.mp
      (acts.resolve_left fun unmounted => Bool.false_ne_true (unmounted.symm.trans mounted))
    rw [mvAnswer, ensureMounted_mounted mounted]
    exact call_length engine (.rename oldPath newPath) v

theorem runSubcommand_missing {sub : Subcommand} {args s : Bytes} {n commas : Nat}
    (measured : Measured sub args n s) (takes : sub.commas = some commas)
    (missing : missingField commas s = true) (ok : sub.Ok engine v args n) {buf : Bytes}
    (whole : buf.length = responseBufSize) :
    ∃ response buf', IsError response ∧
      runSubcommand engine v buf args n sub = some ((v, some response), buf') := by
  have pathLess : stringAt 0 args ≠ some [] → missingField 0 s = true → False :=
    fun there missing => there (List.isEmpty_iff.mp missing ▸ measured.string)
  cases sub with
  | «open» =>
    cases takes
    obtain ⟨mounted, none_, notPathLess⟩ := ok s measured.string missing
    refine ⟨_, buf, ⟨22, .inl rfl⟩, ?_⟩
    rw [measured.length (.inl rfl), runSubcommand, handleVfileOpen_of measured.string,
      openAnswer_missing missing mounted none_ notPathLess]
    rfl
  | close =>
    cases takes
    refine ⟨_, buf, ⟨22, .inl rfl⟩, ?_⟩
    rw [measured.length (.inr (.inl rfl)), runSubcommand, handleVfileClose_of measured.string,
      closeAnswer_missing missing]
    rfl
  | pread =>
    cases takes
    obtain ⟨errno, answer⟩ := preadAnswer_missing engine v missing
    obtain ⟨buf', served⟩ := handleVfilePread_of engine v measured.string whole
    refine ⟨_, buf', ⟨errno, .inl rfl⟩, ?_⟩
    rw [measured.length (.inr (.inr (.inl rfl))), runSubcommand, served, answer]
    rfl
  | pwrite =>
    cases takes
    obtain ⟨errno, answer⟩ := pwriteAnswer_missing engine v missing
    obtain ⟨buf', served⟩ :=
      handleVfilePwrite_of engine v measured.string measured.small buf
    refine ⟨_, buf', ⟨errno, .inl rfl⟩, ?_⟩
    rw [measured.length (.inr (.inr (.inr rfl))), runSubcommand, served, answer]
    rfl
  | mv =>
    cases takes
    obtain ⟨mounted, notTwoPaths⟩ := ok.2 s measured.string missing
    obtain ⟨paths, sliced⟩ :=
      Option.isSome_iff_exists.mp (mvArgs_isSome.mpr (ok.1 (.inl mounted)))
    obtain rfl : paths = none := by
      rcases paths with _ | paths
      · rfl
      · exact absurd (mvArgs_paths.mp ⟨paths, sliced⟩) notTwoPaths
    refine ⟨_, buf, ⟨22, .inr rfl⟩, ?_⟩
    rw [runSubcommand, handleVspectranextMv_of sliced, mvAnswer, ensureMounted_mounted mounted]
    rfl
  | size | «exists» | unlink | mkdir | rmdir | «opendir» =>
    cases takes
    exact (pathLess ok missing).elim
  | _ => cases takes

/-- Where the condition fails, the request faults, or it lacks an argument and does something
all the same. -/
theorem runSubcommand_notOk {sub : Subcommand} {args s : Bytes} {n : Nat}
    (measured : Measured sub args n s) (notOk : ¬ sub.Ok engine v args n) (buf : Bytes) :
    runSubcommand engine v buf args n sub = none ∨
    (∃ commas, sub.commas = some commas ∧ missingField commas s = true) ∧
      ∀ answer buf', runSubcommand engine v buf args n sub = some (answer, buf') →
        answer.2.isSome ∧ v.events.length < answer.1.events.length := by
  by_cases onPath : sub.OnPath
  · obtain ⟨error, call, answer, served⟩ := runSubcommand_path engine onPath
    have facts : sub.commas = some 0 ∧ (¬ sub.Ok engine v args n → stringAt 0 args = some []) := by
      rcases onPath with rfl | rfl | rfl | rfl | rfl <;> exact ⟨rfl, Classical.not_not.mp⟩
    have empty := measured.string.symm.trans (facts.2 notOk)
    cases empty
    refine .inr ⟨⟨0, facts.1, rfl⟩, fun answer' buf' run => ?_⟩
    rw [served v args n [] buf measured.string] at run
    cases run
    exact ⟨rfl, pathAnswer_acts error call answer⟩
  cases sub with
  | «opendir» =>
    have empty := measured.string.symm.trans (Classical.not_not.mp notOk)
    cases empty
    refine .inr ⟨⟨0, rfl, rfl⟩, fun answer' buf' run => ?_⟩
    rw [runSubcommand, handleVspectranextOpendir_of measured.string] at run
    cases run
    exact ⟨rfl, opendirAnswer_acts⟩
  | «open» =>
    obtain ⟨string, missing, acts⟩ : stringAt 0 args = some s ∧ missingField 3 s = true ∧
        ¬ (v.mounted = true ∧ v.handle = .none ∧ ¬ PathLess s) := by
      by_contra holds
      refine notOk fun s' string missing => ?_
      cases measured.string.symm.trans string
      by_contra acts
      exact holds ⟨string, missing, acts⟩
    refine .inr ⟨⟨3, rfl, missing⟩, fun answer' buf' run => ?_⟩
    rw [measured.length (.inl rfl), runSubcommand, handleVfileOpen_of string] at run
    cases run
    exact ⟨rfl, openAnswer_acts missing acts⟩
  | mv =>
    by_cases ends : Mounts engine v → SlicesEnd args n
    · obtain ⟨missing, acts⟩ : missingField 1 s = true ∧
          ¬ (v.mounted = true ∧ ¬ TwoPaths args n) := by
        by_contra holds
        refine notOk ⟨ends, fun s' string missing => ?_⟩
        cases measured.string.symm.trans string
        by_contra acts
        exact holds ⟨missing, acts⟩
      refine .inr ⟨⟨1, rfl, missing⟩, fun answer' buf' run => ?_⟩
      rcases mounts : (v.ensureMounted engine).2 with _ | _
      · have unmounted : v.mounted = false := by
          rcases mounted : v.mounted with _ | _
          · rfl
          · rw [ensureMounted_mounted mounted] at mounts
            cases mounts
        rw [runSubcommand, handleVspectranextMv_unmounted mounts] at run
        cases run
        exact ⟨rfl, mvAnswer_acts (.inl unmounted)⟩
      · obtain ⟨paths, sliced⟩ :=
          Option.isSome_iff_exists.mp (mvArgs_isSome.mpr (ends (ensureMounted_iff.mp mounts)))
        rw [runSubcommand, handleVspectranextMv_of sliced] at run
        cases run
        refine ⟨rfl, mvAnswer_acts ?_⟩
        rcases mounted : v.mounted with _ | _
        · exact .inl rfl
        · refine .inr fun none_ => acts ⟨mounted, fun twoPaths => ?_⟩
          obtain ⟨paths', sliced'⟩ := mvArgs_paths.mpr twoPaths
          rw [sliced', none_] at sliced
          cases sliced
    · obtain ⟨mounts, endless⟩ := Classical.not_imp.mp ends
      have unsliced : mvArgs args n = none :=
        Option.not_isSome_iff_eq_none.mp fun sliced => endless (mvArgs_isSome.mp sliced)
      refine .inl ?_
      rw [runSubcommand, handleVspectranextMv]
      dsimp only
      rw [ensureMounted_iff.mpr mounts, if_neg fun same => Bool.noConfusion same, unsliced]
      rfl
  | size | «exists» | unlink | mkdir | rmdir =>
    exact absurd (by simp [Subcommand.OnPath]) onPath
  | _ => exact absurd trivial notOk

/-! ## Requests -/

/-- The two kinds of requests. -/
inductive RequestKind : Type
  | vFile
  | vSpectranext

/-- What the packet of a request starts with behind its `v`. -/
def RequestKind.header : RequestKind → Bytes
  | .vFile => text "File:"
  | .vSpectranext => text "Spectranext:"

/-- A request that the deframer can have received. -/
structure VRequest where
  kind : RequestKind
  rest : Bytes
  fits : 1 + (kind.header ++ rest).length ≤ packetBufSize

/-- What the input buffer holds of it from the payload on: it is closed by a NUL if there is
room for one. -/
def VRequest.tail (r : VRequest) : Bytes :=
  if 1 + (r.kind.header ++ r.rest).length < packetBufSize then r.rest ++ [0] else r.rest

def VRequest.memory (r : VRequest) : Bytes := r.kind.header ++ r.tail

/-- The request served from a buffer that holds `behind` behind it. -/
def serve (engine : XfsEngine σ) (v : Vfile σ) (buf : Bytes) (r : VRequest) (behind : Bytes) :
    Option (Vfile σ) :=
  (processVpacket engine v buf (r.memory ++ behind)).map (·.1)

/-- The request has a subcommand that takes arguments, and one of them is missing. -/
def VRequest.Missing (r : VRequest) : Prop :=
  ∃ sub args n s commas, dispatchVpacket r.memory = some (.run sub args n) ∧
    stringAt 0 args = some s ∧ sub.commas = some commas ∧ missingField commas s = true

/-- What a request leads to depends on it alone. `alone`: no scan runs past the packet.
`same`: the responses and what is called are the same whatever the two buffers held.
`missing`: without one of its arguments it is answered with an error and nothing else. -/
structure RequestLaw (engine : XfsEngine σ) (v : Vfile σ) (r : VRequest) : Prop where
  alone : ∀ buf, buf.length = responseBufSize → (serve engine v buf r []).isSome
  same : ∀ buf buf' behind behind', buf.length = responseBufSize →
    buf'.length = responseBufSize →
    (serve engine v buf r behind).map Vfile.events =
      (serve engine v buf' r behind').map Vfile.events
  missing : r.Missing → ∀ buf behind, buf.length = responseBufSize →
    ∃ response, IsError response ∧
      (serve engine v buf r behind).map Vfile.events =
        some (v.events ++ [.message response])

/-- The packet is closed by a NUL, and its subcommand meets its condition. -/
structure RequestOk (engine : XfsEngine σ) (v : Vfile σ) (r : VRequest) : Prop where
  closed : 0 ∈ r.memory
  subcommand : ∀ sub args n, dispatchVpacket r.memory = some (.run sub args n) →
    sub.Ok engine v args n

/-! ## The dispatcher -/

theorem RequestKind.header_plain (kind : RequestKind) : 0 ∉ kind.header := by
  cases kind <;> decide

theorem RequestKind.header_semicolon (kind : RequestKind) : ascii ';' ∉ kind.header := by
  cases kind <;> decide

/-- The dispatcher behind the header. -/
def RequestKind.dispatch (kind : RequestKind) (name args : Bytes) (n : UInt32) :
    Option Dispatched :=
  match kind with
  | .vFile => (charAt 0 (ascii ':') name).bind fun
      | some (subcmd, actualArgs) =>
          if 64 ≤ subcmd.length then some (.tooLong (fileError 22))
          else (stringAt 0 actualArgs).map fun s =>
            .of (fileSubcommand subcmd) actualArgs (UInt32.ofNat s.length)
      | none => (stringAt 0 name).map fun subcmd => .of (fileSubcommand subcmd) args n
  | .vSpectranext => (charAt 0 (ascii ':') name).bind fun
      | some (subcmd, actualArgs) =>
          if 64 ≤ subcmd.length then some (.tooLong (spectranextError 22))
          else some (.of (spectranextSubcommand subcmd) actualArgs
            (n - UInt32.ofNat (12 + subcmd.length + 1)))
      | none =>
          (stringAt 0 name).map fun subcmd => .of (spectranextSubcommand subcmd) args n

theorem dispatch_header (kind : RequestKind) (name args : Bytes) (n : UInt32) :
    dispatch (kind.header ++ name) args n = kind.dispatch name args n := by
  cases kind <;> rfl

theorem dispatchVpacket_header (kind : RequestKind) (tail : Bytes) :
    dispatchVpacket (kind.header ++ tail) = (charAt 0 (ascii ';') tail).bind fun
      | some (name, args) => (stringAt 0 args).bind fun s =>
          kind.dispatch (name ++ 0 :: args) args (UInt32.ofNat s.length)
      | none => kind.dispatch tail [0] 0 := by
  rw [dispatchVpacket, charAt_skip kind.header_semicolon kind.header_plain]
  rcases charAt 0 (ascii ';') tail with _ | _ | ⟨name, args⟩
  · rfl
  · exact dispatch_header kind tail [0] 0
  · show (stringAt 0 args).bind _ = (stringAt 0 args).bind _
    congr 1
    funext s
    rw [List.append_assoc]
    exact dispatch_header kind _ args _

theorem mem_behind {before after : Bytes} {c : UInt8} (ends : 0 ∈ before ++ c :: after)
    (other : c ≠ 0) (plain : 0 ∉ before) : 0 ∈ after := by
  rcases List.mem_append.mp ends with inFront | inBack
  · exact absurd inFront plain
  · exact (List.mem_cons.mp inBack).resolve_left other.symm

theorem dispatch_closed {kind : RequestKind} {name : Bytes} (closed : 0 ∈ name) (args : Bytes)
    (n : UInt32) : (kind.dispatch name args n).isSome := by
  obtain ⟨result, found⟩ := exists_charAt closed (ascii ':')
  obtain ⟨subcmd, string⟩ := exists_stringAt closed
  rcases result with _ | ⟨subcmd', actualArgs⟩
  · cases kind
    all_goals
      rw [RequestKind.dispatch, found, Option.bind_some]
      dsimp only
      rw [string]
      rfl
  · obtain ⟨rfl, -, plain⟩ := charAt_spec found
    obtain ⟨s, string'⟩ := exists_stringAt (mem_behind closed (by decide) plain)
    cases kind
    all_goals
      rw [RequestKind.dispatch, found, Option.bind_some]
      dsimp only
      split
    · rfl
    · rw [string']
      rfl
    · rfl
    · rfl

/-- A packet is dispatched just if it is closed. -/
theorem dispatchVpacket_isSome (kind : RequestKind) {tail : Bytes} :
    (dispatchVpacket (kind.header ++ tail)).isSome ↔ 0 ∈ tail := by
  rw [dispatchVpacket_header]
  constructor
  · intro dispatched
    by_contra endless
    by_cases semicolon : ascii ';' ∈ tail
    · obtain ⟨name, args, rfl, without⟩ := List.eq_append_cons_of_mem semicolon
      have endless' : 0 ∉ args := fun inArgs =>
        endless (List.mem_append_right _ (List.mem_cons_of_mem _ inArgs))
      have plain : 0 ∉ name := fun inName => endless (List.mem_append_left _ inName)
      rw [charAt_found without plain, Option.bind_some] at dispatched
      dsimp only at dispatched
      rw [stringAt_eq_none endless'] at dispatched
      cases dispatched
    · rw [charAt_none endless semicolon] at dispatched
      cases dispatched
  · intro closed
    obtain ⟨result, found⟩ := exists_charAt closed (ascii ';')
    rw [found, Option.bind_some]
    rcases result with _ | ⟨name, args⟩
    · exact dispatch_closed closed _ _
    · obtain ⟨rfl, -, plain⟩ := charAt_spec found
      obtain ⟨s, string⟩ := exists_stringAt (mem_behind closed (by decide) plain)
      dsimp only
      rw [string]
      exact dispatch_closed (List.mem_append_right _ List.mem_cons_self) _ _

theorem ite_some {α : Type*} {p : Prop} [Decidable p] {a b : α} {o : Option α}
    (same : (if p then some a else o) = some b) : b = a ∨ o = some b := by
  split at same
  · exact .inl (Option.some.inj same).symm
  · exact .inr same

theorem spectranextSubcommand_names {subcmd : Bytes} {sub : Subcommand}
    (named : spectranextSubcommand subcmd = some sub) :
    sub ∈ [.reboot, .autoboot, .status, .opendir, .readdir, .closedir, .mv, .mkdir, .rmdir] := by
  rw [spectranextSubcommand] at named
  simp only [List.mem_cons, List.not_mem_nil, or_false]
  refine (ite_some named).imp id fun named => ?_
  refine (ite_some named).imp id fun named => ?_
  refine (ite_some named).imp id fun named => ?_
  refine (ite_some named).imp id fun named => ?_
  refine (ite_some named).imp id fun named => ?_
  refine (ite_some named).imp id fun named => ?_
  refine (ite_some named).imp id fun named => ?_
  refine (ite_some named).imp id fun named => ?_
  exact (ite_some named).resolve_right fun nothing => absurd nothing.symm (Option.some_ne_none _)

theorem spectranextSubcommand_measures {subcmd : Bytes} {sub : Subcommand}
    (named : spectranextSubcommand subcmd = some sub) : ¬ sub.Measures := by
  have member := spectranextSubcommand_names named
  rintro (rfl | rfl | rfl | rfl)
  all_goals exact absurd member (by simp)

theorem of_eq_run {named : Option Subcommand} {args actualArgs : Bytes} {n : UInt32}
    {sub : Subcommand} {n' : Nat} (run : Dispatched.of named args n = .run sub actualArgs n') :
    named = some sub ∧ args = actualArgs ∧ n.toNat = n' := by
  cases named with
  | none => cases run
  | some sub' =>
    cases run
    exact ⟨rfl, rfl, rfl⟩

theorem stringAt_length {mem s : Bytes} (string : stringAt 0 mem = some s) :
    s.length < mem.length := by
  obtain ⟨-, after, rfl⟩ := stringAt_spec string
  rw [List.length_append, List.length_cons]
  omega

theorem ofNat_length {s : Bytes} (small : s.length < 0x10000) :
    (UInt32.ofNat s.length).toNat = s.length :=
  UInt32.toNat_ofNat_of_lt' (Nat.lt_trans small (by decide))

/-- What the dispatcher hands over is measured where that matters. -/
theorem dispatch_measured {kind : RequestKind} {name args s actualArgs : Bytes} {n : UInt32}
    {sub : Subcommand} {n' : Nat} (closed : 0 ∈ name) (smallName : name.length < 0x10000)
    (string : stringAt 0 args = some s) (small : s.length < 0x10000)
    (length : n.toNat = s.length)
    (run : kind.dispatch name args n = some (.run sub actualArgs n')) :
    ∃ s', Measured sub actualArgs n' s' := by
  obtain ⟨result, found⟩ := exists_charAt closed (ascii ':')
  rcases result with _ | ⟨subcmd, behindColon⟩
  · obtain ⟨subcmd, string'⟩ := exists_stringAt closed
    cases kind
    all_goals
      rw [RequestKind.dispatch, found, Option.bind_some] at run
      dsimp only at run
      rw [string', Option.map_some] at run
      obtain ⟨-, rfl, rfl⟩ := of_eq_run (Option.some.inj run)
      exact ⟨s, string, small, fun _ => length⟩
  · obtain ⟨rfl, -, plain⟩ := charAt_spec found
    obtain ⟨s', string'⟩ := exists_stringAt (mem_behind closed (by decide) plain)
    have small' : s'.length < 0x10000 := by
      have inName := stringAt_length string'
      rw [List.length_append, List.length_cons] at smallName
      omega
    cases kind with
    | vFile =>
      rw [RequestKind.dispatch, found, Option.bind_some] at run
      dsimp only at run
      split at run
      · cases run
      · rw [string', Option.map_some] at run
        obtain ⟨-, rfl, rfl⟩ := of_eq_run (Option.some.inj run)
        exact ⟨s', string', small', fun _ => ofNat_length small'⟩
    | vSpectranext =>
      rw [RequestKind.dispatch, found, Option.bind_some] at run
      dsimp only at run
      split at run
      · cases run
      · obtain ⟨named, rfl, rfl⟩ := of_eq_run (Option.some.inj run)
        exact ⟨s', string', small',
          fun measures => absurd measures (spectranextSubcommand_measures named)⟩

theorem dispatchVpacket_measured {kind : RequestKind} {tail args : Bytes} {sub : Subcommand}
    {n : Nat} (small : tail.length < 0x10000)
    (run : dispatchVpacket (kind.header ++ tail) = some (.run sub args n)) :
    ∃ s, Measured sub args n s := by
  have closed : 0 ∈ tail := (dispatchVpacket_isSome kind).mp (by rw [run]; rfl)
  rw [dispatchVpacket_header] at run
  obtain ⟨result, found⟩ := exists_charAt closed (ascii ';')
  rw [found, Option.bind_some] at run
  rcases result with _ | ⟨name, behind⟩
  · exact dispatch_measured closed small (s := []) rfl (by decide) rfl run
  · obtain ⟨rfl, -, plain⟩ := charAt_spec found
    obtain ⟨s, string⟩ := exists_stringAt (mem_behind closed (by decide) plain)
    have inTail := stringAt_length string
    rw [List.length_append, List.length_cons] at small
    dsimp only at run
    rw [string, Option.bind_some] at run
    refine dispatch_measured (List.mem_append_right _ List.mem_cons_self) ?_ string (by omega)
      (ofNat_length (by omega)) run
    rw [List.length_append, List.length_cons]
    exact small

/-- The same request with more memory behind its arguments. -/
inductive Longer : Dispatched → Dispatched → Prop
  | tooLong (error : Bytes) : Longer (.tooLong error) (.tooLong error)
  | unknown : Longer .unknown .unknown
  | run (sub : Subcommand) (args behind : Bytes) (n : Nat) :
      Longer (.run sub args n) (.run sub (args ++ behind) n)

theorem longer_of (named : Option Subcommand) (args behind : Bytes) (n : UInt32) :
    Longer (.of named args n) (.of named (args ++ behind) n) := by
  cases named with
  | none => exact .unknown
  | some sub => exact .run sub args behind n.toNat

theorem dispatch_append {kind : RequestKind} {name args : Bytes} {n : UInt32} {d : Dispatched}
    (dispatched : kind.dispatch name args n = some d) (behind behind' : Bytes) :
    ∃ d', kind.dispatch (name ++ behind) (args ++ behind') n = some d' ∧ Longer d d' := by
  have found : ∃ result, charAt 0 (ascii ':') name = some result := by
    rcases found : charAt 0 (ascii ':') name with _ | result
    · cases kind
      all_goals
        rw [RequestKind.dispatch, found] at dispatched
        cases dispatched
    · exact ⟨result, rfl⟩
  obtain ⟨result, found⟩ := found
  have found' := charAt_append found behind
  rcases result with _ | ⟨subcmd, actualArgs⟩
  · cases kind
    all_goals
      rw [RequestKind.dispatch, found, Option.bind_some] at dispatched
      obtain ⟨subcmd, string, rfl⟩ := Option.map_eq_some_iff.mp dispatched
      rw [RequestKind.dispatch, found']
      exact ⟨_, by rw [Option.map_none, Option.bind_some, stringAt_append string]; rfl,
        longer_of _ _ _ _⟩
  · cases kind with
    | vFile =>
      rw [RequestKind.dispatch, found, Option.bind_some] at dispatched
      rw [RequestKind.dispatch, found', Option.map_some, Option.bind_some]
      dsimp only at dispatched ⊢
      split at dispatched
      · next long =>
        cases dispatched
        rw [if_pos long]
        exact ⟨_, rfl, .tooLong _⟩
      · next short =>
        obtain ⟨s, string, rfl⟩ := Option.map_eq_some_iff.mp dispatched
        rw [if_neg short, stringAt_append string]
        exact ⟨_, rfl, longer_of _ _ _ _⟩
    | vSpectranext =>
      rw [RequestKind.dispatch, found, Option.bind_some] at dispatched
      rw [RequestKind.dispatch, found', Option.map_some, Option.bind_some]
      dsimp only at dispatched ⊢
      split at dispatched
      · next long =>
        cases dispatched
        rw [if_pos long]
        exact ⟨_, rfl, .tooLong _⟩
      · next short =>
        cases dispatched
        rw [if_neg short]
        exact ⟨_, rfl, longer_of _ _ _ _⟩

theorem dispatchVpacket_append {kind : RequestKind} {tail : Bytes} {d : Dispatched}
    (dispatched : dispatchVpacket (kind.header ++ tail) = some d) (behind : Bytes) :
    ∃ d', dispatchVpacket (kind.header ++ (tail ++ behind)) = some d' ∧ Longer d d' := by
  have closed : 0 ∈ tail := (dispatchVpacket_isSome kind).mp (by rw [dispatched]; rfl)
  rw [dispatchVpacket_header] at dispatched ⊢
  obtain ⟨result, found⟩ := exists_charAt closed (ascii ';')
  rw [found, Option.bind_some] at dispatched
  rw [charAt_append found behind]
  rcases result with _ | ⟨name, args⟩
  · exact dispatch_append dispatched behind []
  · obtain ⟨s, string, dispatched⟩ := Option.bind_eq_some_iff.mp dispatched
    rw [Option.map_some, Option.bind_some]
    dsimp only
    rw [stringAt_append string, Option.bind_some, ← List.cons_append, ← List.append_assoc]
    exact dispatch_append dispatched behind behind

/-! ## The law -/

theorem VRequest.tail_length (r : VRequest) : r.tail.length < 0x10000 := by
  have fits := r.fits
  rw [List.length_append, packetBufSize] at fits
  unfold VRequest.tail
  split
  · rw [List.length_append, List.length_singleton]
    omega
  · omega

/-- The state once the response has been sent. -/
def sent : Vfile σ × Option Bytes → Vfile σ
  | (v, some response) => v.log (.message response)
  | (v, none) => v

theorem processVpacket_eq {buf buf' payload : Bytes} {d : Dispatched}
    {answer : Vfile σ × Option Bytes} (dispatched : dispatchVpacket payload = some d)
    (run : runDispatched engine v buf d = some (answer, buf')) :
    (processVpacket engine v buf payload).map (·.1) = some (sent answer) := by
  obtain ⟨w, response⟩ := answer
  rw [processVpacket, dispatched, Option.bind_some, run]
  cases response <;> rfl

theorem processVpacket_none {buf payload : Bytes} {d : Dispatched}
    (dispatched : dispatchVpacket payload = some d)
    (fault : runDispatched engine v buf d = none) : processVpacket engine v buf payload = none := by
  rw [processVpacket, dispatched, Option.bind_some, fault]
  rfl

theorem Measured.append {sub : Subcommand} {args s : Bytes} {n : Nat}
    (measured : Measured sub args n s) (behind : Bytes) : Measured sub (args ++ behind) n s :=
  ⟨stringAt_append measured.string behind, measured.small, measured.length⟩

/-- A subcommand that meets its condition has one answer. -/
theorem runSubcommand_ok {sub : Subcommand} {args s : Bytes} {n : Nat}
    (measured : Measured sub args n s) (ok : sub.Ok engine v args n) :
    ∃ answer, ∀ behind buf, buf.length = responseBufSize →
      ∃ buf', runSubcommand engine v buf (args ++ behind) n sub = some (answer, buf') := by
  by_cases mv : sub = .mv
  · subst mv
    rcases mounts : (v.ensureMounted engine).2 with _ | _
    · refine ⟨replied (mvAnswer engine v none), fun behind buf _ => ⟨buf, ?_⟩⟩
      rw [runSubcommand, handleVspectranextMv_unmounted mounts]
      rfl
    · obtain ⟨paths, sliced⟩ :=
        Option.isSome_iff_exists.mp (mvArgs_isSome.mpr (ok.1 (ensureMounted_iff.mp mounts)))
      refine ⟨replied (mvAnswer engine v paths), fun behind buf _ => ⟨buf, ?_⟩⟩
      rw [runSubcommand, handleVspectranextMv_of (mvArgs_append sliced behind)]
      rfl
  · obtain ⟨answer, served⟩ := runSubcommand_of engine v mv s
    exact ⟨answer, fun behind buf whole => served _ n buf (measured.append behind) whole⟩

/-- A request that meets its condition has one answer. -/
theorem serve_ok {r : VRequest} (ok : RequestOk engine v r) :
    ∃ answer, ∀ behind buf, buf.length = responseBufSize →
      serve engine v buf r behind = some (sent answer) := by
  have closed : 0 ∈ r.tail :=
    (List.mem_append.mp ok.closed).resolve_left r.kind.header_plain
  obtain ⟨d, dispatched⟩ :=
    Option.isSome_iff_exists.mp ((dispatchVpacket_isSome r.kind).mpr closed)
  have answered : ∃ answer, ∀ d', Longer d d' → ∀ buf, buf.length = responseBufSize →
      ∃ buf', runDispatched engine v buf d' = some (answer, buf') := by
    rcases d with error | _ | ⟨sub, args, n⟩
    · refine ⟨replied (v, error), fun d' longer buf _ => ⟨buf, ?_⟩⟩
      cases longer
      rfl
    · refine ⟨replied (v, []), fun d' longer buf _ => ⟨buf, ?_⟩⟩
      cases longer
      rfl
    · obtain ⟨s, measured⟩ := dispatchVpacket_measured r.tail_length dispatched
      obtain ⟨answer, served⟩ :=
        runSubcommand_ok measured (ok.subcommand sub args n dispatched)
      refine ⟨answer, fun d' longer buf whole => ?_⟩
      cases longer with
      | run _ _ behind _ => exact served behind buf whole
  obtain ⟨answer, served⟩ := answered
  refine ⟨answer, fun behind buf whole => ?_⟩
  obtain ⟨d', dispatched', longer⟩ := dispatchVpacket_append dispatched behind
  obtain ⟨buf', run⟩ := served d' longer buf whole
  rw [serve, VRequest.memory, List.append_assoc]
  exact processVpacket_eq dispatched' run

/-- Without one of its arguments, a request that meets its condition is turned down. -/
theorem serve_missing {r : VRequest} (ok : RequestOk engine v r) (missing : r.Missing)
    {buf : Bytes} (whole : buf.length = responseBufSize) :
    ∃ response, IsError response ∧
      serve engine v buf r [] = some (v.log (.message response)) := by
  obtain ⟨sub, args, n, s, commas, dispatched, string, takes, missing⟩ := missing
  obtain ⟨s', measured⟩ := dispatchVpacket_measured r.tail_length dispatched
  cases measured.string.symm.trans string
  obtain ⟨response, buf', error, run⟩ :=
    runSubcommand_missing measured takes missing (ok.subcommand sub args n dispatched) whole
  refine ⟨response, error, ?_⟩
  rw [serve, List.append_nil]
  exact processVpacket_eq (d := .run sub args n) dispatched run

theorem emptyBuf : (List.replicate responseBufSize (0 : UInt8)).length = responseBufSize :=
  List.length_replicate

/-- A request depends on itself alone, and is turned down without its arguments, just if it
meets the condition. -/
theorem requests_iff (engine : XfsEngine σ) (v : Vfile σ) (r : VRequest) :
    RequestLaw engine v r ↔ RequestOk engine v r := by
  constructor
  · intro law
    have alone := law.alone _ emptyBuf
    rw [serve, List.append_nil, Option.isSome_map] at alone
    have closed : 0 ∈ r.tail := by
      rw [← dispatchVpacket_isSome r.kind]
      rcases dispatched : dispatchVpacket (r.kind.header ++ r.tail) with _ | d
      · rw [VRequest.memory, processVpacket, dispatched] at alone
        cases alone
      · rfl
    refine ⟨List.mem_append_right _ closed, fun sub args n dispatched => ?_⟩
    obtain ⟨s, measured⟩ := dispatchVpacket_measured r.tail_length dispatched
    by_contra notOk
    rcases runSubcommand_notOk measured notOk (List.replicate responseBufSize 0) with
      fault | ⟨⟨commas, takes, missing⟩, acts⟩
    · rw [processVpacket_none (d := .run sub args n) dispatched fault] at alone
      cases alone
    · rcases run : runSubcommand engine v (List.replicate responseBufSize 0) args n sub with
        _ | ⟨⟨w, response⟩, buf'⟩
      · rw [processVpacket_none (d := .run sub args n) dispatched run] at alone
        cases alone
      · obtain ⟨replies, longer⟩ := acts _ _ run
        obtain ⟨response, rfl⟩ := Option.isSome_iff_exists.mp replies
        obtain ⟨error, -, events⟩ := law.missing
          ⟨sub, args, n, s, commas, dispatched, measured.string, takes, missing⟩ _ [] emptyBuf
        rw [serve, List.append_nil, processVpacket_eq (d := .run sub args n) dispatched run]
          at events
        have lengths := congrArg List.length (Option.some.inj events)
        rw [sent, Vfile.log, List.length_append, List.length_append, List.length_singleton,
          List.length_singleton] at lengths
        dsimp only at longer
        omega
  · intro ok
    obtain ⟨answer, served⟩ := serve_ok ok
    refine ⟨fun buf whole => ?_, fun buf buf' behind behind' whole whole' => ?_,
      fun missing buf behind whole => ?_⟩
    · rw [served [] buf whole]
      rfl
    · rw [served behind buf whole, served behind' buf' whole']
    · obtain ⟨response, error, alone⟩ := serve_missing ok missing whole
      rw [served [] buf whole] at alone
      refine ⟨response, error, ?_⟩
      rw [served behind buf whole, Option.some.inj alone]
      rfl

/-! ## A comma that was sent before -/

/-- A file system whose calls all succeed. -/
def willing : XfsEngine Unit where
  call s _ := (s, {})
  stored _ _ := Int.le_refl 0
  errors _ _ := Int.le_of_lt (Int.negSucc_lt_zero 0x7FFF)

/-- `vSpectranext:mv:61`, a path and no comma. -/
def commaless : VRequest where
  kind := .vSpectranext
  rest := text "mv:61"
  fits := by decide

/-- The packet before it was longer and ended with `1,62` or with `1,63`: `a` is renamed to `b`
or to `c`. -/
theorem requests_comma : ¬ RequestLaw willing { fs := (), mounted := true } commaless := by
  intro law
  have same := law.same (List.replicate responseBufSize 0) (List.replicate responseBufSize 0)
    (text "1,62" ++ [0]) (text "1,63" ++ [0]) emptyBuf emptyBuf
  have first : ∀ buf, (serve willing { fs := (), mounted := true } buf commaless
      (text "1,62" ++ [0])).map Vfile.events =
      some [.call (.rename (text "a") (text "b")), .message (text "OK")] := fun _ => rfl
  have second : ∀ buf, (serve willing { fs := (), mounted := true } buf commaless
      (text "1,63" ++ [0])).map Vfile.events =
      some [.call (.rename (text "a") (text "c")), .message (text "OK")] := fun _ => rfl
  rw [first, second] at same
  exact absurd same (by decide)

end FuseX.Gdb
