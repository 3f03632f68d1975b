import FuseX.Gdb.Breakpoints
import Mathlib.Data.List.Count
import Mathlib.Data.List.Perm.Basic

/-!
# `Z` and `z`

What a `Z` adds, that one which fails leaves the list alone, and what the matching `z` takes away
again. A request is not a number: where the same request has been made before, `z` takes the
earlier breakpoint, which may have been changed since.
-/

namespace FuseX.Gdb

open Lib

variable {ε : Type} {b : BreakpointArgs}

/-! ## What is added -/

/-- The breakpoints for some targets, numbered from `id` on. -/
def newBreakpoints (b : BreakpointArgs) (id : Nat) :
    List (AccessType × UInt16) → List (Breakpoint ε)
  | [] => []
  | target :: targets =>
      { id := id, trigger := .absolute target.1 target.2, owner := some b } ::
        newBreakpoints b (id + 1) targets

theorem newBreakpoints_triggers (id : Nat) (targets : List (AccessType × UInt16)) :
    (newBreakpoints (ε := ε) b id targets).map (·.trigger) =
      targets.map fun target => .absolute target.1 target.2 := by
  induction targets generalizing id with
  | nil => rfl
  | cons target targets ih => rw [newBreakpoints, List.map_cons, List.map_cons, ih]

theorem newBreakpoints_owner {id : Nat} {targets : List (AccessType × UInt16)}
    {bp : Breakpoint ε} (present : bp ∈ newBreakpoints b id targets) : bp.owner = some b := by
  induction targets generalizing id with
  | nil => cases present
  | cons target targets ih =>
    rcases List.mem_cons.mp present with rfl | later
    · rfl
    · exact ih later

theorem newBreakpoints_ids (id : Nat) (targets : List (AccessType × UInt16)) :
    (newBreakpoints (ε := ε) b id targets).map (·.id) = List.range' id targets.length := by
  induction targets generalizing id with
  | nil => rfl
  | cons target targets ih =>
    rw [newBreakpoints, List.map_cons, ih, List.length_cons, List.range'_succ]

/-- One breakpoint is added and marked. -/
theorem added_eq (s : Debugger ε) (target : AccessType × UInt16) :
    ∃ mode, breakpointAdd (.absolute target.1 target.2) 0 .permanent none true s =
      ({ breakpoints := s.breakpoints ++
          [{ id := s.nextBreakpointId, trigger := .absolute target.1 target.2 }]
         mode := mode
         nextBreakpointId := s.nextBreakpointId + 1 }, false) := by
  unfold breakpointAdd
  rw [if_neg (fun failed => Bool.noConfusion failed.2)]
  exact ⟨_, rfl⟩

theorem ownLast_append (breakpoints : List (Breakpoint ε)) (bp : Breakpoint ε) :
    ownLast b (breakpoints ++ [bp]) = breakpoints ++ [{ bp with owner := some b }] := by
  unfold ownLast
  rw [List.length_append, List.length_singleton, Nat.add_sub_cancel]
  refine List.ext_getElem? fun i => ?_
  rw [List.getElem?_modify, List.getElem?_append, List.getElem?_append]
  split
  · next here =>
    subst here
    rw [if_neg (Nat.lt_irrefl _), if_neg (Nat.lt_irrefl _), Nat.sub_self]
    rfl
  · next elsewhere =>
    split
    · exact Option.map_id'
    · next beyond =>
      have far : 1 ≤ i - breakpoints.length := by omega
      rw [List.getElem?_eq_none far, List.getElem?_eq_none far]
      rfl

theorem Numbered.append {s : Debugger ε} (numbered : Numbered s) {mode : DebuggerMode}
    {bp : Breakpoint ε} (id : bp.id = s.nextBreakpointId)
    (room : s.nextBreakpointId + 1 ≤ 2 ^ 32) :
    Numbered (Debugger.mk (s.breakpoints ++ [bp]) mode (s.nextBreakpointId + 1)) := by
  refine ⟨?_, fun bp' present => ?_, room⟩
  · rw [List.map_append, List.map_singleton]
    refine List.nodup_append.mpr ⟨numbered.nodup, List.nodup_singleton _, ?_⟩
    intro i old j new same
    obtain ⟨bp', present, rfl⟩ := List.mem_map.mp old
    have below := numbered.below bp' present
    have last := List.mem_singleton.mp new
    omega
  · rcases List.mem_append.mp present with old | new
    · exact Nat.lt_succ_of_lt (numbered.below bp' old)
    · rw [List.mem_singleton.mp new, id]
      exact Nat.lt_succ_self _

/-- The number that is removed is the last breakpoint's. -/
theorem eraseP_last {breakpoints : List (Breakpoint ε)} {bp : Breakpoint ε} {id : Nat}
    (named : bp.id = id) (fresh : ∀ bp' ∈ breakpoints, bp'.id ≠ id) :
    (breakpoints ++ [bp]).eraseP (fun bp' => decide (bp'.id = id)) = breakpoints := by
  rw [List.eraseP_append_right _ fun bp' present => by simpa using fresh bp' present]
  have erased : [bp].eraseP (fun bp' => decide (bp'.id = id)) = [] :=
    List.eraseP_cons_of_pos (decide_eq_true named)
  rw [erased, List.append_nil]

/-- What the loops of `Z` leave. -/
structure SetSome (b : BreakpointArgs) (targets : List (AccessType × UInt16))
    (addedIds : List Nat) (s : Debugger ε) (done : Debugger ε × List Nat × Bool) (k : Nat) :
    Prop where
  atMost : k ≤ targets.length
  breakpoints : done.1.breakpoints =
    s.breakpoints ++ newBreakpoints b s.nextBreakpointId (targets.take k)
  ids : done.2.1 = (List.range' s.nextBreakpointId k).reverse ++ addedIds
  all : done.2.2 = false → k = targets.length
  numbered : Numbered done.1

theorem setEach_spec {memory : Nat → Bool} {targets : List (AccessType × UInt16)}
    {addedIds : List Nat} {s : Debugger ε} (numbered : Numbered s)
    (room : s.nextBreakpointId + targets.length ≤ 2 ^ 32) :
    ∃ k, SetSome b targets addedIds s (setEach b memory targets addedIds s) k := by
  induction targets generalizing addedIds s with
  | nil =>
    exact ⟨0, Nat.le_refl 0, (List.append_nil _).symm, rfl, fun _ => rfl, numbered⟩
  | cons target targets ih =>
    rw [List.length_cons] at room
    obtain ⟨mode, added⟩ := added_eq s target
    have next := @Numbered.append ε s numbered mode
      { id := s.nextBreakpointId, trigger := .absolute target.1 target.2, owner := some b }
      rfl (by omega)
    rw [setEach, added]
    dsimp only
    rw [if_neg Bool.false_ne_true, List.getLast?_concat]
    dsimp only
    rw [ownLast_append]
    split
    · obtain ⟨k, later⟩ := @ih (s.nextBreakpointId :: addedIds) _ next (by dsimp only; omega)
      refine ⟨k + 1, Nat.succ_le_succ later.atMost, ?_, ?_, fun ok => ?_, later.numbered⟩
      · rw [later.breakpoints, List.append_assoc]
        rfl
      · rw [later.ids, List.range'_succ, List.reverse_cons, List.append_assoc]
        rfl
      · rw [later.all ok, List.length_cons]
    · refine ⟨0, Nat.zero_le _, ?_, rfl, nofun, next.remove _⟩
      rw [breakpointRemove_eq next (by omega)]
      have fresh : ∀ bp ∈ s.breakpoints, bp.id ≠ s.nextBreakpointId :=
        fun bp present => Nat.ne_of_lt (numbered.below bp present)
      refine Eq.trans ?_ (List.append_nil s.breakpoints).symm
      exact eraseP_last rfl fresh

theorem newBreakpoints_concat (id : Nat) (targets : List (AccessType × UInt16))
    (target : AccessType × UInt16) :
    newBreakpoints (ε := ε) b id (targets ++ [target]) = newBreakpoints b id targets ++
      [{ id := id + targets.length, trigger := .absolute target.1 target.2, owner := some b }] := by
  induction targets generalizing id with
  | nil => rfl
  | cons head targets ih =>
    rw [List.cons_append, newBreakpoints, ih, newBreakpoints, List.cons_append, List.length_cons,
      Nat.add_assoc, Nat.add_comm 1]

/-- Taking back the numbers that were added, the last one first. -/
theorem rollBack_spec {s : Debugger ε} {breakpoints : List (Breakpoint ε)} {id : Nat}
    {targets : List (AccessType × UInt16)} (numbered : Numbered s)
    (shape : s.breakpoints = breakpoints ++ newBreakpoints b id targets) :
    ((List.range' id targets.length).reverse.foldl
      (fun s id => breakpointRemove id s) s).breakpoints = breakpoints := by
  induction targets using List.reverseRecOn generalizing s with
  | nil => exact shape.trans (List.append_nil breakpoints)
  | append_singleton targets target ih =>
    rw [newBreakpoints_concat, ← List.append_assoc] at shape
    rw [List.length_append, List.length_singleton, List.range'_1_concat, List.reverse_append,
      List.reverse_singleton, List.singleton_append, List.foldl_cons]
    refine ih (numbered.remove _) ?_
    have nodup := numbered.nodup
    have below := numbered.below
    have small := numbered.small
    rw [shape] at nodup below
    have last : id + targets.length < s.nextBreakpointId :=
      below _ (List.mem_append_right _ (List.mem_singleton_self _))
    rw [breakpointRemove_eq numbered (by omega), shape]
    refine eraseP_last rfl fun bp present same => ?_
    rw [List.map_append, List.map_singleton] at nodup
    have apart := (List.nodup_append.mp nodup).2.2
    exact apart _ (List.mem_map_of_mem present) _ (List.mem_singleton_self _) same

/-- What a `Z` leaves: all its breakpoints behind the list, or the list. -/
theorem actionSet_spec {memory : Nat → Bool} {s : Debugger ε} (numbered : Numbered s)
    (room : s.nextBreakpointId + b.targets.length ≤ 2 ^ 32) :
    Numbered (actionSetBreakpoint b memory s).1 ∧
      (((actionSetBreakpoint b memory s).2 = true ∧
        (actionSetBreakpoint b memory s).1.breakpoints =
          s.breakpoints ++ newBreakpoints b s.nextBreakpointId b.targets) ∨
      ((actionSetBreakpoint b memory s).2 = false ∧
        (actionSetBreakpoint b memory s).1.breakpoints = s.breakpoints)) := by
  unfold actionSetBreakpoint
  split
  · exact ⟨numbered, .inr ⟨rfl, rfl⟩⟩
  obtain ⟨k, some_⟩ := @setEach_spec ε b memory b.targets [] s numbered room
  rcases whole : setEach b memory b.targets [] s with ⟨s', addedIds, failed⟩
  rw [whole] at some_
  dsimp only
  cases failed with
  | false =>
    refine ⟨some_.numbered, .inl ⟨rfl, ?_⟩⟩
    have shape := some_.breakpoints
    rw [some_.all rfl, List.take_length] at shape
    exact shape
  | true =>
    have ids := some_.ids
    have shape := some_.breakpoints
    dsimp only at ids shape
    rw [List.append_nil] at ids
    have count : k = (b.targets.take k).length := by
      rw [List.length_take]
      exact (Nat.min_eq_left some_.atMost).symm
    have kept : ∀ (ids : List Nat) (t : Debugger ε), Numbered t →
        Numbered (ids.foldl (fun s id => breakpointRemove id s) t) := by
      intro ids
      induction ids with
      | nil => exact fun t numbered => numbered
      | cons id ids ih => exact fun t numbered => ih _ (numbered.remove id)
    unfold releaseAddedBreakpoints
    rw [if_pos rfl, ids]
    refine ⟨kept _ _ some_.numbered, .inr ⟨rfl, ?_⟩⟩
    have back := rollBack_spec some_.numbered shape
    rw [← count] at back
    exact back

/-! ## What is taken away -/

theorem removeTarget_breakpoints {s : Debugger ε} (numbered : Numbered s)
    (target : AccessType × UInt16) : (removeTarget b s target).1.breakpoints =
      s.breakpoints.eraseP (isTarget b target) := by
  unfold removeTarget
  split
  · next absent =>
    rw [List.eraseP_of_forall_not]
    intro bp present found
    exact List.find?_eq_none.mp absent bp present found
  · next bp found =>
    have below := numbered.below bp (List.mem_of_find?_eq_some found)
    have small := numbered.small
    rw [breakpointRemove_eq numbered (by omega)]
    exact eraseP_find numbered.nodup found

theorem removeTarget_numbered {s : Debugger ε} (numbered : Numbered s)
    (target : AccessType × UInt16) : Numbered (removeTarget b s target).1 := by
  unfold removeTarget
  split
  · exact numbered
  · exact numbered.remove _

/-- The list without the first of each target. -/
def eraseTargets (b : BreakpointArgs) (targets : List (AccessType × UInt16))
    (l : List (Breakpoint ε)) : List (Breakpoint ε) :=
  targets.foldl (fun l target => l.eraseP (isTarget b target)) l

theorem removeEach_spec {targets : List (AccessType × UInt16)} {done : Debugger ε × Bool}
    (numbered : Numbered done.1) :
    Numbered (targets.foldl (fun done target =>
      ((removeTarget b done.1 target).1, done.2 || (removeTarget b done.1 target).2)) done).1 ∧
    (targets.foldl (fun done target =>
      ((removeTarget b done.1 target).1, done.2 || (removeTarget b done.1 target).2))
        done).1.breakpoints = eraseTargets b targets done.1.breakpoints := by
  induction targets generalizing done with
  | nil => exact ⟨numbered, rfl⟩
  | cons target targets ih =>
    rw [List.foldl_cons]
    obtain ⟨kept, erased⟩ :=
      @ih ((removeTarget b done.1 target).1, done.2 || (removeTarget b done.1 target).2)
        (removeTarget_numbered numbered target)
    refine ⟨kept, erased.trans ?_⟩
    unfold eraseTargets
    rw [List.foldl_cons, ← removeTarget_breakpoints numbered]

/-- What a `z` leaves. -/
theorem actionRemove_spec {s : Debugger ε} (numbered : Numbered s) :
    Numbered (actionRemoveBreakpoint b s).1 ∧
      ((actionRemoveBreakpoint b s).1.breakpoints = s.breakpoints ∨
        (actionRemoveBreakpoint b s).1.breakpoints = eraseTargets b b.targets s.breakpoints) := by
  unfold actionRemoveBreakpoint
  split
  · exact ⟨numbered, .inl rfl⟩
  · obtain ⟨kept, erased⟩ := @removeEach_spec ε b b.targets (s, false) numbered
    exact ⟨kept, .inr erased⟩

/-- Breakpoints of others stay. -/
theorem eraseTargets_others (targets : List (AccessType × UInt16)) (l : List (Breakpoint ε)) :
    (eraseTargets b targets l).filter (fun bp => decide (bp.owner ≠ some b)) =
      l.filter fun bp => decide (bp.owner ≠ some b) := by
  have one : ∀ (target : AccessType × UInt16) (l : List (Breakpoint ε)),
      (l.eraseP (isTarget b target)).filter (fun bp => decide (bp.owner ≠ some b)) =
        l.filter fun bp => decide (bp.owner ≠ some b) := by
    intro target l
    induction l with
    | nil => rfl
    | cons bp l ih =>
      by_cases erased : isTarget b target bp = true
      · rw [List.eraseP_cons_of_pos erased]
        have owned : bp.owner = some b := (of_decide_eq_true erased).1
        exact (List.filter_cons_of_neg (by simp [owned])).symm
      · rw [List.eraseP_cons_of_neg erased, List.filter_cons, List.filter_cons, ih]
  unfold eraseTargets
  induction targets generalizing l with
  | nil => rfl
  | cons target targets ih => rw [List.foldl_cons, ih, one]

/-- Of the request's own breakpoints none is left. -/
theorem eraseTargets_new (id : Nat) (targets : List (AccessType × UInt16))
    {l : List (Breakpoint ε)} (others : ∀ bp ∈ l, bp.owner ≠ some b) :
    eraseTargets b targets (l ++ newBreakpoints b id targets) = l := by
  unfold eraseTargets
  induction targets generalizing id with
  | nil => exact List.append_nil l
  | cons target targets ih =>
    have notInFront : ∀ bp ∈ l, ¬ isTarget b target bp = true := by
      intro bp present found
      exact others bp present (of_decide_eq_true found).1
    have first : isTarget (ε := ε) b target
        { id := id, trigger := .absolute target.1 target.2, owner := some b } = true :=
      decide_eq_true ⟨rfl, rfl⟩
    rw [List.foldl_cons, newBreakpoints, List.eraseP_append_right _ notInFront,
      List.eraseP_cons_of_pos first]
    exact ih (id + 1)

/-- What a breakpoint is for. -/
def Breakpoint.purpose (bp : Breakpoint ε) : Trigger × Option BreakpointArgs :=
  (bp.trigger, bp.owner)

theorem eraseTargets_purpose (targets : List (AccessType × UInt16)) (l : List (Breakpoint ε)) :
    (eraseTargets b targets l).map (·.purpose) =
      (targets.map fun target => (Trigger.absolute target.1 target.2, some b)).foldl List.erase
        (l.map (·.purpose)) := by
  unfold eraseTargets
  induction targets generalizing l with
  | nil => rfl
  | cons target targets ih =>
    rw [List.foldl_cons, ih, List.map_cons, List.foldl_cons, List.erase_eq_eraseP, List.eraseP_map]
    congr 2
    refine eraseP_congr fun bp _ => ?_
    have same : isTarget b target bp = true ↔
        (Trigger.absolute target.1 target.2, some b) = bp.purpose := by
      unfold isTarget Breakpoint.purpose
      rw [decide_eq_true_iff, Prod.mk.injEq, eq_comm (a := bp.owner), eq_comm (a := bp.trigger)]
      exact and_comm
    exact Bool.eq_iff_iff.mpr (same.trans beq_iff_eq.symm)

theorem count_foldl_erase {α : Type} [BEq α] [LawfulBEq α] (a : α) (erased l : List α) :
    (erased.foldl List.erase l).count a = l.count a - erased.count a := by
  induction erased generalizing l with
  | nil => rfl
  | cons head erased ih =>
    rw [List.foldl_cons, ih, List.count_erase, List.count_cons]
    split <;> omega

/-- A list with some elements behind it, from which these are erased. -/
theorem foldl_erase_perm {α : Type} [BEq α] [LawfulBEq α] (l erased : List α) :
    (erased.foldl List.erase (l ++ erased)).Perm l := by
  refine List.perm_iff_count.mpr fun a => ?_
  rw [count_foldl_erase, List.count_append, Nat.add_sub_cancel]

/-! ## The addresses of a request -/

theorem valid_span (valid : b.valid = true) : b.maddr + b.span ≤ 0x10000 := by
  unfold BreakpointArgs.valid at valid
  unfold BreakpointArgs.span
  split at valid
  · cases valid
  split at valid
  next code =>
    rw [if_pos code]
    omega
  next data =>
    rw [if_neg data]
    split at valid
    · cases valid
    split at valid
    · cases valid
    · omega

theorem fuseTypes_nodup (type : Nat) : (rspBreakpointFuseTypes type).Nodup := by
  unfold rspBreakpointFuseTypes
  split <;> decide

theorem mem_targets (valid : b.valid = true) {type : AccessType} {address : UInt16} :
    (type, address) ∈ b.targets ↔ type ∈ rspBreakpointFuseTypes b.type ∧
      b.maddr ≤ address.toNat ∧ address.toNat < b.maddr + b.span := by
  have bound := valid_span valid
  have width := address.toNat_lt
  unfold BreakpointArgs.targets
  simp only [List.mem_flatMap, List.mem_map, List.mem_range, Prod.mk.injEq]
  constructor
  · rintro ⟨type', present, off, inside, rfl, rfl⟩
    rw [UInt16.toNat_ofNat', Nat.mod_eq_of_lt (show b.maddr + off < 2 ^ 16 by omega)]
    exact ⟨present, Nat.le_add_right _ _, Nat.add_lt_add_left inside _⟩
  · rintro ⟨present, low, high⟩
    refine ⟨type, present, address.toNat - b.maddr, by omega, rfl, ?_⟩
    rw [Nat.add_sub_cancel' low, UInt16.ofNat_toNat]

theorem targets_nodup (valid : b.valid = true) : b.targets.Nodup := by
  have bound := valid_span valid
  unfold BreakpointArgs.targets
  refine List.nodup_flatMap.mpr ⟨fun type _ => ?_, ?_⟩
  · refine (List.nodup_map_iff_inj_on List.nodup_range).mpr fun off inside off' inside' same => ?_
    have addresses := congrArg (fun target : AccessType × UInt16 => target.2.toNat) same
    dsimp only at addresses
    rw [List.mem_range] at inside inside'
    rw [UInt16.toNat_ofNat', UInt16.toNat_ofNat',
      Nat.mod_eq_of_lt (show b.maddr + off < 2 ^ 16 by omega),
      Nat.mod_eq_of_lt (show b.maddr + off' < 2 ^ 16 by omega)] at addresses
    omega
  · refine (fuseTypes_nodup b.type).imp fun differ => ?_
    intro target first second
    obtain ⟨off, -, rfl⟩ := List.mem_map.mp first
    obtain ⟨off', -, same⟩ := List.mem_map.mp second
    exact differ (congrArg Prod.fst same).symm

/-- Each address of the span has one target of each type, and no other address has one. -/
theorem targets_count (valid : b.valid = true) (type : AccessType) (address : UInt16) :
    b.targets.count (type, address) =
      if type ∈ rspBreakpointFuseTypes b.type ∧ b.maddr ≤ address.toNat ∧
        address.toNat < b.maddr + b.span then 1 else 0 := by
  rw [(targets_nodup valid).count]
  exact if_congr (mem_targets valid) rfl rfl

/-! ## The law of the requests -/

structure BreakpointLaw (s : Debugger ε) (b : BreakpointArgs) (memory : Nat → Bool) : Prop where
  /-- A `Z` that succeeds adds one for each type and address of the request. -/
  adds : (actionSetBreakpoint b memory s).2 = true → ∃ news,
    (actionSetBreakpoint b memory s).1.breakpoints = s.breakpoints ++ news ∧
    (∀ bp ∈ news, bp.owner = some b ∧ ∃ type address, bp.trigger = .absolute type address) ∧
    ∀ type address, news.countP (fun bp => decide (bp.trigger = .absolute type address)) =
      if type ∈ rspBreakpointFuseTypes b.type ∧ b.maddr ≤ address.toNat ∧
        address.toNat < b.maddr + b.span then 1 else 0
  fails : (actionSetBreakpoint b memory s).2 = false →
    (actionSetBreakpoint b memory s).1.breakpoints = s.breakpoints
  /-- The `z` behind it leaves breakpoints for the same, and those of others as they were. -/
  restores : (actionSetBreakpoint b memory s).2 = true →
    (((actionRemoveBreakpoint b (actionSetBreakpoint b memory s).1).1.breakpoints.map
      (·.purpose)).Perm (s.breakpoints.map (·.purpose))) ∧
    (actionRemoveBreakpoint b (actionSetBreakpoint b memory s).1).1.breakpoints.filter
      (fun bp => decide (bp.owner ≠ some b)) =
        s.breakpoints.filter (fun bp => decide (bp.owner ≠ some b))
  /-- It leaves the list itself if the request had not been made before. -/
  returns : (actionSetBreakpoint b memory s).2 = true → (∀ bp ∈ s.breakpoints, bp.owner ≠ some b) →
    (actionRemoveBreakpoint b (actionSetBreakpoint b memory s).1).1.breakpoints = s.breakpoints
  /-- A `z` removes breakpoints of its request only. -/
  keeps : (actionRemoveBreakpoint b s).1.breakpoints.filter
      (fun bp => decide (bp.owner ≠ some b)) =
    s.breakpoints.filter (fun bp => decide (bp.owner ≠ some b))

theorem actionSet_valid {memory : Nat → Bool} {s : Debugger ε}
    (ok : (actionSetBreakpoint b memory s).2 = true) :
    rspBreakpointFuseTypes b.type ≠ [] ∧ b.valid = true := by
  unfold actionSetBreakpoint at ok
  split at ok
  · cases ok
  next asked =>
    obtain ⟨types, valid⟩ := not_or.mp asked
    exact ⟨types, by simpa using valid⟩

/-- What a valid `z` erases. -/
theorem actionRemove_valid {s : Debugger ε} (numbered : Numbered s)
    (asked : rspBreakpointFuseTypes b.type ≠ [] ∧ b.valid = true) :
    (actionRemoveBreakpoint b s).1.breakpoints = eraseTargets b b.targets s.breakpoints := by
  unfold actionRemoveBreakpoint
  rw [if_neg (not_or.mpr ⟨asked.1, by simp [asked.2]⟩)]
  exact (@removeEach_spec ε b b.targets (s, false) numbered).2

theorem newBreakpoints_count (id : Nat) (targets : List (AccessType × UInt16))
    (type : AccessType) (address : UInt16) :
    (newBreakpoints (ε := ε) b id targets).countP
        (fun bp => decide (bp.trigger = .absolute type address)) =
      targets.count (type, address) := by
  induction targets generalizing id with
  | nil => rfl
  | cons target targets ih =>
    have same : (Trigger.absolute target.1 target.2 = .absolute type address) ↔
        target = (type, address) := by
      rw [Trigger.absolute.injEq]
      exact (Prod.ext_iff (x := target) (y := (type, address))).symm
    rw [newBreakpoints, List.countP_cons, List.count_cons, ih]
    simp only [decide_eq_true_eq, same, beq_iff_eq]

theorem newBreakpoints_absolute {id : Nat} {targets : List (AccessType × UInt16)}
    {bp : Breakpoint ε} (present : bp ∈ newBreakpoints b id targets) :
    ∃ type address, bp.trigger = .absolute type address := by
  have trigger := List.mem_map_of_mem (f := (·.trigger)) present
  rw [newBreakpoints_triggers] at trigger
  obtain ⟨target, -, same⟩ := List.mem_map.mp trigger
  exact ⟨target.1, target.2, same.symm⟩

theorem newBreakpoints_purpose (id : Nat) (targets : List (AccessType × UInt16)) :
    (newBreakpoints (ε := ε) b id targets).map (·.purpose) =
      targets.map fun target => (.absolute target.1 target.2, some b) := by
  induction targets generalizing id with
  | nil => rfl
  | cons target targets ih => rw [newBreakpoints, List.map_cons, List.map_cons, ih]; rfl

theorem newBreakpoints_others (id : Nat) (targets : List (AccessType × UInt16)) :
    (newBreakpoints (ε := ε) b id targets).filter (fun bp => decide (bp.owner ≠ some b)) = [] := by
  refine List.filter_eq_nil_iff.mpr fun bp present other => ?_
  exact of_decide_eq_true other (newBreakpoints_owner present)

theorem breakpointLaw {s : Debugger ε} (numbered : Numbered s) (memory : Nat → Bool)
    (room : s.nextBreakpointId + b.targets.length ≤ 2 ^ 32) : BreakpointLaw s b memory := by
  obtain ⟨kept, outcome⟩ := @actionSet_spec ε b memory s numbered room
  have added : (actionSetBreakpoint b memory s).2 = true →
      (actionSetBreakpoint b memory s).1.breakpoints =
        s.breakpoints ++ newBreakpoints b s.nextBreakpointId b.targets := by
    intro ok
    rcases outcome with ⟨-, added⟩ | ⟨failed, -⟩
    · exact added
    · exact absurd (failed.symm.trans ok) Bool.false_ne_true
  have taken : ∀ ok : (actionSetBreakpoint b memory s).2 = true,
      (actionRemoveBreakpoint b (actionSetBreakpoint b memory s).1).1.breakpoints =
        eraseTargets b b.targets
          (s.breakpoints ++ newBreakpoints b s.nextBreakpointId b.targets) := by
    intro ok
    rw [actionRemove_valid kept (actionSet_valid ok), added ok]
  constructor
  · intro ok
    refine ⟨_, added ok, fun bp present => ⟨newBreakpoints_owner present,
      newBreakpoints_absolute present⟩, fun type address => ?_⟩
    rw [newBreakpoints_count, targets_count (actionSet_valid ok).2]
  · intro failed
    rcases outcome with ⟨ok, -⟩ | ⟨-, same⟩
    · exact absurd (failed.symm.trans ok) Bool.false_ne_true
    · exact same
  · intro ok
    rw [taken ok, eraseTargets_purpose, eraseTargets_others, List.map_append,
      newBreakpoints_purpose, List.filter_append, newBreakpoints_others, List.append_nil]
    exact ⟨foldl_erase_perm _ _, rfl⟩
  · intro ok others
    rw [taken ok]
    exact eraseTargets_new _ _ others
  · obtain ⟨-, same | erased⟩ := @actionRemove_spec ε b s numbered
    · rw [same]
    · rw [erased]
      exact eraseTargets_others _ _

/-! ## Runs of the debugger -/

/-- A change that leaves a breakpoint its number and its owner. -/
structure BreakpointChange (ε : Type) where
  apply : Breakpoint ε → Breakpoint ε
  id : ∀ bp, (apply bp).id = bp.id
  owner : ∀ bp, (apply bp).owner = bp.owner

/-- What happens to the list. A user's commands and breakpoints that are hit clear and change some
of it. -/
inductive DebuggerAct (ε : Type)
  | add (trigger : Trigger) (ignore : Nat) (life : BreakpointLife) (condition : Option ε)
    (copied : Bool)
  | remove (id : Nat)
  | clear (gone : Breakpoint ε → Bool)
  | change (change : BreakpointChange ε)
  | removeAll
  | set (b : BreakpointArgs) (memory : Nat → Bool)
  | unset (b : BreakpointArgs)

def debuggerStep (s : Debugger ε) : DebuggerAct ε → Option (Debugger ε)
  | .add trigger ignore life condition copied =>
      some (breakpointAdd trigger ignore life condition copied s).1
  | .remove id => some (breakpointRemove id s)
  | .clear gone => some { s with breakpoints := s.breakpoints.filter fun bp => !gone bp }.settle
  | .change change => some { s with breakpoints := s.breakpoints.map change.apply }
  | .removeAll => some { { s with breakpoints := [] }.settle with nextBreakpointId := 1 }
  | .set b memory => some (actionSetBreakpoint b memory s).1
  | .unset b => some (actionRemoveBreakpoint b s).1

/-- The numbers are below `2 ^ 32`. -/
def FewNumbers (s : Debugger ε) : DebuggerAct ε → Prop
  | .add .. => s.nextBreakpointId + 1 ≤ 2 ^ 32
  | .set b _ => s.nextBreakpointId + b.targets.length ≤ 2 ^ 32
  | _ => True

theorem numbered_empty : Numbered ({} : Debugger ε) :=
  ⟨List.nodup_nil, fun _ member => absurd member List.not_mem_nil, show 1 ≤ 2 ^ 32 by decide⟩


theorem step_numbered {s t : Debugger ε} {act : DebuggerAct ε} (numbered : Numbered s)
    (few : FewNumbers s act) (stepEq : debuggerStep s act = some t) : Numbered t := by
  cases act with
  | add trigger ignore life condition copied =>
    obtain rfl := Option.some.inj stepEq
    unfold breakpointAdd
    dsimp only
    split
    · exact ⟨numbered.nodup, fun bp present => Nat.lt_succ_of_lt (numbered.below bp present), few⟩
    · exact numbered.append rfl few
  | remove id =>
    obtain rfl := Option.some.inj stepEq
    exact numbered.remove id
  | clear gone =>
    obtain rfl := Option.some.inj stepEq
    exact ⟨numbered.nodup.sublist (List.filter_sublist.map _),
      fun bp present => numbered.below bp (List.mem_of_mem_filter present), numbered.small⟩
  | change change =>
    obtain rfl := Option.some.inj stepEq
    have ids : (s.breakpoints.map change.apply).map (·.id) = s.breakpoints.map (·.id) := by
      rw [List.map_map]
      exact List.map_congr_left fun bp _ => change.id bp
    refine ⟨ids ▸ numbered.nodup, fun bp present => ?_, numbered.small⟩
    obtain ⟨bp', present', rfl⟩ := List.mem_map.mp present
    rw [change.id]
    exact numbered.below bp' present'
  | removeAll =>
    obtain rfl := Option.some.inj stepEq
    exact ⟨List.nodup_nil, fun _ member => absurd member List.not_mem_nil, show 1 ≤ 2 ^ 32 by decide⟩
  | set b memory =>
    obtain rfl := Option.some.inj stepEq
    exact (actionSet_spec numbered few).1
  | unset b =>
    obtain rfl := Option.some.inj stepEq
    exact (actionRemove_spec numbered).1

/-- In every run, what `Z` and `z` do to the list. -/
theorem breakpoint_requests {acts : List (DebuggerAct ε)} {s : Debugger ε}
    (run : Runs debuggerStep FewNumbers {} acts s) {memory : Nat → Bool}
    (few : FewNumbers s (.set b memory)) : BreakpointLaw s b memory := by
  refine breakpointLaw ?_ memory few
  refine run.invariant numbered_empty fun s act t numbered few stepEq => ?_
  exact step_numbered numbered few stepEq

/-- A watchpoint of one byte for reading and writing. -/
def accessAt (maddr : Nat) : BreakpointArgs := { maddr := maddr, mlen := 1, type := 4 }

def executeAt (maddr : Nat) : BreakpointArgs := { maddr := maddr, mlen := 1, type := 0 }

/-- A list with a breakpoint of the server that is to be ignored some times. -/
def ignoring : Debugger Unit :=
  { breakpoints :=
      [⟨1, .absolute .execute 0x8000, 5, .permanent, none, some (executeAt 0x8000), none⟩]
    mode := .active
    nextBreakpointId := 2 }

theorem breakpoint_requests_access :
    BreakpointLaw (ε := Unit) {} (accessAt 0x4000) fun _ => true :=
  breakpoint_requests .nil (show 1 + 2 ≤ 2 ^ 32 by decide)

/-- An access watchpoint makes two breakpoints for its address; and where a request is made a
second time, what is taken away again is the earlier breakpoint, which may have been changed. -/
theorem request_twice :
    ((actionSetBreakpoint (ε := Unit) (accessAt 0x4000) (fun _ => true) {}).1.breakpoints.map
        (·.trigger)) = [.absolute .write 0x4000, .absolute .read 0x4000] ∧
      Runs debuggerStep FewNumbers {}
        ([] ++ [.set (executeAt 0x8000) fun _ => true] ++
          [.change ⟨fun bp => { bp with ignore := 5 }, fun _ => rfl, fun _ => rfl⟩]) ignoring ∧
      ¬ ((actionRemoveBreakpoint (executeAt 0x8000)
        (actionSetBreakpoint (executeAt 0x8000) (fun _ => true)
          ignoring).1).1.breakpoints.map (·.ignore)).Perm
        (ignoring.breakpoints.map (·.ignore)) := by
  refine ⟨by decide, .snoc (.snoc .nil (show 1 + 1 ≤ 2 ^ 32 by decide) rfl) True.intro rfl, ?_⟩
  decide

end FuseX.Gdb
