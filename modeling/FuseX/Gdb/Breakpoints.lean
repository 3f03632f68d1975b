import FuseX.Gdb.Handoff
import Mathlib.Algebra.Ring.Nat
import Mathlib.Data.List.Nodup
import Mathlib.Data.List.Range

/-!
# Breakpoints that a debugger sets

The debugger's list of breakpoints, and the packets `Z` and `z` by which a remote debugger adds to
it and removes from it. A request is for one or two types of access at a span of addresses, and
`Z` makes a breakpoint for each; what it has made is marked with the request, and `z` looks for
that mark. The events of timed breakpoints are left out.
-/

namespace FuseX.Gdb

open Lib

/-! ## The list -/

inductive AccessType
  | execute
  | read
  | write
  deriving DecidableEq

/-- The type and the value of a breakpoint. An absolute address has `memory_source_any`. -/
inductive Trigger
  | absolute (type : AccessType) (address : UInt16)
  | paged (type : AccessType) (source page : Int) (offset : UInt16)
  | port (write : Bool) (port mask : UInt16)
  | time (tstates initialTstates : UInt32) (triggered : Bool)
  | event (type detail : String)
  deriving DecidableEq

inductive BreakpointLife
  | permanent
  | oneShot
  deriving DecidableEq

/-- `struct action_breakpoint_args_t` -/
structure BreakpointArgs where
  maddr : Nat
  mlen : Nat
  type : Nat
  deriving DecidableEq

/-- `debugger_breakpoint`. The owner is the request of the server that has set it. -/
structure Breakpoint (ε : Type) where
  id : Nat
  trigger : Trigger
  ignore : Nat := 0
  life : BreakpointLife := .permanent
  condition : Option ε := none
  owner : Option BreakpointArgs := none
  commands : Option String := none

structure Debugger (ε : Type) where
  breakpoints : List (Breakpoint ε) := []
  mode : DebuggerMode := .inactive
  nextBreakpointId : Nat := 1

variable {ε : Type}

/-- `breakpoint_add`, and whether it fails: the condition is copied, which may fail. -/
def breakpointAdd (trigger : Trigger) (ignore : Nat) (life : BreakpointLife)
    (condition : Option ε) (copied : Bool) (s : Debugger ε) : Debugger ε × Bool :=
  let id := s.nextBreakpointId
  let s := { s with nextBreakpointId := s.nextBreakpointId + 1 }
  if condition.isSome ∧ copied = false then (s, true)
  else
    ({ s with
        breakpoints := s.breakpoints ++
          [{ id := id, trigger := trigger, ignore := ignore, life := life,
             condition := condition }]
        mode := if s.mode = .inactive then .active else s.mode }, false)

/-- `find_breakpoint_by_id`: the difference of the ids is returned as an `int`. -/
def findBreakpointById (id : Nat) (bp : Breakpoint ε) : Bool := bp.id % 2 ^ 32 = id % 2 ^ 32

/-- Without the last breakpoint the debugger is not active. -/
def Debugger.settle (s : Debugger ε) : Debugger ε :=
  { s with mode := if s.mode = .active ∧ s.breakpoints.isEmpty then .inactive else s.mode }

/-- `debugger_breakpoint_remove` -/
def breakpointRemove (id : Nat) (s : Debugger ε) : Debugger ε :=
  match s.breakpoints.find? (findBreakpointById id) with
  | none => s
  | some _ => { s with breakpoints := s.breakpoints.eraseP (findBreakpointById id) }.settle

/-! ## Requests -/

/-- `rsp_breakpoint_fuse_types` -/
def rspBreakpointFuseTypes : Nat → List AccessType
  | 0 => [.execute]
  | 1 => [.execute]
  | 2 => [.write]
  | 3 => [.read]
  | 4 => [.write, .read]
  | _ => []

namespace BreakpointArgs

/-- `rsp_breakpoint_span` -/
def span (b : BreakpointArgs) : Nat := if b.type = 0 ∨ b.type = 1 then 1 else b.mlen

/-- `rsp_breakpoint_request_valid` -/
def valid (b : BreakpointArgs) : Bool :=
  if 0xFFFF < b.maddr then false
  else if b.type = 0 ∨ b.type = 1 then true
  else if b.type < 2 ∨ 4 < b.type ∨ b.mlen = 0 then false
  else if 0xFFFF - b.maddr < b.mlen - 1 then false
  else true

/-- The types and addresses that the loops of both actions go through. -/
def targets (b : BreakpointArgs) : List (AccessType × UInt16) :=
  (rspBreakpointFuseTypes b.type).flatMap fun type =>
    (List.range b.span).map fun off => (type, UInt16.ofNat (b.maddr + off))

end BreakpointArgs

/-- The breakpoint that was added last is marked with the request. -/
def ownLast (b : BreakpointArgs) (breakpoints : List (Breakpoint ε)) : List (Breakpoint ε) :=
  breakpoints.modify (breakpoints.length - 1) fun bp => { bp with owner := some b }

/-- The loops of `action_set_breakpoint`: the ids it has added, the last one first, and whether it
failed. The memory for the list of ids may run out. -/
def setEach (b : BreakpointArgs) (memory : Nat → Bool) :
    List (AccessType × UInt16) → List Nat → Debugger ε → Debugger ε × List Nat × Bool
  | [], addedIds, s => (s, addedIds, false)
  | target :: targets, addedIds, s =>
      let (s, failed) := breakpointAdd (.absolute target.1 target.2) 0 .permanent none true s
      if failed then (s, addedIds, true)
      else
        match s.breakpoints.getLast? with
        | none => (s, addedIds, true)
        | some bp =>
            let s := { s with breakpoints := ownLast b s.breakpoints }
            if memory addedIds.length then setEach b memory targets (bp.id :: addedIds) s
            else (breakpointRemove bp.id s, addedIds, true)

/-- `release_added_breakpoints` -/
def releaseAddedBreakpoints (rollBack : Bool) (addedIds : List Nat) (s : Debugger ε) :
    Debugger ε :=
  if rollBack then addedIds.foldl (fun s id => breakpointRemove id s) s else s

/-- `action_set_breakpoint`, and whether it answers `OK`. -/
def actionSetBreakpoint (b : BreakpointArgs) (memory : Nat → Bool) (s : Debugger ε) :
    Debugger ε × Bool :=
  if rspBreakpointFuseTypes b.type = [] ∨ b.valid = false then (s, false)
  else
    let (s, addedIds, failed) := setEach b memory b.targets [] s
    (releaseAddedBreakpoints failed addedIds s, !failed)

/-- What `action_remove_breakpoint` looks for. -/
def isTarget (b : BreakpointArgs) (target : AccessType × UInt16) (bp : Breakpoint ε) : Bool :=
  bp.owner = some b ∧ bp.trigger = .absolute target.1 target.2

/-- The turn of its loops for a type and an address, and whether one was removed. -/
def removeTarget (b : BreakpointArgs) (s : Debugger ε) (target : AccessType × UInt16) :
    Debugger ε × Bool :=
  match s.breakpoints.find? (isTarget b target) with
  | none => (s, false)
  | some bp => (breakpointRemove bp.id s, true)

/-- `action_remove_breakpoint`, and whether it answers `OK`. -/
def actionRemoveBreakpoint (b : BreakpointArgs) (s : Debugger ε) : Debugger ε × Bool :=
  if rspBreakpointFuseTypes b.type = [] ∨ b.valid = false then (s, false)
  else
    b.targets.foldl (fun done target =>
      ((removeTarget b done.1 target).1, done.2 || (removeTarget b done.1 target).2)) (s, false)

/-! ## Numbers -/

/-- The breakpoints have different numbers, below the next one. -/
structure Numbered (s : Debugger ε) : Prop where
  nodup : (s.breakpoints.map (·.id)).Nodup
  below : ∀ bp ∈ s.breakpoints, bp.id < s.nextBreakpointId
  small : s.nextBreakpointId ≤ 2 ^ 32

theorem findBreakpointById_eq {s : Debugger ε} (numbered : Numbered s) {bp : Breakpoint ε}
    (present : bp ∈ s.breakpoints) {id : Nat} (small : id < 2 ^ 32) :
    findBreakpointById id bp = decide (bp.id = id) := by
  have below := Nat.lt_of_lt_of_le (numbered.below bp present) numbered.small
  unfold findBreakpointById
  rw [Nat.mod_eq_of_lt below, Nat.mod_eq_of_lt small]

theorem breakpointRemove_breakpoints {s : Debugger ε} (id : Nat) :
    (breakpointRemove id s).breakpoints = s.breakpoints.eraseP (findBreakpointById id) := by
  unfold breakpointRemove
  split
  · next absent =>
    rw [List.eraseP_of_forall_not]
    intro bp present found
    exact List.find?_eq_none.mp absent bp present found
  · rfl

theorem breakpointRemove_nextId {s : Debugger ε} (id : Nat) :
    (breakpointRemove id s).nextBreakpointId = s.nextBreakpointId := by
  unfold breakpointRemove
  split <;> rfl

theorem Numbered.remove {s : Debugger ε} (numbered : Numbered s) (id : Nat) :
    Numbered (breakpointRemove id s) := by
  refine ⟨?_, fun bp present => ?_, ?_⟩
  · rw [breakpointRemove_breakpoints]
    exact numbered.nodup.sublist ((List.eraseP_sublist).map _)
  · rw [breakpointRemove_breakpoints] at present
    rw [breakpointRemove_nextId]
    exact numbered.below bp (List.mem_of_mem_eraseP present)
  · rw [breakpointRemove_nextId]
    exact numbered.small

/-- Among different numbers, the one that is found first is the one that is removed. -/
theorem eraseP_find {l : List (Breakpoint ε)} {p : Breakpoint ε → Bool} {bp : Breakpoint ε}
    (nodup : (l.map (·.id)).Nodup) (found : l.find? p = some bp) :
    l.eraseP (fun bp' => decide (bp'.id = bp.id)) = l.eraseP p := by
  induction l with
  | nil => cases found
  | cons head l ih =>
    rw [List.map_cons, List.nodup_cons] at nodup
    by_cases here : p head = true
    · rw [List.find?_cons_of_pos here] at found
      obtain rfl := Option.some.inj found
      rw [List.eraseP_cons_of_pos here]
      exact List.eraseP_cons_of_pos (decide_eq_true rfl)
    · rw [List.find?_cons_of_neg here] at found
      have other : ¬ decide (head.id = bp.id) = true := by
        intro same
        have same' := of_decide_eq_true same
        exact nodup.1 (same' ▸ List.mem_map_of_mem (List.mem_of_find?_eq_some found))
      rw [List.eraseP_cons_of_neg here, ← ih nodup.2 found]
      exact List.eraseP_cons_of_neg other

theorem eraseP_congr {l : List (Breakpoint ε)} {p q : Breakpoint ε → Bool}
    (same : ∀ bp ∈ l, p bp = q bp) : l.eraseP p = l.eraseP q := by
  induction l with
  | nil => rfl
  | cons head l ih =>
    have here := same head List.mem_cons_self
    by_cases erased : p head = true
    · rw [List.eraseP_cons_of_pos erased, List.eraseP_cons_of_pos (here ▸ erased)]
    · rw [List.eraseP_cons_of_neg erased, List.eraseP_cons_of_neg (here ▸ erased),
        ih fun bp present => same bp (List.mem_cons_of_mem _ present)]

/-- `debugger_breakpoint_remove` of a number that is there. -/
theorem breakpointRemove_eq {s : Debugger ε} (numbered : Numbered s) {id : Nat}
    (small : id < 2 ^ 32) : (breakpointRemove id s).breakpoints =
      s.breakpoints.eraseP (fun bp => decide (bp.id = id)) := by
  rw [breakpointRemove_breakpoints]
  exact eraseP_congr fun bp present => findBreakpointById_eq numbered present small

end FuseX.Gdb
