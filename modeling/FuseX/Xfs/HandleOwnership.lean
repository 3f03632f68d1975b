import FuseX.Lib.Runs
import FuseX.Xfs.Handles

/-!
# Handle ownership

Which runs of commands keep every engine call on the mount that opened the
handle.

* `Owned` holds in every reachable state: a live handle belongs to a mounted
  slot, and its data to the mount that is there now;
* `WellDirected` is the condition on one command: a command that works on an
  open handle names the mount the handle belongs to;
* `xfsStep_ownership_iff` proves that the calls of a run are right exactly when
  its commands meet the condition.
-/

namespace FuseX.Xfs

open Lib

/-! ## Statements -/

/-- The index is in the table; a call goes to a mounted slot, and to the mount
that opened the handle when one did. -/
def XfsEvent.Ok : XfsEvent → Prop
  | .slotRead mountPoint => mountPoint.toNat < xfsMaxMounts
  | .call _ mountPoint target opener =>
      mountPoint.toNat < xfsMaxMounts ∧ target.isSome ∧
        ∀ o ∈ opener, o.slot = mountPoint ∧ target = some (o.engine, o.mountData)

instance : DecidablePred XfsEvent.Ok
  | .slotRead _ => inferInstanceAs (Decidable (_ < _))
  | .call _ _ _ none => inferInstanceAs (Decidable (_ ∧ _ ∧ _))
  | .call _ _ _ (some _) => inferInstanceAs (Decidable (_ ∧ _ ∧ _))

def AllOk (s : XfsState) : Prop :=
  ∀ event ∈ s.trace, event.Ok

instance (s : XfsState) : Decidable (AllOk s) :=
  inferInstanceAs (Decidable (∀ event ∈ s.trace, event.Ok))

/-- A live handle belongs to a mounted slot and was opened by its mount; a free
handle holds no engine data. -/
def HandleOwned (mounts : Fin xfsMaxMounts → XfsEngineMount) (value : XfsHandle) : Prop :=
  if value.type = .none then value.data = none
  else
    ∃ (mp : Fin xfsMaxMounts) (engine : XfsEngine),
      value.ownerMount.toNat = mp ∧ (mounts mp).engine = some engine ∧
        value.data = some ⟨value.ownerMount, engine, (mounts mp).mountData⟩

structure Owned (s : XfsState) : Prop where
  mountData : ∀ mp, (s.mounts mp).engine.isSome → (s.mounts mp).mountData.isSome
  handles : ∀ h, HandleOwned s.mounts (s.handles h)

/-- The command names the mount of the handle it works on. Commands that open a
handle, and `close` of a free handle number, only have to name a slot of the
table. -/
def WellDirected (s : XfsState) : XfsAction → Prop
  | .free => True
  | .command r =>
      match r.command with
      | .mount .. | .umount => True
      | .open .. | .opendir _ => r.mountPoint.toNat < xfsMaxMounts
      | .read _ | .write _ | .lseek .. =>
          ∀ h ∈ s.handleOfType r.fileHandle .file, r.mountPoint = (s.handles h).ownerMount
      | .readdir _ operation =>
          operation ≤ 2 →
            ∀ h ∈ s.handleOfType r.fileHandle .dir, r.mountPoint = (s.handles h).ownerMount
      | .closedir =>
          ∀ h ∈ s.handleOfType r.fileHandle .dir, r.mountPoint = (s.handles h).ownerMount
      | .close =>
          ∀ h ∈ getHandle r.fileHandle,
            if (s.handles h).type = .none then r.mountPoint.toNat < xfsMaxMounts
            else r.mountPoint = (s.handles h).ownerMount

/-! ## Accesses -/

section Accesses

variable {s : XfsState} {mountPoint : UInt8} {h : Fin xfsMaxFds} {op : EngineOp}

theorem mountIndex_eq_some {mp : Fin xfsMaxMounts} :
    mountIndex mountPoint = some mp ↔ mountPoint.toNat = mp := by
  unfold mountIndex
  split
  · rw [Option.some.injEq, Fin.ext_iff]
  · have := mp.isLt
    constructor
    · rintro ⟨⟩
    · omega

theorem mountIndex_isSome : (mountIndex mountPoint).isSome ↔ mountPoint.toNat < xfsMaxMounts := by
  unfold mountIndex
  split
  · simpa
  · simpa using Nat.le_of_not_lt ‹_›

theorem targetOf_of_mountIndex {mp : Fin xfsMaxMounts}
    (index : mountIndex mountPoint = some mp) :
    s.targetOf mountPoint = (s.mounts mp).engine.map fun e => (e, (s.mounts mp).mountData) := by
  simp only [XfsState.targetOf, index, Option.bind_eq_bind, Option.bind_some]
  cases (s.mounts mp).engine <;> rfl

theorem targetOf_isSome (mounted : (s.targetOf mountPoint).isSome) :
    ∃ mp, mountIndex mountPoint = some mp := by
  rcases index : mountIndex mountPoint with _ | mp
  · simp [XfsState.targetOf, index] at mounted
  · exact ⟨mp, rfl⟩

@[simp] theorem allOk_emit {event : XfsEvent} : AllOk (s.emit event) ↔ AllOk s ∧ event.Ok := by
  simp [AllOk, XfsState.emit, or_imp, forall_and]

/-- The fields an access leaves alone. -/
structure SameTables (s t : XfsState) : Prop where
  mounts : t.mounts = s.mounts
  handles : t.handles = s.handles

theorem SameTables.owned {t : XfsState} (same : SameTables s t) (owned : Owned s) : Owned t := by
  obtain ⟨mountData, handles⟩ := owned
  exact ⟨by rwa [same.mounts], by rwa [same.mounts, same.handles]⟩

theorem sameTables_readSlot : SameTables s (s.readSlot mountPoint) := by
  unfold XfsState.readSlot
  split <;> exact ⟨rfl, rfl⟩

theorem sameTables_engineCall : SameTables s (s.engineCall op mountPoint h) := by
  unfold XfsState.engineCall
  dsimp only
  split <;> exact ⟨rfl, rfl⟩

theorem targetOf_congr {t : XfsState} (same : SameTables s t) :
    t.targetOf mountPoint = s.targetOf mountPoint := by
  simp only [XfsState.targetOf, same.mounts]

theorem allOk_readSlot :
    AllOk (s.readSlot mountPoint) ↔ AllOk s ∧ mountPoint.toNat < xfsMaxMounts := by
  have emitted : AllOk (s.readSlot mountPoint) ↔ AllOk (s.emit (.slotRead mountPoint)) := by
    unfold XfsState.readSlot
    split <;> exact Iff.rfl
  rw [emitted, allOk_emit]
  exact Iff.rfl

theorem allOk_engineCall :
    AllOk (s.engineCall op mountPoint h) ↔
      AllOk s ∧ (XfsEvent.call op mountPoint (s.targetOf mountPoint) (s.handles h).data).Ok := by
  rw [← allOk_emit]
  unfold XfsState.engineCall
  dsimp only
  split <;> exact Iff.rfl

theorem halted_readSlot (running : s.halted = false) :
    (s.readSlot mountPoint).halted = !decide (mountPoint.toNat < xfsMaxMounts) := by
  have index := @mountIndex_isSome mountPoint
  unfold XfsState.readSlot
  rcases found : mountIndex mountPoint with _ | mp
  · simpa [found] using index
  · simpa [found, XfsState.emit, running] using index

theorem halted_engineCall (running : s.halted = false) :
    (s.engineCall op mountPoint h).halted = (s.targetOf mountPoint).isNone := by
  unfold XfsState.engineCall
  cases s.targetOf mountPoint <;> simp [XfsState.emit, running]

/-- A call on a live handle is right exactly when it goes through the handle's
own mount. -/
theorem call_ok_iff (owned : HandleOwned s.mounts (s.handles h))
    (live : (s.handles h).type ≠ .none) :
    (XfsEvent.call op mountPoint (s.targetOf mountPoint) (s.handles h).data).Ok ↔
      mountPoint = (s.handles h).ownerMount := by
  rw [HandleOwned, if_neg live] at owned
  obtain ⟨mp, engine, owner, mounted, data⟩ := owned
  constructor
  · intro ok
    exact (ok.2.2 _ data).1.symm
  · intro directed
    have index : mountIndex mountPoint = some mp := mountIndex_eq_some.mpr (directed ▸ owner)
    have target : s.targetOf mountPoint = some (engine, (s.mounts mp).mountData) := by
      rw [targetOf_of_mountIndex index, mounted]
      rfl
    refine ⟨mountIndex_isSome.mp (by rw [index]; rfl), by rw [target]; rfl, ?_⟩
    intro o opener
    obtain rfl : _ = o := Option.some.inj (data.symm.trans opener)
    exact ⟨directed.symm, target⟩

/-- A call on a handle nobody opened only needs a mounted slot. -/
theorem call_ok_unopened (unopened : (s.handles h).data = none)
    (mounted : (s.targetOf mountPoint).isSome) :
    (XfsEvent.call op mountPoint (s.targetOf mountPoint) (s.handles h).data).Ok := by
  obtain ⟨mp, index⟩ := targetOf_isSome mounted
  refine ⟨mountIndex_isSome.mp (by rw [index]; rfl), mounted, fun o opener => ?_⟩
  rw [unopened] at opener
  cases opener

end Accesses

/-! ## Freeing a handle -/

section Free

variable {s : XfsState} {mountPoint : UInt8} {h : Fin xfsMaxFds}

/-- All handles but one are owned: the state between `allocate_handle` and the
engine's answer. -/
structure OwnedBut (h : Fin xfsMaxFds) (s : XfsState) : Prop where
  mountData : ∀ mp, (s.mounts mp).engine.isSome → (s.mounts mp).mountData.isSome
  handles : ∀ h', h' ≠ h → HandleOwned s.mounts (s.handles h')

theorem Owned.but (owned : Owned s) (h : Fin xfsMaxFds) : OwnedBut h s :=
  ⟨owned.mountData, fun h' _ => owned.handles h'⟩

/-- Filling the missing handle in. -/
theorem OwnedBut.setHandle (owned : OwnedBut h s) {value : XfsHandle}
    (here : HandleOwned s.mounts value) : Owned (s.setHandle h value) := by
  refine ⟨owned.mountData, fun h' => ?_⟩
  rcases eq_or_ne h' h with rfl | other
  · simpa [XfsState.setHandle] using here
  · simpa [XfsState.setHandle, Function.update_of_ne other] using owned.handles h' other

theorem SameTables.ownedBut {t : XfsState} (same : SameTables s t) (owned : OwnedBut h s) :
    OwnedBut h t := by
  obtain ⟨mountData, handles⟩ := owned
  exact ⟨by rwa [same.mounts], by rwa [same.mounts, same.handles]⟩

/-- `free_handle` up to its final reset of the handle. -/
def beforeReset (s : XfsState) (h : Fin xfsMaxFds) (mountPoint : UInt8) : XfsState :=
  let t := s.readSlot mountPoint
  if (t.targetOf mountPoint).isSome then t.engineCall .freeHandle mountPoint h else t

theorem freeHandle_of_halted (stopped : (s.readSlot mountPoint).halted = true) :
    freeHandle s h mountPoint = s.readSlot mountPoint := by
  simp only [freeHandle, stopped, if_true]

theorem freeHandle_of_running (running : (s.readSlot mountPoint).halted = false) :
    freeHandle s h mountPoint =
      (beforeReset s h mountPoint).setHandle h { (beforeReset s h mountPoint).handles h with
        type := .none, ownerMount := 0xFF, data := none } := by
  simp only [freeHandle, running, Bool.false_eq_true, if_false]
  rfl

theorem sameTables_beforeReset : SameTables s (beforeReset s h mountPoint) := by
  have read := @sameTables_readSlot s mountPoint
  unfold beforeReset
  simp only
  split
  · have call := @sameTables_engineCall (s.readSlot mountPoint) mountPoint h .freeHandle
    exact ⟨call.mounts.trans read.mounts, call.handles.trans read.handles⟩
  · exact read

theorem mounts_freeHandle : (freeHandle s h mountPoint).mounts = s.mounts := by
  rcases stopped : (s.readSlot mountPoint).halted with _ | _
  · rw [freeHandle_of_running stopped]
    exact sameTables_beforeReset.mounts
  · rw [freeHandle_of_halted stopped]
    exact sameTables_readSlot.mounts

theorem owned_freeHandle_of_running (running : (s.readSlot mountPoint).halted = false)
    (owned : OwnedBut h s) : Owned (freeHandle s h mountPoint) := by
  rw [freeHandle_of_running running]
  apply (sameTables_beforeReset.ownedBut owned).setHandle
  simp [HandleOwned]

theorem owned_freeHandle (owned : Owned s) : Owned (freeHandle s h mountPoint) := by
  rcases stopped : (s.readSlot mountPoint).halted with _ | _
  · exact owned_freeHandle_of_running stopped (owned.but h)
  · rw [freeHandle_of_halted stopped]
    exact sameTables_readSlot.owned owned

theorem allOk_of_freeHandle (ok : AllOk (freeHandle s h mountPoint)) :
    AllOk s ∧ mountPoint.toNat < xfsMaxMounts := by
  apply allOk_readSlot.mp
  rcases stopped : (s.readSlot mountPoint).halted with _ | _
  · rw [freeHandle_of_running stopped] at ok
    change AllOk (beforeReset s h mountPoint) at ok
    unfold beforeReset at ok
    simp only at ok
    split at ok
    · exact (allOk_engineCall.mp ok).1
    · exact ok
  · rwa [freeHandle_of_halted stopped] at ok

/-- Freeing is right when the handle's own mount is named, or when nobody opened
the handle and the index is in the table. -/
theorem allOk_freeHandle (ok : AllOk s) (running : s.halted = false)
    (inTable : mountPoint.toNat < xfsMaxMounts)
    (call : ∀ t, SameTables s t → (t.targetOf mountPoint).isSome →
      (XfsEvent.call .freeHandle mountPoint (t.targetOf mountPoint) (t.handles h).data).Ok) :
    AllOk (freeHandle s h mountPoint) := by
  have open_ : (s.readSlot mountPoint).halted = false := by
    simp [halted_readSlot running, inTable]
  rw [freeHandle_of_running open_]
  change AllOk (beforeReset s h mountPoint)
  have read : AllOk (s.readSlot mountPoint) := allOk_readSlot.mpr ⟨ok, inTable⟩
  unfold beforeReset
  simp only
  split
  · rename_i mounted
    exact allOk_engineCall.mpr ⟨read, call _ sameTables_readSlot mounted⟩
  · exact read

theorem halted_freeHandle (running : s.halted = false)
    (inTable : mountPoint.toNat < xfsMaxMounts) :
    (freeHandle s h mountPoint).halted = false := by
  have open_ : (s.readSlot mountPoint).halted = false := by
    simp [halted_readSlot running, inTable]
  rw [freeHandle_of_running open_]
  change (beforeReset s h mountPoint).halted = false
  unfold beforeReset
  simp only
  split
  · rename_i mounted
    rw [halted_engineCall open_]
    cases found : (s.readSlot mountPoint).targetOf mountPoint <;> simp_all
  · exact open_

/-- Freeing a live handle through its own mount. -/
theorem allOk_freeHandle_owner (owned : Owned s) (ok : AllOk s) (running : s.halted = false)
    (live : (s.handles h).type ≠ .none) (directed : mountPoint = (s.handles h).ownerMount) :
    AllOk (freeHandle s h mountPoint) := by
  have callOk := (@call_ok_iff s mountPoint h .freeHandle (owned.handles h) live).mpr directed
  refine allOk_freeHandle ok running callOk.1 fun t same _ => ?_
  rw [targetOf_congr same, same.handles]
  exact callOk

/-- Freeing a handle nobody opened. -/
theorem allOk_freeHandle_unopened (ok : AllOk s) (running : s.halted = false)
    (unopened : (s.handles h).data = none) (inTable : mountPoint.toNat < xfsMaxMounts) :
    AllOk (freeHandle s h mountPoint) := by
  refine allOk_freeHandle ok running inTable fun t same mounted => ?_
  exact call_ok_unopened (by rw [same.handles, unopened]) mounted

end Free

/-! ## Commands on an open handle -/

/-- What one command leaves: ownership holds again, and its accesses were right
exactly when it was well directed. -/
structure Served (s t : XfsState) (directed : Prop) : Prop where
  owned : Owned t
  allOk : AllOk t ↔ AllOk s ∧ directed

section Commands

variable {s t : XfsState} {directed : Prop} {mountPoint : UInt8} {h : Fin xfsMaxFds}

theorem Served.complete (served : Served s t directed) (result : Int16) :
    Served s (t.complete result) directed :=
  ⟨⟨served.owned.mountData, served.owned.handles⟩, served.allOk⟩

theorem Served.fail (served : Served s t directed) (result : Int16) :
    Served s (t.fail result) directed :=
  ⟨⟨served.owned.mountData, served.owned.handles⟩, served.allOk⟩

theorem Served.finish (served : Served s t directed) (err : Int16) :
    Served s (t.finish err) directed := by
  unfold XfsState.finish
  split
  · exact served.fail err
  · exact served.complete 0

theorem Served.storePosition (served : Served s t directed) (position : UInt32) :
    Served s (storePosition t h position) directed := by
  refine ⟨?_, served.allOk⟩
  have stored := (served.owned.but h).setHandle
    (show HandleOwned t.mounts { t.handles h with dirPosition := position } from
      served.owned.handles h)
  exact ⟨stored.mountData, stored.handles⟩

theorem Served.refl (owned : Owned s) (always : directed) : Served s s directed :=
  ⟨owned, by simp [always]⟩

/-- A call on a live handle. -/
theorem served_engineCall (owned : Owned s) (live : (s.handles h).type ≠ .none) (op : EngineOp) :
    Served s (s.engineCall op mountPoint h) (mountPoint = (s.handles h).ownerMount) := by
  refine ⟨sameTables_engineCall.owned owned, ?_⟩
  rw [allOk_engineCall, call_ok_iff (owned.handles h) live]

/-- A second call on the same handle asks for nothing more. -/
theorem Served.engineCall (served : Served s t (mountPoint = (s.handles h).ownerMount))
    (same : SameTables s t) (live : (s.handles h).type ≠ .none) (op : EngineOp) :
    Served s (t.engineCall op mountPoint h) (mountPoint = (s.handles h).ownerMount) := by
  refine ⟨sameTables_engineCall.owned served.owned, ?_⟩
  have here := served.owned.handles h
  rw [allOk_engineCall, served.allOk, call_ok_iff here (by rwa [same.handles]), same.handles]
  exact and_iff_left_of_imp And.right

/-- Closing a live handle: the engine's `close`, then `free_handle`. -/
theorem served_close (owned : Owned s) (live : (s.handles h).type ≠ .none) {op : EngineOp}
    (running : (s.engineCall op mountPoint h).halted = false) :
    Served s (freeHandle (s.engineCall op mountPoint h) h mountPoint)
      (mountPoint = (s.handles h).ownerMount) := by
  have called := @served_engineCall s mountPoint h owned live op
  have same := @sameTables_engineCall s mountPoint h op
  refine ⟨owned_freeHandle called.owned, ?_, ?_⟩
  · intro ok
    exact called.allOk.mp (allOk_of_freeHandle ok).1
  · intro good
    exact allOk_freeHandle_owner called.owned (called.allOk.mpr good) running
      (by rwa [same.handles]) (by rw [same.handles]; exact good.2)

/-- The handle a command names, when it is of the right type. -/
theorem handleOfType_eq_some {handle : UInt8} {type : XfsHandleType} :
    s.handleOfType handle type = some h ↔ getHandle handle = some h ∧ (s.handles h).type = type := by
  simp [XfsState.handleOfType, Option.filter_eq_some_iff]

/-- A command that needs a handle of one type does nothing without it. -/
theorem served_handleOfType (owned : Owned s) {r : XfsRequest} {type : XfsHandleType}
    (live : type ≠ .none) {run : Fin xfsMaxFds → XfsState}
    (served : ∀ h, (s.handles h).type ≠ .none →
      Served s (run h) (r.mountPoint = (s.handles h).ownerMount)) :
    Served s
      (match s.handleOfType r.fileHandle type with
        | none => s.fail XfsError.badf.code
        | some h => run h)
      (∀ h ∈ s.handleOfType r.fileHandle type, r.mountPoint = (s.handles h).ownerMount) := by
  rcases found : s.handleOfType r.fileHandle type with _ | h
  · exact (Served.refl owned (by simp)).fail _
  · have typed := (handleOfType_eq_some.mp found).2
    simpa using served h (by rwa [typed])

theorem served_handleTransfer (owned : Owned s) (r : XfsRequest) (op : EngineOp) :
    Served s (handleTransfer s r op)
      (∀ h ∈ s.handleOfType r.fileHandle .file, r.mountPoint = (s.handles h).ownerMount) := by
  refine served_handleOfType owned (by decide) fun h live => ?_
  have called := @served_engineCall s r.mountPoint h owned live op
  dsimp only
  split
  · exact called
  · split
    · exact called.fail _
    · exact called.complete _

theorem served_xfsHandleLseek (owned : Owned s) (r : XfsRequest) (offset : Int32)
    (whence : UInt8) :
    Served s (xfsHandleLseek s r offset whence)
      (∀ h ∈ s.handleOfType r.fileHandle .file, r.mountPoint = (s.handles h).ownerMount) := by
  refine served_handleOfType owned (by decide) fun h live => ?_
  have called := @served_engineCall s r.mountPoint h owned live (.lseek offset whence)
  dsimp only
  split
  · exact called
  · split
    · exact called.fail _
    · exact called.complete _

theorem served_xfsHandleClosedir (owned : Owned s) (r : XfsRequest) :
    Served s (xfsHandleClosedir s r)
      (∀ h ∈ s.handleOfType r.fileHandle .dir, r.mountPoint = (s.handles h).ownerMount) := by
  refine served_handleOfType owned (by decide) fun h live => ?_
  dsimp only
  split
  · exact served_engineCall owned live _
  · rename_i running
    exact (served_close owned live (by simpa using running)).finish _

/-- The operations `readdir` knows. -/
theorem operation_le_two {operation : UInt8} :
    operation ≤ 2 ↔ operation = 0 ∨ operation = 1 ∨ operation = 2 := by
  have := operation.toNat_lt
  simp only [UInt8.le_iff_toNat_le, ← UInt8.toNat_inj, UInt8.reduceToNat]
  omega

/-- `readdir` calls the engine only for an operation it knows. -/
theorem served_xfsHandleReaddir (owned : Owned s) (r : XfsRequest) (position : UInt32)
    (operation : UInt8) :
    Served s (xfsHandleReaddir s r position operation)
      (operation ≤ 2 →
        ∀ h ∈ s.handleOfType r.fileHandle .dir, r.mountPoint = (s.handles h).ownerMount) := by
  rw [operation_le_two]
  by_cases known : operation = 0 ∨ operation = 1 ∨ operation = 2
  · simp only [known, true_imp_iff]
    refine served_handleOfType owned (by decide) fun h live => ?_
    have called := fun op => @served_engineCall s r.mountPoint h owned live op
    rcases known with rfl | rfl | rfl
    · -- `XFS_READDIR_NEXT`: an entry is followed by a `telldir`
      simp only [reduceIte, ne_eq, not_true_eq_false, show (0 : UInt8) ≠ 1 by decide,
        show (0 : UInt8) ≠ 2 by decide]
      split
      · exact called _
      split
      · exact (called _).fail _
      split
      · exact (called _).complete _
      have told := (called .readdir).engineCall sameTables_engineCall live .telldir
      split
      · exact told.fail _
      · exact (told.storePosition _).complete _
    · simp only [reduceIte]
      split
      · exact called _
      split
      · exact (called _).fail _
      · exact ((called _).storePosition position).complete _
    · simp only [reduceIte, show (2 : UInt8) ≠ 1 by decide]
      split
      · exact called _
      split
      · exact (called _).fail _
      · exact ((called _).storePosition _).complete _
  · simp only [known, false_imp_iff]
    simp only [not_or] at known
    unfold xfsHandleReaddir
    rcases s.handleOfType r.fileHandle .dir with _ | h
    · exact (Served.refl owned True.intro).fail _
    · simp only [known, if_false, ne_eq, not_false_eq_true, if_true]
      exact (Served.refl owned True.intro).fail _

/-- `close` takes any handle number; a free one only passes through
`free_handle`. -/
theorem served_xfsHandleClose (owned : Owned s) (running : s.halted = false) (r : XfsRequest) :
    Served s (xfsHandleClose s r)
      (∀ h ∈ getHandle r.fileHandle,
        if (s.handles h).type = .none then r.mountPoint.toNat < xfsMaxMounts
        else r.mountPoint = (s.handles h).ownerMount) := by
  unfold xfsHandleClose
  rcases getHandle r.fileHandle with _ | h
  · exact (Served.refl owned (by simp)).fail _
  simp only [Option.mem_def, Option.some.injEq, forall_eq']
  have here := owned.handles h
  rcases type : (s.handles h).type with _ | _ | _
  · have free : Served s (freeHandle s h r.mountPoint) (r.mountPoint.toNat < xfsMaxMounts) := by
      refine ⟨owned_freeHandle owned, allOk_of_freeHandle, ?_⟩
      rintro ⟨ok, inTable⟩
      rw [HandleOwned, if_pos type] at here
      exact allOk_freeHandle_unopened ok running here inTable
    simp only [if_true]
    split
    · exact free
    · exact free.complete _
  all_goals
    have live : (s.handles h).type ≠ .none := by simp [type]
    simp only [reduceCtorEq, if_false]
    split
    · exact served_engineCall owned live _
    · rename_i alive
      exact (served_close owned live (by simpa using alive)).finish _

end Commands

/-! ## Opening -/

section Open

variable {s t : XfsState} {mountPoint : UInt8} {h : Fin xfsMaxFds}

theorem allocateHandle_eq_some {type : XfsHandleType}
    (allocated : allocateHandle s type = some (h, t)) :
    t = s.setHandle h { s.handles h with type := type, ownerMount := 0xFF, data := none } := by
  unfold allocateHandle at allocated
  split at allocated
  · cases allocated
  · cases allocated
    rfl

/-- Giving up an allocated handle that no engine opened. -/
theorem served_giveUp (owned : OwnedBut h t) (same : AllOk t ↔ AllOk s)
    (running : t.halted = false) (unopened : (t.handles h).data = none) (err : Int16)
    (inTable : mountPoint.toNat < xfsMaxMounts) :
    Served s ((freeHandle t h mountPoint).fail err) (mountPoint.toNat < xfsMaxMounts) := by
  have readable : (t.readSlot mountPoint).halted = false := by
    simp [halted_readSlot running, inTable]
  refine Served.fail ⟨owned_freeHandle_of_running readable owned, ?_, ?_⟩ err
  · intro ok
    exact ⟨same.mp (allOk_of_freeHandle ok).1, inTable⟩
  · intro good
    exact allOk_freeHandle_unopened (same.mpr good.1) running unopened inTable

/-- What a command itself sets in a handle does not touch its owner. -/
def KeepsOwner (opened : CString → XfsHandle → XfsHandle) : Prop :=
  ∀ resolved value, (opened resolved value).type = value.type ∧
    (opened resolved value).ownerMount = value.ownerMount ∧
    (opened resolved value).data = value.data

theorem served_openAllocated {r : XfsRequest} {mp : Fin xfsMaxMounts} {engine : XfsEngine}
    (index : mountIndex r.mountPoint = some mp) (mounted : (t.mounts mp).engine = some engine)
    (owned : OwnedBut h t) (same : AllOk t ↔ AllOk s) (running : t.halted = false)
    (unopened : (t.handles h).data = none) (live : (t.handles h).type ≠ .none) (path : CString)
    (op : CString → EngineOp) {opened : CString → XfsHandle → XfsHandle}
    (keeps : KeepsOwner opened) :
    Served s (openAllocated t r mp engine h path op opened)
      (r.mountPoint.toNat < xfsMaxMounts) := by
  have inTable : r.mountPoint.toNat < xfsMaxMounts :=
    mountIndex_isSome.mp (by rw [index]; rfl)
  have target : (t.targetOf r.mountPoint).isSome := by
    rw [targetOf_of_mountIndex index, mounted]
    rfl
  unfold openAllocated
  rcases xfsResolvePath (t.mounts mp) path xfsPathMax with err | resolved
  · exact served_giveUp owned same running unopened _ inTable
  have called := @sameTables_engineCall t r.mountPoint h (op resolved)
  have calledOk : AllOk (t.engineCall (op resolved) r.mountPoint h) ↔ AllOk s := by
    rw [allOk_engineCall, ← same]
    exact and_iff_left (call_ok_unopened unopened target)
  have alive : (t.engineCall (op resolved) r.mountPoint h).halted = false := by
    rw [halted_engineCall running]
    exact Option.isNone_eq_false_iff.mpr target
  dsimp only
  split
  · exact served_giveUp (called.ownedBut owned) calledOk alive
      (by rw [called.handles]; exact unopened) _ inTable
  · -- the engine opened the handle for the mount the register names
    obtain ⟨sameType, sameOwner, sameData⟩ := keeps resolved
      ((t.engineCall (op resolved) r.mountPoint h).markOpened r.mountPoint mp engine h)
    have filled : HandleOwned (t.engineCall (op resolved) r.mountPoint h).mounts
        (opened resolved
          ((t.engineCall (op resolved) r.mountPoint h).markOpened r.mountPoint mp engine h)) := by
      rw [HandleOwned, sameType, sameOwner, sameData]
      simp only [XfsState.markOpened, called.handles, called.mounts, if_neg live]
      exact ⟨mp, engine, mountIndex_eq_some.mp index, mounted, rfl⟩
    have full := (called.ownedBut owned).setHandle filled
    exact ⟨⟨full.mountData, full.handles⟩, calledOk.trans (and_iff_left inTable).symm⟩

theorem served_openHandle (owned : Owned s) (running : s.halted = false) (r : XfsRequest)
    {type : XfsHandleType} (live : type ≠ .none) (path : CString) (op : CString → EngineOp)
    {opened : CString → XfsHandle → XfsHandle} (keeps : KeepsOwner opened) :
    Served s (openHandle s r type path op opened) (r.mountPoint.toNat < xfsMaxMounts) := by
  have read : Served s (s.readSlot r.mountPoint) (r.mountPoint.toNat < xfsMaxMounts) :=
    ⟨sameTables_readSlot.owned owned, allOk_readSlot⟩
  have readable := @halted_readSlot s r.mountPoint running
  unfold openHandle
  dsimp only
  generalize s.readSlot r.mountPoint = t at read readable
  split
  · exact read
  rename_i mp index
  split
  · exact read.fail _
  rename_i engine mounted
  split
  · exact read.fail _
  rename_i h t' allocated
  have inTable : r.mountPoint.toNat < xfsMaxMounts :=
    mountIndex_isSome.mp (by rw [index]; rfl)
  obtain rfl := allocateHandle_eq_some allocated
  generalize fresh : { t.handles h with type := type, ownerMount := 0xFF, data := none } = value
  have others : OwnedBut h (t.setHandle h value) := by
    refine ⟨read.owned.mountData, fun h' other => ?_⟩
    simpa [XfsState.setHandle, Function.update_of_ne other] using read.owned.handles h'
  have here : (t.setHandle h value).handles h = value := by simp [XfsState.setHandle]
  have alive : t.halted = false := by rw [readable, decide_eq_true inTable, Bool.not_true]
  refine @served_openAllocated s (t.setHandle h value) h r mp engine index mounted others
    (read.allOk.trans (and_iff_left inTable)) alive ?_ ?_ path op opened keeps
  · rw [here, ← fresh]
  · rw [here, ← fresh]
    exact live

end Open

/-! ## Mounting and unmounting -/

section Mount

variable {s : XfsState} {mp : Fin xfsMaxMounts}

/-- Replacing a slot that no live handle belongs to. -/
theorem Owned.setMount (owned : Owned s) {mount : XfsEngineMount}
    (complete : mount.engine.isSome → mount.mountData.isSome)
    (unused : ∀ h, (s.handles h).type ≠ .none → (s.handles h).ownerMount.toNat ≠ mp) :
    Owned (s.setMount mp mount) := by
  constructor
  · intro mp'
    rcases eq_or_ne mp' mp with rfl | other
    · simpa [XfsState.setMount] using complete
    · simpa [XfsState.setMount, Function.update_of_ne other] using owned.mountData mp'
  · intro h
    have here := owned.handles h
    change HandleOwned (Function.update s.mounts mp mount) (s.handles h)
    unfold HandleOwned at here ⊢
    split
    · rwa [if_pos ‹_›] at here
    · rename_i live
      rw [if_neg live] at here
      obtain ⟨mp', engine, owner, mounted, data⟩ := here
      have other : mp' ≠ mp := by
        rintro rfl
        exact unused h live owner
      refine ⟨mp', engine, owner, ?_⟩
      rw [Function.update_of_ne other]
      exact ⟨mounted, data⟩

theorem served_xfsHandleMount (owned : Owned s) (r : XfsRequest)
    (protocol hostname path : CString) (fields : List CString) :
    Served s (xfsHandleMount s r protocol hostname path fields) True := by
  have unchanged : Served s s True := .refl owned True.intro
  unfold xfsHandleMount
  split
  · exact unchanged.fail _
  rename_i mp _
  split
  · split
    · exact unchanged.complete _
    · exact unchanged.fail _
  rename_i empty
  split
  · exact unchanged.fail _
  split
  · exact unchanged.fail _
  split
  · exact unchanged.fail _
  -- an empty slot has no live handle
  refine Served.complete ⟨?_, by simp [AllOk, XfsState.setMount, XfsState.setIdentity]⟩ _
  rename_i engine _ _ _
  have placed : Owned (s.setMount mp
      { engine := some engine, mountData := some s.nextInstance, cwd := some [slash] }) := by
    refine owned.setMount (fun _ => rfl) fun h live owner => ?_
    have here := owned.handles h
    rw [HandleOwned, if_neg live] at here
    obtain ⟨mp', engine', owner', mounted, -⟩ := here
    obtain rfl : mp' = mp := Fin.ext (owner'.symm.trans owner)
    simp [mounted] at empty
  exact ⟨placed.mountData, placed.handles⟩

/-- What closing the handles of a mount leaves. -/
structure Closed (mp : Fin xfsMaxMounts) (hs : List (Fin xfsMaxFds)) (s t : XfsState) : Prop where
  mounts : t.mounts = s.mounts
  owned : Owned t
  running : t.halted = false
  allOk : AllOk t ↔ AllOk s
  kept : ∀ h, (t.handles h).type ≠ .none → t.handles h = s.handles h
  closed : ∀ h ∈ hs, (t.handles h).type ≠ .none → (t.handles h).ownerMount.toNat ≠ mp

theorem toNat_ofNat_mount (mp : Fin xfsMaxMounts) : (UInt8.ofNat mp).toNat = mp := by
  have bound : mp.val < 4 := mp.isLt
  simp only [UInt8.toNat_ofNat']
  omega

theorem handles_freeHandle {mountPoint : UInt8} {h : Fin xfsMaxFds}
    (running : (s.readSlot mountPoint).halted = false) :
    (freeHandle s h mountPoint).handles =
      Function.update s.handles h
        { s.handles h with type := .none, ownerMount := 0xFF, data := none } := by
  rw [freeHandle_of_running running]
  simp only [XfsState.setHandle, sameTables_beforeReset.handles]

/-- One turn of the loop. -/
theorem closed_freeHandle (owned : Owned s) (running : s.halted = false) {h : Fin xfsMaxFds}
    (live : (s.handles h).type ≠ .none) (owner : (s.handles h).ownerMount.toNat = mp) :
    Closed mp [h] s (freeHandle s h (UInt8.ofNat mp)) := by
  have directed : UInt8.ofNat mp = (s.handles h).ownerMount :=
    UInt8.toNat_inj.mp ((toNat_ofNat_mount mp).trans owner.symm)
  have inTable : (UInt8.ofNat mp).toNat < xfsMaxMounts := (toNat_ofNat_mount mp).symm ▸ mp.isLt
  have readable : (s.readSlot (UInt8.ofNat mp)).halted = false := by
    rw [halted_readSlot running, decide_eq_true inTable]
    rfl
  have handles := @handles_freeHandle s (UInt8.ofNat mp) h readable
  refine ⟨mounts_freeHandle, owned_freeHandle owned, halted_freeHandle running inTable,
    ⟨fun ok => (allOk_of_freeHandle ok).1,
      fun ok => allOk_freeHandle_owner owned ok running live directed⟩, ?_, ?_⟩
  · intro h' live'
    rcases eq_or_ne h' h with rfl | other
    · simp [handles] at live'
    · rw [handles, Function.update_of_ne other]
  · intro h' member
    obtain rfl : h' = h := by simpa using member
    simp [handles]

theorem closed_foldl (owned : Owned s) (running : s.halted = false) (hs : List (Fin xfsMaxFds)) :
    Closed mp hs s (hs.foldl
      (fun s hi =>
        if (s.handles hi).type ≠ .none ∧ (s.handles hi).ownerMount.toNat = mp then
          freeHandle s hi (UInt8.ofNat mp)
        else s) s) := by
  induction hs generalizing s with
  | nil => exact ⟨rfl, owned, running, Iff.rfl, fun _ _ => rfl, by simp⟩
  | cons h hs ih =>
    have first : Closed mp [h] s
        (if (s.handles h).type ≠ .none ∧ (s.handles h).ownerMount.toNat = mp then
          freeHandle s h (UInt8.ofNat mp) else s) := by
      split
      · rename_i here
        exact closed_freeHandle owned running here.1 here.2
      · rename_i here
        refine ⟨rfl, owned, running, Iff.rfl, fun _ _ => rfl, fun h' member live owner => ?_⟩
        obtain rfl : h' = h := by simpa using member
        exact here ⟨live, owner⟩
    rw [List.foldl_cons]
    have rest := ih first.owned first.running
    refine ⟨rest.mounts.trans first.mounts, rest.owned, rest.running,
      rest.allOk.trans first.allOk, ?_, ?_⟩
    · intro h' live
      have same := rest.kept h' live
      rw [same, first.kept h' (same ▸ live)]
    · intro h' member live
      rcases List.mem_cons.mp member with rfl | member
      · have same := rest.kept h' live
        rw [same]
        exact first.closed h' (List.mem_singleton_self _) (same ▸ live)
      · exact rest.closed h' member live

/-- Emptying a slot after its engine has unmounted. -/
theorem served_unmount (owned : Owned s) (running : s.halted = false)
    (mounted : (s.mounts mp).engine.isSome) :
    Served s ((engineUnmount s mp).setMount mp {}) True ∧
      ((engineUnmount s mp).setMount mp {}).halted = false := by
  have data := owned.mountData mp mounted
  have closed : Closed mp (List.finRange xfsMaxFds) s (xfsCloseHandlesForMount s mp) :=
    closed_foldl owned running _
  have unmounted : engineUnmount s mp =
      (xfsCloseHandlesForMount s mp).setMount mp
        { (xfsCloseHandlesForMount s mp).mounts mp with mountData := none } := by
    unfold engineUnmount
    rw [if_neg]
    rintro ⟨-, absent⟩
    simp [absent] at data
  rw [unmounted]
  generalize xfsCloseHandlesForMount s mp = t at closed
  have emptied : Owned (t.setMount mp {}) :=
    closed.owned.setMount (by simp) fun h => closed.closed h (List.mem_finRange h)
  have again : (t.setMount mp { t.mounts mp with mountData := none }).setMount mp {} =
      t.setMount mp {} := by
    simp only [XfsState.setMount, Function.update_idem]
  rw [again]
  exact ⟨⟨emptied, closed.allOk.trans (and_iff_left True.intro).symm⟩, closed.running⟩

theorem served_xfsHandleUmount (owned : Owned s) (running : s.halted = false) (r : XfsRequest) :
    Served s (xfsHandleUmount s r) True := by
  have unchanged : Served s s True := .refl owned True.intro
  unfold xfsHandleUmount
  split
  · exact unchanged.fail _
  split
  · exact ⟨⟨owned.mountData, owned.handles⟩, unchanged.allOk⟩
  · rename_i mounted
    have done := (served_unmount owned running (Option.isSome_iff_ne_none.mpr
      (by simpa using mounted))).1
    exact ⟨⟨done.owned.mountData, done.owned.handles⟩, done.allOk⟩

/-- An empty slot may be emptied again. -/
theorem served_freeSlot (owned : Owned s) (running : s.halted = false) :
    Served s (freeSlot s mp) True ∧ (freeSlot s mp).halted = false := by
  unfold freeSlot
  dsimp only
  split
  · rename_i mounted
    obtain ⟨done, alive⟩ := served_unmount owned running mounted
    exact ⟨⟨⟨done.owned.mountData, done.owned.handles⟩, done.allOk⟩, alive⟩
  · rename_i empty
    have emptied : Owned (s.setMount mp {}) := by
      refine owned.setMount (by simp) fun h live owner => ?_
      have here := owned.handles h
      rw [HandleOwned, if_neg live] at here
      obtain ⟨mp', engine, owner', mounted, -⟩ := here
      obtain rfl : mp' = mp := Fin.ext (owner'.symm.trans owner)
      simp [mounted] at empty
    exact ⟨⟨⟨emptied.mountData, emptied.handles⟩, Iff.symm (and_iff_left True.intro)⟩, running⟩

theorem served_xfsFree (owned : Owned s) (running : s.halted = false) :
    Served s (xfsFree s) True := by
  have slots : ∀ (mps : List (Fin xfsMaxMounts)) (t : XfsState), Owned t → t.halted = false →
      Served t (mps.foldl freeSlot t) True := by
    intro mps
    induction mps with
    | nil => exact fun t ownedT _ => .refl ownedT True.intro
    | cons mp mps ih =>
      intro t ownedT runningT
      obtain ⟨first, alive⟩ := @served_freeSlot t mp ownedT runningT
      have rest := ih (freeSlot t mp) first.owned alive
      exact ⟨rest.owned, rest.allOk.trans (by simp [first.allOk])⟩
  have done := slots (List.finRange xfsMaxMounts) s owned running
  exact ⟨⟨done.owned.mountData, fun _ => rfl⟩, done.allOk⟩

end Mount

/-! ## Runs -/

theorem owned_init : Owned {} :=
  ⟨by simp, fun _ => rfl⟩

/-- One action keeps ownership, and its accesses are right exactly when it is
well directed. -/
theorem served_xfsStep {s t : XfsState} {act : XfsAction} (owned : Owned s)
    (step : xfsStep s act = some t) : Served s t (WellDirected s act) := by
  cases act with
  | free =>
    simp only [xfsStep, Option.ite_none_left_eq_some] at step
    obtain ⟨alive, rfl⟩ : s.halted = false ∧ xfsFree s = t := by simpa using step
    exact served_xfsFree owned alive
  | command r =>
    simp only [xfsStep, Option.ite_none_left_eq_some] at step
    obtain ⟨running, rfl⟩ : s.halted = false ∧ xfsHandleCommand s r = t := by simpa using step
    have busy : Owned { s with result := 0, status := .busy } := ⟨owned.mountData, owned.handles⟩
    simp only [xfsHandleCommand, WellDirected]
    generalize r.command = command
    cases command with
    | mount protocol hostname path username password =>
      have served := served_xfsHandleMount busy r protocol hostname path
        [protocol, hostname, path, username, password]
      exact ⟨served.owned, served.allOk⟩
    | umount =>
      have served := served_xfsHandleUmount busy running r
      exact ⟨served.owned, served.allOk⟩
    | «open» path flags =>
      have served := served_openHandle busy running r (show XfsHandleType.file ≠ .none by decide)
        path (fun resolved => .open resolved (xfsOpenFlags flags))
        (show KeepsOwner fun _ h => h from fun _ _ => ⟨rfl, rfl, rfl⟩)
      exact ⟨served.owned, served.allOk⟩
    | read size =>
      have served := served_handleTransfer busy r (.read size)
      exact ⟨served.owned, served.allOk⟩
    | write size =>
      have served := served_handleTransfer busy r (.write size)
      exact ⟨served.owned, served.allOk⟩
    | close =>
      have served := served_xfsHandleClose busy running r
      exact ⟨served.owned, served.allOk⟩
    | opendir path =>
      have served := served_openHandle busy running r (show XfsHandleType.dir ≠ .none by decide)
        path .opendir
        (show KeepsOwner fun resolved h =>
          { h with dirPosition := 0, dirPath := resolved.take (xfsPathMax - 1) } from
          fun _ _ => ⟨rfl, rfl, rfl⟩)
      exact ⟨served.owned, served.allOk⟩
    | readdir position operation =>
      have served := served_xfsHandleReaddir busy r position operation
      exact ⟨served.owned, served.allOk⟩
    | closedir =>
      have served := served_xfsHandleClosedir busy r
      exact ⟨served.owned, served.allOk⟩
    | lseek offset whence =>
      have served := served_xfsHandleLseek busy r offset whence
      exact ⟨served.owned, served.allOk⟩

/-- In every run, with any register contents: a live handle belongs to a mounted
slot and to the mount that opened it; and every slot index and every engine call
was right exactly when each action of the run was well directed. -/
theorem xfsStep_ownership_iff (acts : List XfsAction) (s : XfsState)
    (run : Runs xfsStep anyStep {} acts s) :
    Owned s ∧ (AllOk s ↔ Runs xfsStep WellDirected {} acts s) := by
  refine run.exact owned_init (fun event member => by cases member) ?_
  intro state act next owned step
  have served := served_xfsStep owned step
  exact ⟨served.owned, served.allOk⟩

/-- A ram mount in slot 0 and an https mount in slot 1, and a file opened on the
first. -/
def twoMounts : List XfsAction :=
  [.command { command := .mount (bytes "xfs") (bytes "ram") (bytes "/") [] [] },
    .command { command := .mount (bytes "https") (bytes "host") (bytes "/") [] [],
               mountPoint := 1 },
    .command { command := .open (bytes "/a") 1 }]

/-- A read of the file through its own mount. -/
def readOwner : XfsAction :=
  .command { command := .read 16, fileHandle := 1 }

/-- A read of the file with the other mount in the register. -/
def readOther : XfsAction :=
  .command { command := .read 16, fileHandle := 1, mountPoint := 1 }

theorem xfsStep_ownership_two_mounts :
    ∃ s, (twoMounts ++ [readOwner]).foldlM xfsStep {} = some s ∧
      Owned s ∧ (AllOk s ↔ Runs xfsStep WellDirected {} (twoMounts ++ [readOwner]) s) := by
  obtain ⟨s, eval⟩ := Option.isSome_iff_exists.mp
    (show ((twoMounts ++ [readOwner]).foldlM xfsStep {}).isSome by decide)
  exact ⟨s, eval, xfsStep_ownership_iff _ s (Runs.of_foldlM eval)⟩

/-- Reading a handle through another mount hands it to the other engine. -/
theorem xfsStep_other_engine :
    ¬ ∀ (acts : List XfsAction) (s : XfsState), Runs xfsStep anyStep {} acts s →
      AllOk s ∧ Owned s := by
  intro always
  have wrong : ∃ t ∈ (twoMounts ++ [readOther]).foldlM xfsStep {}, ¬ AllOk t := by decide
  obtain ⟨s, eval, bad⟩ := wrong
  exact bad (always _ s (Runs.of_foldlM eval)).1

end FuseX.Xfs
