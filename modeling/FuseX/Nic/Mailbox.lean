import FuseX.Lib.Runs
import FuseX.Nic.Controller
import Mathlib.Data.List.Nodup

/-!
# The mailbox protocol

What becomes of a command handed to the controller, in every interleaving of
accesses, polls, worker steps and resets.

* `ChannelOk` is the statement about one channel;
* `ChannelMove` is what a step can do to a channel. Two moves lose a command that
  has completed: a submission that finds it uncollected, and a reset;
* `Ledger` holds as long as no command is lost (`Kept`), and `mailbox_iff` proves
  that a run is right exactly when none of its steps loses a command.
-/

namespace FuseX.Nic

open Lib

/-! ## Statements -/

namespace Channel

def executedNumbers (ch : Channel) : List Nat := ch.executed.map (·.number)

def publishedNumbers (ch : Channel) : List Nat := ch.published.map (·.number)

/-- The command that is with the worker, or completed and not published. -/
def outstanding (ch : Channel) : List Nat :=
  if ch.job.running || ch.job.completed then [ch.request.number] else []

end Channel

/-- One channel and its status register. -/
structure ChannelOk (status : UInt8) (ch : Channel) : Prop where
  /-- An accepted command has been executed once and published once, or it is the
  request of the channel, executed once if it has completed, and not published. -/
  once : ∀ n ∈ ch.accepted,
    ch.executedNumbers.count n = 1 ∧ ch.publishedNumbers.count n = 1 ∨
      ch.request.number = n ∧ ch.publishedNumbers.count n = 0 ∧
        (ch.job.running = true ∧ ch.executedNumbers.count n = 0 ∨
          ch.job.completed = true ∧ ch.executedNumbers.count n = 1)
  /-- What is published is what the worker made of that command. -/
  belongs : ∀ r ∈ ch.published, r ∈ ch.executed ∧ r.number ∈ ch.accepted
  executed : ∀ r ∈ ch.executed, r.number ∈ ch.accepted
  /-- A command is accepted only when the earlier ones are published. -/
  inOrder : ∀ earlier last, ch.accepted = earlier ++ [last] →
    ∀ n ∈ earlier, n ∈ ch.publishedNumbers
  /-- The controller's status is in progress only while a job is running or
  completed. -/
  inProgress : status = statusInProgress →
    ch.job.running = true ∨ ch.job.completed = true ∨ ch.statusFromZ80 = true

/-- The mailbox of both channels. -/
def MailboxOk (s : Controller) : Prop :=
  ∀ c, ChannelOk (s.registers (statusOffset c)) (s.channels c)

/-- The step loses a completed command of the channel that has not been published:
a write submits another command after it, or a reset collects it. -/
def Loses (s : Controller) (c : Fin 2) : ControllerAct → Prop
  | .access _ _ =>
      ∃ address b, s.thread = .accessing (.write address b) ∧
        Submits s c (pageOffset address) b ∧ (s.channels c).job.completed = true
  | .reset => (s.channels c).job.completed = true
  | _ => False

/-- No step of the run loses a command. -/
def LosesNone (s : Controller) (act : ControllerAct) : Prop :=
  ∀ c, ¬ Loses s c act

/-! ## Invariants of a channel -/

/-- Numbers are given in order, and a job is not running and completed at once. -/
structure Numbered (next : Nat) (ch : Channel) : Prop where
  accepted : ∀ n ∈ ch.accepted, n < next
  exclusive : ch.job.running = true → ch.job.completed = false

/-- No accepted command is lost. -/
def Kept (ch : Channel) : Prop :=
  ∀ n ∈ ch.accepted, n ∈ ch.publishedNumbers ∨ n ∈ ch.outstanding

/-- The books of a channel that lost nothing. -/
structure Ledger (status : UInt8) (ch : Channel) : Prop where
  accepted : ch.accepted = ch.publishedNumbers ++ ch.outstanding
  executed : ch.executed =
    ch.published ++ if ch.job.completed then [ch.request.response] else []
  nodup : ch.accepted.Nodup
  ended : ch.job.completed = true → ch.request.status ≠ statusInProgress
  inProgress : status = statusInProgress →
    ch.job.running = true ∨ ch.job.completed = true ∨ ch.statusFromZ80 = true

theorem ChannelOk.kept {status : UInt8} {ch : Channel} (ok : ChannelOk status ch) : Kept ch := by
  intro n accepted
  rcases ok.once n accepted with ⟨-, published⟩ | ⟨number, -, job⟩
  · left
    apply List.count_pos_iff.mp
    omega
  · right
    rcases job with ⟨running, -⟩ | ⟨completed, -⟩
    · simp [Channel.outstanding, running, number]
    · simp [Channel.outstanding, completed, number]

theorem Ledger.executedNumbers {status : UInt8} {ch : Channel} (ledger : Ledger status ch) :
    ch.executedNumbers =
      ch.publishedNumbers ++ if ch.job.completed then [ch.request.number] else [] := by
  rw [Channel.executedNumbers, ledger.executed, List.map_append, Channel.publishedNumbers]
  split <;> rfl

/-- What the books say about the command that is not published. -/
theorem Ledger.outstanding_cases {status : UInt8} {ch : Channel} (ledger : Ledger status ch)
    {n : Nat} (unpublished : n ∈ ch.outstanding) :
    n = ch.request.number ∧ n ∉ ch.publishedNumbers ∧
      (ch.job.running = true ∨ ch.job.completed = true) := by
  have nodup := ledger.nodup
  rw [ledger.accepted] at nodup
  have apart : n ∉ ch.publishedNumbers := fun published =>
    (List.disjoint_of_nodup_append nodup) published unpublished
  unfold Channel.outstanding at unpublished
  split at unpublished
  · rename_i busy
    exact ⟨List.mem_singleton.mp unpublished, apart, by simpa using busy⟩
  · cases unpublished

theorem Ledger.channelOk {status : UInt8} {ch : Channel} {next : Nat}
    (ledger : Ledger status ch) (numbered : Numbered next ch) : ChannelOk status ch := by
  have executedNumbers := ledger.executedNumbers
  have nodup := ledger.nodup
  rw [ledger.accepted] at nodup
  have published := (List.nodup_append.mp nodup).1
  refine ⟨?_, ?_, ?_, ?_, ledger.inProgress⟩
  · intro n accepted
    rw [ledger.accepted] at accepted
    rcases List.mem_append.mp accepted with member | member
    · have different : ¬ (ch.job.completed = true ∧ ch.request.number = n) := by
        rintro ⟨completed, rfl⟩
        have busy : ch.request.number ∈ ch.outstanding := by
          simp [Channel.outstanding, completed]
        exact (ledger.outstanding_cases busy).2.1 member
      have once := List.count_eq_one_of_mem published member
      refine .inl ⟨?_, once⟩
      rw [executedNumbers, List.count_append, once]
      split
      · rename_i completed
        rw [List.count_singleton, if_neg (by simpa [completed] using different)]
      · rfl
    · obtain ⟨rfl, unpublished, busy⟩ := ledger.outstanding_cases member
      have never := List.count_eq_zero.mpr unpublished
      refine .inr ⟨rfl, never, ?_⟩
      rcases busy with running | completed
      · refine .inl ⟨running, ?_⟩
        rw [executedNumbers, numbered.exclusive running]
        simpa using never
      · refine .inr ⟨completed, ?_⟩
        rw [executedNumbers, completed]
        simpa using never
  · intro r member
    refine ⟨?_, ?_⟩
    · rw [ledger.executed]
      exact List.mem_append_left _ member
    · rw [ledger.accepted]
      exact List.mem_append_left _ (List.mem_map_of_mem member)
  · intro r member
    rw [ledger.executed] at member
    rw [ledger.accepted]
    rcases List.mem_append.mp member with member | member
    · exact List.mem_append_left _ (List.mem_map_of_mem member)
    · split at member
      · rename_i completed
        obtain rfl := List.mem_singleton.mp member
        apply List.mem_append_right
        simp [Channel.outstanding, completed, ControllerRequest.response]
      · cases member
  · intro earlier last accepted n member
    have whole := ledger.accepted
    rw [accepted] at whole
    unfold Channel.outstanding at whole
    split at whole
    · rw [← (List.append_inj' whole rfl).1]
      exact member
    · rw [List.append_nil] at whole
      rw [← whole]
      exact List.mem_append_left _ member

/-! ## Moves of a channel -/

/-- What a step can do to a channel whose status register holds `status`. `loses`
says whether it loses a completed command. -/
inductive ChannelMove (next : Nat) (status : UInt8) (ch : Channel) :
    Nat → UInt8 → Channel → Prop → Prop
  | stay (next' : Nat) : next ≤ next' → ChannelMove next status ch next' status ch False
  | publish : ch.job.completed = true →
    ChannelMove next status ch next ch.request.status ch.publish False
  | accept (request : ControllerRequest) (job : ControllerJob) (threadOk : Bool) :
    request.number = next → controllerJobStart ch.job threadOk = some job →
    ChannelMove next status ch (next + 1) statusInProgress (ch.accept request job) False
  | refuse (request : ControllerRequest) : request.number = next → ch.job.running = false →
    ChannelMove next status ch (next + 1) statusError (ch.refuse request)
      (ch.job.completed = true)
  | store (b : UInt8) : ChannelMove next status ch next b ch.storeStatus False
  | finish (workspace : Workspace) (success : Bool) : ch.job.running = true →
    ChannelMove next status ch next status
      (ch.finish (executeRequest ch.request workspace success)) False
  | collect : ch.job.running = false →
    ChannelMove next status ch next status ch.collect (ch.job.completed = true)

/-- The channel's part of the run invariant. -/
structure ChannelInv (next : Nat) (status : UInt8) (ch : Channel) : Prop where
  numbered : Numbered next ch
  ledger : Kept ch → Ledger status ch

theorem Ledger.kept {status : UInt8} {ch : Channel} (ledger : Ledger status ch) : Kept ch := by
  intro n accepted
  rw [ledger.accepted] at accepted
  exact List.mem_append.mp accepted

theorem controllerJobStart_eq_some {job job' : ControllerJob} {threadOk : Bool}
    (started : controllerJobStart job threadOk = some job') :
    job.running = false ∧ job.completed = false ∧ job'.running = true ∧ job'.completed = false := by
  unfold controllerJobStart at started
  split at started
  · cases started
  · rename_i free
    simp only [Bool.or_eq_true, not_or, Bool.not_eq_true] at free
    split at started
    · cases started
    · obtain rfl := Option.some.inj started
      exact ⟨free.1, free.2, rfl, free.2⟩

section Moves

variable {next : Nat} {status : UInt8} {ch ch' : Channel}

/-- Nothing is outstanding between two commands. -/
theorem outstanding_of_idle (stopped : ch.job.running = false)
    (collected : ch.job.completed = false) : ch.outstanding = [] := by
  simp [Channel.outstanding, stopped, collected]

theorem outstanding_of_running (running : ch.job.running = true) :
    ch.outstanding = [ch.request.number] := by
  simp [Channel.outstanding, running]

theorem outstanding_of_completed (completed : ch.job.completed = true) :
    ch.outstanding = [ch.request.number] := by
  simp [Channel.outstanding, completed]

theorem Numbered.stopped (numbered : Numbered next ch) (completed : ch.job.completed = true) :
    ch.job.running = false := by
  cases running : ch.job.running with
  | false => rfl
  | true => exact completed.symm.trans (numbered.exclusive running)

theorem Numbered.mono {next' : Nat} (numbered : Numbered next ch) (grows : next ≤ next') :
    Numbered next' ch :=
  ⟨fun n member => Nat.lt_of_lt_of_le (numbered.accepted n member) grows, numbered.exclusive⟩

/-- A command that is neither published nor outstanding any more is lost. -/
theorem not_kept_of_lost (ledger : Ledger status ch) (completed : ch.job.completed = true)
    (accepted : ch'.accepted = ch.accepted)
    (published : ch'.publishedNumbers = ch.publishedNumbers)
    (gone : ch.request.number ∉ ch'.outstanding) : ¬ Kept ch' := by
  intro kept
  have outstanding : ch.request.number ∈ ch.outstanding := by
    rw [outstanding_of_completed completed]
    exact List.mem_singleton_self _
  have member : ch.request.number ∈ ch'.accepted := by
    rw [accepted, ledger.accepted]
    exact List.mem_append_right _ outstanding
  rcases kept _ member with done | busy
  · rw [published] at done
    exact (ledger.outstanding_cases outstanding).2.1 done
  · exact gone busy

/-- A command lost before a move is lost behind it: what is published or
outstanding then was so before, or is a new command. -/
theorem kept_of_kept (numbered : Numbered next ch) (kept : Kept ch')
    (accepted : ch.accepted ⊆ ch'.accepted)
    (found : ∀ n, n ∈ ch'.publishedNumbers ∨ n ∈ ch'.outstanding →
      n ∈ ch.publishedNumbers ∨ n ∈ ch.outstanding ∨ n = next) : Kept ch := by
  intro n member
  rcases found n (kept n (accepted member)) with published | outstanding | rfl
  · exact .inl published
  · exact .inr outstanding
  · exact absurd (numbered.accepted _ member) (Nat.lt_irrefl _)

theorem publishedNumbers_publish :
    ch.publish.publishedNumbers = ch.publishedNumbers ++ [ch.request.number] := by
  simp [Channel.publishedNumbers, Channel.publish, ControllerRequest.response]

/-- Publishing empties the slot. -/
theorem inv_publish (inv : ChannelInv next status ch) (completed : ch.job.completed = true) :
    ChannelInv next ch.request.status ch.publish ∧ (Kept ch.publish ↔ Kept ch) := by
  have before := outstanding_of_completed completed
  have after : ch.publish.outstanding = [] :=
    outstanding_of_idle (inv.numbered.stopped completed) rfl
  have books : Kept ch → Ledger ch.request.status ch.publish := by
    intro kept
    have ledger := inv.ledger kept
    refine ⟨?_, ?_, ledger.nodup, nofun, fun busy => absurd busy (ledger.ended completed)⟩
    · rw [publishedNumbers_publish, after, List.append_nil, ← before]
      exact ledger.accepted
    · simpa [Channel.publish, Channel.collect, controllerJobPoll, completed] using ledger.executed
  have back : Kept ch.publish → Kept ch := by
    refine fun kept => kept_of_kept inv.numbered kept (fun _ member => member) ?_
    intro n found
    rw [publishedNumbers_publish, after] at found
    rcases found with published | none_
    · rw [List.mem_append, ← before] at published
      exact published.imp_right .inl
    · cases none_
  exact ⟨⟨⟨inv.numbered.accepted, fun _ => rfl⟩, fun kept => books (back kept)⟩, back,
    fun kept => (books kept).kept⟩

/-- A command is accepted into an empty slot. -/
theorem inv_accept (inv : ChannelInv next status ch) {request : ControllerRequest}
    {job : ControllerJob} {threadOk : Bool} (number : request.number = next)
    (started : controllerJobStart ch.job threadOk = some job) :
    ChannelInv (next + 1) statusInProgress (ch.accept request job) ∧
      (Kept (ch.accept request job) ↔ Kept ch) := by
  obtain ⟨stopped, collected, running, uncompleted⟩ := controllerJobStart_eq_some started
  have before := outstanding_of_idle stopped collected
  have after : (ch.accept request job).outstanding = [next] := by
    rw [outstanding_of_running running]
    exact congrArg (fun n => [n]) number
  have published : (ch.accept request job).publishedNumbers = ch.publishedNumbers := rfl
  have accepted : (ch.accept request job).accepted = ch.accepted ++ [next] := by
    rw [← number]
    rfl
  have books : Kept ch → Ledger statusInProgress (ch.accept request job) := by
    intro kept
    have ledger := inv.ledger kept
    refine ⟨?_, ?_, ?_, ?_, fun _ => .inl running⟩
    · rw [accepted, published, after, ledger.accepted, before, List.append_nil]
    · have executed := ledger.executed
      rw [collected] at executed
      simpa [Channel.accept, uncompleted] using executed
    · rw [accepted, List.nodup_append]
      refine ⟨ledger.nodup, by simp, ?_⟩
      intro n member m new
      rw [List.mem_singleton.mp new]
      exact Nat.ne_of_lt (inv.numbered.accepted n member)
    · intro completed
      exact absurd (completed.symm.trans uncompleted) nofun
  have back : Kept (ch.accept request job) → Kept ch := by
    intro kept
    apply kept_of_kept inv.numbered kept
    · rw [accepted]
      exact List.subset_append_left _ _
    · intro n found
      rw [published, after] at found
      exact found.imp_right fun new => .inr (List.mem_singleton.mp new)
  refine ⟨⟨⟨?_, fun _ => uncompleted⟩, fun kept => books (back kept)⟩, back,
    fun kept => (books kept).kept⟩
  intro n member
  rw [accepted] at member
  rcases List.mem_append.mp member with old | new
  · exact Nat.lt_succ_of_lt (inv.numbered.accepted n old)
  · rw [List.mem_singleton.mp new]
    exact Nat.lt_succ_self _

/-- A refused command replaces the request: harmless in an empty slot, and the loss
of the command that has completed in it otherwise. -/
theorem inv_refuse (inv : ChannelInv next status ch) {request : ControllerRequest}
    (number : request.number = next) (stopped : ch.job.running = false) :
    ChannelInv (next + 1) statusError (ch.refuse request) ∧
      (Kept (ch.refuse request) ↔ Kept ch ∧ ¬ ch.job.completed = true) := by
  have published : (ch.refuse request).publishedNumbers = ch.publishedNumbers := rfl
  have after : ∀ n ∈ (ch.refuse request).outstanding, n = next := by
    intro n member
    unfold Channel.outstanding at member
    split at member
    · exact (List.mem_singleton.mp member).trans number
    · cases member
  have back : Kept (ch.refuse request) → Kept ch := by
    refine fun kept => kept_of_kept inv.numbered kept (fun _ member => member) ?_
    intro n found
    rw [published] at found
    exact found.imp_right fun new => .inr (after n new)
  have safe : Kept (ch.refuse request) → ch.job.completed = false := by
    intro kept
    cases completed : ch.job.completed with
    | false => rfl
    | true =>
      have ledger := inv.ledger (back kept)
      refine absurd kept (not_kept_of_lost ledger completed rfl rfl fun again => ?_)
      have member : ch.request.number ∈ ch.accepted := by
        rw [ledger.accepted, outstanding_of_completed completed]
        exact List.mem_append_right _ (List.mem_singleton_self _)
      exact absurd (inv.numbered.accepted _ member) (after _ again ▸ Nat.lt_irrefl _)
  have books : Kept ch → ch.job.completed = false → Ledger statusError (ch.refuse request) := by
    intro kept collected
    have ledger := inv.ledger kept
    have executed := ledger.executed
    have accepted := ledger.accepted
    rw [collected] at executed
    rw [outstanding_of_idle stopped collected] at accepted
    have empty : (ch.refuse request).outstanding = [] := outstanding_of_idle stopped collected
    refine ⟨?_, ?_, ledger.nodup, ?_, nofun⟩
    · rw [empty]
      exact accepted
    · simpa [Channel.refuse, collected] using executed
    · intro completed
      exact absurd (completed.symm.trans collected) nofun
  refine ⟨⟨⟨?_, inv.numbered.exclusive⟩, fun kept => books (back kept) (safe kept)⟩, ?_, ?_⟩
  · exact fun n member => Nat.lt_succ_of_lt (inv.numbered.accepted n member)
  · exact fun kept => ⟨back kept, by simp [safe kept]⟩
  · rintro ⟨kept, collected⟩
    exact (books kept (by simpa using collected)).kept

/-- A store by the Z80 is not a status of the controller. -/
theorem inv_storeStatus (inv : ChannelInv next status ch) (b : UInt8) :
    ChannelInv next b ch.storeStatus ∧ (Kept ch.storeStatus ↔ Kept ch) := by
  refine ⟨⟨⟨inv.numbered.accepted, inv.numbered.exclusive⟩, fun kept => ?_⟩, Iff.rfl⟩
  have ledger := inv.ledger kept
  exact ⟨ledger.accepted, ledger.executed, ledger.nodup, ledger.ended, fun _ => .inr (.inr rfl)⟩

/-- The worker ends the command it has. -/
theorem inv_finish (inv : ChannelInv next status ch) (workspace : Workspace) (success : Bool)
    (running : ch.job.running = true) :
    ChannelInv next status (ch.finish (executeRequest ch.request workspace success)) ∧
      (Kept (ch.finish (executeRequest ch.request workspace success)) ↔ Kept ch) := by
  have outstanding : (ch.finish (executeRequest ch.request workspace success)).outstanding =
      ch.outstanding := by
    rw [outstanding_of_completed rfl, outstanding_of_running running]
    rfl
  have same : Kept (ch.finish (executeRequest ch.request workspace success)) ↔ Kept ch := by
    unfold Kept
    rw [outstanding]
    exact Iff.rfl
  refine ⟨⟨⟨inv.numbered.accepted, nofun⟩, fun kept => ?_⟩, same⟩
  have ledger := inv.ledger (same.mp kept)
  refine ⟨?_, ?_, ledger.nodup, ?_, fun _ => .inr (.inl rfl)⟩
  · rw [outstanding]
    exact ledger.accepted
  · have executed := ledger.executed
    rw [inv.numbered.exclusive running] at executed
    simpa [Channel.finish, workerFinish] using executed
  · intro _
    cases success with
    | false => exact show statusError ≠ statusInProgress by decide
    | true => exact show statusSuccess ≠ statusInProgress by decide

/-- Collecting without publishing is harmless in an empty slot, and the loss of the
command that has completed in it otherwise. -/
theorem inv_collect (inv : ChannelInv next status ch) (stopped : ch.job.running = false) :
    ChannelInv next status ch.collect ∧ (Kept ch.collect ↔ Kept ch ∧ ¬ ch.job.completed = true) := by
  have after : ch.collect.outstanding = [] := outstanding_of_idle stopped rfl
  have back : Kept ch.collect → Kept ch := by
    refine fun kept => kept_of_kept inv.numbered kept (fun _ member => member) ?_
    intro n found
    rw [after] at found
    exact found.imp_right nofun
  have safe : Kept ch.collect → ch.job.completed = false := by
    intro kept
    cases completed : ch.job.completed with
    | false => rfl
    | true =>
      refine absurd kept (not_kept_of_lost (inv.ledger (back kept)) completed rfl rfl ?_)
      rw [after]
      exact List.not_mem_nil
  have same : ch.job.completed = false → ch.collect = ch := by
    intro collected
    unfold Channel.collect controllerJobPoll
    rw [← collected]
  refine ⟨⟨⟨inv.numbered.accepted, fun _ => rfl⟩, fun kept => ?_⟩, ?_, ?_⟩
  · rw [same (safe kept)]
    exact inv.ledger (back kept)
  · exact fun kept => ⟨back kept, by simp [safe kept]⟩
  · rintro ⟨kept, collected⟩
    rwa [same (by simpa using collected)]

/-- A move keeps the invariant, and keeps every command unless it loses one. -/
theorem ChannelMove.inv {next' : Nat} {status' : UInt8} {loses : Prop}
    (move : ChannelMove next status ch next' status' ch' loses)
    (inv : ChannelInv next status ch) :
    ChannelInv next' status' ch' ∧ (Kept ch' ↔ Kept ch ∧ ¬ loses) := by
  have harmless : ∀ {p : Prop}, (p ↔ Kept ch) → (p ↔ Kept ch ∧ ¬ False) := fun same =>
    same.trans (and_iff_left not_false).symm
  cases move with
  | stay next' grows => exact ⟨⟨inv.numbered.mono grows, inv.ledger⟩, harmless Iff.rfl⟩
  | publish completed => exact (inv_publish inv completed).imp_right harmless
  | accept request job threadOk number started =>
    exact (inv_accept inv number started).imp_right harmless
  | refuse request number stopped => exact inv_refuse inv number stopped
  | store _ => exact (inv_storeStatus inv _).imp_right harmless
  | finish workspace success running =>
    exact (inv_finish inv workspace success running).imp_right harmless
  | collect stopped => exact inv_collect inv stopped

end Moves

/-! ## Steps move the channels -/

section Steps

variable {s t : Controller} {c : Fin 2} {threadOk : Bool}

/-- What a step does to channel `c`. -/
abbrev Moves (s t : Controller) (c : Fin 2) (loses : Prop) : Prop :=
  ChannelMove s.nextNumber (s.registers (statusOffset c)) (s.channels c)
    t.nextNumber (t.registers (statusOffset c)) (t.channels c) loses

theorem statusOffset_ne_commandOffset (c c' : Fin 2) : statusOffset c ≠ commandOffset c' := by
  revert c c'
  decide

theorem statusOffset_injective {c c' : Fin 2} (same : statusOffset c = statusOffset c') : c = c' := by
  revert c c'
  decide

theorem channelOf_statusOffset (c : Fin 2) : channelOf (statusOffset c) = c := by
  revert c
  decide

theorem channelOf_commandOffset (c : Fin 2) : channelOf (commandOffset c) = c := by
  revert c
  decide

theorem controllerCodeSize_le_commandOffset (c : Fin 2) : controllerCodeSize ≤ commandOffset c := by
  revert c
  decide

/-- The status registers lie outside of the workspaces. -/
theorem writeWorkspace_statusOffset (registers : Registers) (c c' : Fin 2)
    (workspace : Workspace) :
    writeWorkspace registers c workspace (statusOffset c') = registers (statusOffset c') := by
  have outside : ∀ c c' : Fin 2, ¬ (statusOffset c' - workspaceOffset c < workspaceSize ∧
      workspaceOffset c ≤ statusOffset c') := by decide
  exact dif_neg (outside c c')

/-- Other fields do not matter. -/
theorem Moves.of_eq {t' : Controller} {loses : Prop} (moves : Moves s t c loses)
    (next : t'.nextNumber = t.nextNumber) (registers : t'.registers = t.registers)
    (channels : t'.channels = t.channels) : Moves s t' c loses := by
  unfold Moves at moves ⊢
  rwa [next, registers, channels]

theorem moves_stay (next : s.nextNumber ≤ t.nextNumber)
    (status : t.registers (statusOffset c) = s.registers (statusOffset c))
    (channel : t.channels c = s.channels c) : Moves s t c False := by
  unfold Moves
  rw [status, channel]
  exact .stay _ next

theorem moves_pollChannel (c' : Fin 2) : Moves s (pollChannel s c' threadOk) c False := by
  unfold pollChannel
  dsimp only
  split
  · rename_i completed
    have published : Moves s
        ((({ s.setChannel c' (s.channels c').publish with
          registers := writeWorkspace s.registers c' (s.channels c').request.workspace } :
            Controller)).setStatus c' (s.channels c').request.status) c False := by
      rcases eq_or_ne c c' with rfl | other
      · have move := @ChannelMove.publish s.nextNumber (s.registers (statusOffset c))
          (s.channels c) completed
        simpa [Moves, Controller.setStatus, Controller.setRegister, Controller.setChannel] using move
      · have different : statusOffset c ≠ statusOffset c' :=
          fun same => other (statusOffset_injective same)
        refine moves_stay (Nat.le_refl s.nextNumber) ?_ ?_
        · simp only [Controller.setStatus, Controller.setRegister, Function.update_of_ne different,
            writeWorkspace_statusOffset]
        · simp only [Controller.setStatus, Controller.setRegister, Controller.setChannel,
            Function.update_of_ne other]
    split
    · exact published.of_eq rfl rfl rfl
    · exact published
  · exact moves_stay le_rfl rfl rfl

theorem moves_pollJob (job : Fin 3) : Moves s (pollJob s job threadOk) c False := by
  unfold pollJob
  split
  · exact moves_pollChannel 0
  · exact moves_pollChannel 1
  · exact moves_stay le_rfl rfl rfl

/-- A stored byte moves only the channel whose status register it goes to. -/
theorem moves_storeByte (offset : Nat) (b : UInt8) : Moves s (storeByte s offset b) c False := by
  unfold storeByte
  dsimp only
  rcases eq_or_ne offset (statusOffset c) with rfl | elsewhere
  · rw [channelOf_statusOffset, if_pos rfl]
    have move := @ChannelMove.store s.nextNumber (s.registers (statusOffset c)) (s.channels c) b
    simpa [Moves, Controller.setRegister, Controller.setChannel] using move
  · have status : (s.setRegister offset b).registers (statusOffset c) =
        s.registers (statusOffset c) := by
      simp only [Controller.setRegister, Function.update_of_ne elsewhere.symm]
    split
    · rename_i own
      have other : c ≠ channelOf offset := by
        rintro rfl
        exact elsewhere own
      refine moves_stay (Nat.le_refl s.nextNumber) status ?_
      simp only [Controller.setChannel, Controller.setRegister, Function.update_of_ne other]
    · exact moves_stay le_rfl status rfl

/-- A submitted command moves its channel to a new request, and no other. -/
theorem moves_processCommand (c' : Fin 2) (defaultMount : UInt8)
    (stopped : (s.channels c').job.running = false) :
    ∃ loses, Moves s (processCommand s c' threadOk defaultMount) c loses ∧
      (loses ↔ c = c' ∧ (s.channels c').job.completed = true) := by
  unfold processCommand
  dsimp only
  have number : (newRequest s c' defaultMount).number = s.nextNumber := rfl
  generalize newRequest s c' defaultMount = request at number
  have command : statusOffset c ≠ commandOffset c' := statusOffset_ne_commandOffset c c'
  rcases eq_or_ne c c' with rfl | other
  · rcases started : controllerJobStart (s.channels c).job threadOk with _ | job
    · refine ⟨_, ?_, (and_iff_right rfl).symm⟩
      have move := @ChannelMove.refuse s.nextNumber (s.registers (statusOffset c)) (s.channels c)
        request number stopped
      simpa [Moves, Controller.setStatus, Controller.setRegister, Controller.setChannel] using move
    · refine ⟨False, ?_, ?_⟩
      · have move := @ChannelMove.accept s.nextNumber (s.registers (statusOffset c))
          (s.channels c) request job threadOk number started
        simpa [Moves, Controller.setStatus, Controller.setRegister, Controller.setChannel] using move
      · simp [(controllerJobStart_eq_some started).2.1]
  · have different : statusOffset c ≠ statusOffset c' :=
      fun same => other (statusOffset_injective same)
    refine ⟨False, ?_, by simp [other]⟩
    split
    all_goals
      refine moves_stay (Nat.le_succ _) ?_ ?_
      · simp only [Controller.setStatus, Controller.setRegister, Controller.setChannel,
          Function.update_of_ne different, Function.update_of_ne command]
      · simp only [Controller.setStatus, Controller.setRegister, Controller.setChannel,
          Function.update_of_ne other]

/-- A write loses a command exactly when it submits over a completed one. -/
theorem moves_controllerWrite (offset : Nat) (b : UInt8) (defaultMount : UInt8)
    (exclusive : (s.channels c).job.running = true → (s.channels c).job.completed = false) :
    ∃ loses, Moves s (controllerWrite s offset b threadOk defaultMount) c loses ∧
      (loses ↔ Submits s c offset b ∧ (s.channels c).job.completed = true) := by
  have unlost : ¬ (Submits s c offset b ∧ (s.channels c).job.completed = true) →
      (False ↔ Submits s c offset b ∧ (s.channels c).job.completed = true) := fun none_ =>
    (iff_false_intro none_).symm
  unfold controllerWrite
  split
  · rename_i code
    refine ⟨False, moves_stay le_rfl rfl rfl, unlost ?_⟩
    rintro ⟨⟨rfl, -⟩, -⟩
    exact absurd code (Nat.not_lt.mpr (controllerCodeSize_le_commandOffset c))
  dsimp only
  split
  · rename_i running
    refine ⟨False, moves_stay le_rfl rfl rfl, unlost ?_⟩
    rintro ⟨⟨rfl, -⟩, completed⟩
    rw [channelOf_commandOffset] at running
    exact absurd (completed.symm.trans (exclusive running)) nofun
  rename_i stopped
  split
  · rename_i submits
    -- the stored command byte does not touch the channels or the status registers
    have own : offset = commandOffset (channelOf offset) := submits.1
    have notStatus : ∀ c, offset ≠ statusOffset c := fun c => by
      rw [own]
      exact (statusOffset_ne_commandOffset c _).symm
    have stored : storeByte s offset b = s.setRegister offset b := by
      simp only [storeByte, notStatus, if_false]
    rw [stored]
    have idle : (s.channels (channelOf offset)).job.running = false := by simpa using stopped
    obtain ⟨loses, moves, exact_⟩ := @moves_processCommand (s.setRegister offset b) c threadOk
      (channelOf offset) defaultMount idle
    have status : (s.setRegister offset b).registers (statusOffset c) =
        s.registers (statusOffset c) := by
      simp only [Controller.setRegister, Function.update_of_ne (notStatus c).symm]
    refine ⟨loses, ?_, exact_.trans ?_⟩
    · unfold Moves at moves ⊢
      rw [status] at moves
      exact moves
    · constructor
      · rintro ⟨rfl, completed⟩
        exact ⟨submits, completed⟩
      · rintro ⟨⟨here, -⟩, completed⟩
        obtain rfl : channelOf offset = c := by rw [here, channelOf_commandOffset]
        exact ⟨rfl, completed⟩
  · rename_i plain
    refine ⟨False, moves_storeByte offset b, unlost ?_⟩
    rintro ⟨submits, -⟩
    obtain rfl : channelOf offset = c := by rw [submits.1, channelOf_commandOffset]
    exact plain submits

theorem moves_controllerStep {act : ControllerAct}
    (exclusive : (s.channels c).job.running = true → (s.channels c).job.completed = false)
    (step : controllerStep s act = some t) :
    ∃ loses, Moves s t c loses ∧ (loses ↔ Loses s c act) := by
  cases act with
  | startAccess access =>
    simp only [controllerStep, Option.ite_none_right_eq_some, Option.some.injEq] at step
    obtain ⟨-, rfl⟩ := step
    exact ⟨False, moves_stay le_rfl rfl rfl, Iff.rfl⟩
  | poll threadOk =>
    simp only [controllerStep] at step
    split at step
    · obtain rfl := Option.some.inj step
      exact ⟨False, (moves_pollJob _).of_eq rfl rfl rfl, Iff.rfl⟩
    · cases step
    · cases step
  | access threadOk defaultMount =>
    simp only [controllerStep] at step
    split at step
    · rename_i address thread
      obtain rfl := Option.some.inj step
      refine ⟨False, moves_stay le_rfl rfl rfl, iff_of_false id ?_⟩
      rintro ⟨address', b, thread', -⟩
      rw [thread] at thread'
      cases thread'
    · rename_i address b thread
      obtain rfl := Option.some.inj step
      obtain ⟨loses, moves, exact_⟩ := @moves_controllerWrite s c threadOk (pageOffset address) b
        defaultMount exclusive
      refine ⟨loses, moves.of_eq rfl rfl rfl, exact_.trans ?_⟩
      constructor
      · rintro ⟨submits, completed⟩
        exact ⟨address, b, thread, submits, completed⟩
      · rintro ⟨address', b', thread', submits, completed⟩
        rw [thread] at thread'
        cases thread'
        exact ⟨submits, completed⟩
    · cases step
    · cases step
  | finish c' workspace success =>
    simp only [controllerStep, Option.ite_none_right_eq_some, Option.some.injEq] at step
    obtain ⟨running, rfl⟩ := step
    refine ⟨False, ?_, Iff.rfl⟩
    rcases eq_or_ne c c' with rfl | other
    · have move := @ChannelMove.finish s.nextNumber (s.registers (statusOffset c)) (s.channels c)
        workspace success running
      simpa [Moves, Controller.setChannel] using move
    · refine moves_stay le_rfl rfl ?_
      simp only [Controller.setChannel, Function.update_of_ne other]
  | finishBackground =>
    simp only [controllerStep, Option.ite_none_right_eq_some, Option.some.injEq] at step
    obtain ⟨-, rfl⟩ := step
    exact ⟨False, moves_stay le_rfl rfl rfl, Iff.rfl⟩
  | reset =>
    simp only [controllerStep, Option.ite_none_right_eq_some, Option.some.injEq] at step
    obtain ⟨⟨-, stopped, -⟩, rfl⟩ := step
    exact ⟨_, .collect (stopped c), Iff.rfl⟩

end Steps

/-! ## Runs -/

/-- The invariant of a run: each channel keeps its books as long as it lost
nothing. -/
def ControllerInv (s : Controller) : Prop :=
  ∀ c, ChannelInv s.nextNumber (s.registers (statusOffset c)) (s.channels c)

theorem mailboxOk_iff {s : Controller} (inv : ControllerInv s) :
    MailboxOk s ↔ ∀ c, Kept (s.channels c) :=
  forall_congr' fun c =>
    ⟨ChannelOk.kept, fun kept => ((inv c).ledger kept).channelOk (inv c).numbered⟩

theorem controllerInv_init : ControllerInv controllerInit := by
  have idle : ∀ c, controllerInit.registers (statusOffset c) ≠ statusInProgress := by decide
  intro c
  refine ⟨⟨fun n member => absurd member List.not_mem_nil, fun _ => rfl⟩, fun _ => ?_⟩
  exact ⟨rfl, rfl, List.nodup_nil, nofun, fun busy => absurd busy (idle c)⟩

theorem controllerInv_step {s t : Controller} {act : ControllerAct} (inv : ControllerInv s)
    (step : controllerStep s act = some t) :
    ControllerInv t ∧ ((∀ c, Kept (t.channels c)) ↔
      (∀ c, Kept (s.channels c)) ∧ LosesNone s act) := by
  have each : ∀ c, ChannelInv t.nextNumber (t.registers (statusOffset c)) (t.channels c) ∧
      (Kept (t.channels c) ↔ Kept (s.channels c) ∧ ¬ Loses s c act) := by
    intro c
    obtain ⟨loses, moves, exact_⟩ := moves_controllerStep (inv c).numbered.exclusive step
    have here := moves.inv (inv c)
    rwa [exact_] at here
  refine ⟨fun c => (each c).1, ?_⟩
  rw [LosesNone, ← forall_and]
  exact forall_congr' fun c => (each c).2

/-- In every interleaving, the mailbox is right in the state reached exactly when no
step of the run lost a completed command. -/
theorem mailbox_iff (acts : List ControllerAct) (s : Controller)
    (run : Runs controllerStep anyStep controllerInit acts s) :
    MailboxOk s ↔ Runs controllerStep LosesNone controllerInit acts s := by
  have fresh : ∀ c, Kept (controllerInit.channels c) := fun c n member =>
    absurd member List.not_mem_nil
  obtain ⟨inv, exact_⟩ := run.exact controllerInv_init fresh
    fun _ _ _ inv step => controllerInv_step inv step
  exact (mailboxOk_iff inv).trans exact_

/-- A workspace of zeros. -/
def emptyWorkspace : Workspace := fun _ => 0

/-- The steps of one write by the Z80. -/
def writeSteps (address : UInt16) (b : UInt8) : List ControllerAct :=
  [.startAccess (.write address b), .poll true, .poll true, .poll true, .access true 0]

/-- A command on channel 0, executed and collected by the next access. -/
def submitAndCollect : List ControllerAct :=
  writeSteps 0x2FFE 0 ++ .finish firstChannel emptyWorkspace true ::
    [.startAccess (.read 0x2FFF), .poll true, .poll true, .poll true, .access true 0]

theorem mailbox_submit_and_collect :
    ∃ s, submitAndCollect.foldlM controllerStep controllerInit = some s ∧
      (MailboxOk s ↔ Runs controllerStep LosesNone controllerInit submitAndCollect s) :=
  ⟨_, rfl, mailbox_iff submitAndCollect _ (Runs.of_foldlM rfl)⟩

/-- A second command written while the first one completes between the poll of its
channel and the check of its job. -/
def submitOverCompleted : List ControllerAct :=
  writeSteps 0x2FFE 0 ++
    [.startAccess (.write 0x2FFE 7), .poll true, .poll true, .poll true,
      .finish firstChannel emptyWorkspace true, .access true 0]

/-- The first command is executed and never published. -/
theorem mailbox_lost_command :
    ¬ ∀ (acts : List ControllerAct) (s : Controller),
      Runs controllerStep anyStep controllerInit acts s → MailboxOk s := by
  intro always
  have ok := always submitOverCompleted _ (Runs.of_foldlM rfl) 0
  rcases ok.once 0 (List.mem_singleton_self 0) with ⟨-, published⟩ | ⟨number, -⟩
  · exact absurd published (by decide)
  · exact absurd number (by decide)

end FuseX.Nic
