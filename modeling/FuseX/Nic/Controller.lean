import Mathlib.Data.Fin.Basic
import Mathlib.Logic.Function.Basic

/-!
# The Spectranext controller mailbox

The job slots of `controller_job.c` and the register page of
`spectranext_controller.c`, as the emulation thread and the workers step through
their critical sections.

* a Z80 access is three polls (`update_controller_jobs`), and then the access
  itself: each is a step of its own, between which a worker may finish;
* `jobs[0]` and `jobs[1]` stand in their channels, `jobs[2]` is `background`;
* every command handed to `spectranext_controller_process_command` gets a number;
  `accepted`, `executed` and `published` record what became of it.
-/

namespace FuseX.Nic

/-! ## Registers -/

/-- `SPECTRANEXT_STATUS_*`. -/
def statusInProgress : UInt8 := 0xFF
def statusSuccess : UInt8 := 0
def statusError : UInt8 := 1

/-- `SPECTRANEXT_CMD_REG_IDLE`. -/
def cmdRegIdle : UInt8 := 0xFF

/-- `SPECTRANEXT_CONTROLLER_CODE_SIZE` and `SPECTRANEXT_CONTROLLER_WORKSPACE_SIZE`. -/
def controllerCodeSize : Nat := 0x800
def workspaceSize : Nat := 0x3FC

/-- The offsets of the two channels in `struct spectranext_controller_t`. -/
def workspaceOffset (c : Fin 2) : Nat := if c = 0 then 0x800 else 0xC00
def commandOffset (c : Fin 2) : Nat := if c = 0 then 0xFFE else 0xFFC
def statusOffset (c : Fin 2) : Nat := if c = 0 then 0xFFF else 0xFFD

def firstChannel : Fin 2 := 0

/-- The channel whose job a write at `offset` is checked against. -/
def channelOf (offset : Nat) : Fin 2 :=
  if 0xC00 ≤ offset ∧ offset < 0xFFE then 1 else 0

/-- The controller page. -/
abbrev Registers : Type := Nat → UInt8

/-- The bytes of a workspace. -/
abbrev Workspace : Type := Fin workspaceSize → UInt8

def readWorkspace (registers : Registers) (c : Fin 2) : Workspace :=
  fun i => registers (workspaceOffset c + i)

/-- The `memcpy` into a channel's workspace. -/
def writeWorkspace (registers : Registers) (c : Fin 2) (workspace : Workspace) : Registers :=
  fun offset =>
    if inside : offset - workspaceOffset c < workspaceSize ∧ workspaceOffset c ≤ offset then
      workspace ⟨offset - workspaceOffset c, inside.1⟩
    else registers offset

/-! ## Jobs -/

/-- `struct controller_job`; the job of a channel always runs
`execute_request` on the channel's request. -/
structure ControllerJob : Type where
  created : Bool := false
  running : Bool := false
  completed : Bool := false
  deriving DecidableEq, Repr

/-- `controller_job_start`; `threadOk` is the outcome of `pthread_create`. -/
def controllerJobStart (job : ControllerJob) (threadOk : Bool) : Option ControllerJob :=
  if job.running || job.completed then none
  else if !job.created && !threadOk then none
  else some { job with created := true, running := true }

/-- `controller_job_poll`: the completion flag, and the job without it. -/
def controllerJobPoll (job : ControllerJob) : Bool × ControllerJob :=
  (job.completed, { job with completed := false })

/-- The end of one turn of `worker`. -/
def workerFinish (job : ControllerJob) : ControllerJob :=
  { job with running := false, completed := true }

/-! ## Channels -/

/-- `struct controller_request`, with the number of its command. -/
structure ControllerRequest : Type where
  number : Nat := 0
  workspace : Workspace := fun _ => 0
  command : UInt8 := 0
  status : UInt8 := 0
  channel : Fin 2 := 0
  defaultMount : UInt8 := 0

/-- What a worker made of a command. -/
structure Response : Type where
  number : Nat
  workspace : Workspace
  status : UInt8

def ControllerRequest.response (request : ControllerRequest) : Response :=
  ⟨request.number, request.workspace, request.status⟩

structure Channel : Type where
  request : ControllerRequest := {}
  job : ControllerJob := {}
  accepted : List Nat := []
  executed : List Response := []
  published : List Response := []
  /-- The Z80 itself stored the byte that is in the status register. -/
  statusFromZ80 : Bool := false

namespace Channel

/-- The job is collected. -/
def collect (ch : Channel) : Channel :=
  { ch with job := (controllerJobPoll ch.job).2 }

/-- The job is collected and its response published. -/
def publish (ch : Channel) : Channel :=
  { ch.collect with
    published := ch.published ++ [ch.request.response]
    statusFromZ80 := false }

/-- A new request whose job was started. -/
def accept (ch : Channel) (request : ControllerRequest) (job : ControllerJob) : Channel :=
  { ch with
    request := request
    job := job
    accepted := ch.accepted ++ [request.number]
    statusFromZ80 := false }

/-- A new request whose job could not be started. -/
def refuse (ch : Channel) (request : ControllerRequest) : Channel :=
  { ch with request := request, statusFromZ80 := false }

/-- The Z80 stores into the status register. -/
def storeStatus (ch : Channel) : Channel :=
  { ch with statusFromZ80 := true }

/-- The worker ends its turn with this response in the request. -/
def finish (ch : Channel) (request : ControllerRequest) : Channel :=
  { ch with
    request := request
    job := workerFinish ch.job
    executed := ch.executed ++ [request.response] }

end Channel

/-- An access by the Z80, with its address. -/
inductive Access : Type
  | read (address : UInt16)
  | write (address : UInt16) (b : UInt8)
  deriving DecidableEq, Repr

/-- Where an address lies in the controller page. -/
def pageOffset (address : UInt16) : Nat :=
  (address &&& 0xfff).toNat

/-- The emulation thread: between accesses, before the poll of a job, or behind
the polls. -/
inductive EmulationThread : Type
  | idle
  | polling (access : Access) (job : Fin 3)
  | accessing (access : Access)
  deriving DecidableEq, Repr

structure Controller : Type where
  registers : Registers
  channels : Fin 2 → Channel := fun _ => {}
  background : ControllerJob := {}
  thread : EmulationThread := .idle
  nextNumber : Nat := 0
  lastRead : UInt8 := 0

/-- The state `spectranext_controller_init` leaves. -/
def controllerInit : Controller where
  registers := fun offset =>
    if offset = commandOffset 0 ∨ offset = commandOffset 1 then cmdRegIdle
    else if offset = statusOffset 0 ∨ offset = statusOffset 1 then statusSuccess
    else 0

namespace Controller

def setChannel (s : Controller) (c : Fin 2) (channel : Channel) : Controller :=
  { s with channels := Function.update s.channels c channel }

def setRegister (s : Controller) (offset : Nat) (value : UInt8) : Controller :=
  { s with registers := Function.update s.registers offset value }

def setStatus (s : Controller) (c : Fin 2) (status : UInt8) : Controller :=
  s.setRegister (statusOffset c) status

end Controller

/-! ## Steps -/

/-- The command is one of the matchmaking commands and left the match connected. -/
def wantsHousekeeping (request : ControllerRequest) : Bool :=
  16 ≤ request.command && request.command ≤ 20 && request.workspace ⟨0, by decide⟩ == 3

/-- One channel of `update_controller_jobs`: collect its job, publish the
response, and start housekeeping behind it. -/
def pollChannel (s : Controller) (c : Fin 2) (threadOk : Bool) : Controller :=
  let channel := s.channels c
  if channel.job.completed then
    let request := channel.request
    let s := s.setChannel c channel.publish
    let s := { s with registers := writeWorkspace s.registers c request.workspace }
    let s := s.setStatus c request.status
    if wantsHousekeeping request then
      { s with background := (controllerJobStart s.background threadOk).getD s.background }
    else s
  else s

/-- The request `spectranext_controller_process_command` fills in. -/
def newRequest (s : Controller) (c : Fin 2) (defaultMount : UInt8) : ControllerRequest where
  number := s.nextNumber
  workspace := readWorkspace s.registers c
  command := s.registers (commandOffset c)
  status := statusInProgress
  channel := c
  defaultMount := defaultMount

/-- `spectranext_controller_process_command`; `defaultMount` is the byte it reads
from Spectranet RAM. -/
def processCommand (s : Controller) (c : Fin 2) (threadOk : Bool) (defaultMount : UInt8) :
    Controller :=
  let channel := s.channels c
  let request := newRequest s c defaultMount
  let s := { s with nextNumber := s.nextNumber + 1 }
  let s := s.setRegister (commandOffset c) cmdRegIdle
  match controllerJobStart channel.job threadOk with
  | some job => (s.setChannel c (channel.accept request job)).setStatus c statusInProgress
  | none => (s.setChannel c (channel.refuse request)).setStatus c statusError

/-- The write stores a command byte in an idle command register. -/
def Submits (s : Controller) (c : Fin 2) (offset : Nat) (b : UInt8) : Prop :=
  offset = commandOffset c ∧ s.registers offset = cmdRegIdle ∧ b ≠ cmdRegIdle

instance (s : Controller) (c : Fin 2) (offset : Nat) (b : UInt8) : Decidable (Submits s c offset b) :=
  inferInstanceAs (Decidable (_ ∧ _ ∧ _))

/-- The Z80 stores a byte; a status register then holds what the Z80 stored. -/
def storeByte (s : Controller) (offset : Nat) (b : UInt8) : Controller :=
  let c := channelOf offset
  let s := s.setRegister offset b
  if offset = statusOffset c then s.setChannel c (s.channels c).storeStatus else s

/-- `spectranext_controller_write` behind its update. -/
def controllerWrite (s : Controller) (offset : Nat) (b : UInt8) (threadOk : Bool)
    (defaultMount : UInt8) : Controller :=
  if offset < controllerCodeSize then s
  else
    let c := channelOf offset
    if (s.channels c).job.running then s
    else if Submits s c offset b then processCommand (storeByte s offset b) c threadOk defaultMount
    else storeByte s offset b

/-- Both polls of `spectranet_reset`. -/
def collectAll (s : Controller) : Controller :=
  { s with channels := fun c => (s.channels c).collect }

inductive ControllerAct : Type
  | startAccess (access : Access)
  | poll (threadOk : Bool)
  | access (threadOk : Bool) (defaultMount : UInt8)
  | finish (c : Fin 2) (workspace : Workspace) (success : Bool)
  | finishBackground
  | reset

/-- What `execute_request` leaves in the request: every command ends with success
or error. -/
def executeRequest (request : ControllerRequest) (workspace : Workspace) (success : Bool) :
    ControllerRequest :=
  { request with workspace := workspace, status := if success then statusSuccess else statusError }

/-- The poll of one job. -/
def pollJob (s : Controller) (job : Fin 3) (threadOk : Bool) : Controller :=
  match job with
  | 0 => pollChannel s 0 threadOk
  | 1 => pollChannel s 1 threadOk
  | 2 => { s with background := (controllerJobPoll s.background).2 }

/-- `update_controller_jobs` polls the background job, then the channels. -/
def nextPoll (access : Access) : Fin 3 → EmulationThread
  | 2 => .polling access 0
  | 0 => .polling access 1
  | 1 => .accessing access

/-- One step of the emulation thread or of a worker, where it can take it. A reset
goes on when no job is running. -/
def controllerStep (s : Controller) : ControllerAct → Option Controller
  | .startAccess access =>
      if s.thread = .idle then some { s with thread := .polling access 2 } else none
  | .poll threadOk =>
      match s.thread with
      | .polling access job => some { pollJob s job threadOk with thread := nextPoll access job }
      | .idle | .accessing _ => none
  | .access threadOk defaultMount =>
      match s.thread with
      | .accessing (.read address) =>
          some { s with lastRead := s.registers (pageOffset address), thread := .idle }
      | .accessing (.write address b) =>
          some { controllerWrite s (pageOffset address) b threadOk defaultMount with
            thread := .idle }
      | .idle | .polling _ _ => none
  | .finish c workspace success =>
      let channel := s.channels c
      if channel.job.running then
        some (s.setChannel c (channel.finish (executeRequest channel.request workspace success)))
      else none
  | .finishBackground =>
      if s.background.running then some { s with background := workerFinish s.background }
      else none
  | .reset =>
      if s.thread = .idle ∧ (∀ c, (s.channels c).job.running = false) ∧
          s.background.running = false then
        some (collectAll s)
      else none

end FuseX.Nic
