import Mathlib.Algebra.Ring.Nat
import Mathlib.Data.List.Basic

/-!
# Automatic snapshots of a recording

While an RZX file is recorded, a snapshot is put into it every 250 frames. The older ones are thinned: each
time, the recording is walked over, and a snapshot whose age is just one of three thresholds goes when the
one before it is too close.

The recording is kept by `libspectrum`: a `Libspectrum` is what is used of it, with the list of blocks that
a recording consists of. Signing, the files and the contents of the snapshots are left out, and `libspectrum`
does not fail where it is given what it needs.
-/

namespace FuseX.Rzx.Autosave

/-- A block of a recording. -/
inductive Block : Type
  | input (frames : Nat)
  | snap (automatic : Bool)
deriving DecidableEq

/-- A frame is stored in the input block at the end. -/
def addFrame (blocks : List Block) : Option (List Block) :=
  match blocks.getLast? with
  | some (.input frames) => some (blocks.dropLast ++ [.input (frames + 1)])
  | _ => none

/-- The blocks up to a snapshot, by its number. -/
def upToSnap : Nat → List Block → Option (List Block)
  | _, [] => none
  | which, .input frames :: blocks => (upToSnap which blocks).map (.input frames :: ·)
  | 0, .snap automatic :: _ => some [.snap automatic]
  | which + 1, .snap automatic :: blocks => (upToSnap which blocks).map (.snap automatic :: ·)

/-- What is used of the recordings of `libspectrum`; an iterator is the number of its block. -/
structure Libspectrum (ρ : Type) : Type where
  blocks : ρ → List Block
  alloc : ρ
  startInput : ρ → ρ
  storeFrame : ρ → Option ρ
  addSnap : ρ → Bool → ρ
  iteratorDelete : ρ → Nat → ρ
  rollback : ρ → Option ρ
  rollbackTo : ρ → Nat → Option ρ
  blocks_alloc : blocks alloc = []
  blocks_startInput : ∀ rzx, blocks (startInput rzx) = blocks rzx ++ [.input 0]
  blocks_storeFrame : ∀ rzx, (storeFrame rzx).map blocks = addFrame (blocks rzx)
  blocks_addSnap : ∀ rzx automatic, blocks (addSnap rzx automatic) = blocks rzx ++ [.snap automatic]
  blocks_iteratorDelete : ∀ rzx it, blocks (iteratorDelete rzx it) = (blocks rzx).eraseIdx it
  blocks_rollback : ∀ rzx rzx', rollback rzx = some rzx' → ∃ which, upToSnap which (blocks rzx) = some (blocks rzx')
  blocks_rollbackTo : ∀ rzx which rzx', rollbackTo rzx which = some rzx' →
    upToSnap which (blocks rzx) = some (blocks rzx')

/-! ## Pruning -/

/-- `AUTOSAVE_INTERVAL` -/
def autosaveInterval : Nat := 5 * 50

/-- `prune_info_t` -/
structure PruneInfo : Type where
  it : Nat
  frames : Nat

/-- The automatic snapshots of some blocks, with the frames before them. -/
def autosavesFrom : Nat → Nat → List Block → List PruneInfo
  | _, _, [] => []
  | it, frames, .input n :: blocks => autosavesFrom (it + 1) (frames + n) blocks
  | it, frames, .snap true :: blocks => ⟨it, frames⟩ :: autosavesFrom (it + 1) frames blocks
  | it, frames, .snap false :: blocks => autosavesFrom (it + 1) frames blocks

/-- The frames of some blocks. -/
def totalFrames : List Block → Nat
  | [] => 0
  | .input n :: blocks => n + totalFrames blocks
  | .snap _ :: blocks => totalFrames blocks

/-- The ages at which a snapshot may go. -/
def thresholds : List Nat := [15 * 50, 60 * 50, 300 * 50]

/-- A snapshot of one age goes if that before it is of the other age. -/
def prunes (save1 save2 : Nat) : Bool :=
  save1 ∈ thresholds ∧ save2 < 2 * save1

variable {ρ : Type} (lib : Libspectrum ρ)

/-- The loop of `autosave_prune`, from the newest snapshot on. -/
def pruneLoop : List PruneInfo → ρ → ρ
  | save1 :: save2 :: rest, rzx =>
    pruneLoop (save2 :: rest) (if prunes save1.frames save2.frames then lib.iteratorDelete rzx save1.it else rzx)
  | _, rzx => rzx

/-- `autosave_prune` -/
def autosavePrune (rzx : ρ) : ρ :=
  let frames := totalFrames (lib.blocks rzx)
  let autosaves := (autosavesFrom 0 0 (lib.blocks rzx)).map fun info => { info with frames := frames - info.frames }
  pruneLoop lib autosaves.reverse rzx

/-! ## The recorder -/

/-- The variables of a recording, and the setting for automatic snapshots. -/
structure Recorder (ρ : Type) : Type where
  rzx : ρ
  recording : Bool
  competitionMode : Bool
  rzxAutosaves : Bool
  autosaveFrameCount : Nat
  autosavePending : Bool

/-- The emulator has been started. -/
def initial : Recorder ρ where
  rzx := lib.alloc
  recording := false
  competitionMode := false
  rzxAutosaves := true
  autosaveFrameCount := 0
  autosavePending := false

namespace Recorder

/-- `autosave_frame` -/
def autosaveFrame (s : Recorder ρ) : Recorder ρ :=
  { s with
    autosaveFrameCount := s.autosaveFrameCount + 1
    autosavePending := s.autosavePending || (s.autosaveFrameCount + 1) % autosaveInterval = 0 }

/-- `rzx_stop_recording` -/
def rzxStopRecording (s : Recorder ρ) : Recorder ρ :=
  if s.recording then
    { s with
      recording := false
      autosavePending := false
      rzx := if s.competitionMode then s.rzx else lib.addSnap s.rzx false }
  else s

/-- `start_recording` -/
def startRecording (s : Recorder ρ) (rzx : ρ) (competitionMode : Bool) : Recorder ρ :=
  { s with
    rzx := lib.startInput rzx
    autosaveFrameCount := 0
    autosavePending := false
    recording := true
    competitionMode }

/-- `rzx_start_recording` -/
def rzxStartRecording (s : Recorder ρ) (embedSnapshot competitionMode : Bool) : Recorder ρ :=
  if s.recording then s
  else s.startRecording lib (if embedSnapshot then lib.addSnap lib.alloc false else lib.alloc) competitionMode

/-- `rzx_continue_recording`, of a file; it has to end with a snapshot. -/
def rzxContinueRecording (s : Recorder ρ) (file : ρ) : Recorder ρ :=
  if s.recording then s
  else
    match (lib.blocks file).getLast? with
    | some (.snap _) => s.startRecording lib file false
    | _ => s

/-- `rzx_recording_frame`; the speed counts in competition mode. -/
def rzxRecordingFrame (s : Recorder ρ) (offSpeed : Bool) : Recorder ρ :=
  if s.recording then
    match lib.storeFrame s.rzx with
    | none => s.rzxStopRecording lib
    | some rzx =>
      let stored := { s with rzx }
      if s.competitionMode then if offSpeed then stored.rzxStopRecording lib else stored
      else if s.rzxAutosaves then stored.autosaveFrame else stored
  else s

/-- `rzx_frame_interrupt_complete`; it may be postponed by an EI. -/
def rzxFrameInterruptComplete (s : Recorder ρ) (postponed : Bool) : Recorder ρ :=
  if s.recording = false ∨ s.autosavePending = false then s
  else if postponed then s
  else
    { s with
      autosavePending := false
      rzx := autosavePrune lib (lib.startInput (lib.addSnap s.rzx true)) }

/-- The frames behind the last automatic snapshot. -/
def sinceAutomatic : Nat → List Block → Nat
  | frames, [] => frames
  | frames, .input n :: blocks => sinceAutomatic (frames + n) blocks
  | _, .snap true :: blocks => sinceAutomatic 0 blocks
  | frames, .snap false :: blocks => sinceAutomatic frames blocks

/-- `autosave_reset` -/
def autosaveReset (s : Recorder ρ) : Recorder ρ :=
  { s with autosaveFrameCount := sinceAutomatic 0 (lib.blocks s.rzx) % autosaveInterval }

/-- `rzx_start_after_rollback` -/
def rzxStartAfterRollback (s : Recorder ρ) (rzx : ρ) : Recorder ρ :=
  let started := { s with autosavePending := false, rzx := lib.startInput rzx }
  if s.rzxAutosaves then started.autosaveReset lib else started

/-- `rzx_rollback` and `rzx_rollback_to`, as the menu calls them. -/
def rollback (s : Recorder ρ) (rolled : Option ρ) : Recorder ρ :=
  if s.recording then
    match rolled with
    | none => s
    | some rzx => s.rzxStartAfterRollback lib rzx
  else s

/-- `menu_file_recording_insertsnapshot` -/
def insertSnapshot (s : Recorder ρ) : Recorder ρ :=
  if s.recording then { s with rzx := lib.startInput (lib.addSnap s.rzx false) } else s

end Recorder

/-- What happens to a recording. -/
inductive Event (ρ : Type) : Type
  | start (embedSnapshot competitionMode : Bool)
  | continueRecording (file : ρ)
  | frame (offSpeed : Bool)
  | interruptComplete (postponed : Bool)
  | setAutosaves (on : Bool)
  | insertSnapshot
  | rollback
  | rollbackTo (which : Nat)
  | stop

def Recorder.step (s : Recorder ρ) : Event ρ → Recorder ρ
  | .start embedSnapshot competitionMode => s.rzxStartRecording lib embedSnapshot competitionMode
  | .continueRecording file => s.rzxContinueRecording lib file
  | .frame offSpeed => s.rzxRecordingFrame lib offSpeed
  | .interruptComplete postponed => s.rzxFrameInterruptComplete lib postponed
  | .setAutosaves on => { s with rzxAutosaves := on }
  | .insertSnapshot => s.insertSnapshot lib
  | .rollback => s.rollback lib (lib.rollback s.rzx)
  | .rollbackTo which => s.rollback lib (lib.rollbackTo s.rzx which)
  | .stop => s.rzxStopRecording lib

end FuseX.Rzx.Autosave
