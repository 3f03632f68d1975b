import FuseX.Lib.Ring
import FuseX.Lib.Runs

/-!
# The HTTP downloader

`http_downloader.c` lets one worker thread fetch a URL into a buffer that its
opener reads from. The buffer is a ring with back pressure, or, for a response
of known size that fits, a linear store that can be sought in.

* `Download` is the object, and the functions on it are what the source does
  under the object's lock;
* a `Session` is an object with the two parties that use it: where its user
  (`http_downloader_open`, then reads and seeks, then `http_downloader_close`)
  and the worker stand. `sessionStep` is one locked section of either;
* `Downloader` has all objects and the pointers `active` and `pending`.

The HTTP client calls back with chunks of the body; once a callback has failed
it makes no further one and reports an error. Allocation and the socket's
contents are left out.
-/

namespace FuseX.Http

open Lib

/-! ## The object -/

/-- `RING_SIZE`. -/
def ringSize : Nat := 256 * 1024

/-- `enum http_download_error`. -/
inductive DownloadError : Type
  | ok
  | io
  | noent
  | busy
  | nomem
  | timeout
  | inval
  deriving DecidableEq, Repr

/-- `struct http_download`. -/
structure Download : Type where
  ring : Nat → UInt8 := fun _ => 0
  head : Nat := 0
  tail : Nat := 0
  used : Nat := 0
  ready : Bool := false
  finished : Bool := false
  cancelled : Bool := false
  orphaned : Bool := false
  retain : Bool := false
  bodySeen : Bool := false
  contentSize : Nat := 0
  result : DownloadError := .ok
  response : Int := 0
  socket : Bool := false

namespace Download

/-- A response the body is not taken of. -/
def refused (response : Int) : Bool :=
  response < 200 || 300 ≤ response

/-- The first chunk settles the mode. -/
def settle (h : Download) (contentLength : Nat) : Download :=
  if h.bodySeen then h
  else { h with
    retain := decide (0 < contentLength) && decide (contentLength < ringSize)
    contentSize := contentLength
    bodySeen := true }

/-- `receive_chunk` up to its loop. Says whether the chunk is let in. -/
def receiveChunk (h : Download) (length position contentLength : Nat) (response : Int) :
    Bool × Download :=
  let h := { h with response := response }
  if refused response then (false, h)
  else
    let h := h.settle contentLength
    if h.retain ∧ (position ≠ h.used ∨ h.contentSize - h.used < length) then
      (false, { h with result := .io })
    else (true, h)

/-- What one round of the loop of `receive_chunk` copies. -/
def copyTake (h : Download) (left : Nat) : Nat :=
  min (min left (ringSize - h.used)) (ringSize - h.head)

/-- One round of the loop of `receive_chunk` on what is left of the chunk. -/
def copyRound (h : Download) (left : List UInt8) : Download :=
  let take := h.copyTake left.length
  { h with
    ring := overwrite h.ring h.head (left.take take)
    head := (h.head + take) % ringSize
    used := h.used + take
    ready := h.ready || !h.retain }

/-- The end of a transfer in `download_worker`; `ok` is the client's verdict. -/
def finish (h : Download) (ok : Bool) (response : Int) : Download :=
  let result :=
    if !h.cancelled && (!ok || refused response) then
      if response = 404 then DownloadError.noent else .io
    else h.result
  let result := if result = .ok && h.cancelled then DownloadError.io else result
  let result :=
    if result = .ok && h.retain && h.used ≠ h.contentSize then DownloadError.io else result
  { h with
    response := response
    result := result
    retain := h.retain || (result = .ok && !h.bodySeen)
    ready := true
    finished := true }

/-- A wait has timed out. -/
def timedOut (h : Download) : Download :=
  { h with result := .timeout, cancelled := true }

/-- The bytes a reader can have at once. -/
def available (h : Download) : Nat :=
  if h.retain then h.used - h.tail else h.used

/-- The two `memcpy` of `http_downloader_read`. -/
def peek (h : Download) (take : Nat) : List UInt8 :=
  let first := min take (ringSize - h.tail)
  ((List.range first).map fun i => h.ring (h.tail + i)) ++
    (List.range (take - first)).map h.ring

/-- The object after a read of `take` bytes. -/
def advance (h : Download) (take : Nat) : Download :=
  if take = 0 then h
  else if h.retain then { h with tail := h.tail + take }
  else { h with tail := (h.tail + take) % ringSize, used := h.used - take }

/-- The position `http_downloader_seek` is asked for. -/
def seekTarget (h : Download) (offset : Int32) (whence : UInt8) : Int :=
  if whence = 1 then offset.toInt + h.tail
  else if whence = 2 then offset.toInt + h.used
  else if whence = 0 then offset.toInt
  else -1

/-- `http_downloader_seek`: the new position, or `INVAL`. -/
def seek (h : Download) (offset : Int32) (whence : UInt8) : Option Nat × Download :=
  if !h.retain || !h.finished || h.result ≠ .ok || h.cancelled then (none, h)
  else
    let target := h.seekTarget offset whence
    if target < 0 then (none, h)
    else
      let tail := if (h.used : Int) < target then h.used else target.toNat
      (some tail, { h with tail := tail })

/-- `http_downloader_cancel_all` on the active object. -/
def cancelAll (h : Download) : Download :=
  { h with cancelled := true, result := .io, ready := true }

end Download

/-! ## One object and its parties -/

/-- Where the worker is with an object. -/
inductive WorkerPhase : Type
  /-- not handed to the worker -/
  | idle
  /-- it is `pending` -/
  | queued
  | picked
  /-- inside `httpc_get`, and whether a callback has failed -/
  | receiving (failed : Bool)
  /-- in the loop of `receive_chunk`, with what is left of the chunk -/
  | copying (left : List UInt8)
  /-- `httpc_get` has returned -/
  | returned (ok : Bool)
  /-- it is no longer `active` -/
  | inactive (ok : Bool)
  /-- finished, and about to destroy the orphan -/
  | destroying
  | done
  deriving DecidableEq

/-- Where the object's user is. -/
inductive UserPhase : Type
  /-- in `http_downloader_open`, before the object is handed over -/
  | opening
  /-- at `goto fail` -/
  | failing
  /-- at the head of the wait for `ready` -/
  | waiting
  /-- in the timed wait for `ready` -/
  | blocked
  /-- about to close because the result is an error -/
  | aborting
  /-- `http_downloader_open` has returned the object -/
  | holding
  /-- in the wait of `http_downloader_close` -/
  | closing
  /-- about to destroy the object -/
  | closed
  /-- done with it -/
  | gone
  deriving DecidableEq

/-- What a reader was given: bytes, a new position, or the end of the file. -/
inductive Obtained : Type
  | bytes (data : List UInt8)
  | seek (position : Nat)
  | eof

/-- An object with its parties, how often it has been destroyed, whether it was
used after that, and the history of its bytes: those of the chunks the client
called back with, those that went into the buffer, and what the reader got. -/
structure Session : Type where
  download : Download := {}
  worker : WorkerPhase := .idle
  user : UserPhase := .opening
  released : Nat := 0
  touched : Bool := false
  offered : List UInt8 := []
  received : List UInt8 := []
  obtained : List Obtained := []

/-- The locked sections of the two parties. -/
inductive SessionAct : Type
  /-- `destroy_download` at `fail` -/
  | fail
  /-- look at `ready` in `http_downloader_open` -/
  | check
  /-- the wait for `ready` returns after a signal -/
  | wake
  /-- the wait for `ready` returns `ETIMEDOUT` -/
  | openTimeout
  | read (size : UInt32)
  /-- a read whose wait returns `ETIMEDOUT` -/
  | readTimeout (size : UInt32)
  | seek (offset : Int32) (whence : UInt8)
  | close
  /-- `http_downloader_close` sees `finished` -/
  | closeWake
  | closeDestroy
  /-- the worker looks at `cancelled` before the transfer -/
  | start
  | socketOpen
  | socketClose
  | chunk (data : List UInt8) (position contentLength : Nat) (response : Int)
  | copy
  /-- the wait for room returns `ETIMEDOUT` -/
  | ringTimeout
  /-- `receive_chunk` returns -/
  | chunkReturn
  /-- `httpc_get` returns -/
  | transferEnd (ok : Bool)
  | finish (response : Int)
  | orphanDestroy

/-- The part of `http_downloader_read` after its wait. -/
def Session.readOut (s : Session) (size : UInt32) : Session :=
  let take := min (min size.toNat (2 ^ 31 - 1)) s.download.available
  { s with
    download := s.download.advance take
    obtained :=
      if 0 < take then s.obtained ++ [.bytes (s.download.peek take)]
      else if s.download.result = .ok then s.obtained ++ [.eof]
      else s.obtained }

/-- A locked section, where it is possible. -/
def Session.act (s : Session) : SessionAct → Option Session
  | .fail =>
      if s.user = .failing then some { s with user := .gone, released := s.released + 1 } else none
  | .check =>
      if s.user = .waiting then
        some { s with user :=
          if !s.download.ready then .blocked
          else if s.download.result = .ok then .holding else .aborting }
      else none
  | .wake => if s.user = .blocked then some { s with user := .waiting } else none
  | .openTimeout =>
      if s.user = .blocked then
        some { s with user := .gone, download := { s.download.timedOut with orphaned := true } }
      else none
  | .read size =>
      if s.user = .holding then
        if size = 0 then some s
        else if 0 < s.download.available ∨ s.download.finished ∨ s.download.result ≠ .ok then
          some (s.readOut size)
        else none
      else none
  | .readTimeout size =>
      if s.user = .holding ∧ size ≠ 0 then
        some ({ s with download := s.download.timedOut }.readOut size)
      else none
  | .seek offset whence =>
      if s.user = .holding then
        match s.download.seek offset whence with
        | (some position, h) =>
            some { s with download := h, obtained := s.obtained ++ [.seek position] }
        | (none, _) => some s
      else none
  | .close =>
      if s.user = .holding ∨ s.user = .aborting then
        some { s with user := .closing, download := { s.download with cancelled := true } }
      else none
  | .closeWake =>
      if s.user = .closing ∧ s.download.finished then some { s with user := .closed } else none
  | .closeDestroy =>
      if s.user = .closed then some { s with user := .gone, released := s.released + 1 } else none
  | .start =>
      if s.worker = .picked then
        some { s with worker := if s.download.cancelled then .returned false else .receiving false }
      else none
  | .socketOpen =>
      match s.worker with
      | .receiving _ =>
          some { s with download := { s.download with socket := !s.download.cancelled } }
      | _ => none
  | .socketClose =>
      match s.worker with
      | .receiving _ => some { s with download := { s.download with socket := false } }
      | _ => none
  | .chunk data position contentLength response =>
      match s.worker with
      | .receiving false =>
          let (admitted, h) := s.download.receiveChunk data.length position contentLength response
          some { s with
            download := h
            worker := if admitted then .copying data else .receiving true
            offered := s.offered ++ data }
      | _ => none
  | .copy =>
      match s.worker with
      | .copying left =>
          if left ≠ [] ∧ !s.download.cancelled ∧ s.download.used ≠ ringSize then
            let take := s.download.copyTake left.length
            some { s with
              download := s.download.copyRound left
              worker := .copying (left.drop take)
              received := s.received ++ left.take take }
          else none
      | _ => none
  | .ringTimeout =>
      match s.worker with
      | .copying _ => some { s with download := s.download.timedOut }
      | _ => none
  | .chunkReturn =>
      match s.worker with
      | .copying left =>
          if left = [] ∨ s.download.cancelled then
            some { s with worker := .receiving s.download.cancelled }
          else none
      | _ => none
  | .transferEnd ok =>
      match s.worker with
      | .receiving failed =>
          if ok ∧ failed then none else some { s with worker := .returned ok }
      | _ => none
  | .finish response =>
      match s.worker with
      | .inactive ok =>
          some { s with
            download := s.download.finish ok response
            worker := if s.download.orphaned then .destroying else .done }
      | _ => none
  | .orphanDestroy =>
      if s.worker = .destroying then
        some { s with worker := .done, released := s.released + 1 }
      else none

/-- A use of the object is remembered if it has been destroyed. -/
def Session.touch (s : Session) : Session :=
  { s with touched := s.touched || decide (0 < s.released) }

/-- A locked section, as a use of the object. -/
def sessionStep (s : Session) (act : SessionAct) : Option Session :=
  s.touch.act act

/-! ## All objects -/

/-- The variables under `worker_lock`, and every object ever allocated. -/
structure Downloader : Type where
  sessions : List Session := []
  active : Option Nat := none
  pending : Option Nat := none
  workerStarted : Bool := false

/-- The steps of all parties. -/
inductive DownloaderAct : Type
  /-- `http_downloader_open` allocates an object -/
  | allocate
  /-- `http_downloader_open` under `worker_lock`; `created` is what
  `pthread_create` answers -/
  | register (i : Nat) (created : Bool)
  /-- the worker takes the pending object -/
  | pick
  /-- the worker clears `active` -/
  | clearActive (i : Nat)
  | cancelAll
  /-- a party's section under the lock of object `i` -/
  | on (i : Nat) (act : SessionAct)

/-- The worker has nothing to do with the object. -/
def WorkerPhase.resting : WorkerPhase → Bool
  | .idle | .queued | .done => true
  | _ => false

/-- A step, where it is possible. -/
def downloaderStep (d : Downloader) : DownloaderAct → Option Downloader
  | .allocate => some { d with sessions := d.sessions ++ [{}] }
  | .register i created => do
      let s ← d.sessions[i]?
      if s.user ≠ .opening then none
      else if d.active.isSome || (!d.workerStarted && !created) then
        some { d with sessions := d.sessions.set i { s with user := .failing } }
      else
        some {
          sessions := d.sessions.set i { s with user := .waiting, worker := .queued }
          active := some i
          pending := some i
          workerStarted := true }
  | .pick => do
      let i ← d.pending
      let s ← d.sessions[i]?
      if d.sessions.all (·.worker.resting) then
        some { d with sessions := d.sessions.set i { s with worker := .picked }, pending := none }
      else none
  | .clearActive i => do
      let s ← d.sessions[i]?
      match s.worker with
      | .returned ok =>
          some { d with sessions := d.sessions.set i { s with worker := .inactive ok }, active := none }
      | _ => none
  | .cancelAll =>
      match d.active with
      | none => some d
      | some i => do
          let s ← d.sessions[i]?
          some { d with
            sessions := d.sessions.set i { s.touch with download := s.download.cancelAll } }
  | .on i act => do
      let s ← d.sessions[i]?
      let t ← sessionStep s act
      some { d with sessions := d.sessions.set i t }

/-- The downloader when the program starts. -/
def Downloader.start : Downloader := {}

end FuseX.Http
