import FuseX.Http.Downloader

/-!
# Who destroys a download

An object is shared by its user, the worker and `http_downloader_cancel_all`.
`PhaseInv` says for every place the user can be at who still has the object.

The wait of `http_downloader_open` trusts an `ETIMEDOUT` without looking at
`ready` again. If the worker has finished in the meantime, it has already seen
that the object is no orphan, and nobody destroys it (`Leaked`). Such a timeout is the
only step that goes wrong: `lifecycle_iff` proves that a run is right exactly
when no open times out on a finished object.
-/

namespace FuseX.Http

open Lib

/-! ## The statement -/

/-- The object is the one `active` points to. -/
def WorkerPhase.active : WorkerPhase → Bool
  | .queued | .picked | .receiving _ | .copying _ | .returned _ => true
  | _ => false

/-- Every object is destroyed once and not used afterwards, and one is active. -/
structure LifecycleOk (d : Downloader) : Prop where
  atMostOnce : ∀ s ∈ d.sessions, s.released ≤ 1
  untouched : ∀ s ∈ d.sessions, s.touched = false
  /-- When neither party has the object any more, it has been destroyed. -/
  released : ∀ s ∈ d.sessions, s.user = .gone → (s.worker = .idle ∨ s.worker = .done) →
    s.released = 1
  oneActive : ∀ (i j : Nat) (s t : Session), d.sessions[i]? = some s → d.sessions[j]? = some t →
    s.worker.active → t.worker.active → i = j

/-- The step is no timeout of an open on an object that is finished. -/
def TimesOutInTime (d : Downloader) : DownloaderAct → Prop
  | .on i .openTimeout => ∀ s, d.sessions[i]? = some s → s.download.finished = false
  | _ => True

instance (d : Downloader) (act : DownloaderAct) : Decidable (TimesOutInTime d act) := by
  unfold TimesOutInTime
  split
  · next i =>
    cases place : d.sessions[i]? with
    | none => exact .isTrue (by simp)
    | some s => exact decidable_of_iff (s.download.finished = false) (by simp)
  · exact .isTrue True.intro

/-! ## What the operations leave alone -/

namespace Download

variable (h : Download)

/-- The flags that say who destroys an object. -/
def ends : Bool × Bool :=
  (h.finished, h.orphaned)

@[simp]
theorem ends_advance (take : Nat) : (h.advance take).ends = h.ends := by
  rw [advance]
  split
  · rfl
  · split <;> rfl

@[simp]
theorem ends_seek (offset : Int32) (whence : UInt8) : (h.seek offset whence).2.ends = h.ends := by
  rw [seek]
  split
  · rfl
  · dsimp only
    split <;> rfl

@[simp]
theorem ends_settle (contentLength : Nat) : (h.settle contentLength).ends = h.ends := by
  rw [settle]
  split <;> rfl

@[simp]
theorem ends_receiveChunk (length position contentLength : Nat) (response : Int) :
    (h.receiveChunk length position contentLength response).2.ends = h.ends := by
  rw [receiveChunk]
  dsimp only
  split
  · rfl
  · split
    · exact ends_settle { h with response := response } contentLength
    · exact ends_settle { h with response := response } contentLength

end Download

/-! ## One object -/

/-- Who has the object, by the place of its user. -/
def Session.Held (s : Session) : Prop :=
  match s.user with
  | .opening | .failing => s.worker = .idle ∧ s.released = 0
  | .waiting | .blocked | .aborting | .holding | .closing =>
      s.worker ≠ .idle ∧ s.worker ≠ .destroying ∧ s.released = 0
  | .closed => s.worker = .done ∧ s.released = 0
  | .gone =>
      s.released = 1 ∧ (s.worker = .idle ∨ s.worker = .done) ∨
      s.download.orphaned = true ∧ s.released = 0 ∧ s.worker ≠ .idle ∧ s.worker ≠ .done ∨
      s.released = 0 ∧ s.worker = .done

/-- Both parties are done with an object that was not destroyed. -/
def Session.Leaked (s : Session) : Prop :=
  s.user = .gone ∧ s.worker = .done ∧ s.released = 0

/-- An object in the middle of a run. -/
structure Session.PhaseInv (s : Session) : Prop where
  untouched : s.touched = false
  finished : s.download.finished = true ↔ s.worker = .destroying ∨ s.worker = .done
  orphaned : s.download.orphaned = true → s.user = .gone
  held : s.Held

namespace Session.Held

variable {s : Session}

theorem atMostOnce (held : s.Held) : s.released ≤ 1 := by
  rw [Session.Held] at held
  split at held <;> omega

/-- While the worker is at the object, it is not destroyed. -/
theorem released_of_worker (held : s.Held) (idle : s.worker ≠ .idle) (done : s.worker ≠ .done) :
    s.released = 0 := by
  rw [Session.Held] at held
  split at held
  · exact held.2
  · exact held.2
  · exact held.2.2
  · exact held.2.2
  · exact held.2.2
  · exact held.2.2
  · exact held.2.2
  · exact held.2
  · rcases held with ⟨-, rest⟩ | ⟨-, none, -⟩ | ⟨none, -⟩
    · rcases rest with phase | phase
      · exact absurd phase idle
      · exact absurd phase done
    · exact none
    · exact none

/-- While the user has the object, it is not destroyed. -/
theorem released_of_user (held : s.Held) (here : s.user ≠ .gone) : s.released = 0 := by
  rw [Session.Held] at held
  split at held
  · exact held.2
  · exact held.2
  · exact held.2.2
  · exact held.2.2
  · exact held.2.2
  · exact held.2.2
  · exact held.2.2
  · exact held.2
  · next gone => exact absurd gone here

/-- Only a party that has the object acts on it, so it is not destroyed. -/
theorem released_of_act {t : Session} {act : SessionAct} (held : s.Held)
    (step : s.act act = some t) : s.released = 0 := by
  by_cases here : s.user = .gone
  · have busy : s.worker ≠ .idle ∧ s.worker ≠ .done := by
      revert step
      fun_cases Session.act s act <;> simp_all
    exact held.released_of_worker busy.1 busy.2
  · exact held.released_of_user here

end Session.Held

namespace Session.PhaseInv

variable {s t : Session}

theorem init : PhaseInv {} where
  untouched := rfl
  finished := by simp
  orphaned orphan := by cases orphan
  held := ⟨rfl, rfl⟩

/-- A step of the user inside the time it shares the object with the worker. -/
theorem user (inv : PhaseInv s) (ends : t.download.ends = s.download.ends)
    (worker : t.worker = s.worker) (touched : t.touched = s.touched) (before : s.user ≠ .gone)
    (held : s.Held → t.Held) : PhaseInv t := by
  obtain ⟨finished, orphaned⟩ := Prod.mk.inj ends
  refine ⟨touched.trans inv.untouched, ?_, ?_, held inv.held⟩
  · rw [finished, worker]
    exact inv.finished
  · intro orphan
    exact absurd (inv.orphaned (orphaned ▸ orphan)) before

/-- A step of the worker that does not finish. -/
theorem worker (inv : PhaseInv s) (ends : t.download.ends = s.download.ends)
    (user : t.user = s.user) (released : t.released = s.released) (touched : t.touched = s.touched)
    (before : s.worker ≠ .idle ∧ s.worker ≠ .destroying ∧ s.worker ≠ .done)
    (after : t.worker ≠ .idle ∧ t.worker ≠ .destroying ∧ t.worker ≠ .done) : PhaseInv t := by
  obtain ⟨finished, orphaned⟩ := Prod.mk.inj ends
  refine ⟨touched.trans inv.untouched, ?_, ?_, ?_⟩
  · rw [finished, inv.finished]
    simp only [before, after, or_self]
  · rw [orphaned, user]
    exact inv.orphaned
  · have held := inv.held
    rw [Session.Held] at held ⊢
    rw [user, released, orphaned]
    split at held
    · exact absurd held.1 before.1
    · exact absurd held.1 before.1
    · exact ⟨after.1, after.2.1, held.2.2⟩
    · exact ⟨after.1, after.2.1, held.2.2⟩
    · exact ⟨after.1, after.2.1, held.2.2⟩
    · exact ⟨after.1, after.2.1, held.2.2⟩
    · exact ⟨after.1, after.2.1, held.2.2⟩
    · exact absurd held.1 before.2.2
    · rcases held with ⟨-, idle | done⟩ | ⟨orphan, none, -⟩ | ⟨-, done⟩
      · exact absurd idle before.1
      · exact absurd done before.2.2
      · exact .inr (.inl ⟨orphan, none, after.1, after.2.2⟩)
      · exact absurd done before.2.2

end Session.PhaseInv

namespace Session

variable {s t : Session}

theorem notLeaked_of_user (here : s.user ≠ .gone) : ¬ s.Leaked :=
  fun leaked => here leaked.1

theorem notLeaked_of_worker (busy : s.worker ≠ .done) : ¬ s.Leaked :=
  fun leaked => busy leaked.2.1

theorem notLeaked_of_released (once : s.released = 1) : ¬ s.Leaked := by
  intro leaked
  rw [leaked.2.2] at once
  cases once

/-- The worker finishes: it destroys the object if, and only if, the user has gone. -/
theorem PhaseInv.finishes (inv : PhaseInv s) {ok : Bool} (phase : s.worker = .inactive ok)
    (response : Int) :
    let t := { s with
      download := s.download.finish ok response
      worker := if s.download.orphaned then .destroying else .done }
    PhaseInv t ∧ ¬ t.Leaked := by
  intro t
  have held := inv.held
  rw [Held] at held
  cases orphaned : s.download.orphaned with
  | true =>
    have gone := inv.orphaned orphaned
    have worker : t.worker = .destroying := by simp [t, orphaned]
    rw [gone] at held
    have none : s.released = 0 := by
      rcases held with ⟨-, idle | done⟩ | ⟨-, none, -⟩ | ⟨none, -⟩
      · rw [phase] at idle
        cases idle
      · rw [phase] at done
        cases done
      · exact none
      · exact none
    refine ⟨⟨inv.untouched, ?_, fun _ => gone, ?_⟩, notLeaked_of_worker (by simp [worker])⟩
    · exact ⟨fun _ => .inl worker, fun _ => rfl⟩
    · rw [Held, show t.user = .gone from gone]
      exact .inr (.inl ⟨orphaned, none, by simp [worker], by simp [worker]⟩)
  | false =>
    have worker : t.worker = .done := by simp [t, orphaned]
    have here : s.user ≠ .gone := by
      intro gone
      rw [gone] at held
      rcases held with ⟨-, idle | done⟩ | ⟨orphan, -⟩ | ⟨-, done⟩
      · rw [phase] at idle
        cases idle
      · rw [phase] at done
        cases done
      · rw [orphaned] at orphan
        cases orphan
      · rw [phase] at done
        cases done
    refine ⟨⟨inv.untouched, ?_, ?_, ?_⟩, notLeaked_of_user here⟩
    · exact ⟨fun _ => .inr worker, fun _ => rfl⟩
    · intro orphan
      rw [show t.download.orphaned = s.download.orphaned from rfl, orphaned] at orphan
      cases orphan
    · rw [Held, show t.user = s.user from rfl, worker]
      split at held
      · rw [phase] at held
        cases held.1
      · rw [phase] at held
        cases held.1
      · exact ⟨by simp, by simp, held.2.2⟩
      · exact ⟨by simp, by simp, held.2.2⟩
      · exact ⟨by simp, by simp, held.2.2⟩
      · exact ⟨by simp, by simp, held.2.2⟩
      · exact ⟨by simp, by simp, held.2.2⟩
      · exact ⟨rfl, held.2⟩
      · next gone => exact absurd gone here

theorem PhaseInv.destroysOrphan (inv : PhaseInv s) (phase : s.worker = .destroying) :
    let t := { s with worker := .done, released := s.released + 1 }
    PhaseInv t ∧ ¬ t.Leaked := by
  intro t
  have none := inv.held.released_of_worker (by simp [phase]) (by simp [phase])
  have once : t.released = 1 := by simp [t, none]
  have gone : s.user = .gone := by
    have held := inv.held
    rw [Held] at held
    split at held <;> simp_all
  refine ⟨⟨inv.untouched, ?_, inv.orphaned, ?_⟩, notLeaked_of_released once⟩
  · exact ⟨fun _ => .inr rfl, fun _ => inv.finished.mpr (.inl phase)⟩
  · rw [Held, show t.user = .gone from gone]
    exact .inl ⟨once, .inr rfl⟩

/-- Every locked section but the timeout of an open keeps the object in order. -/
theorem PhaseInv.act {act : SessionAct} (inv : PhaseInv s) (other : act ≠ .openTimeout)
    (step : s.act act = some t) : PhaseInv t ∧ ¬ t.Leaked := by
  -- where the user stays, or goes on while it shares the object
  have stays : ∀ {u : Session}, s.user ≠ .gone → u.download.ends = s.download.ends →
      u.worker = s.worker → u.touched = s.touched → u.user ≠ .gone → (s.Held → u.Held) →
      PhaseInv u ∧ ¬ u.Leaked := by
    intro u before ends worker touched after held
    exact ⟨inv.user ends worker touched before held, notLeaked_of_user after⟩
  have holds : ∀ {u : Session}, s.user = .holding → u.download.ends = s.download.ends →
      u.worker = s.worker → u.touched = s.touched → u.user = s.user → u.released = s.released →
      PhaseInv u ∧ ¬ u.Leaked := by
    intro u phase ends worker touched user released
    refine stays (by simp [phase]) ends worker touched (by simp [user, phase]) fun held => ?_
    rw [Held, phase] at held
    rw [Held, user, phase, worker, released]
    exact held
  -- where the worker goes on with the transfer
  have works : ∀ {u : Session}, s.worker ≠ .idle ∧ s.worker ≠ .destroying ∧ s.worker ≠ .done →
      u.download.ends = s.download.ends → u.user = s.user → u.released = s.released →
      u.touched = s.touched → u.worker ≠ .idle ∧ u.worker ≠ .destroying ∧ u.worker ≠ .done →
      PhaseInv u ∧ ¬ u.Leaked := by
    intro u before ends user released touched after
    exact ⟨inv.worker ends user released touched before after, notLeaked_of_worker after.2.2⟩
  cases act with
  | fail =>
    obtain ⟨phase, rfl⟩ := Option.ite_none_right_eq_some.mp step |>.imp id Option.some.inj
    have here : s.user ≠ .gone := by simp [phase]
    have none := inv.held.released_of_user here
    refine ⟨inv.user rfl rfl rfl here fun held => ?_, notLeaked_of_released (by simp [none])⟩
    rw [Held, phase] at held
    exact .inl ⟨by simp [none], .inl held.1⟩
  | check =>
    obtain ⟨phase, rfl⟩ := Option.ite_none_right_eq_some.mp step |>.imp id Option.some.inj
    have here : s.user ≠ .gone := by simp [phase]
    cases ready : s.download.ready with
    | false =>
      refine stays here rfl rfl rfl (by simp) fun held => ?_
      rw [Held, phase] at held
      exact held
    | true =>
      by_cases good : s.download.result = .ok
      · simp only [good, if_true, Bool.not_true, Bool.false_eq_true, if_false]
        refine stays here rfl rfl rfl (by simp) fun held => ?_
        rw [Held, phase] at held
        exact held
      · simp only [good, if_false, Bool.not_true, Bool.false_eq_true]
        refine stays here rfl rfl rfl (by simp) fun held => ?_
        rw [Held, phase] at held
        exact held
  | wake =>
    obtain ⟨phase, rfl⟩ := Option.ite_none_right_eq_some.mp step |>.imp id Option.some.inj
    refine stays (by simp [phase]) rfl rfl rfl (by simp) fun held => ?_
    rw [Held, phase] at held
    exact held
  | openTimeout => exact absurd rfl other
  | read size =>
    obtain ⟨phase, step⟩ := Option.ite_none_right_eq_some.mp step
    split at step
    · cases step
      exact holds phase rfl rfl rfl rfl rfl
    · obtain ⟨-, rfl⟩ := Option.ite_none_right_eq_some.mp step |>.imp id Option.some.inj
      exact holds phase (Download.ends_advance _ _) rfl rfl rfl rfl
  | readTimeout size =>
    obtain ⟨⟨phase, -⟩, rfl⟩ := Option.ite_none_right_eq_some.mp step |>.imp id Option.some.inj
    exact holds phase (Download.ends_advance _ _) rfl rfl rfl rfl
  | seek offset whence =>
    obtain ⟨phase, step⟩ := Option.ite_none_right_eq_some.mp step
    have ends := s.download.ends_seek offset whence
    split at step
    · next position h sought =>
      cases step
      rw [sought] at ends
      exact holds phase ends rfl rfl rfl rfl
    · cases step
      exact holds phase rfl rfl rfl rfl rfl
  | close =>
    obtain ⟨phase, rfl⟩ := Option.ite_none_right_eq_some.mp step |>.imp id Option.some.inj
    refine stays (by rcases phase with h | h <;> simp [h]) rfl rfl rfl (by simp) fun held => ?_
    rw [Held] at held
    rcases phase with phase | phase <;> rw [phase] at held <;> exact held
  | closeWake =>
    obtain ⟨⟨phase, finished⟩, rfl⟩ :=
      Option.ite_none_right_eq_some.mp step |>.imp id Option.some.inj
    refine stays (by simp [phase]) rfl rfl rfl (by simp) fun held => ?_
    rw [Held, phase] at held
    rcases inv.finished.mp finished with destroying | done
    · exact absurd destroying held.2.1
    · exact ⟨done, held.2.2⟩
  | closeDestroy =>
    obtain ⟨phase, rfl⟩ := Option.ite_none_right_eq_some.mp step |>.imp id Option.some.inj
    have here : s.user ≠ .gone := by simp [phase]
    have none := inv.held.released_of_user here
    refine ⟨inv.user rfl rfl rfl here fun held => ?_, notLeaked_of_released (by simp [none])⟩
    rw [Held, phase] at held
    exact .inl ⟨by simp [none], .inr held.1⟩
  | start =>
    obtain ⟨phase, rfl⟩ := Option.ite_none_right_eq_some.mp step |>.imp id Option.some.inj
    refine works (by simp [phase]) rfl rfl rfl rfl ?_
    cases s.download.cancelled <;> simp
  | socketOpen =>
    simp only [Session.act] at step
    split at step
    · next failed phase =>
      cases step
      exact works (by simp [phase]) rfl rfl rfl rfl (by simp [phase])
    · cases step
  | socketClose =>
    simp only [Session.act] at step
    split at step
    · next failed phase =>
      cases step
      exact works (by simp [phase]) rfl rfl rfl rfl (by simp [phase])
    · cases step
  | chunk data position contentLength response =>
    simp only [Session.act] at step
    split at step
    · next phase =>
      cases step
      refine works (by simp [phase]) (Download.ends_receiveChunk _ _ _ _ _) rfl rfl rfl ?_
      dsimp only
      split <;> simp
    · cases step
  | copy =>
    simp only [Session.act] at step
    split at step
    · next left phase =>
      obtain ⟨-, rfl⟩ := Option.ite_none_right_eq_some.mp step |>.imp id Option.some.inj
      exact works (by simp [phase]) rfl rfl rfl rfl (by simp)
    · cases step
  | ringTimeout =>
    simp only [Session.act] at step
    split at step
    · next left phase =>
      cases step
      exact works (by simp [phase]) rfl rfl rfl rfl (by simp [phase])
    · cases step
  | chunkReturn =>
    simp only [Session.act] at step
    split at step
    · next left phase =>
      obtain ⟨-, rfl⟩ := Option.ite_none_right_eq_some.mp step |>.imp id Option.some.inj
      exact works (by simp [phase]) rfl rfl rfl rfl (by simp)
    · cases step
  | transferEnd ok =>
    simp only [Session.act] at step
    split at step
    · next failed phase =>
      obtain ⟨-, rfl⟩ := Option.ite_none_left_eq_some.mp step |>.imp id Option.some.inj
      exact works (by simp [phase]) rfl rfl rfl rfl (by simp)
    · cases step
  | finish response =>
    simp only [Session.act] at step
    split at step
    · next ok phase =>
      cases step
      exact inv.finishes phase response
    · cases step
  | orphanDestroy =>
    obtain ⟨phase, rfl⟩ := Option.ite_none_right_eq_some.mp step |>.imp id Option.some.inj
    exact inv.destroysOrphan phase

/-- The timeout of an open loses the object where the worker has finished with it. -/
theorem PhaseInv.openTimeout (inv : PhaseInv s) (step : s.act .openTimeout = some t) :
    PhaseInv t ∧ (t.Leaked ↔ s.download.finished = true) := by
  obtain ⟨phase, rfl⟩ := Option.ite_none_right_eq_some.mp step |>.imp id Option.some.inj
  have held := inv.held
  rw [Held, phase] at held
  obtain ⟨idle, destroying, none⟩ := held
  have finished : s.download.finished = true ↔ s.worker = .done := by
    rw [inv.finished]
    exact or_iff_right destroying
  refine ⟨⟨inv.untouched, inv.finished, fun _ => rfl, ?_⟩, ?_⟩
  · by_cases done : s.worker = .done
    · exact .inr (.inr ⟨none, done⟩)
    · exact .inr (.inl ⟨rfl, none, idle, done⟩)
  · rw [finished]
    exact ⟨fun leaked => leaked.2.1, fun done => ⟨rfl, done, none⟩⟩

/-- Where both parties are done with the object, neither acts. -/
theorem notLeaked_of_act {act : SessionAct} (step : s.act act = some t) : ¬ s.Leaked := by
  rintro ⟨user, worker, -⟩
  cases act <;> simp [Session.act, user, worker] at step

theorem touch_eq (here : s.released = 0) : s.touch = s := by
  have kept : (s.touched || decide (0 < s.released)) = s.touched := by simp [here]
  rw [touch, kept]

/-- What a locked section can do to an object in order. -/
theorem PhaseInv.step {act : SessionAct} (inv : PhaseInv s) (step : sessionStep s act = some t) :
    PhaseInv t ∧ (t.Leaked ↔ act = .openTimeout ∧ s.download.finished = true) := by
  rw [sessionStep] at step
  have held : s.touch.Held := inv.held
  have none : s.released = 0 := held.released_of_act step
  rw [touch_eq none] at step
  by_cases timeout : act = .openTimeout
  · subst timeout
    obtain ⟨inv', leaks⟩ := inv.openTimeout step
    exact ⟨inv', by simp [leaks]⟩
  · obtain ⟨inv', kept⟩ := inv.act timeout step
    exact ⟨inv', by simp [kept, timeout]⟩

/-- The locked sections do not change what `worker_lock` protects. -/
theorem act_worker {act : SessionAct} (step : s.act act = some t) :
    (t.worker = .queued ↔ s.worker = .queued) ∧ t.worker.active = s.worker.active := by
  revert step
  fun_cases Session.act s act
  all_goals
    intro step
    cases step
  all_goals simp_all [WorkerPhase.active, readOut]
  all_goals split <;> simp

end Session

/-! ## All objects -/

/-- What `worker_lock` protects agrees with where the worker is. -/
structure Inv (d : Downloader) : Prop where
  phases : ∀ (i : Nat) (s : Session), d.sessions[i]? = some s → s.PhaseInv
  queued : ∀ (i : Nat) (s : Session), d.sessions[i]? = some s →
    (s.worker = .queued ↔ d.pending = some i)
  active : ∀ (i : Nat) (s : Session), d.sessions[i]? = some s →
    (s.worker.active = true ↔ d.active = some i)
  pendingHere : ∀ i, d.pending = some i → i < d.sessions.length
  activeHere : ∀ i, d.active = some i → i < d.sessions.length

/-- No object is lost. -/
def NoLeak (d : Downloader) : Prop :=
  ∀ s ∈ d.sessions, ¬ s.Leaked

namespace Inv

variable {d : Downloader} {i : Nat} {s t : Session}

theorem start : Inv Downloader.start where
  phases i s here := by simp [Downloader.start] at here
  queued i s here := by simp [Downloader.start] at here
  active i s here := by simp [Downloader.start] at here
  pendingHere i pending := by cases pending
  activeHere i active := by cases active

theorem pending_active (inv : Inv d) (pending : d.pending = some i) : d.active = some i := by
  have bound := inv.pendingHere i pending
  have here : d.sessions[i]? = some d.sessions[i] := List.getElem?_eq_getElem bound
  refine (inv.active i _ here).mp ?_
  rw [(inv.queued i _ here).mpr pending]
  rfl

/-- One object takes a step. -/
theorem set (inv : Inv d) (here : d.sessions[i]? = some s) (phase : t.PhaseInv)
    {active pending : Option Nat} {workerStarted : Bool}
    (queued : t.worker = .queued ↔ pending = some i)
    (active_iff : t.worker.active = true ↔ active = some i)
    (elsewhere : ∀ j, i ≠ j →
      (pending = some j ↔ d.pending = some j) ∧ (active = some j ↔ d.active = some j)) :
    Inv { sessions := d.sessions.set i t, active, pending, workerStarted } := by
  obtain ⟨bound, -⟩ := List.getElem?_eq_some_iff.mp here
  constructor
  · intro j u place
    by_cases same : i = j
    · rw [← same, List.getElem?_set_self bound] at place
      cases place
      exact phase
    · rw [List.getElem?_set_ne same] at place
      exact inv.phases j u place
  · intro j u place
    by_cases same : i = j
    · rw [← same, List.getElem?_set_self bound] at place
      cases place
      exact same ▸ queued
    · rw [List.getElem?_set_ne same] at place
      exact (inv.queued j u place).trans (elsewhere j same).1.symm
  · intro j u place
    by_cases same : i = j
    · rw [← same, List.getElem?_set_self bound] at place
      cases place
      exact same ▸ active_iff
    · rw [List.getElem?_set_ne same] at place
      exact (inv.active j u place).trans (elsewhere j same).2.symm
  · intro j pendingEq
    rw [List.length_set]
    by_cases same : i = j
    · exact same ▸ bound
    · exact inv.pendingHere j ((elsewhere j same).1.mp pendingEq)
  · intro j activeEq
    rw [List.length_set]
    by_cases same : i = j
    · exact same ▸ bound
    · exact inv.activeHere j ((elsewhere j same).2.mp activeEq)

end Inv

/-- The loss of one object is the loss of that object. -/
theorem NoLeak.set_iff {d : Downloader} {i : Nat} {s t : Session} (here : d.sessions[i]? = some s)
    (before : ¬ s.Leaked) :
    (∀ u ∈ d.sessions.set i t, ¬ u.Leaked) ↔ NoLeak d ∧ ¬ t.Leaked := by
  obtain ⟨bound, atPlace⟩ := List.getElem?_eq_some_iff.mp here
  constructor
  · intro kept
    refine ⟨fun u member => ?_, kept t (List.mem_set bound t)⟩
    obtain ⟨j, place⟩ := List.mem_iff_getElem?.mp member
    by_cases same : i = j
    · rw [← same, here] at place
      cases place
      exact before
    · refine kept u (List.mem_iff_getElem?.mpr ⟨j, ?_⟩)
      rw [List.getElem?_set_ne same]
      exact place
  · rintro ⟨kept, after⟩ u member
    rcases List.mem_or_eq_of_mem_set member with old | rfl
    · exact kept u old
    · exact after

/-- Between the parties, only the timeout of an open on a finished object goes wrong. -/
theorem Inv.lifecycleOk_iff {d : Downloader} (inv : Inv d) : LifecycleOk d ↔ NoLeak d := by
  have phases : ∀ s ∈ d.sessions, s.PhaseInv := by
    intro s member
    obtain ⟨i, here⟩ := List.mem_iff_getElem?.mp member
    exact inv.phases i s here
  constructor
  · rintro right s member ⟨user, worker, none⟩
    rw [right.released s member user (.inr worker)] at none
    cases none
  · intro kept
    refine ⟨fun s member => (phases s member).held.atMostOnce,
      fun s member => (phases s member).untouched, ?_, ?_⟩
    · intro s member user worker
      have held := (phases s member).held
      rw [Session.Held, user] at held
      rcases held with ⟨once, -⟩ | ⟨-, -, idle, done⟩ | ⟨none, done⟩
      · exact once
      · rcases worker with phase | phase
        · exact absurd phase idle
        · exact absurd phase done
      · exact absurd ⟨user, done, none⟩ (kept s member)
    · intro i j s t here there sActive tActive
      have one := (inv.active i s here).mp sActive
      rw [(inv.active j t there).mp tActive] at one
      exact (Option.some.inj one).symm

/-- A new object belongs to its opener. -/
theorem Inv.allocate {d : Downloader} (inv : Inv d) :
    let e := { d with sessions := d.sessions ++ [{}] }
    Inv e ∧ (NoLeak e ↔ NoLeak d) := by
  intro e
  have places : ∀ (i : Nat) (s : Session), e.sessions[i]? = some s →
      d.sessions[i]? = some s ∨ i = d.sessions.length ∧ s = {} := by
    intro i s here
    by_cases old : i < d.sessions.length
    · rw [List.getElem?_append_left old] at here
      exact .inl here
    · rw [List.getElem?_append_right (by omega), List.getElem?_singleton] at here
      obtain ⟨last, rfl⟩ := Option.ite_none_right_eq_some.mp here |>.imp id Option.some.inj
      exact .inr ⟨by omega, rfl⟩
  refine ⟨⟨?_, ?_, ?_, ?_, ?_⟩, ?_⟩
  · intro i s here
    rcases places i s here with old | ⟨-, rfl⟩
    · exact inv.phases i s old
    · exact .init
  · intro i s here
    rcases places i s here with old | ⟨rfl, rfl⟩
    · exact inv.queued i s old
    · refine ⟨?_, fun pending => ?_⟩
      · intro queued
        cases queued
      exact absurd (inv.pendingHere _ pending) (Nat.lt_irrefl _)
  · intro i s here
    rcases places i s here with old | ⟨rfl, rfl⟩
    · exact inv.active i s old
    · refine ⟨?_, fun active => ?_⟩
      · intro active
        cases active
      exact absurd (inv.activeHere _ active) (Nat.lt_irrefl _)
  · intro i pending
    have := inv.pendingHere i pending
    rw [List.length_append]
    omega
  · intro i active
    have := inv.activeHere i active
    rw [List.length_append]
    omega
  · refine ⟨fun kept s member => kept s (List.mem_append_left _ member), ?_⟩
    intro kept s member
    rcases List.mem_append.mp member with old | new
    · exact kept s old
    · rw [List.mem_singleton.mp new]
      exact Session.notLeaked_of_user (by simp)

/-- A step of the parties that loses nothing. -/
theorem Inv.handed {d : Downloader} {i : Nat} {s t : Session} (inv : Inv d)
    (here : d.sessions[i]? = some s) (phase : t.PhaseInv) {active pending : Option Nat}
    {workerStarted : Bool} (queued : t.worker = .queued ↔ pending = some i)
    (active_iff : t.worker.active = true ↔ active = some i)
    (elsewhere : ∀ j, i ≠ j →
      (pending = some j ↔ d.pending = some j) ∧ (active = some j ↔ d.active = some j))
    (before : ¬ s.Leaked) (after : ¬ t.Leaked) :
    let e : Downloader := { sessions := d.sessions.set i t, active, pending, workerStarted }
    Inv e ∧ (NoLeak e ↔ NoLeak d) := by
  intro e
  refine ⟨inv.set here phase queued active_iff elsewhere, ?_⟩
  exact (NoLeak.set_iff here before).trans (and_iff_left after)

/-- What a step of any party does to the objects. -/
theorem Inv.step {d e : Downloader} {act : DownloaderAct} (inv : Inv d)
    (step : downloaderStep d act = some e) :
    Inv e ∧ (NoLeak e ↔ NoLeak d ∧ TimesOutInTime d act) := by
  cases act with
  | allocate =>
    cases step
    simp only [TimesOutInTime, and_true]
    exact inv.allocate
  | register i created =>
    obtain ⟨s, here, step⟩ := Option.bind_eq_some_iff.mp step
    simp only [TimesOutInTime, and_true]
    have phase := inv.phases i s here
    obtain ⟨opening, step⟩ := Option.ite_none_left_eq_some.mp step
    have user : s.user = .opening := not_not.mp opening
    have held := phase.held
    rw [Session.Held, user] at held
    obtain ⟨idle, none⟩ := held
    have before : ¬ s.Leaked := Session.notLeaked_of_user (by simp [user])
    split at step
    · cases step
      have failing : Session.PhaseInv { s with user := .failing } :=
        phase.user rfl rfl rfl (by simp [user]) fun _ => ⟨idle, none⟩
      exact inv.handed here failing (inv.queued i s here) (inv.active i s here)
        (fun j _ => ⟨Iff.rfl, Iff.rfl⟩) before (Session.notLeaked_of_user (by simp))
    · next free =>
      cases step
      have inactive : d.active = Option.none := by
        cases active : d.active with
        | none => rfl
        | some j => simp [active] at free
      have unpending : d.pending = Option.none := by
        cases pending : d.pending with
        | none => rfl
        | some j =>
          have active := inv.pending_active pending
          rw [inactive] at active
          cases active
      have queued : Session.PhaseInv { s with user := .waiting, worker := .queued } := by
        refine ⟨phase.untouched, ?_, ?_, by simp, by simp, none⟩
        · have unfinished := phase.finished.not
          rw [idle] at unfinished
          simpa using unfinished
        · intro orphan
          have gone := phase.orphaned orphan
          rw [user] at gone
          cases gone
      refine inv.handed here queued (by simp) (by simp [WorkerPhase.active]) ?_ before
        (Session.notLeaked_of_user (by simp))
      intro j other
      simp [inactive, unpending, other]
  | pick =>
    obtain ⟨i, pending, step⟩ := Option.bind_eq_some_iff.mp step
    obtain ⟨s, here, step⟩ := Option.bind_eq_some_iff.mp step
    obtain ⟨-, rfl⟩ := Option.ite_none_right_eq_some.mp step |>.imp id Option.some.inj
    simp only [TimesOutInTime, and_true]
    have queued := (inv.queued i s here).mpr pending
    have picked : Session.PhaseInv { s with worker := .picked } :=
      (inv.phases i s here).worker rfl rfl rfl rfl (by simp [queued]) (by simp)
    refine inv.handed here picked (by simp) ?_ ?_ (Session.notLeaked_of_worker (by simp [queued]))
      (Session.notLeaked_of_worker (by simp))
    · simp [inv.pending_active pending, WorkerPhase.active]
    · intro j other
      simp [pending, other]
  | clearActive i =>
    obtain ⟨s, here, step⟩ := Option.bind_eq_some_iff.mp step
    simp only [TimesOutInTime, and_true]
    split at step
    · next ok returned =>
      cases step
      have active := (inv.active i s here).mp (by rw [returned]; rfl)
      have notPending : d.pending ≠ some i := by
        intro pending
        have queued := (inv.queued i s here).mpr pending
        rw [returned] at queued
        cases queued
      have inactive : Session.PhaseInv { s with worker := .inactive ok } :=
        (inv.phases i s here).worker rfl rfl rfl rfl (by simp [returned]) (by simp)
      refine inv.handed here inactive (by simp [notPending]) (by simp [WorkerPhase.active]) ?_
        (Session.notLeaked_of_worker (by simp [returned])) (Session.notLeaked_of_worker (by simp))
      intro j other
      simp [active, other]
    · cases step
  | cancelAll =>
    simp only [TimesOutInTime, and_true]
    simp only [downloaderStep] at step
    split at step
    · cases step
      exact ⟨inv, Iff.rfl⟩
    · next i active =>
      obtain ⟨s, here, step⟩ := Option.bind_eq_some_iff.mp step
      cases step
      have phase := inv.phases i s here
      have works := (inv.active i s here).mpr active
      have none := phase.held.released_of_worker
        (by rintro idle; rw [idle] at works; cases works)
        (by rintro done; rw [done] at works; cases works)
      rw [Session.touch_eq none]
      have leaked : ¬ s.Leaked := by
        refine Session.notLeaked_of_worker ?_
        rintro done
        rw [done] at works
        cases works
      have cancelled : Session.PhaseInv { s with download := s.download.cancelAll } :=
        ⟨phase.untouched, phase.finished, phase.orphaned, phase.held⟩
      exact inv.handed here cancelled (inv.queued i s here) (inv.active i s here)
        (fun j _ => ⟨Iff.rfl, Iff.rfl⟩) leaked leaked
  | on i act =>
    obtain ⟨s, here, step⟩ := Option.bind_eq_some_iff.mp step
    obtain ⟨t, locked, last⟩ := Option.bind_eq_some_iff.mp step
    cases last
    have acted : s.touch.act act = some t := locked
    have phase := inv.phases i s here
    obtain ⟨phase', leaked⟩ := phase.step locked
    obtain ⟨queued, active⟩ := Session.act_worker acted
    have before : ¬ s.touch.Leaked := Session.notLeaked_of_act acted
    refine ⟨inv.set here phase' (queued.trans (inv.queued i s here)) ?_ fun j _ => ⟨Iff.rfl, Iff.rfl⟩,
      (NoLeak.set_iff here before).trans (and_congr_right fun _ => ?_)⟩
    · rw [active]
      exact inv.active i s here
    · rw [leaked]
      cases act <;> simp [TimesOutInTime, here]

/-- A run is right exactly when no open times out on a finished object. -/
theorem lifecycle_iff {acts : List DownloaderAct} {d : Downloader}
    (run : Runs downloaderStep anyStep Downloader.start acts d) :
    LifecycleOk d ↔ Runs downloaderStep TimesOutInTime Downloader.start acts d := by
  obtain ⟨inv, exact_iff⟩ := Runs.exact run Inv.start (fun s member => by cases member)
    (fun _ _ _ inv step => inv.step step)
  exact inv.lifecycleOk_iff.trans exact_iff

/-- An open of a missing page whose worker ends just after the wait has timed out. -/
def lateTimeout : List DownloaderAct :=
  [.allocate, .register 0 true, .on 0 .check, .pick, .on 0 .start, .on 0 (.transferEnd false),
    .clearActive 0, .on 0 (.finish 404), .on 0 .openTimeout]

theorem late_timeout_leaks :
    ∃ d, Runs downloaderStep anyStep Downloader.start lateTimeout d ∧ ¬ LifecycleOk d := by
  refine ⟨_, .of_foldlM rfl, fun right => ?_⟩
  have once := right.released _ List.mem_cons_self rfl (.inr rfl)
  cases once

/-- The same open, where the timeout comes before the worker ends. -/
def earlyTimeout : List DownloaderAct :=
  [.allocate, .register 0 true, .on 0 .check, .pick, .on 0 .start, .on 0 .openTimeout,
    .on 0 (.transferEnd false), .clearActive 0, .on 0 (.finish 404), .on 0 .orphanDestroy]

theorem lifecycle_iff_earlyTimeout : ∃ d, LifecycleOk d ↔
    Runs downloaderStep TimesOutInTime Downloader.start earlyTimeout d :=
  ⟨_, lifecycle_iff (.of_foldlM rfl)⟩

end FuseX.Http
