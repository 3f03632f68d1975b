import FuseX.Ssh.TrustStore
import FuseX.Ssh.Answers

/-!
# Trust before authentication

What the log of every run says: a user is named to the server only when the presented
fingerprint is the stored one or the guest has accepted it (`Discreet`), and the shell
is reached only when the server has accepted the user after that (`LoggedIn`).

`Login` is what the functions of the authentication have in common: they add requests
to the log and change nothing else but the state. `TrustInv` holds between the calls.
-/

namespace FuseX.Ssh

/-! ## The log -/

/-- Requests to the server, and their success. -/
def Event.IsRequest : Event → Prop
  | .userauthList _ | .userauthPublickey _ | .userauthPassword _ _ | .authenticated => True
  | _ => False

/-- Requests with a user name or a password. -/
def Event.NamesUser : Event → Prop
  | .userauthList _ | .userauthPublickey _ | .userauthPassword _ _ => True
  | _ => False

/-- No host key has been presented. -/
def Unseen (log : List Event) : Prop :=
  ∀ fingerprint stored, .presented fingerprint stored ∉ log

/-- The guest was asked about the fingerprint and has accepted it. -/
def Accepted (fingerprint : Bytes) (log : List Event) : Prop :=
  ∃ front line back, log = front ++ .told (.trust fingerprint) :: .answer line :: back ∧
    lineIsAccept line fingerprint = true

/-- The presented fingerprint is the one that is stored for the host, or the guest has
accepted it. -/
def Trusted (log : List Event) : Prop :=
  (∃ fingerprint stored, .presented fingerprint stored ∈ log) ∧
    ∀ fingerprint stored, .presented fingerprint stored ∈ log →
      stored = some fingerprint ∨ Accepted fingerprint log

/-- The server has accepted the user, and the host was trusted before. -/
def LoggedIn (log : List Event) : Prop :=
  ∃ front back, log = front ++ .authenticated :: back ∧ Trusted front

/-- The host is trusted before a user is named to it. -/
def Discreet (log : List Event) : Prop :=
  ∀ front event back, log = front ++ event :: back → event.NamesUser → Trusted front

theorem Event.IsRequest.unseen {events : List Event} (requests : ∀ e ∈ events, e.IsRequest) :
    Unseen events :=
  fun _ _ member => requests _ member

theorem Unseen.append {log events : List Event} (unseen : Unseen log) (more : Unseen events) :
    Unseen (log ++ events) := by
  intro fingerprint stored member
  rcases List.mem_append.mp member with before | after
  · exact unseen _ _ before
  · exact more _ _ after

theorem Accepted.append {fingerprint : Bytes} {log : List Event} (accepted : Accepted fingerprint log)
    (events : List Event) : Accepted fingerprint (log ++ events) := by
  obtain ⟨front, line, back, rfl, accept⟩ := accepted
  exact ⟨front, line, back ++ events, by simp, accept⟩

theorem Trusted.append {log events : List Event} (trusted : Trusted log) (unseen : Unseen events) :
    Trusted (log ++ events) := by
  obtain ⟨⟨fingerprint, stored, presented⟩, all⟩ := trusted
  refine ⟨⟨fingerprint, stored, List.mem_append_left _ presented⟩, ?_⟩
  intro fingerprint' stored' member
  rcases List.mem_append.mp member with before | after
  · exact (all _ _ before).imp_right fun accepted => accepted.append events
  · exact absurd after (unseen _ _)

theorem LoggedIn.append {log : List Event} (loggedIn : LoggedIn log) (events : List Event) :
    LoggedIn (log ++ events) := by
  obtain ⟨front, back, rfl, trusted⟩ := loggedIn
  exact ⟨front, back ++ events, by simp, trusted⟩

/-- A trusted host has accepted the user. -/
theorem Trusted.loggedIn {log events : List Event} (trusted : Trusted log) (unseen : Unseen events)
    (accepted : .authenticated ∈ events) : LoggedIn (log ++ events) := by
  obtain ⟨front, back, rfl⟩ := List.append_of_mem accepted
  refine ⟨log ++ front, back, (List.append_assoc _ _ _).symm, trusted.append ?_⟩
  exact fun _ _ member => unseen _ _ (List.mem_append_left _ member)

/-- Where users are named behind a log, the host is trusted there. -/
theorem Discreet.append {log events : List Event} (discreet : Discreet log)
    (named : ∀ front event back, events = front ++ event :: back → event.NamesUser →
      Trusted (log ++ front)) : Discreet (log ++ events) := by
  intro front event back split names
  rcases List.append_eq_append_iff.mp split with ⟨more, rfl, events_eq⟩ | ⟨more, log_eq, back_eq⟩
  · exact named more event back events_eq names
  · cases more with
    | nil =>
      rw [List.append_nil] at log_eq
      rw [← log_eq, ← List.append_nil log]
      exact named [] event back back_eq.symm names
    | cons first more =>
      obtain ⟨rfl, -⟩ := List.cons.inj back_eq
      exact discreet front event more log_eq names

theorem Discreet.quiet {log events : List Event} (discreet : Discreet log)
    (none_ : ∀ e ∈ events, ¬ e.NamesUser) : Discreet (log ++ events) := by
  refine discreet.append fun front event back split names => absurd names (none_ event ?_)
  rw [split]
  exact List.mem_append_right _ List.mem_cons_self

theorem Discreet.requests {log events : List Event} (discreet : Discreet log) (trusted : Trusted log)
    (requests : ∀ e ∈ events, e.IsRequest) : Discreet (log ++ events) := by
  refine discreet.append fun front event back split _ => trusted.append ?_
  subst split
  exact Event.IsRequest.unseen fun e member => requests e (List.mem_append_left _ member)

/-! ## Authentication -/

/-- What stays the same while the control state advances. -/
structure Same (s t : Socket) : Prop where
  rawMode : t.rawMode = s.rawMode
  errorEmitted : t.errorEmitted = s.errorEmitted
  host : t.host = s.host
  port : t.port = s.port
  line : t.line = s.line
  lineReady : t.lineReady = s.lineReady
  promptPending : t.promptPending = s.promptPending
  knownHosts : t.knownHosts = s.knownHosts
  fed : t.fed = s.fed

theorem Same.trans {s t u : Socket} (first : Same s t) (second : Same t u) : Same s u where
  rawMode := second.rawMode.trans first.rawMode
  errorEmitted := second.errorEmitted.trans first.errorEmitted
  host := second.host.trans first.host
  port := second.port.trans first.port
  line := second.line.trans first.line
  lineReady := second.lineReady.trans first.lineReady
  promptPending := second.promptPending.trans first.promptPending
  knownHosts := second.knownHosts.trans first.knownHosts
  fed := second.fed.trans first.fed

/-- What a function of the authentication makes of a socket. -/
structure Login (s : Socket) (r : Bool × Socket) : Prop where
  same : Same s r.2
  fingerprint : r.2.fingerprint = s.fingerprint
  requests : ∃ events, r.2.log = s.log ++ events ∧ (∀ e ∈ events, e.IsRequest) ∧
    (r.2.state = .emitConnected → .authenticated ∈ events)
  state : r.1 = true ∧ r.2.state ∈ [.emitUser, .emitPassword, .emitConnected] ∨
    r.1 = false ∧ r.2.state = .error

theorem Login.fail {s : Socket} (reason : Bytes) : Login s (false, s.fail reason) where
  same := ⟨rfl, rfl, rfl, rfl, rfl, rfl, rfl, rfl, rfl⟩
  fingerprint := rfl
  requests := ⟨[], (List.append_nil _).symm, nofun, nofun⟩
  state := .inr ⟨rfl, rfl⟩

/-- No request yet. -/
theorem Login.prompt {s : Socket} {state : ControlState} (prompt : state ∈ [.emitUser, .emitPassword]) :
    Login s (true, { s with state := state }) where
  same := ⟨rfl, rfl, rfl, rfl, rfl, rfl, rfl, rfl, rfl⟩
  fingerprint := rfl
  requests := by
    refine ⟨[], (List.append_nil _).symm, nofun, ?_⟩
    rintro rfl
    exact absurd prompt (by decide)
  state := .inl ⟨rfl, by simp only [List.mem_cons, List.not_mem_nil, or_false] at prompt ⊢; tauto⟩

/-- A request in front. -/
theorem Login.after {s : Socket} {r : Bool × Socket} (event : Event) (request : event.IsRequest)
    (password : Bytes) (login : Login { s.note event with password := password } r) : Login s r where
  same := by
    have same := login.same
    exact ⟨same.rawMode, same.errorEmitted, same.host, same.port, same.line, same.lineReady,
      same.promptPending, same.knownHosts, same.fed⟩
  fingerprint := login.fingerprint
  requests := by
    obtain ⟨events, log, requests, accepted⟩ := login.requests
    refine ⟨event :: events, ?_, List.forall_mem_cons.mpr ⟨request, requests⟩, ?_⟩
    · rw [log, Socket.note, List.append_assoc, List.singleton_append]
    · exact fun connected => List.mem_cons_of_mem _ (accepted connected)
  state := login.state

variable {results : Results}

theorem openShell_login (s : Socket) : Login s (openShell results (s.note .authenticated)) := by
  unfold openShell
  cases results.shell with
  | some reason => exact Login.after .authenticated trivial s.password (Login.fail reason)
  | none =>
    exact {
      same := ⟨rfl, rfl, rfl, rfl, rfl, rfl, rfl, rfl, rfl⟩
      fingerprint := rfl
      requests := ⟨[.authenticated], rfl, fun e member => List.mem_singleton.mp member ▸ trivial,
        fun _ => List.mem_cons_self⟩
      state := .inl ⟨rfl, by simp⟩ }

theorem authPassword_login (s : Socket) : Login s (authPassword results s) := by
  unfold authPassword
  dsimp only
  refine Login.after (.userauthPassword s.username s.password) trivial [] ?_
  split_ifs
  · exact openShell_login _
  · exact Login.fail _

theorem authByPassword_login (s : Socket) : Login s (authByPassword results s) := by
  unfold authByPassword
  split_ifs
  · exact Login.prompt (by simp)
  · exact authPassword_login s
  · exact Login.fail _

theorem authMethods_login (s : Socket) : Login s (authMethods results s) := by
  unfold authMethods
  dsimp only
  refine Login.after (.userauthList s.username) trivial s.password ?_
  split_ifs
  · exact openShell_login _
  · exact Login.after (.userauthPublickey s.username) trivial s.password (openShell_login _)
  · exact Login.after (.userauthPublickey s.username) trivial s.password (authByPassword_login _)
  · exact authByPassword_login _

theorem authStart_login (s : Socket) : Login s (authStart results s) := by
  unfold authStart
  split_ifs
  · exact Login.prompt (by simp)
  · exact authMethods_login s

/-! ## Between the calls -/

/-- A host key has been presented, with this fingerprint. -/
structure Shown (fingerprint : Bytes) (log : List Event) : Prop where
  presented : ∃ stored, .presented fingerprint stored ∈ log
  only : ∀ fingerprint' stored, .presented fingerprint' stored ∈ log → fingerprint' = fingerprint

theorem Shown.append {fingerprint : Bytes} {log events : List Event} (shown : Shown fingerprint log)
    (unseen : Unseen events) : Shown fingerprint (log ++ events) := by
  obtain ⟨⟨stored, presented⟩, only⟩ := shown
  refine ⟨⟨stored, List.mem_append_left _ presented⟩, ?_⟩
  intro fingerprint' stored' member
  rcases List.mem_append.mp member with before | after
  · exact only _ _ before
  · exact absurd after (unseen _ _)

/-- What the control state says about the log. -/
def Stage (s : Socket) : Prop :=
  match s.state with
  | .emitKeygen | .emitIdentity | .checkHost => Unseen s.log ∧ s.password = []
  | .emitTrust => Shown s.fingerprint s.log
  | .waitTrust => Shown s.fingerprint s.log ∧ ∃ front, s.log = front ++ [.told (.trust s.fingerprint)]
  | .emitUser | .waitUser | .emitPassword | .waitPassword => Trusted s.log
  | .emitConnected | .raw => LoggedIn s.log
  | .error => True
  | .new | .authStart | .authMethods | .authPassword | .openShell => False

structure TrustInv (s : Socket) : Prop where
  discreet : Discreet s.log
  raw : s.rawMode = true → LoggedIn s.log
  stage : Stage s

theorem TrustInv.fail {s : Socket} (discreet : Discreet s.log)
    (raw : s.rawMode = true → LoggedIn s.log) (reason : Bytes) : TrustInv (s.fail reason) :=
  ⟨discreet, raw, trivial⟩

/-- The authentication of a trusted host. -/
theorem Login.trustInv {s : Socket} {r : Bool × Socket} (login : Login s r)
    (discreet : Discreet s.log) (trusted : Trusted s.log)
    (raw : s.rawMode = true → LoggedIn s.log) : TrustInv r.2 := by
  obtain ⟨events, log, requests, accepted⟩ := login.requests
  have unseen := Event.IsRequest.unseen requests
  refine ⟨?_, ?_, ?_⟩
  · rw [log]
    exact discreet.requests trusted requests
  · rw [log, login.same.rawMode]
    exact fun mode => (raw mode).append events
  · rcases login.state with ⟨-, states⟩ | ⟨-, state⟩
    · simp only [List.mem_cons, List.not_mem_nil, or_false] at states
      rcases states with state | state | state
      · rw [Stage, state, log]
        exact trusted.append unseen
      · rw [Stage, state, log]
        exact trusted.append unseen
      · rw [Stage, state, log]
        exact trusted.loggedIn unseen (accepted state)
    · rw [Stage, state]
      trivial

variable (sha256 : Bytes → Bytes)

theorem checkHost_trust {s : Socket} (inv : TrustInv s) (state : s.state = .checkHost) :
    TrustInv (checkHost sha256 results s).2 := by
  obtain ⟨unseen, -⟩ : Unseen s.log ∧ s.password = [] := by
    have stage := inv.stage
    rwa [Stage, state] at stage
  unfold checkHost
  cases results.fingerprint with
  | none => exact .fail inv.discreet inv.raw _
  | some fingerprint =>
    dsimp only
    generalize lookup (s.key sha256) s.knownHosts = stored
    have only : ∀ fingerprint' stored',
        .presented fingerprint' stored' ∈ s.log ++ [.presented fingerprint.text stored] →
        fingerprint' = fingerprint.text ∧ stored' = stored := by
      intro fingerprint' stored' member
      rcases List.mem_append.mp member with before | here
      · exact absurd before (unseen _ _)
      · rcases List.mem_singleton.mp here
        exact ⟨rfl, rfl⟩
    have discreet : Discreet (s.log ++ [.presented fingerprint.text stored]) :=
      inv.discreet.quiet fun e member => List.mem_singleton.mp member ▸ id
    have raw (mode : s.rawMode = true) := (inv.raw mode).append [.presented fingerprint.text stored]
    split_ifs with same
    · refine (authStart_login _).trustInv discreet ⟨⟨fingerprint.text, stored, ?_⟩, ?_⟩ raw
      · exact List.mem_append_right _ List.mem_cons_self
      · intro fingerprint' stored' member
        obtain ⟨rfl, rfl⟩ := only _ _ member
        exact .inl same
    · refine ⟨discreet, raw, ?_⟩
      exact ⟨⟨stored, List.mem_append_right _ List.mem_cons_self⟩,
        fun _ _ member => (only _ _ member).1⟩

theorem advanceControl_trust {s : Socket} (inv : TrustInv s) :
    TrustInv (advanceControl sha256 results s).2 := by
  have stage := inv.stage
  unfold advanceControl
  cases state : s.state <;> rw [Stage, state] at stage
  case checkHost => exact checkHost_trust sha256 inv state
  case new | authStart | authMethods | authPassword | openShell => exact stage.elim
  all_goals exact inv

/-! ## The calls -/

theorem emitLine_trust {s : Socket} {message : Message} (len : Nat) (discreet : Discreet s.log)
    (raw : s.rawMode = true → LoggedIn s.log) (stage : Stage (s.note (.told message))) :
    TrustInv (emitLine len message s).2 := by
  unfold emitLine
  split_ifs
  · exact .fail discreet raw _
  · refine ⟨discreet.quiet ?_, fun mode => (raw mode).append _, stage⟩
    exact fun e member => List.mem_singleton.mp member ▸ id

theorem unseen_told (message : Message) : Unseen [.told message] :=
  fun _ _ member => Event.noConfusion (List.mem_singleton.mp member)

theorem emitState_trust {s : Socket} (inv : TrustInv s) (len : Nat) :
    TrustInv (emitState len s).2 := by
  have stage := inv.stage
  unfold emitState
  cases state : s.state <;> rw [Stage, state] at stage <;> dsimp only
  case emitKeygen | emitIdentity =>
    exact emitLine_trust len inv.discreet inv.raw ⟨stage.1.append (unseen_told _), stage.2⟩
  case emitTrust =>
    exact emitLine_trust len inv.discreet inv.raw ⟨Shown.append stage (unseen_told _), s.log, rfl⟩
  case emitUser | emitPassword =>
    exact emitLine_trust len inv.discreet inv.raw (Trusted.append stage (unseen_told _))
  case emitConnected =>
    exact emitLine_trust len inv.discreet (fun _ => stage) (stage.append _)
  case error =>
    split_ifs
    · exact inv
    · exact emitLine_trust len inv.discreet nofun trivial
  all_goals exact inv

theorem socketRecv_trust {s : Socket} (inv : TrustInv s) (len : Nat) :
    TrustInv (socketRecv sha256 len results s).2 := by
  unfold socketRecv
  split_ifs
  · exact inv
  · exact inv
  · unfold recvControl
    dsimp only
    have advanced := @advanceControl_trust results sha256 s inv
    split_ifs
    · exact emitState_trust advanced len
    · exact emitLine_trust len advanced.discreet advanced.raw trivial

/-- Feeding changes the line and no more. -/
theorem feedControl_same (buf : Bytes) (s : Socket) :
    ∃ line lineReady promptPending fed, (feedControl buf s).2 =
      { s with
        line := line
        lineReady := lineReady
        promptPending := promptPending
        fed := fed } := by
  have loop : ∃ line lineReady promptPending, (feedLoop buf s).2 =
      { s with line := line, lineReady := lineReady, promptPending := promptPending } := by
    induction buf generalizing s with
    | nil => exact ⟨_, _, _, rfl⟩
    | cons c buf ih =>
      unfold feedLoop
      dsimp only
      by_cases ends : c = ascii '\r' ∨ c = ascii '\n'
      · rw [if_pos ends]
        exact ⟨_, _, _, rfl⟩
      · rw [if_neg ends]
        split_ifs
        · obtain ⟨line, ready, pending, loop⟩ := ih { s with line := s.line ++ [c] }
          exact ⟨line, ready, pending, loop⟩
        · exact ih s
  unfold feedControl
  split_ifs
  · obtain ⟨line, ready, pending, loop⟩ := loop
    exact ⟨line, ready, pending, _, by dsimp only; rw [loop]⟩
  · exact ⟨_, _, _, _, rfl⟩

theorem lineIsAccept_cString (line fingerprint : Bytes) :
    lineIsAccept (cString line) fingerprint = lineIsAccept line fingerprint := by
  have twice : cString (cString line) = cString line := by
    rw [cString, List.takeWhile_eq_self_iff]
    exact fun c member => (List.mem_takeWhile_imp member :)
  rw [lineIsAccept, lineIsAccept, twice]

theorem unseen_answer (line : Bytes) : Unseen [.answer line] :=
  fun _ _ member => Event.noConfusion (List.mem_singleton.mp member)

/-- A line is taken, and the control state advances. -/
theorem takeLine_trust {s : Socket} (inv : TrustInv s) :
    TrustInv (advanceControl sha256 results { takeLine sha256 results (s.note (.answer s.taken)) with
      lineReady := false
      line := [] }).2 := by
  have discreet : Discreet (s.log ++ [.answer s.taken]) :=
    inv.discreet.quiet fun e member => List.mem_singleton.mp member ▸ id
  have raw (mode : s.rawMode = true) := (inv.raw mode).append [.answer s.taken]
  have unseen := unseen_answer s.taken
  have stage := inv.stage
  unfold takeLine
  cases state : s.state <;> rw [Stage, state] at stage <;>
    simp only [Socket.note, state]
  case waitTrust =>
    obtain ⟨⟨presented, only⟩, front, asked⟩ := stage
    have taken : s.taken = cString s.line := by
      rw [Socket.taken, state]
    split_ifs with accept stored
    · refine (authStart_login _).trustInv discreet ?_ raw
      obtain ⟨stored, presented⟩ := presented
      refine ⟨⟨s.fingerprint, stored, List.mem_append_left _ presented⟩, ?_⟩
      intro fingerprint' stored' member
      rcases List.mem_append.mp member with before | here
      · obtain rfl := only _ _ before
        refine .inr ⟨front, s.taken, [], ?_, ?_⟩
        · rw [asked, List.append_assoc]
          rfl
        · rw [taken, lineIsAccept_cString]
          exact accept
      · exact absurd here (unseen _ _)
    all_goals exact ⟨discreet, raw, trivial⟩
  case waitUser => exact (authMethods_login _).trustInv discreet (stage.append unseen) raw
  case waitPassword => exact (authPassword_login _).trustInv discreet (stage.append unseen) raw
  case new | authStart | authMethods | authPassword | openShell => exact stage.elim
  all_goals refine advanceControl_trust sha256 ⟨discreet, raw, ?_⟩
  case emitKeygen | emitIdentity | checkHost =>
    rw [Stage]
    exact ⟨stage.1.append unseen, stage.2⟩
  case emitTrust =>
    rw [Stage]
    exact Shown.append stage unseen
  case emitUser | emitPassword =>
    rw [Stage]
    exact Trusted.append stage unseen
  case emitConnected | raw =>
    rw [Stage]
    exact LoggedIn.append stage _
  case error => trivial

theorem socketSend_trust {s : Socket} (inv : TrustInv s) (buf : Bytes) :
    TrustInv (socketSend sha256 buf results s).2 := by
  have fed : TrustInv (feedControl buf s).2 := by
    obtain ⟨line, ready, pending, fed, same⟩ := feedControl_same buf s
    rw [same]
    exact ⟨inv.discreet, inv.raw, inv.stage⟩
  unfold socketSend
  split_ifs
  · exact inv
  · exact inv
  · unfold sendControl
    dsimp only
    split_ifs
    · exact fed
    · exact takeLine_trust sha256 fed

theorem stepSocket_trust {s t : Socket} {act : Act} (inv : TrustInv s)
    (stepEq : stepSocket sha256 s act = some t) : TrustInv t := by
  cases act with
  | send buf results =>
    obtain rfl := Option.some.inj stepEq
    exact socketSend_trust sha256 inv buf
  | recv len results =>
    obtain rfl := Option.some.inj stepEq
    exact socketRecv_trust sha256 inv len

end FuseX.Ssh
