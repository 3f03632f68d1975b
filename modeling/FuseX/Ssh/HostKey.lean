import FuseX.Ssh.Protocol

/-!
# The key of the host

The file of known hosts changes at one place of a run, when the guest has accepted the
fingerprint that was presented. By the laws of the store, a lookup of the host finds
the presented fingerprint in every state that the trust leads to, and a lookup of
every other host finds what it found at the start.
-/

namespace FuseX.Ssh

variable {sha256 : Bytes → Bytes} {results : Results}

/-- A lookup finds the fingerprint that was presented. -/
def Found (key file : Bytes) (log : List Event) : Prop :=
  ∀ fingerprint stored, .presented fingerprint stored ∈ log → lookup key file = some fingerprint

theorem Found.append {key file : Bytes} {log events : List Event} (found : Found key file log)
    (unseen : Unseen events) : Found key file (log ++ events) := by
  intro fingerprint stored member
  rcases List.mem_append.mp member with before | after
  · exact found _ _ before
  · exact absurd after (unseen _ _)

/-- What the control state says about the file; `file` is the one at the start. -/
def KeyStage (key file : Bytes) (s : Socket) : Prop :=
  match s.state with
  | .emitKeygen | .emitIdentity | .checkHost => s.knownHosts = file
  | .emitTrust | .waitTrust =>
      s.knownHosts = file ∧ ∃ fingerprint : Word 95, fingerprint.text = s.fingerprint
  | .emitUser | .waitUser | .emitPassword | .waitPassword | .emitConnected | .raw =>
      Found key s.knownHosts s.log
  | .error | .new | .authStart | .authMethods | .authPassword | .openShell => True

variable (sha256) in
structure KeyInv (start s : Socket) : Prop where
  key : s.key sha256 = start.key sha256
  others : ∀ other, other ≠ start.key sha256 →
    lookup other s.knownHosts = lookup other start.knownHosts
  stage : KeyStage (start.key sha256) start.knownHosts s

variable {start : Socket}

theorem Login.keyInv {s : Socket} {r : Bool × Socket} (login : Login s r)
    (key : s.key sha256 = start.key sha256)
    (others : ∀ other, other ≠ start.key sha256 →
      lookup other s.knownHosts = lookup other start.knownHosts)
    (found : Found (start.key sha256) s.knownHosts s.log) : KeyInv sha256 start r.2 := by
  obtain ⟨events, log, requests, -⟩ := login.requests
  have kept : Found (start.key sha256) r.2.knownHosts r.2.log := by
    rw [log, login.same.knownHosts]
    exact found.append (Event.IsRequest.unseen requests)
  refine ⟨?_, ?_, ?_⟩
  · rw [← key, Socket.key, Socket.key, login.same.host, login.same.port]
  · rw [login.same.knownHosts]
    exact others
  · unfold KeyStage
    rcases login.state with ⟨-, states⟩ | ⟨-, state⟩
    · simp only [List.mem_cons, List.not_mem_nil, or_false] at states
      rcases states with state | state | state <;> rw [state] <;> exact kept
    · rw [state]
      trivial

theorem checkHost_key {s : Socket} (trust : TrustInv s) (inv : KeyInv sha256 start s)
    (state : s.state = .checkHost) : KeyInv sha256 start (checkHost sha256 results s).2 := by
  obtain ⟨key, others, stage⟩ := inv
  rw [KeyStage, state] at stage
  obtain ⟨unseen, -⟩ : Unseen s.log ∧ s.password = [] := by
    have stage := trust.stage
    rwa [Stage, state] at stage
  unfold checkHost
  cases results.fingerprint with
  | none => exact ⟨key, others, trivial⟩
  | some fingerprint =>
    dsimp only
    generalize stored_eq : lookup (s.key sha256) s.knownHosts = stored
    split_ifs with same
    · refine (authStart_login _).keyInv key others ?_
      intro fingerprint' stored' member
      rcases List.mem_append.mp member with before | here
      · exact absurd before (unseen _ _)
      · rcases List.mem_singleton.mp here
        rw [← key]
        exact stored_eq.trans same
    · exact ⟨key, others, stage, fingerprint, rfl⟩

theorem advanceControl_key {s : Socket} (trust : TrustInv s) (inv : KeyInv sha256 start s) :
    KeyInv sha256 start (advanceControl sha256 results s).2 := by
  have stage := trust.stage
  unfold advanceControl
  cases state : s.state <;> rw [Stage, state] at stage
  case checkHost => exact checkHost_key trust inv state
  case new | authStart | authMethods | authPassword | openShell => exact stage.elim
  all_goals exact inv

theorem emitLine_key {s : Socket} {message : Message} (len : Nat) (inv : KeyInv sha256 start s) :
    KeyInv sha256 start (emitLine len message s).2 := by
  obtain ⟨key, others, stage⟩ := inv
  unfold emitLine
  split_ifs
  · exact ⟨key, others, trivial⟩
  · refine ⟨key, others, ?_⟩
    unfold KeyStage at stage ⊢
    rw [Socket.note]
    dsimp only
    cases state : s.state <;> rw [state] at stage
    case emitUser | waitUser | emitPassword | waitPassword | emitConnected | raw =>
      exact Found.append stage (unseen_told _)
    all_goals exact stage

theorem socketRecv_key {s : Socket} (trust : TrustInv s) (inv : KeyInv sha256 start s) (len : Nat) :
    KeyInv sha256 start (socketRecv sha256 len results s).2 := by
  unfold socketRecv
  split_ifs
  · exact inv
  · exact inv
  · have advanced := @advanceControl_key sha256 results start s trust inv
    unfold recvControl
    dsimp only
    split_ifs
    · generalize (advanceControl sha256 results s).2 = t at advanced
      obtain ⟨key, others, stage⟩ := advanced
      unfold emitState
      cases state : t.state <;> rw [KeyStage, state] at stage <;> dsimp only
      case emitKeygen | emitIdentity | emitTrust | emitUser | emitPassword | emitConnected =>
        exact emitLine_key len ⟨key, others, stage⟩
      case error =>
        split_ifs
        · exact ⟨key, others, by rw [KeyStage, state]; trivial⟩
        · exact emitLine_key len ⟨key, others, trivial⟩
      all_goals exact ⟨key, others, by rw [KeyStage, state]; exact stage⟩
    · exact emitLine_key len ⟨advanced.key, advanced.others, trivial⟩

/-- The accepted key is stored, and the authentication begins. -/
theorem takeLine_key {s : Socket} (storable : Storable (start.key sha256) start.knownHosts)
    (trust : TrustInv s) (inv : KeyInv sha256 start s) :
    KeyInv sha256 start (advanceControl sha256 results
      { takeLine sha256 results (s.note (.answer s.taken)) with lineReady := false, line := [] }).2 := by
  obtain ⟨key, others, stage⟩ := inv
  have unseen := unseen_answer s.taken
  have told := trust.stage
  unfold takeLine
  cases state : s.state <;> rw [KeyStage, state] at stage <;> rw [Stage, state] at told <;>
    simp only [Socket.note, state]
  case waitTrust =>
    obtain ⟨file, fingerprint, fingerprint_eq⟩ := stage
    split_ifs with accept stored
    · have stored_eq : store (s.key sha256) s.fingerprint s.knownHosts =
          store (nvsKey sha256 start.host start.port).text fingerprint.text start.knownHosts := by
        rw [key, file, fingerprint_eq]
        rfl
      refine (authStart_login _).keyInv key ?_ ?_
      · intro other different
        refine (congrArg (lookup other) stored_eq).trans ?_
        exact lookup_store_other storable different
      · intro fingerprint' stored' member
        rcases List.mem_append.mp member with before | here
        · refine (congrArg (lookup (start.key sha256)) stored_eq).trans ?_
          rw [told.1.only _ _ before, ← fingerprint_eq]
          exact lookup_store storable
        · exact absurd here (unseen _ _)
    all_goals exact ⟨key, others, trivial⟩
  case waitUser => exact (authMethods_login _).keyInv key others (stage.append unseen)
  case waitPassword => exact (authPassword_login _).keyInv key others (stage.append unseen)
  case new | authStart | authMethods | authPassword | openShell => exact told.elim
  case error => exact ⟨key, others, trivial⟩
  case checkHost =>
    refine advanceControl_key ⟨?_, ?_, ?_⟩ ⟨key, others, stage⟩
    · exact trust.discreet.quiet fun e member => List.mem_singleton.mp member ▸ id
    · exact fun mode => (trust.raw mode).append _
    · exact ⟨told.1.append unseen, told.2⟩
  case emitUser | emitPassword | emitConnected | raw =>
    exact ⟨key, others, stage.append unseen⟩
  all_goals exact ⟨key, others, stage⟩

theorem socketSend_key {s : Socket} (storable : Storable (start.key sha256) start.knownHosts)
    (trust : TrustInv s) (inv : KeyInv sha256 start s) (buf : Bytes) :
    KeyInv sha256 start (socketSend sha256 buf results s).2 := by
  obtain ⟨line, ready, pending, fed, same⟩ := feedControl_same buf s
  have trust' : TrustInv (feedControl buf s).2 := by
    rw [same]
    exact ⟨trust.discreet, trust.raw, trust.stage⟩
  have inv' : KeyInv sha256 start (feedControl buf s).2 := by
    rw [same]
    exact ⟨inv.key, inv.others, inv.stage⟩
  unfold socketSend
  split_ifs
  · exact inv
  · exact inv
  · unfold sendControl
    dsimp only
    split_ifs
    · exact inv'
    · exact takeLine_key storable trust' inv'

end FuseX.Ssh
