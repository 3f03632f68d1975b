import FuseX.Ssh.HostKey

/-!
# The runs of the control protocol

`control_protocol` puts the invariants together: the trust and the secrets of every
run, the stored key where the file of known hosts can take the entry, and the answers
and errors of the runs whose calls are careful.
-/

namespace FuseX.Ssh

open Lib

variable {sha256 : Bytes → Bytes} {start s : Socket} {acts : List Act}

/-! ## Steps -/

theorem trustInv_run (init : TrustInv start) (run : Runs (stepSocket sha256) anyStep start acts s) :
    TrustInv s :=
  run.invariant init fun _ _ _ inv _ stepEq => stepSocket_trust sha256 inv stepEq

theorem keyInv_run (storable : Storable (start.key sha256) start.knownHosts)
    (trust : TrustInv start) (init : KeyInv sha256 start start)
    (run : Runs (stepSocket sha256) anyStep start acts s) : KeyInv sha256 start s := by
  have both : TrustInv s ∧ KeyInv sha256 start s := by
    refine run.invariant (I := fun t => TrustInv t ∧ KeyInv sha256 start t) ⟨trust, init⟩ ?_
    rintro t act next ⟨trusted, inv⟩ - stepEq
    refine ⟨stepSocket_trust sha256 trusted stepEq, ?_⟩
    cases act with
    | send buf results =>
      obtain rfl := Option.some.inj stepEq
      exact socketSend_key storable trusted inv buf
    | recv len results =>
      obtain rfl := Option.some.inj stepEq
      exact socketRecv_key trusted inv len
  exact both.2

/-- What the careful calls keep. -/
structure CarefulInv (s : Socket) : Prop where
  trust : TrustInv s
  answer : AnswerInv s
  error : ErrorInv s

theorem CarefulInv.step {t : Socket} {act : Act} (inv : CarefulInv s) (careful : Careful sha256 s act)
    (stepEq : stepSocket sha256 s act = some t) : CarefulInv t := by
  refine ⟨stepSocket_trust sha256 inv.trust stepEq, ?_, ?_⟩
  · cases act with
    | send buf results =>
      obtain rfl := Option.some.inj stepEq
      exact (socketSend_sent inv.answer careful).answerInv inv.answer
    | recv len results =>
      obtain rfl := Option.some.inj stepEq
      exact socketRecv_answerInv inv.answer len
  · cases act with
    | send buf results =>
      obtain rfl := Option.some.inj stepEq
      cases mode : s.rawMode with
      | false => exact (socketSend_sent inv.answer careful).errorInv inv.error mode
      | true =>
        have still : (socketSend sha256 buf results s).2 = s := by
          unfold socketSend
          rw [if_pos mode]
          split_ifs <;> rfl
        rw [still]
        exact inv.error
    | recv len results =>
      obtain rfl := Option.some.inj stepEq
      exact socketRecv_errorInv inv.trust inv.error careful

/-! ## The protocol -/

variable (sha256) in
/-- A fatal error is reported to the guest once: as soon as there is room for it, and
never again. -/
structure Reported (s : Socket) : Prop where
  before : s.state ≠ .error → errorsTold s.log = 0
  next : s.state = .error → s.errorEmitted = false → errorsTold s.log = 0 ∧
    ∀ len results, (Message.error s.lastError).line.length ≤ len →
      (socketRecv sha256 len results s).2.log = s.log ++ [.told (.error s.lastError)]
  after : s.errorEmitted = true → errorsTold s.log = 1

theorem ErrorInv.reported (inv : ErrorInv s) : Reported sha256 s where
  before := by
    intro other
    have emitted : s.errorEmitted = false :=
      Bool.eq_false_iff.mpr fun emitted => other (inv.emitted emitted)
    rw [inv.told, emitted]
    rfl
  next := by
    intro state emitted
    refine ⟨by rw [inv.told, emitted]; rfl, fun len results fits => ?_⟩
    have mode : s.rawMode ≠ true := fun mode =>
      ControlState.noConfusion (state.symm.trans (inv.shell mode))
    have room : len ≠ 0 := by
      rintro rfl
      rw [Message.line, List.length_take] at fits
      simp [text] at fits
    unfold socketRecv recvControl
    rw [if_neg room, if_neg mode, advanceControl_error state]
    dsimp only
    rw [if_pos rfl, emitState, state]
    dsimp only
    rw [if_neg (by rw [emitted]; exact Bool.false_ne_true), emitLine, if_neg (Nat.not_lt.mpr fits)]
    rfl
  after := by
    intro emitted
    rw [inv.told, emitted]
    rfl

variable (sha256) in
/-- The key of the trusted host is stored, and no other host's is changed. -/
structure KeyStored (host : Bytes) (port : Nat) (file : Bytes) (s : Socket) : Prop where
  found : s.state ∈ [.emitUser, .waitUser, .emitPassword, .waitPassword, .emitConnected, .raw] →
    ∀ fingerprint stored, .presented fingerprint stored ∈ s.log →
      lookup (nvsKey sha256 host port).text s.knownHosts = some fingerprint
  others : ∀ host' port', (nvsKey sha256 host' port').text ≠ (nvsKey sha256 host port).text →
    lookup (nvsKey sha256 host' port').text s.knownHosts = lookup (nvsKey sha256 host' port').text file

theorem KeyInv.stored {host : Bytes} {port : Nat} {username identity : Bytes} {generated : Bool}
    {file : Bytes}
    (inv : KeyInv sha256 (Socket.initial host port username identity generated file) s) :
    KeyStored sha256 host port file s where
  found := by
    intro states
    have stage := inv.stage
    unfold KeyStage at stage
    simp only [List.mem_cons, List.not_mem_nil, or_false] at states
    rcases states with state | state | state | state | state | state <;> rw [state] at stage <;>
      exact stage
  others := fun host' port' different => inv.others _ different

theorem careful_initial (host : Bytes) (port : Nat) (username identity : Bytes) (generated : Bool)
    (file : Bytes) : CarefulInv (.initial host port username identity generated file) := by
  refine ⟨⟨?_, nofun, ?_⟩, ⟨rfl, rfl, List.not_mem_nil, nofun⟩, ⟨rfl, nofun, nofun⟩⟩
  · intro front event back split
    exact absurd split (by simp [Socket.initial])
  · cases generated <;> exact ⟨fun _ _ => List.not_mem_nil, rfl⟩

theorem keyInv_initial (host : Bytes) (port : Nat) (username identity : Bytes) (generated : Bool)
    (file : Bytes) :
    KeyInv sha256 (.initial host port username identity generated file)
      (.initial host port username identity generated file) := by
  refine ⟨rfl, fun _ _ => rfl, ?_⟩
  cases generated <;> exact rfl

/-- The shell is reached only by an accepted user of a trusted host, and no user is
named to another one; the key of the trusted host is stored where the file can take the
entry; and when the calls are careful the answers are the lines of the guest's bytes
and a fatal error is reported once. -/
theorem control_protocol {host : Bytes} {port : Nat} {username identity : Bytes} {generated : Bool}
    {file : Bytes}
    (run : Runs (stepSocket sha256) anyStep
      (.initial host port username identity generated file) acts s) :
    (s.rawMode = true → LoggedIn s.log) ∧ Discreet s.log ∧
      (Storable (nvsKey sha256 host port).text file → KeyStored sha256 host port file s) ∧
      (Runs (stepSocket sha256) (Careful sha256)
          (.initial host port username identity generated file) acts s →
        answers s.log = (linesOf s.fed).done ∧ Reported sha256 s) := by
  have init := careful_initial host port username identity generated file
  have trust := trustInv_run init.trust run
  refine ⟨trust.raw, trust.discreet, fun storable => ?_, fun careful => ?_⟩
  · have initKey := @keyInv_initial sha256 host port username identity generated file
    generalize start_eq : Socket.initial host port username identity generated file = start at *
    have storable' : Storable (start.key sha256) start.knownHosts := by
      rw [← start_eq]
      exact storable
    have inv := keyInv_run storable' init.trust initKey run
    rw [← start_eq] at inv
    exact inv.stored
  · have inv : CarefulInv s :=
      careful.invariant init fun _ _ _ before allowed stepEq => before.step allowed stepEq
    exact ⟨inv.answer.answers, inv.error.reported⟩

/-! ## Runs -/

instance (s : Socket) (buf : Bytes) : Decidable (WholeLine s buf) :=
  inferInstanceAs (Decidable (¬ _ ∧ 0 ∉ _ ∧ _ ≤ _))

instance (s : Socket) : (act : Act) → Decidable (Careful sha256 s act)
  | .send buf _ => inferInstanceAs (Decidable (_ → _ → WholeLine s buf))
  | .recv _ _ => inferInstanceAs (Decidable ((_ → _) ∧ (_ → _) ∧ (_ → _ → _)))

/-- The fingerprint that the server presents in the runs. -/
def hostFingerprint : Word 95 where
  text := text "SHA256:k"
  nonempty := List.cons_ne_nil _ _
  fits := by decide
  plain := by
    have all : (text "SHA256:k").all fun c => isSpace c = false ∧ c ≠ 0 := rfl
    exact fun c member => of_decide_eq_true (List.all_eq_true.mp all c member)

/-- What the server and the files answer in the runs. -/
def served : Results where
  fingerprint := some hostFingerprint
  methods := some (text "password")
  authenticated := false
  publickey := false
  password := true
  shell := none
  stored := true
  channel := 0

/-- The guest accepts the key and logs in; the last line comes in two pieces. -/
def login : List Act :=
  [.recv 100 served, .recv 100 served, .send (text "yes\r\n") served, .recv 100 served,
    .send (text "bob\n") served, .recv 100 served, .send (text "sec") served,
    .send (text "ret\r") served, .recv 100 served]

/-- A socket for a host that is not known. -/
def unknown : Socket :=
  .initial (text "h") 22 [] (text "ssh-rsa A") false []

theorem storable_empty (key : Bytes) : Storable key [] :=
  ⟨List.not_mem_nil, .inl fun _ member => absurd member List.not_mem_nil⟩

theorem control_protocol_login : ∃ s, s.rawMode = true ∧ LoggedIn s.log ∧ Discreet s.log ∧
    KeyStored (fun _ => []) (text "h") 22 [] s ∧
    answers s.log = [text "yes", text "bob", text "secret"] ∧ Reported (fun _ => []) s := by
  have run : ∃ s, login.foldlM (guarded (stepSocket fun _ => []) (Careful fun _ => [])) unknown =
      some s ∧ s.rawMode = true ∧
      (linesOf s.fed).done = [text "yes", text "bob", text "secret"] :=
    ⟨_, rfl, by decide, by decide⟩
  obtain ⟨s, eval, raw, lines⟩ := run
  have careful : Runs (stepSocket fun _ => []) (Careful fun _ => []) unknown login s :=
    .of_guarded eval
  obtain ⟨loggedIn, discreet, stored, kept⟩ := control_protocol careful.unguarded
  obtain ⟨answered, reported⟩ := kept careful
  exact ⟨s, raw, loggedIn raw, discreet, stored (storable_empty _), answered.trans lines, reported⟩

/-- The second half of the end of a line, in a piece of its own, is taken for an empty
line, here the name of the user; and an error of the host check is told twice. -/
theorem control_protocol_fails :
    (∃ s, Runs (stepSocket fun _ => []) anyStep unknown [.recv 100 served, .recv 100 served,
        .send (text "yes\r") served, .recv 100 served, .send (text "\nbob\n") served] s ∧
      (linesOf s.fed).done = [text "yes"] ∧ answers s.log = [text "yes", []]) ∧
    ∃ s, Runs (stepSocket fun _ => []) anyStep unknown [.recv 100 served,
        .recv 100 { served with fingerprint := none }, .recv 100 served] s ∧
      errorsTold s.log = 2 :=
  ⟨⟨_, .of_foldlM rfl, by decide, by decide⟩, ⟨_, .of_foldlM rfl, by decide⟩⟩

end FuseX.Ssh
