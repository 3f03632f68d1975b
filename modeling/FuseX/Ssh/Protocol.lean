import FuseX.Ssh.Trust
import FuseX.Lib.Runs

/-!
# The protocol over a run

Every run keeps `TrustInv` and `KeyInv`: the trust in the host, and the key that is
stored for it. The answers are the lines of the guest's bytes (`AnswerInv`) and a fatal
error is reported once (`ErrorInv`) in the runs whose calls are `Careful`:

* a piece of the guest's bytes does not start with the second half of the end of a
  line, its line has no zero and is not too long for the answer;
* the check of the host does not fail while the guest receives, since
  `ssh_socket_recv` reports this error and `ssh_advance_control` raises no flag;
* the buffer has room for the error, and for the line in front of the raw mode.
-/

namespace FuseX.Ssh

open Lib

/-! ## What is heard -/

/-- Neither from the guest nor to the guest. -/
def Event.Unheard : Event → Prop
  | .answer _ | .told _ => False
  | _ => True

/-- The answers taken from the guest. -/
def answers (log : List Event) : List Bytes :=
  log.filterMap fun
    | .answer line => some line
    | _ => none

def Event.isError : Event → Bool
  | .told (.error _) => true
  | _ => false

/-- How many errors the guest was told. -/
def errorsTold (log : List Event) : Nat :=
  log.countP Event.isError

/-- What the control state may do while it advances. -/
structure Advanced (s t : Socket) : Prop where
  same : Same s t
  log : ∃ events, t.log = s.log ++ events ∧ ∀ e ∈ events, e.Unheard

theorem answers_append (log events : List Event) :
    answers (log ++ events) = answers log ++ answers events :=
  List.filterMap_append

theorem errorsTold_append (log events : List Event) :
    errorsTold (log ++ events) = errorsTold log + errorsTold events :=
  List.countP_append

theorem answers_unheard {events : List Event} (unheard : ∀ e ∈ events, e.Unheard) :
    answers events = [] := by
  refine List.filterMap_eq_nil_iff.mpr fun e member => ?_
  cases e with
  | answer line => exact (unheard _ member).elim
  | _ => rfl

theorem errorsTold_unheard {events : List Event} (unheard : ∀ e ∈ events, e.Unheard) :
    errorsTold events = 0 := by
  refine List.countP_eq_zero.mpr fun e member => ?_
  cases e with
  | told message => exact (unheard _ member).elim
  | _ => exact Bool.false_ne_true

theorem Advanced.answers {s t : Socket} (advanced : Advanced s t) : answers t.log = answers s.log := by
  obtain ⟨events, log, unheard⟩ := advanced.log
  rw [log, answers_append, answers_unheard unheard, List.append_nil]

theorem Advanced.errorsTold {s t : Socket} (advanced : Advanced s t) :
    errorsTold t.log = errorsTold s.log := by
  obtain ⟨events, log, unheard⟩ := advanced.log
  rw [log, errorsTold_append, errorsTold_unheard unheard, Nat.add_zero]

theorem Login.advanced {s : Socket} {r : Bool × Socket} (login : Login s r) : Advanced s r.2 := by
  obtain ⟨events, log, requests, -⟩ := login.requests
  refine ⟨login.same, events, log, fun e member => ?_⟩
  have request := requests e member
  cases e with
  | answer | told | presented => exact request.elim
  | _ => trivial

variable {sha256 : Bytes → Bytes} {results : Results}

theorem checkHost_advanced (s : Socket) : Advanced s (checkHost sha256 results s).2 := by
  unfold checkHost
  cases results.fingerprint with
  | none => exact (Login.fail _).advanced
  | some fingerprint =>
    dsimp only
    generalize lookup (s.key sha256) s.knownHosts = stored
    have presented : ∀ e ∈ [Event.presented fingerprint.text stored], e.Unheard :=
      fun e member => List.mem_singleton.mp member ▸ trivial
    split_ifs
    · obtain ⟨same, events, log, unheard⟩ := Login.advanced (@authStart_login results
        { s.note (.presented fingerprint.text stored) with
          fingerprint := fingerprint.text
          hostKnown := stored.isSome })
      refine ⟨⟨same.rawMode, same.errorEmitted, same.host, same.port, same.line, same.lineReady,
        same.promptPending, same.knownHosts, same.fed⟩, _ :: events, ?_,
        List.forall_mem_cons.mpr ⟨presented _ List.mem_cons_self, unheard⟩⟩
      rw [log, Socket.note, List.append_assoc, List.singleton_append]
    · exact ⟨⟨rfl, rfl, rfl, rfl, rfl, rfl, rfl, rfl, rfl⟩, _, rfl, presented⟩

theorem advanceControl_advanced (s : Socket) : Advanced s (advanceControl sha256 results s).2 := by
  have still : Advanced s s :=
    ⟨⟨rfl, rfl, rfl, rfl, rfl, rfl, rfl, rfl, rfl⟩, [], (List.append_nil _).symm, nofun⟩
  unfold advanceControl
  cases s.state
  case checkHost => exact checkHost_advanced s
  case authStart => exact (authStart_login s).advanced
  case authMethods => exact (authMethods_login s).advanced
  case authPassword => exact (authPassword_login s).advanced
  case openShell =>
    unfold openShell
    cases results.shell with
    | some reason => exact (Login.fail reason).advanced
    | none =>
      exact ⟨⟨rfl, rfl, rfl, rfl, rfl, rfl, rfl, rfl, rfl⟩, [], (List.append_nil _).symm, nofun⟩
  case new => exact (Login.fail _).advanced
  all_goals exact still

/-! ## Careful calls -/

/-- The room for an answer. -/
def Socket.room (s : Socket) : Nat :=
  match s.state with
  | .waitUser => 63
  | .waitPassword => 95
  | _ => lineMax

/-- The piece goes on with the line, which can be taken as it is. -/
def WholeLine (s : Socket) (buf : Bytes) : Prop :=
  ¬ (s.fed.getLast? = some (ascii '\r') ∧ buf.head? = some (ascii '\n')) ∧
    0 ∉ firstPart buf ∧ (s.line ++ firstPart buf).length ≤ s.room

/-- The server accepts the user without a password. -/
def Results.accepts (results : Results) : Bool :=
  results.authenticated ∨ authMethodAllowed results.methods (text "publickey") ∧ results.publickey

variable (sha256 results) in
/-- The host is known and the user need not be asked for. -/
def Socket.known (s : Socket) : Bool :=
  match results.fingerprint with
  | none => false
  | some fingerprint =>
      lookup (s.key sha256) s.knownHosts = some fingerprint.text ∧ s.username ≠ []

variable (sha256 results) in
/-- The check of the host fails, or the authentication that follows it. -/
def Socket.checkFails (s : Socket) : Bool :=
  results.fingerprint.isNone ∨ s.known sha256 results ∧
    if results.accepts then results.shell.isSome
    else ¬ authMethodAllowed results.methods (text "password")

variable (sha256) in
/-- The condition on the calls. -/
def Careful (s : Socket) : Act → Prop
  | .send buf _ => s.rawMode = false → s.promptPending = true → WholeLine s buf
  | .recv len results =>
      (s.state = .checkHost → s.checkFails sha256 results = false) ∧
      (s.state = .emitConnected ∨ s.state = .checkHost ∧ s.known sha256 results ∧ results.accepts →
        Message.connected.line.length ≤ len) ∧
      (s.state = .error → s.errorEmitted = false → (Message.error s.lastError).line.length ≤ len)

/-! ## The answers -/

structure AnswerInv (s : Socket) : Prop where
  answers : answers s.log = (linesOf s.fed).done
  line : s.line = (linesOf s.fed).part
  plain : 0 ∉ s.line
  ready : s.lineReady = true → s.state = .error ∧ s.promptPending = false

theorem AnswerInv.taken {s : Socket} (plain : 0 ∉ s.line) (fits : s.line.length ≤ s.room) :
    s.taken = s.line := by
  unfold Socket.taken
  unfold Socket.room at fits
  rw [cString_plain plain]
  cases state : s.state <;> rw [state] at fits
  case waitUser | waitPassword => exact List.take_of_length_le fits

theorem room_le (s : Socket) : s.room ≤ lineMax := by
  unfold Socket.room
  split <;> decide

/-- What taking a line does. -/
structure Answered (s t : Socket) : Prop where
  rawMode : t.rawMode = s.rawMode
  errorEmitted : t.errorEmitted = s.errorEmitted
  line : t.line = []
  lineReady : t.lineReady = false
  promptPending : t.promptPending = s.promptPending
  fed : t.fed = s.fed
  log : ∃ events, t.log = s.log ++ .answer s.taken :: events ∧ ∀ e ∈ events, e.Unheard
  state : s.state = .error → t.state = .error

theorem takeLine_answered (s : Socket) :
    Answered s (advanceControl sha256 results
      { takeLine sha256 results (s.note (.answer s.taken)) with lineReady := false, line := [] }).2 := by
  have kept : ∀ t : Socket, t.rawMode = s.rawMode → t.errorEmitted = s.errorEmitted →
      t.promptPending = s.promptPending → t.fed = s.fed → t.log = s.log ++ [.answer s.taken] →
      (s.state = .error → t.state = .error) →
      Answered s (advanceControl sha256 results { t with lineReady := false, line := [] }).2 := by
    intro t rawMode errorEmitted promptPending fed log state
    obtain ⟨same, events, log', unheard⟩ := @advanceControl_advanced sha256
      results { t with lineReady := false, line := [] }
    refine ⟨same.rawMode.trans rawMode, same.errorEmitted.trans errorEmitted, same.line,
      same.lineReady, same.promptPending.trans promptPending, same.fed.trans fed,
      ⟨events, ?_, unheard⟩, fun failed => ?_⟩
    · rw [log', log, List.append_assoc, List.singleton_append]
    · unfold advanceControl
      simp only [state failed]
  unfold takeLine
  cases state : (s.note (.answer s.taken)).state
  case waitTrust =>
    have other : s.state ≠ .error := fun failed => by
      rw [Socket.note, failed] at state
      cases state
    dsimp only
    split_ifs <;> exact kept _ rfl rfl rfl rfl rfl fun failed => absurd failed other
  case waitUser | waitPassword =>
    have other : s.state ≠ .error := fun failed => by
      rw [Socket.note, failed] at state
      cases state
    exact kept _ rfl rfl rfl rfl rfl fun failed => absurd failed other
  all_goals exact kept _ rfl rfl rfl rfl rfl id

/-- A call of `ssh_socket_send` that is careful. -/
inductive Sent (s : Socket) : Socket → Prop
  | nothing : Sent s s
  | part {part : Bytes} : s.promptPending = true → (∀ c ∈ part, endsLine c = false) → 0 ∉ part →
      Sent s { s with line := s.line ++ part, fed := s.fed ++ part }
  | answer {part ending rest : Bytes} {t : Socket} : s.promptPending = true →
      (∀ c ∈ part, endsLine c = false) → 0 ∉ part → Ending ending rest →
      ¬ (s.fed.getLast? = some (ascii '\r') ∧ (part ++ ending).head? = some (ascii '\n')) →
      (s.line ++ part).length ≤ s.room →
      Answered { s with
        line := s.line ++ part
        fed := s.fed ++ (part ++ ending)
        lineReady := true
        promptPending := false } t →
      Sent s t

theorem socketSend_sent {s : Socket} {buf : Bytes} (inv : AnswerInv s)
    (careful : Careful sha256 s (.send buf results)) :
    Sent s (socketSend sha256 buf results s).2 := by
  unfold socketSend
  split_ifs with empty raw
  · exact .nothing
  · exact .nothing
  · rw [Bool.not_eq_true] at raw
    unfold sendControl
    dsimp only
    by_cases pending : s.promptPending = true
    · obtain ⟨whole, plain, fits⟩ := careful raw pending
      have roomy := fits.trans (room_le s)
      have notReady : s.lineReady = false := by
        refine Bool.eq_false_iff.mpr fun ready => ?_
        rw [(inv.ready ready).2] at pending
        cases pending
      rcases firstLine_cases buf with noEnd | ⟨part, ending, rest, first⟩
      · rw [firstPart_plain noEnd] at plain roomy
        rw [feedControl_plain pending noEnd roomy, if_pos (.inr notReady)]
        exact .part pending noEnd plain
      · rw [first.firstPart] at plain fits roomy
        have some_ : (part ++ ending).length ≠ 0 := by
          rw [List.length_append]
          rcases first.ending with - | - | - <;> exact Nat.succ_ne_zero _
        rw [feedControl_line pending first roomy, if_neg (by simp only [some_]; simp)]
        refine .answer pending first.plain plain first.ending ?_ fits (takeLine_answered _)
        rintro ⟨afterCr, newline⟩
        refine whole ⟨afterCr, ?_⟩
        rw [first.whole, List.head?_append, newline, Option.some_or]
    · have idle : feedControl buf s = (0, s) := if_neg pending
      rw [idle, if_pos (.inl rfl)]
      exact .nothing

theorem Sent.answerInv {s t : Socket} (sent : Sent s t) (inv : AnswerInv s) : AnswerInv t := by
  cases sent with
  | nothing => exact inv
  | @part part pending plain nonzero =>
    obtain ⟨done, part_eq, -⟩ := @linesOf_plain s.fed part plain
    refine ⟨inv.answers.trans done.symm, ?_, ?_, inv.ready⟩
    · show s.line ++ part = _
      rw [part_eq, inv.line]
    · rw [List.mem_append]
      exact not_or_intro inv.plain nonzero
  | @answer part ending rest t pending plain nonzero ends whole fits answered =>
    obtain ⟨done, part_eq⟩ := linesOf_line plain ends whole
    obtain ⟨events, log, unheard⟩ := answered.log
    have taken := AnswerInv.taken (s := { s with
      line := s.line ++ part
      fed := s.fed ++ (part ++ ending)
      lineReady := true
      promptPending := false }) (by
        rw [List.mem_append]
        exact not_or_intro inv.plain nonzero) fits
    refine ⟨?_, ?_, ?_, ?_⟩
    · have one : answers (.answer (s.line ++ part) :: events) = [s.line ++ part] := by
        rw [← List.singleton_append, answers_append, answers_unheard unheard]
        rfl
      rw [answered.fed, log, taken, answers_append, one, done, inv.answers, inv.line]
    · rw [answered.line, answered.fed, part_eq]
    · rw [answered.line]
      exact List.not_mem_nil
    · rw [answered.lineReady]
      exact fun ready => absurd ready Bool.false_ne_true

theorem emitLine_answerInv {s : Socket} {message : Message} (len : Nat) (inv : AnswerInv s)
    (ready : s.lineReady = true → s.state = .error) : AnswerInv (emitLine len message s).2 := by
  unfold emitLine
  split_ifs
  · exact ⟨inv.answers, inv.line, inv.plain, fun isReady => ⟨rfl, (inv.ready isReady).2⟩⟩
  · refine ⟨?_, inv.line, inv.plain, inv.ready⟩
    show answers (s.log ++ [.told message]) = _
    rw [answers_append, inv.answers]
    exact List.append_nil _

theorem emitState_answerInv {s : Socket} (inv : AnswerInv s) (len : Nat) :
    AnswerInv (emitState len s).2 := by
  obtain ⟨answers, line, plain, ready⟩ := inv
  unfold emitState
  cases state : s.state <;> dsimp only
  case error =>
    split_ifs
    · exact ⟨answers, line, plain, ready⟩
    · exact emitLine_answerInv len ⟨answers, line, plain, fun _ => ⟨rfl, rfl⟩⟩ fun _ => rfl
  case emitKeygen | emitIdentity | emitTrust | emitUser | emitPassword | emitConnected =>
    have notReady : s.lineReady ≠ true := fun isReady => by
      rw [state] at ready
      cases (ready isReady).1
    exact emitLine_answerInv len
      ⟨answers, line, plain, fun isReady => absurd isReady notReady⟩ fun isReady => absurd isReady notReady
  all_goals exact ⟨answers, line, plain, ready⟩

theorem advanceControl_error {s : Socket} (state : s.state = .error) :
    advanceControl sha256 results s = (true, s) := by
  unfold advanceControl
  rw [state]

theorem advanceControl_answerInv {s : Socket} (inv : AnswerInv s) :
    AnswerInv (advanceControl sha256 results s).2 := by
  have advanced := @advanceControl_advanced sha256 results s
  refine ⟨?_, ?_, ?_, ?_⟩
  · rw [advanced.answers, advanced.same.fed, inv.answers]
  · rw [advanced.same.line, advanced.same.fed, inv.line]
  · rw [advanced.same.line]
    exact inv.plain
  · rw [advanced.same.lineReady]
    intro ready
    rw [advanceControl_error (inv.ready ready).1]
    exact inv.ready ready

theorem socketRecv_answerInv {s : Socket} (inv : AnswerInv s) (len : Nat) :
    AnswerInv (socketRecv sha256 len results s).2 := by
  unfold socketRecv
  split_ifs
  · exact inv
  · exact inv
  · obtain ⟨answers, line, plain, ready⟩ := @advanceControl_answerInv sha256
      results s inv
    unfold recvControl
    dsimp only
    split_ifs
    · exact emitState_answerInv ⟨answers, line, plain, ready⟩ len
    · exact emitLine_answerInv len ⟨answers, line, plain, fun isReady => ⟨rfl, (ready isReady).2⟩⟩
        fun _ => rfl

/-! ## The errors -/

structure ErrorInv (s : Socket) : Prop where
  told : errorsTold s.log = s.errorEmitted.toNat
  emitted : s.errorEmitted = true → s.state = .error
  shell : s.rawMode = true → s.state = .raw

theorem Sent.errorInv {s t : Socket} (sent : Sent s t) (inv : ErrorInv s) (raw : s.rawMode = false) :
    ErrorInv t := by
  cases sent with
  | nothing => exact inv
  | part => exact ⟨inv.told, inv.emitted, inv.shell⟩
  | answer pending plain nonzero ends whole fits answered =>
    obtain ⟨events, log, unheard⟩ := answered.log
    refine ⟨?_, ?_, ?_⟩
    · have none_ (line : Bytes) : errorsTold (.answer line :: events) = 0 := by
        rw [← List.singleton_append, errorsTold_append, errorsTold_unheard unheard]
        rfl
      rw [log, answered.errorEmitted, errorsTold_append, none_, Nat.add_zero, inv.told]
    · rw [answered.errorEmitted]
      exact fun emitted => answered.state (inv.emitted emitted)
    · rw [answered.rawMode]
      exact fun mode => absurd (raw.symm.trans mode) Bool.false_ne_true

/-- A line that is no error. -/
theorem emitLine_errorInv {s : Socket} {message : Message} (len : Nat)
    (quiet : (Event.told message).isError = false) (told : errorsTold s.log = 0)
    (emitted : s.errorEmitted = false)
    (shell : s.rawMode = true → s.state = .raw ∧ message.line.length ≤ len) :
    ErrorInv (emitLine len message s).2 := by
  unfold emitLine
  split_ifs with short
  · refine ⟨told.trans (by rw [Socket.fail, emitted]; rfl), fun _ => rfl, fun mode => ?_⟩
    exact absurd short (Nat.not_lt.mpr (shell mode).2)
  · refine ⟨?_, fun isEmitted => ?_, fun mode => (shell mode).1⟩
    · show errorsTold (s.log ++ [.told message]) = s.errorEmitted.toNat
      rw [errorsTold_append, told, emitted, errorsTold, List.countP_singleton, quiet]
      rfl
    · exact absurd (emitted.symm.trans isEmitted) Bool.false_ne_true

/-- The authentication of a user who has given no password yet. -/
theorem authMethods_outcome {s : Socket} (password : s.password = []) :
    (authMethods results s).1 = !(if results.accepts then results.shell.isSome
      else ¬ authMethodAllowed results.methods (text "password") : Bool) ∧
    ((authMethods results s).2.state = .emitConnected → results.accepts = true) := by
  unfold authMethods authByPassword openShell Results.accepts
  cases results.authenticated <;> cases authMethodAllowed results.methods (text "publickey") <;>
    cases results.publickey <;> cases results.shell <;>
    cases authMethodAllowed results.methods (text "password") <;>
    simp [Socket.note, Socket.fail, password]

theorem authStart_user {s : Socket} (user : s.username ≠ []) :
    authStart results s = authMethods results s :=
  if_neg user

/-- The check of the host. -/
theorem checkHost_outcome {s : Socket} (password : s.password = []) :
    (checkHost sha256 results s).1 = !s.checkFails sha256 results ∧
    ((checkHost sha256 results s).2.state = .emitConnected →
      s.known sha256 results = true ∧ results.accepts = true) ∧
    ((checkHost sha256 results s).1 = true →
      (checkHost sha256 results s).2.state ∈ [.emitTrust, .emitUser, .emitPassword, .emitConnected]) := by
  unfold checkHost Socket.checkFails Socket.known
  cases results.fingerprint with
  | none => exact ⟨rfl, fun state => ControlState.noConfusion state, fun done => Bool.noConfusion done⟩
  | some fingerprint =>
    dsimp only
    generalize lookup (s.key sha256) s.knownHosts = stored
    by_cases same : stored = some fingerprint.text
    · rw [if_pos same]
      by_cases user : s.username = []
      · simp [authStart, Socket.note, same, user]
      · rw [@authStart_user results {
          s.note (.presented fingerprint.text stored) with
            fingerprint := fingerprint.text
            hostKnown := stored.isSome } user]
        obtain ⟨done, connected⟩ := @authMethods_outcome results {
          s.note (.presented fingerprint.text stored) with
            fingerprint := fingerprint.text
            hostKnown := stored.isSome } password
        refine ⟨?_, ?_, ?_⟩
        · rw [done]
          simp [same, user]
        · exact fun state => ⟨decide_eq_true ⟨same, user⟩, connected state⟩
        · intro done
          rcases (authMethods_login _).state with ⟨-, states⟩ | ⟨failed, -⟩
          · exact List.mem_cons_of_mem _ states
          · exact absurd (failed.symm.trans done) Bool.false_ne_true
    · rw [if_neg same]
      simp [same]

/-- The error of a socket whose guest has heard of none. -/
theorem emitError {s : Socket} {len : Nat} (fits : (Message.error s.lastError).line.length ≤ len)
    (told : errorsTold s.log = 0) (state : s.state = .error) :
    ErrorInv (emitLine len (.error s.lastError) (socketClose { s with errorEmitted := true })).2 := by
  unfold emitLine
  rw [if_neg (Nat.not_lt.mpr fits)]
  refine ⟨?_, fun _ => state, fun mode => absurd mode Bool.false_ne_true⟩
  show errorsTold (s.log ++ [_]) = 1
  rw [errorsTold_append, told]
  rfl

theorem socketRecv_errorInv {s : Socket} {len : Nat} (trust : TrustInv s) (inv : ErrorInv s)
    (careful : Careful sha256 s (.recv len results)) :
    ErrorInv (socketRecv sha256 len results s).2 := by
  obtain ⟨checks, connects, reports⟩ := careful
  unfold socketRecv
  split_ifs with room mode
  · exact inv
  · exact inv
  · rw [Bool.not_eq_true] at mode
    have stage := trust.stage
    have told (other : s.state ≠ .error) : errorsTold s.log = 0 ∧ s.errorEmitted = false := by
      have emitted : s.errorEmitted = false :=
        Bool.eq_false_iff.mpr fun emitted => other (inv.emitted emitted)
      exact ⟨inv.told.trans (by rw [emitted]; rfl), emitted⟩
    unfold recvControl
    dsimp only
    cases state : s.state <;> rw [Stage, state] at stage
    case checkHost =>
      obtain ⟨untold, unemitted⟩ := told (by rw [state]; exact ControlState.noConfusion)
      have advance : advanceControl sha256 results s = checkHost sha256 results s := by
        unfold advanceControl
        rw [state]
      have advanced := @checkHost_advanced sha256 results s
      obtain ⟨done, connected, states⟩ := @checkHost_outcome sha256 results s
        stage.2
      rw [checks state, Bool.not_false] at done
      rw [advance, if_pos done]
      rw [← advanced.errorsTold] at untold
      rw [← advanced.same.errorEmitted] at unemitted
      rw [← advanced.same.rawMode] at mode
      have fits (state' : (checkHost sha256 results s).2.state = .emitConnected) :=
        connects (.inr ⟨state, connected state'⟩)
      replace states := states done
      generalize (checkHost sha256 results s).2 = t at *
      have closed : t.rawMode = true → False := fun open_ =>
        absurd (mode.symm.trans open_) Bool.false_ne_true
      simp only [List.mem_cons, List.not_mem_nil, or_false] at states
      unfold emitState
      rcases states with state' | state' | state' | state' <;> rw [state']
      case inr.inr.inr => exact emitLine_errorInv len rfl untold unemitted fun _ => ⟨rfl, fits state'⟩
      all_goals exact emitLine_errorInv len rfl untold unemitted fun open_ => (closed open_).elim
    case new | authStart | authMethods | authPassword | openShell => exact stage.elim
    case error =>
      rw [advanceControl_error state, if_pos rfl, emitState, state]
      dsimp only
      split_ifs with emitted
      · exact inv
      · rw [Bool.not_eq_true] at emitted
        have untold : errorsTold s.log = 0 := inv.told.trans (by rw [emitted]; rfl)
        have reported := emitError (reports state emitted) untold state
        rw [state] at reported
        exact reported
    all_goals
      obtain ⟨untold, unemitted⟩ := told (by rw [state]; exact ControlState.noConfusion)
      have advance : advanceControl sha256 results s = (true, s) := by
        unfold advanceControl
        rw [state]
      have closed : s.rawMode = true → False := fun open_ =>
        absurd (mode.symm.trans open_) Bool.false_ne_true
      rw [advance, if_pos rfl, emitState, state]
    case emitConnected =>
      exact emitLine_errorInv len rfl untold unemitted fun _ => ⟨rfl, connects (.inl state)⟩
    case emitKeygen | emitIdentity | emitTrust | emitUser | emitPassword =>
      exact emitLine_errorInv len rfl untold unemitted fun open_ => (closed open_).elim
    all_goals exact inv

end FuseX.Ssh
