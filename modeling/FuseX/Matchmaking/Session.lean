import FuseX.Lib.Runs
import FuseX.Matchmaking.Client

/-!
# Sessions of the matchmaking client

A session is any sequence of commands, name lookups, completions and resets, with any
answers. In all of them a client can be left, and joined once it has been left
(`Recoverable`). A client with a connection has a transport for it and says so (`Bound`), as
long as the transport starts when a peer is chosen: `match_post` records the connection
before it starts the transport, and CONNECT keeps it (`connect_unstarted`).
-/

namespace FuseX.Matchmaking

open Lib

variable {device : Text}

/-! ## What a request does -/

theorem reserve_cases (device connection : Text) (response : Response) :
    (∃ message, response.reserve device connection = .failed message) ∨
      ∃ id peerName initiator,
        response.reserve device connection = .reserved connection id peerName initiator := by
  unfold Response.reserve
  split
  · split
    · exact .inl ⟨_, rfl⟩
    · split
      · exact .inl ⟨_, rfl⟩
      · exact .inr ⟨_, _, _, rfl⟩
  · exact .inl ⟨_, rfl⟩

/-- What there is to do about an answer. -/
inductive Settled (action : Option Action) (s : Client) : Answer → Prop
  | failed (message : Option String) : Settled action s (.failed message)
  | refused (error : Option Text) : Settled action s (.refused error)
  | reserved (connection id peerName initiator : Text) (fresh : s.connection = [])
      (valid : validConnection connection = true) :
      Settled action s (.reserved connection id peerName initiator)
  | lobby (listed : List ListedPeer) (asked : action = none) : Settled action s (.lobby listed)
  | ok : Settled action s .ok

theorem understand_settled {action : Option Action} {response : Response} {s : Client} :
    Settled action s (s.understand device action response) := by
  unfold Client.understand
  split
  · exact .failed _
  split
  · exact .failed _
  split
  next connection _ =>
    split
    · exact .failed _
    next valid =>
      split
      next fresh =>
        rcases reserve_cases device connection response with
          ⟨message, answer⟩ | ⟨id, peerName, initiator, answer⟩
        · rw [answer]
          exact .failed _
        · rw [answer]
          exact .reserved _ _ _ _ fresh (by simpa using (not_or.mp valid).1)
      · exact .ok
  · split
    next asked =>
      split
      · exact .failed _
      · exact .lobby _ asked
    · exact .ok

theorem answer_settled (device : Text) (action : Option Action) (reply : Reply) (s : Client) :
    Settled action s (s.answer device action reply) := by
  unfold Client.answer
  split
  · exact .failed _
  split
  · exact .failed _
  split
  · exact .failed _
  · exact .failed _
  · split
    · exact .refused _
    · exact understand_settled

/-! ## Stage, connection and transport -/

/-- What the stages are about. -/
structure Core where
  active : Bool
  claimed : Option UInt8
  connection : Text
  stage : Stage
  started : Option Text

def Client.core (s : Client) : Core :=
  { active := s.active
    claimed := s.claimed
    connection := s.connection
    stage := s.stage
    started := s.started }

/-- What becomes of the core in a request. -/
inductive Posted (device : Text) (action : Option Action) (reply : Reply) (s : Client) :
    Core → Bool → Prop
  | same (ok : Bool) : Posted device action reply s s.core ok
  | lobby (asked : action = none) :
    Posted device action reply s { s.core with stage := .waiting } true
  | started (connection : Text) (fresh : s.connection = []) (found : connection ≠ []) :
    Posted device action reply s
      { s.core with connection := connection, stage := .connecting, started := some connection }
      true
  | unstarted (connection id peerName initiator : Text) (fresh : s.connection = [])
    (answer : s.answer device action reply = .reserved connection id peerName initiator)
    (failure : reply.startFailure ≠ none) :
    Posted device action reply s { s.core with connection := copy 37 connection } false

theorem validConnection_copy {connection : Text} (valid : validConnection connection = true) :
    copy 37 connection = connection ∧ connection ≠ [] := by
  have length : connection.length = 36 := by
    simp only [validConnection, decide_eq_true_eq] at valid
    exact valid.1
  constructor
  · exact List.take_of_length_le length.le
  · rintro rfl
    cases length

theorem post_posted (device : Text) (action : Option Action) (reply : Reply) (s : Client) :
    Posted device action reply s (s.post device action reply).1.core
      (s.post device action reply).2 := by
  have settled := answer_settled device action reply s
  unfold Client.post
  generalize answerEq : s.answer device action reply = answer at settled
  cases settled with
  | failed message => cases message <;> exact .same _
  | refused error => exact .same _
  | reserved connection id peerName initiator fresh valid =>
    obtain ⟨whole, found⟩ := validConnection_copy valid
    cases failure : reply.startFailure with
    | some reason =>
      exact .unstarted connection id peerName initiator fresh answerEq (by rw [failure]; exact nofun)
    | none =>
      dsimp only
      rw [whole]
      exact .started connection fresh found
  | lobby listed asked => exact .lobby asked
  | ok => exact .same _

/-- A connection has a transport, and the stage says so. -/
structure Core.Bound (k : Core) : Prop where
  bound : k.active = true → k.connection ≠ [] →
    (k.stage = .connecting ∨ k.stage = .connected) ∧ k.started = some k.connection

structure Core.Sound (k : Core) : Prop extends k.Bound where
  idle : k.active = false → k.claimed = none ∧ k.started = none
  paired : k.active = true → k.stage = .connecting ∨ k.stage = .connected → k.connection ≠ []

theorem Posted.sound {action : Option Action} {reply : Reply} {s : Client} {k : Core} {ok : Bool}
    (posted : Posted device action reply s k ok) (sound : s.core.Sound) (active : s.active = true)
    (lobby : action = none → s.connection = [])
    (starts : ok = true ∨ ∀ connection id peerName initiator,
      s.answer device action reply = .reserved connection id peerName initiator →
        reply.startFailure = none) : k.Sound := by
  cases posted with
  | same => exact sound
  | lobby asked =>
    have fresh := lobby asked
    exact
      { bound := fun _ found => absurd fresh found
        idle := sound.idle
        paired := fun _ stage => by simp at stage }
  | started connection fresh found =>
    exact
      { bound := fun _ _ => ⟨.inl rfl, rfl⟩
        idle := fun idle => absurd (active.symm.trans idle) (by decide)
        paired := fun _ _ => found }
  | unstarted connection id peerName initiator fresh answer failure =>
    rcases starts with ok | starts
    · cases ok
    · exact absurd (starts _ _ _ _ answer) failure

/-- Nothing is claimed. -/
theorem Core.Sound.of_idle {k : Core} (active : k.active = false)
    (nothing : k.claimed = none ∧ k.started = none) : k.Sound where
  bound := fun active' => absurd (active.symm.trans active') (by decide)
  idle := fun _ => nothing
  paired := fun active' => absurd (active.symm.trans active') (by decide)

/-! ## Steps -/

inductive Act
  | command (c : Command) (r : Request) (world : World)
  | resolve (host : Text) (valid : Bool)
  | complete (valid : Bool) (reply : Reply)
  | reset

def step (device : Text) (s : Client) : Act → Option Client
  | .command c r world => some (s.command device c r world).1
  | .resolve host valid => some (s.resolve host valid).1
  | .complete valid reply => some (s.complete device valid reply)
  | .reset => some s.reset

/-- CONNECT asks the server for a peer. -/
structure Client.Asks (s : Client) (r : Request) (world : World) : Prop where
  active : s.active = true
  socket : r.socket = s.socket
  valid : world.valid = true
  stage : s.stage = .waiting ∨ s.stage = .preparing
  revision : r.revision = s.revision
  row : (s.peers.getD r.index.toNat {}).device ≠ []

/-- Where a connection is made for a CONNECT, its transport starts. -/
def Starts (device : Text) (s : Client) : Act → Prop
  | .command .connect r world => s.Asks r world → ∀ connection id peerName initiator,
      s.answer device (some .connectTo) world.connect =
        .reserved connection id peerName initiator → world.connect.startFailure = none
  | _ => True

theorem askLobby_sound {world : World} {s : Client} (sound : s.core.Sound)
    (active : s.active = true) (stage : s.stage ≠ .connected ∧ s.stage ≠ .connecting) :
    (s.askLobby device world).core.Sound := by
  have fresh : s.connection = [] := by
    by_contra found
    rcases (sound.bound active found).1 with connecting | connected
    · exact stage.2 connecting
    · exact stage.1 connected
  have action : (if s.connection ≠ [] then some Action.poll else none) = none :=
    if_neg (not_not_intro fresh)
  unfold Client.askLobby
  dsimp only
  rw [action]
  have posted := post_posted device none world.lobby s
  cases post : s.post device none world.lobby with
  | mk t ok =>
    rw [post] at posted
    cases ok with
    | false => exact .of_idle rfl ⟨rfl, rfl⟩
    | true => exact posted.sound sound active (fun _ => fresh) (.inl rfl)

theorem checkReady_sound {world : World} {s : Client} (sound : s.core.Sound)
    (stage : s.stage = .connecting) : (s.checkReady device world).core.Sound := by
  unfold Client.checkReady
  split
  · exact
      { bound := fun active found => ⟨.inr rfl, (sound.bound active found).2⟩
        idle := sound.idle
        paired := fun active _ => sound.paired active (.inl stage) }
  split
  · exact .of_idle rfl ⟨rfl, rfl⟩
  · exact sound

theorem setCode_core {r : Request} {world : World} {s : Client} :
    (s.setCode r world).core = s.core := rfl

theorem connectTo_sound {r : Request} {world : World} {s : Client} (sound : s.core.Sound)
    (active : s.active = true)
    (starts : r.revision = s.revision → (s.peers.getD r.index.toNat {}).device ≠ [] →
      ∀ connection id peerName initiator,
        s.answer device (some .connectTo) world.connect =
          .reserved connection id peerName initiator → world.connect.startFailure = none) :
    (s.connectTo device r world).core.Sound := by
  unfold Client.connectTo
  dsimp only
  split
  · exact sound
  next row =>
    obtain ⟨revision, device'⟩ := not_or.mp row
    exact (post_posted device _ _ _).sound sound active nofun (.inr (starts (not_not.mp revision) device'))

theorem ite_sound {P : Prop} [Decidable P] {s t : Client} (yes : P → s.core.Sound)
    (no : ¬ P → t.core.Sound) : (if P then s else t).core.Sound := by
  split
  next holds => exact yes holds
  next fails => exact no fails

theorem proceed_sound {c : Command} {r : Request} {world : World} {s : Client}
    (sound : s.core.Sound) (active : s.active = true) (socket : r.socket = s.socket)
    (starts : c = .connect → s.Asks r world → ∀ connection id peerName initiator,
      s.answer device (some .connectTo) world.connect =
        .reserved connection id peerName initiator → world.connect.startFailure = none) :
    (s.proceed device c r world).core.Sound := by
  have last : ∀ t : Client, t.core.Sound →
      (if c ≠ .getPeer ∧ t.active = true ∧ t.stage ≠ .connected ∧ t.stage ≠ .connecting ∧
          t.due ≤ world.time then t.askLobby device world else t).core.Sound := by
    intro t sound
    refine ite_sound (fun asks => ?_) fun _ => sound
    exact askLobby_sound sound asks.2.1 ⟨asks.2.2.1, asks.2.2.2.1⟩
  unfold Client.proceed
  refine ite_sound (fun _ => .of_idle rfl ⟨rfl, rfl⟩) fun valid => ?_
  refine ite_sound (fun _ => sound) fun _ => ?_
  refine last _ ?_
  cases c with
  | «match» =>
    simp only [reduceCtorEq, false_and, if_false, true_and]
    exact ite_sound (fun stage => checkReady_sound sound stage) fun _ => sound
  | getPeer =>
    simp only [reduceCtorEq, false_and, if_false]
    exact sound
  | connect =>
    simp only [reduceCtorEq, false_and, if_false, true_and]
    refine ite_sound (fun stage => ?_) fun _ => sound
    refine connectTo_sound sound active fun revision row => starts rfl ?_
    exact ⟨active, socket, by simpa using valid, stage, revision, row⟩
  | setName =>
    simp only [reduceCtorEq, false_and, if_false]
    exact sound
  | code =>
    simp only [reduceCtorEq, false_and, if_false, true_and]
    refine ite_sound (fun _ => ?_) fun _ => sound
    rw [setCode_core]
    exact sound

theorem perform_sound {c : Command} {r : Request} {world : World} {s : Client}
    (sound : s.core.Sound) (socket : c ≠ .setName → s.active = true → r.socket = s.socket)
    (starts : Starts device s (.command c r world)) :
    (s.perform device c r world).core.Sound := by
  unfold Client.perform
  refine ite_sound (fun _ => ?_) fun command => ?_
  · unfold Client.setName
    exact ite_sound (fun _ => sound) fun _ => sound
  refine ite_sound (fun _ => .of_idle rfl ⟨rfl, rfl⟩) fun _ => ?_
  refine ite_sound (fun active => ?_) fun idle => ?_
  · refine proceed_sound sound active (socket command active) ?_
    rintro rfl asks
    exact starts asks
  refine ite_sound (fun _ => ?_) fun join => ?_
  · have inactive : s.active = false := by simpa using idle
    exact .of_idle inactive (sound.idle inactive)
  · refine proceed_sound ?_ rfl rfl ?_
    · exact
        { bound := fun _ found => absurd rfl found
          idle := fun idle => by cases idle
          paired := fun _ stage => by simp [Client.core, Client.begin] at stage }
    · rintro rfl
      simp at join

theorem expire_sound {now : Nat} {s : Client} (sound : s.core.Sound) :
    (s.expire now).core.Sound := by
  unfold Client.expire
  refine ite_sound (fun expires => ?_) fun _ => sound
  refine
    { bound := fun active found => ?_
      idle := sound.idle
      paired := fun _ stage => by simp [Client.core] at stage }
  have stage := (sound.bound active found).1
  rw [show s.core.stage = .waiting from expires.1] at stage
  simp at stage

theorem step_sound {s t : Client} {act : Act} (sound : s.core.Sound) (starts : Starts device s act)
    (stepEq : step device s act = some t) : t.core.Sound := by
  cases act with
  | command c r world =>
    obtain rfl := Option.some.inj stepEq
    unfold Client.command
    split
    · exact sound
    next socket =>
      refine expire_sound (perform_sound sound (fun command active => ?_) starts)
      by_contra other
      exact socket ⟨command, active, other⟩
  | resolve host valid =>
    obtain rfl := Option.some.inj stepEq
    unfold Client.resolve
    split
    · exact sound
    dsimp only
    split
    · exact sound
    split
    · exact sound
    by_cases closed : s.active = true ∧ valid = false
    · simp only [if_pos closed]
      exact .of_idle rfl ⟨rfl, rfl⟩
    · simp only [if_neg closed]
      split
      · exact sound
      · exact ⟨⟨sound.bound⟩, sound.idle, sound.paired⟩
  | complete valid reply =>
    obtain rfl := Option.some.inj stepEq
    unfold Client.complete
    refine ite_sound (fun _ => ?_) fun _ => sound
    refine ite_sound (fun connected => ?_) fun _ => sound
    have found := sound.paired connected.1 (.inr connected.2.1)
    refine (post_posted device _ _ _).sound sound connected.1 nofun ?_
    refine .inr fun connection id peerName initiator answer => ?_
    have settled := answer_settled device (some .connected) reply
      { s with completionPending := false }
    rw [answer] at settled
    cases settled with
    | reserved _ _ _ _ fresh => exact absurd fresh found
  | reset =>
    obtain rfl := Option.some.inj stepEq
    exact .of_idle rfl ⟨rfl, rfl⟩

/-! ## Leaving and joining -/

/-- MATCH with an action leaves, whatever the server says. -/
def Client.CanLeave (device : Text) (s : Client) : Prop :=
  ∀ (r : Request) (world : World), r.action ≠ 0 → (s.active = true → r.socket = s.socket) →
    ((s.command device .match r world).1.active = false ∧
      (s.command device .match r world).1.claimed = none ∧
      (s.command device .match r world).1.stage = .cancelled)

/-- The lobby lets the client in. -/
structure World.Admits (world : World) (listed : List ListedPeer) : Prop where
  claim : world.claim = true
  valid : world.valid = true
  stun : world.lobby.stun = true
  memory : world.lobby.memory = true
  posted : world.lobby.posted = some (200, some { peers := some listed })

/-- A client that is not active looks up a service and joins it with MATCH. -/
def Client.CanJoin (device : Text) (s : Client) : Prop :=
  ∀ (service : Text) (valid : Bool) (r : Request) (world : World) (listed : List ListedPeer),
    service ≠ [] → service.length ≤ 32 → service.all serviceChar = true → r.action = 0 →
    world.Admits listed →
      let joined := ((s.resolve (service ++ suffix) valid).1.command device .match r world).1
      joined.active = true ∧ joined.socket = r.socket ∧ joined.service = service ∧
        (joined.stage = .waiting ∨ joined.stage = .preparing) ∧ joined.error = []

theorem can_leave {s : Client} : s.CanLeave device := by
  intro r world action socket
  have here : ¬ (Command.match ≠ .setName ∧ s.active = true ∧ r.socket ≠ s.socket) :=
    fun other => other.2.2 (socket other.2.1)
  unfold Client.command
  rw [if_neg here]
  unfold Client.perform
  rw [if_neg (by decide), if_pos ⟨rfl, action⟩]
  exact ⟨rfl, rfl, rfl⟩

theorem findSuffix_service {service : Text} (plain : service.all serviceChar = true) :
    findSuffix (service ++ suffix) = some service.length := by
  unfold findSuffix
  rw [List.find?_range_eq_some]
  refine ⟨?_, ?_, fun i before => ?_⟩
  · rw [List.drop_left]
    exact List.isPrefixOf_iff_prefix.mpr (List.prefix_refl suffix)
  · rw [List.mem_range, List.length_append]
    omega
  · have plainChar : serviceChar service[i] = true :=
      List.all_eq_true.mp plain _ (List.getElem_mem before)
    have tail : (service ++ suffix).drop i = service[i] :: (service ++ suffix).drop (i + 1) := by
      rw [List.drop_eq_getElem_cons (by rw [List.length_append]; omega),
        List.getElem_append_left before]
    rw [tail, Bool.not_eq_true', ← Bool.not_eq_true]
    intro begins
    have sign : '@' = service[i] :=
      (List.cons_prefix_cons.mp (List.isPrefixOf_iff_prefix.mp begins)).1
    rw [← sign] at plainChar
    exact absurd plainChar (by decide)

theorem answer_admitted {world : World} {listed : List ListedPeer} (admits : world.Admits listed)
    (s : Client) : s.answer device none world.lobby = .lobby listed := by
  unfold Client.answer
  rw [if_neg (by simp [admits.stun]), if_neg (by simp [admits.memory])]
  rw [Reply.received, admits.posted]
  rfl

theorem askLobby_admitted {world : World} {listed : List ListedPeer} {s : Client}
    (admits : world.Admits listed) (fresh : s.connection = []) :
    s.askLobby device world =
      { { s with error := [] }.showLobby listed world.lobby.now with
        due := world.lobbyTime + 1000 } := by
  unfold Client.askLobby
  dsimp only
  rw [if_neg (not_not_intro fresh)]
  unfold Client.post
  rw [answer_admitted admits]
  rfl

theorem expire_waiting (now : Nat) {s : Client} (waiting : s.stage = .waiting) :
    (s.expire now).active = s.active ∧ (s.expire now).socket = s.socket ∧
      (s.expire now).service = s.service ∧ (s.expire now).error = s.error ∧
      ((s.expire now).stage = .waiting ∨ (s.expire now).stage = .preparing) := by
  unfold Client.expire
  split
  · exact ⟨rfl, rfl, rfl, rfl, .inr rfl⟩
  · exact ⟨rfl, rfl, rfl, rfl, .inl waiting⟩

theorem proceed_begin {r : Request} {world : World} {listed : List ListedPeer} {s : Client}
    (admits : world.Admits listed) :
    (s.begin r.socket).proceed device .match r world =
      { { s.begin r.socket with error := [] }.showLobby listed world.lobby.now with
        due := world.lobbyTime + 1000 } := by
  unfold Client.proceed
  rw [if_neg (by simp [admits.valid]), if_neg (by simp [Client.begin])]
  have stage : ¬ (s.begin r.socket).stage = .connecting := nofun
  have asks : Command.match ≠ .getPeer ∧ (s.begin r.socket).active = true ∧
      (s.begin r.socket).stage ≠ .connected ∧ (s.begin r.socket).stage ≠ .connecting ∧
      (s.begin r.socket).due ≤ world.time :=
    ⟨nofun, rfl, nofun, nofun, Nat.zero_le _⟩
  simp only [reduceCtorEq, false_and, if_false, true_and, stage]
  rw [if_pos (by simpa using asks)]
  exact askLobby_admitted admits rfl

theorem can_join {s : Client} (idle : s.active = false) : s.CanJoin device := by
  intro service valid r world listed found short plain action admits
  have resolved : (s.resolve (service ++ suffix) valid).1 =
      { s with service := service, pending := true } := by
    unfold Client.resolve
    rw [findSuffix_service plain]
    have length : service.length ≠ 0 := by simpa using found
    have shape : ¬ ((service ++ suffix).length ≠ service.length + suffix.length ∨
        service.length = 0 ∨ 32 < service.length) := by
      rw [List.length_append]
      omega
    have allowed : ¬ service.all serviceChar = false := by rw [plain]; decide
    have inactive : ¬ s.active = true := by rw [idle]; decide
    have notClosed : ¬ (s.active = true ∧ valid = false) := fun closed => inactive closed.1
    dsimp only
    rw [if_neg shape, List.take_left, if_neg allowed, if_neg notClosed, if_neg inactive]
  dsimp only
  rw [resolved]
  unfold Client.command
  rw [if_neg (by simp [idle])]
  unfold Client.perform
  rw [if_neg (by decide), if_neg (by simp [action])]
  rw [if_neg (by simp [idle]), if_neg (by simp [found, admits.claim])]
  rw [proceed_begin admits]
  obtain ⟨active, socket, service', error, stage⟩ :=
    expire_waiting world.snapshotTime
      (show Client.stage
        { { { s with service := service, pending := true }.begin r.socket with error := [] }.showLobby
          listed world.lobby.now with due := world.lobbyTime + 1000 } = .waiting from rfl)
  exact ⟨active, socket, service', stage, error⟩

/-! ## Sessions -/

/-- The client can be left, and once it is idle it can be joined. -/
def Client.Recoverable (device : Text) (s : Client) : Prop :=
  s.CanLeave device ∧ (s.active = false → s.CanJoin device)

/-- In every session whose transports start, a client with a connection is connecting to it
or connected with a transport, and it can always be left or joined. -/
theorem session_bound {saved : Text} {acts : List Act} {s : Client}
    (run : Runs (step device) (Starts device) { savedName := saved } acts s) :
    s.core.Bound ∧ s.Recoverable device := by
  have sound : s.core.Sound := by
    refine run.invariant (I := fun s => s.core.Sound) (Core.Sound.of_idle rfl ⟨rfl, rfl⟩) ?_
    intro before act next sound starts stepEq
    exact step_sound sound starts stepEq
  exact ⟨sound.toBound, can_leave, can_join⟩

/-! ## A peer is chosen -/

/-- The server makes a connection, and its transport starts or fails. -/
def reservation (failure : Option Text) : Reply :=
  { posted := some (200, some
      { connection := some "01234567-89ab-cdef-0123-456789abcdef".toList
        peerDevice := some ['p'], peerIp := some [192, 0, 2, 1], peerPort := 4000 })
    startFailure := failure }

/-- A lobby with one peer. -/
def lobbyOfOne (failure : Option Text) : World :=
  { cancel := { posted := none }
    connect := reservation failure
    lobby := { posted := some (200, some { peers := some [{ device := some ['p'] }] }) } }

/-- The client joins, and the peer is chosen. -/
def chooses (failure : Option Text) : List Act :=
  [.resolve ('g' :: suffix) true,
    .command .match { socket := 0 } (lobbyOfOne failure),
    .command .connect { socket := 0, revision := 2 } (lobbyOfOne failure)]

/-- The client after it. -/
def chosen (failure : Option Text) : Client :=
  (chooses failure).foldl (fun s act => (step ['d'] s act).getD s) {}

theorem session_bound_connects :
    (chosen none).stage = .connecting ∧ (chosen none).active = true ∧
      (chosen none).core.Bound ∧ (chosen none).Recoverable ['d'] := by
  have run : Runs (step ['d']) (Starts ['d']) {}
      ([] ++ [.resolve ('g' :: suffix) true] ++
        [.command .match { socket := 0 } (lobbyOfOne none)] ++
        [.command .connect { socket := 0, revision := 2 } (lobbyOfOne none)]) (chosen none) :=
    .snoc (.snoc (.snoc .nil True.intro rfl) True.intro rfl) (fun _ _ _ _ _ _ => rfl) rfl
  exact ⟨by decide, by decide, session_bound run⟩

/-- The transport does not start: the client stays in the lobby, with a connection. -/
theorem connect_unstarted :
    ¬ ∀ acts s, Runs (step ['d']) anyStep {} acts s → s.core.Bound := by
  intro bound
  have unbound := bound (chooses (some [])) (chosen (some [])) (.of_foldlM rfl)
  have connecting := (unbound.bound (by decide) (by decide)).1
  exact absurd connecting (by decide)

end FuseX.Matchmaking
