import FuseX.Matchmaking.PeerTable

/-!
# Rows and revisions

Every command leaves the rows alone, empties them for a new match, or shows a list of the lobby;
`Revises` counts the revisions on the way. Between two states with the same revision and fewer
than 2^16 revisions there are none, so the rows are the same ones (`peers_shown`).
-/

namespace FuseX.Matchmaking

open Lib

variable {device : Text}

/-! ## The rows with their revision -/

structure Table where
  rows : List Peer
  revision : UInt16

def Client.table (s : Client) : Table := ⟨s.peers, s.revision⟩

/-- A list of the lobby is shown. -/
def Table.show (listed : List ListedPeer) (t : Table) : Table where
  rows := fillRows (keepRows t.rows listed) listed
  revision :=
    if fillRows (keepRows t.rows listed) listed ≠ t.rows then t.revision + 1 else t.revision

/-- A new match begins. -/
def Table.clear (t : Table) : Table := ⟨List.replicate matchMaxPeers {}, t.revision + 1⟩

/-- What can become of a table, with the number of revisions. -/
inductive Revises (s : Table) : Nat → Table → Prop
  | refl : Revises s 0 s
  | clear {n : Nat} {t : Table} : Revises s n t → Revises s (n + 1) t.clear
  | same {n : Nat} {t : Table} (listed : List ListedPeer) : Revises s n t → ShortIds listed →
    (t.show listed).rows = t.rows → Revises s n (t.show listed)
  | changed {n : Nat} {t : Table} (listed : List ListedPeer) : Revises s n t → ShortIds listed →
    (t.show listed).rows ≠ t.rows → Revises s (n + 1) (t.show listed)

theorem Revises.trans {s t u : Table} {n m : Nat} (first : Revises s n t) (later : Revises t m u) :
    Revises s (n + m) u := by
  induction later with
  | refl => exact first
  | clear _ ih => exact ih.clear
  | same listed _ short same ih => exact ih.same listed short same
  | changed listed _ short changed ih => exact ih.changed listed short changed

theorem Revises.slots {s t : Table} {n : Nat} (revises : Revises s n t)
    (slots : SlotTable s.rows) : SlotTable t.rows := by
  induction revises with
  | refl => exact slots
  | clear _ _ => exact slotTable_emptyRows
  | same listed _ short _ ih => exact (rows_listLaw ih short).table
  | changed listed _ short _ ih => exact (rows_listLaw ih short).table

theorem Revises.revision {s t : Table} {n : Nat} (revises : Revises s n t) :
    t.revision = s.revision + UInt16.ofNat n := by
  induction revises with
  | refl => exact (UInt16.add_zero _).symm
  | @clear n t _ ih =>
    rw [UInt16.ofNat_add, ← UInt16.add_assoc, ← ih]
    rfl
  | same listed _ _ same ih => exact (if_neg (not_not.mpr same)).trans ih
  | @changed n t listed _ _ changed ih =>
    rw [UInt16.ofNat_add, ← UInt16.add_assoc, ← ih]
    exact if_pos changed

theorem Revises.rows {s t : Table} {n : Nat} (revises : Revises s n t) (never : n = 0) :
    t.rows = s.rows := by
  induction revises with
  | refl => rfl
  | clear => cases never
  | same listed _ _ same ih => exact same.trans (ih never)
  | changed => cases never

theorem Revises.count {s t : Table} {n : Nat} (revises : Revises s n t) (few : n < 65536) :
    (t.revision - s.revision).toNat = n := by
  rw [revises.revision, UInt16.add_comm, UInt16.add_sub_cancel, UInt16.toNat_ofNat']
  exact Nat.mod_eq_of_lt few

/-- With the same revision there was none on the way. -/
theorem Revises.current {s t : Table} {n : Nat} (revises : Revises s n t) (few : n < 65536)
    (same : t.revision = s.revision) : t.rows = s.rows := by
  refine revises.rows ?_
  rw [← revises.count few, same, UInt16.sub_self]
  rfl

/-! ## Requests -/

/-- The ids of a list that the server sends are whole in their buffers. -/
def Reply.ShortIds (reply : Reply) : Prop :=
  ∀ status response listed, reply.received none = some (status, some response) →
    response.peers = some listed → Matchmaking.ShortIds listed

theorem understand_lobby {action : Option Action} {response : Response} {s : Client}
    {listed : List ListedPeer} (answer : s.understand device action response = .lobby listed) :
    action = none ∧ response.peers = some listed := by
  unfold Client.understand at answer
  split at answer
  · cases answer
  split at answer
  · cases answer
  split at answer
  next connection _ =>
    split at answer
    · cases answer
    split at answer
    · rcases reserve_cases device connection response with
        ⟨message, reserved⟩ | ⟨id, peerName, initiator, reserved⟩
      · rw [reserved] at answer
        cases answer
      · rw [reserved] at answer
        cases answer
    · cases answer
  · split at answer
    next asked =>
      split at answer
      · cases answer
      next peers found =>
        cases answer
        exact ⟨asked, found⟩
    · cases answer

theorem answer_lobby {action : Option Action} {reply : Reply} {s : Client}
    {listed : List ListedPeer} (short : reply.ShortIds)
    (answer : s.answer device action reply = .lobby listed) :
    action = none ∧ ShortIds listed := by
  unfold Client.answer at answer
  split at answer
  · cases answer
  split at answer
  · cases answer
  split at answer
  · cases answer
  · cases answer
  next status response received =>
    split at answer
    · cases answer
    · obtain ⟨rfl, found⟩ := understand_lobby answer
      exact ⟨rfl, short status response listed received found⟩

/-- A request leaves the rows alone, or it is one to the lobby. -/
theorem post_table {action : Option Action} {reply : Reply} {s : Client}
    (short : reply.ShortIds) :
    (s.post device action reply).1.table = s.table ∨
      action = none ∧ ∃ listed, ShortIds listed ∧
        (s.post device action reply).1.table = s.table.show listed := by
  unfold Client.post
  split
  · exact .inl rfl
  · exact .inl rfl
  · exact .inl rfl
  · dsimp only
    split
    · exact .inl rfl
    · exact .inl rfl
  next listed answer =>
    obtain ⟨asked, whole⟩ := answer_lobby short answer
    exact .inr ⟨asked, listed, whole, rfl⟩
  · exact .inl rfl

theorem post_table_some {action : Action} {reply : Reply} {s : Client} :
    (s.post device (some action) reply).1.table = s.table := by
  have settled := answer_settled device (some action) reply s
  unfold Client.post
  generalize s.answer device (some action) reply = answer at settled
  cases settled with
  | failed message => cases message <;> rfl
  | refused error => rfl
  | reserved => cases reply.startFailure <;> rfl
  | lobby listed asked => cases asked
  | ok => rfl

theorem post_asked {action : Option Action} {reply : Reply} {s : Client} :
    (s.post device action reply).1.asked = s.asked := by
  unfold Client.post
  split
  · rfl
  · rfl
  · rfl
  · dsimp only
    split <;> rfl
  · rfl
  · rfl

/-! ## Commands -/

theorem askLobby_revises {world : World} {s : Client} (short : world.lobby.ShortIds) :
    ∃ n ≤ 1, Revises s.table n (s.askLobby device world).table := by
  unfold Client.askLobby
  dsimp only
  generalize (if s.connection ≠ [] then some Action.poll else none) = action
  have posted := @post_table device action world.lobby s short
  cases post : s.post device action world.lobby with
  | mk t ok =>
    rw [post] at posted
    have shown : (if ok then t else { t.release with stage := .error }).table = t.table := by
      cases ok <;> rfl
    have table : ({ (if ok then t else { t.release with stage := .error }) with
        due := world.lobbyTime + 1000 } : Client).table = t.table := shown
    dsimp only
    rw [table]
    rcases posted with same | ⟨-, listed, whole, same⟩
    · exact ⟨0, Nat.zero_le 1, same ▸ .refl⟩
    · rw [same]
      by_cases changed : (s.table.show listed).rows = s.table.rows
      · exact ⟨0, Nat.zero_le 1, Revises.refl.same listed whole changed⟩
      · exact ⟨1, Nat.le_refl 1, Revises.refl.changed listed whole changed⟩

theorem connectTo_table {r : Request} {world : World} {s : Client} :
    (s.connectTo device r world).table = s.table := by
  unfold Client.connectTo
  dsimp only
  split
  · rfl
  · exact post_table_some

theorem checkReady_table {world : World} {s : Client} :
    (s.checkReady device world).table = s.table := by
  unfold Client.checkReady
  split
  · rfl
  split
  · exact post_table_some
  · rfl

theorem ite_table {P : Prop} [Decidable P] {s t u : Client} (yes : P → s.table = u.table)
    (no : ¬ P → t.table = u.table) : (if P then s else t).table = u.table := by
  split
  next holds => exact yes holds
  next fails => exact no fails

theorem proceed_revises {c : Command} {r : Request} {world : World} {s : Client}
    (short : world.lobby.ShortIds) :
    ∃ n ≤ 1, Revises s.table n (s.proceed device c r world).table := by
  have none_ : ∀ t : Client, t.table = s.table → ∃ n ≤ 1, Revises s.table n t.table :=
    fun t same => ⟨0, Nat.zero_le 1, same ▸ .refl⟩
  have last : ∀ t : Client, t.table = s.table → ∃ n ≤ 1, Revises s.table n
      (if c ≠ .getPeer ∧ t.active = true ∧ t.stage ≠ .connected ∧ t.stage ≠ .connecting ∧
          t.due ≤ world.time then t.askLobby device world else t).table := by
    intro t same
    split
    · rw [← same]
      exact askLobby_revises short
    · exact none_ t same
  unfold Client.proceed
  split
  · exact none_ _ rfl
  split
  · exact none_ _ rfl
  refine last _ (ite_table (fun _ => checkReady_table.trans ?_) fun _ => ?_)
  all_goals
    refine ite_table (fun _ => connectTo_table.trans ?_) fun _ => ?_
    · exact ite_table (fun _ => rfl) fun _ => rfl
    · exact ite_table (fun _ => rfl) fun _ => rfl

theorem perform_revises {c : Command} {r : Request} {world : World} {s : Client}
    (short : world.lobby.ShortIds) :
    ∃ n ≤ 2, Revises s.table n (s.perform device c r world).table := by
  have none_ : ∀ t : Client, t.table = s.table → ∃ n ≤ 2, Revises s.table n t.table :=
    fun t same => ⟨0, Nat.zero_le 2, same ▸ .refl⟩
  unfold Client.perform
  split
  · refine none_ _ ?_
    unfold Client.setName
    exact ite_table (fun _ => rfl) fun _ => rfl
  split
  · refine none_ _ ?_
    exact ite_table (u := s) (fun _ => post_table_some) fun _ => rfl
  split
  · obtain ⟨n, few, revises⟩ := @proceed_revises device c r world s short
    exact ⟨n, Nat.le_succ_of_le few, revises⟩
  split
  · exact none_ _ rfl
  · obtain ⟨n, few, revises⟩ := @proceed_revises device c r world (s.begin r.socket) short
    exact ⟨1 + n, by omega, (Revises.refl.clear).trans revises⟩

/-- The lists that the server may send in a step. -/
def Act.ShortIds : Act → Prop
  | .command _ _ world => world.lobby.ShortIds
  | _ => True

/-- What a step other than a reset does to the rows. -/
theorem step_revises {act : Act} {s t : Client} (kept : act ≠ .reset) (short : act.ShortIds)
    (stepEq : step device s act = some t) : ∃ n ≤ 2, Revises s.table n t.table := by
  have none_ : ∀ t : Client, t.table = s.table → ∃ n ≤ 2, Revises s.table n t.table :=
    fun t same => ⟨0, Nat.zero_le 2, same ▸ .refl⟩
  cases act with
  | command c r world =>
    obtain rfl := Option.some.inj stepEq
    unfold Client.command
    split
    · exact none_ _ rfl
    · have expire : ∀ u : Client, (u.expire world.snapshotTime).table = u.table := by
        intro u
        unfold Client.expire
        exact ite_table (fun _ => rfl) fun _ => rfl
      dsimp only
      rw [expire]
      exact perform_revises short
  | resolve host valid =>
    obtain rfl := Option.some.inj stepEq
    refine none_ _ ?_
    unfold Client.resolve
    split
    · rfl
    dsimp only
    split
    · rfl
    split
    · rfl
    by_cases closed : s.active = true ∧ valid = false
    · simp only [if_pos closed]
      rfl
    · simp only [if_neg closed]
      split <;> rfl
  | complete valid reply =>
    obtain rfl := Option.some.inj stepEq
    refine none_ _ ?_
    unfold Client.complete
    refine ite_table (fun _ => ?_) fun _ => rfl
    exact ite_table (fun _ => post_table_some) fun _ => rfl
  | reset => exact absurd rfl kept

/-! ## Sessions -/

/-- The revisions of a session. -/
def revisions (device : Text) : Client → List Act → Nat
  | _, [] => 0
  | s, act :: acts =>
      (step device s act).elim 0 fun t =>
        (t.revision - s.revision).toNat + revisions device t acts

theorem session_revises {acts : List Act} {s t : Client}
    (kept : ∀ act ∈ acts, act ≠ .reset ∧ act.ShortIds)
    (session : acts.foldlM (step device) s = some t) :
    Revises s.table (revisions device s acts) t.table := by
  induction acts generalizing s with
  | nil =>
    obtain rfl := Option.some.inj session
    exact .refl
  | cons act acts ih =>
    rw [List.foldlM_cons] at session
    obtain ⟨u, stepEq, rest⟩ := Option.bind_eq_some_iff.mp session
    obtain ⟨⟨notReset, short⟩, kept⟩ := List.forall_mem_cons.mp kept
    obtain ⟨n, few, revises⟩ := step_revises notReset short stepEq
    have count : (u.revision - s.revision).toNat = n := revises.count (by omega)
    rw [revisions, stepEq, Option.elim_some, count]
    exact revises.trans (ih kept rest)

/-! ## Rows that a program names -/

theorem askLobby_asked {world : World} {s : Client} :
    (s.askLobby device world).asked = s.asked := by
  unfold Client.askLobby
  dsimp only
  generalize (if s.connection ≠ [] then some Action.poll else none) = action
  rw [← @post_asked device action world.lobby s]
  split <;> rfl

theorem connectTo_asked {r : Request} {world : World} {s : Client} :
    (s.connectTo device r world).asked =
      if r.revision ≠ s.revision ∨ deviceAt s.peers r.index.toNat = [] then s.asked
      else some (deviceAt s.peers r.index.toNat) := by
  unfold Client.connectTo deviceAt
  dsimp only
  split <;> rfl

theorem expire_asked {now : Nat} {s : Client} : (s.expire now).asked = s.asked := by
  unfold Client.expire
  split <;> rfl

/-- The device that CONNECT asks the server for. -/
theorem proceed_asked {r : Request} {world : World} {s : Client} :
    (s.proceed device .connect r world).asked =
      if world.valid = true ∧ (s.stage = .waiting ∨ s.stage = .preparing) ∧
          ¬ (r.revision ≠ s.revision ∨ deviceAt s.peers r.index.toNat = []) then
        some (deviceAt s.peers r.index.toNat)
      else s.asked := by
  have last : ∀ t : Client, (if Command.connect ≠ .getPeer ∧ t.active = true ∧
      t.stage ≠ .connected ∧ t.stage ≠ .connecting ∧ t.due ≤ world.time then
      t.askLobby device world else t).asked = t.asked := by
    intro t
    split
    · exact askLobby_asked
    · rfl
  unfold Client.proceed
  by_cases valid : world.valid = false
  · rw [if_pos valid, if_neg fun all => Bool.noConfusion (valid.symm.trans all.1)]
    rfl
  rw [if_neg valid]
  simp only [reduceCtorEq, false_and, if_false, true_and]
  have valid' : world.valid = true := by simpa using valid
  by_cases stage : s.stage = .waiting ∨ s.stage = .preparing
  · rw [if_pos stage]
    refine (last _).trans (connectTo_asked.trans ?_)
    by_cases stale : r.revision ≠ s.revision ∨ deviceAt s.peers r.index.toNat = []
    · rw [if_pos stale, if_neg fun all => all.2.2 stale]
    · rw [if_neg stale, if_pos ⟨valid', stage, stale⟩]
  · rw [if_neg stage]
    exact (last s).trans (if_neg fun all => stage all.2.1).symm

/-- CONNECT asks the server for the device in the row, or for none. -/
theorem command_asked {r : Request} {world : World} {s : Client} :
    (s.Asks r world → (s.command device .connect r world).1.asked =
      some (deviceAt s.peers r.index.toNat)) ∧
    (¬ s.Asks r world → (s.command device .connect r world).1.asked = s.asked) := by
  unfold Client.command Client.perform
  rw [if_neg (show ¬ Command.connect = .setName from nofun),
    if_neg (show ¬ (Command.connect = .match ∧ r.action ≠ 0) from nofun)]
  constructor
  · intro asks
    rw [if_neg fun other => other.2.2 asks.socket, if_pos asks.active]
    dsimp only
    rw [expire_asked, proceed_asked,
      if_pos ⟨asks.valid, asks.stage, fun stale => stale.elim (· asks.revision) asks.row⟩]
  · intro notAsks
    split
    · rfl
    next socket =>
      dsimp only
      rw [expire_asked]
      split
      next active =>
        rw [proceed_asked]
        refine if_neg fun all => notAsks ?_
        obtain ⟨valid, stage, current⟩ := all
        obtain ⟨revision, row⟩ := not_or.mp current
        refine ⟨active, ?_, valid, stage, not_not.mp revision, row⟩
        by_contra other
        exact socket ⟨nofun, active, other⟩
      · rfl

/-- GET_PEER shows the row and leaves it. -/
theorem command_getPeer {r : Request} {world : World} {s : Client}
    (socket : s.active = true → r.socket = s.socket) (inside : r.index.toNat < matchMaxPeers)
    (current : r.revision = s.revision) :
    (s.command device .getPeer r world).2.peer = s.peers.getD r.index.toNat {} ∧
      (s.command device .getPeer r world).1.table = s.table := by
  have performed : (s.perform device .getPeer r world).table = s.table := by
    unfold Client.perform Client.proceed
    simp only [reduceCtorEq, false_and, if_false, ne_eq, not_true_eq_false, not_false_eq_true,
      true_or, if_true]
    exact ite_table (fun _ => ite_table (fun _ => rfl) fun _ => rfl) fun _ => rfl
  have expired : ((s.perform device .getPeer r world).expire world.snapshotTime).table =
      s.table := by
    unfold Client.expire
    exact ite_table (fun _ => performed) fun _ => performed
  unfold Client.command
  rw [if_neg fun other => other.2.2 (socket other.2.1)]
  refine ⟨?_, expired⟩
  have rows : ((s.perform device .getPeer r world).expire world.snapshotTime).peers = s.peers :=
    congrArg Table.rows expired
  have revision : ((s.perform device .getPeer r world).expire world.snapshotTime).revision =
      s.revision := congrArg Table.revision expired
  unfold Client.snapshot
  dsimp only
  rw [revision, rows, if_pos ⟨rfl, current, inside⟩]

/-! ## The law of the rows -/

/-- A row that has been shown at a revision means the same peer as long as the revision is
current. -/
def Client.Current (device : Text) (s : Client) : Prop :=
  ∀ (r r' : Request) (world world' : World) (acts : List Act) (t : Client),
    (s.active = true → r.socket = s.socket) → r.index.toNat < matchMaxPeers →
    r.revision = s.revision →
    acts.foldlM (step device) (s.command device .getPeer r world).1 = some t →
    (∀ act ∈ acts, act ≠ .reset ∧ act.ShortIds) →
    revisions device (s.command device .getPeer r world).1 acts < 65536 →
    r'.index = r.index → r'.revision = r.revision → r'.revision = t.revision →
      ((t.active = true → r'.socket = t.socket) → (t.command device .getPeer r' world').2.peer =
        (s.command device .getPeer r world).2.peer) ∧
      (t.Asks r' world' → (t.command device .connect r' world').1.asked =
        some (s.command device .getPeer r world).2.peer.device) ∧
      (¬ t.Asks r' world' → (t.command device .connect r' world').1.asked = t.asked)

structure Client.PeersShown (device : Text) (s : Client) : Prop where
  table : SlotTable s.peers
  listed : ∀ listed now, ShortIds listed → ListLaw s.peers (s.showLobby listed now).peers listed
  revised : ∀ act t, act ≠ .reset → act.ShortIds → step device s act = some t →
    t.peers ≠ s.peers → t.revision ≠ s.revision
  current : s.Current device

theorem current_rows {s : Client} : s.Current device := by
  intro r r' world world' acts t socket inside current session kept few index same current'
  obtain ⟨shown, table⟩ := @command_getPeer device r world s socket inside current
  have revises := session_revises kept session
  have revision : t.table.revision = (s.command device .getPeer r world).1.table.revision := by
    rw [table]
    exact current'.symm.trans (same.trans current)
  have rows : t.peers = s.peers :=
    (revises.current few revision).trans (congrArg Table.rows table)
  obtain ⟨asks, notAsks⟩ := @command_asked device r' world' t
  refine ⟨fun socket' => ?_, fun asked => ?_, notAsks⟩
  · rw [(command_getPeer socket' (index ▸ inside) current').1, shown, rows, index]
  · rw [asks asked, shown, rows, index]
    rfl

/-- In every session, with ids that are whole in their buffers. -/
theorem peers_shown {saved : Text} {acts : List Act} {s : Client}
    (run : Runs (step device) (fun _ act => act.ShortIds) { savedName := saved } acts s) :
    s.PeersShown device := by
  have slots : SlotTable s.peers := by
    refine run.invariant (I := fun s => SlotTable s.peers) slotTable_emptyRows ?_
    intro before act next slots short stepEq
    by_cases kept : act = .reset
    · subst kept
      obtain rfl := Option.some.inj stepEq
      exact slotTable_emptyRows
    · obtain ⟨n, -, revises⟩ := step_revises kept short stepEq
      exact revises.slots slots
  refine ⟨slots, fun listed now short => rows_listLaw slots short, ?_, current_rows⟩
  intro act t kept short stepEq differ same
  obtain ⟨n, few, revises⟩ := step_revises kept short stepEq
  exact differ (revises.current (by omega) same)

/-- The lobby of one peer, and its choice. -/
theorem peers_shown_chosen : (chosen none).PeersShown ['d'] := by
  have whole : ∀ world : World, world.lobby =
      { posted := some (200, some { peers := some [{ device := some ['p'] }] }) } →
      world.lobby.ShortIds := by
    intro world lobby status response listed received found
    rw [lobby] at received
    cases received
    cases found
    intro id present
    obtain rfl := List.mem_singleton.mp present
    decide
  have run : Runs (step ['d']) (fun _ act => act.ShortIds) {}
      ([] ++ [.resolve ('g' :: suffix) true] ++
        [.command .match { socket := 0 } (lobbyOfOne none)] ++
        [.command .connect { socket := 0, revision := 2 } (lobbyOfOne none)]) (chosen none) :=
    .snoc (.snoc (.snoc .nil True.intro rfl) (whole _ rfl) rfl) (whole _ rfl) rfl
  exact peers_shown run

end FuseX.Matchmaking
