import FuseX.Matchmaking.Session

/-!
# The table of peers

The lobby's list is put into the rows in two passes: peers that are shown keep their rows, and the
others take the rows that are left. A row's device changes only together with the revision, so a
program that names a row and a revision that is current means the peer it was shown there
(`peers_shown`).
-/

namespace FuseX.Matchmaking

open Lib

variable {device : Text}

/-! ## Rows -/

/-- The device in a row. -/
def deviceAt (rows : List Peer) (i : Nat) : Text := (rows.getD i {}).device

/-- The devices of a list. -/
def listedIds (listed : List ListedPeer) : List Text := listed.filterMap (·.device)

/-- The ids of a list are whole in their buffers. -/
def ShortIds (listed : List ListedPeer) : Prop := ∀ id ∈ listedIds listed, id.length ≤ 64

/-- No device is in two rows. -/
structure SlotTable (rows : List Peer) : Prop where
  size : rows.length = matchMaxPeers
  unique : ∀ i j, deviceAt rows i ≠ [] → deviceAt rows i = deviceAt rows j → i = j

/-- What a list of the server does to the rows. -/
structure ListLaw (before after : List Peer) (listed : List ListedPeer) : Prop where
  table : SlotTable after
  keeps : ∀ i, deviceAt before i ≠ [] → deviceAt before i ∈ listedIds listed →
    deviceAt after i = deviceAt before i
  frees : ∀ i, deviceAt before i ≠ [] → deviceAt before i ∉ listedIds listed →
    ∀ j, deviceAt after j ≠ deviceAt before i
  others : ∀ i, deviceAt after i ≠ [] → deviceAt after i ≠ deviceAt before i →
    deviceAt after i ∈ listedIds listed ∧ ∀ j, deviceAt before j ≠ deviceAt after i

theorem copy_short {id : Text} (short : id.length ≤ 64) : copy 65 id = id :=
  List.take_of_length_le short

theorem deviceAt_emptyRows (i : Nat) : deviceAt (List.replicate matchMaxPeers {}) i = [] := by
  unfold deviceAt
  rw [List.getD_eq_getElem?_getD, List.getElem?_replicate]
  split <;> rfl

theorem slotTable_emptyRows : SlotTable (List.replicate matchMaxPeers {}) :=
  ⟨List.length_replicate, fun i _ found => absurd (deviceAt_emptyRows i) found⟩

theorem deviceAt_lt {rows : List Peer} {i : Nat} (found : deviceAt rows i ≠ []) :
    i < rows.length := by
  by_contra beyond
  refine found ?_
  unfold deviceAt
  rw [List.getD_eq_getElem?_getD, List.getElem?_eq_none (Nat.not_lt.mp beyond), Option.getD_none]

theorem deviceAt_eq_getElem {rows : List Peer} {i : Nat} (inside : i < rows.length) :
    deviceAt rows i = rows[i].device := by
  unfold deviceAt
  rw [List.getD_eq_getElem?_getD, List.getElem?_eq_getElem inside, Option.getD_some]

theorem deviceAt_filled {rows : List Peer} {slot : Nat} {id : Text} {listed : ListedPeer}
    (inside : slot < rows.length) (short : id.length ≤ 64) (i : Nat) :
    deviceAt (rows.modify slot (.fill id listed)) i = if i = slot then id else deviceAt rows i := by
  unfold deviceAt
  rw [List.getD_eq_getElem?_getD, List.getD_eq_getElem?_getD, List.getElem?_modify]
  split
  · next here =>
    rw [if_pos here.symm, ← here, List.getElem?_eq_getElem inside]
    exact copy_short short
  · next elsewhere =>
    rw [if_neg fun here => elsewhere here.symm]
    cases rows[i]? <;> rfl

/-- A row is looked for by its device. -/
theorem findIdx_device {rows : List Peer} {id : Text} {slot : Nat}
    (found : rows.findIdx? (fun row => decide (row.device = id)) = some slot) :
    slot < rows.length ∧ deviceAt rows slot = id := by
  obtain ⟨inside, here, -⟩ := List.findIdx?_eq_some_iff_getElem.mp found
  exact ⟨inside, (deviceAt_eq_getElem inside).trans (of_decide_eq_true here)⟩

theorem findIdx_missing {rows : List Peer} {id : Text}
    (missing : rows.findIdx? (fun row => decide (row.device = id)) = none) {i : Nat}
    (inside : i < rows.length) : deviceAt rows i ≠ id := by
  rw [deviceAt_eq_getElem inside]
  have other := List.findIdx?_eq_none_iff.mp missing rows[i] (List.getElem_mem inside)
  exact of_decide_eq_false other

theorem any_device {rows : List Peer} {id : Text} (found : id ≠ []) :
    rows.any (fun row => decide (row.device = id)) = true ↔ ∃ i, deviceAt rows i = id := by
  rw [List.any_eq_true]
  constructor
  · rintro ⟨row, present, same⟩
    obtain ⟨i, inside, rfl⟩ := List.getElem_of_mem present
    exact ⟨i, (deviceAt_eq_getElem inside).trans (of_decide_eq_true same)⟩
  · rintro ⟨i, same⟩
    have inside := deviceAt_lt (same ▸ found)
    rw [deviceAt_eq_getElem inside] at same
    exact ⟨_, List.getElem_mem inside, decide_eq_true same⟩

/-! ## The first pass -/

/-- The turn of the first loop for a peer. -/
def keepRow (rows peers : List Peer) (p : ListedPeer) : List Peer :=
  match p.device with
  | none => peers
  | some id =>
      match rows.findIdx? (·.device = id) with
      | none => peers
      | some slot => peers.modify slot (.fill id p)

/-- The rows behind some turns of the first loop, with the ids it has seen. -/
structure Kept (rows peers : List Peer) (seen : List Text) : Prop where
  size : peers.length = matchMaxPeers
  old : ∀ i, deviceAt peers i ≠ [] → deviceAt peers i = deviceAt rows i ∧ deviceAt peers i ∈ seen
  back : ∀ i, deviceAt rows i ≠ [] → deviceAt rows i ∈ seen → deviceAt peers i = deviceAt rows i

theorem Kept.keepRow {rows peers : List Peer} {seen : List Text} {p : ListedPeer} {id : Text}
    (kept : Kept rows peers seen) (table : SlotTable rows) (named : p.device = some id)
    (short : id.length ≤ 64) : Kept rows (keepRow rows peers p) (seen ++ [id]) := by
  unfold Matchmaking.keepRow
  rw [named]
  dsimp only
  cases found : rows.findIdx? (fun row => decide (row.device = id)) with
  | none =>
    refine ⟨kept.size, fun i present => ?_, fun i present listed => ?_⟩
    · obtain ⟨same, before⟩ := kept.old i present
      exact ⟨same, List.mem_append_left _ before⟩
    · rcases List.mem_append.mp listed with before | now
      · exact kept.back i present before
      · exact absurd (List.mem_singleton.mp now) (findIdx_missing found (deviceAt_lt present))
  | some slot =>
    obtain ⟨inside, here⟩ := findIdx_device found
    have inside' : slot < peers.length := by rw [kept.size, ← table.size]; exact inside
    refine ⟨(List.length_modify ..).trans kept.size, fun i present => ?_, fun i present listed => ?_⟩
    · rw [deviceAt_filled inside' short] at present ⊢
      by_cases same : i = slot
      · rw [if_pos same]
        exact ⟨(same ▸ here).symm, List.mem_append_right _ (List.mem_singleton_self id)⟩
      · rw [if_neg same] at present ⊢
        obtain ⟨same, before⟩ := kept.old i present
        exact ⟨same, List.mem_append_left _ before⟩
    · rw [deviceAt_filled inside' short]
      by_cases same : i = slot
      · rw [if_pos same, same, here]
      · rw [if_neg same]
        rcases List.mem_append.mp listed with before | now
        · exact kept.back i present before
        · have twice := (List.mem_singleton.mp now).trans here.symm
          exact absurd (table.unique i slot present twice) same

theorem kept_foldl {rows peers : List Peer} {seen : List Text} {listed : List ListedPeer}
    (kept : Kept rows peers seen) (table : SlotTable rows) (short : ShortIds listed) :
    Kept rows (listed.foldl (keepRow rows) peers) (seen ++ listedIds listed) := by
  induction listed generalizing peers seen with
  | nil =>
    unfold listedIds
    rw [List.filterMap_nil, List.append_nil]
    exact kept
  | cons p listed ih =>
    rw [List.foldl_cons]
    cases named : p.device with
    | none =>
      have ids : listedIds (p :: listed) = listedIds listed := List.filterMap_cons_none named
      have same : keepRow rows peers p = peers := by rw [Matchmaking.keepRow, named]
      rw [same, ids]
      exact ih kept fun id present => short id (ids ▸ present)
    | some id =>
      have ids : listedIds (p :: listed) = id :: listedIds listed :=
        List.filterMap_cons_some named
      have next := kept.keepRow table named (short id (ids ▸ List.mem_cons_self))
      have all := ih next fun id' present => short id' (ids ▸ List.mem_cons_of_mem _ present)
      rw [ids, ← List.singleton_append, ← List.append_assoc]
      exact all

theorem keepRows_kept {rows : List Peer} {listed : List ListedPeer} (table : SlotTable rows)
    (short : ShortIds listed) : Kept rows (keepRows rows listed) (listedIds listed) := by
  have start : Kept rows (List.replicate matchMaxPeers {}) [] :=
    ⟨List.length_replicate, fun i present => absurd (deviceAt_emptyRows i) present,
      fun _ _ => nofun⟩
  exact kept_foldl start table short

/-! ## The second pass -/

/-- The turn of the second loop for a peer. -/
def fillRow (peers : List Peer) (p : ListedPeer) : List Peer :=
  match p.device with
  | none => peers
  | some id =>
      if peers.any (·.device = id) then peers
      else
        match peers.findIdx? (·.device = []) with
        | none => peers
        | some slot => peers.modify slot (.fill id p)

/-- The rows behind some turns of the second loop. -/
structure Filled (kept peers : List Peer) (seen : List Text) : Prop where
  table : SlotTable peers
  stays : ∀ i, deviceAt kept i ≠ [] → deviceAt peers i = deviceAt kept i
  new : ∀ i, deviceAt peers i ≠ [] → deviceAt peers i = deviceAt kept i ∨
    (deviceAt peers i ∈ seen ∧ ∀ j, deviceAt kept j ≠ deviceAt peers i)

theorem Filled.see {kept peers : List Peer} {seen : List Text} (filled : Filled kept peers seen)
    (id : Text) : Filled kept peers (seen ++ [id]) := by
  refine ⟨filled.table, filled.stays, fun i present => ?_⟩
  rcases filled.new i present with same | ⟨before, fresh⟩
  · exact .inl same
  · exact .inr ⟨List.mem_append_left _ before, fresh⟩

theorem Filled.fillRow {kept peers : List Peer} {seen : List Text} {p : ListedPeer} {id : Text}
    (filled : Filled kept peers seen) (named : p.device = some id) (short : id.length ≤ 64) :
    Filled kept (fillRow peers p) (seen ++ [id]) := by
  unfold Matchmaking.fillRow
  rw [named]
  dsimp only
  split
  · exact filled.see id
  · next absent =>
    cases found : peers.findIdx? (fun row => decide (row.device = [])) with
    | none => exact filled.see id
    | some slot =>
      obtain ⟨inside, empty⟩ := findIdx_device found
      have named' : id ≠ [] := by
        rintro rfl
        refine absent (List.any_eq_true.mpr ⟨peers[slot], List.getElem_mem inside, ?_⟩)
        exact decide_eq_true ((deviceAt_eq_getElem inside).symm.trans empty)
      have nowhere : ∀ j, deviceAt peers j ≠ id := by
        intro j here
        exact absent ((any_device named').mpr ⟨j, here⟩)
      refine ⟨⟨(List.length_modify ..).trans filled.table.size, fun i j present same => ?_⟩,
        fun i present => ?_, fun i present => ?_⟩
      · rw [deviceAt_filled inside short] at present same
        rw [deviceAt_filled inside short] at same
        by_cases here : i = slot
        · by_cases there : j = slot
          · exact here.trans there.symm
          · rw [if_pos here, if_neg there] at same
            exact absurd same.symm (nowhere j)
        · rw [if_neg here] at present same
          by_cases there : j = slot
          · rw [if_pos there] at same
            exact absurd same (nowhere i)
          · rw [if_neg there] at same
            exact filled.table.unique i j present same
      · rw [deviceAt_filled inside short]
        by_cases here : i = slot
        · have taken := filled.stays i present
          rw [here, empty] at taken
          exact absurd taken.symm (here ▸ present)
        · rw [if_neg here]
          exact filled.stays i present
      · rw [deviceAt_filled inside short] at present ⊢
        by_cases here : i = slot
        · rw [if_pos here]
          refine .inr ⟨List.mem_append_right _ (List.mem_singleton_self id), fun j same => ?_⟩
          have stays := filled.stays j (same ▸ named')
          exact nowhere j (stays.trans same)
        · rw [if_neg here] at present ⊢
          exact (filled.see id).new i present

theorem filled_foldl {kept peers : List Peer} {seen : List Text} {listed : List ListedPeer}
    (filled : Filled kept peers seen) (short : ShortIds listed) :
    Filled kept (listed.foldl fillRow peers) (seen ++ listedIds listed) := by
  induction listed generalizing peers seen with
  | nil =>
    unfold listedIds
    rw [List.filterMap_nil, List.append_nil]
    exact filled
  | cons p listed ih =>
    rw [List.foldl_cons]
    cases named : p.device with
    | none =>
      have ids : listedIds (p :: listed) = listedIds listed := List.filterMap_cons_none named
      have same : fillRow peers p = peers := by rw [Matchmaking.fillRow, named]
      rw [same, ids]
      exact ih filled fun id present => short id (ids ▸ present)
    | some id =>
      have ids : listedIds (p :: listed) = id :: listedIds listed :=
        List.filterMap_cons_some named
      have next := filled.fillRow named (short id (ids ▸ List.mem_cons_self))
      have all := ih next fun id' present => short id' (ids ▸ List.mem_cons_of_mem _ present)
      rw [ids, ← List.singleton_append, ← List.append_assoc]
      exact all

/-- Both passes. -/
theorem rows_listLaw {rows : List Peer} {listed : List ListedPeer} (table : SlotTable rows)
    (short : ShortIds listed) :
    ListLaw rows (fillRows (keepRows rows listed) listed) listed := by
  have kept := keepRows_kept table short
  have start : Filled (keepRows rows listed) (keepRows rows listed) [] := by
    refine ⟨⟨kept.size, fun i j present same => ?_⟩, fun _ _ => rfl, fun _ _ => .inl rfl⟩
    have here := (kept.old i present).1
    have there := (kept.old j (same ▸ present)).1
    exact table.unique i j (here ▸ present) (here.symm.trans (same.trans there))
  have filled : Filled (keepRows rows listed) (fillRows (keepRows rows listed) listed)
      (listedIds listed) := filled_foldl start short
  have present_ : ∀ i, deviceAt (fillRows (keepRows rows listed) listed) i ≠ [] →
      deviceAt (fillRows (keepRows rows listed) listed) i ∈ listedIds listed := by
    intro i present
    rcases filled.new i present with same | ⟨seen, -⟩
    · rw [same] at present ⊢
      exact (kept.old i present).2
    · exact seen
  refine ⟨filled.table, fun i present inList => ?_, fun i present gone j same => ?_,
    fun i present differ => ⟨present_ i present, fun j same => ?_⟩⟩
  · have back := kept.back i present inList
    exact (filled.stays i (back ▸ present)).trans back
  · exact gone (same ▸ present_ j (same ▸ present))
  · have back := kept.back j (same ▸ present) (same ▸ present_ i present)
    have stays := filled.stays j (back ▸ same ▸ present)
    obtain rfl := filled.table.unique i j present (same.symm.trans (back.symm.trans stays.symm))
    exact differ same.symm

end FuseX.Matchmaking
