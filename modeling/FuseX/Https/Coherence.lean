import FuseX.Lib.Runs
import FuseX.Https.DirCache

/-!
# The directory cache is coherent

In every run in which no index is stored while another slot holds the same directory, each
directory has one slot, and `stat` agrees with the index that was fetched last, as long as
that one is cached (`cache_coherent`). Nothing in the code looks for the other slot: a
directory that is opened twice has two slots, and the older one is found
(`cache_incoherent`).
-/

namespace FuseX.Https

open Lib

/-! ## What should hold -/

/-- No two slots in use are for the same directory. -/
def Unique (m : Mount) : Prop :=
  ∀ i j, (m.dirCache i).inUse = true → (m.dirCache j).inUse = true →
    (m.dirCache i).path = (m.dirCache j).path → i = j

/-- The index of the directory that was fetched last is in a slot. -/
def CachedLatest (m : Mount) (dirPath : Text) : Prop :=
  ∃ i n entries, (m.dirCache i).inUse = true ∧ (m.dirCache i).path = dirPath ∧
    m.latest dirPath = some (n, entries) ∧ (m.dirCache i).fetch = n

/-- When the last index is cached, `stat` says what the last index says. Where it fetches
another one, that is the last. -/
def Agrees (m : Mount) : Prop :=
  ∀ (path : Text) (index : Index), CachedLatest m (statKey path) →
    (m.stat path index).2.toOption =
      (findEntry ((m.stat path index).1.listing (statKey path)) (splitPath path).2).map (·.stat)

/-! ## Runs -/

inductive Act
  | opendir (path : Text) (index : Index) (memory : Memory)
  | stat (path : Text) (index : Index)

def step (m : Mount) : Act → Option Mount
  | .opendir path index memory => some (m.opendir path index memory).1
  | .stat path index => some (m.stat path index).1

/-- No slot is for the directory but the one that is filled next. -/
def Fresh (m : Mount) (dirPath : Text) : Prop :=
  ∀ i, i ≠ m.chosen → (m.dirCache i).inUse = true → (m.dirCache i).path ≠ dirPath

/-- An index that is put into a slot is put there whole, and the directory has no other
slot. -/
def Steady (m : Mount) : Act → Prop
  | .opendir path index memory => ∀ entries, index = .ok entries → entries ≠ [] →
      memory.array = true → Fresh m (normalizeDirPath path) ∧ ∀ i, memory.copies i = true
  | .stat path index => m.cacheFindEntry (splitPath path).1 (splitPath path).2 = none →
      ∀ entries, index = .ok entries → entries ≠ [] → Fresh m (statKey path)

/-! ## The invariant -/

structure Inv (m : Mount) : Prop where
  unique : Unique m
  current : ∀ i, (m.dirCache i).inUse = true → ∃ n entries,
    m.latest (m.dirCache i).path = some (n, entries) ∧ (m.dirCache i).fetch ≤ n ∧
      ((m.dirCache i).fetch = n → (m.dirCache i).dirEntries = entries)
  counted : ∀ dirPath n entries, m.latest dirPath = some (n, entries) → n ≤ m.fetches

theorem normalizeDirPath_length (path : Text) :
    (normalizeDirPath path).take (httpsCachePathMax - 1) = normalizeDirPath path := by
  refine List.take_of_length_le ?_
  unfold normalizeDirPath
  split
  · decide
  · dsimp only
    split
    · rw [List.length_dropLast, List.length_take]
      omega
    · rw [List.length_take]
      omega

theorem findSlot_unique {m : Mount} (unique : Unique m) {i : Fin httpsDirCacheSize}
    {dirPath : Text} (inUse : (m.dirCache i).inUse = true)
    (path : (m.dirCache i).path = normalizeDirPath dirPath) : m.findSlot dirPath = some i := by
  cases found : m.findSlot dirPath with
  | none =>
    have missed := List.find?_eq_none.mp found i (List.mem_finRange i)
    simp [inUse, path] at missed
  | some j =>
    have here := List.find?_some found
    simp only [Bool.and_eq_true, decide_eq_true_eq] at here
    rw [unique j i here.1 inUse (here.2.trans path.symm)]

@[simp] theorem fill_latest (slot : Slot) (m : Mount) : (m.fill slot).latest = m.latest := rfl

@[simp] theorem fill_fetches (slot : Slot) (m : Mount) : (m.fill slot).fetches = m.fetches := rfl

theorem store_latest (dirPath : Text) (entries : List Entry) (m : Mount) :
    (m.cacheStoreEntries dirPath entries).latest = m.latest := by
  unfold Mount.cacheStoreEntries
  split <;> rfl

theorem fetched_latest (dirPath : Text) (entries : List Entry) (m : Mount) :
    (m.fetched dirPath entries).latest dirPath = some (m.fetches + 1, entries) :=
  Function.update_self ..

theorem inv_agrees {m : Mount} (inv : Inv m) : Agrees m := by
  rintro path index ⟨i, n, entries, inUse, pathEq, latest, fetch⟩
  obtain ⟨n', entries', latest', -, same⟩ := inv.current i inUse
  rw [pathEq, latest] at latest'
  obtain ⟨rfl, rfl⟩ : n = n' ∧ entries = entries' := by simpa using latest'
  have cached : m.cacheFindEntry (splitPath path).1 (splitPath path).2 =
      findEntry entries (splitPath path).2 := by
    unfold Mount.cacheFindEntry
    rw [findSlot_unique inv.unique inUse pathEq, Option.bind_some, same fetch]
  have listing : m.listing (statKey path) = entries := by
    unfold Mount.listing
    rw [latest]
    rfl
  unfold Mount.stat
  dsimp only
  rw [cached]
  cases found : findEntry entries (splitPath path).2 with
  | some entry =>
    dsimp only
    rw [listing, found]
    rfl
  | none =>
    cases index with
    | error failure =>
      dsimp only
      rw [listing, found]
      rfl
    | ok fresh =>
      dsimp only
      have after : Mount.listing ((m.fetched (statKey path) fresh).cacheStoreEntries (statKey path)
          fresh) (statKey path) = fresh := by
        unfold Mount.listing
        rw [store_latest, fetched_latest]
        rfl
      rw [show normalizeDirPath (splitPath path).1 = statKey path from rfl, after]
      cases findEntry fresh (splitPath path).2 <;> rfl

/-! ## What is kept -/

theorem fetched_inv {m : Mount} (inv : Inv m) (dirPath : Text) (entries : List Entry) :
    Inv (m.fetched dirPath entries) where
  unique := inv.unique
  current := by
    intro i inUse
    obtain ⟨n, before, latest, old, same⟩ := inv.current i inUse
    have counted := inv.counted _ n before latest
    unfold Mount.fetched
    dsimp only
    by_cases here : (m.dirCache i).path = dirPath
    · refine ⟨m.fetches + 1, entries, ?_, by omega, fun newest => ?_⟩
      · rw [here, Function.update_self]
      · omega
    · exact ⟨n, before, by rw [Function.update_of_ne here, latest], old, same⟩
  counted := by
    intro other n before latest
    unfold Mount.fetched at latest ⊢
    dsimp only at latest ⊢
    by_cases here : other = dirPath
    · rw [here, Function.update_self] at latest
      obtain ⟨rfl, -⟩ : m.fetches + 1 = n ∧ entries = before := by simpa using latest
      exact Nat.le_refl _
    · rw [Function.update_of_ne here] at latest
      exact Nat.le_succ_of_le (inv.counted other n before latest)

/-- A slot is given up. -/
theorem fill_free_inv {m : Mount} (inv : Inv m) {slot : Slot} (free : slot.inUse = false) :
    Inv (m.fill slot) := by
  have kept : ∀ i, ((m.fill slot).dirCache i).inUse = true →
      (m.fill slot).dirCache i = m.dirCache i := by
    intro i inUse
    by_cases here : i = m.chosen
    · subst here
      have same : (m.fill slot).dirCache m.chosen = slot := Function.update_self ..
      rw [same, free] at inUse
      cases inUse
    · exact Function.update_of_ne here ..
  constructor
  · intro i j inUse inUse' path
    rw [kept i inUse, kept j inUse'] at path
    exact inv.unique i j (kept i inUse ▸ inUse) (kept j inUse' ▸ inUse') path
  · intro i inUse
    rw [kept i inUse]
    exact inv.current i (kept i inUse ▸ inUse)
  · exact inv.counted

/-- The last index of a directory is put into its only slot. -/
theorem fill_latest_inv {m : Mount} (inv : Inv m) {dirPath : Text} {entries : List Entry}
    (latest : m.latest dirPath = some (m.fetches, entries)) (fresh : Fresh m dirPath) :
    Inv (m.fill { path := dirPath, dirEntries := entries, inUse := true, fetch := m.fetches }) := by
  generalize slotEq : Slot.mk dirPath entries true m.fetches = slot
  have filled : (m.fill slot).dirCache m.chosen = slot := Function.update_self ..
  have others : ∀ i, i ≠ m.chosen → (m.fill slot).dirCache i = m.dirCache i :=
    fun i other => Function.update_of_ne other ..
  have path : slot.path = dirPath := by rw [← slotEq]
  constructor
  · intro i j inUse inUse' same
    by_cases here : i = m.chosen
    · by_cases there : j = m.chosen
      · rw [here, there]
      · rw [others j there] at inUse' same
        rw [here, filled, path] at same
        exact absurd same.symm (fresh j there inUse')
    · rw [others i here] at inUse same
      by_cases there : j = m.chosen
      · rw [there, filled, path] at same
        exact absurd same (fresh i here inUse)
      · rw [others j there] at inUse' same
        exact inv.unique i j inUse inUse' same
  · intro i inUse
    by_cases here : i = m.chosen
    · rw [here, filled, path]
      refine ⟨m.fetches, entries, latest, ?_, fun _ => ?_⟩
      · rw [← slotEq]
      · rw [← slotEq]
    · rw [others i here] at inUse ⊢
      exact inv.current i inUse
  · exact inv.counted

theorem opendir_inv {m : Mount} (inv : Inv m) {path : Text} {index : Index} {memory : Memory}
    (steady : Steady m (.opendir path index memory)) :
    Inv (m.opendir path index memory).1 := by
  unfold Mount.opendir
  cases index with
  | error failure => exact inv
  | ok entries =>
    have after := fetched_inv inv (normalizeDirPath path) entries
    dsimp only
    unfold Mount.cachePutEntries
    split
    · exact after
    next found =>
      split
      · exact fill_free_inv after rfl
      next array =>
        obtain ⟨fresh, copies⟩ := steady entries rfl found (by simpa using array)
        have whole : ∀ keep : Entry × Nat → Bool, (∀ e, keep e = true) →
            (entries.zipIdx.filter keep).map (·.1) = entries := by
          intro keep kept
          rw [List.filter_eq_self.mpr fun e _ => kept e, List.zipIdx_map_fst]
        rw [whole _ fun e => copies e.2, normalizeDirPath_length]
        exact fill_latest_inv after (fetched_latest _ _ _) fresh

theorem stat_inv {m : Mount} (inv : Inv m) {path : Text} {index : Index}
    (steady : Steady m (.stat path index)) : Inv (m.stat path index).1 := by
  unfold Mount.stat
  dsimp only
  split
  · exact inv
  next missed =>
    cases index with
    | error failure => exact inv
    | ok entries =>
      have after := fetched_inv inv (statKey path) entries
      dsimp only
      unfold Mount.cacheStoreEntries
      split
      · exact after
      next found =>
        have fresh := steady missed entries rfl found
        rw [normalizeDirPath_length]
        exact fill_latest_inv after (fetched_latest _ _ _) fresh

theorem inv_start : Inv {} where
  unique := nofun
  current := nofun
  counted := nofun

/-- In every run in which a directory gets no other slot, its slot is the only one, and
`stat` agrees with the last index while that is cached. -/
theorem cache_coherent {acts : List Act} {m : Mount} (run : Runs step Steady {} acts m) :
    Unique m ∧ Agrees m := by
  have inv : Inv m := by
    refine run.invariant (I := Inv) inv_start ?_
    intro before act next inv steady stepEq
    cases act with
    | opendir path index memory =>
      obtain rfl := Option.some.inj stepEq
      exact opendir_inv inv steady
    | stat path index =>
      obtain rfl := Option.some.inj stepEq
      exact stat_inv inv steady
  exact ⟨inv.unique, inv_agrees inv⟩

/-! ## A directory that is opened twice -/

def small : Entry := { name := ['a'], isDir := false, size := 1 }
def large : Entry := { name := ['a'], isDir := false, size := 2 }

theorem cache_coherent_opened : ∃ m : Mount,
    Runs step Steady {} ([] ++ [.opendir ['d'] (.ok [small]) {}]) m ∧
      CachedLatest m ['d'] ∧ Unique m ∧ Agrees m := by
  have run : Runs step Steady {} ([] ++ [.opendir ['d'] (.ok [small]) {}])
      (Mount.opendir ['d'] (.ok [small]) {} {}).1 :=
    .snoc .nil (fun _ _ _ _ => ⟨nofun, fun _ => rfl⟩) rfl
  have slot : CachedLatest (Mount.opendir ['d'] (.ok [small]) {} {}).1 ['d'] :=
    ⟨⟨0, Nat.zero_lt_succ 3⟩, 1, [small], by decide, by decide, by decide, by decide⟩
  exact ⟨_, run, slot, cache_coherent run⟩

/-- The index changes between two calls of `opendir`; `stat` finds the older one. -/
theorem cache_incoherent :
    ¬ ∀ acts m, Runs step anyStep {} acts m → Unique m ∧ Agrees m := by
  intro coherent
  have agrees := (coherent
    [.opendir ['d'] (.ok [small]) {}, .opendir ['d'] (.ok [large]) {}] _ (.of_foldlM rfl)).2
  have stale := agrees ['d', '/', 'a'] (.error .io)
    ⟨⟨1, by decide⟩, 2, [large], by decide, by decide, by decide, by decide⟩
  exact absurd stale (by decide)

end FuseX.Https
