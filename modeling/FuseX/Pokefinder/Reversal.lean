import FuseX.Pokefinder.Trainer

/-!
# Activating a trainer and deactivating it

What the pokes of a list do to memory, as stores to places: `bytes` are those of an activation
and `restores` those of a deactivation. Both go through the list in the same order, so the byte
that stays is the one that the last poke to a place has kept.
-/

namespace FuseX.Pokefinder

open Lib

variable (paging : Paging)

/-! ## The stores of a poke -/

/-- Where a poke reads. -/
def Paging.pokeReads (poke : Poke) : Nat :=
  if poke.bank = 8 then paging.readPlace poke.address
  else ramPlace paging poke.bank (poke.address.toNat % 0x4000)

/-- Where a poke writes, if anything is writable there. -/
def Paging.pokeWrites (poke : Poke) : Option Nat :=
  if poke.bank = 8 then
    let mapping := paging.memoryMapWrite (poke.address.toNat / memoryPageSize)
    if mapping.writable || !mapping.sourceNone && paging.writableRoms then
      some (mapping.page + poke.address.toNat % memoryPageSize)
    else none
  else some (ramPlace paging poke.bank (poke.address.toNat % 0x4000))

/-- What the pokes put into memory. -/
def Trainer.bytes (trainer : Trainer) (pokes : List Poke) : List (Nat × UInt8) :=
  pokes.filterMap fun poke => (paging.pokeWrites poke).map (·, trainer.byte poke)

/-- What the pokes put back. -/
def restores (pokes : List Poke) : List (Nat × UInt8) :=
  pokes.filterMap fun poke => (paging.pokeWrites poke).map (·, poke.restore)

variable {paging}

theorem storeAll_poke (host : Host) (poke : Poke) (byte : Poke → UInt8) :
    storeAll host ([poke].filterMap fun poke => (paging.pokeWrites poke).map (·, byte poke))
      = match paging.pokeWrites poke with
        | some place => Function.update host place (byte poke)
        | none => host := by
  rw [List.filterMap_cons]
  cases paging.pokeWrites poke with
  | some place => rfl
  | none => rfl

theorem pokememPokeActivate_eq (trainer : Trainer) (host : Host) (poke : Poke) :
    pokememPokeActivate paging trainer host poke
      = (storeAll host (trainer.bytes paging [poke]),
        { poke with restore := host (paging.pokeReads poke) }) := by
  rw [pokememPokeActivate, Trainer.bytes, storeAll_poke, Paging.pokeWrites, Paging.pokeReads]
  split
  · rw [writebyteInternal]
    dsimp only
    split
    · rfl
    · rfl
  · rfl

theorem pokememPokeDeactivate_eq (host : Host) (poke : Poke) :
    pokememPokeDeactivate paging host poke = storeAll host (restores paging [poke]) := by
  rw [pokememPokeDeactivate, restores, storeAll_poke, Paging.pokeWrites]
  split
  · rw [writebyteInternal]
    dsimp only
    split
    · rfl
    · rfl
  · rfl

theorem bytes_append (trainer : Trainer) (front back : List Poke) :
    trainer.bytes paging (front ++ back)
      = trainer.bytes paging front ++ trainer.bytes paging back := List.filterMap_append

theorem deactivateAll_eq (host : Host) (pokes : List Poke) :
    pokes.foldl (pokememPokeDeactivate paging) host = storeAll host (restores paging pokes) := by
  induction pokes generalizing host with
  | nil => rfl
  | cons poke pokes ih =>
    rw [List.foldl_cons, ih, pokememPokeDeactivate_eq, ← storeAll_append]
    exact congrArg (storeAll host) List.filterMap_append.symm

theorem activateAll_memory (trainer : Trainer) (host : Host) (pokes : List Poke) :
    (activateAll paging trainer host pokes).1 = storeAll host (trainer.bytes paging pokes) := by
  induction pokes generalizing host with
  | nil => rfl
  | cons poke pokes ih =>
    rw [activateAll, ih, pokememPokeActivate_eq, ← storeAll_append]
    exact congrArg (storeAll host) (bytes_append trainer [poke] pokes).symm

/-- A poke keeps the byte that the pokes before it leave. -/
theorem activateAll_pokes (trainer : Trainer) (host : Host) (before after : List Poke) :
    (activateAll paging trainer host (before ++ after)).2
      = (activateAll paging trainer host before).2 ++
        (activateAll paging trainer (storeAll host (trainer.bytes paging before)) after).2 := by
  induction before generalizing host with
  | nil => rfl
  | cons poke before ih =>
    rw [List.cons_append, activateAll, activateAll, ih, pokememPokeActivate_eq, ← storeAll_append,
      ← bytes_append]
    rfl

theorem activateAll_length (trainer : Trainer) (host : Host) (pokes : List Poke) :
    (activateAll paging trainer host pokes).2.length = pokes.length := by
  induction pokes generalizing host with
  | nil => rfl
  | cons poke pokes ih => rw [activateAll, List.length_cons, ih, List.length_cons]

theorem activateAll_writes (trainer : Trainer) (host : Host) (pokes : List Poke) :
    (activateAll paging trainer host pokes).2.map paging.pokeWrites
      = pokes.map paging.pokeWrites := by
  induction pokes generalizing host with
  | nil => rfl
  | cons poke pokes ih =>
    rw [activateAll, List.map_cons, ih, List.map_cons, pokememPokeActivate_eq]
    rfl

/-- Each poke behind an activation comes from one of the list. -/
theorem activateAll_split {trainer : Trainer} {host : Host} {pokes before' after' : List Poke}
    {item : Poke} (split : (activateAll paging trainer host pokes).2 = before' ++ item :: after') :
    ∃ before poke after, pokes = before ++ poke :: after
      ∧ item = { poke with
          restore := storeAll host (trainer.bytes paging before) (paging.pokeReads poke) }
      ∧ after'.map paging.pokeWrites = after.map paging.pokeWrites := by
  have cut : (activateAll paging trainer host (pokes.take before'.length
      ++ pokes.drop before'.length)).2 = _ := activateAll_pokes trainer host _ _
  have short : before'.length ≤ pokes.length := by
    have whole := congrArg List.length split
    rw [activateAll_length, List.length_append] at whole
    omega
  have length : ((activateAll paging trainer host (pokes.take before'.length)).2).length
      = before'.length := by
    rw [activateAll_length, List.length_take, Nat.min_eq_left short]
  rw [List.take_append_drop, split] at cut
  have rest := (List.append_inj cut length.symm).2
  cases dropped : pokes.drop before'.length with
  | nil =>
    rw [dropped] at rest
    exact absurd rest (List.cons_ne_nil _ _)
  | cons poke after =>
    rw [dropped, activateAll, pokememPokeActivate_eq] at rest
    obtain ⟨isItem, isAfter⟩ := List.cons.inj rest
    refine ⟨pokes.take before'.length, poke, after, ?_, isItem, ?_⟩
    · rw [← dropped, List.take_append_drop]
    · rw [isAfter, activateAll_writes]

/-! ## When memory comes back -/

/-- The byte a poke puts back when the trainer is deactivated: the one it holds in a trainer that
is active, else the one that the last of the pokes before it puts where it reads, or that
memory has there. -/
def Trainer.putsBack (paging : Paging) (trainer : Trainer) (host : Host) (before : List Poke)
    (poke : Poke) : UInt8 :=
  if trainer.active then poke.restore
  else (lastStored (trainer.bytes paging before) (paging.pokeReads poke)).getD
    (host (paging.pokeReads poke))

/-- To each place, the last poke puts back what memory has there. -/
def Trainer.Restoring (paging : Paging) (trainer : Trainer) (host : Host) : Prop :=
  ∀ before poke after place, trainer.pokeList = before ++ poke :: after →
    paging.pokeWrites poke = some place →
    (∀ later ∈ after, paging.pokeWrites later ≠ some place) →
    trainer.putsBack paging host before poke = host place

/-- Activating a trainer and deactivating it leaves memory as it was. -/
def Trainer.Reverses (paging : Paging) (trainer : Trainer) (host : Host) : Prop :=
  let activated := pokememTrainerActivate paging trainer host
  (pokememTrainerDeactivate paging activated.1 activated.2).2 = host

/-- Activating a trainer puts the byte of the last poke to a place there, and changes no other
place. -/
def Trainer.Applies (paging : Paging) (trainer : Trainer) (host : Host) : Prop :=
  trainer.disabled = false → trainer.active = false → ∀ place,
    (pokememTrainerActivate paging trainer host).2 place
      = (lastStored (trainer.bytes paging trainer.pokeList) place).getD (host place)

/-- A trainer that is disabled changes nothing, and one that is not active nothing when it is
deactivated. -/
def Trainer.Idles (paging : Paging) (trainer : Trainer) (host : Host) : Prop :=
  (trainer.disabled = true → (pokememTrainerActivate paging trainer host).2 = host)
    ∧ (trainer.disabled = true ∨ trainer.active = false →
      (pokememTrainerDeactivate paging trainer host).2 = host)

/-- Stores of bytes that are there already change nothing, and no others. -/
theorem storeAll_restores_iff {host host' : Host} {pokes : List Poke}
    (frame : ∀ place, lastStored (restores paging pokes) place = none → host' place = host place) :
    storeAll host' (restores paging pokes) = host ↔
      ∀ place value, lastStored (restores paging pokes) place = some value →
        value = host place := by
  constructor
  · intro same place value last
    have here := congrFun same place
    rwa [storeAll_apply, last, Option.getD_some] at here
  · intro all
    funext place
    rw [storeAll_apply]
    cases last : lastStored (restores paging pokes) place with
    | none => exact frame place last
    | some value => exact all place value last

theorem lastStored_restores {pokes : List Poke} {place : Nat} {value : UInt8} :
    lastStored (restores paging pokes) place = some value ↔
      ∃ before poke after, pokes = before ++ poke :: after
        ∧ paging.pokeWrites poke = some place ∧ poke.restore = value
        ∧ ∀ later ∈ after, paging.pokeWrites later ≠ some place := by
  rw [restores, lastStored_filterMap]
  constructor
  · rintro ⟨before, poke, after, split, makes, last⟩
    obtain ⟨_, writes, same⟩ := Option.map_eq_some_iff.mp makes
    obtain ⟨rfl, rfl⟩ := Prod.mk.inj same
    refine ⟨before, poke, after, split, writes, rfl, fun later inside there => ?_⟩
    exact last later inside _ (Option.map_eq_some_iff.mpr ⟨_, there, rfl⟩) rfl
  · rintro ⟨before, poke, after, split, writes, rfl, last⟩
    refine ⟨before, poke, after, split, Option.map_eq_some_iff.mpr ⟨_, writes, rfl⟩, ?_⟩
    intro later inside store makes there
    obtain ⟨_, writes', rfl⟩ := Option.map_eq_some_iff.mp makes
    exact last later inside (writes'.trans (congrArg some there))

/-- A place that no poke puts back is one that no poke has written. -/
theorem activateAll_frame (trainer : Trainer) (host : Host) (pokes : List Poke) {place : Nat}
    (untouched : lastStored (restores paging (activateAll paging trainer host pokes).2) place
      = none) :
    (activateAll paging trainer host pokes).1 place = host place := by
  have writes : (activateAll paging trainer host pokes).2.map paging.pokeWrites = _ :=
    activateAll_writes trainer host pokes
  have none_ : lastStored (trainer.bytes paging pokes) place = none := by
    rw [lastStored_eq_none] at untouched ⊢
    intro store inside there
    obtain ⟨poke, listed, makes⟩ := List.mem_filterMap.mp inside
    obtain ⟨_, here, rfl⟩ := Option.map_eq_some_iff.mp makes
    have listed' : paging.pokeWrites poke ∈ pokes.map paging.pokeWrites :=
      List.mem_map_of_mem listed
    rw [← writes] at listed'
    obtain ⟨poke', listed', same⟩ := List.mem_map.mp listed'
    refine untouched (place, poke'.restore) (List.mem_filterMap.mpr ⟨poke', listed', ?_⟩) rfl
    rw [same, here]
    exact congrArg some (Prod.ext there rfl)
  rw [activateAll_memory, storeAll_apply, none_]
  rfl

/-- The bytes that are put back behind an activation are those of `putsBack`. -/
theorem activateAll_restores {trainer : Trainer} (idle : trainer.active = false) (host : Host) :
    (∀ place value, lastStored (restores paging
        (activateAll paging trainer host trainer.pokeList).2) place = some value →
      value = host place) ↔ trainer.Restoring paging host := by
  have kept : ∀ before poke, trainer.putsBack paging host before poke
      = storeAll host (trainer.bytes paging before) (paging.pokeReads poke) := by
    intro before poke
    rw [Trainer.putsBack, idle, storeAll_apply]
    rfl
  have shadowed : ∀ {pokes pokes' : List Poke} {place : Nat},
      pokes.map paging.pokeWrites = pokes'.map paging.pokeWrites →
      (∀ later ∈ pokes, paging.pokeWrites later ≠ some place) →
      ∀ later ∈ pokes', paging.pokeWrites later ≠ some place := by
    intro pokes pokes' place same last later inside
    have listed := List.mem_map_of_mem (f := paging.pokeWrites) inside
    rw [← same] at listed
    obtain ⟨later', inside', same'⟩ := List.mem_map.mp listed
    rw [← same']
    exact last later' inside'
  constructor
  · intro all before poke after place split writes last
    rw [kept]
    have captured : (activateAll paging trainer host (before ++ poke :: after)).2 = _ :=
      activateAll_pokes trainer host before (poke :: after)
    rw [← split, activateAll, pokememPokeActivate_eq] at captured
    refine all place _ (lastStored_restores.mpr ⟨_, _, _, captured, writes, rfl, ?_⟩)
    exact shadowed (activateAll_writes trainer _ after).symm last
  · intro all place value found
    obtain ⟨before', item, after', split, writes, rfl, last⟩ := lastStored_restores.mp found
    obtain ⟨before, poke, after, split', rfl, same⟩ := activateAll_split split
    rw [← all before poke after place split' writes (shadowed same last), kept]

/-- The bytes that an active trainer puts back are those it holds. -/
theorem active_restores {trainer : Trainer} (active : trainer.active = true) (host : Host) :
    (∀ place value, lastStored (restores paging trainer.pokeList) place = some value →
      value = host place) ↔ trainer.Restoring paging host := by
  constructor
  · intro all before poke after place split writes last
    rw [Trainer.putsBack, if_pos active]
    exact all place _ (lastStored_restores.mpr ⟨before, poke, after, split, writes, rfl, last⟩)
  · intro all place value found
    obtain ⟨before, poke, after, split, writes, rfl, last⟩ := lastStored_restores.mp found
    have puts := all before poke after place split writes last
    rwa [Trainer.putsBack, if_pos active] at puts

theorem activate_refused {trainer : Trainer} {host : Host}
    (refused : trainer.disabled = true ∨ trainer.pokeList = []) :
    pokememTrainerActivate paging trainer host = (trainer, host) := if_pos refused

theorem deactivate_refused {trainer : Trainer} {host : Host}
    (refused : trainer.disabled = true ∨ trainer.pokeList = []) :
    pokememTrainerDeactivate paging trainer host = (trainer, host) := if_pos refused

theorem activate_active {trainer : Trainer} {host : Host} (active : trainer.active = true) :
    pokememTrainerActivate paging trainer host = (trainer, host) := by
  rw [pokememTrainerActivate, if_pos active]
  exact ite_self _

theorem deactivate_active {trainer : Trainer} {host : Host}
    (served : ¬ (trainer.disabled = true ∨ trainer.pokeList = []))
    (active : trainer.active = true) :
    (pokememTrainerDeactivate paging trainer host).2
      = storeAll host (restores paging trainer.pokeList) := by
  rw [pokememTrainerDeactivate, if_neg served, if_pos active]
  exact deactivateAll_eq host trainer.pokeList

theorem activate_idle {trainer : Trainer} {host : Host}
    (served : ¬ (trainer.disabled = true ∨ trainer.pokeList = []))
    (idle : trainer.active = false) :
    pokememTrainerActivate paging trainer host
      = ({ trainer with
            pokeList := (activateAll paging trainer host trainer.pokeList).2, active := true },
          (activateAll paging trainer host trainer.pokeList).1) := by
  rw [pokememTrainerActivate, if_neg served, if_neg (by rw [idle]; exact Bool.noConfusion)]

theorem reverses_iff (trainer : Trainer) (host : Host) :
    trainer.Reverses paging host ↔ trainer.disabled = true ∨ trainer.Restoring paging host := by
  rw [Trainer.Reverses]
  by_cases refused : trainer.disabled = true ∨ trainer.pokeList = []
  · rw [activate_refused refused, deactivate_refused refused]
    refine ⟨fun _ => refused.imp_right fun none_ => ?_, fun _ => rfl⟩
    intro before poke after place split
    rw [none_] at split
    exact absurd split.symm (List.append_ne_nil_of_right_ne_nil _ (List.cons_ne_nil _ _))
  · have enabled : ¬ trainer.disabled = true := fun disabled => refused (.inl disabled)
    rw [or_iff_right enabled]
    cases active : trainer.active with
    | true =>
      rw [activate_active active, deactivate_active refused active,
        storeAll_restores_iff (fun _ _ => rfl), active_restores active]
    | false =>
      rw [activate_idle refused active, deactivate_active ?_ rfl,
        storeAll_restores_iff (fun place => activateAll_frame trainer host trainer.pokeList),
        activateAll_restores active]
      rintro (disabled | empty)
      · exact enabled disabled
      · have length : (activateAll paging trainer host trainer.pokeList).2.length = _ :=
          activateAll_length trainer host trainer.pokeList
        dsimp only at empty
        rw [empty] at length
        exact refused (.inr (List.length_eq_zero_iff.mp length.symm))

theorem applies (trainer : Trainer) (host : Host) : trainer.Applies paging host := by
  intro enabled idle place
  by_cases refused : trainer.disabled = true ∨ trainer.pokeList = []
  · have empty : trainer.pokeList = [] :=
      refused.resolve_left (by rw [enabled]; exact Bool.noConfusion)
    rw [activate_refused refused, empty]
    rfl
  · rw [activate_idle refused idle]
    exact (congrFun (activateAll_memory trainer host trainer.pokeList) place).trans
      (storeAll_apply _ _ _)

theorem idles (trainer : Trainer) (host : Host) : trainer.Idles paging host := by
  refine ⟨fun disabled => congrArg Prod.snd (activate_refused (.inl disabled)), ?_⟩
  rintro (disabled | idle)
  · rw [deactivate_refused (.inl disabled)]
  · rw [pokememTrainerDeactivate, idle, if_neg Bool.false_ne_true]
    exact congrArg Prod.snd (ite_self _)

/-- Activating a trainer and deactivating it brings memory back exactly when the trainer is
disabled or each last poke to a place puts back what memory had there; an activation puts the
bytes of the pokes there, and an idle trainer changes nothing. -/
theorem trainer_reverses_iff (paging : Paging) (trainer : Trainer) (host : Host) :
    (trainer.Reverses paging host ↔ trainer.disabled = true ∨ trainer.Restoring paging host)
      ∧ trainer.Applies paging host ∧ trainer.Idles paging host :=
  ⟨reverses_iff trainer host, applies trainer host, idles trainer host⟩

/-- A poke to `RAM` 5. -/
def pokeTo (address : UInt16) (value : UInt16) : Poke :=
  { bank := 5, address, value, restore := 0, inRam := fun eight => absurd eight (by decide) }

/-- Of two pokes to one address the second keeps the byte of the first and puts it back. -/
theorem trainer_leaves_byte :
    ¬ ∀ (paging : Paging) (trainer : Trainer) (host : Host), trainer.active = false →
      trainer.Reverses paging host := by
  intro all
  have same := congrFun (all
    { memoryMapRead := fun _ => ⟨0, false, false⟩, memoryMapWrite := fun _ => ⟨0, false, false⟩,
      ram := 0 }
    { pokeList := [pokeTo 0x8000 1, pokeTo 0x8000 2] } (fun _ => 0) rfl) 0x14000
  exact absurd same (by decide)

end FuseX.Pokefinder
