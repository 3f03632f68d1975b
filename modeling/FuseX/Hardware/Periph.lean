import FuseX.Lib.Runs
import Mathlib.Data.BitVec
import Mathlib.Logic.Function.Basic
import Mathlib.Tactic.IntervalCases

/-!
# Peripherals and their ports

`periph.c`: the peripherals are registered once, and a machine says for each whether it is there never,
always, or when an option asks for it. `periph_update` activates and deactivates peripherals accordingly, and
the ports of those that are active are kept in a list, which every access to a port goes through.

The table of the peripherals is gone through in any order. The debugger and RZX files are left out of the
accesses, and so is what the user interface shows.
-/

namespace FuseX.Hardware

open Lib

/-- `periph_present`. -/
inductive PeriphPresent : Type
  | never
  | optional
  | always
  deriving DecidableEq

/-- What the function for reading a port gives: the byte, the bits it sets in `attached`, and the world after
it. -/
structure Reply (ω : Type) : Type where
  value : BitVec 8
  attached : BitVec 8
  world : ω

/-- `periph_port_t`. -/
structure PeriphPort (ω : Type) : Type where
  mask : BitVec 16
  value : BitVec 16
  read : Option (ω → BitVec 16 → Reply ω)
  write : Option (ω → BitVec 16 → BitVec 8 → ω)

/-- `periph_t`. -/
structure Periph (ι ω : Type) : Type where
  option : Option ι
  ports : List (PeriphPort ω)
  hardReset : Bool
  activate : Option (ω → ω)

/-- `periph_private_t`. -/
structure PeriphPrivate (ι ω : Type) : Type where
  present : PeriphPresent
  active : Int
  periph : Periph ι ω

/-- The table of the peripherals, the list of the active ports, the options, and what the peripherals work
on. -/
structure System (τ ι ω : Type) : Type where
  peripherals : τ → Option (PeriphPrivate ι ω)
  ports : List (τ × PeriphPort ω)
  options : ι → Int
  world : ω

variable {τ ι ω : Type} [DecidableEq τ]

/-- The ports of a peripheral end at the first one without a mask. -/
def Periph.responses (periph : Periph ι ω) : List (PeriphPort ω) :=
  periph.ports.takeWhile fun port => port.mask ≠ 0

/-- What `present` and the option say. -/
def PeriphPrivate.wanted (type_data : PeriphPrivate ι ω) (options : ι → Int) : Int :=
  match type_data.present with
  | .never => 0
  | .optional =>
    match type_data.periph.option with
    | some option => options option
    | none => 0
  | .always => 1

namespace System

variable (s : System τ ι ω)

def put (type : τ) (type_data : PeriphPrivate ι ω) : System τ ι ω :=
  { s with peripherals := Function.update s.peripherals type (some type_data) }

/-- `port_register`. -/
def portRegister (type : τ) (port : PeriphPort ω) : System τ ι ω :=
  { s with ports := s.ports ++ [(type, port)] }

/-- `periph_register`. -/
def periphRegister (type : τ) (periph : Periph ι ω) : System τ ι ω := s.put type ⟨.never, 0, periph⟩

/-- `periph_set_present`. -/
def periphSetPresent (type : τ) (present : PeriphPresent) : System τ ι ω :=
  match s.peripherals type with
  | some type_data => s.put type { type_data with present := present }
  | none => s

/-- The loop that takes the ports of a type out of the list. -/
def removeType (type : τ) : Nat → List (τ × PeriphPort ω) → List (τ × PeriphPort ω)
  | 0, ports => ports
  | fuel + 1, ports =>
    match ports.find? fun p => p.1 = type with
    | some _ => removeType type fuel (ports.eraseP fun p => p.1 = type)
    | none => ports

/-- `periph_activate_type`. -/
def periphActivateType (type : τ) (active : Int) : System τ ι ω × Bool :=
  match s.peripherals type with
  | none => (s, false)
  | some type_data =>
    if type_data.active = active then (s, false)
    else
      let s := s.put type { type_data with active := active }
      if active ≠ 0 then
        let s :=
          match type_data.periph.activate with
          | some activate => { s with world := activate s.world }
          | none => s
        (type_data.periph.responses.foldl (fun s port => s.portRegister type port) s, true)
      else ({ s with ports := removeType type s.ports.length s.ports }, true)

/-- `set_activity`. -/
def setActivity (acc : System τ ι ω × Bool) (type : τ) : System τ ι ω × Bool :=
  match acc.1.peripherals type with
  | none => acc
  | some type_data =>
    let (s, changed) := acc.1.periphActivateType type (type_data.wanted acc.1.options)
    (s, (changed && type_data.periph.hardReset) || acc.2)

/-- `periph_update`, with the table in this order. -/
def periphUpdate (order : List τ) : System τ ι ω × Bool := order.foldl setActivity (s, false)

/-- `get_hard_reset`. -/
def getHardReset (machine_hard_reset : Bool) (type : τ) : Bool :=
  match s.peripherals type with
  | none => machine_hard_reset
  | some type_data =>
    let periph_hard_reset :=
      type_data.active ≠ type_data.wanted s.options && type_data.periph.hardReset
    periph_hard_reset || machine_hard_reset

/-- `periph_postcheck`. -/
def periphPostcheck (order : List τ) : Bool := order.foldl s.getHardReset false

/-- `disable_optional`. -/
def disableOptional [DecidableEq ι] (s : System τ ι ω) (type : τ) : System τ ι ω :=
  match s.peripherals type with
  | none => s
  | some type_data =>
    match type_data.present, type_data.periph.option with
    | .never, some option => { s with options := Function.update s.options option 0 }
    | .optional, some option => { s with options := Function.update s.options option 0 }
    | _, _ => s

/-- `periph_disable_optional`. -/
def periphDisableOptional [DecidableEq ι] (s : System τ ι ω) (order : List τ) : System τ ι ω :=
  order.foldl disableOptional s

/-- `periph_clear`. -/
def periphClear : System τ ι ω :=
  { s with
    ports := []
    peripherals := fun type =>
      (s.peripherals type).map fun type_data => { type_data with present := .never, active := 0 } }

/-- `read_peripheral`, of `attached`, `value` and the world. -/
def readPeripheral (port : BitVec 16) (callback_info : BitVec 8 × BitVec 8 × ω) (p : PeriphPort ω) :
    BitVec 8 × BitVec 8 × ω :=
  match p.read with
  | some read =>
    if port &&& p.mask = p.value then
      let (last_attached, value, world) := callback_info
      let reply := read world port
      (last_attached ||| reply.attached, value &&& (reply.value ||| last_attached), reply.world)
    else callback_info
  | none => callback_info

/-- `periph_merge_floating_bus`. -/
def periphMergeFloatingBus (value attached floating_bus : BitVec 8) : BitVec 8 :=
  value &&& (floating_bus ||| attached)

/-- `readport_internal`. -/
def readportInternal (unattached_port : ω → BitVec 8) (port : BitVec 16) : BitVec 8 × System τ ι ω :=
  let (attached, value, world) := (s.ports.map Prod.snd).foldl (readPeripheral port) (0x00, 0xff, s.world)
  let value := if attached ≠ 0xff then periphMergeFloatingBus value attached (unattached_port world) else value
  (value, { s with world := world })

/-- `write_peripheral`. -/
def writePeripheral (port : BitVec 16) (value : BitVec 8) (world : ω) (p : PeriphPort ω) : ω :=
  match p.write with
  | some write => if port &&& p.mask = p.value then write world port value else world
  | none => world

/-- `writeport_internal`. -/
def writeportInternal (port : BitVec 16) (b : BitVec 8) : System τ ι ω :=
  { s with world := (s.ports.map Prod.snd).foldl (writePeripheral port b) s.world }

end System

/-! ## Runs -/

/-- What is done with the peripherals once they are registered. -/
inductive Act (τ ι : Type) : Type
  | setPresent (type : τ) (present : PeriphPresent)
  | setOption (option : ι) (value : Int)
  | update (order : List τ)
  | disableOptional (order : List τ)
  | clear
  | readport (port : BitVec 16)
  | writeport (port : BitVec 16) (b : BitVec 8)

def step [DecidableEq ι] (unattached_port : ω → BitVec 8) (s : System τ ι ω) : Act τ ι → Option (System τ ι ω)
  | .setPresent type present => some (s.periphSetPresent type present)
  | .setOption option value => some { s with options := Function.update s.options option value }
  | .update order => some (s.periphUpdate order).1
  | .disableOptional order => some (s.periphDisableOptional order)
  | .clear => some s.periphClear
  | .readport port => some (s.readportInternal unattached_port port).2
  | .writeport port b => some (s.writeportInternal port b)

/-- The table is gone through once. -/
structure Foreach (s : System τ ι ω) (order : List τ) : Prop where
  nodup : order.Nodup
  all : ∀ type, type ∈ order ↔ (s.peripherals type).isSome

/-- The options are switched on or off. -/
def allowed (s : System τ ι ω) : Act τ ι → Prop
  | .setOption _ value => value = 0 ∨ value = 1
  | .update order => Foreach s order
  | .disableOptional order => Foreach s order
  | _ => True

/-- The peripherals are registered, and none is active. -/
def start (registrations : List (τ × Periph ι ω)) (world : ω) : System τ ι ω :=
  registrations.foldl (fun s (type, periph) => s.periphRegister type periph)
    ⟨fun _ => none, [], fun _ => 0, world⟩

/-! ## The list of the ports -/

/-- The entries of one peripheral. -/
def System.portsOf (s : System τ ι ω) (type : τ) : List (PeriphPort ω) :=
  (s.ports.filter fun p => p.1 = type).map Prod.snd

/-- The entries a peripheral should have. -/
def System.activePorts (s : System τ ι ω) (type : τ) : List (PeriphPort ω) :=
  match s.peripherals type with
  | some type_data => if type_data.active ≠ 0 then type_data.periph.responses else []
  | none => []

theorem removeType_eq (type : τ) (fuel : Nat) (ports : List (τ × PeriphPort ω)) (enough : ports.length ≤ fuel) :
    System.removeType type fuel ports = ports.filter fun p => p.1 ≠ type := by
  induction fuel generalizing ports with
  | zero => rw [List.length_eq_zero_iff.mp (Nat.le_zero.mp enough)]; rfl
  | succ fuel ih =>
    rw [System.removeType]
    split
    · rename_i p found
      obtain ⟨yes, front, back, rfl, before⟩ := List.find?_eq_some_iff_append.mp found
      have none : ∀ q ∈ front, ¬ decide (q.1 = type) = true := fun q member => by simpa using before q member
      have shorter : (front ++ back).length ≤ fuel := by
        rw [List.length_append] at enough ⊢
        rw [List.length_cons] at enough
        omega
      have erased : (front ++ p :: back).eraseP (fun p => decide (p.1 = type)) = front ++ back := by
        rw [List.eraseP_append_right _ none, List.eraseP_cons, yes, cond_true]
      rw [erased, ih _ shorter, List.filter_append, List.filter_append, List.filter_cons,
        if_neg (by simpa using yes)]
    · rename_i found
      rw [List.find?_eq_none] at found
      refine (List.filter_eq_self.mpr fun p member => ?_).symm
      simpa using found p member

omit [DecidableEq τ] in
theorem registered_eq (s : System τ ι ω) (type : τ) (responses : List (PeriphPort ω)) :
    responses.foldl (fun s port => s.portRegister type port) s =
      { s with ports := s.ports ++ responses.map fun port => (type, port) } := by
  induction responses generalizing s with
  | nil => simp
  | cons port responses ih =>
    rw [List.foldl_cons, ih]
    simp [System.portRegister]

/-- What activating a peripheral changes in the table. -/
theorem periphActivateType_table (s : System τ ι ω) (type : τ) (active : Int) {type_data : PeriphPrivate ι ω}
    (found : s.peripherals type = some type_data) :
    (s.periphActivateType type active).1.peripherals =
      Function.update s.peripherals type (some { type_data with active := active }) ∧
    (s.periphActivateType type active).1.options = s.options ∧
    (s.periphActivateType type active).2 = decide (type_data.active ≠ active) := by
  simp only [System.periphActivateType, found]
  by_cases same : type_data.active = active
  · rw [if_pos same]
    refine ⟨?_, rfl, by simp [same]⟩
    rw [← same, ← found, Function.update_eq_self]
  · rw [if_neg same]
    by_cases on : active = 0
    · rw [if_neg (not_not_intro on)]
      exact ⟨rfl, rfl, by simp [same]⟩
    · rw [if_pos on]
      rcases type_data.periph.activate with _ | activate <;>
        simp [registered_eq, System.put, same]

/-- What activating a peripheral changes in the list of the ports. -/
theorem periphActivateType_ports (s : System τ ι ω) (type : τ) (active : Int) {type_data : PeriphPrivate ι ω}
    (found : s.peripherals type = some type_data) (listed : s.portsOf type = s.activePorts type)
    (switched : type_data.active = 0 ∨ type_data.active = 1) (switch : active = 0 ∨ active = 1) :
    (s.periphActivateType type active).1.portsOf type =
      (if active ≠ 0 then type_data.periph.responses else []) ∧
    ∀ other ≠ type, (s.periphActivateType type active).1.portsOf other = s.portsOf other := by
  simp only [System.activePorts, found] at listed
  simp only [System.periphActivateType, found]
  by_cases same : type_data.active = active
  · rw [if_pos same, listed, same]
    exact ⟨rfl, fun _ _ => rfl⟩
  · rw [if_neg same]
    by_cases on : active = 0
    · rw [if_neg (not_not_intro on), if_neg (not_not_intro on)]
      simp only [System.portsOf, System.put, removeType_eq type _ _ le_rfl, List.filter_filter]
      constructor
      · rw [List.map_eq_nil_iff, List.filter_eq_nil_iff]
        simp
      · intro other different
        congr 1
        apply List.filter_congr
        intro p _
        by_cases here : p.1 = other <;> simp [here, different]
    · have off : type_data.active = 0 := by omega
      rw [if_neg (not_not_intro off)] at listed
      rw [if_pos on, if_pos on]
      have before : (s.ports.filter fun p => decide (p.1 = type)) = [] := List.map_eq_nil_iff.mp listed
      have own :
          ((type_data.periph.responses.map fun port => (type, port)).filter fun p => decide (p.1 = type)) =
            type_data.periph.responses.map fun port => (type, port) := by
        rw [List.filter_eq_self]
        rintro p member
        obtain ⟨port, -, rfl⟩ := List.mem_map.mp member
        exact decide_eq_true rfl
      have others : ∀ other ≠ type,
          ((type_data.periph.responses.map fun port => (type, port)).filter fun p => decide (p.1 = other)) =
            [] := by
        intro other different
        rw [List.filter_eq_nil_iff]
        rintro p member
        obtain ⟨port, -, rfl⟩ := List.mem_map.mp member
        simpa using different.symm
      rcases type_data.periph.activate with _ | activate
      all_goals
        simp only [registered_eq, System.put, System.portsOf, List.filter_append, List.map_append, before, own,
          List.nil_append, List.map_map]
        refine ⟨List.map_id _, fun other different => ?_⟩
        rw [others other different, List.map_nil, List.append_nil]

/-- The invariant: each peripheral has its entries in the list once while it is active, and none otherwise. -/
structure Kept (s : System τ ι ω) : Prop where
  listed : ∀ type, s.portsOf type = s.activePorts type
  switched : ∀ type type_data, s.peripherals type = some type_data → type_data.active = 0 ∨ type_data.active = 1
  options : ∀ option, s.options option = 0 ∨ s.options option = 1

theorem wanted_switch {s : System τ ι ω} (kept : Kept s) (type_data : PeriphPrivate ι ω) :
    type_data.wanted s.options = 0 ∨ type_data.wanted s.options = 1 := by
  rw [PeriphPrivate.wanted]
  split
  · exact .inl rfl
  · split
    · exact kept.options _
    · exact .inl rfl
  · exact .inr rfl

theorem kept_activate {s : System τ ι ω} (kept : Kept s) (type : τ) {active : Int}
    (switch : active = 0 ∨ active = 1) :
    Kept (s.periphActivateType type active).1 := by
  rcases found : s.peripherals type with _ | type_data
  · rw [System.periphActivateType, found]
    exact kept
  · have own := kept.switched type type_data found
    obtain ⟨table, options, -⟩ := periphActivateType_table s type active found
    obtain ⟨mine, others⟩ := periphActivateType_ports s type active found (kept.listed type) own switch
    refine ⟨fun other => ?_, fun other other_data there => ?_, fun option => ?_⟩
    · rcases eq_or_ne other type with rfl | different
      · rw [mine, System.activePorts, table, Function.update_self]
      · rw [others other different, kept.listed other, System.activePorts, System.activePorts, table,
          Function.update_of_ne different]
    · rcases eq_or_ne other type with rfl | different
      · rw [table, Function.update_self, Option.some_inj] at there
        rw [← there]
        exact switch
      · rw [table, Function.update_of_ne different] at there
        exact kept.switched other other_data there
    · rw [options]
      exact kept.options option

/-! ## Going through the table -/

/-- Whether a change of the peripheral needs a reset. -/
def System.resets (s : System τ ι ω) (type : τ) : Bool :=
  match s.peripherals type with
  | none => false
  | some type_data => type_data.active ≠ type_data.wanted s.options && type_data.periph.hardReset

omit [DecidableEq τ] in
theorem getHardReset_eq (s : System τ ι ω) (machine_hard_reset : Bool) (type : τ) :
    s.getHardReset machine_hard_reset type = (s.resets type || machine_hard_reset) := by
  rw [System.getHardReset, System.resets]
  split <;> rfl

theorem setActivity_spec (s : System τ ι ω) (needs_hard_reset : Bool) (type : τ) :
    (System.setActivity (s, needs_hard_reset) type).2 = (s.resets type || needs_hard_reset) ∧
    (System.setActivity (s, needs_hard_reset) type).1.options = s.options ∧
    (∀ other ≠ type,
      (System.setActivity (s, needs_hard_reset) type).1.peripherals other = s.peripherals other) ∧
    (System.setActivity (s, needs_hard_reset) type).1.peripherals type =
      (s.peripherals type).map fun type_data => { type_data with active := type_data.wanted s.options } := by
  rcases found : s.peripherals type with _ | type_data
  · simp [System.setActivity, System.resets, found]
  · obtain ⟨table, options, changed⟩ := periphActivateType_table s type (type_data.wanted s.options) found
    simp only [System.setActivity, System.resets, found, table, options, changed]
    refine ⟨?_, trivial, fun other different => Function.update_of_ne different _ _, Function.update_self _ _ _⟩
    simp

theorem kept_setActivity {s : System τ ι ω} (kept : Kept s) (needs_hard_reset : Bool) (type : τ) :
    Kept (System.setActivity (s, needs_hard_reset) type).1 := by
  rcases found : s.peripherals type with _ | type_data
  · simpa [System.setActivity, found] using kept
  · simp only [System.setActivity, found]
    exact kept_activate kept type (wanted_switch kept type_data)

/-- What going through part of the table does. -/
theorem update_spec {order : List τ} (nodup : order.Nodup) (s : System τ ι ω) (needs_hard_reset : Bool) :
    (order.foldl System.setActivity (s, needs_hard_reset)).2 = order.foldl s.getHardReset needs_hard_reset ∧
    (order.foldl System.setActivity (s, needs_hard_reset)).1.options = s.options ∧
    ∀ type, (order.foldl System.setActivity (s, needs_hard_reset)).1.peripherals type =
      if type ∈ order then
        (s.peripherals type).map fun type_data => { type_data with active := type_data.wanted s.options }
      else s.peripherals type := by
  induction order generalizing s needs_hard_reset with
  | nil => simp
  | cons first order ih =>
    obtain ⟨fresh, nodup⟩ := List.nodup_cons.mp nodup
    obtain ⟨needs, options, others, own⟩ := setActivity_spec s needs_hard_reset first
    obtain ⟨needs', options', table'⟩ := ih nodup (System.setActivity (s, needs_hard_reset) first).1
      (System.setActivity (s, needs_hard_reset) first).2
    rw [List.foldl_cons]
    refine ⟨?_, options'.trans options, fun type => ?_⟩
    · rw [needs', needs, List.foldl_cons, getHardReset_eq]
      apply List.foldl_ext
      intro needs_hard_reset type member
      have other : type ≠ first := by
        rintro rfl
        exact fresh member
      rw [getHardReset_eq, getHardReset_eq, System.resets, System.resets, others type other, options]
    · rw [table' type, options]
      by_cases here : type = first
      · subst here
        rw [if_neg fresh, if_pos List.mem_cons_self, own]
      · rw [others type here]
        simp [here]

/-! ## The invariant -/

theorem kept_register {s : System τ ι ω} (kept : Kept s) (empty : s.ports = []) (type : τ)
    (periph : Periph ι ω) :
    Kept (s.periphRegister type periph) ∧ (s.periphRegister type periph).ports = [] := by
  have table : (s.periphRegister type periph).peripherals =
      Function.update s.peripherals type (some ⟨.never, 0, periph⟩) := rfl
  have list : ∀ other, (s.periphRegister type periph).portsOf other = s.portsOf other := fun _ => rfl
  refine ⟨⟨fun other => ?_, fun other other_data there => ?_, kept.options⟩, empty⟩
  · rcases eq_or_ne other type with rfl | different
    · rw [list, System.portsOf, empty, System.activePorts, table, Function.update_self]
      rfl
    · rw [list, kept.listed other, System.activePorts, System.activePorts, table,
        Function.update_of_ne different]
  · rw [table] at there
    rcases eq_or_ne other type with rfl | different
    · rw [Function.update_self, Option.some_inj] at there
      rw [← there]
      exact .inl rfl
    · rw [Function.update_of_ne different] at there
      exact kept.switched other other_data there

theorem kept_start (registrations : List (τ × Periph ι ω)) (world : ω) : Kept (start registrations world) := by
  have none : Kept (⟨fun _ => none, [], fun _ => 0, world⟩ : System τ ι ω) :=
    ⟨fun _ => rfl, fun _ _ nothing => (by cases nothing), fun _ => .inl rfl⟩
  suffices all : ∀ s : System τ ι ω, Kept s → s.ports = [] →
      Kept (registrations.foldl (fun s p => s.periphRegister p.1 p.2) s) from all _ none rfl
  induction registrations with
  | nil => exact fun s kept _ => kept
  | cons p registrations ih =>
    intro s kept empty
    obtain ⟨kept, empty⟩ := kept_register kept empty p.1 p.2
    exact ih _ kept empty

theorem kept_setPresent {s : System τ ι ω} (kept : Kept s) (type : τ) (present : PeriphPresent) :
    Kept (s.periphSetPresent type present) := by
  rw [System.periphSetPresent]
  split
  · rename_i type_data found
    refine ⟨fun other => ?_, fun other other_data there => ?_, kept.options⟩
    · change s.portsOf other = _
      rw [kept.listed other, System.activePorts, System.activePorts, System.put]
      rcases eq_or_ne other type with rfl | different
      · rw [found]
        simp only [Function.update_self]
      · simp only [Function.update_of_ne different]
    · rw [System.put] at there
      rcases eq_or_ne other type with rfl | different
      · simp only [Function.update_self, Option.some_inj] at there
        rw [← there]
        exact kept.switched other type_data found
      · simp only [Function.update_of_ne different] at there
        exact kept.switched other other_data there
  · exact kept

theorem kept_update {s : System τ ι ω} (kept : Kept s) (order : List τ) : Kept (s.periphUpdate order).1 := by
  rw [System.periphUpdate]
  generalize false = needs_hard_reset
  induction order generalizing s needs_hard_reset with
  | nil => exact kept
  | cons type order ih => exact ih (kept_setActivity kept needs_hard_reset type) _

theorem kept_clear {s : System τ ι ω} (kept : Kept s) : Kept s.periphClear := by
  refine ⟨fun type => ?_, fun type type_data there => ?_, kept.options⟩
  · have table : s.periphClear.peripherals type =
        (s.peripherals type).map fun type_data => { type_data with present := .never, active := 0 } := rfl
    rw [System.activePorts, table]
    rcases s.peripherals type with _ | type_data <;> rfl
  · obtain ⟨before, -, rfl⟩ := Option.map_eq_some_iff.mp there
    exact .inl rfl

theorem kept_options [DecidableEq ι] {s : System τ ι ω} (kept : Kept s) (option : ι) {value : Int}
    (switch : value = 0 ∨ value = 1) : Kept { s with options := Function.update s.options option value } := by
  refine ⟨kept.listed, kept.switched, fun other => ?_⟩
  rcases eq_or_ne other option with rfl | different
  · simpa only [Function.update_self] using switch
  · simpa only [Function.update_of_ne different] using kept.options other

theorem kept_disable [DecidableEq ι] {s : System τ ι ω} (kept : Kept s) (type : τ) :
    Kept (s.disableOptional type) := by
  rw [System.disableOptional]
  split
  · exact kept
  · split
    · exact kept_options kept _ (.inl rfl)
    · exact kept_options kept _ (.inl rfl)
    · exact kept

theorem kept_step [DecidableEq ι] {unattached_port : ω → BitVec 8} {s t : System τ ι ω} {act : Act τ ι}
    (kept : Kept s) (guard : allowed s act) (taken : step unattached_port s act = some t) : Kept t := by
  cases act with
  | setPresent type present =>
    cases taken
    exact kept_setPresent kept type present
  | setOption option value =>
    cases taken
    exact kept_options kept option guard
  | update order =>
    cases taken
    exact kept_update kept order
  | disableOptional order =>
    cases taken
    clear guard
    rw [System.periphDisableOptional]
    induction order generalizing s with
    | nil => exact kept
    | cons type order ih => exact ih (kept_disable kept type)
  | clear =>
    cases taken
    exact kept_clear kept
  | readport port =>
    cases taken
    exact ⟨kept.listed, kept.switched, kept.options⟩
  | writeport port b =>
    cases taken
    exact ⟨kept.listed, kept.switched, kept.options⟩

/-! ## The bus -/

/-- The replies to a read, in the order of the list. -/
def replies (port : BitVec 16) : List (PeriphPort ω) → ω → List (Reply ω)
  | [], _ => []
  | p :: ports, world =>
    match p.read with
    | some read =>
      if port &&& p.mask = p.value then read world port :: replies port ports (read world port).world
      else replies port ports world
    | none => replies port ports world

/-- A line of the bus: the replies pull it down up to the first one that is attached to it, and with none
attached the floating bus does so too. -/
def line (floating_bus : BitVec 8) (k : Nat) : List (Reply ω) → Bool
  | [] => floating_bus.getLsbD k
  | reply :: replies => reply.value.getLsbD k && (reply.attached.getLsbD k || line floating_bus k replies)

theorem readPeripheral_line (port : BitVec 16) (floating_bus : BitVec 8) (k : Nat) (ports : List (PeriphPort ω))
    (attached value : BitVec 8) (world : ω) :
    ((ports.foldl (System.readPeripheral port) (attached, value, world)).2.1 &&&
        (floating_bus ||| (ports.foldl (System.readPeripheral port) (attached, value, world)).1)).getLsbD k =
      (value.getLsbD k && (attached.getLsbD k || line floating_bus k (replies port ports world))) := by
  induction ports generalizing attached value world with
  | nil => simp [replies, line, Bool.or_comm]
  | cons p ports ih =>
    rw [List.foldl_cons]
    rcases reading : p.read with _ | read
    · have passed : System.readPeripheral port (attached, value, world) p = (attached, value, world) := by
        rw [System.readPeripheral, reading]
      rw [passed, replies, reading]
      exact ih attached value world
    · by_cases asked : port &&& p.mask = p.value
      · have passed : System.readPeripheral port (attached, value, world) p =
            (attached ||| (read world port).attached, value &&& ((read world port).value ||| attached),
              (read world port).world) := by
          simp only [System.readPeripheral, reading, if_pos asked]
        rw [passed, ih, replies, reading]
        simp only [if_pos asked, line, BitVec.getLsbD_and, BitVec.getLsbD_or]
        -- a line that an earlier reply is attached to stays as it is
        cases attached.getLsbD k <;> cases value.getLsbD k <;> simp
      · have passed : System.readPeripheral port (attached, value, world) p = (attached, value, world) := by
          simp only [System.readPeripheral, reading, if_neg asked]
        rw [passed, ih, replies, reading]
        simp only [if_neg asked]

omit [DecidableEq τ] in
theorem readport_line (s : System τ ι ω) (unattached_port : ω → BitVec 8) (port : BitVec 16) {k : Nat}
    (inside : k < 8) :
    (s.readportInternal unattached_port port).1.getLsbD k =
      line (unattached_port (s.readportInternal unattached_port port).2.world) k
        (replies port (s.ports.map Prod.snd) s.world) := by
  have lines := readPeripheral_line port (unattached_port (s.readportInternal unattached_port port).2.world) k
    (s.ports.map Prod.snd) 0x00 0xff s.world
  have ones : (0xff : BitVec 8).getLsbD k = true := by
    interval_cases k <;> rfl
  have zeros : (0x00 : BitVec 8).getLsbD k = false := BitVec.getLsbD_zero
  rw [ones, zeros, Bool.true_and, Bool.false_or] at lines
  rw [← lines]
  simp only [System.readportInternal, System.periphMergeFloatingBus]
  split
  · rfl
  · rename_i full
    rw [BitVec.getLsbD_and, BitVec.getLsbD_or, not_not.mp full, ones, Bool.or_true, Bool.and_true]

/-! ## All of it -/

/-- In every run, the list has the ports of the peripherals that are active, once each. Whether the options ask
for a reset is what the next update finds, and that update makes active what is wanted. A line of the bus is
pulled down by the active ports up to the first that is attached to it, and without one by the floating bus. -/
theorem active_ports [DecidableEq ι] {unattached_port : ω → BitVec 8}
    {registrations : List (τ × Periph ι ω)} {world : ω} {acts : List (Act τ ι)} {s : System τ ι ω}
    (run : Runs (step unattached_port) allowed (start registrations world) acts s) :
    (∀ type, s.portsOf type = s.activePorts type) ∧
    (∀ order, Foreach s order →
      s.periphPostcheck order = (s.periphUpdate order).2 ∧
      ∀ type type_data, (s.periphUpdate order).1.peripherals type = some type_data →
        type_data.active = type_data.wanted s.options ∧
        (s.periphUpdate order).1.portsOf type =
          if type_data.active ≠ 0 then type_data.periph.responses else []) ∧
    ∀ port k, k < 8 →
      (s.readportInternal unattached_port port).1.getLsbD k =
        line (unattached_port (s.readportInternal unattached_port port).2.world) k
          (replies port (s.ports.map Prod.snd) s.world) := by
  have kept : Kept s := run.invariant (kept_start registrations world) fun _ _ _ kept guard taken =>
    kept_step kept guard taken
  refine ⟨kept.listed, fun order whole => ?_, fun port k inside => readport_line s unattached_port port inside⟩
  obtain ⟨needs, -, table⟩ := update_spec whole.nodup s false
  refine ⟨needs.symm, fun type type_data there => ⟨?_, ?_⟩⟩
  · have found := table type
    rw [System.periphUpdate] at there
    rw [there] at found
    split at found
    · obtain ⟨before, -, rfl⟩ := Option.map_eq_some_iff.mp found.symm
      rfl
    · rename_i missing
      rw [whole.all, ← found] at missing
      exact absurd rfl missing
  · rw [(kept_update kept order).listed type, System.activePorts, there]

/-- The ULA, and a joystick that an option asks for. -/
def ulaAndJoystick : List (Bool × Periph Unit Unit) :=
  [(true, ⟨none, [⟨0x0001, 0x0000, some fun world _ => ⟨0xbf, 0xff, world⟩, none⟩], false, none⟩),
    (false, ⟨some (), [⟨0x0020, 0x0000, some fun world _ => ⟨0x00, 0xff, world⟩, none⟩], false, none⟩)]

theorem active_ports_joystick :
    ∃ s : System Bool Unit Unit,
      Runs (step fun _ => 0xff) allowed (start ulaAndJoystick ())
        [.setPresent true .always, .setPresent false .optional, .setOption () 1, .update [false, true]] s ∧
      s.portsOf false = s.activePorts false ∧ s.ports.length = 2 := by
  have first :
      Runs (step fun _ => 0xff) allowed (start ulaAndJoystick ()) ([] ++ [.setPresent true .always]) _ :=
    .snoc .nil trivial rfl
  have second := first.snoc (show allowed _ (.setPresent false .optional) from trivial) rfl
  have third := second.snoc (show allowed _ (.setOption () 1) from .inr rfl) rfl
  have run := third.snoc (show allowed _ (.update [false, true]) from ⟨by decide, by decide⟩) rfl
  exact ⟨_, run, (active_ports run).1 false, rfl⟩

end FuseX.Hardware
