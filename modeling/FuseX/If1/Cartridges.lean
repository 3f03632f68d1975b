import FuseX.If1.Tape
import FuseX.Lib.Runs
import Mathlib

/-!
# Runs with cartridges going in and out

Each action has a part that concerns a drive, and what it does to that drive is a function of that
part. From every drive being sound follows that no head is used off its tape. The blocks that are
written come back when they are read, and a protected cartridge stays as it is, if no action is one
of those that the code lacks a check for (`CarefulPart`).
-/

namespace FuseX.If1

open Lib

variable {κ : Type} {ops : CartridgeOps κ}

/-! ## The part of an action that concerns a drive -/

inductive Part : Type
  | nothing
  | read
  | write (val : UInt8)
  /-- The heads are put at the starts of blocks, whatever else the control port does. -/
  | control (motorOn : Bool) (gap sync : UInt8)
  | insert (source : Source) (confirm : Confirm)
  | eject (confirm : Confirm)
  | protect (wrprot : Bool)
  | reset

def part (ops : CartridgeOps κ) (s : State κ) (m : Fin 8) : Action → Part
  | .mdrIn => .read
  | .mdrOut val => .write val
  | .ctrIn _ _ =>
      .control (s.drives m).motorOn ((s.drives m).ctrIn ops).1.gap ((s.drives m).ctrIn ops).1.sync
  | .ctrOut val =>
      .control (if val &&& 0x02 = 0 ∧ s.commsClk = true then shifted s val m else (s.drives m).motorOn)
        (s.drives m).gap (s.drives m).sync
  | .netIn => .control (s.drives m).motorOn (s.drives m).gap (s.drives m).sync
  | .netOut plugged =>
      if plugged then .control (s.drives m).motorOn (s.drives m).gap (s.drives m).sync else .nothing
  | .insert which source confirm =>
      if insertDrive s which = some m then .insert source confirm else .nothing
  | .eject which confirm => if which = m.val then .eject confirm else .nothing
  | .writeProtect drive wrprot => if drive = m then .protect wrprot else .nothing
  | .reset => .reset

def Drive.take (ops : CartridgeOps κ) (d : Drive κ) : Part → Drive κ
  | .nothing => d
  | .read => (d.mdrIn ops).1
  | .write val => d.mdrOut ops val
  | .control motorOn gap sync => Drive.restart ops { d with motorOn, gap, sync }
  | .insert source confirm => d.insert ops source confirm
  | .eject confirm => (d.eject confirm).1
  | .protect wrprot =>
      { d with cartridge := ops.setWriteProtect d.cartridge wrprot, modified := true }
  | .reset => { d with headPos := 0, motorOn := false, gap := 15, sync := 15, transfered := 0 }

theorem setDrive_drives (s : State κ) (m m' : Fin 8) (d : Drive κ) :
    (s.setDrive m d).drives m' = if m = m' then d else s.drives m' := by
  by_cases same : m = m'
  · rw [if_pos same, ← same]
    exact Function.update_self m d s.drives
  · rw [if_neg same]
    exact Function.update_of_ne (Ne.symm same) d s.drives

/-- What `port_ctr_in` changes, by name. -/
theorem ctrIn_fields (d : Drive κ) :
    (d.ctrIn ops).1 = { d with gap := (d.ctrIn ops).1.gap, sync := (d.ctrIn ops).1.sync } := by
  obtain ⟨gap, sync, same⟩ := @ctrIn_same κ ops d
  rw [same]

/-- An action does to each drive what its part says. -/
theorem step_part (s : State κ) (action : Action) (m : Fin 8) :
    (step ops s action).drives m = (s.drives m).take ops (part ops s m action) := by
  rcases action with _ | val | ⟨dtr, busy⟩ | val | _ | plugged | ⟨which, source, confirm⟩ |
    ⟨which, confirm⟩ | ⟨drive, wrprot⟩ | _
  · rfl
  · rfl
  · exact congrArg (Drive.restart ops) (ctrIn_fields (s.drives m))
  · rw [step, portCtrOut, part]
    change Drive.restart ops ((if val &&& 0x02 = 0 ∧ s.commsClk = true then _ else s.drives) m) = _
    split
    · rfl
    · rfl
  · rfl
  · rw [step, part]
    split
    · rfl
    · rfl
  · rw [step, part]
    rcases insertDrive s which with _ | here
    · rfl
    · dsimp only
      rw [setDrive_drives]
      by_cases same : here = m
      · rw [if_pos same, if_pos (congrArg some same), same]
        rfl
      · rw [if_neg same, if_neg fun same' => same (Option.some.inj same')]
        rfl
  · rw [step, part]
    by_cases named : which < 8
    · rw [dif_pos named, setDrive_drives]
      by_cases same : which = m.val
      · have same' : (⟨which, named⟩ : Fin 8) = m := Fin.ext same
        rw [if_pos same, if_pos same', same']
        rfl
      · rw [if_neg same, if_neg fun same' => same (congrArg Fin.val same')]
        rfl
    · rw [dif_neg named, if_neg (by omega)]
      rfl
  · rw [step, part, setDrive_drives]
    by_cases same : drive = m
    · rw [if_pos same, if_pos same, same]
      rfl
    · rw [if_neg same, if_neg same]
      rfl
  · rfl

/-! ## Cartridges that go in -/

/-- The blocks of what is put into a drive, if anything is. -/
def Source.blocks (ops : CartridgeOps κ) (d : Drive κ) : Source → Option Nat
  | .blank new => some new.len.toNat
  | .image contents =>
      if (ops.mdrRead d.cartridge contents).1 then
        some (ops.cartridgeLen (ops.mdrRead d.cartridge contents).2).toNat
      else none
  | .unreadable => none

/-- The head is on a tape of that length, or will be before it is used: the motor is off, and
before it is on the head goes on to the start of a block. -/
def Drive.FitsTape (d : Drive κ) (blocks : Nat) : Prop :=
  d.headPos < blocks * blockLen ∨ d.motorOn = false ∧ ¬ Aligned d.headPos

/-- What the code does not check itself: that the head of a drive into which a cartridge is put
is on its tape, and that a cartridge is not protected when a byte is put on it. -/
def CarefulPart (ops : CartridgeOps κ) (d : Drive κ) : Part → Prop
  | .write _ => d.puts = true → ops.writeProtect d.cartridge = false
  | .insert source confirm =>
      (d.eject confirm).2 = false → ∀ blocks ∈ source.blocks ops d, d.FitsTape blocks
  | _ => True

/-- An action that does not need the checks that the code lacks, in any drive. -/
def Careful (ops : CartridgeOps κ) (s : State κ) (action : Action) : Prop :=
  ∀ m, CarefulPart ops (s.drives m) (part ops s m action)

theorem newLen_valid (new : NewLen) : 0 < new.len.toNat ∧ new.len.toNat ≤ blockMax := by
  have most : randMax = 2147483647 := rfl
  have factor : rndFactor = 113025455 := rfl
  have longest : blockMax = 254 := rfl
  rcases new with ⟨⟨a, ha⟩, ⟨b, hb⟩, ⟨c, hc⟩, ⟨d, hd⟩⟩ | mdrLen
  · rw [NewLen.len, UInt8.toNat_ofNat', factor]
    dsimp only
    omega
  · rw [NewLen.len, UInt8.toNat_ofNat']
    by_cases short : mdrLen < 10
    · rw [if_pos short]
      omega
    · rw [if_neg short]
      by_cases long : (blockMax : Int) < mdrLen
      · rw [if_pos long]
        omega
      · rw [if_neg long]
        omega

/-- What `if1_mdr_eject` leaves as it was. -/
theorem eject_same (d : Drive κ) (confirm : Confirm) :
    ∃ modified inserted, (d.eject confirm).1 = { d with modified, inserted } ∧
      (inserted = true → d.inserted = true) ∧ ((d.eject confirm).2 = false → inserted = false) := by
  rw [Drive.eject.eq_def]
  by_cases isIn : d.inserted = true
  · rw [if_pos isIn]
    by_cases changed : d.modified = true
    · rw [if_pos changed]
      rcases confirm with written | _ | _
      · rcases written with _ | _
        · exact ⟨d.modified, d.inserted, rfl, id, fun out => Bool.noConfusion out⟩
        · exact ⟨false, false, rfl, fun _ => isIn, fun _ => rfl⟩
      · exact ⟨d.modified, false, rfl, fun _ => isIn, fun _ => rfl⟩
      · exact ⟨d.modified, d.inserted, rfl, id, fun out => Bool.noConfusion out⟩
    · rw [if_neg changed]
      exact ⟨d.modified, false, rfl, fun _ => isIn, fun _ => rfl⟩
  · rw [if_neg isIn]
    exact ⟨d.modified, d.inserted, rfl, id, fun _ => Bool.eq_false_iff.mpr isIn⟩

theorem Drive.Sound.eject {d : Drive κ} (sound : d.Sound ops) (confirm : Confirm) :
    (d.eject confirm).1.Sound ops := by
  obtain ⟨modified, inserted, same, was, -⟩ := eject_same d confirm
  rw [same]
  exact ⟨sound.small, fun isIn => sound.valid (was isIn), fun isIn => sound.within (was isIn),
    sound.atBlock⟩

/-- A drive with a cartridge of which the head fits the tape. -/
theorem Drive.Sound.filled {d d' : Drive κ} (sound : d.Sound ops) (head : d'.headPos = d.headPos)
    (motor : d'.motorOn = d.motorOn) (transfered : d'.transfered = d.transfered)
    (maxBytes : d'.maxBytes = d.maxBytes)
    (valid : 0 < (ops.cartridgeLen d'.cartridge).toNat ∧
      (ops.cartridgeLen d'.cartridge).toNat ≤ blockMax)
    (fits : d.FitsTape (ops.cartridgeLen d'.cartridge).toNat) : d'.Sound ops := by
  refine ⟨?_, fun _ => valid, fun _ => ?_, ?_⟩
  · rw [head]
    exact sound.small
  · rw [head, motor]
    exact fits
  · rw [head, motor, transfered, maxBytes]
    exact sound.atBlock

/-- The blank cartridge of `if1_mdr_new` has the length that it was given. -/
theorem len_blank (lawful : ops.Lawful) (c : κ) (places : List Nat) :
    ops.cartridgeLen (places.foldl (fun c i => ops.setData c i 0xff) c) = ops.cartridgeLen c := by
  induction places generalizing c with
  | nil => rfl
  | cons i places ih => exact (ih _).trans (lawful.len_setData c i 0xff)

theorem Drive.Sound.insert (lawful : ops.Lawful) {d : Drive κ} (sound : d.Sound ops)
    {source : Source} {confirm : Confirm} (careful : CarefulPart ops d (.insert source confirm)) :
    (d.insert ops source confirm).Sound ops := by
  have out := sound.eject confirm
  obtain ⟨modified, inserted, same, -, empties⟩ := eject_same d confirm
  rw [Drive.insert]
  dsimp only
  by_cases stays : (d.eject confirm).2 = true
  · rw [if_pos stays]
    exact out
  · rw [if_neg stays]
    have fits := careful (Bool.eq_false_iff.mpr stays)
    have cartridge : (d.eject confirm).1.cartridge = d.cartridge := by rw [same]
    have fits' : ∀ blocks ∈ source.blocks ops d, (d.eject confirm).1.FitsTape blocks := by
      rw [same]
      exact fits
    rcases source with new | contents | _
    · have len : ops.cartridgeLen ((d.eject confirm).1.mdrNew ops new).cartridge = new.len := by
        rw [Drive.mdrNew]
        exact (lawful.len_setWriteProtect _ _).trans
          ((len_blank lawful _ _).trans (lawful.len_setCartridgeLen _ _))
      refine out.filled rfl rfl rfl rfl ?_ ?_
      · rw [len]
        exact newLen_valid new
      · rw [len]
        exact fits' _ rfl
    · dsimp only
      rw [cartridge]
      by_cases read : (ops.mdrRead d.cartridge contents).1 = true
      · rw [if_pos read]
        refine out.filled rfl rfl rfl rfl (lawful.len_mdrRead _ _ read) (fits' _ ?_)
        exact if_pos read
      · rw [if_neg read]
        have empty : (d.eject confirm).1.inserted = false := by
          rw [same]
          exact empties (Bool.eq_false_iff.mpr stays)
        have notIn : ¬ (d.eject confirm).1.inserted = true := by
          rw [empty]
          exact Bool.false_ne_true
        exact ⟨out.small, fun isIn => absurd isIn notIn, fun isIn => absurd isIn notIn, out.atBlock⟩
    · exact out

theorem Drive.Sound.protect (lawful : ops.Lawful) {d : Drive κ} (sound : d.Sound ops)
    (wrprot : Bool) : (d.take ops (.protect wrprot)).Sound ops := by
  have len : ops.cartridgeLen (ops.setWriteProtect d.cartridge wrprot) =
      ops.cartridgeLen d.cartridge := lawful.len_setWriteProtect _ _
  refine ⟨sound.small, fun isIn => ?_, fun isIn => ?_, sound.atBlock⟩
  · change 0 < (ops.cartridgeLen (ops.setWriteProtect d.cartridge wrprot)).toNat ∧
      (ops.cartridgeLen (ops.setWriteProtect d.cartridge wrprot)).toNat ≤ blockMax
    rw [len]
    exact sound.valid isIn
  · change d.headPos < ops.tapeEnd (ops.setWriteProtect d.cartridge wrprot) ∨ _
    rw [CartridgeOps.tapeEnd, len]
    exact sound.within isIn

theorem Drive.Sound.reset {d : Drive κ} (sound : d.Sound ops) : (d.take ops .reset).Sound ops := by
  refine ⟨by change 0 < 255 * blockLen; decide, sound.valid, fun isIn => .inl ?_, ?_⟩
  · exact Nat.mul_pos (sound.valid isIn).1 (by decide)
  · intro on
    exact Bool.noConfusion on

/-- A drive stays sound. -/
theorem Drive.Sound.take (lawful : ops.Lawful) {d : Drive κ} (sound : d.Sound ops) {share : Part}
    (careful : ∀ source confirm, share = .insert source confirm → CarefulPart ops d share) :
    (d.take ops share).Sound ops := by
  rcases share with _ | _ | val | ⟨motorOn, gap, sync⟩ | ⟨source, confirm⟩ | confirm | wrprot | _
  · exact sound
  · exact sound.mdrIn
  · exact sound.mdrOut lawful val
  · exact sound.restart motorOn gap sync
  · exact sound.insert lawful (careful source confirm rfl)
  · exact sound.eject confirm
  · exact sound.protect lawful wrprot
  · exact sound.reset

/-! ## Runs -/

/-- The steps, none of which is impossible. -/
def act (ops : CartridgeOps κ) (s : State κ) (action : Action) : Option (State κ) :=
  some (step ops s action)

theorem act_part {s next : State κ} {action : Action} (taken : act ops s action = some next)
    (m : Fin 8) : next.drives m = (s.drives m).take ops (part ops s m action) := by
  rw [← Option.some.inj taken]
  exact step_part s action m

theorem init_sound (m : Fin 8) : ((init ops).drives m).Sound ops := by
  refine ⟨by change 0 < 255 * blockLen; decide, ?_, ?_, ?_⟩
  · intro isIn
    exact Bool.noConfusion isIn
  · intro isIn
    exact Bool.noConfusion isIn
  · intro on
    exact Bool.noConfusion on

theorem runs_sound (lawful : ops.Lawful) {actions : List Action} {s : State κ}
    (runs : Runs (act ops) (Careful ops) (init ops) actions s) (m : Fin 8) :
    (s.drives m).Sound ops := by
  have all : ∀ m, (s.drives m).Sound ops := by
    refine runs.invariant (I := fun s => ∀ m, (s.drives m).Sound ops) init_sound ?_
    intro s action next sound careful taken m
    rw [act_part taken m]
    exact (sound m).take lawful fun _ _ _ => careful m
  exact all m

/-! ## A block is left alone -/

/-- The cartridge stays in the drive, and what is written is neither in the block nor on a
protected cartridge. -/
def SparesPart (ops : CartridgeOps κ) (start length : Nat) (d : Drive κ) : Part → Prop
  | .write _ => d.puts = true → ops.writeProtect d.cartridge = false ∧
      (d.headPos < start ∨ start + length ≤ d.headPos)
  | .insert _ _ => False
  | .eject _ => False
  | _ => True

def Spares (ops : CartridgeOps κ) (m : Fin 8) (start length : Nat) (s : State κ)
    (action : Action) : Prop :=
  SparesPart ops start length (s.drives m) (part ops s m action)

/-- A byte of the block of a drive that is sound is on a tape that libspectrum has. -/
theorem Drive.Sound.head_small {d : Drive κ} (sound : d.Sound ops) (spins : d.spins = true) :
    d.headPos < blockMax * blockLen := by
  have short := (sound.valid (Drive.spins_iff.mp spins).2).2
  have onTape := sound.onTape spins
  have end_ : ops.tapeEnd d.cartridge ≤ blockMax * blockLen := Nat.mul_le_mul_right _ short
  omega

theorem spins_of_puts {d : Drive κ} (puts : d.puts = true) : d.spins = true := by
  rw [Drive.puts, Bool.and_eq_true, Bool.and_eq_true] at puts
  exact puts.1.1

/-- A byte that is not of the block does nothing to the tape. -/
theorem mdrOut_keeps {d : Drive κ} (idle : d.puts = false) (val : UInt8) :
    (d.mdrOut ops val).cartridge = d.cartridge := by
  rw [Drive.mdrOut]
  by_cases spins : d.spins = true
  · rw [if_pos spins, idle]
    rfl
  · rw [if_neg spins]

theorem mdrIn_keeps (d : Drive κ) : (d.mdrIn ops).1.cartridge = d.cartridge := by
  rw [Drive.mdrIn]
  split
  · dsimp only
    split
    · rfl
    · rfl
  · rfl

/-- What is on a part of the tape stays there. -/
theorem holds_take (lawful : ops.Lawful) {d : Drive κ} (sound : d.Sound ops) {start : Nat}
    {bytes : List UInt8} (holds : Holds (ops.data d.cartridge) start bytes) {share : Part}
    (spares : SparesPart ops start bytes.length d share) :
    Holds (ops.data (d.take ops share).cartridge) start bytes := by
  rcases share with _ | _ | val | ⟨motorOn, gap, sync⟩ | ⟨source, confirm⟩ | confirm | wrprot | _
  · exact holds
  · change Holds (ops.data (d.mdrIn ops).1.cartridge) start bytes
    rw [mdrIn_keeps]
    exact holds
  · change Holds (ops.data (d.mdrOut ops val).cartridge) start bytes
    rcases puts : d.puts with _ | _
    · rw [mdrOut_keeps puts]
      exact holds
    · obtain ⟨open_, apart⟩ := spares puts
      have small := sound.head_small (spins_of_puts puts)
      rw [mdrOut_data puts]
      change Holds (ops.data (ops.setData d.cartridge d.headPos val)) start bytes
      rw [data_setData lawful open_ small]
      exact holds.overwrite_ne (by rw [List.length_singleton]; omega)
  · exact holds
  · exact spares.elim
  · exact spares.elim
  · intro i inside
    exact (lawful.data_setWriteProtect _ _ _).trans (holds i inside)
  · exact holds

/-- A block that is spared stays. -/
theorem runs_holds (lawful : ops.Lawful) {m : Fin 8} {start : Nat} {bytes : List UInt8}
    {s s' : State κ} {actions : List Action}
    (runs : Runs (act ops) (Spares ops m start bytes.length) s actions s')
    (sound : (s.drives m).Sound ops) (holds : Holds (ops.data (s.drives m).cartridge) start bytes) :
    (s'.drives m).Sound ops ∧ Holds (ops.data (s'.drives m).cartridge) start bytes := by
  refine runs.invariant (I := fun s =>
    (s.drives m).Sound ops ∧ Holds (ops.data (s.drives m).cartridge) start bytes)
    ⟨sound, holds⟩ ?_
  rintro s action next ⟨sound, holds⟩ spares taken
  rw [act_part taken m]
  refine ⟨sound.take lawful ?_, holds_take lawful sound holds spares⟩
  intro source confirm inserted
  rw [Spares, inserted] at spares
  exact spares.elim

/-! ## Protected cartridges -/

/-- The cartridge stays in the drive and stays protected. -/
def KeepsPart : Part → Prop
  | .insert _ _ => False
  | .protect _ => False
  | _ => True

def CarefulKeeps (ops : CartridgeOps κ) (m : Fin 8) (s : State κ) (action : Action) : Prop :=
  Careful ops s action ∧ KeepsPart (part ops s m action)

theorem take_protected {d : Drive κ} (protect : ops.writeProtect d.cartridge = true) {share : Part}
    (careful : CarefulPart ops d share) (keeps : KeepsPart share) :
    (d.take ops share).cartridge = d.cartridge := by
  rcases share with _ | _ | val | ⟨motorOn, gap, sync⟩ | ⟨source, confirm⟩ | confirm | wrprot | _
  · rfl
  · exact mdrIn_keeps d
  · refine mdrOut_keeps (Bool.eq_false_iff.mpr fun puts => ?_) val
    have open_ := careful puts
    rw [protect] at open_
    exact Bool.noConfusion open_
  · rfl
  · exact keeps.elim
  · obtain ⟨modified, inserted, same, -⟩ := eject_same d confirm
    change (d.eject confirm).1.cartridge = d.cartridge
    rw [same]
  · exact keeps.elim
  · rfl

/-- A protected cartridge is not changed. -/
theorem runs_protected {m : Fin 8} {s s' : State κ} {actions : List Action}
    (protect : ops.writeProtect (s.drives m).cartridge = true)
    (runs : Runs (act ops) (CarefulKeeps ops m) s actions s') :
    (s'.drives m).cartridge = (s.drives m).cartridge := by
  refine runs.invariant (I := fun s' => (s'.drives m).cartridge = (s.drives m).cartridge) rfl ?_
  rintro s'' action next same ⟨careful, keeps⟩ taken
  rw [act_part taken m, take_protected (by rw [same]; exact protect) (careful m) keeps, same]

/-! ## Blocks come back -/

theorem run_outs (vals : List UInt8) (s : State κ) (m : Fin 8) :
    (run ops s (vals.map .mdrOut)).drives m = (s.drives m).mdrOuts ops vals := by
  induction vals generalizing s with
  | nil => rfl
  | cons val vals ih => exact ih (portMdrOut ops s val)

theorem run_ins (n : Nat) (s : State κ) (m : Fin 8) :
    (run ops s (List.replicate n .mdrIn)).drives m = (s.drives m).mdrIns ops n := by
  induction n with
  | zero => rfl
  | succ n ih =>
    rw [List.replicate_succ', run, List.foldl_append, Drive.mdrIns, ← ih]
    rfl

/-- No other drive turns. -/
def Alone (s : State κ) (m : Fin 8) : Prop :=
  ∀ m', m' ≠ m → (s.drives m').spins = false

theorem mdrIn_still {d : Drive κ} (still : d.spins = false) : d.mdrIn ops = (d, 0xff) := by
  rw [Drive.mdrIn, still]
  rfl

theorem mdrIns_still {d : Drive κ} (still : d.spins = false) (n : Nat) : d.mdrIns ops n = d := by
  induction n with
  | zero => rfl
  | succ n ih => rw [Drive.mdrIns, ih, mdrIn_still still]

/-- Of the answers, all but one are without effect. -/
theorem foldl_alone {answer : Fin 8 → UInt8} {m : Fin 8} (others : ∀ m', m' ≠ m → answer m' = 0xff)
    (drives : List (Fin 8)) (ret : UInt8) :
    drives.foldl (fun ret m => ret &&& answer m) ret = if m ∈ drives then ret &&& answer m else ret := by
  have neutral : ∀ b : UInt8, b &&& 0xff = b := fun b => UInt8.and_neg_one
  induction drives generalizing ret with
  | nil => rw [if_neg List.not_mem_nil]; rfl
  | cons m' drives ih =>
    rw [List.foldl_cons, ih]
    by_cases same : m' = m
    · rw [same, if_pos List.mem_cons_self]
      split
      · rw [UInt8.and_assoc, UInt8.and_self]
      · rfl
    · rw [others m' same, neutral]
      by_cases member : m ∈ drives
      · rw [if_pos member, if_pos (List.mem_cons_of_mem m' member)]
      · rw [if_neg member, if_neg (List.not_mem_cons_of_ne_of_not_mem (Ne.symm same) member)]

theorem joined_alone {answer : Fin 8 → UInt8} {m : Fin 8}
    (others : ∀ m', m' ≠ m → answer m' = 0xff) : joined answer = answer m := by
  rw [joined, foldl_alone others, if_pos (List.mem_finRange m), UInt8.and_comm]
  exact UInt8.and_neg_one

/-- What the port reads from a drive that stands at the start of a block is that block. -/
theorem reads_port {s : State κ} {m : Fin 8} (alone : Alone s m) (sound : (s.drives m).Sound ops)
    (spins : (s.drives m).spins = true) (start : (s.drives m).transfered = 0) {n : Nat}
    (inside : n < (s.drives m).maxBytes) :
    (portMdrIn ops (run ops s (List.replicate n .mdrIn))).2 =
      ops.data (s.drives m).cartridge ((s.drives m).headPos + n) := by
  have atBlock := sound.atBlock (Drive.spins_iff.mp spins).1 start
  have room : (s.drives m).headPos + (s.drives m).maxBytes ≤ ops.tapeEnd (s.drives m).cartridge :=
    atBlock.fits (sound.onTape spins)
  have others : ∀ m', m' ≠ m →
      (((run ops s (List.replicate n .mdrIn)).drives m').mdrIn ops).2 = 0xff := by
    intro m' other
    rw [run_ins, mdrIns_still (alone m' other), mdrIn_still (alone m' other)]
  rw [portMdrIn]
  dsimp only
  rw [joined_alone others, run_ins]
  exact reads_block spins start room inside

/-- A block that is written behind its preamble: what is on the tape then. -/
theorem writes_port (lawful : ops.Lawful) {s : State κ} {m : Fin 8} (sound : (s.drives m).Sound ops)
    (spins : (s.drives m).spins = true) (start : (s.drives m).transfered = 0)
    (open_ : ops.writeProtect (s.drives m).cartridge = false) {bytes : List UInt8}
    (whole : bytes.length = (s.drives m).maxBytes) :
    ops.data ((run ops s ((preamble ++ bytes).map .mdrOut)).drives m).cartridge =
      overwrite (ops.data (s.drives m).cartridge) (s.drives m).headPos bytes := by
  have atBlock := sound.atBlock (Drive.spins_iff.mp spins).1 start
  have onTape := sound.onTape spins
  have room : (s.drives m).headPos + (s.drives m).maxBytes ≤ ops.tapeEnd (s.drives m).cartridge :=
    atBlock.fits onTape
  have short := (sound.valid (Drive.spins_iff.mp spins).2).2
  have few : bytes.length ≤ (s.drives m).maxBytes := Nat.le_of_eq whole
  have wrote := writes_block lawful spins open_ short onTape few (by omega)
  rw [run_outs, mdrOuts_append, mdrOuts_preamble spins start]
  exact wrote.data

theorem mdrOuts_sound (lawful : ops.Lawful) (vals : List UInt8) {d : Drive κ} (sound : d.Sound ops) :
    (d.mdrOuts ops vals).Sound ops := by
  induction vals generalizing d with
  | nil => exact sound
  | cons val vals ih => exact ih (sound.mdrOut lawful val)

/-- In every run of careful actions no head is used off its tape and no preamble outside of the
table. A header or data block that is written behind its preamble comes back whenever it is read
before something is done to it, and nothing else on the tape is changed. What is on a protected
cartridge stays as it is. -/
theorem microdrives_faithful (lawful : ops.Lawful) {actions : List Action} {s : State κ}
    (runs : Runs (act ops) (Careful ops) (init ops) actions s) (m : Fin 8) :
    ((s.drives m).spins = true →
      (s.drives m).headPos < ops.tapeEnd (s.drives m).cartridge ∧ (s.drives m).block < 512) ∧
    (∀ bytes, (s.drives m).spins = true → (s.drives m).transfered = 0 →
      ops.writeProtect (s.drives m).cartridge = false → bytes.length = (s.drives m).maxBytes →
        (∀ place, place < (s.drives m).headPos ∨ (s.drives m).headPos + bytes.length ≤ place →
          ops.data ((run ops s ((preamble ++ bytes).map .mdrOut)).drives m).cartridge place =
            ops.data (s.drives m).cartridge place) ∧
        ∀ later s', Runs (act ops) (Spares ops m (s.drives m).headPos bytes.length)
            (run ops s ((preamble ++ bytes).map .mdrOut)) later s' →
          Alone s' m → (s'.drives m).spins = true → (s'.drives m).transfered = 0 →
          (s'.drives m).headPos = (s.drives m).headPos →
            ∀ (n : Nat) (inside : n < bytes.length),
              (portMdrIn ops (run ops s' (List.replicate n .mdrIn))).2 = bytes[n]) ∧
    (ops.writeProtect (s.drives m).cartridge = true →
      ∀ later s', Runs (act ops) (CarefulKeeps ops m) s later s' →
        (s'.drives m).cartridge = (s.drives m).cartridge) := by
  have sound := runs_sound lawful runs m
  refine ⟨fun spins => ⟨sound.onTape spins, sound.block_lt⟩, ?_,
    fun protect later s' runs => runs_protected protect runs⟩
  intro bytes spins start open_ whole
  have written := writes_port lawful sound spins start open_ whole
  refine ⟨?_, ?_⟩
  · intro place apart
    rw [written, overwrite_elsewhere]
    omega
  · intro later s' spared alone spins' start' same n inside
    have holds : Holds (ops.data ((run ops s ((preamble ++ bytes).map .mdrOut)).drives m).cartridge)
        (s.drives m).headPos bytes := by
      rw [written]
      exact Holds.overwritten
    have sound' : ((run ops s ((preamble ++ bytes).map .mdrOut)).drives m).Sound ops := by
      rw [run_outs]
      exact mdrOuts_sound lawful _ sound
    obtain ⟨sound', holds⟩ := runs_holds lawful spared sound' holds
    have atBlock := sound.atBlock (Drive.spins_iff.mp spins).1 start
    have atBlock' := sound'.atBlock (Drive.spins_iff.mp spins').1 start'
    rw [same] at atBlock'
    have length := atBlock.unique atBlock'
    rw [reads_port alone sound' spins' start' (by omega), same]
    exact holds n inside

/-! ## The cartridges of libspectrum -/

/-- `libspectrum_microdrive` -/
structure Microdrive : Type where
  data : Nat → UInt8
  cartridgeLen : UInt8
  writeProtect : Bool

/-- Only whole blocks of an image are read, and the byte behind them is the protection. -/
def libspectrum : CartridgeOps Microdrive where
  alloc := { data := fun _ => 0, cartridgeLen := 0, writeProtect := false }
  data c i := c.data i
  setData c i v := { c with data := Function.update c.data i v }
  cartridgeLen c := c.cartridgeLen
  setCartridgeLen c len := { c with cartridgeLen := len }
  writeProtect c := c.writeProtect
  setWriteProtect c wrprot := { c with writeProtect := wrprot }
  mdrRead c image :=
    if image.length < 10 * blockLen then (false, c)
    else
      let blocks := min (image.length / blockLen) blockMax
      (true,
        { data := fun i => if i < blocks * blockLen then image.getD i 0 else c.data i
          cartridgeLen := UInt8.ofNat blocks
          writeProtect := image.getD (blocks * blockLen) 0 ≠ 0 })

theorem libspectrum_lawful : libspectrum.Lawful where
  len_setData := fun _ _ _ => rfl
  writeProtect_setData := fun _ _ _ => rfl
  data_setData := by
    intro c i v j _ _
    change Function.update c.data i v j = if j = i then v else c.data j
    by_cases here : j = i
    · rw [if_pos here, here, Function.update_self]
    · rw [if_neg here, Function.update_of_ne here]
  len_setCartridgeLen := fun _ _ => rfl
  len_setWriteProtect := fun _ _ => rfl
  data_setWriteProtect := fun _ _ _ => rfl
  len_mdrRead := by
    intro c image read
    change (if image.length < 10 * blockLen then _ else _ : Bool × Microdrive).1 = true at read
    change 0 < (if image.length < 10 * blockLen then _ else _ : Bool × Microdrive).2.cartridgeLen.toNat ∧
      (if image.length < 10 * blockLen then _ else _ : Bool × Microdrive).2.cartridgeLen.toNat ≤ blockMax
    by_cases short : image.length < 10 * blockLen
    · rw [if_pos short] at read
      exact Bool.noConfusion read
    · rw [if_neg short]
      simp only [UInt8.toNat_ofNat', blockLen, headLen, dataLen, blockMax] at short ⊢
      omega

/-- Put a cartridge with so many blocks into the first drive, and turn its motor on. -/
def turning (blocks : Nat) : List Action :=
  [.insert none (.blank (.setting blocks)) .cancel, .ctrOut 2, .ctrOut 0]

theorem turning_runs :
    Runs (act libspectrum) (Careful libspectrum) (init libspectrum) (turning 10)
      (run libspectrum (init libspectrum) (turning 10)) := by
  refine .snoc (.snoc (.snoc .nil ?_ rfl) (fun _ => trivial) rfl) (fun _ => trivial) rfl
  intro m
  change CarefulPart libspectrum _ (if _ then _ else _)
  split
  · intro _ blocks here
    cases here
    exact .inl (show 0 < (NewLen.setting 10).len.toNat * blockLen by decide)
  · exact trivial

theorem faithful_turning :
    ((run libspectrum (init libspectrum) (turning 10)).drives 0).headPos <
      libspectrum.tapeEnd ((run libspectrum (init libspectrum) (turning 10)).drives 0).cartridge :=
  ((microdrives_faithful libspectrum_lawful turning_runs 0).1 rfl).1

/-- Half of a tape goes by: each byte that is read takes the head to the next header or data
block. -/
def halfWay : List Action :=
  turning 20 ++ (List.replicate 20 [Action.mdrIn, .ctrIn true true]).flatten

/-- A shorter cartridge is put in while the motor is on. -/
def exchanged : State Microdrive :=
  run libspectrum (init libspectrum)
    (halfWay ++ [.insert (some 0) (.blank (.setting 10)) .dontSave])

/-- A cartridge is protected. -/
def guarded (m : Fin 8) : State Microdrive :=
  run libspectrum (init libspectrum) (turning 10 ++ [.writeProtect m true])

/-- The head is used off the tape of a shorter cartridge, and a byte is written on a protected
one. -/
theorem microdrives_mistaken :
    ((exchanged.drives 0).spins = true ∧
      libspectrum.tapeEnd (exchanged.drives 0).cartridge ≤ (exchanged.drives 0).headPos) ∧
    ((guarded 0).drives 0).cartridge.writeProtect = true ∧
      ((guarded 0).drives 0).cartridge.data 0 = 0xff ∧
      ((run libspectrum (guarded 0) ((preamble ++ [7]).map .mdrOut)).drives 0).cartridge.data 0 = 7 := by
  decide +kernel

end FuseX.If1
