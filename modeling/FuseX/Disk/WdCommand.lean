import FuseX.Disk.WdSearch
import Mathlib.Data.Nat.ModEq

/-!
# The start of a command

From the write of the command register to the first byte of the transfer. The
controller is idle and the drive is ready; the head loads or the motor starts, the
head settles, and the search runs to its end wherever the head meets the track.
-/

namespace FuseX.Disk.Wd

open Fdd

/-! ## Spin-up -/

/-- The controller behind the spin-up of a command. -/
def startUp (b : UInt8) (s : Wd) : Wd :=
  (spinup b (accept b (take b (resetIntrq s)))).2

/-- There is a delay in the spin-up. -/
def delays (b : UInt8) (s : Wd) : Bool :=
  (spinup b (accept b (take b (resetIntrq s)))).1

/-- The controller is idle, and the drive answers to the command. -/
structure Ready (b : UInt8) (s : Wd) : Prop where
  idle : s.f.statusRegister.busy = false
  no_search : s.f.readId = false
  no_timeout : s.f.timeoutEvent = false
  no_request : s.f.datarq = false
  ready : s.f.type = .wd1773 ∨ s.f.type = .fd1793 → diskReady s = true
  settles : s.f.type.headLoadLine = true → s.f.hlt = true ∨ 0 < s.f.hltTime
  spun : s.f.type.headLoadLine = true → diskReady (startUp b s) = true
  online : (startUp b s).d.online = true

/-- The registers behind the spin-up. -/
def started (b : UInt8) (f : WdFdc) : WdFdc :=
  { f with
    intrq := false
    headLoad := f.headLoad || f.type.headLoadLine
    state := if b &&& 0x20 ≠ 0 then .write else .read
    statusType := .type2
    nonIbmLenCode := lenCode f.type b
    dataCheckHead := checkHead f.type b
    commandRegister := b
    statusRegister := { WdStatus.typeII f.statusRegister with
      busy := true, motoron := f.statusRegister.motoron || !f.type.headLoadLine }
    rev := 5
    fdcEvent := false
    motorOffEvent := false }

/-- The registers during the search of a command. -/
def sought (b : UInt8) (f : WdFdc) : WdFdc :=
  rest { started b f with
    hlt := f.hlt || f.type.headLoadLine
    dataMultisector := b &&& 0x10 ≠ 0 }

section Start

variable {b : UInt8} {s : Wd}

theorem spinup_f (b : UInt8) (s : Wd) :
    (spinup b s).2.f = { s.f with
      headLoad := s.f.headLoad || s.f.type.headLoadLine
      statusRegister := { s.f.statusRegister with
        motoron := s.f.statusRegister.motoron || !s.f.type.headLoadLine }
      fdcEvent := (spinup b s).1 || s.f.fdcEvent
      motorOffEvent := if s.f.type.headLoadLine then false else s.f.motorOffEvent } := by
  rcases s with ⟨f, d⟩
  rcases f with ⟨type, beta, drq, rdy, dden, intrq, datarq, headLoad, hlt, hltTime, extra, state,
    readId, statusType, idMark, idTrack, idHead, idSector, idLength, nonIbm, sectorLength, ddam, rev,
    check, multi, offset, command, ⟨motoron, wrprot, spin, rnf, crcerr, lost, idxDrq, busy⟩, track,
    sector, data, crc, fdcEvent, timeoutEvent, motorOffEvent⟩
  rw [spinup]
  cases line : type.headLoadLine with
  | true =>
    simp only [line, if_true]
    split <;> split <;> simp_all
  | false =>
    simp only [line, Bool.false_eq_true, if_false]
    split <;> split <;> simp_all

theorem startUp_f (b : UInt8) (s : Wd) :
    (startUp b s).f = { started b s.f with fdcEvent := delays b s || s.f.fdcEvent } := by
  have clear : (if s.f.type.headLoadLine then false else false) = false := ite_self false
  rw [startUp, spinup_f]
  exact congrArg (fun off => { started b s.f with
    fdcEvent := delays b s || s.f.fdcEvent, motorOffEvent := off }) clear

theorem no_delay (no_delay : delays b s = false) (line : s.f.type.headLoadLine = true) :
    s.f.hltTime = 0 := by
  rw [delays, spinup] at no_delay
  have line' : (accept b (take b (resetIntrq s))).f.type.headLoadLine = true := line
  simp only [line', if_true] at no_delay
  have short := (Bool.or_eq_false_iff.mp no_delay).2
  exact Nat.eq_zero_of_not_pos (of_decide_eq_false short)

/-! ## Up to the search -/

/-- The checks of `wd_fdc_type_ii` pass, and the search begins. -/
theorem typeII_seeks {u : Wd} (settled : u.f.type.headLoadLine = true → u.f.hlt = true)
    (spun : u.f.type.headLoadLine = true → diskReady u = true)
    (enabled : u.f.state = .write → u.d.wrprot = false)
    (status : u.f.statusRegister.wrprot = false) (fuel : Nat) :
    typeII fuel u = typeIISeek fuel { u with f := { u.f with
      fdcEvent := false
      dataMultisector := u.f.commandRegister &&& 0x10 ≠ 0
      rev := 5
      idMark := .none } } := by
  have ready : (u.f.type.headLoadLine && !diskReady u) = false := by
    cases line : u.f.type.headLoadLine with
    | true => rw [spun line]; rfl
    | false => rfl
  have hlt : (u.f.type.headLoadLine && !u.f.hlt) = false := by
    cases line : u.f.type.headLoadLine with
    | true => rw [settled line]; rfl
    | false => rfl
  have writes : ¬ (u.f.state = .write ∧ u.d.wrprot = true) := by
    rintro ⟨write, protected_⟩
    rw [enabled write] at protected_
    cases protected_
  have same : { u.f.statusRegister with wrprot := false } = u.f.statusRegister := by
    rw [← status]
  have kept : (if u.f.state = .write then
      { u with f := { u.f with
        fdcEvent := false, statusRegister := { u.f.statusRegister with wrprot := false } } }
      else { u with f := { u.f with fdcEvent := false } })
      = { u with f := { u.f with fdcEvent := false } } := by
    rw [same]
    exact ite_self _
  have passed : typeII fuel u = if (u.f.type.headLoadLine && !diskReady u) = true then
      some (finish { u with f := { u.f with fdcEvent := false } })
    else if (u.f.type.headLoadLine && !u.f.hlt) = true then
      some { u with f := { u.f with fdcEvent := true } }
    else if u.f.state = .write ∧ u.d.wrprot = true then
      some (finish { u with f := { u.f with
        fdcEvent := false, statusRegister := { u.f.statusRegister with wrprot := true } } })
    else _ := rfl
  rw [passed, ready, hlt, if_neg Bool.false_ne_true, if_neg Bool.false_ne_true, if_neg writes]
  simp only [kept]

theorem seeking_sought (ready : Ready b s) : Seeking (sought b s.f) where
  no_search := ready.no_search
  no_event := rfl
  no_request := ready.no_request
  busy := by
    show (if b &&& 0x20 ≠ 0 then WdState.write else WdState.read) ≠ .none
    split <;> decide
  status_type := rfl
  settled := fun line => by
    show (s.f.hlt || s.f.type.headLoadLine) = true
    rw [show s.f.type.headLoadLine = true from line, Bool.or_true]

/-- The controller when the search begins. -/
structure Begins (b : UInt8) (s u : Wd) : Prop where
  rest_eq : rest u.f = sought b s.f
  no_id : u.f.idMark = .none
  rev : u.f.rev = 5
  drive : u.d = (startUp b s).d

/-- The registers when the head has settled. -/
theorem begins (ready : Ready b s)
    (enabled : b &&& 0x20 ≠ 0 → (startUp b s).d.wrprot = false) (fuel : Nat) (event : Bool)
    {v : Wd} (drive : v.d = (startUp b s).d)
    (registers : v.f = { started b s.f with
      hlt := s.f.hlt || s.f.type.headLoadLine, fdcEvent := event }) :
    ∃ u, typeII fuel v = typeIISeek fuel u ∧ Begins b s u := by
  have seeks := @typeII_seeks v
    (fun line => by
      rw [registers] at line ⊢
      show (s.f.hlt || s.f.type.headLoadLine) = true
      rw [show s.f.type.headLoadLine = true from line, Bool.or_true])
    (fun line => by
      have line : s.f.type.headLoadLine = true := by rwa [registers] at line
      have spun := ready.spun line
      rw [diskReady, startUp_f] at spun
      rw [diskReady, registers, drive]
      exact spun)
    (fun write => by
      rw [drive]
      apply enabled
      intro zero
      rw [registers] at write
      have read : (if b &&& 0x20 ≠ 0 then WdState.write else WdState.read) = .write := write
      rw [if_neg (not_not.mpr zero)] at read
      cases read)
    (by rw [registers]; rfl) fuel
  refine ⟨_, seeks, ?_, rfl, rfl, drive⟩
  rw [registers]
  rfl

theorem crWrite_eq (ready : Ready b s) (fuel : Nat) :
    crWrite fuel b s = if delays b s then some (startUp b s) else typeII fuel (startUp b s) := by
  have not_ready : ¬ ((s.f.type = .wd1773 ∨ s.f.type = .fd1793) ∧ diskReady s = false) := by
    rintro ⟨type, off⟩
    rw [ready.ready type] at off
    cases off
  have not_busy : ¬ (resetIntrq s).f.statusRegister.busy = true := by
    rw [show (resetIntrq s).f.statusRegister.busy = false from ready.idle]
    exact Bool.false_ne_true
  unfold crWrite
  dsimp only
  rw [if_neg not_busy, if_neg (by exact not_ready), delays, startUp]
  rcases spinup b (accept b (take b (resetIntrq s))) with ⟨delay, s'⟩
  cases delay <;> rfl

/-- The head settles in the wait for it. -/
theorem engage_eq {v : Wd} (loaded : v.f.type.headLoadLine = true → v.f.headLoad = true)
    (settles : v.f.type.headLoadLine = true → v.f.hlt = true ∨ 0 < v.f.hltTime) :
    engage v = { v with f := { v.f with hlt := v.f.hlt || v.f.type.headLoadLine } } := by
  cases line : v.f.type.headLoadLine with
  | false =>
    rw [Bool.or_false]
    apply if_neg
    rintro ⟨line', -⟩
    rw [line] at line'
    cases line'
  | true =>
    rw [Bool.or_true]
    cases hlt : v.f.hlt with
    | true =>
      rw [← hlt]
      apply if_neg
      rintro ⟨-, -, -, loose⟩
      rw [hlt] at loose
      cases loose
    | false =>
      rcases settles line with settled | wait
      · rw [hlt] at settled
        cases settled
      · exact if_pos ⟨line, wait, loaded line, hlt⟩

theorem engage_startUp (ready : Ready b s) :
    engage { startUp b s with f := { (startUp b s).f with fdcEvent := false } }
      = { startUp b s with f := { started b s.f with hlt := s.f.hlt || s.f.type.headLoadLine } } := by
  have registers : { (startUp b s).f with fdcEvent := false } = started b s.f := by
    rw [startUp_f]
    rfl
  rw [registers]
  apply engage_eq
  · intro line
    show (s.f.headLoad || s.f.type.headLoadLine) = true
    rw [show s.f.type.headLoadLine = true from line, Bool.or_true]
  · exact ready.settles

theorem crWrite_seeks (ready : Ready b s)
    (enabled : b &&& 0x20 ≠ 0 → (startUp b s).d.wrprot = false) (fuel : Nat) :
    ∃ u k, k ≤ 1 ∧ Begins b s u ∧ ∀ n, (crWrite fuel b s).bind (serve fuel (n + k))
      = (typeIISeek fuel u).bind (serve fuel n) := by
  cases delay : delays b s with
  | false =>
    have settled : (s.f.hlt || s.f.type.headLoadLine) = s.f.hlt := by
      cases line : s.f.type.headLoadLine with
      | false => rw [Bool.or_false]
      | true =>
        have short := no_delay delay line
        rcases ready.settles line with hlt | wait
        · rw [hlt, Bool.true_or]
        · omega
    obtain ⟨u, seeks, begins⟩ := begins ready enabled fuel (delays b s || s.f.fdcEvent)
      (v := startUp b s) rfl (by rw [startUp_f, settled]; rfl)
    refine ⟨u, 0, Nat.zero_le 1, begins, fun n => ?_⟩
    rw [crWrite_eq ready, delay, if_neg Bool.false_ne_true, seeks, Nat.add_zero]
  | true =>
    have settled := engage_startUp ready
    generalize after : { startUp b s with
      f := { started b s.f with hlt := s.f.hlt || s.f.type.headLoadLine } } = v at settled
    have registers : v.f = { started b s.f with hlt := s.f.hlt || s.f.type.headLoadLine } := by
      rw [← after]
    have drive : v.d = (startUp b s).d := by
      rw [← after]
    obtain ⟨u, seeks, begins⟩ := begins ready enabled fuel false drive registers
    refine ⟨u, 1, Nat.le_refl 1, begins, fun n => ?_⟩
    have sought := seeking_sought ready
    have state : v.f.state ≠ .none := by
      rw [registers]
      exact sought.busy
    have no_request : v.f.datarq = false := by
      rw [registers]
      exact ready.no_request
    have no_search : v.f.readId = false := by
      rw [registers]
      exact ready.no_search
    have spun : spunUp v = v := by
      apply if_neg
      rw [registers]
      rintro ⟨-, -, type1⟩
      cases type1
    have goes_on : event fuel (startUp b s) = typeIISeek fuel u := by
      rw [event, settled, spun, dispatch, if_neg state,
        if_neg (by rw [no_request]; exact Bool.false_ne_true),
        if_neg (by rw [no_search]; exact Bool.false_ne_true), seeks]
    have waits : (startUp b s).f.fdcEvent = true := by
      rw [startUp_f, delay]
      rfl
    rw [crWrite_eq ready, delay, if_pos rfl, Option.bind_some, serve, if_pos waits, goes_on]

/-! ## The end of the search -/

variable {t : TrackSlot} {p : Nat} {id : IdValues}

/-- The sector can be counted from another turn of the disk. -/
theorem Only.congr {f : WdFdc} {p' : Nat} (sector : Only f t p id)
    (same : p % t.cBpt = p' % t.cBpt) : Only f t p' id where
  holds := sector.holds.congr same
  names := sector.names
  only := fun z v reads names => by
    rw [sector.only z v reads names, Nat.add_mod, same, ← Nat.add_mod]

/-- From every position the sector comes up in the next turn. -/
theorem comes_up (n e x : Nat) (pos : 0 < n) :
    ∃ r < n, (x + r) % n = e % n := by
  refine ⟨(e % n + (n - x % n)) % n, Nat.mod_lt _ pos, ?_⟩
  have x_lt := Nat.mod_lt x pos
  rw [Nat.add_mod_mod, ← Nat.mod_add_mod, show x % n + (e % n + (n - x % n)) = e % n + n by omega,
    Nat.add_mod_right, Nat.mod_mod]

/-- A command finds its sector and begins the transfer. -/
theorem command_serves (ready : Ready b s)
    (enabled : b &&& 0x20 ≠ 0 → (startUp b s).d.wrprot = false)
    (track : (startUp b s).d.track = t) (room : 16 ≤ t.cBpt)
    (sector : Only (sought b s.f) t p id) (fuel : Nat) (enough : t.cBpt < fuel) :
    ∃ p' s', p' % t.cBpt = p % t.cBpt ∧
      Here (sought b s.f) (startUp b s).d.toFddLines t
        (p' + markOffset (sought b s.f).dden + 7) s' ∧ Found (sought b s.f) id s' ∧
      ∀ n, t.cBpt + 2 < n → Quiet (beginTransfer s') →
        (crWrite fuel b s).bind (serve fuel n) = some (beginTransfer s') := by
  have pos : 0 < t.cBpt := by omega
  obtain ⟨u, k, once, begins, serves⟩ := crWrite_seeks ready enabled fuel
  have seeking := seeking_sought ready
  have rest_eq := begins.rest_eq
  generalize sought b s.f = f at sector rest_eq seeking ⊢
  generalize lines : (startUp b s).d.toFddLines = l
  have online : l.online = true := by
    rw [← lines]
    exact ready.online
  have drive_track : u.d.track = t := by
    rw [begins.drive, track]
  have next_lt : u.d.next < t.cBpt := by
    rw [next, cBpt, drive_track]
    split <;> omega
  have last : lastStart f.dden ≤ 14 := by
    cases f.dden <;> decide
  -- the turn the search begins in is counted as the second one
  obtain ⟨r, r_lt, turn⟩ := comes_up t.cBpt (p + lastStart f.dden) (u.d.next + t.cBpt) pos
  have same : (u.d.next + t.cBpt + r - lastStart f.dden) % t.cBpt = p % t.cBpt := by
    have shifted : (u.d.next + t.cBpt + r - lastStart f.dden + lastStart f.dden) % t.cBpt
        = (p + lastStart f.dden) % t.cBpt := by
      rw [Nat.sub_add_cancel (by omega), turn]
    exact Nat.ModEq.add_right_cancel' (lastStart f.dden) shifted
  have counted : (u.d.next + t.cBpt + r - lastStart f.dden) + lastStart f.dden
      = u.d.next + t.cBpt + r := Nat.sub_add_cancel (by omega)
  generalize u.d.next + t.cBpt + r - lastStart f.dden = p' at same counted
  have third : (p' + lastStart f.dden) / t.cBpt < 6 := by
    rw [Nat.div_lt_iff_lt_mul pos]
    omega
  have turn_one : (u.d.next + t.cBpt) / t.cBpt = 1 := by
    rw [Nat.add_div_right _ pos, Nat.div_eq_of_lt next_lt]
  have seek : Seek { f with readId := false } l t 6 (u.d.next + t.cBpt) u :=
    { rest_eq := by rw [rest_eq, seeking.readId_self]
      lines := by rw [begins.drive, lines]
      track := drive_track
      at_x := by
        rw [At, cBpt, drive_track, Nat.add_mod_right, Nat.mod_eq_of_lt next_lt]
      turns := by
        rw [begins.rev, turn_one]
        rfl }
  obtain ⟨s', here, found, ends⟩ := seek_serves online pos (sector.congr same.symm) seeking fuel
    (by omega) (by omega) (by omega) (by omega) seek begins.no_id
  refine ⟨p', s', same, here, found, fun n many quiet => ?_⟩
  obtain ⟨m, rfl⟩ : ∃ m, n = m + 1 + k := ⟨n - 1 - k, by omega⟩
  rw [serves]
  exact ends m (by omega) quiet

end Start

end FuseX.Disk.Wd
