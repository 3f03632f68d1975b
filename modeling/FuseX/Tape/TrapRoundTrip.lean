import FuseX.Lib.Stores
import FuseX.Tape.Trap

/-!
# Loading what was saved

The loops of the load trap go through the bytes as `writeBytes` and `readBytes` do;
`tape_traps_agree` puts together what a load, a verify and a load of any other block end in.
-/

namespace FuseX.Tape.Trap

open Lib

variable {ω : Type} {bus : Bus ω}

/-! ## Flags -/

/-- `CP` with 1 leaves the carry flag for 0 only. -/
theorem carry_cpFlags (a : UInt8) : carry (cpFlags a 1) = decide (a = 0) := by
  have all : ∀ n : Fin 256, carry (cpFlags (UInt8.ofNat n.val) 1)
      = decide (UInt8.ofNat n.val = 0) := by decide +kernel
  have here := all ⟨a.toNat, a.toNat_lt⟩
  rwa [UInt8.ofNat_toNat] at here

theorem carry_cleared (f : UInt8) : carry (f &&& ~~~flagC) = false := by
  rw [carry, UInt8.and_assoc, show ~~~flagC &&& flagC = 0 by decide, UInt8.and_zero]
  rfl

theorem fail_carry (r : Registers) (parity : UInt8) (processed : Nat) :
    carry (trapLoadFail r parity processed).f = false := carry_cleared r.f

/-! ## The loops -/

/-- The bytes are written to consecutive addresses. -/
def writeBytes (bus : Bus ω) : ω → UInt16 → List UInt8 → ω
  | w, _, [] => w
  | w, address, byte :: bytes => writeBytes bus (bus.write w address byte) (address + 1) bytes

theorem next_address (ix : UInt16) (n : Nat) :
    ix + UInt16.ofNat (n + 1) = ix + UInt16.ofNat n + 1 := by
  rw [UInt16.ofNat_add, UInt16.add_assoc]
  rfl

theorem readBytes_length (bus : Bus ω) (w : ω) (address : UInt16) (count : Nat) :
    (readBytes bus w address count).length = count := by
  rw [readBytes, List.length_map, List.length_range]

theorem readBytes_succ (w : ω) (address : UInt16) (count : Nat) :
    readBytes bus w address (count + 1)
      = bus.read w address :: readBytes bus w (address + 1) count := by
  rw [readBytes, readBytes, List.range_succ_eq_map, List.map_cons, List.map_map]
  have first : address + UInt16.ofNat 0 = address := UInt16.add_zero address
  have rest : (fun i => bus.read w (address + UInt16.ofNat i)) ∘ Nat.succ
      = fun i => bus.read w (address + 1 + UInt16.ofNat i) := by
    funext i
    have next : address + UInt16.ofNat (i + 1) = address + 1 + UInt16.ofNat i := by
      rw [next_address, UInt16.add_assoc, UInt16.add_comm (UInt16.ofNat i), ← UInt16.add_assoc]
    exact congrArg (bus.read w) next
  rw [first, rest]

theorem trapCopyBytes_eq (ix : UInt16) (bytes : List UInt8) (w : ω) (p : Progress) :
    trapCopyBytes bus ix bytes w p
      = (writeBytes bus w (ix + UInt16.ofNat p.processed) bytes,
        { p with
          parity := parityFrom p.parity bytes, processed := p.processed + bytes.length }) := by
  induction bytes generalizing w p with
  | nil => rfl
  | cons byte bytes ih =>
    rw [trapCopyBytes, ih, writeBytes]
    dsimp only
    rw [next_address, List.length_cons, Nat.add_right_comm, ← Nat.add_assoc]
    rfl

/-- A verify that finds no difference goes as a load does; it finds none exactly when memory has
the bytes. -/
theorem trapVerifyBytes_same {w : ω} {ix : UInt16} {bytes : List UInt8} {p : Progress}
    (same : readBytes bus w (ix + UInt16.ofNat p.processed) bytes.length = bytes) :
    trapVerifyBytes bus w ix bytes p
      = { p with
          parity := parityFrom p.parity bytes, processed := p.processed + bytes.length } := by
  induction bytes generalizing p with
  | nil => rfl
  | cons byte bytes ih =>
    rw [List.length_cons, readBytes_succ] at same
    obtain ⟨here, rest⟩ := List.cons.inj same
    rw [← next_address] at rest
    rw [trapVerifyBytes, if_neg (fun differs => differs here.symm)]
    have next := ih (p := { p with parity := p.parity ^^^ byte, processed := p.processed + 1 }) rest
    refine next.trans ?_
    dsimp only
    rw [List.length_cons, Nat.add_right_comm, ← Nat.add_assoc]
    rfl

theorem trapVerifyBytes_differs {w : ω} {ix : UInt16} {bytes : List UInt8} {p : Progress}
    (differs : readBytes bus w (ix + UInt16.ofNat p.processed) bytes.length ≠ bytes) :
    (trapVerifyBytes bus w ix bytes p).differs ≠ none := by
  induction bytes generalizing p with
  | nil => exact absurd rfl differs
  | cons byte bytes ih =>
    rw [trapVerifyBytes]
    by_cases here : byte = bus.read w (ix + UInt16.ofNat p.processed)
    · rw [if_neg (fun differs => differs here)]
      refine ih (p := { p with parity := p.parity ^^^ byte, processed := p.processed + 1 })
        fun rest => differs ?_
      dsimp only at rest
      rw [next_address] at rest
      rw [List.length_cons, readBytes_succ, rest, ← here]
    · rw [if_pos here]
      exact Option.some_ne_none byte

/-! ## What a load ends in -/

theorem parityFrom_append (start : UInt8) (bytes : List UInt8) (byte : UInt8) :
    parityFrom start (bytes ++ [byte]) = parityFrom start bytes ^^^ byte := by
  rw [parityFrom, List.foldl_append]
  rfl

/-- All bytes have come and the parity is there: it decides on the carry flag. -/
theorem checkParity_whole {r : Registers} {p : Progress} (byte : UInt8)
    (whole : r.de.toNat = p.processed) :
    carry (trapCheckParity r p (some byte)).f = decide (p.parity ^^^ byte = 0)
      ∧ (trapCheckParity r p (some byte)).de = 0
      ∧ (trapCheckParity r p (some byte)).ix = r.ix + r.de := by
  rw [trapCheckParity, if_pos whole]
  refine ⟨carry_cpFlags _, ?_, ?_⟩
  · change r.de - UInt16.ofNat p.processed = 0
    rw [← whole, UInt16.ofNat_toNat, UInt16.sub_self]
  · change r.ix + UInt16.ofNat p.processed = r.ix + r.de
    rw [← whole, UInt16.ofNat_toNat]

theorem checkParity_short {r : Registers} {p : Progress} {next : Option UInt8}
    (short : r.de.toNat = p.processed → next = none) :
    carry (trapCheckParity r p next).f = false := by
  have none_ : (if r.de.toNat = p.processed then next else none) = none := by
    split
    · next whole => exact short whole
    · rfl
  rw [trapCheckParity, none_]
  exact fail_carry _ _ _

/-- The loop has gone through what there is of the bytes asked for. -/
def Progress.through (flag : UInt8) (bytes : List UInt8) : Progress :=
  { parity := parityFrom flag bytes, processed := bytes.length }

/-- The registers when the flag byte has been compared. -/
def flagCompared (r : Registers) (flag : UInt8) : Registers :=
  { r with a := r.a_, l := flag, a_ := 0x01, f_ := 0x45 }.xor flag

theorem load_mismatch (bus : Bus ω) {flag : UInt8} (data : List UInt8) {r : Registers} (w : ω)
    (some_ : r.de ≠ 0) (differs : flag ≠ r.a_) :
    carry (tapeTrapLoadBlock bus (flag :: data) r w).1.f = false
      ∧ (tapeTrapLoadBlock bus (flag :: data) r w).2 = w := by
  have nonzero : (flagCompared r flag).a ≠ 0 :=
    fun zero => differs (UInt8.xor_eq_zero_iff.mp zero).symm
  rw [tapeTrapLoadBlock]
  dsimp only
  rw [if_neg some_]
  change carry (if (flagCompared r flag).a ≠ 0 then _ else _ : Registers × ω).1.f = false
    ∧ (if (flagCompared r flag).a ≠ 0 then _ else _ : Registers × ω).2 = w
  rw [if_pos nonzero]
  exact ⟨fail_carry _ _ _, rfl⟩

/-- The bytes that are read are those asked for as far as there are any. -/
theorem read_bytes (data : List UInt8) (count : Nat) :
    data.take (min data.length count) = data.take count
      ∧ data[min data.length count]? = data[count]? := by
  rcases Nat.le_total count data.length with enough | short
  · rw [Nat.min_eq_right enough]
    exact ⟨rfl, rfl⟩
  · rw [Nat.min_eq_left short, List.take_of_length_le short, List.getElem?_eq_none short,
      List.getElem?_eq_none (Nat.le_refl _)]
    exact ⟨List.take_of_length_le (Nat.le_refl _), rfl⟩

/-- A load of a block with the right flag writes its bytes and then looks at the parity. -/
theorem load_copies (bus : Bus ω) {flag : UInt8} (data : List UInt8) {r : Registers} (w : ω)
    (some_ : r.de ≠ 0) (same : flag = r.a_) (loading : carry r.f_ = true) :
    ∃ r₁ : Registers, r₁.de = r.de ∧ r₁.ix = r.ix ∧
      tapeTrapLoadBlock bus (flag :: data) r w
        = (trapCheckParity r₁ (.through flag (data.take r.de.toNat)) data[r.de.toNat]?,
          writeBytes bus w r.ix (data.take r.de.toNat)) := by
  have zero : ¬ (flagCompared r flag).a ≠ 0 :=
    not_not.mpr (UInt8.xor_eq_zero_iff.mpr same.symm)
  obtain ⟨taken, next⟩ := read_bytes data r.de.toNat
  have start : r.ix + UInt16.ofNat 0 = r.ix := UInt16.add_zero r.ix
  refine ⟨{ flagCompared r flag with
    l := (data.take r.de.toNat).getLast?.getD (flagCompared r flag).l }, rfl, rfl, ?_⟩
  rw [tapeTrapLoadBlock]
  dsimp only
  rw [if_neg some_, taken, next, loading]
  change (if (flagCompared r flag).a ≠ 0 then _ else _ : Registers × ω) = _
  rw [if_neg zero, if_neg (by decide), trapCopyBytes_eq]
  refine Prod.ext ?_ ?_
  · dsimp only
    rw [Nat.zero_add]
    rfl
  · exact congrArg (fun address => writeBytes bus w address (data.take r.de.toNat)) start

/-- A verify of it compares them, and writes nothing. -/
theorem load_verifies (bus : Bus ω) {flag : UInt8} (data : List UInt8) {r : Registers} (w : ω)
    (some_ : r.de ≠ 0) (same : flag = r.a_) (verifying : carry r.f_ = false) :
    ∃ r₁ : Registers, r₁.de = r.de ∧ r₁.ix = r.ix ∧
      (tapeTrapLoadBlock bus (flag :: data) r w).2 = w
      ∧ (readBytes bus w r.ix (data.take r.de.toNat).length = data.take r.de.toNat →
        (tapeTrapLoadBlock bus (flag :: data) r w).1
          = trapCheckParity r₁ (.through flag (data.take r.de.toNat)) data[r.de.toNat]?)
      ∧ (readBytes bus w r.ix (data.take r.de.toNat).length ≠ data.take r.de.toNat →
        carry (tapeTrapLoadBlock bus (flag :: data) r w).1.f = false) := by
  have zero : ¬ (flagCompared r flag).a ≠ 0 :=
    not_not.mpr (UInt8.xor_eq_zero_iff.mpr same.symm)
  obtain ⟨taken, next⟩ := read_bytes data r.de.toNat
  have start : r.ix + UInt16.ofNat 0 = r.ix := UInt16.add_zero r.ix
  obtain ⟨r₁, eq⟩ : ∃ r₁ : Registers, r₁ = { flagCompared r flag with
    l := (data.take r.de.toNat).getLast?.getD (flagCompared r flag).l } := ⟨_, rfl⟩
  have whole : tapeTrapLoadBlock bus (flag :: data) r w
      = (trapVerifyBytes bus w r.ix (data.take r.de.toNat) { parity := flag }).differs.elim
          (trapCheckParity r₁ (trapVerifyBytes bus w r.ix (data.take r.de.toNat) { parity := flag })
            data[r.de.toNat]?, w)
          fun byte => (trapLoadFail { r₁ with l := byte }
            (trapVerifyBytes bus w r.ix (data.take r.de.toNat) { parity := flag }).parity
            (trapVerifyBytes bus w r.ix (data.take r.de.toNat) { parity := flag }).processed, w) := by
    rw [tapeTrapLoadBlock]
    dsimp only
    rw [if_neg some_, taken, next, verifying]
    change (if (flagCompared r flag).a ≠ 0 then _ else _ : Registers × ω) = _
    rw [if_neg zero, if_pos (by decide), eq]
    split
    · next byte result =>
      have result_ : (trapVerifyBytes bus w r.ix (data.take r.de.toNat) { parity := flag }).differs
          = some byte := result
      rw [result_]
      rfl
    · next result =>
      have result_ : (trapVerifyBytes bus w r.ix (data.take r.de.toNat) { parity := flag }).differs
          = none := result
      rw [result_]
      rfl
  rw [whole]
  refine ⟨r₁, by rw [eq]; rfl, by rw [eq]; rfl, ?_, fun equal => ?_, fun differs => ?_⟩
  · cases (trapVerifyBytes bus w r.ix (data.take r.de.toNat) { parity := flag }).differs <;> rfl
  · have through : trapVerifyBytes bus w r.ix (data.take r.de.toNat) { parity := flag }
        = .through flag (data.take r.de.toNat) := by
      refine (trapVerifyBytes_same (p := { parity := flag }) (by rw [start]; exact equal)).trans ?_
      dsimp only
      rw [Nat.zero_add]
      rfl
    rw [through]
    rfl
  · have found := trapVerifyBytes_differs (p := { parity := flag }) (by rw [start]; exact differs)
    rcases result : (trapVerifyBytes bus w r.ix (data.take r.de.toNat) { parity := flag }).differs
      with _ | byte
    · exact absurd result found
    · exact fail_carry _ _ _

/-! ## The laws of the traps -/

/-- The load trap finds the block that was saved, and is asked for it. -/
structure Asked (bus : Bus ω) (w : ω) (saver loader : Registers) (deck : Deck) : Prop where
  some_ : saver.de ≠ 0
  block : deck.block = tapeSaveTrap bus w saver
  rom : deck.rom = true
  pilot : deck.pilot = true
  flag : loader.a_ = saver.a
  ix : loader.ix = saver.ix
  de : loader.de = saver.de

/-- A load writes the saved bytes to their addresses and does nothing else to memory. -/
def Loads (bus : Bus ω) : Prop :=
  ∀ w w' saver loader deck timex, Asked bus w saver loader deck → carry loader.f_ = true →
    ∃ r, tapeLoadTrap bus timex deck loader w'
        = some (r, writeBytes bus w' saver.ix (readBytes bus w saver.ix saver.de.toNat))
      ∧ carry r.f = true ∧ r.de = 0 ∧ r.ix = saver.ix + saver.de

/-- A verify writes nothing, and clears the carry flag exactly when a byte differs. -/
def Verifies (bus : Bus ω) : Prop :=
  ∀ w w' saver loader deck timex, Asked bus w saver loader deck → carry loader.f_ = false →
    ∃ r, tapeLoadTrap bus timex deck loader w' = some (r, w')
      ∧ (carry r.f = false ↔ ∃ i < saver.de.toNat,
        bus.read w' (saver.ix + UInt16.ofNat i) ≠ bus.read w (saver.ix + UInt16.ofNat i))

/-- The flag or the parity of a block is wrong, or it is too short. -/
def Faulty (r : Registers) (block : List UInt8) : Prop :=
  block.head? ≠ some r.a_ ∨ parityFrom 0 (block.take (r.de.toNat + 2)) ≠ 0
    ∨ block.length < r.de.toNat + 2

/-- Such a block ends with the carry flag clear, and a verify of any block writes nothing. -/
def Rejects (bus : Bus ω) : Prop :=
  ∀ block r w, r.de ≠ 0 →
    (Faulty r block → carry (tapeTrapLoadBlock bus block r w).1.f = false)
      ∧ (carry r.f_ = false → (tapeTrapLoadBlock bus block r w).2 = w)

theorem de_pos {de : UInt16} (some_ : de ≠ 0) : 0 < de.toNat :=
  Nat.pos_of_ne_zero fun zero => some_ (UInt16.toNat_inj.mp zero)

theorem saved_played {w : ω} {saver loader : Registers} {deck : Deck}
    (asked : Asked bus w saver loader deck) : blockRequiresPlayback deck loader = false := by
  have length : deck.block.length = loader.de.toNat + 2 := by
    rw [asked.block, tapeSaveTrap, List.length_append, List.length_cons, readBytes_length, asked.de]
    rfl
  rw [blockRequiresPlayback, asked.rom, asked.pilot]
  dsimp only
  rw [length, decide_eq_false (Nat.lt_irrefl _)]
  rfl

/-- A saved block is the flag, the bytes and a byte that makes the parity zero. -/
structure Saved (bus : Bus ω) (w : ω) (saver : Registers) (bytes : List UInt8) : Prop where
  bytes_eq : readBytes bus w saver.ix saver.de.toNat = bytes
  take : (bytes ++ [parityFrom saver.a bytes]).take saver.de.toNat = bytes
  next : (bytes ++ [parityFrom saver.a bytes])[saver.de.toNat]?
    = some (parityFrom saver.a bytes)
  block : tapeSaveTrap bus w saver = saver.a :: (bytes ++ [parityFrom saver.a bytes])
  length : saver.de.toNat = bytes.length

theorem saved (bus : Bus ω) (w : ω) (saver : Registers) :
    Saved bus w saver (readBytes bus w saver.ix saver.de.toNat) := by
  have length := readBytes_length bus w saver.ix saver.de.toNat
  refine ⟨rfl, List.take_left' length, ?_, rfl, length.symm⟩
  rw [List.getElem?_append_right (Nat.le_of_eq length), length, Nat.sub_self]
  rfl

/-- The registers the block is loaded with. -/
theorem asked_loads {w : ω} (w' : ω) {saver loader : Registers} {deck : Deck} (timex : Bool)
    (asked : Asked bus w saver loader deck) :
    ∃ r : Registers, r.de = saver.de ∧ r.ix = saver.ix ∧ r.a_ = saver.a ∧ r.f_ = loader.f_
      ∧ tapeLoadTrap bus timex deck loader w'
        = some (tapeTrapLoadBlock bus (tapeSaveTrap bus w saver) r w') := by
  refine ⟨{ loader with pc := loadReturnPc timex }, asked.de, asked.ix, asked.flag, rfl, ?_⟩
  rw [tapeLoadTrap, saved_played asked, if_neg Bool.false_ne_true, asked.block]

theorem loads (bus : Bus ω) : Loads bus := by
  intro w w' saver loader deck timex asked loading
  obtain ⟨r, de, ix, flag, f_, loaded⟩ := asked_loads w' timex asked
  have saved := saved bus w saver
  generalize readBytes bus w saver.ix saver.de.toNat = bytes at saved
  have some_ : r.de ≠ 0 := by
    rw [de]
    exact asked.some_
  obtain ⟨r₁, de₁, ix₁, copies⟩ := load_copies bus (bytes ++ [parityFrom saver.a bytes]) w' some_
    flag.symm (by rw [f_]; exact loading)
  rw [de, saved.take, saved.next, ix] at copies
  have whole : r₁.de.toNat = (Progress.through saver.a bytes).processed := by
    rw [de₁, de]
    exact saved.length
  obtain ⟨success, done, advanced⟩ := checkParity_whole (parityFrom saver.a bytes) whole
  refine ⟨_, loaded.trans ?_, ?_, done, ?_⟩
  · rw [saved.block, copies]
  · rw [success]
    exact decide_eq_true UInt8.xor_self
  · rw [advanced, ix₁, ix, de₁, de]

theorem verifies (bus : Bus ω) : Verifies bus := by
  intro w w' saver loader deck timex asked verifying
  obtain ⟨r, de, ix, flag, f_, loaded⟩ := asked_loads w' timex asked
  have saved := saved bus w saver
  have differ : readBytes bus w' saver.ix saver.de.toNat
      ≠ readBytes bus w saver.ix saver.de.toNat ↔ ∃ i < saver.de.toNat,
        bus.read w' (saver.ix + UInt16.ofNat i) ≠ bus.read w (saver.ix + UInt16.ofNat i) := by
    rw [readBytes, readBytes, Ne, List.map_inj_left]
    simp only [List.mem_range, not_forall, exists_prop]
  generalize readBytes bus w saver.ix saver.de.toNat = bytes at saved differ
  have some_ : r.de ≠ 0 := by
    rw [de]
    exact asked.some_
  obtain ⟨r₁, de₁, ix₁, stays, equal, differs⟩ := load_verifies bus
    (bytes ++ [parityFrom saver.a bytes]) w' some_ flag.symm (by rw [f_]; exact verifying)
  rw [de, saved.take, saved.next, ix, ← saved.length] at equal
  rw [de, saved.take, ix, ← saved.length] at differs
  have whole : r₁.de.toNat = (Progress.through saver.a bytes).processed := by
    rw [de₁, de]
    exact saved.length
  obtain ⟨success, -, -⟩ := checkParity_whole (parityFrom saver.a bytes) whole
  rw [← saved.block] at stays equal differs
  refine ⟨_, loaded.trans (congrArg some (Prod.ext rfl stays)), ?_⟩
  rw [← differ]
  refine ⟨fun clear same => ?_, differs⟩
  have set_ : carry (tapeTrapLoadBlock bus (tapeSaveTrap bus w saver) r w').1.f = true := by
    rw [equal same, success]
    exact decide_eq_true UInt8.xor_self
  rw [clear] at set_
  exact Bool.noConfusion set_

/-- The parity check fails for a block that is too short or has the wrong parity. -/
theorem checkParity_faulty {flag : UInt8} {data : List UInt8} {r : Registers} {de : UInt16}
    (same : r.de = de)
    (faulty : parityFrom 0 ((flag :: data).take (de.toNat + 2)) ≠ 0
      ∨ (flag :: data).length < de.toNat + 2) :
    carry (trapCheckParity r (.through flag (data.take de.toNat)) data[de.toNat]?).f = false := by
  rcases Nat.lt_or_ge de.toNat data.length with enough | short
  · have behind : data[de.toNat]? = some data[de.toNat] := List.getElem?_eq_getElem enough
    have wrong : parityFrom 0 ((flag :: data).take (de.toNat + 2)) ≠ 0 := by
      refine faulty.resolve_right fun short => ?_
      rw [List.length_cons] at short
      omega
    have split : parityFrom 0 ((flag :: data).take (de.toNat + 2))
        = parityFrom flag (data.take de.toNat) ^^^ data[de.toNat] := by
      rw [List.take_succ_cons, List.take_succ_eq_append_getElem enough]
      change parityFrom (0 ^^^ flag) (data.take de.toNat ++ [data[de.toNat]]) = _
      rw [UInt8.zero_xor, parityFrom_append]
    rw [split] at wrong
    have whole : r.de.toNat = (Progress.through flag (data.take de.toNat)).processed := by
      rw [same]
      exact (List.length_take_of_le (Nat.le_of_lt enough)).symm
    rw [behind, (checkParity_whole _ whole).1]
    exact decide_eq_false wrong
  · exact checkParity_short fun _ => List.getElem?_eq_none short

theorem rejects (bus : Bus ω) : Rejects bus := by
  intro block r w some_
  cases block with
  | nil => exact ⟨fun _ => carry_cleared r.f, fun _ => rfl⟩
  | cons flag data =>
    by_cases same : flag = r.a_
    · have faulty_ : Faulty r (flag :: data) →
          parityFrom 0 ((flag :: data).take (r.de.toNat + 2)) ≠ 0
            ∨ (flag :: data).length < r.de.toNat + 2 := by
        rintro (other | rest)
        · exact absurd (congrArg some same) other
        · exact rest
      cases mode : carry r.f_ with
      | true =>
        obtain ⟨r₁, de₁, -, copies⟩ := load_copies bus data w some_ same mode
        rw [copies]
        exact ⟨fun faulty => checkParity_faulty de₁ (faulty_ faulty),
          fun verifying => Bool.noConfusion verifying⟩
      | false =>
        obtain ⟨r₁, de₁, -, stays, equal, differs⟩ :=
          load_verifies bus data w some_ same mode
        refine ⟨fun faulty => ?_, fun _ => stays⟩
        by_cases has : readBytes bus w r.ix (data.take r.de.toNat).length = data.take r.de.toNat
        · rw [equal has]
          exact checkParity_faulty de₁ (faulty_ faulty)
        · exact differs has
    · obtain ⟨clear, stays⟩ := load_mismatch bus data w some_ same
      exact ⟨fun _ => clear, fun _ => stays⟩

/-! ## Memory in pages -/

/-- The page maps: the place an address is read from and the one it is written to, if any. -/
structure PageMaps (κ : Type) : Type where
  reads : UInt16 → κ
  writes : UInt16 → Option κ

section

variable {κ : Type} [DecidableEq κ]

/-- Memory behind page maps; what is written to ROM is ignored. -/
def PageMaps.toBus (maps : PageMaps κ) : Bus (κ → UInt8) :=
  { read := fun memory address => memory (maps.reads address)
    write := fun memory address byte =>
      match maps.writes address with
      | some place => Function.update memory place byte
      | none => memory }

/-- Where the bytes go that are written to consecutive addresses. -/
def PageMaps.stores (maps : PageMaps κ) : UInt16 → List UInt8 → List (κ × UInt8)
  | _, [] => []
  | address, byte :: bytes =>
      ((maps.writes address).map (·, byte)).toList ++ maps.stores (address + 1) bytes

theorem writeBytes_eq (maps : PageMaps κ) (memory : κ → UInt8) (address : UInt16)
    (bytes : List UInt8) :
    writeBytes maps.toBus memory address bytes = storeAll memory (maps.stores address bytes) := by
  induction bytes generalizing memory address with
  | nil => rfl
  | cons byte bytes ih =>
    rw [writeBytes, ih, PageMaps.stores, storeAll_append]
    cases written : maps.writes address with
    | some place =>
      have here : maps.toBus.write memory address byte = Function.update memory place byte := by
        simp only [PageMaps.toBus, written]
      rw [here]
      rfl
    | none =>
      have here : maps.toBus.write memory address byte = memory := by
        simp only [PageMaps.toBus, written]
      rw [here]
      rfl

/-- A load stores each byte at the place of its address, the last one where addresses share a
place, and touches no other. -/
def Stores (maps : PageMaps κ) : Prop :=
  ∀ memory memory' saver loader deck timex, Asked maps.toBus memory saver loader deck →
    carry loader.f_ = true → ∃ r memory₁,
      tapeLoadTrap maps.toBus timex deck loader memory' = some (r, memory₁)
      ∧ ∀ place, memory₁ place = (lastStored (maps.stores saver.ix
          (readBytes maps.toBus memory saver.ix saver.de.toNat)) place).getD (memory' place)

theorem stores (maps : PageMaps κ) : Stores maps := by
  intro memory memory' saver loader deck timex asked loading
  obtain ⟨r, loaded, -⟩ := loads maps.toBus memory memory' saver loader deck timex asked loading
  refine ⟨r, _, loaded, fun place => ?_⟩
  rw [writeBytes_eq, storeAll_apply]

end

/-- What was saved comes back from a load with the same flag, address and length, a verify
compares it, and no faulty block loads. -/
theorem tape_traps_agree (bus : Bus ω) {κ : Type} [DecidableEq κ] (maps : PageMaps κ) :
    Loads bus ∧ Verifies bus ∧ Rejects bus ∧ Stores maps :=
  ⟨loads bus, verifies bus, rejects bus, stores maps⟩

end FuseX.Tape.Trap
