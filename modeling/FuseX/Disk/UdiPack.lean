import FuseX.Disk.Udi

/-!
# Packing a track and turning it back

`Wrote` says what a write does to a slot. A packed track is a block of the file;
`Carries` says that a slot holds a block. `udiPack` and `udiCompress` lead to a
slot that carries the block of its track, if it has the room, and from any slot
that carries the block, in memory or read from the file, `udiUncompress` and
`udiUnpack` make the track again.
-/

namespace FuseX.Disk

open Lib

/-! ## Slots -/

/-- What a slot says of its track. -/
structure Track : Type where
  data : List UInt8
  clocks : List UInt8
  fm : List UInt8
  weak : List UInt8

namespace Slot

def track (s : Slot) : Track where
  data := s.read 0 s.cBpt
  clocks := s.read s.clocks (clen s.cBpt)
  fm := s.read s.fm (clen s.cBpt)
  weak := s.read s.weak (clen s.cBpt)

/-- The slot has room for its track and the bitmaps. -/
def Roomy (s : Slot) : Prop :=
  3 + s.cBpt + 3 * clen s.cBpt ≤ s.length

variable {s s' : Slot}

theorem length_read {start n : Nat} (inside : 3 + start + n ≤ s.length) :
    (s.read start n).length = n :=
  length_window inside

theorem read_add (s : Slot) (start m n : Nat) :
    s.read start (m + n) = s.read start m ++ s.read (start + m) n := by
  rw [read, read, read, window_add, Nat.add_assoc]

theorem read_split {start m n : Nat} {front back : List UInt8}
    (whole : s.read start (m + n) = front ++ back) (first : front.length = m)
    (inside : 3 + start + m ≤ s.length) : s.read start m = front ∧ s.read (start + m) n = back := by
  rw [read, read, ← Nat.add_assoc]
  exact window_split whole first inside

/-- Some bytes were written: they are there, and all else is as before. -/
structure Wrote (s : Slot) (start : Nat) (bytes : List UInt8) (s' : Slot) : Prop where
  length : s'.length = s.length
  header : ∀ i < 3, s'.getD i 0 = s.getD i 0
  written : s'.read start bytes.length = bytes
  apart : ∀ place n, place + n ≤ start ∨ start + bytes.length ≤ place →
    s'.read place n = s.read place n

namespace Wrote

variable {start : Nat} {bytes : List UInt8}

theorem cBpt (wrote : Wrote s start bytes s') : s'.cBpt = s.cBpt := by
  rw [Slot.cBpt, Slot.cBpt, wrote.header 0 (by decide), wrote.header 1 (by decide)]

theorem ttyp (wrote : Wrote s start bytes s') : s'.ttyp = s.ttyp :=
  wrote.header 2 (by decide)

/-- Writing what is there. -/
theorem same (s : Slot) (start : Nat) {n : Nat} (inside : 3 + start + n ≤ s.length) :
    Wrote s start (s.read start n) s where
  length := rfl
  header _ _ := rfl
  written := by rw [length_read inside]
  apart _ _ _ := rfl

end Wrote

theorem write_spec (start : Nat) (bytes : List UInt8)
    (inside : 3 + start + bytes.length ≤ s.length) :
    ∃ s', s.write start bytes = .ok s' ∧ Wrote s start bytes s' := by
  refine ⟨_, if_pos inside, ?_⟩
  refine ⟨length_splice inside, fun i low => ?_, window_splice inside, fun place n apart => ?_⟩
  · rw [List.getD_eq_getElem?_getD, List.getD_eq_getElem?_getD, getElem?_splice inside,
      if_neg (by omega)]
  · exact window_splice_apart inside (by omega)

theorem copy_spec {dst src n : Nat} (inside : 3 + dst + n ≤ s.length)
    (inside' : 3 + src + n ≤ s.length) :
    ∃ s', s.copy dst src n = .ok s' ∧ Wrote s dst (s.read src n) s' := by
  rw [copy]
  split
  · next same =>
    subst same
    exact ⟨s, rfl, .same s dst inside⟩
  · exact write_spec _ _ (by rwa [length_read inside'])

/-- The header after a change. -/
theorem getD_set (s : Slot) (i j : Nat) (b : UInt8) (inside : i < s.length) :
    (s.set i b).getD j 0 = if i = j then b else s.getD j 0 := by
  rw [List.getD_eq_getElem?_getD, List.getD_eq_getElem?_getD]
  by_cases same : i = j
  · subst same
    rw [List.getElem?_set_self inside, Option.getD_some, if_pos rfl]
  · rw [List.getElem?_set_ne same, if_neg same]

theorem read_set (s : Slot) {i : Nat} (b : UInt8) (header : i < 3) (start n : Nat) :
    read (s.set i b) start n = s.read start n := by
  rw [read, read, window, window, List.drop_set, if_pos (by omega)]

theorem read_setType (s : Slot) (ttyp : UInt8) (start n : Nat) :
    (s.setType ttyp).read start n = s.read start n :=
  read_set s ttyp (by decide) start n

theorem read_setLen (s : Slot) (len start n : Nat) :
    (s.setLen len).read start n = s.read start n := by
  rw [setLen, read_set _ _ (by decide), read_set _ _ (by decide)]

theorem setType_spec (s : Slot) (ttyp : UInt8) (inside : 3 ≤ s.length) :
    (s.setType ttyp).ttyp = ttyp ∧ (s.setType ttyp).cBpt = s.cBpt ∧
      (s.setType ttyp).length = s.length := by
  refine ⟨?_, ?_, by simp [setType]⟩
  · rw [Slot.ttyp, setType, getD_set _ _ _ _ (by omega), if_pos rfl]
  · rw [cBpt, cBpt, setType, getD_set _ _ _ _ (by omega), getD_set _ _ _ _ (by omega)]
    rfl

/-- The track depends on the length and what is behind the header. -/
theorem track_congr (cBpt : s'.cBpt = s.cBpt) (reads : ∀ start n, s'.read start n = s.read start n) :
    s'.track = s.track := by
  simp only [track, clocks, fm, weak, cBpt, reads]

/-- A header written whole. -/
theorem header_set (s : Slot) (ttyp : UInt8) {len : Nat} (inside : 3 ≤ s.length) (word : len < 2 ^ 16) :
    ((s.setType ttyp).setLen len).ttyp = ttyp ∧ ((s.setType ttyp).setLen len).cBpt = len ∧
      ((s.setType ttyp).setLen len).length = s.length := by
  refine ⟨?_, ?_, by simp [setType, setLen]⟩
  · rw [Slot.ttyp, setLen, setType, getD_set _ _ _ _ (by simp; omega),
      getD_set _ _ _ _ (by simp; omega), getD_set _ _ _ _ (by omega)]
    rfl
  · have low : ((s.setType ttyp).setLen len).getD 0 0 = UInt8.ofNat len := by
      rw [setLen, setType, getD_set _ _ _ _ (by simp; omega), getD_set _ _ _ _ (by simp; omega)]
      rfl
    have high : ((s.setType ttyp).setLen len).getD 1 0 = UInt8.ofNat (len / 256) := by
      rw [setLen, setType, getD_set _ _ _ _ (by simp; omega)]
      rfl
    rw [cBpt, low, high, UInt8.toNat_ofNat', UInt8.toNat_ofNat']
    omega

end Slot

/-! ## Types -/

theorem clen_pos {bpt : Nat} (some : 1 ≤ bpt) : 1 ≤ clen bpt := by
  rw [clen]
  split <;> omega

/-- The type of a track with or without FM and weak marks. -/
def typeOf (fm weak : Bool) : UInt8 :=
  (if fm then 0x02 else 0x00) ||| (if weak then 0x80 else 0x00)

theorem typeOf_bits (fm weak : Bool) :
    (typeOf fm weak &&& 0x02 ≠ 0 ↔ fm) ∧ (typeOf fm weak &&& 0x80 ≠ 0 ↔ weak) ∧
      (typeOf fm weak = 0x00 ∨ typeOf fm weak = 0x01 ↔ ¬ fm ∧ ¬ weak) ∧
      typeOf fm weak &&& 0x01 = 0 ∧ typeOf fm weak ≠ 0xf0 := by
  revert fm weak
  decide

theorem udiTlen_typeOf (fm weak : Bool) (bpt : Nat) :
    udiTlen (typeOf fm weak) bpt =
      bpt + clen bpt + (if fm then clen bpt else 0) + (if weak then clen bpt else 0) := by
  obtain ⟨two, eighty, -⟩ := typeOf_bits fm weak
  simp only [udiTlen, two, eighty]
  cases fm <;> cases weak <;> simp <;> omega

namespace Track

/-- The lengths of the parts. -/
structure Sized (t : Track) (bpt : Nat) : Prop where
  data : t.data.length = bpt
  clocks : t.clocks.length = clen bpt
  fm : t.fm.length = clen bpt
  weak : t.weak.length = clen bpt

/-- Some byte of FM marks. -/
def hasFm (t : Track) : Bool :=
  t.fm.any fun b => b ≠ 0

def hasWeak (t : Track) : Bool :=
  t.weak.any fun b => b ≠ 0

theorem fm_eq (t : Track) {bpt : Nat} (sized : t.Sized bpt) (clear : t.hasFm = false) :
    t.fm = List.replicate (clen bpt) 0 := by
  rw [List.eq_replicate_iff]
  refine ⟨sized.fm, fun b member => ?_⟩
  by_contra set
  have some : t.hasFm = true := List.any_eq_true.mpr ⟨b, member, decide_eq_true set⟩
  rw [clear] at some
  cases some

theorem weak_eq (t : Track) {bpt : Nat} (sized : t.Sized bpt) (clear : t.hasWeak = false) :
    t.weak = List.replicate (clen bpt) 0 := by
  rw [List.eq_replicate_iff]
  refine ⟨sized.weak, fun b member => ?_⟩
  by_contra set
  have some : t.hasWeak = true := List.any_eq_true.mpr ⟨b, member, decide_eq_true set⟩
  rw [clear] at some
  cases some

def type (t : Track) : UInt8 :=
  typeOf t.hasFm t.hasWeak

/-- The track without the bitmaps its type does not need. -/
def packed (t : Track) : List UInt8 :=
  t.data ++ t.clocks ++ (if t.hasFm then t.fm else []) ++ (if t.hasWeak then t.weak else [])

end Track

/-- `update_tracks_mode` gives the type of the track. -/
theorem updateMode_spec {s : Slot} (some : 1 ≤ s.cBpt) (roomy : s.Roomy) :
    (updateMode s).ttyp = s.track.type ∧ (updateMode s).cBpt = s.cBpt ∧
      (updateMode s).length = s.length ∧ (updateMode s).track = s.track := by
  rw [Slot.Roomy] at roomy
  have complement_ne : ∀ b, complement b ≠ 0 := by
    intro b
    rw [complement]
    omega
  have length : (s.read s.fm (clen s.cBpt)).length = clen s.cBpt := by
    apply Slot.length_read
    rw [Slot.fm, Slot.clocks]
    omega
  -- the complement of a promoted byte is never zero
  have mfm : ((s.read s.fm (clen s.cBpt)).any fun b => complement b ≠ 0) = true := by
    rw [List.any_eq_true]
    have nonempty := clen_pos some
    obtain ⟨b, member⟩ := List.exists_mem_of_length_pos (length ▸ nonempty)
    exact ⟨b, member, decide_eq_true (complement_ne b)⟩
  have first : updateMode s = if s.track.hasWeak then
      (s.setType (typeOf s.track.hasFm false)).setType
        ((s.setType (typeOf s.track.hasFm false)).ttyp ||| 0x80)
      else s.setType (typeOf s.track.hasFm false) := by
    have fm : ((s.read s.fm (clen s.cBpt)).any fun b => b ≠ 0) = s.track.hasFm := rfl
    have weak : ((s.read s.weak (clen s.cBpt)).any fun b => b ≠ 0) = s.track.hasWeak := rfl
    simp only [updateMode, mfm, fm, weak]
    cases s.track.hasFm <;> rfl
  have long : 3 ≤ s.length := by omega
  obtain ⟨ttyp, cBpt, length'⟩ := s.setType_spec (typeOf s.track.hasFm false) long
  generalize marked : s.setType (typeOf s.track.hasFm false) = s₁ at *
  have track : s₁.track = s.track := by
    refine Slot.track_congr cBpt fun start n => ?_
    rw [← marked, Slot.read_setType]
  cases weak : s.track.hasWeak
  · rw [first, weak]
    refine ⟨?_, cBpt, length', track⟩
    rw [Track.type, weak]
    exact ttyp
  · rw [first, weak]
    obtain ⟨ttyp', cBpt', length''⟩ := s₁.setType_spec (s₁.ttyp ||| 0x80) (by omega)
    refine ⟨?_, cBpt'.trans cBpt, length''.trans length', ?_⟩
    · rw [Track.type, weak, if_pos rfl, ttyp', ttyp]
      cases s.track.hasFm <;> rfl
    · rw [if_pos rfl, ← track]
      exact Slot.track_congr cBpt' fun start n => Slot.read_setType _ _ _ _

/-! ## Packing and unpacking -/

section Marks

variable {s : Slot} {t : Track}

theorem sized_track (roomy : s.Roomy) : s.track.Sized s.cBpt := by
  rw [Slot.Roomy] at roomy
  constructor
  · exact Slot.length_read (by omega)
  · exact Slot.length_read (by rw [Slot.clocks]; omega)
  · exact Slot.length_read (by rw [Slot.fm, Slot.clocks]; omega)
  · exact Slot.length_read (by unfold Slot.weak Slot.fm Slot.clocks; omega)

theorem packed_length {bpt : Nat} (sized : t.Sized bpt) : t.packed.length = udiTlen t.type bpt := by
  rw [Track.packed, Track.type, udiTlen_typeOf]
  cases t.hasFm <;> cases t.hasWeak <;>
    simp only [List.length_append, List.length_nil, sized.data, sized.clocks, sized.fm, sized.weak,
      if_true, if_false, Bool.false_eq_true]

/-- Packing puts the bitmaps of the type behind the data. -/
theorem udiPack_spec (roomy : s.Roomy) (type : s.ttyp = s.track.type) :
    ∃ s', udiPack s = .ok s' ∧ s'.length = s.length ∧ s'.cBpt = s.cBpt ∧ s'.ttyp = s.ttyp ∧
      s'.read 0 (udiTlen s.ttyp s.cBpt) = s.track.packed := by
  rw [Slot.Roomy] at roomy
  obtain ⟨two, eighty, plain, -⟩ := typeOf_bits s.track.hasFm s.track.hasWeak
  rw [← Track.type, ← type] at two eighty plain
  have clocks : s.copy s.cBpt s.clocks (clen s.cBpt) = .ok s := if_pos rfl
  have fm : s.copy (s.cBpt + clen s.cBpt) s.fm (clen s.cBpt) = .ok s := if_pos rfl
  have tlen : udiTlen s.ttyp s.cBpt = s.cBpt + clen s.cBpt +
      (if s.track.hasFm then clen s.cBpt else 0) + (if s.track.hasWeak then clen s.cBpt else 0) := by
    rw [type]
    exact udiTlen_typeOf _ _ _
  have front : s.read 0 (s.cBpt + clen s.cBpt) = s.track.data ++ s.track.clocks := by
    rw [Slot.read_add, Nat.zero_add]
    rfl
  rw [tlen, Track.packed]
  simp only [udiPack, clocks, two, plain, bind, Except.bind, pure, Except.pure]
  cases hasFm : s.track.hasFm <;> cases hasWeak : s.track.hasWeak
  · -- the data and the clock marks alone
    refine ⟨s, by simp, rfl, rfl, rfl, ?_⟩
    simpa using front
  · -- the weak marks go to the place of the FM marks
    have eighty' : s.ttyp &&& 0x80 ≠ 0 := eighty.mpr hasWeak
    obtain ⟨s', copied, wrote⟩ := Slot.copy_spec (s := s) (n := clen s.cBpt)
      (show 3 + (s.cBpt + clen s.cBpt) + clen s.cBpt ≤ s.length by omega)
      (show 3 + s.weak + clen s.cBpt ≤ s.length by unfold Slot.weak Slot.fm Slot.clocks; omega)
    refine ⟨s', by simp [eighty', copied], wrote.length, wrote.cBpt, wrote.ttyp, ?_⟩
    have weak := wrote.written
    rw [Slot.length_read (by unfold Slot.weak Slot.fm Slot.clocks; omega)] at weak
    have kept := wrote.apart 0 (s.cBpt + clen s.cBpt) (.inl (by omega))
    simp only [if_true, if_false, Bool.false_eq_true, Nat.add_zero, List.append_nil]
    rw [Slot.read_add, kept, front, Nat.zero_add, weak]
    rfl
  · -- the FM marks are in place
    have eighty' : s.ttyp &&& 0x80 = 0 := by
      by_contra set
      rw [eighty.mp set] at hasWeak
      cases hasWeak
    refine ⟨s, by simp [fm, eighty'], rfl, rfl, rfl, ?_⟩
    simp only [if_true, if_false, Bool.false_eq_true, Nat.add_zero, List.append_nil]
    rw [Slot.read_add, front, Nat.zero_add]
    rfl
  · -- all is in place
    have eighty' : s.ttyp &&& 0x80 ≠ 0 := eighty.mpr hasWeak
    have weak : s.copy (s.cBpt + clen s.cBpt + clen s.cBpt) s.weak (clen s.cBpt) = .ok s := if_pos rfl
    refine ⟨s, by simp [fm, eighty', weak], rfl, rfl, rfl, ?_⟩
    simp only [if_true]
    rw [Slot.read_add, Slot.read_add s 0 (s.cBpt + clen s.cBpt), front, Nat.zero_add, Nat.zero_add]
    rfl

/-- The marks that a type does not need are made again. -/
theorem fmMarks_eq {ttyp : UInt8} (even : ttyp &&& 0x01 = 0) (tlen : Nat) :
    fmMarks ttyp tlen = List.replicate (clen tlen) 0 := by
  simp only [fmMarks, even, ne_eq, not_true_eq_false, if_false]
  split
  · have zero : (List.replicate (clen tlen) (0 : UInt8)).getD (clen tlen - 1) 0 = 0 := by
      simp [List.getD_eq_getElem?_getD, List.getElem?_replicate]
      split <;> rfl
    rw [zero, UInt8.zero_and, List.set_replicate_self]
  · rfl

/-- From the packed bytes the track is made again. -/
theorem udiUnpack_spec (roomy : s.Roomy) (sized : t.Sized s.cBpt) (type : s.ttyp = t.type)
    (packed : s.read 0 (udiTlen s.ttyp s.cBpt) = t.packed) :
    ∃ s', udiUnpack s = .ok s' ∧ s'.length = s.length ∧ s'.cBpt = s.cBpt ∧ s'.track = t := by
  rw [Slot.Roomy] at roomy
  obtain ⟨two, eighty, -, even, -⟩ := typeOf_bits t.hasFm t.hasWeak
  rw [← Track.type, ← type] at two eighty even
  rw [type, Track.type, udiTlen_typeOf, Track.packed] at packed
  -- the parts of the packed bytes
  obtain ⟨front, weak⟩ := Slot.read_split packed
    (by cases t.hasFm <;> simp [sized.data, sized.clocks, sized.fm, Nat.add_assoc])
    (by cases t.hasFm <;> simp <;> omega)
  obtain ⟨front, fm⟩ := Slot.read_split front (by simp [sized.data, sized.clocks]) (by omega)
  obtain ⟨data, clocks⟩ := Slot.read_split front sized.data (by omega)
  rw [Nat.zero_add] at weak fm clocks
  -- first the weak marks
  have step₁ : ∃ s₁, (if s.ttyp &&& 0x80 ≠ 0 then
        s.copy s.weak (s.cBpt + clen s.cBpt + if s.ttyp &&& 0x02 ≠ 0 then clen s.cBpt else 0)
          (clen s.cBpt)
      else s.write s.weak (List.replicate (clen s.cBpt) 0)) = .ok s₁ ∧
      s.Wrote s.weak t.weak s₁ := by
    simp only [eighty, two]
    have inside : 3 + s.weak + clen s.cBpt ≤ s.length := by
      rw [Slot.weak, Slot.fm, Slot.clocks]
      omega
    cases hasWeak : t.hasWeak
    · obtain ⟨s₁, wrote⟩ := Slot.write_spec (s := s) s.weak (List.replicate (clen s.cBpt) 0)
        (by rwa [List.length_replicate])
      rw [t.weak_eq sized hasWeak]
      exact ⟨s₁, by simpa using wrote⟩
    · rw [hasWeak] at weak
      simp only [if_true] at weak ⊢
      rw [← weak]
      refine Slot.copy_spec inside ?_
      cases t.hasFm <;> simp <;> omega
  obtain ⟨s₁, done₁, wrote₁⟩ := step₁
  have kept₁ : ∀ place n, place + n ≤ s.weak → s₁.read place n = s.read place n :=
    fun place n below => wrote₁.apart place n (.inl below)
  -- then the FM marks
  have step₂ : ∃ s₂, (if s.ttyp &&& 0x02 ≠ 0 then
        s₁.copy s₁.fm (s.cBpt + clen s.cBpt) (clen s.cBpt)
      else s₁.write s₁.fm (fmMarks s.ttyp s.cBpt)) = .ok s₂ ∧ s₁.Wrote s₁.fm t.fm s₂ := by
    simp only [two]
    have inside : 3 + s₁.fm + clen s.cBpt ≤ s₁.length := by
      rw [Slot.fm, Slot.clocks, wrote₁.cBpt, wrote₁.length]
      omega
    cases hasFm : t.hasFm
    · obtain ⟨s₂, wrote⟩ := Slot.write_spec (s := s₁) s₁.fm (fmMarks s.ttyp s.cBpt)
        (by rwa [fmMarks_eq even, List.length_replicate])
      rw [fmMarks_eq even] at wrote
      rw [fmMarks_eq even, t.fm_eq sized hasFm]
      exact ⟨s₂, by simpa using wrote⟩
    · rw [hasFm] at fm
      simp only [if_true] at fm ⊢
      have place : s₁.fm = s.cBpt + clen s.cBpt := by rw [Slot.fm, Slot.clocks, wrote₁.cBpt]
      rw [← fm, ← kept₁ _ _ (by unfold Slot.weak Slot.fm Slot.clocks; omega), ← place]
      exact Slot.copy_spec inside inside
  obtain ⟨s₂, done₂, wrote₂⟩ := step₂
  have last : s₂.copy s₂.clocks s.cBpt (clen s.cBpt) = .ok s₂ := by
    rw [Slot.clocks, wrote₂.cBpt, wrote₁.cBpt]
    exact if_pos rfl
  refine ⟨s₂, ?_, wrote₂.length.trans wrote₁.length, wrote₂.cBpt.trans wrote₁.cBpt, ?_⟩
  · simp only [udiUnpack, bind, Except.bind]
    by_cases set₁ : s.ttyp &&& 0x80 = 0 <;> by_cases set₂ : s.ttyp &&& 0x02 = 0 <;>
      simp only [set₁, set₂, ne_eq, not_true_eq_false, not_false_eq_true, if_true, if_false,
        Nat.add_zero, Nat.add_sub_cancel] at done₁ done₂ ⊢ <;>
      simp only [done₁, done₂, last]
  · have same₁ := wrote₁.cBpt
    have same₂ := wrote₂.cBpt.trans same₁
    have fmPlace : s₁.fm = s.cBpt + clen s.cBpt := by rw [Slot.fm, Slot.clocks, same₁]
    have weakPlace : s.weak = s.cBpt + clen s.cBpt + clen s.cBpt := rfl
    have kept₂ : ∀ place n, place + n ≤ s.cBpt + clen s.cBpt → s₂.read place n = s.read place n :=
      fun place n below => (wrote₂.apart place n (.inl (by omega))).trans (kept₁ place n (by omega))
    have fm' : s₂.read s₁.fm (clen s.cBpt) = t.fm := by
      rw [← sized.fm]
      exact wrote₂.written
    have weak' : s₂.read s.weak (clen s.cBpt) = t.weak := by
      rw [wrote₂.apart _ _ (.inr (by rw [sized.fm]; omega)), ← sized.weak]
      exact wrote₁.written
    have track : s₂.track = ⟨s₂.read 0 s.cBpt, s₂.read s.cBpt (clen s.cBpt),
        s₂.read s₁.fm (clen s.cBpt), s₂.read s.weak (clen s.cBpt)⟩ := by
      simp only [Slot.track, Slot.clocks, Slot.fm, Slot.weak, same₁, same₂]
    rw [track, kept₂ _ _ (by omega), kept₂ _ _ (Nat.le_refl _), data, clocks, fm', weak']

end Marks

/-! ## Blocks -/

/-- A block of the file: its type, its length and the bytes behind. -/
structure Block : Type where
  type : UInt8
  len : Nat
  body : List UInt8

/-- The block of a track: compressed, if that is shorter. -/
def Track.block (zlib : Zlib) (t : Track) : Block :=
  match zlib.compress t.packed with
  | none => ⟨t.type, t.data.length, t.packed⟩
  | some data =>
      if data.length < 1 ∨ 65535 < data.length ∨ t.packed.length ≤ data.length then
        ⟨t.type, t.data.length, t.packed⟩
      else
        ⟨0xf0, data.length - 1,
          [t.type, UInt8.ofNat t.data.length, UInt8.ofNat (t.data.length / 256)] ++ data⟩

/-- A slot holds a block. -/
structure Carries (b : Block) (s : Slot) : Prop where
  room : 3 + b.body.length ≤ s.length
  ttyp : s.ttyp = b.type
  cBpt : s.cBpt = b.len
  body : s.read 0 b.body.length = b.body

theorem Slot.cBpt_lt (s : Slot) : s.cBpt < 2 ^ 16 := by
  have low := (s.getD 0 0).toNat_lt
  have high := (s.getD 1 0).toNat_lt
  rw [Slot.cBpt]
  omega

/-- The bytes of the length. -/
theorem Slot.ofNat_cBpt (s : Slot) :
    UInt8.ofNat s.cBpt = s.getD 0 0 ∧ UInt8.ofNat (s.cBpt / 256) = s.getD 1 0 := by
  have low := (s.getD 0 0).toNat_lt
  have high := (s.getD 1 0).toNat_lt
  constructor
  · apply UInt8.toNat_inj.mp
    rw [UInt8.toNat_ofNat', Slot.cBpt]
    omega
  · apply UInt8.toNat_inj.mp
    rw [UInt8.toNat_ofNat', Slot.cBpt]
    omega

section Blocks

variable {s : Slot} {t : Track} {zlib : Zlib}

/-- A block is plain, or the compressor makes it shorter. -/
theorem block_cases (zlib : Zlib) (t : Track) :
    (t.block zlib = ⟨t.type, t.data.length, t.packed⟩ ∧
      ∀ data, zlib.compress t.packed = some data →
        data.length < 1 ∨ 65535 < data.length ∨ t.packed.length ≤ data.length) ∨
    ∃ data, zlib.compress t.packed = some data ∧ 1 ≤ data.length ∧ data.length ≤ 65535 ∧
      data.length < t.packed.length ∧ t.block zlib = ⟨0xf0, data.length - 1,
        [t.type, UInt8.ofNat t.data.length, UInt8.ofNat (t.data.length / 256)] ++ data⟩ := by
  rw [Track.block]
  cases compressed : zlib.compress t.packed with
  | none => exact .inl ⟨rfl, fun data impossible => by cases impossible⟩
  | some data =>
    dsimp only
    by_cases large : data.length < 1 ∨ 65535 < data.length ∨ t.packed.length ≤ data.length
    · refine .inl ⟨if_pos large, fun data' same => ?_⟩
      obtain rfl := Option.some.inj same
      exact large
    · exact .inr ⟨data, rfl, by omega, by omega, by omega, if_neg large⟩

/-- A packed track becomes its block, where there is room for it. -/
theorem udiCompress_spec (roomy : s.Roomy) (some : 1 ≤ s.cBpt) (sized : t.Sized s.cBpt)
    (type : s.ttyp = t.type) (packed : s.read 0 (udiTlen s.ttyp s.cBpt) = t.packed) :
    (3 + (t.block zlib).body.length ≤ s.length →
      ∃ s', udiCompress zlib s = .ok s' ∧ s'.length = s.length ∧ Carries (t.block zlib) s') ∧
    (s.length < 3 + (t.block zlib).body.length → udiCompress zlib s = .error .outside) := by
  have long := packed_length sized
  rw [← type] at long
  have fits : udiTlen s.ttyp s.cBpt ≤ s.cBpt + 3 * clen s.cBpt := by
    rw [type, Track.type, udiTlen_typeOf]
    split <;> split <;> omega
  have notCompressed : s.ttyp ≠ 0xf0 := by
    rw [type]
    exact (typeOf_bits _ _).2.2.2.2
  have bitmap := clen_pos some
  rw [Slot.Roomy] at roomy
  rw [udiCompress, if_neg notCompressed]
  dsimp only
  rw [packed, ← long]
  rcases block_cases zlib t with ⟨plain, large⟩ | ⟨data, compressed, nonempty, word, short, block⟩
  · have carries : Carries (t.block zlib) s := by
      rw [plain]
      exact ⟨by dsimp only; omega, type, sized.data.symm, by dsimp only; rw [long]; exact packed⟩
    refine ⟨fun _ => ⟨s, ?_, rfl, carries⟩, fun tight => absurd carries.room (by omega)⟩
    cases compressed : zlib.compress t.packed with
    | none => rfl
    | some data =>
      have skip := large data compressed
      dsimp only
      split
      · rfl
      · rw [if_pos (by omega)]
  · rw [compressed]
    dsimp only
    rw [if_neg (by omega), if_neg (by omega)]
    obtain ⟨s₁, done₁, wrote₁⟩ := Slot.write_spec (s := s) 0
      [s.ttyp, s.getD 0 0, s.getD 1 0] (by simp; omega)
    rw [done₁, block]
    simp only [bind, Except.bind, pure, Except.pure, List.length_append, List.length_cons,
      List.length_nil]
    constructor
    · intro room
      obtain ⟨s₂, done₂, wrote₂⟩ := Slot.write_spec (s := s₁) 3 data
        (by rw [wrote₁.length]; omega)
      rw [done₂]
      obtain ⟨ttyp, cBpt, length⟩ := Slot.header_set s₂ 0xf0 (show 3 ≤ s₂.length by
        rw [wrote₂.length, wrote₁.length]; omega) (show data.length - 1 < 2 ^ 16 by omega)
      have length' := length.trans (wrote₂.length.trans wrote₁.length)
      refine ⟨_, rfl, length', by dsimp only [List.length_append]; simp; omega, ttyp, cBpt, ?_⟩
      have header : s₁.read 0 3 =
          [t.type, UInt8.ofNat t.data.length, UInt8.ofNat (t.data.length / 256)] := by
        rw [sized.data, s.ofNat_cBpt.1, s.ofNat_cBpt.2, ← type]
        exact wrote₁.written
      dsimp only
      rw [List.length_append, Slot.read_setLen, Slot.read_setType, Slot.read_add, Nat.zero_add]
      dsimp only [List.length_cons, List.length_nil]
      rw [wrote₂.apart 0 3 (.inl (Nat.le_refl _)), header, wrote₂.written]
    · intro tight
      rw [Slot.write, if_neg (by rw [wrote₁.length]; omega)]

/-- From a slot that carries the block the packed bytes are made again. -/
theorem udiUncompress_spec {bpt : Nat} (carries : Carries (t.block zlib) s) (sized : t.Sized bpt)
    (word : bpt < 2 ^ 16) (roomy : 3 + bpt + 3 * clen bpt ≤ s.length) :
    ∃ s', udiUncompress zlib s = .ok s' ∧ s'.length = s.length ∧ s'.cBpt = bpt ∧
      s'.ttyp = t.type ∧ s'.read 0 (udiTlen t.type bpt) = t.packed := by
  have long := packed_length sized
  have fits : udiTlen t.type bpt ≤ bpt + 3 * clen bpt := by
    rw [Track.type, udiTlen_typeOf]
    split <;> split <;> omega
  have notCompressed : t.type ≠ 0xf0 := (typeOf_bits _ _).2.2.2.2
  rw [udiUncompress]
  rcases block_cases zlib t with ⟨plain, -⟩ | ⟨data, compressed, nonempty, low, short, block⟩
  · rw [plain] at carries
    have ttyp := carries.ttyp
    have body := carries.body
    dsimp only at ttyp body
    rw [long] at body
    rw [if_pos (by rwa [ttyp])]
    exact ⟨s, rfl, rfl, carries.cBpt.trans sized.data, ttyp, body⟩
  · rw [block] at carries
    have room := carries.room
    have body := carries.body
    simp only [List.length_append, List.length_cons, List.length_nil] at room body
    obtain ⟨header, rest⟩ := Slot.read_split body rfl (by omega)
    have size : s.cBpt + 1 = data.length := by
      rw [carries.cBpt]
      dsimp only
      omega
    have header' : s.read 0 3 = [t.type, UInt8.ofNat bpt, UInt8.ofNat (bpt / 256)] := by
      rw [← sized.data]
      exact header
    have rest' : s.read 3 data.length = data := by
      rw [Nat.zero_add] at rest
      exact rest
    have length₀ : (UInt8.ofNat bpt).toNat + 256 * (UInt8.ofNat (bpt / 256)).toNat = bpt := by
      rw [UInt8.toNat_ofNat', UInt8.toNat_ofNat']
      omega
    have again := zlib.inflate_compress compressed
    rw [long] at again
    rw [if_neg (by rw [carries.ttyp]; simp)]
    simp only [header', List.getD_cons_zero, List.getD_cons_succ, length₀, Slot.read_setLen,
      Slot.read_setType, size, rest', again]
    obtain ⟨ttyp, cBpt, length⟩ := Slot.header_set s t.type (show 3 ≤ s.length by omega) word
    obtain ⟨s', done, wrote⟩ := Slot.write_spec (s := (s.setType t.type).setLen bpt) 0
      t.packed (by rw [length, long]; omega)
    refine ⟨s', done, wrote.length.trans length, wrote.cBpt.trans cBpt, wrote.ttyp.trans ttyp, ?_⟩
    rw [← long]
    exact wrote.written

end Blocks

end FuseX.Disk
