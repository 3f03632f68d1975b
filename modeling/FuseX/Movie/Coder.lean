import FuseX.Lib.RunLength
import Mathlib.Algebra.Order.Group.Nat
import Mathlib.Data.List.Induction

/-!
# The run-length coder of the movie recorder

`movie_compress_area` of `movie.c` with its output buffer: a write to `*b++` fails
where the buffer is full, and `fwrite_compr` takes what the buffer holds.

* `pixel_spec` says what one pixel writes, `line_spec` what a line does;
* `compressArea_eq` says that no write fails and that what is written is the
  run-length code of the plane, so that `RunLength.reads_encode` reads it back.
-/

namespace FuseX.Movie

open Lib Lib.RunLength

/-- `display_last_screen`, row by row. -/
abbrev Screen : Type := Nat → UInt32

/-- `( *dpoint >> s ) & 0xff`. -/
def planeByte (s : UInt32) (pixel : UInt32) : UInt8 :=
  ((pixel >>> s) &&& 0xff).toUInt8

/-- The bytes of plane `s` on a line. -/
def lineBytes (screen : Screen) (s : UInt32) (dline w : Nat) : List UInt8 :=
  (List.range w).map fun i => planeByte s (screen (dline + i))

/-- The bytes of plane `s` in an area, line by line. -/
def planeBytes (screen : Screen) (x y w h : Nat) (s : UInt32) : List UInt8 :=
  (List.range h).flatMap fun k => lineBytes screen s (x + 40 * y + 40 * k) w

/-- The length of `buff`. -/
def buffSize : Nat := 960

/-- The variables of `movie_compress_area`. -/
structure Coder : Type where
  /-- what `fwrite_compr` was given -/
  written : List UInt8
  /-- from `buff` to `b` -/
  buff : List UInt8
  /-- `l`, with `none` for -1 -/
  l : Option Nat
  d1 : UInt8

/-- `*b++ = d`. -/
def put (d : UInt8) (c : Coder) : Option Coder :=
  if c.buff.length < buffSize then some { c with buff := c.buff ++ [d] } else none

/-- Saves the running length, if there is one. -/
def saveLength (c : Coder) : Option Coder :=
  match c.l with
  | none => some c
  | some l => (put (UInt8.ofNat l) c).map fun c => { c with l := none }

/-- The body of the inner loop. -/
def pixel (c : Coder) (d : UInt8) : Option Coder :=
  if d ≠ c.d1 then
    (saveLength c).bind fun c => (put d c).map fun c => { c with d1 := d }
  else
    match c.l with
    | some l =>
        if l = 255 then
          (put (UInt8.ofNat l) c).bind fun c => (put d c).map fun c => { c with l := none }
        else some { c with l := some (l + 1) }
    | none => (put d c).map fun c => { c with l := some 0 }

/-- `fwrite_compr( buff, b - buff, 1, of )`. -/
def flush (c : Coder) : Coder :=
  { c with written := c.written ++ c.buff, buff := [] }

/-- The body of the outer loop. -/
def compressLine (screen : Screen) (s : UInt32) (dline w : Nat) (c : Coder) : Option Coder :=
  ((lineBytes screen s dline w).foldlM pixel c).map fun c =>
    if c.buff.length > buffSize - 128 then flush c else c

/-- `movie_compress_area`: the bytes it writes. -/
def compressArea (screen : Screen) (x y w h : Nat) (s : UInt32) : Option (List UInt8) :=
  let dline := x + 40 * y
  let start : Coder := ⟨[], [], none, planeByte s (screen dline) + 1⟩
  (((List.range h).foldlM (fun c k => compressLine screen s (dline + 40 * k) w c) start).bind
    saveLength).map fun c => (flush c).written

/-! ## What the coder writes -/

/-- The counts of the code are bytes. -/
def counts : Counts UInt8 where
  limit := 255
  code := UInt8.ofNat
  value := UInt8.toNat
  value_code := fun l small => UInt8.toNat_ofNat_of_lt' (Nat.lt_succ_of_le small)

/-- What has been written so far. -/
def Coder.output (c : Coder) : List UInt8 :=
  c.written ++ c.buff

/-- The bytes in the buffer, with one for a length that is not saved. -/
def Coder.used (c : Coder) : Nat :=
  c.buff.length + c.l.toList.length

/-- The bytes `ds` have been coded: what is left to write is the code of the rest. -/
structure Coded (c : Coder) (ds : List UInt8) (c' : Coder) : Prop where
  output : ∀ rest, c'.output ++ encode counts c'.l c'.d1 rest
    = c.output ++ encode counts c.l c.d1 (ds ++ rest)
  used : c'.used ≤ c.used + 2 * ds.length

section Equations

variable {written buff : List UInt8} {l : Option Nat} {d d1 : UInt8}

theorem put_eq (room : buff.length < buffSize) :
    put d ⟨written, buff, l, d1⟩ = some ⟨written, buff ++ [d], l, d1⟩ :=
  if_pos room

theorem saveLength_eq (room : buff.length < buffSize) :
    saveLength ⟨written, buff, l, d1⟩ =
      some ⟨written, buff ++ l.toList.map counts.code, none, d1⟩ := by
  cases l with
  | none =>
    rw [Option.toList_none, List.map_nil, List.append_nil]
    rfl
  | some l =>
    show (put (UInt8.ofNat l) ⟨written, buff, some l, d1⟩).map _ = _
    rw [put_eq room]
    rfl

theorem pixel_new (new : d ≠ d1) (room : buff.length + l.toList.length < buffSize) :
    pixel ⟨written, buff, l, d1⟩ d =
      some ⟨written, buff ++ l.toList.map counts.code ++ [d], none, d⟩ := by
  have second : (buff ++ l.toList.map counts.code).length < buffSize := by
    rw [List.length_append, List.length_map]
    exact room
  rw [pixel, if_pos new, saveLength_eq (by omega), Option.bind_some, put_eq second]
  rfl

theorem pixel_second (room : buff.length < buffSize) :
    pixel ⟨written, buff, none, d⟩ d = some ⟨written, buff ++ [d], some 0, d⟩ := by
  rw [pixel, if_neg (not_not.mpr rfl)]
  show (put d ⟨written, buff, none, d⟩).map _ = _
  rw [put_eq room]
  rfl

theorem pixel_full (room : buff.length + 1 < buffSize) :
    pixel ⟨written, buff, some 255, d⟩ d =
      some ⟨written, buff ++ [255, d], none, d⟩ := by
  rw [pixel, if_neg (not_not.mpr rfl)]
  have second : (buff ++ [255]).length < buffSize := by
    rw [List.length_append, List.length_singleton]
    exact room
  show (put 255 ⟨written, buff, some 255, d⟩).bind _ = _
  rw [put_eq (Nat.lt_of_succ_lt room), Option.bind_some, put_eq second, List.append_assoc]
  rfl

theorem pixel_more {l : Nat} (more : l ≠ 255) :
    pixel ⟨written, buff, some l, d⟩ d = some ⟨written, buff, some (l + 1), d⟩ := by
  rw [pixel, if_neg (not_not.mpr rfl)]
  exact if_neg more

end Equations

theorem length_toList_le (l : Option Nat) : l.toList.length ≤ 1 := by
  cases l <;> simp

/-- One pixel writes at most two bytes, counting a length to be saved. -/
theorem pixel_spec {c : Coder} {d : UInt8} (room : c.used + 2 ≤ buffSize) :
    ∃ c', pixel c d = some c' ∧ Coded c [d] c' := by
  obtain ⟨written, buff, l, d1⟩ := c
  simp only [Coder.used] at room
  by_cases new : d = d1
  · subst new
    cases l with
    | none =>
      refine ⟨_, pixel_second (by omega), fun rest => ?_, ?_⟩
      · simp only [Coder.output, List.singleton_append, encode_second, List.append_assoc]
      · simp [Coder.used]
    | some l =>
      rw [Option.toList_some, List.length_singleton] at room
      by_cases full : l = 255
      · subst full
        refine ⟨_, pixel_full (by omega), fun rest => ?_, ?_⟩
        · have step : encode counts (some 255) d (d :: rest) =
              255 :: d :: encode counts none d rest := encode_full counts
          simp only [Coder.output, List.singleton_append, step, List.append_assoc]
          rfl
        · simp [Coder.used]
      · refine ⟨_, pixel_more full, fun rest => ?_, ?_⟩
        · have step : encode counts (some l) d (d :: rest) =
              encode counts (some (l + 1)) d rest := encode_more counts full
          simp only [Coder.output, List.singleton_append, step]
        · simp [Coder.used]
  · refine ⟨_, pixel_new new (by omega), fun rest => ?_, ?_⟩
    · simp only [Coder.output, List.singleton_append, encode_new counts new, List.append_assoc]
    · simp only [Coder.used, List.length_append, List.length_map, List.length_singleton,
        Option.toList_none, List.length_nil]
      omega

theorem Coded.trans {c c' c'' : Coder} {ds ds' : List UInt8} (first : Coded c ds c')
    (second : Coded c' ds' c'') : Coded c (ds ++ ds') c'' where
  output := fun rest => by rw [second.output, first.output, List.append_assoc]
  used := by
    have one := first.used
    have two := second.used
    rw [List.length_append]
    omega

theorem Coded.refl (c : Coder) : Coded c [] c where
  output := fun _ => rfl
  used := Nat.le_add_right _ _

theorem pixels_spec {ds : List UInt8} {c : Coder} (room : c.used + 2 * ds.length ≤ buffSize) :
    ∃ c', ds.foldlM pixel c = some c' ∧ Coded c ds c' := by
  induction ds generalizing c with
  | nil => exact ⟨c, rfl, Coded.refl c⟩
  | cons d ds ih =>
    rw [List.length_cons] at room
    obtain ⟨c₁, first, coded⟩ := @pixel_spec c d (by omega)
    have used := coded.used
    rw [List.length_singleton] at used
    obtain ⟨c₂, others, coded'⟩ := ih (c := c₁) (by omega)
    refine ⟨c₂, ?_, coded.trans coded'⟩
    rw [List.foldlM_cons, first]
    exact others

/-- The buffer at the start of a line. -/
def Room (c : Coder) : Prop :=
  c.buff.length ≤ buffSize - 128

theorem length_lineBytes (screen : Screen) (s : UInt32) (dline w : Nat) :
    (lineBytes screen s dline w).length = w := by
  rw [lineBytes, List.length_map, List.length_range]

theorem line_spec {screen : Screen} {s : UInt32} {dline w : Nat} {c : Coder} (narrow : w ≤ 40)
    (room : Room c) :
    ∃ c', compressLine screen s dline w c = some c' ∧ Room c' ∧
      ∀ rest, c'.output ++ encode counts c'.l c'.d1 rest
        = c.output ++ encode counts c.l c.d1 (lineBytes screen s dline w ++ rest) := by
  have saved := length_toList_le c.l
  have fits : c.used + 2 * (lineBytes screen s dline w).length ≤ buffSize := by
    rw [Room] at room
    rw [length_lineBytes, Coder.used, buffSize] at *
    omega
  obtain ⟨c', line, coded⟩ := pixels_spec fits
  rw [compressLine, line, Option.map_some]
  by_cases long : c'.buff.length > buffSize - 128
  · rw [if_pos long]
    refine ⟨flush c', rfl, Nat.zero_le _, fun rest => ?_⟩
    rw [← coded.output]
    simp only [Coder.output, flush, List.append_nil]
  · rw [if_neg long]
    exact ⟨c', rfl, Nat.not_lt.mp long, coded.output⟩

theorem lines_spec {screen : Screen} {s : UInt32} {dline w : Nat} {c : Coder} (narrow : w ≤ 40)
    (room : Room c) (ks : List Nat) :
    ∃ c', ks.foldlM (fun c k => compressLine screen s (dline + 40 * k) w c) c = some c' ∧
      Room c' ∧ ∀ rest, c'.output ++ encode counts c'.l c'.d1 rest
        = c.output ++ encode counts c.l c.d1
          (ks.flatMap (fun k => lineBytes screen s (dline + 40 * k) w) ++ rest) := by
  induction ks generalizing c with
  | nil => exact ⟨c, rfl, room, fun _ => rfl⟩
  | cons k ks ih =>
    obtain ⟨c₁, first, room₁, output₁⟩ := @line_spec screen s (dline + 40 * k) w c narrow room
    obtain ⟨c₂, others, room₂, output₂⟩ := ih room₁
    refine ⟨c₂, ?_, room₂, fun rest => ?_⟩
    · rw [List.foldlM_cons, first]
      exact others
    · rw [output₂, output₁, List.flatMap_cons, List.append_assoc]

/-- The code of a plane, begun with a byte that is not its first one. -/
def planeCode (screen : Screen) (x y w h : Nat) (s : UInt32) : List UInt8 :=
  encode counts none (planeByte s (screen (x + 40 * y)) + 1) (planeBytes screen x y w h s)

/-- No write goes beyond the buffer, and what is written is the code of the plane. -/
theorem compressArea_eq {screen : Screen} {x y w h : Nat} {s : UInt32} (narrow : w ≤ 40) :
    compressArea screen x y w h s = some (planeCode screen x y w h s) := by
  have room : Room ⟨[], [], none, planeByte s (screen (x + 40 * y)) + 1⟩ := Nat.zero_le _
  obtain ⟨⟨written, buff, l, d1⟩, lines, room', output⟩ :=
    @lines_spec screen s (x + 40 * y) w _ narrow room (List.range h)
  have fits : buff.length < buffSize := Nat.lt_of_le_of_lt room' (by decide)
  have whole := output []
  rw [List.append_nil] at whole
  rw [compressArea]
  simp only [lines, Option.bind_some, saveLength_eq fits, Option.map_some, flush]
  congr 1
  rw [planeCode, planeBytes]
  calc written ++ (buff ++ l.toList.map counts.code)
      = Coder.output ⟨written, buff, l, d1⟩ ++ encode counts l d1 [] := by
        rw [Coder.output, encode, List.append_assoc]
    _ = _ := whole

/-! ## Reading a plane -/

/-- Reads a plane of `n` bytes. -/
def readPlane (n : Nat) : Parser UInt8 (List UInt8) :=
  fun xs => decode counts xs n none

theorem length_planeBytes (screen : Screen) (x y w h : Nat) (s : UInt32) :
    (planeBytes screen x y w h s).length = w * h := by
  rw [planeBytes, List.length_flatMap]
  simp only [length_lineBytes, List.map_const', List.length_range,
    List.sum_replicate_nat]
  exact Nat.mul_comm h w

theorem head?_planeBytes (screen : Screen) (x y w h : Nat) (s : UInt32) :
    (planeBytes screen x y w h s).head? ≠ some (planeByte s (screen (x + 40 * y)) + 1) := by
  have other (d : UInt8) : d ≠ d + 1 := by
    intro same
    simp at same
  cases h with
  | zero => simp [planeBytes]
  | succ h =>
    cases w with
    | zero =>
      have empty : planeBytes screen x y 0 (h + 1) s = [] := by
        apply List.eq_nil_of_length_eq_zero
        rw [length_planeBytes, Nat.zero_mul]
      rw [empty]
      exact (Option.some_ne_none _).symm
    | succ w =>
      rw [planeBytes, List.range_succ_eq_map, List.flatMap_cons, lineBytes,
        List.range_succ_eq_map, List.map_cons, List.cons_append, List.head?_cons]
      exact fun same => other _ (Option.some.inj same)

/-- A plane is read back. -/
theorem reads_planeCode (screen : Screen) (x y w h : Nat) (s : UInt32) :
    Reads (readPlane (w * h)) (planeCode screen x y w h s) (planeBytes screen x y w h s) := by
  have reads := @reads_encode _ _ counts _ _ (head?_planeBytes screen x y w h s)
  rw [length_planeBytes] at reads
  exact reads

end FuseX.Movie
