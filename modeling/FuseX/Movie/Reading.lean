import FuseX.Movie.Format

/-!
# Reading what the recorder writes

One lemma for each field and each chunk: the reader of `Format` gets back what the
recorder was given.
-/

namespace FuseX.Movie

open Lib

/-! ## Fields -/

theorem reads_byte {n : Nat} (small : n < 256) : Reads readByte [UInt8.ofNat n] n := by
  have value : (UInt8.ofNat n).toNat = n := UInt8.toNat_ofNat_of_lt' small
  have reads := (Reads.next (x := UInt8.ofNat n)).map (f := UInt8.toNat)
  rw [value] at reads
  exact reads

theorem reads_lowHigh (lo hi : UInt8) : Reads readWord [lo, hi] (lo.toNat + 256 * hi.toNat) :=
  fun _ => rfl

/-- Of a number that is too large the low 16 bits are read. -/
theorem reads_word (n : Nat) : Reads readWord (wordBytes n) (n % 65536) := by
  have reads := reads_lowHigh (UInt8.ofNat n) (UInt8.ofNat (n >>> 8))
  have value : (UInt8.ofNat n).toNat + 256 * (UInt8.ofNat (n >>> 8)).toNat = n % 65536 := by
    rw [UInt8.toNat_ofNat', UInt8.toNat_ofNat', Nat.shiftRight_eq_div_pow]
    omega
  rw [value] at reads
  exact reads

theorem reads_small_word {n : Nat} (small : n < 65536) : Reads readWord (wordBytes n) n := by
  have reads := reads_word n
  rw [Nat.mod_eq_of_lt small] at reads
  exact reads

theorem reads_screentype (screentype : ScreenType) :
    Reads readScreentype [screentype.code] screentype := by
  intro rest
  cases screentype <;> rfl

theorem reads_format (format : SoundFormat) :
    Reads readFormat [formatCode (some format)] format := by
  intro rest
  cases format <;> rfl

theorem reads_stereo (stereo : Bool) : Reads readStereo [stereoCode stereo] stereo := by
  intro rest
  cases stereo <;> rfl

theorem reads_expect (bytes : List UInt8) : Reads (expect bytes) bytes () := by
  induction bytes with
  | nil => exact Reads.pure
  | cons b bs ih =>
    intro rest
    have found : expect (b :: bs) (b :: (bs ++ rest)) = expect bs (bs ++ rest) :=
      congrFun (if_pos rfl) _
    exact found.trans (ih rest)

/-! ## Areas -/

/-- The planes of an area: two, and the third one in high-resolution mode. -/
def areaPlanes (screen : Screen) (x y w h : Nat) (screentype : ScreenType) :
    List (List UInt8) :=
  [planeBytes screen x y w h 0, planeBytes screen x y w h 8] ++
    if screentype = .hiRes then [planeBytes screen x y w h 16] else []

/-- An area of the screen, as the callers of `movie_add_area` have it. -/
structure OnScreen (x y w h : Nat) : Prop where
  wide : 0 < w
  right : x + w ≤ 40
  high : 0 < h
  bottom : y + h ≤ 240

variable {screen : Screen} {x y w h : Nat}

/-- The head of an area, and the planes behind it. -/
theorem readChunk_area (on : OnScreen x y w h) (screentype : ScreenType) (planes : List UInt8) :
    readChunk (some screentype) (areaHead x y w h ++ planes) =
      (((readPlane (w * h)).times (planeCount screentype)) planes).map fun read =>
        (([Event.area x y w h read.1], some screentype), read.2) := by
  have x_small : x < 256 := by
    have := on.right
    omega
  have y_small : y < 65536 := by
    have := on.bottom
    omega
  have w_small : w < 256 := by
    have := on.right
    omega
  have h_small : h < 65536 := by
    have := on.bottom
    omega
  have bytes : areaHead x y w h ++ planes = ascii '$' :: ([UInt8.ofNat x] ++ (wordBytes y ++
      ([UInt8.ofNat w] ++ (wordBytes h ++ planes)))) := by
    simp only [areaHead, List.append_assoc, List.cons_append, List.nil_append]
  have letter (rest : List UInt8) : readChunk (some screentype) (ascii '$' :: rest) =
      (readArea screentype rest).bind fun read =>
        some ((read.1, some screentype), read.2) := rfl
  rw [bytes, letter, readArea, Parser.andThen, reads_byte x_small, Option.bind_some,
    Parser.andThen, reads_small_word y_small, Option.bind_some, Parser.andThen,
    reads_byte w_small, Option.bind_some, Parser.andThen, reads_small_word h_small,
    Option.bind_some, Parser.andThen]
  cases ((readPlane (w * h)).times (planeCount screentype)) planes <;> rfl

/-- The code of two planes. -/
def twoPlanes (screen : Screen) (x y w h : Nat) : List UInt8 :=
  planeCode screen x y w h 0 ++ planeCode screen x y w h 8

theorem reads_twoPlanes : Reads ((readPlane (w * h)).times 2) (twoPlanes screen x y w h)
    [planeBytes screen x y w h 0, planeBytes screen x y w h 8] := by
  have second : Reads ((readPlane (w * h)).times 1) (planeCode screen x y w h 8)
      [planeBytes screen x y w h 8] :=
    (reads_planeCode screen x y w h 8).map (f := fun plane => [plane])
  exact (reads_planeCode screen x y w h 0).bind second.map

/-- An area in a mode with two planes. -/
theorem reads_area (on : OnScreen x y w h) {screentype : ScreenType}
    (two : screentype ≠ .hiRes) :
    Reads (readChunk (some screentype)) (areaHead x y w h ++ twoPlanes screen x y w h)
      ([.area x y w h (areaPlanes screen x y w h screentype)], some screentype) := by
  intro rest
  have count : planeCount screentype = 2 := if_neg two
  have planes : areaPlanes screen x y w h screentype =
      [planeBytes screen x y w h 0, planeBytes screen x y w h 8] := by
    rw [areaPlanes, if_neg two]
    rfl
  rw [List.append_assoc, readChunk_area on, count, reads_twoPlanes, planes]
  rfl

/-- The third plane of an area in high-resolution mode is not there. -/
theorem readChunk_area_hiRes (on : OnScreen x y w h) (large : 1 < w * h) (b : UInt8) :
    readChunk (some .hiRes) (areaHead x y w h ++ (twoPlanes screen x y w h ++ [b])) = none := by
  have third : readPlane (w * h) [b] = none := by
    obtain ⟨n, size⟩ : ∃ n, w * h = n + 2 := ⟨w * h - 2, by omega⟩
    rw [size]
    rfl
  rw [readChunk_area on, show planeCount .hiRes = 3 from rfl, twoPlanes, List.append_assoc]
  simp only [Parser.times, Parser.andThen, (reads_planeCode screen x y w h 0) _, Option.bind_some,
    (reads_planeCode screen x y w h 8) _, third, Option.bind_none, Option.map_none]

/-! ## Frames -/

def frameEvent (env : Env) : Event :=
  .frame (UInt8.ofNat env.frameRate) (getScreentype env) (getTiming env)

theorem reads_frame (env : Env) (screentype : ScreenType) :
    Reads (readChunk (some screentype)) (frameHead env)
      ([frameEvent env], some (getScreentype env)) := by
  intro rest
  have letter (rest : List UInt8) : readChunk (some screentype) (ascii 'N' :: rest) =
      (readFrame rest).bind fun read => some ((read.1.1, some read.1.2), read.2) := rfl
  rw [frameHead, List.cons_append, letter, readFrame]
  rw [List.cons_append, Parser.andThen, Parser.next, Option.bind_some, Parser.andThen,
    ← List.singleton_append, List.append_assoc, reads_screentype]
  rfl

theorem reads_end (screentype : ScreenType) :
    Reads (readChunk (some screentype)) [ascii 'X'] ([.stopped], none) :=
  fun _ => rfl

/-! ## Sound -/

/-- What a sound format makes of a sample. -/
def soundValue (alawTable : Nat → UInt8) : SoundFormat → Int16 → Sample
  | .pcm, sample => .pcm sample
  | format, sample => .law format (alaw alawTable sample)

/-- The bytes of a sample in a sound format. -/
def soundBytes (alawTable : Nat → UInt8) : SoundFormat → Int16 → List UInt8
  | .pcm, sample => sampleBytes sample
  | _, sample => [alaw alawTable sample]

theorem reads_pcm (sample : Int16) : Reads (readSample .pcm) (sampleBytes sample) (.pcm sample) := by
  have reads := reads_lowHigh sample.toUInt16.toUInt8 (sample.toUInt16 >>> 8).toUInt8
  have value : sample.toUInt16.toUInt8.toNat + 256 * (sample.toUInt16 >>> 8).toUInt8.toNat =
      sample.toUInt16.toNat := by
    have bound := sample.toUInt16.toNat_lt
    rw [UInt16.toNat_toUInt8, UInt16.toNat_toUInt8, UInt16.toNat_shiftRight]
    simp only [UInt16.reduceToNat, Nat.reduceMod, Nat.shiftRight_eq_div_pow]
    omega
  rw [value] at reads
  have whole := reads.map (f := fun n => Sample.pcm (UInt16.ofNat n).toInt16)
  rw [UInt16.ofNat_toNat, Int16.toInt16_toUInt16] at whole
  exact whole

theorem reads_sample (alawTable : Nat → UInt8) (format : SoundFormat) (sample : Int16) :
    Reads (readSample format) (soundBytes alawTable format sample)
      (soundValue alawTable format sample) := by
  cases format with
  | pcm => exact reads_pcm sample
  | uLaw => exact fun _ => rfl
  | aLaw => exact fun _ => rfl

def channels (stereo : Bool) : Nat :=
  if stereo then 2 else 1

/-- A chunk of `len` sound frames. -/
def soundChunkBytes (alawTable : Nat → UInt8) (format : SoundFormat) (freq : Nat) (stereo : Bool)
    (len : Nat) (samples : List Int16) : List UInt8 :=
  [ascii 'S', formatCode (some format)] ++ wordBytes freq ++ [stereoCode stereo] ++
    wordBytes ((len + 0xffff) % 0x10000) ++ samples.flatMap (soundBytes alawTable format)

/-- The events of a row of samples. -/
def soundEvents (alawTable : Nat → UInt8) (format : SoundFormat) (freq : Nat) (stereo : Bool)
    (samples : List Int16) : List Event :=
  samples.map fun sample => .sample (freq % 65536) stereo (soundValue alawTable format sample)

theorem reads_sound {alawTable : Nat → UInt8} {format : SoundFormat} {freq : Nat} {stereo : Bool}
    {len : Nat} {samples : List Int16} (some_len : 0 < len) (len_le : len ≤ 65536)
    (whole : samples.length = len * channels stereo) (screentype : ScreenType) :
    Reads (readChunk (some screentype))
      (soundChunkBytes alawTable format freq stereo len samples)
      (soundEvents alawTable format freq stereo samples, some screentype) := by
  intro rest
  have letter (rest : List UInt8) : readChunk (some screentype) (ascii 'S' :: rest) =
      (readSound rest).bind fun read => some ((read.1, some screentype), read.2) := rfl
  have bytes : soundChunkBytes alawTable format freq stereo len samples ++ rest =
      ascii 'S' :: ([formatCode (some format)] ++ (wordBytes freq ++ ([stereoCode stereo] ++
        (wordBytes ((len + 0xffff) % 0x10000) ++
          (samples.flatMap (soundBytes alawTable format) ++ rest))))) := by
    simp only [soundChunkBytes, List.append_assoc, List.cons_append, List.nil_append]
  have less : (len + 0xffff) % 0x10000 + 1 = len := by
    omega
  have samples_read := Reads.times (reads_sample alawTable format) samples
  rw [whole] at samples_read
  rw [bytes, letter, readSound, Parser.andThen, reads_format, Option.bind_some, Parser.andThen,
    reads_word, Option.bind_some, Parser.andThen, reads_stereo, Option.bind_some, Parser.andThen,
    reads_small_word (Nat.mod_lt _ (by decide)), Option.bind_some, Parser.andThen, less]
  show ((((readSample format).times (len * channels stereo)) _).bind _).bind _ = _
  rw [samples_read, soundEvents]
  simp only [Option.bind_some, Parser.pure, List.map_map]
  rfl

end FuseX.Movie
