import FuseX.Movie.Coder

/-!
# The movie recorder

`movie.c` with zlib and a little-endian host. What is written straight to the file is
`head`, what goes through `fwrite_compr` is `data`; `fileBytes` is the file once the
compressor has been flushed. The counts of frames and slices, which only a debug
print reads, are left out, and so is the name of the file. Of `movie_start` the answer
to the query and the result of `fopen` are the parameter `opened`.

`alaw_table` of `movie_tables.h` is a parameter.
-/

namespace FuseX.Movie

/-- A character of the format. -/
abbrev ascii (c : Char) : UInt8 :=
  c.toUInt8

/-! ## The machine -/

/-- `machine_current->machine`. -/
inductive Machine : Type
  | spectrum16 | spectrum48 | tc2048 | tc2068 | scorp | se
  | spectrum128 | plus2 | plus2A | plus3 | plus3E
  | ts2068
  | pent | pent512 | pent1024
  | spectrum48Ntsc
  | unknown
  deriving DecidableEq

/-- The screen types of the format. -/
inductive ScreenType : Type
  | standard | hiRes | hiColor | timex
  deriving DecidableEq

def ScreenType.code : ScreenType → UInt8
  | .standard => ascii '$'
  | .hiRes => ascii 'R'
  | .hiColor => ascii 'C'
  | .timex => ascii 'X'

/-- The setting `movie_compr`. -/
inductive MovieCompr : Type
  | none | lossless | high
  deriving DecidableEq

/-- What the recorder reads of the rest of the program. -/
structure Env : Type where
  machine : Machine
  timex : Bool
  /-- `scld_last_dec.name.hires` -/
  hires : Bool
  /-- `scld_last_dec.name.b1` -/
  b1 : Bool
  frameRate : Nat
  soundFreq : Nat
  soundChannels : Nat
  movieCompr : MovieCompr
  lastScreen : Screen

/-- `get_timing`. -/
def getTiming (env : Env) : UInt8 :=
  match env.machine with
  | .spectrum16 | .spectrum48 | .tc2048 | .tc2068 | .scorp | .se => ascii 'A'
  | .spectrum128 | .plus2 | .plus2A | .plus3 | .plus3E => ascii 'B'
  | .ts2068 => ascii 'C'
  | .pent | .pent512 | .pent1024 => ascii 'D'
  | .spectrum48Ntsc => ascii 'E'
  | .unknown => ascii '?'

/-- `get_screentype`. -/
def getScreentype (env : Env) : ScreenType :=
  if env.timex then
    if env.hires then .hiRes
    else if env.b1 then .hiColor
    else .timex
  else .standard

/-! ## The recorder -/

/-- The sound encodings of the format. -/
inductive SoundFormat : Type
  | pcm | uLaw | aLaw
  deriving DecidableEq

def SoundFormat.code : SoundFormat → UInt8
  | .pcm => ascii 'P'
  | .uLaw => ascii 'U'
  | .aLaw => ascii 'A'

/-- The static variables of `movie.c`. -/
structure Movie : Type where
  movieRecording : Bool
  moviePaused : Bool
  fmfScreen : UInt8
  /-- `fmf_compr` is not 0 -/
  fmfCompr : Bool
  freq : Nat
  stereo : Bool
  /-- `format`, with `none` for `'?'` -/
  format : Option SoundFormat
  framesiz : Nat
  /-- the file is open -/
  of : Bool
  head : List UInt8
  data : List UInt8

/-- The static variables at the start of the program. -/
def Movie.initial : Movie :=
  ⟨false, false, 0, true, 0, false, none, 4, false, [], []⟩

/-- `fwrite_compr`. -/
def fwriteCompr (bytes : List UInt8) (m : Movie) : Movie :=
  { m with data := m.data ++ bytes }

/-- The file, with what the compressor makes of the data. -/
def fileBytes (deflate : List UInt8 → List UInt8) (m : Movie) : List UInt8 :=
  m.head ++ if m.fmfCompr then deflate m.data else m.data

/-- `n & 0xff` and `n >> 8`. -/
def wordBytes (n : Nat) : List UInt8 :=
  [UInt8.ofNat n, UInt8.ofNat (n >>> 8)]

def areaHead (x y w h : Nat) : List UInt8 :=
  [ascii '$', UInt8.ofNat x] ++ wordBytes y ++ [UInt8.ofNat w] ++ wordBytes h

def frameHead (env : Env) : List UInt8 :=
  [ascii 'N', UInt8.ofNat env.frameRate, (getScreentype env).code, getTiming env]

/-- `movie_add_area` while the recorder is not paused. -/
def writeArea (env : Env) (x y w h : Nat) (m : Movie) : Option Movie :=
  (compressArea env.lastScreen x y w h 0).bind fun bitmap1 =>
    (compressArea env.lastScreen x y w h 8).bind fun attrib =>
      (if m.fmfScreen = ascii 'R' then compressArea env.lastScreen x y w h 16
        else some []).map fun hires =>
          fwriteCompr (areaHead x y w h ++ bitmap1 ++ attrib ++ hires) m

/-- `movie_start_frame`. -/
def movieStartFrame (env : Env) (m : Movie) : Option Movie :=
  let m := fwriteCompr (frameHead env) m
  if m.moviePaused then writeArea env 0 0 40 240 { m with moviePaused := false } else some m

/-- `movie_add_area`. -/
def movieAddArea (env : Env) (x y w h : Nat) (m : Movie) : Option Movie :=
  if m.moviePaused then movieStartFrame env m else writeArea env x y w h m

/-- `movie_init_sound`. -/
def movieInitSound (env : Env) (f : Nat) (s : Bool) (m : Movie) : Movie :=
  let format : SoundFormat := if env.movieCompr = .high then .aLaw else .pcm
  { m with
    format := some format
    freq := f
    stereo := s
    framesiz := (if s then 2 else 1) * (if format = .pcm then 2 else 1) }

/-- The first bytes of a file, `FMF_V1e`. -/
def magic : List UInt8 :=
  [ascii 'F', ascii 'M', ascii 'F', ascii '_', ascii 'V', ascii '1', ascii 'e']

/-- The character of a sound format. -/
def formatCode : Option SoundFormat → UInt8
  | none => ascii '?'
  | some format => format.code

def stereoCode (stereo : Bool) : UInt8 :=
  if stereo then ascii 'S' else ascii 'M'

/-- `movie_start_fmf`, when the file can be opened. -/
def movieStartFmf (env : Env) (m : Movie) : Option Movie :=
  let fmfCompr := env.movieCompr ≠ .none
  let m := movieInitSound env env.soundFreq (env.soundChannels = 2)
    { m with of := true, fmfCompr := fmfCompr, data := [] }
  movieAddArea env 0 0 40 240
    { m with
      head := magic ++ [if fmfCompr then ascii 'Z' else ascii 'U'] ++
        [UInt8.ofNat env.frameRate, (getScreentype env).code, getTiming env,
          formatCode m.format] ++ wordBytes m.freq ++ [stereoCode m.stereo, ascii '\n'] }

/-- `movie_start`. -/
def movieStart (env : Env) (opened : Bool) (m : Movie) : Option Movie :=
  if opened then (movieStartFmf env m).map fun m => { m with movieRecording := true }
  else some m

/-- `movie_stop`. -/
def movieStop (m : Movie) : Movie :=
  if ¬ m.moviePaused ∧ ¬ m.movieRecording then m
  else
    { fwriteCompr [ascii 'X'] m with
      format := none, of := false, movieRecording := false, moviePaused := false }

/-- `movie_pause`. -/
def moviePause (m : Movie) : Movie :=
  if ¬ m.moviePaused ∧ ¬ m.movieRecording then m
  else if m.movieRecording then { m with movieRecording := false, moviePaused := true }
  else { m with movieRecording := true, moviePaused := true }

/-! ## Sound -/

/-- A sample in memory. -/
def sampleBytes (sample : Int16) : List UInt8 :=
  [sample.toUInt16.toUInt8, (sample.toUInt16 >>> 8).toUInt8]

/-- What `write_alaw` makes of a sample. -/
def alaw (alawTable : Nat → UInt8) (sample : Int16) : UInt8 :=
  if 0 ≤ sample.toInt then alawTable (sample.toInt / 16).toNat
  else 0x7f &&& alawTable (-sample.toInt / 16).toNat

/-- `write_alaw`. It writes `sbuff` whenever that is full, and what is left of it. -/
def writeAlaw (alawTable : Nat → UInt8) (buff : List Int16) (len : Nat) : List UInt8 :=
  (buff.take len).map (alaw alawTable)

/-- `add_sound`. Of `len - 1` the low 16 bits are written. -/
def addSound (alawTable : Nat → UInt8) (buff : List Int16) (len : Nat) (m : Movie) : Movie :=
  fwriteCompr ([ascii 'S', formatCode m.format] ++ wordBytes m.freq ++ [stereoCode m.stereo] ++
    wordBytes ((len + 0xffff) % 0x10000) ++
    match m.format with
    | some .pcm => (buff.flatMap sampleBytes).take (len * m.framesiz)
    | some .aLaw => writeAlaw alawTable buff (len * m.framesiz)
    | _ => []) m

/-- The most samples a chunk of `movie_add_sound` takes. -/
def soundChunk (stereo : Bool) : Nat :=
  if stereo then 131072 else 65536

/-- `movie_add_sound`. -/
def movieAddSound (alawTable : Nat → UInt8) (buff : List Int16) (m : Movie) : Movie :=
  if buff = [] then m
  else
    let len := min buff.length (soundChunk m.stereo)
    movieAddSound alawTable (buff.drop len)
      (addSound alawTable buff (if m.stereo then len >>> 1 else len) m)
termination_by buff.length
decreasing_by
  have some : 0 < buff.length := List.length_pos_of_ne_nil (by assumption)
  have chunk : 0 < soundChunk m.stereo := by
    unfold soundChunk
    split <;> decide
  rw [List.length_drop]
  omega

/-! ## Calls -/

/-- The calls of the rest of the program. -/
inductive Call : Type
  | start (opened : Bool)
  | stop
  | pause
  | initSound (f : Nat) (s : Bool)
  | addSound (buff : List Int16)
  | startFrame
  | addArea (x y w h : Nat)

/-- A call and what the recorder finds then. -/
structure Act : Type where
  env : Env
  call : Call

/-- A call; there is none where the coder would write beyond its buffer. -/
def callMovie (alawTable : Nat → UInt8) (m : Movie) (act : Act) : Option Movie :=
  match act.call with
  | .start opened => movieStart act.env opened m
  | .stop => some (movieStop m)
  | .pause => some (moviePause m)
  | .initSound f s => some (movieInitSound act.env f s m)
  | .addSound buff => some (movieAddSound alawTable buff m)
  | .startFrame => movieStartFrame act.env m
  | .addArea x y w h => movieAddArea act.env x y w h m

/-- When the rest of the program makes a call: the menu offers no second recording,
`sound_frame` and `update_ui_screen` look at `movie_recording` first, sound comes in
whole frames and areas are on the screen. -/
def Calls (m : Movie) (act : Act) : Prop :=
  match act.call with
  | .start _ => m.of = false
  | .stop | .pause | .initSound _ _ => True
  | .addSound buff => m.movieRecording = true ∧ (m.stereo = true → 2 ∣ buff.length)
  | .startFrame => m.movieRecording = true
  | .addArea x y w h => m.movieRecording = true ∧ 0 < w ∧ x + w ≤ 40 ∧ 0 < h ∧ y + h ≤ 240

end FuseX.Movie
