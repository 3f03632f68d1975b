import FuseX.Movie.Reading

/-!
# What the recorder has written

`Told` says that data stand for events and in which state they leave the reader. Each
write of the recorder adds the chunks of its events: an area (`writeArea_eq`), a frame
(`movieStartFrame_eq`, `Told.frame`) and a buffer of sound, which is cut into chunks
(`movieAddSound_told`).
-/

namespace FuseX.Movie

open Lib

variable {alawTable : Nat → UInt8}

/-! ## The data so far -/

/-- Data that tell the events and end in a state of the reader. -/
def Told (begun : ScreenType) (data : List UInt8) (events : List Event)
    (state : Option ScreenType) : Prop :=
  ∃ items, Parsed readChunk (some begun) data items state ∧ items.flatten = events

section Told

variable {begun : ScreenType} {data written : List UInt8} {events more : List Event}
  {state state' : Option ScreenType}

theorem Told.snoc (told : Told begun data events state) (some : written ≠ [])
    (reads : Reads (readChunk state) written (more, state')) :
    Told begun (data ++ written) (events ++ more) state' := by
  obtain ⟨items, parsed, rfl⟩ := told
  refine ⟨items ++ [more], parsed.snoc some reads, ?_⟩
  rw [List.flatten_append, List.flatten_singleton]

theorem Told.nil : Told begun [] [] (some begun) :=
  ⟨[], .nil, rfl⟩

theorem Told.readData (told : Told begun data events state) :
    readData begun data = some events := by
  obtain ⟨items, parsed, rfl⟩ := told
  rw [Movie.readData, parsed.parseAll]
  rfl

end Told

/-! ## Areas and frames -/

def areaEvent (env : Env) (x y w h : Nat) (screentype : ScreenType) : Event :=
  .area x y w h (areaPlanes env.lastScreen x y w h screentype)

/-- A new frame; after a pause it has the whole screen. -/
def frameEvents (env : Env) (paused : Bool) : List Event :=
  frameEvent env :: if paused then [areaEvent env 0 0 40 240 (getScreentype env)] else []

theorem onScreen_whole : OnScreen 0 0 40 240 := by
  constructor <;> decide

/-- The recorder with other data written. -/
def Movie.grown (m : Movie) (paused : Bool) (written : List UInt8) : Movie :=
  { m with moviePaused := paused, data := m.data ++ written }

/-- What `movie_add_area` writes while `fmf_screen` is not set. -/
theorem writeArea_eq {env : Env} {x y w h : Nat} {m : Movie} (on : OnScreen x y w h)
    (unset : m.fmfScreen = 0) :
    writeArea env x y w h m = some (m.grown m.moviePaused
      (areaHead x y w h ++ twoPlanes env.lastScreen x y w h)) := by
  have narrow : w ≤ 40 := by
    have := on.right
    omega
  have other : ¬ m.fmfScreen = ascii 'R' := by
    rw [unset]
    decide
  rw [writeArea, compressArea_eq narrow, compressArea_eq narrow, Option.bind_some,
    Option.bind_some, if_neg other, Option.map_some, List.append_nil, List.append_assoc]
  rfl

/-- The bytes of a new frame. -/
def frameBytes (env : Env) (paused : Bool) : List UInt8 :=
  frameHead env ++
    if paused then areaHead 0 0 40 240 ++ twoPlanes env.lastScreen 0 0 40 240 else []

theorem movieStartFrame_eq {env : Env} {m : Movie} (unset : m.fmfScreen = 0) :
    movieStartFrame env m = some (m.grown false (frameBytes env m.moviePaused)) := by
  rw [movieStartFrame, frameBytes]
  by_cases paused : m.moviePaused = true
  · have whole : writeArea env 0 0 40 240
        { fwriteCompr (frameHead env) m with moviePaused := false } = _ :=
      writeArea_eq onScreen_whole unset
    rw [if_pos paused, if_pos (show (fwriteCompr (frameHead env) m).moviePaused = true from paused),
      whole]
    simp only [fwriteCompr, Movie.grown, List.append_assoc]
  · have going : m.moviePaused = false := Bool.not_eq_true _ ▸ paused
    rw [if_neg paused, if_neg (show ¬ (fwriteCompr (frameHead env) m).moviePaused = true from paused)]
    simp only [fwriteCompr, Movie.grown, List.append_nil, going]

/-- A new frame is told, unless it has an area in high-resolution mode. -/
theorem Told.frame {begun screentype : ScreenType} {data : List UInt8} {events : List Event}
    (told : Told begun data events (some screentype)) {env : Env} {paused : Bool}
    (two : ¬ (paused = true ∧ getScreentype env = .hiRes)) :
    Told begun (data ++ frameBytes env paused) (events ++ frameEvents env paused)
      (some (getScreentype env)) := by
  have framed := told.snoc (List.cons_ne_nil _ _) (reads_frame env screentype)
  rw [frameBytes, frameEvents]
  by_cases again : paused = true
  · rw [if_pos again, if_pos again]
    have whole := framed.snoc (List.cons_ne_nil _ _)
      (@reads_area env.lastScreen _ _ _ _ onScreen_whole _ fun hires => two ⟨again, hires⟩)
    rw [List.append_assoc, List.append_assoc] at whole
    exact whole
  · rw [if_neg again, if_neg again, List.append_nil]
    exact framed

/-! ## Sound -/

/-- The format of the sound and the size of its frames agree. -/
structure SoundSet (m : Movie) (format : SoundFormat) : Prop where
  chosen : m.format = some format
  written : format ≠ .uLaw
  framesiz : m.framesiz = channels m.stereo * if format = .pcm then 2 else 1

theorem flatMap_take_sampleBytes (buff : List Int16) (n : Nat) :
    (buff.flatMap sampleBytes).take (2 * n) = (buff.take n).flatMap sampleBytes := by
  induction n generalizing buff with
  | zero => rw [Nat.mul_zero, List.take_zero, List.take_zero, List.flatMap_nil]
  | succ n ih =>
    cases buff with
    | nil => rfl
    | cons sample buff =>
      rw [List.flatMap_cons, List.take_succ_cons, List.flatMap_cons, ← ih]
      rfl

/-- What `add_sound` writes for a chunk from the front of the buffer. -/
theorem addSound_eq {m : Movie} {format : SoundFormat} (set : SoundSet m format) {len : Nat}
    (buff : List Int16) :
    addSound alawTable buff len m = m.grown m.moviePaused
      (soundChunkBytes alawTable format m.freq m.stereo len
        (buff.take (len * channels m.stereo))) := by
  rw [addSound, soundChunkBytes, set.chosen]
  cases format with
  | pcm =>
    have size : len * m.framesiz = 2 * (len * channels m.stereo) := by
      rw [set.framesiz, if_pos rfl, ← Nat.mul_assoc, Nat.mul_comm]
    simp only [size, flatMap_take_sampleBytes]
    rfl
  | uLaw => exact absurd rfl set.written
  | aLaw =>
    have size : len * m.framesiz = len * channels m.stereo := by
      rw [set.framesiz, if_neg (by decide), Nat.mul_one]
    have codes : (buff.take (len * channels m.stereo)).flatMap (soundBytes alawTable .aLaw) =
        writeAlaw alawTable buff (len * channels m.stereo) := by
      rw [writeAlaw, List.map_eq_flatMap]
      rfl
    simp only [size, codes]
    rfl

/-- The first chunk of a buffer: its frames, and the samples that are taken off. -/
theorem movieAddSound_chunk {m : Movie} {buff : List Int16} (some : buff ≠ [])
    (even : m.stereo = true → 2 ∣ buff.length) :
    ∃ frames, 0 < frames ∧ frames ≤ 65536 ∧ frames * channels m.stereo ≤ buff.length ∧
      movieAddSound alawTable buff m =
        movieAddSound alawTable (buff.drop (frames * channels m.stereo))
          (addSound alawTable buff frames m) := by
  have positive := List.length_pos_of_ne_nil some
  rw [movieAddSound, if_neg some]
  cases stereo : m.stereo with
  | true =>
    obtain ⟨half, length_eq⟩ := even stereo
    have samples : min buff.length (soundChunk true) =
        min buff.length (soundChunk true) >>> 1 * channels true := by
      simp only [soundChunk, if_true, channels, Nat.shiftRight_eq_div_pow]
      omega
    refine ⟨min buff.length (soundChunk true) >>> 1, ?_, ?_, ?_, ?_⟩
    · simp only [soundChunk, if_true, Nat.shiftRight_eq_div_pow]
      omega
    · simp only [soundChunk, if_true, Nat.shiftRight_eq_div_pow]
      omega
    · rw [← samples]
      exact Nat.min_le_left _ _
    · rw [← samples]
      rfl
  | false =>
    refine ⟨min buff.length (soundChunk false), ?_, ?_, ?_, ?_⟩
    · simp only [soundChunk, Bool.false_eq_true, if_false]
      omega
    · simp only [soundChunk, Bool.false_eq_true, if_false]
      omega
    · rw [show channels false = 1 from rfl, Nat.mul_one]
      exact Nat.min_le_left _ _
    · rw [show channels false = 1 from rfl, Nat.mul_one]
      rfl

theorem soundChunkBytes_ne_nil {format : SoundFormat} {freq : Nat} {stereo : Bool} (len : Nat)
    (samples : List Int16) : soundChunkBytes alawTable format freq stereo len samples ≠ [] :=
  List.cons_ne_nil _ _

theorem soundEvents_append (format : SoundFormat) (freq : Nat) (stereo : Bool)
    (front back : List Int16) :
    soundEvents alawTable format freq stereo (front ++ back) =
      soundEvents alawTable format freq stereo front ++
        soundEvents alawTable format freq stereo back :=
  List.map_append

/-- Sound is written chunk by chunk and told sample by sample. -/
theorem movieAddSound_told {begun screentype : ScreenType} {m : Movie} {format : SoundFormat}
    (set : SoundSet m format) {events : List Event} {buff : List Int16}
    (even : m.stereo = true → 2 ∣ buff.length)
    (told : Told begun m.data events (some screentype)) :
    ∃ written, movieAddSound alawTable buff m = m.grown m.moviePaused written ∧
      Told begun (m.data ++ written)
        (events ++ soundEvents alawTable format m.freq m.stereo buff) (some screentype) := by
  induction size : buff.length using Nat.strong_induction_on generalizing buff m events with
  | _ n ih =>
    by_cases empty : buff = []
    · subst empty
      refine ⟨[], ?_, ?_⟩
      · rw [movieAddSound, if_pos rfl, Movie.grown, List.append_nil]
      · rw [List.append_nil, soundEvents, List.map_nil, List.append_nil]
        exact told
    · obtain ⟨frames, frames_pos, frames_le, fits, step⟩ :=
        @movieAddSound_chunk alawTable _ _ empty even
      have channels_pos : 0 < channels m.stereo := by
        unfold channels
        split <;> decide
      have positive : 0 < frames * channels m.stereo := Nat.mul_pos frames_pos channels_pos
      have taken : (buff.take (frames * channels m.stereo)).length =
          frames * channels m.stereo := by
        rw [List.length_take, Nat.min_eq_left fits]
      have chunk := told.snoc (soundChunkBytes_ne_nil _ _)
        (@reads_sound alawTable format m.freq m.stereo frames _ frames_pos frames_le taken screentype)
      have even' : m.stereo = true → 2 ∣ (buff.drop (frames * channels m.stereo)).length := by
        intro stereo
        have two := even stereo
        rw [stereo] at fits
        rw [List.length_drop, stereo]
        simp only [channels, if_true] at fits ⊢
        omega
      have shorter : (buff.drop (frames * channels m.stereo)).length < n := by
        rw [List.length_drop]
        omega
      have added := @addSound_eq alawTable m format set frames buff
      generalize soundChunkBytes alawTable format m.freq m.stereo frames
        (buff.take (frames * channels m.stereo)) = bytes at chunk added
      obtain ⟨written, rest, told'⟩ := @ih _ shorter (m.grown m.moviePaused bytes)
        ⟨set.chosen, set.written, set.framesiz⟩ _ _ even' chunk rfl
      refine ⟨bytes ++ written, ?_, ?_⟩
      · rw [step, added, rest]
        simp only [Movie.grown, List.append_assoc]
      · have whole := @soundEvents_append alawTable format m.freq m.stereo
          (buff.take (frames * channels m.stereo)) (buff.drop (frames * channels m.stereo))
        rw [List.take_append_drop] at whole
        rw [whole, ← List.append_assoc, ← List.append_assoc]
        exact told'

end FuseX.Movie
