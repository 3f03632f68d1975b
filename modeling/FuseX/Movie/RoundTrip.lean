import FuseX.Lib.Runs
import FuseX.Movie.Written

/-!
# A movie tells what was recorded

Beside the recorder run the events that its calls stand for (`Session`), and what is
read of the file is compared with them.

The recorder never sets `fmf_screen`, so the third plane of an area in
high-resolution mode is not written. In the runs that record no such area the file
reads back as the events (`movie_round_trip`); `hiRes_movie_unreadable` is a movie
that does not.
-/

namespace FuseX.Movie

open Lib

variable {alawTable : Nat → UInt8} {deflate inflate : List UInt8 → List UInt8}

/-! ## What is recorded -/

/-- The recorder beside what its calls tell. -/
structure Session : Type where
  movie : Movie
  told : ScreenType × List Event

/-- The screen type of the last header or frame. -/
abbrev Session.announced (s : Session) : ScreenType := s.told.1

/-- What the calls so far stand for. -/
abbrev Session.events (s : Session) : List Event := s.told.2

def Session.initial : Session :=
  ⟨.initial, .standard, []⟩

/-- What the session tells after a call: a new recording begins with the whole screen,
sound samples and areas follow in the order of the calls, and an area after a pause
begins a new frame. -/
def tells (alawTable : Nat → UInt8) (s : Session) (act : Act) : ScreenType × List Event :=
  match act.call with
  | .start opened =>
      if opened then
        (getScreentype act.env, [areaEvent act.env 0 0 40 240 (getScreentype act.env)])
      else (s.announced, s.events)
  | .stop =>
      if ¬ s.movie.moviePaused ∧ ¬ s.movie.movieRecording then (s.announced, s.events)
      else (s.announced, s.events ++ [.stopped])
  | .pause | .initSound _ _ => (s.announced, s.events)
  | .addSound buff =>
      match s.movie.format with
      | none => (s.announced, s.events)
      | some format => (s.announced,
          s.events ++ soundEvents alawTable format s.movie.freq s.movie.stereo buff)
  | .startFrame =>
      (getScreentype act.env, s.events ++ frameEvents act.env s.movie.moviePaused)
  | .addArea x y w h =>
      if s.movie.moviePaused then
        (getScreentype act.env, s.events ++ frameEvents act.env true)
      else (s.announced, s.events ++ [areaEvent act.env x y w h s.announced])

def stepSession (alawTable : Nat → UInt8) (s : Session) (act : Act) : Option Session :=
  (callMovie alawTable s.movie act).map fun m =>
    ⟨m, tells alawTable s act⟩

/-- The call records an area in high-resolution mode. -/
def HiResArea (s : Session) (act : Act) : Prop :=
  match act.call with
  | .start opened => opened = true ∧ getScreentype act.env = .hiRes
  | .startFrame => s.movie.moviePaused = true ∧ getScreentype act.env = .hiRes
  | .addArea _ _ _ _ =>
      (if s.movie.moviePaused then getScreentype act.env else s.announced) = .hiRes
  | _ => False

/-! ## One call -/

/-- The recorder and its file agree with what the calls stand for. -/
structure Kept (s : Session) : Prop where
  unset : s.movie.fmfScreen = 0
  sound : s.movie.of = true → ∃ format, SoundSet s.movie format
  isOpen : s.movie.movieRecording = true ∨ s.movie.moviePaused = true → s.movie.of = true
  told : s.movie.head ≠ [] → ∃ begun,
    Reads readHeader s.movie.head (s.movie.fmfCompr, begun) ∧
    Told begun s.movie.data s.events (if s.movie.of then some s.announced else none)
  head : s.movie.of = true → s.movie.head ≠ []

theorem kept_initial : Kept .initial where
  unset := rfl
  sound := fun isOpen => by cases isOpen
  isOpen := fun active => by rcases active with active | active <;> cases active
  told := fun started => absurd rfl started
  head := fun isOpen => by cases isOpen

/-- The sound format that `movie_init_sound` chooses. -/
def soundFormat (env : Env) : SoundFormat :=
  if env.movieCompr = .high then .aLaw else .pcm

/-- The file header. -/
def fileHead (env : Env) : List UInt8 :=
  magic ++ [if env.movieCompr ≠ .none then ascii 'Z' else ascii 'U'] ++
    [UInt8.ofNat env.frameRate, (getScreentype env).code, getTiming env,
      formatCode (some (soundFormat env))] ++
    wordBytes env.soundFreq ++ [stereoCode (env.soundChannels = 2), ascii '\n']

/-- The recorder after a recording has been started. -/
def begun (env : Env) (m : Movie) : Movie :=
  { movieInitSound env env.soundFreq (env.soundChannels = 2) m with
    movieRecording := true
    moviePaused := false
    of := true
    fmfCompr := env.movieCompr ≠ .none
    head := fileHead env
    data := areaHead 0 0 40 240 ++ twoPlanes env.lastScreen 0 0 40 240 }

theorem movieStart_eq {env : Env} {m : Movie} (unset : m.fmfScreen = 0)
    (going : m.moviePaused = false) : movieStart env true m = some (begun env m) := by
  have area (m' : Movie) (unset' : m'.fmfScreen = 0) : writeArea env 0 0 40 240 m' = _ :=
    writeArea_eq onScreen_whole unset'
  rw [movieStart, if_pos rfl, movieStartFmf]
  simp only [movieAddArea, movieInitSound, going, Bool.false_eq_true, if_false]
  rw [area]
  · rfl
  · exact unset

theorem movieAddArea_eq {env : Env} {x y w h : Nat} {m : Movie} (on : OnScreen x y w h)
    (unset : m.fmfScreen = 0) :
    movieAddArea env x y w h m = some (m.grown false
      (if m.moviePaused then frameBytes env true
        else areaHead x y w h ++ twoPlanes env.lastScreen x y w h)) := by
  rw [movieAddArea]
  by_cases paused : m.moviePaused = true
  · rw [if_pos paused, if_pos paused, movieStartFrame_eq unset, paused]
  · have going : m.moviePaused = false := Bool.not_eq_true _ ▸ paused
    rw [if_neg paused, if_neg paused, writeArea_eq on unset, going]

theorem Kept.paused {s : Session} (kept : Kept s) (closed : s.movie.of = false) :
    s.movie.moviePaused = false := by
  by_contra paused
  have isOpen := kept.isOpen (.inr (by simpa using paused))
  rw [closed] at isOpen
  cases isOpen

/-- No call writes beyond the buffer of the coder. -/
theorem Kept.total {s : Session} (kept : Kept s) {act : Act} (calls : Calls s.movie act) :
    ∃ next, stepSession alawTable s act = some next := by
  have found : ∃ m, callMovie alawTable s.movie act = some m := by
    obtain ⟨env, call⟩ := act
    cases call with
    | start opened =>
      cases opened with
      | false => exact ⟨_, rfl⟩
      | true => exact ⟨_, movieStart_eq kept.unset (kept.paused calls)⟩
    | stop => exact ⟨_, rfl⟩
    | pause => exact ⟨_, rfl⟩
    | initSound f s => exact ⟨_, rfl⟩
    | addSound buff => exact ⟨_, rfl⟩
    | startFrame => exact ⟨_, movieStartFrame_eq kept.unset⟩
    | addArea x y w h =>
      obtain ⟨-, wide, right, high, bottom⟩ := calls
      exact ⟨_, movieAddArea_eq ⟨wide, right, high, bottom⟩ kept.unset⟩
  obtain ⟨m, called⟩ := found
  exact ⟨_, by rw [stepSession, called]; rfl⟩

theorem soundSet_movieInitSound (env : Env) (f : Nat) (s : Bool) (m : Movie) :
    SoundSet (movieInitSound env f s m) (soundFormat env) where
  chosen := rfl
  written := by
    unfold soundFormat
    split <;> decide
  framesiz := rfl

theorem reads_fileHead (env : Env) :
    Reads readHeader (fileHead env) (decide (env.movieCompr ≠ .none), getScreentype env) := by
  intro rest
  have bytes : fileHead env ++ rest = magic ++
      ((if env.movieCompr ≠ .none then ascii 'Z' else ascii 'U') ::
        UInt8.ofNat env.frameRate :: ([(getScreentype env).code] ++ (getTiming env ::
          ([formatCode (some (soundFormat env))] ++ (wordBytes env.soundFreq ++
            ([stereoCode (env.soundChannels = 2)] ++ ([ascii '\n'] ++ rest))))))) := by
    simp only [fileHead, List.append_assoc, List.cons_append, List.nil_append]
  rw [bytes, readHeader, Parser.andThen, reads_expect, Option.bind_some, Parser.andThen,
    Parser.next, Option.bind_some, Parser.andThen, Parser.next, Option.bind_some, Parser.andThen,
    reads_screentype, Option.bind_some, Parser.andThen, Parser.next, Option.bind_some,
    Parser.andThen, reads_format, Option.bind_some, Parser.andThen, reads_word, Option.bind_some,
    Parser.andThen, reads_stereo, Option.bind_some, Parser.andThen, reads_expect, Option.bind_some]
  by_cases none : env.movieCompr = .none
  · simp only [none, ne_eq, not_true_eq_false, if_false, if_true, decide_false]
    rfl
  · simp only [none, ne_eq, not_false_eq_true, if_true, decide_true]
    rfl

/-! ## A run -/

/-- The calls that the rest of the program makes, without areas in high-resolution
mode. -/
def noHiRes (s : Session) (act : Act) : Prop :=
  Calls s.movie act ∧ ¬ HiResArea s act

/-- What is told while a recording is open. -/
theorem Kept.open_told {s : Session} (kept : Kept s) (isOpen : s.movie.of = true) :
    ∃ begun, Reads readHeader s.movie.head (s.movie.fmfCompr, begun) ∧
      Told begun s.movie.data s.events (some s.announced) := by
  obtain ⟨begun, header, told⟩ := kept.told (kept.head isOpen)
  rw [if_pos isOpen] at told
  exact ⟨begun, header, told⟩

/-- A write to the open file. -/
theorem Kept.write {s : Session} (kept : Kept s) (isOpen : s.movie.of = true) {paused : Bool}
    {written : List UInt8} {announced : ScreenType} {more : List Event}
    (grows : ∀ begun, Told begun s.movie.data s.events (some s.announced) →
      Told begun (s.movie.data ++ written) (s.events ++ more) (some announced)) :
    Kept ⟨s.movie.grown paused written, announced, s.events ++ more⟩ where
  unset := kept.unset
  sound := fun _ => by
    obtain ⟨format, set⟩ := kept.sound isOpen
    exact ⟨format, set.chosen, set.written, set.framesiz⟩
  isOpen := fun _ => isOpen
  told := fun _ => by
    obtain ⟨begun, header, told⟩ := kept.open_told isOpen
    refine ⟨begun, header, ?_⟩
    rw [if_pos (show (s.movie.grown paused written).of = true from isOpen)]
    exact grows begun told
  head := fun _ => kept.head isOpen

theorem Kept.stop {s : Session} (kept : Kept s) (env : Env) :
    Kept ⟨movieStop s.movie, tells alawTable s ⟨env, .stop⟩⟩ := by
  by_cases idle : ¬ s.movie.moviePaused ∧ ¬ s.movie.movieRecording
  · have same : tells alawTable s ⟨env, .stop⟩ = (s.announced, s.events) := if_pos idle
    rw [same, movieStop, if_pos idle]
    exact kept
  · have isOpen : s.movie.of = true := by
      apply kept.isOpen
      by_contra neither
      exact idle ⟨fun paused => neither (.inr paused), fun recording => neither (.inl recording)⟩
    have ended : tells alawTable s ⟨env, .stop⟩ = (s.announced, s.events ++ [.stopped]) :=
      if_neg idle
    obtain ⟨begun, header, data⟩ := kept.open_told isOpen
    rw [ended, movieStop, if_neg idle]
    refine
      { unset := kept.unset
        sound := fun isOpen => by cases isOpen
        isOpen := fun active => by rcases active with active | active <;> cases active
        told := fun _ => ⟨begun, header, ?_⟩
        head := fun isOpen => by cases isOpen }
    exact data.snoc (List.cons_ne_nil _ _) (reads_end s.announced)

theorem Kept.pause {s : Session} (kept : Kept s) :
    Kept ⟨moviePause s.movie, (s.announced, s.events)⟩ := by
  rw [moviePause]
  by_cases idle : ¬ s.movie.moviePaused ∧ ¬ s.movie.movieRecording
  · rw [if_pos idle]
    exact kept
  · have isOpen : s.movie.of = true := by
      apply kept.isOpen
      by_contra neither
      exact idle ⟨fun paused => neither (.inr paused), fun recording => neither (.inl recording)⟩
    have sound := kept.sound isOpen
    rw [if_neg idle]
    split
    · exact ⟨kept.unset, fun _ => sound.imp fun _ set => ⟨set.chosen, set.written, set.framesiz⟩,
        fun _ => isOpen, kept.told, kept.head⟩
    · exact ⟨kept.unset, fun _ => sound.imp fun _ set => ⟨set.chosen, set.written, set.framesiz⟩,
        fun _ => isOpen, kept.told, kept.head⟩

theorem Kept.addSound {s : Session} (kept : Kept s) {buff : List Int16} {env : Env}
    (calls : Calls s.movie ⟨env, .addSound buff⟩) :
    Kept ⟨movieAddSound alawTable buff s.movie, tells alawTable s ⟨env, .addSound buff⟩⟩ := by
  obtain ⟨recording, even⟩ := calls
  have isOpen := kept.isOpen (.inl recording)
  obtain ⟨format, set⟩ := kept.sound isOpen
  obtain ⟨begun, header, data⟩ := kept.open_told isOpen
  have more : tells alawTable s ⟨env, .addSound buff⟩ = (s.announced,
      s.events ++ soundEvents alawTable format s.movie.freq s.movie.stereo buff) := by
    simp only [tells, set.chosen]
  obtain ⟨written, added, -⟩ := @movieAddSound_told alawTable _ _ _ _ set _ _ even data
  rw [more, added]
  refine kept.write isOpen fun begun data => ?_
  obtain ⟨written', added', data'⟩ := @movieAddSound_told alawTable _ _ _ _ set _ _ even data
  have same : s.movie.data ++ written = s.movie.data ++ written' :=
    congrArg Movie.data (added.symm.trans added')
  rw [same]
  exact data'

theorem Kept.step {s next : Session} {act : Act} (kept : Kept s) (allowed : noHiRes s act)
    (stepEq : stepSession alawTable s act = some next) : Kept next := by
  obtain ⟨calls, two⟩ := allowed
  obtain ⟨env, call⟩ := act
  obtain ⟨m, called, rfl⟩ := Option.map_eq_some_iff.mp stepEq
  cases call with
  | start opened =>
    cases opened with
    | false =>
      cases called
      exact kept
    | true =>
      cases (movieStart_eq kept.unset (kept.paused calls)).symm.trans called
      have set := soundSet_movieInitSound env env.soundFreq (env.soundChannels = 2) s.movie
      refine
        { unset := kept.unset
          sound := fun _ => ⟨_, set.chosen, set.written, set.framesiz⟩
          isOpen := fun _ => rfl
          told := fun _ => ⟨getScreentype env, reads_fileHead env, ?_⟩
          head := fun _ => List.cons_ne_nil _ _ }
      have whole := (@Told.nil (getScreentype env)).snoc (List.cons_ne_nil _ _)
        (@reads_area env.lastScreen _ _ _ _ onScreen_whole _ fun hires => two ⟨rfl, hires⟩)
      exact whole
  | stop =>
    cases called
    exact kept.stop env
  | pause =>
    cases called
    exact kept.pause
  | initSound f stereo =>
    cases called
    exact ⟨kept.unset, fun _ => ⟨_, soundSet_movieInitSound env f stereo s.movie⟩, kept.isOpen,
      kept.told, kept.head⟩
  | addSound buff =>
    cases called
    exact kept.addSound calls
  | startFrame =>
    cases (movieStartFrame_eq kept.unset).symm.trans called
    exact kept.write (kept.isOpen (.inl calls)) fun begun told => told.frame two
  | addArea x y w h =>
    obtain ⟨recording, wide, right, high, bottom⟩ := calls
    have on : OnScreen x y w h := ⟨wide, right, high, bottom⟩
    have isOpen := kept.isOpen (.inl recording)
    cases (movieAddArea_eq on kept.unset).symm.trans called
    simp only [HiResArea] at two
    simp only [tells]
    by_cases paused : s.movie.moviePaused = true
    · rw [if_pos paused] at two
      rw [if_pos paused, if_pos paused]
      exact kept.write isOpen fun begun told => told.frame fun both => two both.2
    · rw [if_neg paused] at two
      rw [if_neg paused, if_neg paused]
      exact kept.write isOpen fun begun told =>
        told.snoc (List.cons_ne_nil _ _) (reads_area on two)

theorem kept_run {acts : List Act} {s : Session}
    (run : Runs (stepSession alawTable) noHiRes .initial acts s) : Kept s :=
  run.invariant kept_initial fun _ _ _ kept allowed stepEq => kept.step allowed stepEq

theorem Kept.readMovie {s : Session} (kept : Kept s) (started : s.movie.head ≠ [])
    (inflates : ∀ data, inflate (deflate data) = data) :
    readMovie inflate (fileBytes deflate s.movie) = some s.events := by
  obtain ⟨begun, header, told⟩ := kept.told started
  have stored : (if s.movie.fmfCompr then inflate
        (if s.movie.fmfCompr then deflate s.movie.data else s.movie.data)
      else (if s.movie.fmfCompr then deflate s.movie.data else s.movie.data)) = s.movie.data := by
    by_cases compr : s.movie.fmfCompr = true
    · rw [if_pos compr, if_pos compr, inflates]
    · rw [if_neg compr, if_neg compr]
  rw [Movie.readMovie, fileBytes, header, Option.bind_some]
  simp only [stored]
  exact told.readData

/-- What is promised of a recording. -/
structure Faithful (alawTable : Nat → UInt8) (deflate inflate : List UInt8 → List UInt8)
    (s : Session) : Prop where
  /-- the file tells what was recorded -/
  reads : s.movie.head ≠ [] → readMovie inflate (fileBytes deflate s.movie) = some s.events
  /-- no call writes beyond the coder's buffer -/
  total : ∀ act, Calls s.movie act → ∃ next, stepSession alawTable s act = some next
  /-- the coder is inverted on every plane -/
  inverts : ∀ (screen : Screen) (x y w h : Nat) (plane : UInt32), w ≤ 40 →
    ∃ code, compressArea screen x y w h plane = some code ∧
      Reads (readPlane (w * h)) code (planeBytes screen x y w h plane)

/-- A run that records no area in high-resolution mode is read back from its file. -/
theorem movie_round_trip (inflates : ∀ data, inflate (deflate data) = data) {acts : List Act}
    {s : Session} (run : Runs (stepSession alawTable) noHiRes .initial acts s) :
    Faithful alawTable deflate inflate s where
  reads := fun started => (kept_run run).readMovie started inflates
  total := fun _ calls => (kept_run run).total calls
  inverts := fun screen x y w h plane narrow =>
    ⟨_, compressArea_eq narrow, reads_planeCode screen x y w h plane⟩

/-- A 48K machine with a white screen. -/
def plain48 : Env where
  machine := .spectrum48
  timex := false
  hires := false
  b1 := false
  frameRate := 1
  soundFreq := 44100
  soundChannels := 1
  movieCompr := .none
  lastScreen := fun _ => 0x38ff

/-- The session after the start of a recording. -/
def startedAt (env : Env) : Session :=
  ⟨begun env .initial,
    (getScreentype env, [areaEvent env 0 0 40 240 (getScreentype env)])⟩

theorem stepSession_start (env : Env) :
    stepSession alawTable .initial ⟨env, .start true⟩ = some (startedAt env) := by
  have called : callMovie alawTable .initial ⟨env, .start true⟩ = some (begun env .initial) :=
    movieStart_eq rfl rfl
  show (callMovie alawTable .initial ⟨env, .start true⟩).map _ = _
  rw [called]
  rfl

theorem movie_round_trip_plain48 : Faithful (fun _ => 0) id id (startedAt plain48) := by
  have allowed : noHiRes .initial ⟨plain48, .start true⟩ :=
    ⟨rfl, fun hires => by cases hires.2⟩
  have run : Runs (stepSession fun _ => 0) noHiRes .initial ([] ++ [⟨plain48, .start true⟩])
      (startedAt plain48) := .snoc .nil allowed (stepSession_start plain48)
  exact movie_round_trip (fun _ => rfl) run

/-- A TC2048 in high-resolution mode. -/
def hiRes2048 : Env :=
  { plain48 with machine := .tc2048, timex := true, hires := true }

/-- The session after a recording that is stopped at once. -/
def stoppedAt (env : Env) : Session :=
  ⟨movieStop (begun env .initial), tells (fun _ => 0) (startedAt env) ⟨env, .stop⟩⟩

/-- The reader takes the end of the recording for the missing plane. -/
theorem readMovie_stoppedAt {env : Env} (hires : getScreentype env = .hiRes)
    (plain : env.movieCompr = .none) :
    readMovie id (fileBytes id (stoppedAt env).movie) = none := by
  have bytes : fileBytes id (stoppedAt env).movie = fileHead env ++
      (areaHead 0 0 40 240 ++ (twoPlanes env.lastScreen 0 0 40 240 ++ [ascii 'X'])) := by
    have data : (stoppedAt env).movie.data =
        areaHead 0 0 40 240 ++ (twoPlanes env.lastScreen 0 0 40 240 ++ [ascii 'X']) :=
      List.append_assoc _ _ _
    rw [fileBytes, data, id, ite_self]
    rfl
  have lost : readData .hiRes
      (areaHead 0 0 40 240 ++ (twoPlanes env.lastScreen 0 0 40 240 ++ [ascii 'X'])) = none := by
    have first := @readChunk_area_hiRes env.lastScreen _ _ _ _ onScreen_whole (by decide)
      (ascii 'X')
    have some : areaHead 0 0 40 240 ++ (twoPlanes env.lastScreen 0 0 40 240 ++ [ascii 'X']) ≠ [] :=
      List.cons_ne_nil _ _
    rw [readData, parseAll_none some first]
    rfl
  rw [readMovie, bytes, reads_fileHead, Option.bind_some, hires]
  simp only [plain, ne_eq, not_true_eq_false, decide_false, Bool.false_eq_true, if_false]
  exact lost

/-- A movie of a high-resolution screen, which ends at once. -/
theorem hiRes_movie_unreadable :
    ∃ s, Runs (stepSession fun _ => 0) (fun s act => Calls s.movie act) .initial
        [⟨hiRes2048, .start true⟩, ⟨hiRes2048, .stop⟩] s ∧
      s.movie.head ≠ [] ∧ readMovie id (fileBytes id s.movie) = none := by
  have first : Runs (stepSession fun _ => 0) (fun s act => Calls s.movie act) .initial
      ([] ++ [⟨hiRes2048, .start true⟩]) (startedAt hiRes2048) :=
    .snoc .nil rfl (stepSession_start hiRes2048)
  have run : Runs (stepSession fun _ => 0) (fun s act => Calls s.movie act) .initial
      ([] ++ [⟨hiRes2048, .start true⟩] ++ [⟨hiRes2048, .stop⟩]) (stoppedAt hiRes2048) :=
    .snoc first trivial rfl
  exact ⟨stoppedAt hiRes2048, run, List.cons_ne_nil _ _, readMovie_stoppedAt rfl rfl⟩

end FuseX.Movie
