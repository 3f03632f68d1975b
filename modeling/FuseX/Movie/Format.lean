import FuseX.Movie.Recorder

/-!
# The movie file format

The format as the comment at the top of `movie.c` describes it: a file header, then
chunks, each begun by its letter. A screen area has two planes, or three where the
last header or frame announced the high-resolution screen. After the chunk `X` there
is nothing more.

A file is read as the events it stands for: frames, areas with their planes and
single sound samples.
-/

namespace FuseX.Movie

open Lib

/-- A sound sample as it is written. -/
inductive Sample : Type
  | pcm (sample : Int16)
  | law (format : SoundFormat) (code : UInt8)
  deriving DecidableEq

/-- What a movie tells. -/
inductive Event : Type
  | frame (rate : UInt8) (screentype : ScreenType) (timing : UInt8)
  | area (x y w h : Nat) (planes : List (List UInt8))
  | sample (freq : Nat) (stereo : Bool) (value : Sample)
  | stopped
  deriving DecidableEq

/-! ## Fields -/

def readByte : Parser UInt8 Nat :=
  Parser.next.andThen fun b => Parser.pure b.toNat

/-- Two bytes, the low one first. -/
def readWord : Parser UInt8 Nat :=
  Parser.next.andThen fun lo => Parser.next.andThen fun hi =>
    Parser.pure (lo.toNat + 256 * hi.toNat)

def fail {β : Type} : Parser UInt8 β :=
  fun _ => none

/-- Reads the bytes given. -/
def expect : List UInt8 → Parser UInt8 Unit
  | [] => Parser.pure ()
  | b :: bs => Parser.next.andThen fun c => if c = b then expect bs else fail

def readScreentype : Parser UInt8 ScreenType :=
  Parser.next.andThen fun c =>
    if c = ascii '$' then Parser.pure .standard
    else if c = ascii 'R' then Parser.pure .hiRes
    else if c = ascii 'C' then Parser.pure .hiColor
    else if c = ascii 'X' then Parser.pure .timex
    else fail

def readFormat : Parser UInt8 SoundFormat :=
  Parser.next.andThen fun c =>
    if c = ascii 'P' then Parser.pure .pcm
    else if c = ascii 'U' then Parser.pure .uLaw
    else if c = ascii 'A' then Parser.pure .aLaw
    else fail

def readStereo : Parser UInt8 Bool :=
  Parser.next.andThen fun c =>
    if c = ascii 'S' then Parser.pure true
    else if c = ascii 'M' then Parser.pure false
    else fail

/-- A sample: 16 bits, the low byte first, or a byte of the law. -/
def readSample : SoundFormat → Parser UInt8 Sample
  | .pcm => readWord.andThen fun n => Parser.pure (.pcm (UInt16.ofNat n).toInt16)
  | .uLaw => Parser.next.andThen fun b => Parser.pure (.law .uLaw b)
  | .aLaw => Parser.next.andThen fun b => Parser.pure (.law .aLaw b)

/-! ## Chunks -/

/-- The number of planes of an area. -/
def planeCount (screentype : ScreenType) : Nat :=
  if screentype = .hiRes then 3 else 2

def readArea (screentype : ScreenType) : Parser UInt8 (List Event) :=
  readByte.andThen fun x => readWord.andThen fun y =>
    readByte.andThen fun w => readWord.andThen fun h =>
      ((readPlane (w * h)).times (planeCount screentype)).andThen fun planes =>
        Parser.pure [.area x y w h planes]

def readSound : Parser UInt8 (List Event) :=
  readFormat.andThen fun format => readWord.andThen fun freq =>
    readStereo.andThen fun stereo => readWord.andThen fun less =>
      ((readSample format).times ((less + 1) * if stereo then 2 else 1)).andThen fun samples =>
        Parser.pure (samples.map fun value => .sample freq stereo value)

def readFrame : Parser UInt8 (List Event × ScreenType) :=
  Parser.next.andThen fun rate => readScreentype.andThen fun screentype =>
    Parser.next.andThen fun timing =>
      Parser.pure ([.frame rate screentype timing], screentype)

/-- Reads a chunk. The state is the screen type announced, with `none` behind the end
of the recording. -/
def readChunk : Option ScreenType → Parser UInt8 (List Event × Option ScreenType)
  | none => fail
  | some screentype => Parser.next.andThen fun c =>
      if c = ascii '$' then
        (readArea screentype).andThen fun events => Parser.pure (events, some screentype)
      else if c = ascii 'S' then
        readSound.andThen fun events => Parser.pure (events, some screentype)
      else if c = ascii 'N' then
        readFrame.andThen fun read => Parser.pure (read.1, some read.2)
      else if c = ascii 'X' then Parser.pure ([.stopped], none)
      else fail

/-! ## Files -/

/-- Reads the file header: whether the data are compressed, and the screen type. -/
def readHeader : Parser UInt8 (Bool × ScreenType) :=
  (expect magic).andThen fun _ =>
    Parser.next.andThen fun compression =>
      Parser.next.andThen fun _ => readScreentype.andThen fun screentype =>
        Parser.next.andThen fun _ => readFormat.andThen fun _ =>
          readWord.andThen fun _ => readStereo.andThen fun _ =>
            (expect [ascii '\n']).andThen fun _ =>
              if compression = ascii 'U' then Parser.pure (false, screentype)
              else if compression = ascii 'Z' then Parser.pure (true, screentype)
              else fail

/-- Reads the chunks of a file. -/
def readData (screentype : ScreenType) (data : List UInt8) : Option (List Event) :=
  (parseAll readChunk data.length (some screentype) data).map fun read => read.1.flatten

/-- Reads a file. -/
def readMovie (inflate : List UInt8 → List UInt8) (bytes : List UInt8) : Option (List Event) :=
  (readHeader bytes).bind fun header =>
    readData header.1.2 (if header.1.1 then inflate header.2 else header.2)

end FuseX.Movie
