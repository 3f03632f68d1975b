import FuseX.PhantomTypist.Machine
import FuseX.Lib.Runs

/-!
# What the phantom typist has to type

A mode has a script, of steps with the keys to be held down and a delay. A `Performance` of it
waits until the machine has read the whole keyboard in one frame, and then shows the steps one by
one: the keys of a step from the end of its delay on, until the frame ends in which the machine has
read the keyboard meanwhile. A performance that is stopped shows nothing any more.

`performs_run` is that the typist performs the script of its mode, unless it is activated or reset
while it is active, or a read of the keyboard completes its half rows between a deactivation and the
end of the frame.
-/

namespace FuseX.PhantomTypist

open Lib

/-! ## Scripts -/

/-- A step: the keys, and the number of the frame that shows them. -/
structure Step : Type where
  keys : List Key
  delay : Nat
deriving DecidableEq

/-- SS + P, after a delay. -/
def quote (delay : Nat) : Step :=
  ⟨[.symbol, .p], delay⟩

/-- L, O, A, D and the first quote. -/
def loadQuote : List Step :=
  [⟨[.l], 2⟩, ⟨[.o], 0⟩, ⟨[.a], 5⟩, ⟨[.d], 4⟩, quote 0]

/-- The second quote, C, O, D, E and Enter. -/
def quoteCode : List Step :=
  [quote 5, ⟨[.c], 0⟩, ⟨[.o], 4⟩, ⟨[.d], 0⟩, ⟨[.e], 4⟩, ⟨[.enter], 0⟩]

/-- Down, Enter and a pause. -/
def selectBasic : List Step :=
  [⟨[.caps, .six], 4⟩, ⟨[.enter], 10⟩, ⟨[], 28⟩]

/-- The steps of a mode. -/
def script : Mode → List Step
  | .jpp => [⟨[.j], 8⟩, quote 0, quote 5, ⟨[.enter], 0⟩]
  | .jppi => [⟨[.j], 8⟩, quote 0, quote 5, ⟨[.caps, .symbol], 0⟩, ⟨[.i], 4⟩, ⟨[.enter], 0⟩]
  | .enter => [⟨[.enter], 3⟩, ⟨[], 600⟩]
  | .downLoadppcode => selectBasic ++ loadQuote ++ quoteCode
  | .waitDownLoadppcode => ⟨[], 24⟩ :: (selectBasic ++ loadQuote ++ quoteCode)
  | .plus3CodeBlock =>
    [⟨[], 50⟩, ⟨[], 24⟩] ++ selectBasic ++ loadQuote ++
      [⟨[.t], 4⟩, ⟨[.symbol, .z], 4⟩, quote 5, ⟨[.enter], 0⟩] ++
      [⟨[.l], 5⟩, ⟨[.o], 30⟩, ⟨[.a], 5⟩, ⟨[.d], 4⟩, quote 0] ++ quoteCode
  | .loadpp => loadQuote ++ [quote 5, ⟨[.enter], 0⟩]
  | .loadppcode => loadQuote ++ quoteCode

/-- The key combinations of some steps. -/
def visible (steps : List Step) : List (List Key) :=
  (steps.map Step.keys).filter (· ≠ [])

/-! ## Performances -/

/-- What a performance is at: nothing, the wait for the keyboard to be read, a step of the script, or the
end of the frame in which it has been stopped. -/
inductive Performance : Type
  | idle
  | waiting (mode : Mode) (rows : UInt8)
  | typing (mode : Mode) (left : List Step) (wait : Nat) (read : Bool)
  | stopped

/-- The keys that are shown. -/
def Performance.keys : Performance → List Key
  | .typing _ (step :: _) 0 _ => step.keys
  | _ => []

/-- The first of some steps begins. -/
def Performance.begin (mode : Mode) : List Step → Performance
  | [] => .idle
  | step :: rest => .typing mode (step :: rest) (step.delay - 1) false

/-- The end of a frame. -/
def Performance.frame : Performance → Performance
  | .idle => .idle
  | .waiting mode rows => if rows = 0xff then .begin mode (script mode) else .waiting mode 0
  | .typing mode left (wait + 1) read => .typing mode left wait read
  | .typing mode left 0 false => .typing mode left 0 false
  | .typing mode left 0 true => .begin mode left.tail
  | .stopped => .idle

/-- The keyboard is read. -/
def Performance.read (port : UInt16) : Performance → Performance
  | .waiting mode rows => .waiting mode (rowsRead rows (port >>> 8).toUInt8)
  | .typing mode left 0 _ => .typing mode left 0 true
  | performance => performance

/-- It is stopped. -/
def Performance.stop : Performance → Performance
  | .idle => .idle
  | _ => .stopped

def Performance.step (performance : Performance) : Event → Performance
  | .ulaRead port => performance.read port
  | .frame => performance.frame
  | .activate setting machine needsCode => .waiting (modeFor (highlevelMode setting machine) needsCode) 0
  | .activateDisk => .waiting .enter 0
  | .deactivate => performance.stop
  | .reset => .idle

/-- The performance that some events make. -/
def perform (events : List Event) : Performance :=
  events.foldl Performance.step .idle

/-! ## What is shown -/

/-- An event that activates the typist. -/
def Event.activates : Event → Bool
  | .activate _ _ _ | .activateDisk => true
  | _ => false

/-- The key combinations shown since the last activation: one is shown when the keys that are held down
change to it. -/
def showStep (seen : Typist × List (List Key)) (event : Event) : Typist × List (List Key) :=
  let typist := seen.1.step event
  (typist,
    if event.activates then []
    else if typist.keys ≠ seen.1.keys ∧ typist.keys ≠ [] then seen.2 ++ [typist.keys]
    else seen.2)

def shown (events : List Event) : List (List Key) :=
  (events.foldl showStep (initial, [])).2

/-! ## The steps of the state machine -/

/-- The states of a mode, with the number of commands that have been typed. -/
def positions : Mode → List (TypistState × Nat)
  | .jpp => [(.load, 0), (.quote1, 0), (.quote2, 0), (.enter, 0)]
  | .jppi => [(.load, 0), (.quote1, 0), (.quote2, 0), (.extendedMode, 0), (.code, 0), (.enter, 0)]
  | .enter => [(.enterOnly, 0), (.waitAfterEnter, 0)]
  | .downLoadppcode =>
    [(.down, 0), (.selectBasic, 0), (.wait, 0), (.loadL, 0), (.loadO, 0), (.loadA, 0), (.loadD, 0), (.quote1, 0),
      (.quote2, 0), (.codeC, 0), (.codeO, 0), (.codeD, 0), (.codeE, 0), (.enter, 0)]
  | .waitDownLoadppcode =>
    [(.waitDown, 0), (.down, 0), (.selectBasic, 0), (.wait, 0), (.loadL, 0), (.loadO, 0), (.loadA, 0), (.loadD, 0),
      (.quote1, 0), (.quote2, 0), (.codeC, 0), (.codeO, 0), (.codeD, 0), (.codeE, 0), (.enter, 0)]
  | .plus3CodeBlock =>
    [(.longWaitDown, 0), (.waitDown, 0), (.down, 0), (.selectBasic, 0), (.wait, 0), (.loadL, 0), (.loadO, 0),
      (.loadA, 0), (.loadD, 0), (.quote1, 0), (.tcolonT, 0), (.tcolonColon, 0), (.quote2, 0), (.enter, 0),
      (.slowLoadL, 1), (.slowLoadO, 1), (.loadA, 1), (.loadD, 1), (.quote1, 1), (.quote2, 1), (.codeC, 1),
      (.codeO, 1), (.codeD, 1), (.codeE, 1), (.enter, 1)]
  | .loadpp => [(.loadL, 0), (.loadO, 0), (.loadA, 0), (.loadD, 0), (.quote1, 0), (.quote2, 0), (.enter, 0)]
  | .loadppcode =>
    [(.loadL, 0), (.loadO, 0), (.loadA, 0), (.loadD, 0), (.quote1, 0), (.quote2, 0), (.codeC, 0), (.codeO, 0),
      (.codeD, 0), (.codeE, 0), (.enter, 0)]

/-- The step of a state. -/
def stepOf (position : TypistState × Nat) : Step :=
  ⟨keysOf position.1, (stateInfo position.1).delayBeforeState⟩

theorem script_positions (mode : Mode) : script mode = (positions mode).map stepOf := by
  cases mode <;> rfl

/-- The number of commands when a state is left. -/
def countAfter (mode : Mode) (position : TypistState × Nat) : Nat :=
  if mode = .plus3CodeBlock ∧ position.1 = .enter then position.2 + 1 else position.2

/-- Each state leads to the one behind it, and the last one to the end; two combinations that are the same
do not follow one another at once. -/
def leads (mode : Mode) : List (TypistState × Nat) → Bool
  | [] => true
  | [position] =>
    position.1 ≠ .inactive ∧ position.1 ≠ .waiting ∧ nextOf mode position.2 position.1 = .inactive
  | position :: next :: rest =>
    (position.1 ≠ .inactive ∧ position.1 ≠ .waiting ∧ nextOf mode position.2 position.1 = next.1 ∧
      next.1 ≠ position.1 ∧ next.1 ≠ .inactive ∧ next.2 = countAfter mode position ∧
      (1 < (stepOf next).delay ∨ keysOf next.1 ≠ keysOf position.1)) ∧ leads mode (next :: rest)

theorem positions_leads (mode : Mode) : leads mode (positions mode) = true := by
  cases mode <;> decide

end FuseX.PhantomTypist
