import Mathlib.Data.List.Basic

/-!
# The phantom typist

To load a tape or a disk without the user, the phantom typist types the command: a state
machine that goes on when the keyboard has been read, at the end of a frame. The state here is
that of `phantom_typist.c`, with the keys that it holds down and the calls of
`timer_start_fastloading` and `timer_stop_fastloading` counted.
-/

namespace FuseX.PhantomTypist

/-- The keys that are typed. -/
inductive Key : Type
  | none | symbol | caps | enter | six | a | c | d | e | i | j | l | o | p | t | z
deriving DecidableEq

/-- `phantom_typist_highlevel_mode_t`. -/
inductive HighlevelMode : Type
  | keyword | keystroke | menu | plus2a | plus3
deriving DecidableEq

/-- `phantom_typist_mode_t`. -/
inductive Mode : Type
  | jpp | jppi | enter | downLoadppcode | waitDownLoadppcode | plus3CodeBlock | loadpp | loadppcode
deriving DecidableEq

/-- `phantom_typist_state_t`. -/
inductive TypistState : Type
  | inactive | waiting
  | load | quote1 | quote2 | enter
  | enterOnly | waitAfterEnter
  | loadL | loadO | loadA | loadD
  | extendedMode | code
  | codeC | codeO | codeD | codeE
  | longWaitDown | waitDown | down | selectBasic | wait
  | tcolonT | tcolonColon
  | slowLoadL | slowLoadO
deriving DecidableEq

/-- How the next state is found. -/
inductive Next : Type
  | state (next : TypistState)
  | tColonOrQuote | codeOrEnter | nextCommandOrEnd

/-- `state_info_t`. -/
structure StateInfo : Type where
  keysToPress : Key × Key
  next : Next
  delayBeforeState : Nat

/-- `state_info`. -/
def stateInfo : TypistState → StateInfo
  | .inactive => ⟨(.none, .none), .state .inactive, 0⟩
  | .waiting => ⟨(.none, .none), .state .inactive, 0⟩
  | .load => ⟨(.j, .none), .state .quote1, 8⟩
  | .quote1 => ⟨(.symbol, .p), .tColonOrQuote, 0⟩
  | .quote2 => ⟨(.symbol, .p), .codeOrEnter, 5⟩
  | .enter => ⟨(.enter, .none), .nextCommandOrEnd, 0⟩
  | .enterOnly => ⟨(.enter, .none), .state .waitAfterEnter, 3⟩
  | .waitAfterEnter => ⟨(.none, .none), .state .inactive, 600⟩
  | .loadL => ⟨(.l, .none), .state .loadO, 2⟩
  | .loadO => ⟨(.o, .none), .state .loadA, 0⟩
  | .loadA => ⟨(.a, .none), .state .loadD, 5⟩
  | .loadD => ⟨(.d, .none), .state .quote1, 4⟩
  | .extendedMode => ⟨(.caps, .symbol), .state .code, 0⟩
  | .code => ⟨(.i, .none), .state .enter, 4⟩
  | .codeC => ⟨(.c, .none), .state .codeO, 0⟩
  | .codeO => ⟨(.o, .none), .state .codeD, 4⟩
  | .codeD => ⟨(.d, .none), .state .codeE, 0⟩
  | .codeE => ⟨(.e, .none), .state .enter, 4⟩
  | .longWaitDown => ⟨(.none, .none), .state .waitDown, 50⟩
  | .waitDown => ⟨(.none, .none), .state .down, 24⟩
  | .down => ⟨(.caps, .six), .state .selectBasic, 4⟩
  | .selectBasic => ⟨(.enter, .none), .state .wait, 10⟩
  | .wait => ⟨(.none, .none), .state .loadL, 28⟩
  | .tcolonT => ⟨(.t, .none), .state .tcolonColon, 4⟩
  | .tcolonColon => ⟨(.symbol, .z), .state .quote2, 4⟩
  | .slowLoadL => ⟨(.l, .none), .state .slowLoadO, 5⟩
  | .slowLoadO => ⟨(.o, .none), .state .loadA, 30⟩

/-- The keys that are pressed in a state. -/
def keysOf (state : TypistState) : List Key :=
  [(stateInfo state).keysToPress.1, (stateInfo state).keysToPress.2].filter (· ≠ .none)

/-- The variables of the phantom typist, the keys held down for it, and the calls of the timer. -/
structure Typist : Type where
  mode : Mode
  state : TypistState
  nextState : TypistState
  delay : Nat
  keyboardPortsRead : UInt8
  commandCount : Nat
  keys : List Key
  starts : Nat
  stops : Nat

/-- How it is at the start of the emulator. -/
def initial : Typist where
  mode := .jpp
  state := .inactive
  nextState := .inactive
  delay := 0
  keyboardPortsRead := 0
  commandCount := 0
  keys := []
  starts := 0
  stops := 0

/-- `phantom_typist_is_active`. -/
def Typist.isActive (typist : Typist) : Bool :=
  typist.state ≠ .inactive

/-! ## Activation -/

/-- The machines, as far as the typist tells them apart. -/
inductive Machine : Type
  | spectrum16 | spectrum48 | spectrum48Ntsc | tc2048 | tc2068 | ts2068
  | spectrum128 | spectrum128e | plus2 | pent | pent512 | pent1024 | scorp
  | plus2a | plus3 | plus3e | se | other

/-- `get_highlevel_mode`. -/
def getHighlevelMode : Machine → HighlevelMode
  | .spectrum16 | .spectrum48 | .spectrum48Ntsc | .tc2048 | .tc2068 | .ts2068 | .other => .keyword
  | .spectrum128 | .spectrum128e | .plus2 | .pent | .pent512 | .pent1024 | .scorp => .menu
  | .plus2a => .plus2a
  | .plus3 | .plus3e => .plus3
  | .se => .keystroke

/-- `strcasecmp` finds no difference. -/
def sameText (setting text : String) : Bool :=
  setting.toLower = text.toLower

/-- The mode that the setting stands for. -/
def highlevelMode (setting : String) (machine : Machine) : HighlevelMode :=
  if sameText setting "Keyword" then .keyword
  else if sameText setting "Keystroke" then .keystroke
  else if sameText setting "Menu" then .menu
  else if sameText setting "Plus 2A" || sameText setting "plus2a" then .plus2a
  else if sameText setting "Plus 3" || sameText setting "plus3" then .plus3
  else if sameText setting "Auto" then getHighlevelMode machine
  else .keyword

/-- The keystrokes for a mode, with CODE or without. -/
def modeFor : HighlevelMode → Bool → Mode
  | .keyword, true => .jppi
  | .keyword, false => .jpp
  | .keystroke, true => .loadppcode
  | .keystroke, false => .loadpp
  | .menu, true => .downLoadppcode
  | .menu, false => .enter
  | .plus2a, true => .waitDownLoadppcode
  | .plus2a, false => .enter
  | .plus3, true => .plus3CodeBlock
  | .plus3, false => .enter

/-- `set_state_waiting`, with the mode that has been set before. -/
def Typist.setStateWaiting (typist : Typist) (mode : Mode) : Typist :=
  { typist with
    mode
    commandCount := 0
    state := .waiting
    nextState := .waiting
    keys := []
    starts := typist.starts + 1 }

/-- `phantom_typist_activate`. -/
def Typist.activate (typist : Typist) (setting : String) (machine : Machine) (needsCode : Bool) : Typist :=
  typist.setStateWaiting (modeFor (highlevelMode setting machine) needsCode)

/-- `phantom_typist_activate_disk`. -/
def Typist.activateDisk (typist : Typist) : Typist :=
  typist.setStateWaiting .enter

/-- `phantom_typist_deactivate`. -/
def Typist.deactivate (typist : Typist) : Typist :=
  if typist.isActive then { typist with state := .waiting, nextState := .inactive, keys := [] }
  else typist

/-- `phantom_typist_reset`. -/
def Typist.reset (typist : Typist) : Typist :=
  { typist with state := .inactive, nextState := .inactive, keys := [] }

/-! ## Reading the keyboard -/

/-- The high bytes that read one half row. -/
def halfRows : List UInt8 :=
  [0xfe, 0xfd, 0xfb, 0xf7, 0xef, 0xdf, 0xbf, 0x7f]

/-- The half rows that have been read. -/
def rowsRead (rows highByte : UInt8) : UInt8 :=
  if highByte ∈ halfRows then rows ||| ~~~highByte else rows

/-- The state in which a mode begins. -/
def firstState : Mode → TypistState
  | .jpp | .jppi => .load
  | .enter => .enterOnly
  | .downLoadppcode => .down
  | .waitDownLoadppcode => .waitDown
  | .plus3CodeBlock => .longWaitDown
  | .loadpp | .loadppcode => .loadL

/-- `process_waiting_state`. -/
def Typist.processWaitingState (typist : Typist) (highByte : UInt8) : Typist :=
  let rows := rowsRead typist.keyboardPortsRead highByte
  if rows = 0xff then
    { typist with keyboardPortsRead := rows, nextState := firstState typist.mode }
  else { typist with keyboardPortsRead := rows }

/-- `t_colon_or_quote`. -/
def tColonOrQuote (mode : Mode) (commandCount : Nat) : TypistState :=
  if mode = .plus3CodeBlock ∧ commandCount = 0 then .tcolonT else .quote2

/-- `code_or_enter`. -/
def codeOrEnter (mode : Mode) (commandCount : Nat) : TypistState :=
  match mode with
  | .jpp | .loadpp => .enter
  | .plus3CodeBlock => if commandCount = 0 then .enter else .codeC
  | .jppi => .extendedMode
  | .loadppcode | .downLoadppcode | .waitDownLoadppcode => .codeC
  | .enter => .inactive

/-- `next_command_or_end`. -/
def nextCommandOrEnd (mode : Mode) (commandCount : Nat) : TypistState :=
  if mode = .plus3CodeBlock ∧ commandCount = 0 then .slowLoadL else .inactive

/-- The state behind a state. -/
def nextOf (mode : Mode) (commandCount : Nat) (state : TypistState) : TypistState :=
  match (stateInfo state).next with
  | .state next => next
  | .tColonOrQuote => tColonOrQuote mode commandCount
  | .codeOrEnter => codeOrEnter mode commandCount
  | .nextCommandOrEnd => nextCommandOrEnd mode commandCount

/-- `process_state`. -/
def Typist.processState (typist : Typist) : Typist :=
  { typist with nextState := nextOf typist.mode typist.commandCount typist.state }

/-- `phantom_typist_ula_read`; it always returns 0xff. -/
def Typist.ulaRead (typist : Typist) (port : UInt16) : Typist :=
  let highByte := (port >>> 8).toUInt8
  if typist.delay ≠ 0 then typist
  else
    match typist.state with
    | .inactive => typist
    | .waiting => typist.processWaitingState highByte
    | _ => typist.processState

/-! ## Frames -/

/-- `phantom_typist_update_keyboard`. -/
def Typist.updateKeyboard (typist : Typist) : Typist :=
  if typist.delay ≠ 0 ∨ typist.state = .inactive ∨ typist.state = .waiting then { typist with keys := [] }
  else { typist with keys := keysOf typist.state }

/-- The state is changed at the end of a frame. -/
def Typist.change (typist : Typist) : Typist :=
  if typist.nextState ≠ typist.state then
    { typist with
      commandCount :=
        if typist.mode = .plus3CodeBlock ∧ typist.state = .enter then typist.commandCount + 1
        else typist.commandCount
      state := typist.nextState
      delay := (stateInfo typist.nextState).delayBeforeState
      stops := if typist.nextState = .inactive then typist.stops + 1 else typist.stops }
  else typist

/-- `phantom_typist_frame`. -/
def Typist.frame (typist : Typist) : Typist :=
  let changed := { typist with keyboardPortsRead := 0 }.change
  { changed with delay := changed.delay - 1 }.updateKeyboard

/-! ## Events -/

/-- What happens to the phantom typist. -/
inductive Event : Type
  | ulaRead (port : UInt16)
  | frame
  | activate (setting : String) (machine : Machine) (needsCode : Bool)
  | activateDisk
  | deactivate
  | reset

def Typist.step (typist : Typist) : Event → Typist
  | .ulaRead port => typist.ulaRead port
  | .frame => typist.frame
  | .activate setting machine needsCode => typist.activate setting machine needsCode
  | .activateDisk => typist.activateDisk
  | .deactivate => typist.deactivate
  | .reset => typist.reset

/-- The typist after some events. -/
def run (events : List Event) : Typist :=
  events.foldl Typist.step initial

end FuseX.PhantomTypist
