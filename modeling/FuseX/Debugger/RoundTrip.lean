import FuseX.Debugger.Reassociated

/-!
# Printing and parsing

An expression that is printed whole and read again gives an expression of the same value
(`deparse_roundTrip_iff`), unless there is a modulo in it, for whose sign the scanner has no
rule. What is read back has its chains grouped to the left, and an expression grouped like that
is read as it is (`parse_leftGrouped`).
-/

namespace FuseX.Debugger

open Lib

variable {n : Nat}

/-! ## Parsing what is grouped to the left -/

/-- The tokens are an operand on this stack: they leave some frames and what is in front of them,
which tokens up to the level reduce to the expression. -/
def Reads (names : Fin n → List Char × List Char) (tokens : List Token) (exp : Expression n)
    (level : Nat) (stack : List (Frame n)) : Prop :=
  ∃ frames top,
    (∀ rest, parse names (tokens ++ rest) stack none =
      parse names rest (frames ++ stack) (some top)) ∧
    ∀ lookahead ≤ level, ∀ below,
      reduce lookahead (frames ++ below) top = reduce lookahead below exp

/-- What is on top of the stack binds less than an operation of this precedence. -/
def Under (precedence : Nat) : List (Frame n) → Prop
  | .operator op _ :: _ => op.precedence < precedence
  | .sign _ :: _ => 10 ≤ precedence
  | _ => True

theorem Under.mono {precedence precedence' : Nat} {stack : List (Frame n)}
    (under : Under precedence stack) (le : precedence ≤ precedence') :
    Under precedence' stack := by
  rcases stack with _ | ⟨⟨⟩ | ⟨⟩ | op | ⟨op, operand1⟩, stack⟩
  · trivial
  · trivial
  · trivial
  · exact Nat.le_trans under le
  · exact Nat.lt_of_lt_of_le under le

theorem level_eq (op : BinaryOp) : op.level = op.precedence + 1 := by
  cases op <;> rfl

/-- An operator shifts on a stack below it. -/
theorem reduce_under {op : BinaryOp} {stack : List (Frame n)} (under : Under op.precedence stack)
    (exp : Expression n) : reduce op.level stack exp = (stack, exp) := by
  rcases stack with _ | ⟨⟨⟩ | ⟨⟩ | op' | ⟨op', operand1⟩, stack⟩
  · rfl
  · rfl
  · rfl
  · have bound := binary_precedence_le op
    exact absurd under (by show ¬ 10 ≤ op.precedence; omega)
  · have below : op'.precedence < op.precedence := under
    have not : ¬ op.level ≤ op'.level := by
      rw [level_eq, level_eq]
      omega
    rw [reduce, if_neg not]

theorem reads_operand {names : Fin n → List Char × List Char} {tokens : List Token}
    {exp : Expression n} {stack : List (Frame n)}
    (step : ∀ rest, parse names (tokens ++ rest) stack none = parse names rest stack (some exp))
    (level : Nat) : Reads names tokens exp level stack :=
  ⟨[], exp, step, fun _ _ _ => rfl⟩

/-- Behind the operand the frames are reduced up to a bracket. -/
theorem reads_closed {names : Fin n → List Char × List Char} {tokens : List Token}
    {exp : Expression n} {level : Nat} {stack : List (Frame n)}
    (reads : Reads names tokens exp level stack) :
    ∃ frames top, (∀ rest, parse names (tokens ++ rest) stack none =
      parse names rest (frames ++ stack) (some top)) ∧
      reduce 0 (frames ++ stack) top = reduce 0 stack exp := by
  obtain ⟨frames, top, step, reduces⟩ := reads
  exact ⟨frames, top, step, reduces 0 (Nat.zero_le _) stack⟩

theorem reads_paren {names : Fin n → List Char × List Char} {tokens : List Token}
    {exp : Expression n} {level : Nat} {stack : List (Frame n)}
    (reads : Reads names tokens exp level (.paren :: stack)) (level' : Nat) :
    Reads names ([Token.char '('] ++ tokens ++ [Token.char ')']) exp level' stack := by
  obtain ⟨frames, top, step, closed⟩ := reads_closed reads
  refine reads_operand (fun rest => ?_) level'
  have shape : [Token.char '('] ++ tokens ++ [Token.char ')'] ++ rest =
      Token.char '(' :: (tokens ++ Token.char ')' :: rest) := by simp
  rw [shape, parse_paren, step, parse_closeParen (closed.trans rfl)]

theorem reads_bracket {names : Fin n → List Char × List Char} {tokens : List Token}
    {exp : Expression n} {level : Nat} {stack : List (Frame n)}
    (reads : Reads names tokens exp level (.bracket :: stack)) (level' : Nat) :
    Reads names ([Token.char '['] ++ tokens ++ [Token.char ']']) (.unary .dereference exp) level' stack := by
  obtain ⟨frames, top, step, closed⟩ := reads_closed reads
  refine reads_operand (fun rest => ?_) level'
  have shape : [Token.char '['] ++ tokens ++ [Token.char ']'] ++ rest =
      Token.char '[' :: (tokens ++ Token.char ']' :: rest) := by simp
  rw [shape, parse_bracket, step, parse_closeBracket (closed.trans rfl)]

theorem reads_bracketed {names : Fin n → List Char × List Char} {tokens : List Token}
    {exp : Expression n} {precedence level level' : Nat} {stack : List (Frame n)} (brackets : Bool)
    (reads : ∀ {stack'}, Under precedence stack' → Reads names tokens exp level stack')
    (bare : brackets = false → Under precedence stack ∧ level' ≤ level) :
    Reads names (bracketedTokens brackets tokens) exp level' stack := by
  cases brackets with
  | true => exact reads_paren (@reads (.paren :: stack) trivial) level'
  | false =>
    obtain ⟨under, le⟩ := bare rfl
    obtain ⟨frames, top, step, reduces⟩ := reads under
    exact ⟨frames, top, step, fun l bound => reduces l (Nat.le_trans bound le)⟩

/-- A sign in front of an operand that binds as tight as it does. -/
theorem reads_sign {names : Fin n → List Char × List Char} {token : Token} {tokens : List Token}
    {op : UnaryOp} {exp : Expression n} {stack : List (Frame n)}
    (isSign : ∀ rest, parse names (token :: rest) stack none =
      parse names rest (.sign (some op) :: stack) none)
    (reads : Reads names tokens exp negateLevel (.sign (some op) :: stack)) :
    Reads names ([token] ++ tokens ++ []) (.unary op exp) negateLevel stack := by
  obtain ⟨frames, top, step, reduces⟩ := reads
  refine ⟨frames ++ [Frame.sign (some op)], top, fun rest => ?_, fun lookahead bound below => ?_⟩
  · have shape : [token] ++ tokens ++ [] ++ rest = token :: (tokens ++ rest) := by simp
    have stacked : frames ++ [Frame.sign (some op)] ++ stack = frames ++ Frame.sign (some op) :: stack := by
      simp
    rw [shape, isSign, step, stacked]
  · have stacked : frames ++ [Frame.sign (some op)] ++ below = frames ++ Frame.sign (some op) :: below := by
      simp
    rw [stacked, reduces lookahead bound, reduce, if_pos bound]
    rfl

/-- Behind a sign, an operand without brackets binds as tight. -/
theorem unary_bare {op : UnaryOp} {operand : Expression n} {stack : List (Frame n)}
    (bare : (decide (op ≠ .dereference) && decide (operand.precedence < op.precedence)) = false)
    (sign : op ≠ .dereference) :
    Under operand.precedence (.sign (some op) :: stack) ∧
      negateLevel ≤ min (operand.precedence + 1) negateLevel := by
  have tight : 10 ≤ op.precedence := unary_precedence_le op
  have le : op.precedence ≤ operand.precedence := by
    rw [decide_eq_true sign, Bool.true_and, decide_eq_false_iff_not] at bare
    exact Nat.not_lt.mp bare
  have level : negateLevel = 11 := rfl
  refine ⟨Nat.le_trans tight le, Nat.le_min.mpr ⟨?_, Nat.le_refl _⟩⟩
  rw [level]
  omega

theorem parse_operator {names : Fin n → List Char × List Char} {op : BinaryOp} (notMod : op ≠ .mod)
    (tokens : List Token) (stack : List (Frame n)) (exp : Expression n) :
    parse names (op.token :: tokens) stack (some exp) =
      parse names tokens (.operator op (reduce op.level stack exp).2 ::
        (reduce op.level stack exp).1) none := by
  cases op with
  | mod => exact absurd rfl notMod
  | _ => rfl

/-- An operator between two operands, of which the right one binds tighter. -/
theorem reads_operator {names : Fin n → List Char × List Char} {tokens1 tokens2 : List Token}
    {op : BinaryOp} {exp1 exp2 : Expression n} {stack : List (Frame n)} (notMod : op ≠ .mod)
    (under : Under op.precedence stack) (reads1 : Reads names tokens1 exp1 op.level stack)
    (reads2 : Reads names tokens2 exp2 op.level (.operator op exp1 :: stack)) :
    Reads names (tokens1 ++ [op.token] ++ tokens2) (.binary op exp1 exp2) op.level stack := by
  obtain ⟨frames1, top1, step1, reduces1⟩ := reads1
  obtain ⟨frames2, top2, step2, reduces2⟩ := reads2
  refine ⟨frames2 ++ [Frame.operator op exp1], top2, fun rest => ?_, fun lookahead bound below => ?_⟩
  · have shape : tokens1 ++ [op.token] ++ tokens2 ++ rest =
        tokens1 ++ op.token :: (tokens2 ++ rest) := by simp
    have stacked : frames2 ++ [Frame.operator op exp1] ++ stack =
        frames2 ++ Frame.operator op exp1 :: stack := by simp
    rw [shape, step1, parse_operator notMod, reduces1 _ (Nat.le_refl _), reduce_under under,
      step2, stacked]
  · have stacked : frames2 ++ [Frame.operator op exp1] ++ below =
        frames2 ++ Frame.operator op exp1 :: below := by simp
    rw [stacked, reduces2 lookahead bound, reduce, if_pos bound]

theorem error_in_operator {names : Fin n → List Char × List Char} {op : BinaryOp}
    {operand1 operand2 : Expression n}
    (plain : .error ∉ (Expression.binary op operand1 operand2).tokens names) : op ≠ .mod := by
  rintro rfl
  refine plain ?_
  simp [Expression.tokens, BinaryOp.token]

theorem mem_bracketed {brackets : Bool} {tokens : List Token} :
    .error ∈ bracketedTokens brackets tokens ↔ .error ∈ tokens := by
  cases brackets <;> simp [bracketedTokens]

/-- An expression grouped to the left is an operand on every stack that binds less. -/
theorem tokens_reads (vars : SystemVariables n) {exp : Expression n} (grouped : LeftGrouped exp)
    (plain : .error ∉ exp.tokens vars.names) {stack : List (Frame n)}
    (under : Under exp.precedence stack) :
    Reads vars.names (exp.tokens vars.names) exp (min (exp.precedence + 1) negateLevel) stack := by
  induction exp generalizing stack with
  | integer value => exact reads_operand (fun rest => rfl) _
  | systemVariable index =>
    refine reads_operand (fun rest => ?_) _
    show parse vars.names (.string _ :: .char ':' :: .string _ :: rest) stack none = _
    rw [parse_systemVariable (vars.found index)]
  | «variable» name => exact reads_operand (fun rest => rfl) _
  | unary op operand ih =>
    have plain' : .error ∉ operand.tokens vars.names := by
      intro error
      refine plain ?_
      rw [Expression.tokens]
      simp only [List.mem_append]
      exact .inl (.inr (mem_bracketed.mpr error))
    have inner := @ih grouped plain'
    cases op with
    | dereference =>
      have closed : Reads vars.names (bracketedTokens (UnaryOp.dereference.brackets operand)
          (operand.tokens vars.names)) operand 0 (.bracket :: stack) :=
        reads_bracketed _ inner fun _ => ⟨trivial, Nat.zero_le _⟩
      exact reads_bracket closed _
    | logicalNot =>
      refine reads_sign (fun rest => rfl) (reads_bracketed _ inner fun bare => ?_)
      exact unary_bare bare (by decide)
    | bitwiseNot =>
      refine reads_sign (fun rest => rfl) (reads_bracketed _ inner fun bare => ?_)
      exact unary_bare bare (by decide)
    | minus =>
      refine reads_sign (fun rest => rfl) (reads_bracketed _ inner fun bare => ?_)
      exact unary_bare bare (by decide)
  | binary op operand1 operand2 ih1 ih2 =>
    obtain ⟨grouped1, grouped2, tighter⟩ := grouped
    have notMod := error_in_operator plain
    rw [Expression.tokens] at plain ⊢
    simp only [List.mem_append, mem_bracketed, not_or] at plain
    obtain ⟨⟨plain1, -⟩, plain2⟩ := plain
    have bound := binary_precedence_le op
    have level : min ((Expression.binary op operand1 operand2).precedence + 1) negateLevel =
        op.level := by
      rw [level_eq]
      exact Nat.min_eq_left (by show op.precedence + 1 ≤ 11; omega)
    rw [level]
    refine reads_operator notMod under (reads_bracketed _ (@ih1 grouped1 plain1) fun bare => ?_)
      (reads_bracketed _ (@ih2 grouped2 plain2) fun bare => ?_)
    · have le := unbracketed_le bare
      refine ⟨under.mono le, ?_⟩
      rw [level_eq]
      exact Nat.le_min.mpr ⟨Nat.succ_le_succ le, by show op.precedence + 1 ≤ 11; omega⟩
    · have lt := tighter bare
      refine ⟨lt, ?_⟩
      rw [level_eq]
      exact Nat.le_min.mpr ⟨by omega, by show op.precedence + 1 ≤ 11; omega⟩

/-- The tokens of an expression grouped to the left are parsed into it. -/
theorem parse_leftGrouped (vars : SystemVariables n) {exp : Expression n}
    (grouped : LeftGrouped exp) (plain : .error ∉ exp.tokens vars.names) :
    parse vars.names (exp.tokens vars.names) [] none = some exp := by
  have bottom : Under exp.precedence ([] : List (Frame n)) := trivial
  obtain ⟨frames, top, step, reduced⟩ := reads_closed (tokens_reads vars grouped plain bottom)
  have whole := step []
  rw [List.append_nil] at whole
  rw [whole]
  exact parse_end (reduced.trans rfl)

/-! ## A sign without a rule -/

/-- Whether there is a modulo in an expression. -/
def Expression.hasModulo : Expression n → Bool
  | .unary _ operand => operand.hasModulo
  | .binary op operand1 operand2 => op = .mod || operand1.hasModulo || operand2.hasModulo
  | _ => false

theorem error_mem_tokens {names : Fin n → List Char × List Char} {exp : Expression n} :
    .error ∈ exp.tokens names ↔ exp.hasModulo = true := by
  induction exp with
  | unary op operand ih =>
    have signs : .error ∉ op.tokens.1 ∧ .error ∉ op.tokens.2 := by
      cases op <;> decide
    rw [Expression.tokens, Expression.hasModulo, ← ih]
    simp only [List.mem_append, mem_bracketed, signs, or_false, false_or]
  | binary op operand1 operand2 ih1 ih2 =>
    have operator_ : .error = op.token ↔ op = .mod := by
      cases op <;> decide
    rw [Expression.tokens, Expression.hasModulo]
    simp only [List.mem_append, mem_bracketed, List.mem_singleton, ih1, ih2, operator_,
      Bool.or_eq_true, decide_eq_true_iff]
    constructor
    · rintro ((modulo1 | isMod) | modulo2)
      · exact .inl (.inr modulo1)
      · exact .inl (.inl isMod)
      · exact .inr modulo2
    · rintro ((isMod | modulo1) | modulo2)
      · exact .inl (.inr isMod)
      · exact .inl (.inl modulo1)
      · exact .inr modulo2
  | _ => simp [Expression.tokens, Expression.hasModulo]

/-- What no rule takes is a syntax error, wherever it stands. -/
theorem parse_error (names : Fin n → List Char × List Char) {tokens : List Token}
    {stack : List (Frame n)} {operand : Option (Expression n)} (error : .error ∈ tokens) :
    parse names tokens stack operand = none := by
  fun_induction parse names tokens stack operand with
  | case2 type detail tokens stack ih =>
    have later : .error ∈ tokens := by simpa using error
    cases systemVariableFind names type detail with
    | none => rfl
    | some i => exact ih i later
  | case9 | case11 | case13 | case15 | case16 => rfl
  | case10 => cases error
  | case17 token tokens stack exp notParen notBracket op isOp stack' exp' reduced ih =>
    have other : .error ≠ token := by
      rintro rfl
      cases isOp
    exact ih (List.mem_of_ne_of_mem other error)
  | case12 tokens stack exp stack' exp' reduced ih => exact ih (by simpa using error)
  | case14 tokens stack exp stack' exp' reduced ih => exact ih (by simpa using error)
  | case1 value tokens stack ih => exact ih (by simpa using error)
  | case3 name tokens stack ih => exact ih (by simpa using error)
  | case4 tokens stack ih => exact ih (by simpa using error)
  | case5 tokens stack ih => exact ih (by simpa using error)
  | case6 tokens stack ih => exact ih (by simpa using error)
  | case7 tokens stack ih => exact ih (by simpa using error)
  | case8 op tokens stack ih => exact ih (by simpa using error)

/-! ## Printed whole -/

variable {names : Fin n → List Char × List Char} {base length : Nat}

theorem take_fits {text : List Char} (fits : text.length < length) :
    text.take (length - 1) = text :=
  List.take_of_length_le (Nat.le_pred_of_lt fits)

theorem length_le_bracketed (brackets : Bool) (text : List Char) :
    text.length ≤ (bracketed brackets text).length := by
  cases brackets with
  | false => exact Nat.le_refl _
  | true =>
    rw [bracketed, if_pos rfl, List.length_append, List.length_append]
    omega

/-- With room for the text nothing of it is cut off, in the operands neither. -/
theorem deparse_whole {exp : Expression n} (fits : (exp.text names base).length < length) :
    exp.deparse names base length = exp.text names base := by
  induction exp with
  | unary op operand ih =>
    have inner : (operand.text names base).length < length := by
      have longer := length_le_bracketed (op.brackets operand) (operand.text names base)
      rw [Expression.text, Expression.deparseWith, id, List.length_append, List.length_append]
        at fits
      rw [Expression.text] at longer ⊢
      omega
    have whole := ih inner
    rw [Expression.deparse] at whole ⊢
    rw [Expression.deparseWith, whole]
    exact take_fits fits
  | binary op operand1 operand2 ih1 ih2 =>
    have longer1 := length_le_bracketed (bracketsNecessary op operand1) (operand1.text names base)
    have longer2 := length_le_bracketed (bracketsNecessary op operand2) (operand2.text names base)
    have inner : (operand1.text names base).length < length ∧
        (operand2.text names base).length < length := by
      rw [Expression.text, Expression.deparseWith, id, List.length_append, List.length_append]
        at fits
      rw [Expression.text] at longer1 longer2 ⊢
      rw [Expression.text]
      omega
    have whole1 := ih1 inner.1
    have whole2 := ih2 inner.2
    rw [Expression.deparse] at whole1 whole2 ⊢
    rw [Expression.deparseWith, whole1, whole2]
    exact take_fits fits
  | _ => exact take_fits fits

/-! ## The round trip -/

/-- What is printed is read as an expression of the same value. -/
def RoundTrips (names : Fin n → List Char × List Char) (base length : Nat) (exp : Expression n) :
    Prop :=
  ∃ exp', parse names (scanAll rules (exp.deparse names base length)) [] none = some exp' ∧
    ∀ env, exp'.evaluate env = exp.evaluate env

theorem scanAll_deparse (vars : SystemVariables n) {exp : Expression n}
    (fits : (exp.text vars.names base).length < length) :
    scanAll rules (exp.deparse vars.names base length) = exp.tokens vars.names := by
  have whole := scanAll_text vars base exp stops_nil
  rw [List.append_nil] at whole
  rw [deparse_whole fits, whole]
  exact List.append_nil _

theorem roundTrips_without_modulo (vars : SystemVariables n) {exp : Expression n}
    (fits : (exp.text vars.names base).length < length) (noModulo : exp.hasModulo = false) :
    RoundTrips vars.names base length exp := by
  have plain : .error ∉ exp.regrouped.tokens vars.names := by
    rw [regrouped_tokens, error_mem_tokens, noModulo]
    exact Bool.false_ne_true
  have parsed := parse_leftGrouped vars (regrouped_leftGrouped exp) plain
  rw [regrouped_tokens, ← scanAll_deparse vars fits] at parsed
  exact ⟨exp.regrouped, parsed, fun env => regrouped_evaluate env exp⟩

theorem parse_modulo (vars : SystemVariables n) {exp : Expression n}
    (fits : (exp.text vars.names base).length < length) (modulo : exp.hasModulo = true) :
    parse vars.names (scanAll rules (exp.deparse vars.names base length)) [] none = none := by
  rw [scanAll_deparse vars fits]
  exact parse_error vars.names (error_mem_tokens.mpr modulo)

/-- Whatever is printed whole makes the round trip, but for a modulo: the grammar has a rule for
its sign, the scanner has none. -/
theorem deparse_roundTrip_iff (vars : SystemVariables n) (base length : Nat) (exp : Expression n)
    (fits : (exp.text vars.names base).length < length) :
    RoundTrips vars.names base length exp ↔ exp.hasModulo = false := by
  constructor
  · rintro ⟨exp', parsed, -⟩
    rw [← Bool.not_eq_true]
    intro modulo
    rw [parse_modulo vars fits modulo] at parsed
    cases parsed
  · exact roundTrips_without_modulo vars fits

/-- The system variables that are registered. -/
def registeredNames : List (String × String) :=
  (["a", "b", "c", "d", "e", "f", "h", "l", "a'", "b'", "c'", "d'", "e'", "f'", "h'", "l'",
    "af", "bc", "de", "hl", "af'", "bc'", "de'", "hl'", "sp", "pc", "ix", "iy", "i", "r",
    "memptr", "wz", "im", "iff1", "iff2", "q"].map fun detail => ("z80", detail)) ++
  [("ula", "last"), ("ula", "tstates"), ("ula", "mem7ffd"), ("ula", "mem1ffd"),
   ("ay", "current"), ("divmmc", "control"), ("tape", "microphone"), ("spectrum", "frames")]

def registeredName (i : Fin registeredNames.length) : List Char × List Char :=
  ((registeredNames.get i).1.toList, (registeredNames.get i).2.toList)

/-- A name that is no literal is one token. -/
theorem longest_id {word : List Char} (whole : idWord word = word.length) (nonempty : word ≠ [])
    (plain : word.filter (· ≠ '\\') = word)
    (other : ∀ lit ∈ literalWords, word.map Char.toLower ≠ lit.1) :
    longest rules word = (word.length, some (.string word)) := by
  obtain ⟨x, rest, rfl⟩ := List.exists_cons_of_ne_nil nonempty
  have alpha : x.isAlpha = true := by
    rw [idWord] at whole
    split at whole
    · next alpha => exact alpha
    · cases whole
  have notDigit : x.isDigit = false := by
    rcases digit : x.isDigit with _ | _
    · rfl
    · rw [(isDigit_plain digit).1] at alpha
      exact Bool.noConfusion alpha
  have notZero : x ≠ '0' := by
    rintro rfl
    cases alpha
  have stringWord : stringRule.word (x :: rest) = (x :: rest).length := whole
  rw [rules_eq [hexRule, decimalRule] [stringRule, variableRule, newlineRule, spaceRule, otherRule] rfl,
    longest_over, stringWord, List.take_length]
  · exact congrArg (fun word => (_, some (Token.string word))) plain
  · intro rule inFront
    rw [stringWord]
    rcases List.mem_append.mp inFront with inLiterals | inPatterns
    · obtain ⟨lit, inLits, rfl⟩ := List.mem_map.mp inLiterals
      exact literal_shorter (other lit inLits) nonempty
    · simp only [List.mem_cons, List.not_mem_nil, or_false] at inPatterns
      rcases inPatterns with rfl | rfl
      · change hexWord (x :: rest) < _
        rw [hexWord_other notZero]
        exact Nat.succ_pos _
      · change runLength Char.isDigit (x :: rest) < _
        rw [runLength, notDigit]
        exact Nat.succ_pos _
  · intro rule inBack
    rw [stringWord]
    simp only [List.mem_cons, List.not_mem_nil, or_false] at inBack
    rcases inBack with rfl | rfl | rfl | rfl
    · exact variableWord_le _
    · exact Nat.le_trans (newlineRule_le _) (Nat.succ_le_succ (Nat.zero_le _))
    · exact runLength_le _
    · exact Nat.le_trans (otherRule_le _) (Nat.succ_le_succ (Nat.zero_le _))

/-- A word as a number. -/
def wordKey (word : List Char) : Nat :=
  word.foldl (fun key c => key * 256 + c.toNat) 0

/-- The names are identifiers, and none is a literal. -/
theorem registered_words : registeredNames.all (fun name =>
    [name.1.toList, name.2.toList].all fun word =>
      (idWord word = word.length && word ≠ [] && word.filter (· ≠ '\\') = word) &&
        literalWords.all fun lit => !(wordKey (word.map Char.toLower)).beq (wordKey lit.1)) = true := by
  simp only [registeredNames, literalWords, commandWords, List.map_cons, List.map_nil,
    List.flatMap_cons, List.flatMap_nil, List.cons_append, List.nil_append, String.reduceToList]
  decide

/-- A name without regard to case. -/
def lowered (name : String × String) : List Char × List Char :=
  (name.1.toList.map Char.toLower, name.2.toList.map Char.toLower)

theorem registered_keys :
    ((registeredNames.map lowered).map fun name => (wordKey name.1, wordKey name.2)).Nodup := by
  simp only [registeredNames, List.map_cons, List.map_nil, List.cons_append, List.nil_append,
    lowered, String.reduceToList]
  decide

theorem registered_distinct : (registeredNames.map lowered).Nodup :=
  List.Nodup.of_map _ registered_keys

theorem registered_found (i : Fin registeredNames.length) :
    systemVariableFind registeredName (registeredName i).1 (registeredName i).2 = some i := by
  have isIt : ∀ j, ((registeredName i).1.map Char.toLower = (registeredName j).1.map Char.toLower &&
      (registeredName i).2.map Char.toLower = (registeredName j).2.map Char.toLower) = true ↔
        lowered (registeredNames.get i) = lowered (registeredNames.get j) := by
    intro j
    rw [Bool.and_eq_true, decide_eq_true_iff, decide_eq_true_iff, lowered, lowered, Prod.mk.injEq]
    rfl
  rw [systemVariableFind]
  rcases search : (List.finRange registeredNames.length).find? _ with _ | j
  · exact absurd ((isIt i).mpr rfl) (List.find?_eq_none.mp search i (List.mem_finRange i))
  · have here := List.find?_some search
    have same := (isIt j).mp here
    have distinct := List.inj_on_of_nodup_map registered_distinct (List.get_mem _ i) (List.get_mem _ j) same
    have nodup := List.Nodup.of_map lowered registered_distinct
    rw [(nodup.get_inj_iff).mp distinct]

theorem registeredName_scanned (i : Fin registeredNames.length) {word : List Char}
    (isPart : word = (registeredName i).1 ∨ word = (registeredName i).2) :
    (idWord word = word.length ∧ word ≠ []) ∧
      longest rules word = (word.length, some (.string word)) := by
  have words := List.all_eq_true.mp registered_words _ (List.get_mem registeredNames i)
  have parts : word ∈ [(registeredName i).1, (registeredName i).2] := by
    rcases isPart with rfl | rfl
    · exact List.mem_cons_self
    · exact List.mem_cons_of_mem _ List.mem_cons_self
  obtain ⟨isId, apart⟩ := (Bool.and_eq_true _ _).mp (List.all_eq_true.mp words word parts)
  simp only [Bool.and_eq_true, decide_eq_true_iff] at isId
  refine ⟨isId.1, longest_id isId.1.1 isId.1.2 isId.2 fun lit inLits same => ?_⟩
  have differs := List.all_eq_true.mp apart lit inLits
  rw [same, Nat.beq_refl] at differs
  exact Bool.noConfusion differs

def registered : SystemVariables registeredNames.length where
  names := registeredName
  isId i := ⟨(registeredName_scanned i (.inl rfl)).1.1, (registeredName_scanned i (.inr rfl)).1.1⟩
  nonempty i := ⟨(registeredName_scanned i (.inl rfl)).1.2, (registeredName_scanned i (.inr rfl)).1.2⟩
  scanned i := ⟨(registeredName_scanned i (.inl rfl)).2, (registeredName_scanned i (.inr rfl)).2⟩
  found i := registered_found i

/-- A chain to the right is printed without brackets, and read to the left. -/
theorem sum_roundTrip :
    (Expression.binary .add (.integer 1) (.binary .add (.integer 2) (.integer 3)) :
      Expression registeredNames.length).text registered.names 10 = "1 + 2 + 3".toList ∧
    RoundTrips registered.names 10 80
      (.binary .add (.integer 1) (.binary .add (.integer 2) (.integer 3))) :=
  ⟨by decide, (deparse_roundTrip_iff registered 10 80 _ (by decide)).mpr rfl⟩

/-- A modulo is printed whole and not read again. -/
theorem modulo_unread :
    (Expression.binary .mod (.integer 10) (.integer 3) :
      Expression registeredNames.length).text registered.names 16 = "0xa % 0x3".toList ∧
    ¬ RoundTrips registered.names 16 80 (.binary .mod (.integer 10) (.integer 3)) := by
  refine ⟨by decide, ?_⟩
  rintro ⟨exp', parsed, -⟩
  rw [parse_modulo registered (by decide) rfl] at parsed
  cases parsed

end FuseX.Debugger
