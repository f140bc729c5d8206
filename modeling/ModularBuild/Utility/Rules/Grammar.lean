import ModularBuild.Utility.Rules.Token

/-!
# Reading programs of rules

Programs are read from their tokens. After a mistake in a statement reading goes on behind it, so that
several mistakes are told of at once.
-/

namespace ModularBuild.Utility.Rules

inductive Halt where
  /-- A mistake that has been told of. -/
  | mistake
  /-- Nothing more is read at all. -/
  | abort

inductive Use where
  | unknown
  | scalar
  | array
deriving DecidableEq, Inhabited

structure FunctionEntry where
  name : String
  definition : Option (List String × Statement) := none
deriving Inhabited

structure CallEntry where
  function : Nat
  /-- The arguments that are variables alone. -/
  arguments : List (Option Variable)
  /-- The function that it stands in. -/
  caller : Option Nat
  /-- Where it stands. -/
  place : String

structure Reading where
  tokens : List Located
  source : String := ""
  line : Nat := 1
  /-- How many brackets are open. -/
  parens : Nat := 0
  braces : Nat := 0
  /-- What has been told of, newest first. -/
  errors : List String := []
  names : Array String := knownNames.toArray
  uses : Array Use := (knownNames.map fun name =>
    if name = "ARGV" || name = "ENVIRON" then Use.array else Use.unknown).toArray
  functions : Array FunctionEntry := #[]
  /-- The calls of functions, the last one first. -/
  calls : List CallEntry := []
  /-- What parameters have been used as, by function. -/
  parameterUses : List ((Nat × Nat) × Use) := []
  /-- The function that is being read, and its parameters. -/
  function : Option Nat := none
  parameters : List String := []
  /-- Whether records are selected here. -/
  inRule : Bool := false
  /-- How many loops are open. -/
  loops : Nat := 0
  /-- Whether a sign that is a comparison elsewhere begins a redirection. -/
  printing : Bool := false

abbrev Parser := ExceptT Halt (StateM Reading)

namespace Parser

variable {α : Type}

/-! ## Mistakes -/

def mostErrors : Nat := 5

def report (message : String) : Parser Unit := do
  modify fun r => { r with errors := message :: r.errors }
  if mostErrors ≤ (← get).errors.length then throw .abort

def complain (what : String) : Parser Unit := do
  let r ← get
  report s!"{Token.lineName r.source r.line}: {what}"

/-- Passes brackets that close nothing; `fuel` is the number of tokens. -/
def settle : Nat → Parser Unit
  | 0 => return ()
  | fuel + 1 => do
    let r ← get
    match r.tokens with
    | [] => return ()
    | t :: rest =>
      set { r with line := t.line }
      match t.token with
      | .mistake message =>
        report message
        throw .abort
      | .sign ")" =>
        if r.parens = 0 then
          complain "extra ')'"
          modify fun r => { r with tokens := rest }
          settle fuel
      | .sign "\x7d" =>
        if r.braces = 0 then
          complain "extra '\x7d'"
          let ends := (rest.head?.map (·.line)) ≠ some t.line
          let rest := if ends then ⟨.newline, t.line, "end of line"⟩ :: rest else rest
          modify fun r => { r with tokens := rest }
          settle fuel
      | .ending =>
        if 0 < r.braces then
          complain "missing \x7d near end of file"
          throw .abort
      | _ => return ()

def current : Parser Located := do
  settle ((← get).tokens.length + 1)
  return (← get).tokens.headD ⟨.ending, (← get).line, "end of file"⟩

def advance : Parser Located := do
  let t ← current
  modify fun r =>
    let r := { r with tokens := r.tokens.drop 1 }
    match t.token with
    | .sign "(" => { r with parens := r.parens + 1 }
    | .sign ")" => { r with parens := r.parens - 1 }
    | .sign "\x7b" => { r with braces := r.braces + 1 }
    | .sign "\x7d" => { r with braces := r.braces - 1 }
    | _ => r
  return t

def endsStatement : Token → Bool
  | .newline | .semicolon | .sign "\x7d" => true
  | _ => false

def refuse : Parser α := do
  let t ← current
  let r ← get
  match t.token with
  | .unexpected c => report s!"{t.line}: unexpected character '{c}'"
  | token =>
    if 0 < r.parens && endsStatement token then
      modify fun r => { r with parens := 0 }
      complain s!"missing ) near {t.shown}"
    else complain s!"syntax error at or near {t.shown}"
  throw .mistake

/-! ## Tokens -/

def isSign (s : String) : Parser Bool := do
  match (← current).token with
  | .sign t => return s = t
  | _ => return false

def signAmong? (ss : List String) : Parser (Option String) := do
  match (← current).token with
  | .sign t => return if ss.contains t then some t else none
  | _ => return none

def takeIf (s : String) : Parser Bool := do
  if ← isSign s then
    discard advance
    return true
  else return false

def expect (s : String) : Parser Unit := do
  unless ← takeIf s do refuse

def passLines : Nat → Parser Unit
  | 0 => return ()
  | fuel + 1 => do
    match (← current).token with
    | .newline =>
      discard advance
      passLines fuel
    | _ => return ()

def skipLines : Parser Unit := do passLines ((← get).tokens.length)

/-- Takes the end of a statement; a closing brace ends one too and stays. -/
def takeEnd : Parser Unit := do
  match (← current).token with
  | .newline | .semicolon => discard advance
  | .sign "\x7d" => return ()
  | _ => refuse

def following : Parser Token := do
  return ((← get).tokens[1]?.map (·.token)).getD .ending

def enclosed (p : Parser α) : Parser α := do
  let printing := (← get).printing
  modify fun r => { r with printing := false }
  let a ← p
  modify fun r => { r with printing }
  return a

/-! ## Names -/

def variableNamed (name : String) : Parser Variable := do
  let r ← get
  match r.parameters.findIdx? (· = name) with
  | some i => return .parameter i
  | none =>
    match r.names.findIdx? (· = name) with
    | some i => return .global i
    | none =>
      set { r with names := r.names.push name, uses := r.uses.push .unknown }
      return .global r.names.size

def useOf (r : Reading) (function : Option Nat) (v : Variable) : Use :=
  match v, function with
  | .global i, _ => r.uses[i]?.getD .unknown
  | .parameter i, some f => (r.parameterUses.lookup (f, i)).getD .unknown
  | .parameter _, none => .unknown

def noteUse (v : Variable) (use : Use) : Parser Unit := do
  let r ← get
  let (kind, name) := match v with
    | .global i => ("", r.names[i]?.getD "")
    | .parameter i => ("local ", r.parameters[i]?.getD "")
  match useOf r r.function v, use with
  | .scalar, .array => complain s!"illegal reference to {kind}variable {name}"
  | .array, .scalar => complain s!"illegal reference to {kind}array {name}"
  | .unknown, use =>
    match v, r.function with
    | .global i, _ => set { r with uses := r.uses.setIfInBounds i use }
    | .parameter i, some f => set { r with parameterUses := ((f, i), use) :: r.parameterUses }
    | .parameter _, none => return ()
  | _, _ => return ()

def scalarNamed (name : String) : Parser Variable := do
  let v ← variableNamed name
  noteUse v .scalar
  return v

def arrayNamed (name : String) : Parser Variable := do
  let v ← variableNamed name
  noteUse v .array
  return v

def takeArray : Parser Variable := do
  match (← current).token with
  | .name w =>
    let v ← arrayNamed w
    discard advance
    return v
  | _ => refuse

def functionNamed (name : String) : Parser Nat := do
  let r ← get
  match r.functions.findIdx? (·.name = name) with
  | some i => return i
  | none =>
    set { r with functions := r.functions.push { name } }
    return r.functions.size

def isFunction (name : String) : Parser Bool := do
  let r ← get
  return !r.parameters.contains name && r.functions.any (·.name = name)

/-! ## Patterns -/

def regexOf (s : String) : Parser Regex := do
  match patternOf s with
  | .ok r => return r
  | .error e =>
    complain s!"regular expression compile failed ({e.message})\n{s}"
    return .empty

def asPattern (e : Expr) : Parser Pattern := do
  match e with
  | .fits r => return .fixed r
  | .text s => return .fixed (← regexOf s)
  | e => return .computed e

/-! ## Expressions -/

def comparisons : List (String × Comparison) := [
  ("==", .equal), ("!=", .unequal), ("<", .less), ("<=", .lessOrEqual), (">", .greater),
  (">=", .greaterOrEqual)]

def assignments : List (String × Option Arithmetic) := [
  ("=", none), ("+=", some .add), ("-=", some .subtract), ("*=", some .multiply),
  ("/=", some .divide), ("%=", some .remainder), ("^=", some .power)]

/-- How strongly a sign between two operands binds them; the weakest is 1. -/
def strength (printing : Bool) (s : String) : Nat :=
  if s = "||" then 1
  else if s = "&&" then 2
  else if s = "in" then 3
  else if s = "~" || s = "!~" then 4
  else if s = ">" && printing then 0
  else if (comparisons.lookup s).isSome then 5
  else 0

def placeOf? : Expr → Option Place
  | .place p => some p
  | _ => none

def beginsOperand : Token → Bool
  | .number _ | .text _ | .pattern _ | .name _ | .called _ => true
  | .sign s => ["(", "!", "$", "++", "--", "getline"].contains s || Token.specialFunctions.contains s ||
      (Token.builtins.lookup s).isSome
  | _ => false

def isOutOfRange (x : Float) (shown : String) : Bool :=
  let digits := (shown.toList.takeWhile fun c => c ≠ 'e' && c ≠ 'E').filter Char.isDigit
  x.isInf || (x < 2.2250738585072014e-308 && digits.any (· ≠ '0'))

/-- What comes of two operands and a sign between them, other than `in`. -/
def combine (s : String) (a b : Expr) : Parser Expr := do
  if s = "||" then return .either a b
  else if s = "&&" then return .both a b
  else if s = "~" || s = "!~" then return .matching (s = "!~") a (← asPattern b)
  else match comparisons.lookup s with
    | some o => return .compare o a b
    | none => refuse

mutual

def takeExpr : Nat → Parser Expr
  | 0 => throw .abort
  | fuel + 1 => do
    let c ← takeLevel fuel 1
    if ← takeIf "?" then
      let a ← takeExpr fuel
      expect ":"
      let b ← takeExpr fuel
      return .choice c a b
    else return c

def takeLevel : Nat → Nat → Parser Expr
  | 0, _ => throw .abort
  | fuel + 1, level => do climb fuel level (← takeJoined fuel)

def climb : Nat → Nat → Expr → Parser Expr
  | 0, _, _ => throw .abort
  | fuel + 1, level, a => do
    match (← current).token with
    | .sign s =>
      let n := strength (← get).printing s
      if n = 0 || n < level then return a
      discard advance
      if s = "in" then
        let array ← takeArray
        climb fuel level (.member [a] array)
      else
        let b ← takeLevel fuel (n + 1)
        climb fuel level (← combine s a b)
    | _ => return a

def takeJoined : Nat → Parser Expr
  | 0 => throw .abort
  | fuel + 1 => do
    let a ← takeSum fuel
    match (← current).token, placeOf? a with
    | .sign s, some p =>
      match assignments.lookup s with
      | some operation =>
        discard advance
        return .assign p operation (← takeExpr fuel)
      | none => takeMore fuel a
    | _, _ => takeMore fuel a

def takeMore : Nat → Expr → Parser Expr
  | 0, _ => throw .abort
  | fuel + 1, a => do
    if beginsOperand (← current).token then
      let b ← takeSum fuel
      takeMore fuel (.join a b)
    else return a

def takeSum : Nat → Parser Expr
  | 0 => throw .abort
  | fuel + 1 => do addTerms fuel (← takeProduct fuel)

def addTerms : Nat → Expr → Parser Expr
  | 0, _ => throw .abort
  | fuel + 1, a => do
    if ← takeIf "+" then addTerms fuel (.arithmetic .add a (← takeProduct fuel))
    else if ← takeIf "-" then addTerms fuel (.arithmetic .subtract a (← takeProduct fuel))
    else return a

def takeProduct : Nat → Parser Expr
  | 0 => throw .abort
  | fuel + 1 => do addFactors fuel (← takeSigned fuel)

def addFactors : Nat → Expr → Parser Expr
  | 0, _ => throw .abort
  | fuel + 1, a => do
    if ← takeIf "*" then addFactors fuel (.arithmetic .multiply a (← takeSigned fuel))
    else if ← takeIf "/" then addFactors fuel (.arithmetic .divide a (← takeSigned fuel))
    else if ← takeIf "%" then addFactors fuel (.arithmetic .remainder a (← takeSigned fuel))
    else return a

def takeSigned : Nat → Parser Expr
  | 0 => throw .abort
  | fuel + 1 => do
    if ← takeIf "!" then return .not (← takeSigned fuel)
    else if ← takeIf "-" then return .negative (← takeSigned fuel)
    else if ← takeIf "+" then return .positive (← takeSigned fuel)
    else takePiped fuel (← takePower fuel)

def takePiped : Nat → Expr → Parser Expr
  | 0, _ => throw .abort
  | fuel + 1, a => do
    if (← get).printing then return a
    let .sign "|" := (← current).token | return a
    let .sign "getline" := ← following | return a
    discard advance
    discard advance
    let target ← takeTarget fuel
    takePiped fuel (.readCommand a target)

def takePower : Nat → Parser Expr
  | 0 => throw .abort
  | fuel + 1 => do
    let a ← takeStepped fuel
    if ← takeIf "^" then
      let signed ← signAmong? ["!", "-", "+"]
      let b ← if signed.isSome then takeSigned fuel else takePower fuel
      return .arithmetic .power a b
    else return a

def takeStepped : Nat → Parser Expr
  | 0 => throw .abort
  | fuel + 1 => do
    let a ← takeOperand fuel
    match placeOf? a with
    | some p =>
      if ← takeIf "++" then return .step p 1 false
      else if ← takeIf "--" then return .step p (-1) false
      else return a
    | none => return a

def takeTarget : Nat → Parser (Option Place)
  | 0 => throw .abort
  | fuel + 1 => do
    match (← current).token with
    | .name _ | .sign "$" => return placeOf? (← takeOperand fuel)
    | _ => return none

def takeList : Nat → Parser (List Expr)
  | 0 => throw .abort
  | fuel + 1 => do
    let e ← takeExpr fuel
    if ← takeIf "," then return e :: (← takeList fuel) else return [e]

def takeArguments : Nat → Parser (List Expr)
  | 0 => throw .abort
  | fuel + 1 => do
    if ← takeIf ")" then return []
    let es ← enclosed (takeArgumentList fuel)
    expect ")"
    return es

/-- Reads arguments; a name alone may be that of an array. -/
def takeArgumentList : Nat → Parser (List Expr)
  | 0 => throw .abort
  | fuel + 1 => do
    let e ← takeArgument fuel
    if ← takeIf "," then return e :: (← takeArgumentList fuel) else return [e]

def takeArgument : Nat → Parser Expr
  | 0 => throw .abort
  | fuel + 1 => do
    match (← current).token, ← following with
    | .name w, .sign s =>
      if (s = "," || s = ")") && !(← isFunction w) then
        let v ← variableNamed w
        discard advance
        return .place (.variable v)
      else takeExpr fuel
    | _, _ => takeExpr fuel

def takeSubscripts : Nat → Parser (List Expr)
  | 0 => throw .abort
  | fuel + 1 => do
    let es ← enclosed (takeList fuel)
    expect "]"
    return es

def takeOperand : Nat → Parser Expr
  | 0 => throw .abort
  | fuel + 1 => do
    match (← current).token with
    | .number x =>
      let shown := (← current).shown
      if isOutOfRange x shown then complain s!"{shown} : decimal overflow"
      discard advance
      return .number x
    | .text s =>
      discard advance
      return .text s
    | .pattern s =>
      let r ← regexOf s
      discard advance
      return .fits r
    | .called w =>
      discard advance
      discard advance
      takeCall fuel w
    | .name w =>
      if ← isFunction w then
        discard advance
        expect "("
        takeCall fuel w
      else if let .sign "[" := ← following then
        let v ← arrayNamed w
        discard advance
        discard advance
        return .place (.element v (← takeSubscripts fuel))
      else
        let v ← scalarNamed w
        discard advance
        return .place (.variable v)
    | .sign s =>
      if s = "(" then takeGroup fuel
      else if s = "$" then
        discard advance
        return .place (.field (← takeFieldNumber fuel))
      else if s = "++" || s = "--" then
        discard advance
        match (← current).token with
        | .name _ | .sign "$" => pure ()
        | _ => refuse
        match placeOf? (← takeOperand fuel) with
        | some p => return .step p (if s = "++" then 1 else -1) true
        | none => refuse
      else if s = "getline" then
        discard advance
        let target ← takeTarget fuel
        if ← takeIf "<" then
          let signed ← signAmong? ["!", "-", "+"]
          let name ← if signed.isSome then takeSigned fuel else takePower fuel
          return .readFile name target
        else return .readNext target
      else if Token.specialFunctions.contains s then
        discard advance
        expect "("
        let e ← enclosed (takeSpecial fuel s)
        expect ")"
        return e
      else match Token.builtins.lookup s with
        | some (f, least, most) =>
          discard advance
          takeBuiltin fuel s f least most
        | none => refuse
    | _ => refuse

def takeFieldNumber : Nat → Parser Expr
  | 0 => throw .abort
  | fuel + 1 => do
    match ← signAmong? ["!", "-", "+"] with
    | some _ => takeSigned fuel
    | none => takeOperand fuel

/-- Reads what stands in brackets: an expression, or subscripts that are looked for. -/
def takeGroup : Nat → Parser Expr
  | 0 => throw .abort
  | fuel + 1 => do
    expect "("
    let es ← enclosed (takeList fuel)
    expect ")"
    match es with
    | [e] => return .group e
    | es =>
      expect "in"
      return .member es (← takeArray)

def takeCall : Nat → String → Parser Expr
  | 0, _ => throw .abort
  | fuel + 1, w => do
    let f ← functionNamed w
    let args ← takeArguments fuel
    let r ← get
    let given := args.map fun e =>
      match e with
      | .place (.variable v) => some v
      | _ => none
    set { r with calls := ⟨f, given, r.function, Token.lineName r.source r.line⟩ :: r.calls }
    return .call f args

def takeBuiltin : Nat → String → Builtin → Nat → Nat → Parser Expr
  | 0, _, _, _, _ => throw .abort
  | fuel + 1, w, f, least, most => do
    if f = .length && !(← isSign "(") then return .builtin f []
    expect "("
    let args ← takeArguments fuel
    if args.length < least || most < args.length then
      complain s!"wrong number of arguments in call to {w}"
    return .builtin f args

def takeSpecial : Nat → String → Parser Expr
  | 0, _ => throw .abort
  | fuel + 1, w => do
    let first ← takeExpr fuel
    expect ","
    if w = "split" then
      let array ← takeArray
      if ← takeIf "," then
        match ← takeExpr fuel with
        | .fits r => return .split first array (some (.fixed r))
        | e => return .split first array (some (.computed e))
      else return .split first array none
    else if w = "match" then
      return .search first (← asPattern (← takeExpr fuel))
    else
      let p ← asPattern first
      let replacement ← takeExpr fuel
      if ← takeIf "," then
        match (← current).token with
        | .number _ | .text _ | .pattern _ => refuse
        | _ => pure ()
        match placeOf? (← takeOperand fuel) with
        | some target => return .replace (w = "gsub") p replacement target
        | none => refuse
      else return .replace (w = "gsub") p replacement (.field (.number 0))

end

/-! ## Statements -/

def passStatement : Nat → Parser Unit
  | 0 => throw .abort
  | fuel + 1 => do
    match (← current).token with
    | .newline | .semicolon =>
      discard advance
      modify fun r => { r with parens := 0, printing := false }
    | .sign "\x7d" => modify fun r => { r with parens := 0, printing := false }
    | .ending => throw .mistake
    | _ =>
      discard advance
      passStatement fuel

def takeRedirection (fuel : Nat) : Parser (Option Redirection) := do
  let kind? : Option OutputKind ← match ← signAmong? [">", ">>", "|"] with
    | some ">" => pure (some .file)
    | some ">>" => pure (some .append)
    | some _ => pure (some .command)
    | none => pure none
  match kind? with
  | none => return none
  | some kind =>
    discard advance
    modify fun r => { r with printing := false }
    return some ⟨kind, ← takeExpr fuel⟩

def endsPrinting (t : Token) : Bool :=
  endsStatement t || match t with
    | .sign s => s = ">" || s = ">>" || s = "|"
    | _ => false

/-- Reads what is printed: nothing, expressions, or expressions in brackets. -/
def takePrinted (fuel : Nat) : Parser (List Expr) := do
  if endsPrinting (← current).token then return []
  if ← isSign "(" then
    let before ← get
    discard advance
    if ← takeIf ")" then return []
    let es ← enclosed (takeList fuel)
    expect ")"
    let t := (← current).token
    let isMember : Bool := match t with
      | .sign "in" => true
      | _ => false
    if endsPrinting t then return es
    if 1 < es.length && !isMember then refuse
    set before
  takeList fuel

def takePrint (fuel : Nat) : Parser (List Expr × Option Redirection) := do
  modify fun r => { r with printing := true }
  let es ← takePrinted fuel
  let redirection ← takeRedirection fuel
  modify fun r => { r with printing := false }
  takeEnd
  return (es, redirection)

def forEachNext : Parser Bool := do
  match (← get).tokens with
  | ⟨.name _, _, _⟩ :: ⟨.sign "in", _, _⟩ :: ⟨.name _, _, _⟩ :: _ => return true
  | _ => return false

def takeOptional (fuel : Nat) (isEnd : Token → Bool) : Parser (Option Expr) := do
  if isEnd (← current).token then return none else return some (← takeExpr fuel)

def takeSemicolon : Parser Unit := do
  match (← current).token with
  | .semicolon => discard advance
  | _ => refuse

def isSemicolon : Token → Bool
  | .semicolon => true
  | _ => false

def isClosing : Token → Bool
  | .sign ")" => true
  | _ => false

def takeCondition (fuel : Nat) : Parser Expr := do
  expect "("
  let c ← takeExpr fuel
  expect ")"
  return c

def takeSimple (fuel : Nat) : Parser Statement := do
  let ended (s : Statement) : Parser Statement := do
    takeEnd
    return s
  let .sign s := (← current).token | ended (.value (← takeExpr fuel))
  if s = "print" then
    discard advance
    let (es, redirection) ← takePrint fuel
    return .print es redirection
  else if s = "printf" then
    discard advance
    let (es, redirection) ← takePrint fuel
    if es.isEmpty then complain "no arguments in call to printf"
    return .printFormat es redirection
  else if s = "break" || s = "continue" then
    if (← get).loops = 0 then complain s!"{s} statement outside of loop"
    discard advance
    ended (if s = "break" then .leaveLoop else .nextRound)
  else if s = "next" || s = "nextfile" then
    unless (← get).inRule do complain s!"improper use of {s}"
    discard advance
    ended (if s = "next" then .nextRecord else .nextFile)
  else if s = "exit" then
    discard advance
    ended (.exit (← takeOptional fuel endsStatement))
  else if s = "return" then
    unless (← get).function.isSome do complain "return outside function body"
    discard advance
    ended (.leaveFunction (← takeOptional fuel endsStatement))
  else if s = "delete" then
    discard advance
    let array ← takeArray
    if ← takeIf "[" then ended (.deleteElement array (← takeSubscripts fuel))
    else ended (.deleteArray array)
  else ended (.value (← takeExpr fuel))

mutual

/-- Reads a statement; one with a mistake in it is passed. -/
def takeStatement : Nat → Parser Statement
  | 0 => throw .abort
  | fuel + 1 => do
    try takeAny fuel catch
      | .abort => throw .abort
      | .mistake =>
        passStatement fuel
        return .empty

def takeAny : Nat → Parser Statement
  | 0 => throw .abort
  | fuel + 1 => do
    match (← current).token with
    | .semicolon | .newline =>
      discard advance
      return .empty
    | .sign s =>
      if s = "\x7d" then return .empty
      else if s = "\x7b" then takeBlock fuel
      else if s = "if" then
        discard advance
        let c ← takeCondition fuel
        skipLines
        let a ← takeStatement fuel
        if ← takeIf "else" then return .cond c a (← takeStatement fuel)
        else return .cond c a .empty
      else if s = "while" then
        discard advance
        let c ← takeCondition fuel
        if let .semicolon := (← current).token then
          discard advance
          return .whileLoop c .empty
        skipLines
        return .whileLoop c (← takeBody fuel)
      else if s = "do" then
        discard advance
        let body ← takeBody fuel
        expect "while"
        let c ← takeCondition fuel
        takeEnd
        return .doLoop body c
      else if s = "for" then
        discard advance
        takeFor fuel
      else takeSimple fuel
    | _ => takeSimple fuel

def takeBody : Nat → Parser Statement
  | 0 => throw .abort
  | fuel + 1 => do
    modify fun r => { r with loops := r.loops + 1 }
    let s ← takeStatement fuel
    modify fun r => { r with loops := r.loops - 1 }
    return s

def takeFor : Nat → Parser Statement
  | 0 => throw .abort
  | fuel + 1 => do
    expect "("
    if ← forEachNext then
      match (← advance).token with
      | .name w =>
        let v ← scalarNamed w
        discard advance
        let array ← takeArray
        expect ")"
        skipLines
        return .forEach v array (← takeBody fuel)
      | _ => refuse
    else
      let start ← takeOptional fuel isSemicolon
      takeSemicolon
      let c ← takeOptional fuel isSemicolon
      takeSemicolon
      let step ← takeOptional fuel isClosing
      expect ")"
      skipLines
      return .forLoop start c step (← takeBody fuel)

def takeBlock : Nat → Parser Statement
  | 0 => throw .abort
  | fuel + 1 => do
    expect "\x7b"
    let ss ← takeStatements fuel
    expect "\x7d"
    if (← get).braces = 0 then
      if let .semicolon := (← current).token then discard advance
    return .block ss

def takeStatements : Nat → Parser (List Statement)
  | 0 => throw .abort
  | fuel + 1 => do
    if ← isSign "\x7d" then return []
    let s ← takeStatement fuel
    return s :: (← takeStatements fuel)

end

/-! ## Rules -/

structure Parts where
  starts : List Statement := []
  rules : List Rule := []
  stops : List Statement := []

def takeParameters : Nat → Parser (List String)
  | 0 => throw .abort
  | fuel + 1 => do
    match (← current).token with
    | .name w =>
      discard advance
      if ← takeIf "," then return w :: (← takeParameters fuel)
      expect ")"
      return [w]
    | _ => refuse

def takeFunction (fuel : Nat) : Parser Unit := do
  let name ← match (← current).token with
    | .name w | .called w => pure w
    | _ => refuse
  discard advance
  let r ← get
  let known := r.names.findIdx? (· = name)
  if known.any fun i => useOf r none (.global i) ≠ .unknown then
    complain s!"illegal reference to variable {name}"
  let f ← functionNamed name
  if (((← get).functions[f]?).bind (·.definition)).isSome then complain s!"redefinition of {name}"
  expect "("
  let given ← if ← takeIf ")" then pure [] else takeParameters fuel
  for w in (given.filter fun w => 1 < given.count w).eraseDups do
    complain s!"{w} is duplicated in argument list"
  let parameters := given.eraseDups
  skipLines
  modify fun r => { r with parameters, function := some f }
  let body ← takeBlock fuel
  modify fun r => { r with
    parameters := [], function := none
    functions := r.functions.modify f fun e => { e with definition := some (parameters, body) } }

def takePart (fuel : Nat) (parts : Parts) : Parser Parts := do
  modify fun r => { r with parameters := [], function := none, inRule := false, loops := 0 }
  match ← signAmong? ["BEGIN", "END", "function", "\x7b"] with
  | some "BEGIN" =>
    discard advance
    return { parts with starts := (← takeBlock fuel) :: parts.starts }
  | some "END" =>
    discard advance
    return { parts with stops := (← takeBlock fuel) :: parts.stops }
  | some "function" =>
    discard advance
    takeFunction fuel
    return parts
  | some _ =>
    modify fun r => { r with inRule := true }
    return { parts with rules := ⟨.every, some (← takeBlock fuel)⟩ :: parts.rules }
  | none =>
    modify fun r => { r with inRule := true }
    let e ← takeExpr fuel
    let selection ← if ← takeIf "," then pure (Selection.range e (← takeExpr fuel))
      else pure (Selection.only e)
    if ← isSign "\x7b" then
      return { parts with rules := ⟨selection, some (← takeBlock fuel)⟩ :: parts.rules }
    else
      takeEnd
      return { parts with rules := ⟨selection, none⟩ :: parts.rules }

def passPart (fuel : Nat) : Nat → Parser Unit
  | 0 => return ()
  | tokens + 1 => do
    match (← current).token with
    | .ending => return ()
    | .sign "\x7b" =>
      modify fun r => { r with inRule := true, parens := 0, printing := false }
      discard (takeBlock fuel)
    | _ =>
      discard advance
      passPart fuel tokens

def takeParts (fuel : Nat) : Nat → Parts → Parser Parts
  | 0, parts => return parts
  | count + 1, parts => do
    if let .ending := (← current).token then return parts
    let next ← try takePart fuel parts catch
      | .abort => throw .abort
      | .mistake =>
        passPart fuel ((← get).tokens.length + 1)
        pure parts
    takeParts fuel count next

/-! ## Programs -/

structure Arrays where
  parameters : List (Nat × Nat)
  globals : List Nat

/-- Whether a variable is an array; `function` is the one it stands in. -/
def Arrays.has (a : Arrays) (function : Option Nat) (v : Variable) : Bool :=
  match v, function with
  | .global i, _ => a.globals.contains i
  | .parameter i, some f => a.parameters.contains (f, i)
  | .parameter _, none => false

def Arrays.add (a : Arrays) (function : Option Nat) (v : Variable) : Arrays :=
  match v, function with
  | .global i, _ => { a with globals := i :: a.globals }
  | .parameter i, some f => { a with parameters := (f, i) :: a.parameters }
  | .parameter _, none => a

/-- Adds the variables that are arrays because they are given where a parameter is an array; `fuel`
bounds the rounds. -/
def Arrays.spread (r : Reading) : Nat → Arrays → Arrays
  | 0, a => a
  | fuel + 1, a =>
    let next := r.calls.foldl (fun (a : Arrays) c =>
      c.arguments.zipIdx.foldl (fun (a : Arrays) (v?, i) =>
        match v? with
        | some v =>
          let isNew := !a.has c.caller v && useOf r c.caller v = .unknown
          if a.parameters.contains (c.function, i) && isNew then a.add c.caller v else a
        | none => a) a) a
    if next.parameters.length + next.globals.length = a.parameters.length + a.globals.length
    then a else spread r fuel next

def arraysOf (r : Reading) : Arrays :=
  let globals := (List.range r.uses.size).filter fun i => useOf r none (.global i) = .array
  let parameters := (r.parameterUses.filter fun (_, use) => use = .array).map (·.1)
  Arrays.spread r (r.names.size + r.calls.length + 1) ⟨parameters, globals⟩

def checkCalls : Parser Unit := do
  let r ← get
  let arrays := arraysOf r
  for c in r.calls.reverse do
    let e := r.functions[c.function]?.getD default
    if let some (parameters, _) := e.definition then
      if parameters.length < c.arguments.length then
        report s!"{c.place}: too many arguments in call to {e.name}"
      for (v?, i) in c.arguments.zipIdx do
        let given : Use := match v? with
          | some v =>
            if arrays.has c.caller v then .array else useOf r c.caller v
          | none => .scalar
        let wanted : Use :=
          if arrays.parameters.contains (c.function, i) then .array
          else useOf r (some c.function) (.parameter i)
        let clash (a b : String) : Parser Unit :=
          report (s!"{c.place}: type error in arg({i + 1}) in call to {e.name} " ++
            s!"(actual local {a} vs local {b})")
        match given, wanted with
        | .scalar, .array => clash "variable" "array"
        | .array, .scalar => clash "array" "variable"
        | _, _ => pure ()
  for e in r.functions do
    if e.definition.isNone then complain s!"function {e.name} never defined"

def programOf (parts : Parts) (r : Reading) : Program :=
  let all := arraysOf r
  let functions := r.functions.mapIdx fun f e =>
    let (names, body) := e.definition.getD ([], .empty)
    let arrays := (List.range names.length).map fun i => all.parameters.contains (f, i)
    ({ name := e.name, parameters := names, body, arrays := arrays.toArray } : Function)
  { starts := parts.starts.reverse
    rules := parts.rules.reverse.toArray
    stops := parts.stops.reverse
    functions
    names := r.names
    arrays := ((List.range r.names.size).map all.globals.contains).toArray }

end Parser

/-- Reads a program from its texts, each with the name of its source; `names` are variables besides
those that stand in it. -/
def Program.read (names : List String) (texts : List (String × String)) :
    Except (List String) Program := do
  let more := names.eraseDups.filter fun w => !knownNames.contains w
  let start : Reading := { tokens := [] }
  let start := { start with
    names := start.names ++ more.toArray
    uses := start.uses ++ (more.map fun _ => Use.unknown).toArray }
  let step (before : Parser.Parts × Reading) (source : String × String) :
      Except (List String) (Parser.Parts × Reading) := do
    let (parts, r) := before
    let tokens := Token.tokensOf source.1 source.2
    let fuel := 40 * (tokens.length + 10)
    let r := { r with tokens, source := source.1, parens := 0, braces := 0 }
    match (Parser.takeParts fuel (tokens.length + 1) parts).run r with
    | (.ok parts, r) => return (parts, r)
    | (.error _, r) => throw r.errors.reverse
  let (parts, r) ← texts.foldlM step ({}, start)
  if !r.errors.isEmpty then throw r.errors.reverse
  let (_, checked) := Parser.checkCalls.run r
  if !checked.errors.isEmpty then throw checked.errors.reverse
  return Parser.programOf parts r

end ModularBuild.Utility.Rules
