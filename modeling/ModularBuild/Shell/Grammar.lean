import ModularBuild.Shell.WordReader

/-!
# Reading commands

The grammar of the shell, one function for each kind of command. A script is read one complete line
at a time, so that a line can define aliases for the next and a mistake is found only when its line
is reached.
-/

namespace ModularBuild.Shell

def specialBuiltins : List String :=
  [".", ":", "break", "continue", "eval", "exec", "exit", "export", "local", "readonly", "return",
    "set", "shift", "times", "trap", "unset"]

inductive ListEnd where
  /-- To the end of a line. -/
  | line
  /-- To a token that ends lists, with at least one command. -/
  | token
  /-- To a token that ends lists. -/
  | tokenOrNothing
deriving DecidableEq

structure Grammar where
  list : ListEnd → Parser (Option Script)
  command : Parser Script

namespace Parser

variable {α : Type}

/-! ## Tokens -/

def unexpected (expected : Option Token) : Parser α := do
  let found := (← get).token.description
  match expected with
  | some t => refuse s!"{found} unexpected (expecting {t.description})"
  | none => refuse s!"{found} unexpected"

def setToken (t : Token) : Parser Token := do
  modify fun s => { s with token := t }
  return t

def backUp : Parser Unit := modify fun s => { s with again := true }

def setChecks (checks : WordChecks) : Parser Unit := modify fun s => { s with checks }

def commandStart : WordChecks := { aliases := true, keywords := true, newlines := true }

def takeDocuments (commands : Parser (Option Script))
    (backquoted : Bool → Parser (Option Script)) : Parser Unit := do
  let pending := (← get).pending
  modify fun s => { s with pending := [] }
  for d in pending do
    let mark : EndMark := ⟨d.endMark, d.stripTabs⟩
    let quoting : Quoting := if d.expands then .double else .single
    let first ← if d.expands then takeJoined else take
    let (w, _) ← takeParts commands backquoted quoting (some mark) first
    modify fun s => { s with documents := (d.id, w.parts.reverse) :: s.documents }

/-- Commands between backquotes: their text is read by itself. -/
def backquotedCommands (g : Grammar) (insideDouble : Bool) : Parser (Option Script) := do
  let text ← takeBackquoted insideDouble
  let outer ← get
  set { outer with sources := [⟨text, none, false⟩], pending := [], again := false }
  let body ← g.list .tokenOrNothing
  modify fun s => { s with
    sources := outer.sources, line := outer.line, pending := outer.pending, again := false
    checks := outer.checks }
  return body

def takeOutputKind : Parser RedirectKind := do
  if ← takeIf '>' then return .append
  if ← takeIf '|' then return .forcedOutput
  if ← takeIf '&' then return .duplicate
  return .output

def takeInputKind : Parser RedirectKind := do
  if ← takeIf '<' then
    let strip ← takeIf '-'
    let id := (← get).nextDocument
    modify fun s => { s with nextDocument := id + 1, stripTabs := strip }
    return .document id
  if ← takeIf '&' then return .duplicate
  if ← takeIf '>' then return .inputOutput
  return .input

def takeRedirect (arrow : Char) (descriptor : Option Nat) : Parser Unit := do
  let kind ← if arrow = '>' then takeOutputKind else takeInputKind
  let standard := if arrow = '>' then 1 else 0
  modify fun s => { s with redirect := (kind, descriptor.getD standard) }

/-- The descriptor that stands in front of a redirection, if the characters so far are one. -/
def descriptorOf? (w : WordState) : Option (Option Nat) :=
  if w.quoted then none
  else match w.parts with
  | [] => some none
  | [.char c false] => if c.isDigit then some (some (c.toNat - '0'.toNat)) else none
  | _ => none

/-- Reads a word, or the redirection that it turns out to be. -/
def takeWord (commands : Parser (Option Script)) (backquoted : Bool → Parser (Option Script))
    (c : Option Char) : Parser Token := do
  let (w, c) ← takeParts commands backquoted .plain none c
  let arrow := c = some '>' || c = some '<'
  match arrow, descriptorOf? w with
  | true, some descriptor =>
    takeRedirect (c.getD ' ') descriptor
    setToken .redirection
  | _, _ =>
    putBackChar c
    let isMark : Part → Bool
      | .quoteMark => true
      | _ => false
    modify fun s => { s with
      word := joinArguments w.parts.reverse, quoted := w.quoted || w.parts.any isMark }
    setToken .word

def skipComment : Parser Unit :=
  loop () fun _ => do
    let c ← take
    if c = some '\n' || c = none then
      putBackChar c
      return .inr ()
    else return .inl ()

def doubled (c : Char) (once twice : Token) : Parser Token := do
  setToken (if ← takeIf c then twice else once)

def nextToken (commands : Parser (Option Script)) (backquoted : Bool → Parser (Option Script)) :
    Parser Token := do
  if (← get).again then
    modify fun s => { s with again := false }
    return (← get).token
  loop () fun _ => do
    match ← takeJoined with
    | some ' ' | some '\t' => return .inl ()
    | some '#' =>
      skipComment
      return .inl ()
    | some '\n' =>
      nextLine
      return .inr (← setToken .newline)
    | none => return .inr (← setToken .endOfFile)
    | some '&' => return .inr (← doubled '&' .ampersand .andIf)
    | some '|' => return .inr (← doubled '|' .pipe .orIf)
    | some ';' => return .inr (← doubled ';' .semicolon .endCase)
    | some '(' => return .inr (← setToken .leftParen)
    | some ')' => return .inr (← setToken .rightParen)
    | c => return .inr (← takeWord commands backquoted c)

/-- Puts the text of an alias in front of the rest, unless it is being read already. -/
def openAlias (name : String) : Parser Bool := do
  let s ← get
  match s.aliases.lookup name with
  | none => return false
  | some text =>
    if s.sources.any (·.aliasName = some name) then return false
    unless text.isEmpty do
      let chars := text.toList
      let goesOn := chars.getLast? = some ' ' || chars.getLast? = some '\t'
      set { s with sources := ⟨chars, some name, goesOn⟩ :: s.sources }
    return true

mutual

def enclosedFor (g : Grammar) : Nat → Parser (Option Script)
  | 0 => refuse "script too long"
  | fuel + 1 => do
    let before := (← get).pending
    modify fun s => { s with pending := [] }
    let body ← g.list .tokenOrNothing
    if (← readTokenFor g fuel) ≠ .rightParen then unexpected (some .rightParen)
    takeDocuments (enclosedFor g fuel) (backquotedCommands g)
    modify fun s => { s with pending := before }
    return body

def readTokenFor (g : Grammar) : Nat → Parser Token
  | 0 => refuse "script too long"
  | fuel + 1 => do
    let checks := (← get).checks
    let next := nextToken (enclosedFor g fuel) (backquotedCommands g)
    loop checks fun checks => do
      let first ← next
      let token ← if checks.newlines then
          loop first fun t => do
            if t = .newline then
              takeDocuments (enclosedFor g fuel) (backquotedCommands g)
              setChecks {}
              return .inl (← next)
            else return .inr t
        else pure first
      let s ← get
      let checks := { checks with aliases := checks.aliases || s.checks.aliases }
      setChecks {}
      match token, s.quoted, plainText? s.word with
      | .word, false, some text =>
        match checks.keywords, Token.keywords.lookup text with
        | true, some t => return .inr (← setToken t)
        | _, _ =>
          if checks.aliases && (← openAlias text) then return .inl checks
          else return .inr token
      | _, _, _ => return .inr token

end

def wordDepth : Nat := 200

def readToken (g : Grammar) : Parser Token := readTokenFor g wordDepth

def expect (g : Grammar) (t : Token) : Parser Unit := do
  if (← readToken g) ≠ t then unexpected (some t)

/-! ## Redirections -/

def characters (w : Word) : String := String.ofList (w.filterMap fun
  | .char c _ => some c
  | _ => none)

def readTarget (g : Grammar) : Parser Redirect := do
  let (kind, descriptor) := (← get).redirect
  let strip := (← get).stripTabs
  if let .document _ := kind then setChecks { endMark := true }
  if (← readToken g) ≠ .word then unexpected none
  let s ← get
  if let .document id := kind then
    let document : PendingDocument := ⟨id, characters s.word, strip, !s.quoted⟩
    modify fun s => { s with pending := s.pending ++ [document] }
  return .mk kind descriptor s.word

def readRedirects (g : Grammar) : Parser (List Redirect) :=
  loop ([] : List Redirect) fun found => do
    setChecks { aliases := true, keywords := true }
    if (← readToken g) = .redirection then return .inl ((← readTarget g) :: found)
    backUp
    return .inr found.reverse

/-! ## Commands -/

/-- What is read of a simple command, newest first. -/
structure SimpleParts where
  assignments : List Word := []
  words : List Word := []
  redirects : List Redirect := []

/-- The list that a command contains. Only the end of the script leaves it empty, and the token that
has to follow will be missed there. -/
def body (g : Grammar) : Parser Script := return (← g.list .token).getD default

def readDefinition (g : Grammar) (word : Word) : Parser Script := do
  expect g .rightParen
  let name? := word.mapM fun
    | .char c false => some c
    | _ => none
  let name := (name?.map String.ofList).getD ""
  if !isName name || specialBuiltins.contains name then refuse "Bad function name"
  setChecks commandStart
  let line := (← get).line
  return .define line name (← g.command)

def readSimple (g : Grammar) : Parser Script := do
  let line := (← get).line
  let finish (p : SimpleParts) : Script :=
    .simple line p.assignments.reverse p.words.reverse p.redirects.reverse
  loop ({} : SimpleParts) fun p => do
    setChecks { aliases := p.words.isEmpty }
    match ← readToken g with
    | .word =>
      let w := (← get).word
      if p.words.isEmpty && isAssignment w then
        return .inl { p with assignments := w :: p.assignments }
      else return .inl { p with words := w :: p.words }
    | .redirection => return .inl { p with redirects := (← readTarget g) :: p.redirects }
    | .leftParen =>
      match p with
      | ⟨[], [w], []⟩ => return .inr (← readDefinition g w)
      | p =>
        backUp
        return .inr (finish p)
    | _ =>
      backUp
      return .inr (finish p)

def readBranches (g : Grammar) : Parser Script := do
  let branch : Parser (Script × Script) := do
    let test ← body g
    expect g .thenWord
    return (test, ← body g)
  let first ← branch
  let (branches, last) ← loop [first] fun found => do
    match ← readToken g with
    | .elifWord => return .inl ((← branch) :: found)
    | .elseWord => return .inr (found, some (← body g))
    | _ =>
      backUp
      return .inr (found, none)
  let rest := branches.foldl (fun no (test, yes) => some (.choice test yes no)) last
  return rest.getD default

def readEach (g : Grammar) (line : Nat) : Parser Script := do
  let isWord := (← readToken g) = .word
  let s ← get
  let name := (plainText? s.word).getD ""
  if !isWord || s.quoted || !isName name then refuse "Bad for loop variable"
  setChecks commandStart
  let words ← if (← readToken g) = .inWord then
      let words ← loop ([] : List Word) fun found => do
        if (← readToken g) = .word then return .inl ((← get).word :: found)
        else return .inr found.reverse
      let t := (← get).token
      if t ≠ .newline && t ≠ .semicolon then unexpected none
      pure words
    else
      if (← get).token ≠ .semicolon then backUp
      pure [[.parameter "@" .value false [] true]]
  setChecks commandStart
  expect g .doWord
  return .each line name words (← body g)

/-- The patterns of an arm, separated by bars, after the first token of the arm. -/
def readPatterns (g : Grammar) : Parser (List Word) := do
  if (← get).token = .leftParen then discard <| readToken g
  let patterns ← loop ([] : List Word) fun found => do
    let w := (← get).word
    if (← readToken g) = .pipe then
      discard <| readToken g
      return .inl (w :: found)
    else return .inr (w :: found).reverse
  if (← get).token ≠ .rightParen then unexpected (some .rightParen)
  return patterns

def readCases (g : Grammar) (line : Nat) : Parser Script := do
  expect g .word
  let word := (← get).word
  setChecks commandStart
  expect g .inWord
  let armStart : WordChecks := { keywords := true, newlines := true }
  setChecks armStart
  discard <| readToken g
  let arms ← loop ([] : List (List Word × Option Script)) fun found => do
    if (← get).token = .esacWord then return .inr found.reverse
    let patterns ← readPatterns g
    let arm := (patterns, ← g.list .tokenOrNothing)
    setChecks armStart
    let t ← readToken g
    if t = .endCase then
      setChecks armStart
      discard <| readToken g
    else if t ≠ .esacWord then unexpected (some .endCase)
    return .inl (arm :: found)
  return .cases line word arms

def redirecting (line : Nat) (c : Script) (rs : List Redirect) : Script :=
  if rs.isEmpty then c
  else match c with
    | .subshell l b [] => .subshell l b rs
    | c => .redirected line c rs

def readCommand (g : Grammar) : Parser Script := do
  let line := (← get).line
  let closed (c : Script) (t : Token) : Parser Script := do
    expect g t
    return redirecting line c (← readRedirects g)
  match ← readToken g with
  | .ifWord => closed (← readBranches g) .fiWord
  | .whileWord => readLoop line false closed
  | .untilWord => readLoop line true closed
  | .forWord => closed (← readEach g line) .doneWord
  | .caseWord =>
    let c ← readCases g line
    return redirecting line c (← readRedirects g)
  | .leftParen => closed (.subshell line (← body g) []) .rightParen
  | .leftBrace => closed (← body g) .rightBrace
  | .word | .redirection =>
    backUp
    readSimple g
  | _ => unexpected none
where
  readLoop (_line : Nat) (untilTrue : Bool) (closed : Script → Token → Parser Script) :
      Parser Script := do
    let test ← body g
    expect g .doWord
    closed (.loop untilTrue test (← body g)) .doneWord

def readPipeline (g : Grammar) (command : Parser Script) : Parser Script := do
  let negated := (← readToken g) = .bang
  if negated then setChecks { aliases := true, keywords := true } else backUp
  let first ← command
  let parts ← loop [first] fun found => do
    if (← readToken g) = .pipe then
      setChecks commandStart
      return .inl ((← command) :: found)
    else return .inr found.reverse
  backUp
  let c := match parts with
    | [c] => c
    | parts => .pipeline parts false
  return if negated then .negation c else c

/-- Pipelines joined by `&&` and `||`. -/
def readAndOr (g : Grammar) (command : Parser Script) : Parser Script := do
  let first ← readPipeline g command
  loop first fun c => do
    match ← readToken g with
    | .andIf =>
      setChecks commandStart
      return .inl (.both c (← readPipeline g command))
    | .orIf =>
      setChecks commandStart
      return .inl (.either c (← readPipeline g command))
    | _ =>
      backUp
      return .inr c

def inBackground : Script → Script
  | .pipeline parts _ => .pipeline parts true
  | .redirected line c rs => .background line c rs
  | c => .background 0 c []

def readList (g : Grammar) (command : Parser Script) (upTo : ListEnd) :
    Parser (Option Script) := do
  let isLine := upTo = .line
  let endDocuments : Parser Unit :=
    takeDocuments (enclosedFor g wordDepth) (backquotedCommands g)
  loop (none : Option Script) fun found => do
    setChecks { commandStart with newlines := !isLine }
    let t ← readToken g
    if t = .newline then
      endDocuments
      return .inr found
    if t = .endOfFile then
      endDocuments
      backUp
      return .inr found
    backUp
    let mayEnd := !isLine && (found.isSome || upTo = .tokenOrNothing)
    if mayEnd && t.endsList then return .inr found
    let c ← readAndOr g command
    let t ← readToken g
    let c := if t = .ampersand then inBackground c else c
    let found := match found with
      | none => c
      | some before => .sequence before c
    match t with
    | .endOfFile =>
      endDocuments
      backUp
      return .inr (some found)
    | .newline =>
      backUp
      return .inl (some found)
    | .ampersand | .semicolon => return .inl (some found)
    | _ =>
      if isLine then unexpected none
      backUp
      return .inr (some found)

end Parser

/-- The grammar for commands inside each other at most `depth` deep. -/
def Grammar.upTo : Nat → Grammar
  | 0 => {
    list := fun _ => Parser.refuse "commands too deep"
    command := Parser.refuse "commands too deep" }
  | depth + 1 =>
    let inner := Grammar.upTo depth
    let command := Parser.readCommand inner
    { command, list := Parser.readList inner command }

def Grammar.depth : Nat := 200

def ParseState.start (script : String) (nextDocument : Nat) : ParseState :=
  let chars := script.toList
  { sources := [⟨chars, none, false⟩], nextDocument, budget := 16 * chars.length + 100000 }

/-- The commands of the next line that has any part of a command; none at the end of the script. -/
def Parser.nextLineOfCommands : Parser (Option (Option Script)) := do
  modify fun s => { s with again := false, checks := {}, pending := [] }
  let g := Grammar.upTo Grammar.depth
  let c ← Parser.readList g (Parser.readCommand g) .line
  let s ← get
  if c.isNone && s.token = .endOfFile then return none else return some c

end ModularBuild.Shell
