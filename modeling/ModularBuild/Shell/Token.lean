import ModularBuild.Shell.Syntax

/-!
# Tokens

The tokens of a script and the reader that stands on it. A script is read character by character; an
alias puts its text in front of what is still to be read. A backslash at the end of a line joins it
with the next one.
-/

namespace ModularBuild.Shell

inductive Token where
  | endOfFile | newline | semicolon | ampersand | andIf | orIf | pipe | leftParen | rightParen
  | endCase | word | redirection | bang
  | caseWord | doWord | doneWord | elifWord | elseWord | esacWord | fiWord | forWord | ifWord
  | inWord | thenWord | untilWord | whileWord | leftBrace | rightBrace
deriving DecidableEq, Repr, Inhabited

namespace Token

/-- The words that are tokens of their own where a command can begin. -/
def keywords : List (String × Token) := [
  ("!", bang), ("case", caseWord), ("do", doWord), ("done", doneWord), ("elif", elifWord),
  ("else", elseWord), ("esac", esacWord), ("fi", fiWord), ("for", forWord), ("if", ifWord),
  ("in", inWord), ("then", thenWord), ("until", untilWord), ("while", whileWord),
  ("\x7b", leftBrace), ("\x7d", rightBrace)]

def signs : List (String × Token) := [
  (";", semicolon), ("&", ampersand), ("&&", andIf), ("||", orIf), ("|", pipe), ("(", leftParen),
  (")", rightParen), (";;", endCase)]

def description (t : Token) : String :=
  match t with
  | endOfFile => "end of file"
  | newline => "newline"
  | word => "word"
  | redirection => "redirection"
  | t =>
    match (signs ++ keywords).find? (·.2 = t) with
    | some (text, _) => "\"" ++ text ++ "\""
    | none => ""

def endsList (t : Token) : Bool :=
  [endOfFile, rightParen, endCase, doWord, doneWord, elifWord, elseWord, esacWord, fiWord,
    thenWord, rightBrace].contains t

end Token

structure SyntaxError where
  line : Nat
  message : String
deriving Repr

structure Source where
  chars : List Char
  /-- The alias that the text belongs to. -/
  aliasName : Option String := none
  /-- Whether the word after the alias can be an alias, too. -/
  goesOn : Bool := false

/-- Which words are looked at again once they are read. -/
structure WordChecks where
  aliases : Bool := false
  keywords : Bool := false
  /-- Whether newlines are skipped. -/
  newlines : Bool := false
  /-- Whether the word ends a text in the script, so that nothing in it is substituted. -/
  endMark : Bool := false

/-- A text in the script that a redirection reads. -/
structure PendingDocument where
  id : Nat
  /-- The line that ends it. -/
  endMark : String
  stripTabs : Bool
  /-- Whether substitutions are made in it. -/
  expands : Bool

structure ParseState where
  sources : List Source
  line : Nat := 1
  aliases : List (String × String) := []
  checks : WordChecks := {}
  /-- Whether the last token is to be read once more. -/
  again : Bool := false
  token : Token := .newline
  word : Word := []
  /-- Whether something in the last word was quoted. -/
  quoted : Bool := false
  /-- The last redirection, without its target. -/
  redirect : RedirectKind × Nat := (.input, 0)
  stripTabs : Bool := false
  pending : List PendingDocument := []
  nextDocument : Nat := 0
  /-- The texts that have been read. -/
  documents : List (Nat × Word) := []
  /-- How often something is repeated at most while the script is read. -/
  budget : Nat

abbrev Parser := StateT ParseState (Except SyntaxError)

namespace Parser

variable {α σ : Type}

def refuse (message : String) : Parser α := do
  throw { line := (← get).line, message := "Syntax error: " ++ message }

def loopFor (step : σ → Parser (σ ⊕ α)) : Nat → σ → Parser α
  | 0, _ => refuse "script too long"
  | fuel + 1, s => do
    match ← step s with
    | .inl s => loopFor step fuel s
    | .inr a => return a

/-- Repeats a step until it answers. A step takes some of the script, so that its length bounds the
number of steps. -/
def loop (s : σ) (step : σ → Parser (σ ⊕ α)) : Parser α := do
  loopFor step (← get).budget s

/-! ## Characters -/

/-- The next character, what is left, and whether an alias was left behind that lets the next word
be an alias. -/
def nextChar : List Source → Bool → Option Char × List Source × Bool
  | [], goesOn => (none, [], goesOn)
  | s :: rest, goesOn =>
    match s.chars with
    | c :: cs => (some c, { s with chars := cs } :: rest, goesOn)
    | [] => if rest.isEmpty then (none, [s], goesOn) else nextChar rest (goesOn || s.goesOn)

/-- Takes a character; none at the end of the script. -/
def take : Parser (Option Char) := do
  let s ← get
  let (c, sources, goesOn) := nextChar s.sources false
  set { s with
    sources
    checks := { s.checks with aliases := s.checks.aliases || goesOn } }
  return c

def putBack (cs : List Char) : Parser Unit := modify fun s =>
  match s.sources with
  | [] => { s with sources := [⟨cs, none, false⟩] }
  | t :: rest => { s with sources := { t with chars := cs ++ t.chars } :: rest }

def nextLine : Parser Unit := modify fun s => { s with line := s.line + 1 }

def takeJoined : Parser (Option Char) :=
  loop () fun _ => do
    match ← take with
    | some '\\' =>
      match ← take with
      | some '\n' =>
        nextLine
        return .inl ()
      | c =>
        putBack c.toList
        return .inr (some '\\')
    | c => return .inr c

def putBackChar (c : Option Char) : Parser Unit := putBack c.toList

def takeIf (c : Char) : Parser Bool := do
  let d ← takeJoined
  if d = some c then return true
  putBackChar d
  return false

end Parser

end ModularBuild.Shell
