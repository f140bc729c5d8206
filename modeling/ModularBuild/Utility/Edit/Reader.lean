import ModularBuild.Text.Escape
import ModularBuild.Text.VersionOrder
import ModularBuild.Utility.Edit.Script

/-!
# Reading scripts of the line editor

A script comes in parts, from arguments and from files. Blocks may begin in one part and end in
another, and a text that ends in a backslash goes on in the next part.
-/

namespace ModularBuild.Utility.Edit

open Text

/-! ## Mistakes -/

inductive Mistake where
  | unknownCommand (c : Char)
  | missingCommand
  | unterminated (c : Char)
  | unterminatedAddress
  | doubledFlag (c : Char)
  | doubledNumber
  | zeroNumber
  | unknownFlag
  | differentLengths
  | extraCharacters
  | unexpectedComma
  | unexpectedClose
  | unmatchedOpen
  | doubledNegation
  | missingLabel
  | addressOfLabel
  | addressOfComment
  | addressOfClose
  | expectedBackslash
  | zeroLine
  | relativeFirst
  | singleAddress
  | missingFile
  | badReference (n : Nat)
  | newerVersion
  | flagsOfEmpty
  | forbidden
  | regex (e : RegexError)

def Mistake.message : Mistake → String
  | unknownCommand c => s!"unknown command: \x60{String.ofList [c]}'"
  | missingCommand => "missing command"
  | unterminated c => s!"unterminated \x60{String.ofList [c]}' command"
  | unterminatedAddress => "unterminated address regex"
  | doubledFlag c => s!"multiple \x60{String.ofList [c]}' options to \x60s' command"
  | doubledNumber => "multiple number options to \x60s' command"
  | zeroNumber => "number option to \x60s' command may not be zero"
  | unknownFlag => "unknown option to \x60s'"
  | differentLengths => "strings for \x60y' command are different lengths"
  | extraCharacters => "extra characters after command"
  | unexpectedComma => "unexpected \x60,'"
  | unexpectedClose => "unexpected \x60\x7d'"
  | unmatchedOpen => "unmatched \x60\x7b'"
  | doubledNegation => "multiple \x60!'s"
  | missingLabel => "\":\" lacks a label"
  | addressOfLabel => ": doesn't want any addresses"
  | addressOfComment => "comments don't accept any addresses"
  | addressOfClose => "\x60\x7d' doesn't want any addresses"
  | expectedBackslash => "expected \\ after \x60a', \x60c' or \x60i'"
  | zeroLine => "invalid usage of line address 0"
  | relativeFirst => "invalid usage of +N or ~N as first address"
  | singleAddress => "command only uses one address"
  | missingFile => "missing filename in r/R/w/W commands"
  | badReference n => s!"invalid reference \\{n} on \x60s' command's RHS"
  | newerVersion => "expected newer version of sed"
  | flagsOfEmpty => "cannot specify modifiers on empty regexp"
  | forbidden => "e/r/w commands disabled in sandbox mode"
  | regex e => e.message

/-! ## The reader -/

structure OpenText where
  selection : Selection
  action : String → Action
  text : List Char

structure Draft where
  rest : List Char := []
  place : Place := {}
  commands : Array Command := #[]
  labels : List (String × Nat) := []
  /-- The blocks that are open, with the place in the script that they begin at. -/
  blocks : List (Nat × Place) := []
  openText : Option OpenText := none
  quiet : Bool := false
  extended : Bool := false
  /-- Whether only what all editors know is understood. -/
  plain : Bool := false
  /-- Whether files and programs are out of reach. -/
  confined : Bool := false

abbrev ScriptReader := StateT Draft (Except (Place × Mistake))

namespace ScriptReader

variable {α : Type}

def fail (m : Mistake) : ScriptReader α := do throw ((← get).place, m)

def take? : ScriptReader (Option Char) := do
  let s ← get
  match s.rest with
  | [] => return none
  | c :: rest =>
    let line := s.place.line + if c = '\n' then 1 else 0
    set { s with rest, place := { s.place with taken := s.place.taken + 1, line } }
    return some c

def putBack (c? : Option Char) : ScriptReader Unit := do
  if let some c := c? then
    modify fun s =>
      let line := s.place.line - if c = '\n' then 1 else 0
      { s with rest := c :: s.rest, place := { s.place with taken := s.place.taken - 1, line } }

def takeWhile (p : Char → Bool) : ScriptReader (List Char) := do
  let s ← get
  let cs := s.rest.takeWhile p
  let line := s.place.line + cs.countP (· = '\n')
  set { s with
    rest := s.rest.drop cs.length
    place := { s.place with taken := s.place.taken + cs.length, line } }
  return cs

def isBlank (c : Char) : Bool := c = ' ' || c = '\t'

def takeVisible? : ScriptReader (Option Char) := do
  discard <| takeWhile isBlank
  take?

def takeNumber : ScriptReader Nat := do
  let ds ← takeWhile Char.isDigit
  return ds.foldl (fun n c => 10 * n + (c.toNat - '0'.toNat)) 0

def takeNumberAt (c? : Option Char) : ScriptReader Nat := do
  putBack c?
  takeNumber

/-! ## Escapes -/

/-- The character that a number or a letter after a backslash stands for, and what follows. -/
def codeAfter? (cs : List Char) : Option (Char × List Char) :=
  let code (base most : Nat) (isDigit : Char → Bool) (rest : List Char) :
      Option (Char × List Char) :=
    if rest.head?.any isDigit then some (takeCode base most isDigit rest) else none
  match cs with
  | 'a' :: rest => some ('\x07', rest)
  | 'f' :: rest => some ('\x0c', rest)
  | 'n' :: rest => some ('\n', rest)
  | 'r' :: rest => some ('\r', rest)
  | 't' :: rest => some ('\t', rest)
  | 'v' :: rest => some ('\x0b', rest)
  | 'c' :: c :: rest => some (Char.ofNat (c.toUpper.toNat ^^^ 64), rest)
  | 'd' :: rest => code 10 3 Char.isDigit rest
  | 'o' :: rest => code 8 3 isOctal rest
  | 'x' :: rest => code 16 2 isHexadecimal rest
  | _ => none

/-- A text with its escapes read; other backslashes are left out. -/
def plainText : Nat → List Char → List Char
  | 0, _ => []
  | _, [] => []
  | fuel + 1, '\\' :: cs =>
    match codeAfter? cs, cs with
    | some (c, rest), _ => c :: plainText fuel rest
    | none, c :: rest => c :: plainText fuel rest
    | none, [] => []
  | fuel + 1, c :: cs => c :: plainText fuel cs

def plainPattern : Nat → List Char → List Char
  | 0, _ => []
  | _, [] => []
  | fuel + 1, '\\' :: cs =>
    match codeAfter? cs, cs with
    | some (c, rest), _ => c :: plainPattern fuel rest
    | none, c :: rest => '\\' :: c :: plainPattern fuel rest
    | none, [] => ['\\']
  | fuel + 1, c :: cs => c :: plainPattern fuel cs

/-! ## Patterns -/

/-- Takes what stands in a bracket expression, up to its end; `first` says that nothing has been
taken. -/
def takeBracketText : Nat → Bool → ScriptReader (List Char)
  | 0, _ => return []
  | fuel + 1, first => do
    match ← take? with
    | none => return []
    | some '\n' =>
      putBack (some '\n')
      return []
    | some ']' =>
      if first then return ']' :: (← takeBracketText fuel false) else return [']']
    | some '^' => return '^' :: (← takeBracketText fuel first)
    | some '[' =>
      match ← take? with
      | some c =>
        if c = ':' || c = '.' || c = '=' then
          let name ← takeWhile fun d => d ≠ c && d ≠ '\n'
          let close := [c, ']']
          if close.isPrefixOf (← get).rest then
            discard take?
            discard take?
            return '[' :: c :: name ++ close ++ (← takeBracketText fuel false)
          else return '[' :: c :: name ++ (← takeBracketText fuel false)
        else
          putBack (some c)
          return '[' :: (← takeBracketText fuel false)
      | none => return ['[']
    | some '\\' =>
      match (← get).rest with
      | 'n' :: _ =>
        discard take?
        return '\n' :: (← takeBracketText fuel false)
      | _ => return '\\' :: (← takeBracketText fuel false)
    | some c => return c :: (← takeBracketText fuel false)

/-- Takes a text up to a sign that has no backslash before it; none if there is no such sign. -/
def takeUpTo? (sign : Char) (isPattern : Bool) : Nat → ScriptReader (Option (List Char))
  | 0 => return none
  | fuel + 1 => do
    match ← take? with
    | none => return none
    | some '\n' =>
      putBack (some '\n')
      return none
    | some c =>
      if c = sign then return some []
      else if c = '\\' then
        match ← take? with
        | none => return none
        | some d =>
          let taken :=
            if d = sign && (isPattern || d ≠ '&') then [d]
            else if d = 'n' && isPattern then ['\n']
            else if d = '\n' && isPattern then [d]
            else ['\\', d]
          return (← takeUpTo? sign isPattern fuel).map (taken ++ ·)
      else if c = '[' && isPattern then
        let inside ← takeBracketText ((← get).rest.length + 1) true
        return (← takeUpTo? sign isPattern fuel).map (c :: inside ++ ·)
      else return (← takeUpTo? sign isPattern fuel).map (c :: ·)

def takeDelimited? (sign : Char) (isPattern : Bool) : ScriptReader (Option (List Char)) := do
  takeUpTo? sign isPattern ((← get).rest.length + 1)

structure PatternFlags where
  folds : Bool := false
  multiline : Bool := false

/-- Reads an expression; an empty one stands for the one used last. -/
def patternOf (cs : List Char) (flags : PatternFlags) : ScriptReader (Option Pattern) := do
  if cs.isEmpty then
    if flags.folds || flags.multiline then fail .flagsOfEmpty
    return none
  let extended := (← get).extended
  let style : RegexStyle := { extended, strict := extended, refusesDoubled := !extended }
  match Regex.compile style (plainPattern cs.length cs) with
  | .error e => fail (.regex e)
  | .ok r =>
    return some {
      regex := r.regex, groups := r.groups, folds := flags.folds, multiline := flags.multiline }

/-! ## Addresses -/

def takePatternFlags (flags : PatternFlags) : Nat → ScriptReader PatternFlags
  | 0 => return flags
  | fuel + 1 => do
    match ← takeVisible? with
    | some 'I' => takePatternFlags { flags with folds := true } fuel
    | some 'M' => takePatternFlags { flags with multiline := true } fuel
    | c? =>
      putBack c?
      return flags

def takeAddress? (c? : Option Char) : ScriptReader (Option RangeEnd) := do
  match c? with
  | some '/' => pattern (some '/')
  | some '\\' => pattern (← take?)
  | some '$' => return some (.address .last)
  | some '+' =>
    return some (.after (← takeNumberAt (← takeVisible?)))
  | some '~' =>
    return some (.multiple (← takeNumberAt (← takeVisible?)))
  | some c =>
    if !c.isDigit then return none
    let n ← takeNumberAt c?
    match ← takeVisible? with
    | some '~' =>
      let step ← takeNumberAt (← takeVisible?)
      return some (.address (if step = 0 then .line n else .every n step))
    | d? =>
      putBack d?
      return some (.address (.line n))
  | none => return none
where
  pattern (sign? : Option Char) : ScriptReader (Option RangeEnd) := do
    let cs? ← match sign? with
      | some sign => takeDelimited? sign true
      | none => pure none
    match cs? with
    | none => fail .unterminatedAddress
    | some cs =>
      let flags ← takePatternFlags {} ((← get).rest.length + 1)
      return some (.address (.matching (← patternOf cs flags)))

/-- Takes the addresses of a command; the character after them is taken too. -/
def takeSelection (c? : Option Char) : ScriptReader (Selection × Option Char) := do
  let (selection, c?) ← match ← takeAddress? c? with
    | none => pure ({}, c?)
    | some (.after _) | some (.multiple _) => fail .relativeFirst
    | some (.address start) =>
      let (stop, c?) ← match ← takeVisible? with
        | some ',' =>
          match ← takeAddress? (← takeVisible?) with
          | none => fail .unexpectedComma
          | stop => pure (stop, ← takeVisible?)
        | c? => pure (none, c?)
      match start, stop with
      | .line 0, some (.address (.matching _)) => pure ()
      | .line 0, _ => fail .zeroLine
      | _, _ => pure ()
      pure ({ start := some start, stop : Selection }, c?)
  if c? = some '!' then
    let c? ← takeVisible?
    if c? = some '!' then fail .doubledNegation
    return ({ selection with negated := true }, c?)
  return (selection, c?)

/-! ## Parts of commands -/

def takeEnd : ScriptReader Unit := do
  match ← takeVisible? with
  | none | some '\n' | some ';' => return ()
  | some c =>
    if c = '}' || c = '#' then putBack (some c) else fail .extraCharacters

def takeLabel : ScriptReader String := do
  discard <| takeWhile isBlank
  let cs ← takeWhile fun c => !isSpace c && c ≠ ';' && c ≠ '}'
  return String.ofList cs

/-- Takes the name of a file, which goes up to the end of the line. -/
def takeFileName : ScriptReader String := do
  if (← get).confined then fail .forbidden
  discard <| takeWhile isBlank
  let cs ← takeWhile (· ≠ '\n')
  if cs.isEmpty then fail .missingFile
  discard take?
  return String.ofList cs

def takeSink : ScriptReader Sink := do
  match ← takeFileName with
  | "/dev/stdout" => return .output
  | "/dev/stderr" => return .complaints
  | name => return .file name

def addCommand (selection : Selection) (action : Action) : ScriptReader Unit :=
  modify fun s => { s with commands := s.commands.push { selection, action } }

def addText (t : OpenText) : ScriptReader Unit := do
  modify fun s => { s with openText := none }
  addCommand t.selection (t.action (String.ofList (plainText t.text.length t.text)))

/-- Goes on with a text up to the end of a line that has no backslash before it. -/
def takeText (t : OpenText) : Nat → ScriptReader Unit
  | 0 => return ()
  | fuel + 1 => do
    let more (cs : List Char) : OpenText := { t with text := t.text ++ cs }
    match ← take? with
    | none | some '\n' => addText (more ['\n'])
    | some '\\' =>
      match ← take? with
      | none => modify fun s => { s with openText := some (more ['\n']) }
      | some c => takeText (more ['\\', c]) fuel
    | some c => takeText (more [c]) fuel

def takeTextOf (selection : Selection) (action : String → Action) : ScriptReader Unit := do
  let t : OpenText := { selection, action, text := [] }
  match ← takeVisible? with
  | none => fail .expectedBackslash
  | some '\\' =>
    match ← take? with
    | none =>
      modify fun s => { s with openText := some t }
      return ()
    | some '\n' => pure ()
    | some c => putBack (some c)
  | some c =>
    if (← get).plain then
      discard take?
      fail .expectedBackslash
    putBack (some c)
  takeText t ((← get).rest.length + 1)

/-! ## Replacing -/

def piecesOf : Nat → List Char → List Piece
  | 0, _ => []
  | _, [] => []
  | fuel + 1, '&' :: cs => .group 0 :: piecesOf fuel cs
  | fuel + 1, '\\' :: cs =>
    match codeAfter? cs, cs with
    | some (c, rest), _ => .text [c] :: piecesOf fuel rest
    | none, 'U' :: rest => .turn (some true) :: piecesOf fuel rest
    | none, 'L' :: rest => .turn (some false) :: piecesOf fuel rest
    | none, 'E' :: rest => .turn none :: piecesOf fuel rest
    | none, 'u' :: rest => .turnNext true :: piecesOf fuel rest
    | none, 'l' :: rest => .turnNext false :: piecesOf fuel rest
    | none, c :: rest =>
      if c.isDigit then .group (c.toNat - '0'.toNat) :: piecesOf fuel rest
      else .text [c] :: piecesOf fuel rest
    | none, [] => []
  | fuel + 1, cs =>
    let run := cs.takeWhile fun c => c ≠ '&' && c ≠ '\\'
    .text run :: piecesOf fuel (cs.drop run.length)

def greatestGroup (pieces : List Piece) : Nat :=
  pieces.foldl (fun n p => match p with
    | .group m => max n m
    | _ => n) 0

def takeFlags (s : Substitution) (flags : PatternFlags) (numbered : Bool) :
    Nat → ScriptReader (Substitution × PatternFlags)
  | 0 => return (s, flags)
  | fuel + 1 => do
    match ← takeVisible? with
    | none | some '\n' | some ';' => return (s, flags)
    | some 'i' | some 'I' => takeFlags s { flags with folds := true } numbered fuel
    | some 'm' | some 'M' => takeFlags s { flags with multiline := true } numbered fuel
    | some 'e' =>
      if (← get).confined then fail .forbidden
      takeFlags { s with runs := true } flags numbered fuel
    | some 'p' =>
      if s.prints then fail (.doubledFlag 'p')
      takeFlags { s with prints := true } flags numbered fuel
    | some 'g' =>
      if s.all then fail (.doubledFlag 'g')
      takeFlags { s with all := true } flags numbered fuel
    | some 'w' =>
      let sink ← takeSink
      return ({ s with sink := some sink }, flags)
    | some c =>
      if c = '}' || c = '#' then
        putBack (some c)
        return (s, flags)
      else if c.isDigit then
        if numbered then fail .doubledNumber
        let n ← takeNumberAt (some c)
        if n = 0 then fail .zeroNumber
        takeFlags { s with number := n } flags true fuel
      else fail .unknownFlag

def takeSubstitution : ScriptReader Substitution := do
  match ← take? with
  | none => fail (.unterminated 's')
  | some sign =>
    let some pattern ← takeDelimited? sign true | fail (.unterminated 's')
    let some replacement ← takeDelimited? sign false | fail (.unterminated 's')
    let pieces := piecesOf replacement.length replacement
    let (s, flags) ← takeFlags { pattern := none, replacement := pieces } {} false
      ((← get).rest.length + 1)
    let pattern ← patternOf pattern flags
    if let some p := pattern then
      let n := greatestGroup pieces
      if p.groups < n then fail (.badReference n)
    return { s with pattern }

def takeTable : ScriptReader (List (Char × Char)) := do
  match ← take? with
  | none => fail (.unterminated 'y')
  | some sign =>
    let some a ← takeDelimited? sign false | fail (.unterminated 'y')
    let some b ← takeDelimited? sign false | fail (.unterminated 'y')
    let a := plainText a.length a
    let b := plainText b.length b
    if a.length ≠ b.length then fail .differentLengths
    takeEnd
    return a.zip b

/-! ## Commands -/

def version : String := "4.9"

def simpleActions : List (Char × Action) := [
  ('=', .lineNumber), ('d', .delete), ('D', .deleteFirstLine), ('F', .fileName),
  ('g', .fromHold), ('G', .appendFromHold), ('h', .toHold), ('H', .appendToHold), ('n', .next),
  ('N', .appendNext), ('p', .print), ('P', .printFirstLine), ('x', .exchange), ('z', .clear)]

def takeOptionalNumber : ScriptReader (Option Nat) := do
  let c? ← takeVisible?
  putBack c?
  let n ← if c?.any Char.isDigit then some <$> takeNumber else pure none
  takeEnd
  return n

/-- Takes a comment; one at the very start may say that nothing is printed unasked. -/
def takeComment : ScriptReader Unit := do
  let s ← get
  let isFirst := s.place.taken = 1 && s.commands.isEmpty &&
    (match s.place.origin with
      | .argument n => n = 1
      | .file _ => true)
  let text ← takeWhile (· ≠ '\n')
  if isFirst && text = ['n'] then modify fun s => { s with quiet := true }

def takeAction (selection : Selection) (c : Char) : ScriptReader Unit := do
  let add (a : Action) : ScriptReader Unit := addCommand selection a
  match simpleActions.lookup c with
  | some a =>
    takeEnd
    add a
  | none =>
  match c with
  | '#' =>
    if selection.start.isSome then fail .addressOfComment
    takeComment
  | ':' =>
    if selection.start.isSome then fail .addressOfLabel
    let label ← takeLabel
    if label = "" then fail .missingLabel
    modify fun s => { s with labels := (label, s.commands.size) :: s.labels }
  | '{' =>
    modify fun s => { s with blocks := (s.commands.size, s.place) :: s.blocks }
    add (.block 0)
  | '}' =>
    match (← get).blocks with
    | [] => fail .unexpectedClose
    | (start, _) :: blocks =>
      if selection.start.isSome then fail .addressOfClose
      takeEnd
      modify fun s => { s with
        blocks
        commands := s.commands.modify start fun b => { b with action := .block s.commands.size } }
  | 'a' => takeTextOf selection .append
  | 'i' => takeTextOf selection .insert
  | 'c' => takeTextOf selection .replaceLines
  | 'e' =>
    if (← get).confined then fail .forbidden
    match ← takeVisible? with
    | none | some '\n' => add (.execute none)
    | some c =>
      putBack (some c)
      takeText { selection, action := .execute ∘ some, text := [] } ((← get).rest.length + 1)
  | 'b' => add (.jump .always (← takeLabel))
  | 't' => add (.jump .replaced (← takeLabel))
  | 'T' => add (.jump .notReplaced (← takeLabel))
  | 'l' => add (.list (← takeOptionalNumber))
  | 'L' =>
    discard takeOptionalNumber
    add (.unknown 'L')
  | 'q' =>
    if selection.stop.isSome then fail .singleAddress
    add (.quit ((← takeOptionalNumber).getD 0))
  | 'Q' =>
    if selection.stop.isSome then fail .singleAddress
    add (.quitAtOnce ((← takeOptionalNumber).getD 0))
  | 'r' => add (.readFile (← takeFileName))
  | 'R' => add (.readLine (← takeFileName))
  | 'w' => add (.write (← takeSink))
  | 'W' => add (.writeFirstLine (← takeSink))
  | 's' => add (.substitute (← takeSubstitution))
  | 'y' => add (.characters (← takeTable))
  | 'v' => if (compareVersions version (← takeLabel)).isLT then fail .newerVersion
  | c => fail (.unknownCommand c)

/-- Takes the commands of a part; `fuel` bounds their number. -/
def takeCommands : Nat → ScriptReader Unit
  | 0 => return ()
  | fuel + 1 => do
    discard <| takeWhile fun c => isSpace c || c = ';'
    match ← take? with
    | none => return ()
    | c? =>
      let (selection, c?) ← takeSelection c?
      match c? with
      | none => fail .missingCommand
      | some c => takeAction selection c
      takeCommands fuel

end ScriptReader

def Draft.add (d : Draft) (origin : Origin) (text : String) :
    Except (Place × Mistake) Draft := do
  let part : ScriptReader Unit := do
    let fuel := text.length + 1
    if let some t := (← get).openText then ScriptReader.takeText t fuel
    ScriptReader.takeCommands fuel
  let start := { d with rest := text.toList, place := { origin : Place } }
  return (← part.run start).2

/-- Why a script that has been read as a whole cannot be used. -/
inductive Incomplete where
  | openBlock (p : Place)
  | missingLabel (label : String)

def Draft.finish (d : Draft) : Except Incomplete Script := do
  if let (_, p) :: _ := d.blocks then
    throw (.openBlock p.atEnd)
  let commands := match d.openText with
    | none => d.commands
    | some t =>
      let text := String.ofList (ScriptReader.plainText t.text.length t.text)
      d.commands.push { selection := t.selection, action := t.action text }
  let script : Script := {
    commands, labels := d.labels, quiet := d.quiet, stop := d.place.atEnd }
  let missing? (c : Command) : Option String :=
    match c.action with
    | .jump _ label => if (script.place? label).isSome then none else some label
    | _ => none
  if let some label := (commands.toList.filterMap missing?).getLast? then
    throw (.missingLabel label)
  return script

end ModularBuild.Utility.Edit
