import ModularBuild.Utility.Edit.Script
import ModularBuild.Utility.Input
import ModularBuild.Utility.PathNames
import ModularBuild.Utility.Starting

/-!
# Running scripts of the line editor

The editor takes line after line into the pattern space, runs the script, and prints what has become
of the line. Files are one long text, unless each is edited for itself.
-/

namespace ModularBuild.Utility.Edit

open Text

/-! ## The state -/

structure Mode where
  script : Script
  quiet : Bool := false
  ending : Char := '\n'
  /-- Whether each file is a text of its own. -/
  separate : Bool := false
  /-- Whether files are replaced by what becomes of them. -/
  inPlace : Bool := false
  /-- What the name of a file that is replaced becomes; each star stands for the old name. -/
  backup : Option String := none
  followsLinks : Bool := false
  lineLength : Nat := 70
  /-- Whether only what all editors do is done. -/
  plain : Bool := false

/-- What waits to be written at the end of the cycle. -/
inductive Appendix where
  | text (s : String)
  | file (name : String)

/-- Where a command is in the range of lines that it works on. -/
inductive RangeState where
  | before
  /-- Inside, up to a line number if that is known. -/
  | inside (stop : Option Nat)
deriving Inhabited

structure State where
  /-- The pattern space. -/
  text : String := ""
  /-- Whether the line in the pattern space has an end. -/
  ended : Bool := true
  hold : String := ""
  /-- Whether the line in the hold space has an end. -/
  holdEnded : Bool := true
  number : Nat := 0
  fileName : String := "-"
  /-- The lines of the file that have not been read, with their ends. -/
  lines : List String := []
  /-- Why the file cannot be read. -/
  unreadable : Option FileError := none
  /-- Whether a file is open. -/
  reading : Bool := false
  /-- The files that have not been opened. -/
  files : List String
  replaced : Bool := false
  appendices : List Appendix := []
  ranges : Array RangeState
  lastPattern : Option Pattern := none
  /-- Where the last line lacks its end. -/
  unended : List Sink := []
  /-- The open files that are written to. -/
  sinks : List (String × Nat)
  /-- What they are given at the end, newest first. -/
  written : List (Nat × String) := []
  /-- The files that are read line by line, with what is left of them. -/
  readers : List (String × List String) := []
  /-- The file that is being replaced, with what it shall contain, newest first. -/
  edited : Option (String × List String) := none
  code : Nat := 0

inductive Outcome where
  | goOn (place : Nat)
  /-- The cycle ends, and the pattern space is printed. -/
  | done
  /-- The cycle ends. -/
  | dropped
  /-- The cycle begins again with what is in the pattern space. -/
  | again
  | quit (code : Nat)

abbrev EditM := ReaderT Mode (StateT State UtilityM)

namespace EditM

variable {α : Type}

def mode : EditM Mode := read

def inUtility (action : UtilityM α) : EditM α := liftM (m := UtilityM) action

def failureCode : Nat := 4

def fail (s : String) : EditM α := inUtility do
  writeError s!"{← programName}: {s}\n"
  quit failureCode

/-! ## Writing -/

def emit (sink : Sink) (s : String) : EditM Unit := do
  match sink, (← get).edited with
  | .result, some (name, parts) => modify fun st => { st with edited := some (name, s :: parts) }
  | .result, none | .output, _ => inUtility (say s)
  | .complaints, _ => inUtility (writeError s)
  | .file name, _ =>
    if let some i := (← get).sinks.lookup name then
      modify fun st => { st with written := (i, s) :: st.written }

def endLine (sink : Sink) : EditM Unit := do
  if (← get).unended.contains sink then
    emit sink (String.singleton (← mode).ending)
    modify fun st => { st with unended := st.unended.filter (· ≠ sink) }

def emitText (sink : Sink) (s : String) : EditM Unit := do
  endLine sink
  emit sink s

def emitLine (sink : Sink) (s : String) : EditM Unit := do
  endLine sink
  if (← get).ended then emit sink (s ++ String.singleton (← mode).ending)
  else
    emit sink s
    modify fun st => { st with unended := sink :: st.unended }

def printText : EditM Unit := do emitLine .result (← get).text

def flushAppendices : EditM Unit := do
  let waiting := (← get).appendices.reverse
  unless waiting.isEmpty do
    modify fun st => { st with appendices := [] }
    for a in waiting do
      match a with
      | .text s => emitText .result s
      | .file name =>
        let found ← inUtility (readNamed (if name = "/dev/stdin" then "-" else name))
        match found with
        | .ok s => emitText .result s
        | .error .isDirectory => fail s!"read error on {name}: {FileError.isDirectory.name}"
        | .error _ => pure ()

/-! ## Replacing files -/

def backupName (pattern name : String) : String :=
  if pattern.toList.contains '*' then String.intercalate name (pattern.splitOn "*")
  else name ++ pattern

def failTemporary (name : String) (e : FileError) : EditM Unit := do
  let dir := String.ofList (name.toList.reverse.dropWhile (· ≠ '/')).reverse
  let dir := if dir = "" then "./" else dir
  fail s!"couldn't open temporary file {dir}sedXXXXXX: {e.name}"

def replaceFile : EditM Unit := do
  let some (name, parts) := (← get).edited | return ()
  modify fun st => { st with
    edited := none
    unended := st.unended.filter (· ≠ .result) }
  let bytes := ByteText.bytes (String.join parts.reverse)
  let cwd := (← inUtility context).cwd
  let backup := (← mode).backup.map (backupName · name)
  let path := ByteText.path name
  let .ok (_, e) := ← inUtility (lookup name) | return ()
  let cleared ← inUtility <| onMachine <| match backup with
    | some b => Machine.rename cwd path (ByteText.path b)
    | none => Machine.unlink cwd path
  match cleared with
  | .error error => fail s!"cannot rename {name}: {error.name}"
  | .ok () =>
    discard <| inUtility (change (·.write cwd path bytes e.mode))
    discard <| inUtility (change (·.setMode cwd path e.mode))

/-- Follows a link to the name of what it leads to; `fuel` bounds the links on the way. -/
def linkedName (name : String) : Nat → EditM String
  | 0 => return name
  | fuel + 1 => do
    match ← inUtility (lookupLink name) with
    | .ok (_, { content := .link target, .. }) =>
      let text := ByteText.ofText target.text
      let dir := String.ofList (name.toList.reverse.dropWhile (· ≠ '/')).reverse
      linkedName (if text.startsWith "/" then text else dir ++ text) fuel
    | _ => return name

/-! ## Reading -/

def freshRanges (s : Script) : Array RangeState :=
  s.commands.map fun c =>
    match c.selection.start with
    | some (.line 0) => .inside none
    | _ => .before

def openFile (name : String) : EditM Unit := do
  let mode ← mode
  let name ← if mode.followsLinks then linkedName name 40 else pure name
  let complainOf (e : FileError) : EditM Unit := do
    inUtility do writeError s!"{← programName}: can't read {name}: {e.name}\n"
    modify fun st => { st with code := 2 }
  let start (s : State) : EditM Unit := do
    set { s with
      fileName := name
      reading := true
      number := if mode.separate then 0 else s.number
      ranges := if mode.separate then freshRanges mode.script else s.ranges }
  if name = "-" && !mode.inPlace then
    match ← inUtility (readDescriptor 0) with
    | .ok text => start { ← get with lines := linesWithEnds mode.ending text, unreadable := none }
    | .error e => start { ← get with lines := [], unreadable := some e }
  else match ← inUtility (openNamed name { reads := true }) with
  | .error e => complainOf e
  | .ok i =>
    if mode.inPlace then
      let regular := match ← inUtility (lookup name) with
        | .ok (_, { content := .file _, .. }) => true
        | _ => false
      unless regular do fail s!"couldn't edit {name}: not a regular file"
      if let .ok (_, e) := ← inUtility (lookup (directoryPart name)) then
        unless e.mayWrite && e.mayExecute do failTemporary name .permission
      modify fun st => { st with edited := some (name, []) }
    match ← inUtility (onMachine (Machine.readAll i)) with
    | .ok bytes =>
      let lines := linesWithEnds mode.ending (ByteText.ofBytes bytes)
      start { ← get with lines, unreadable := none }
    | .error e => start { ← get with lines := [], unreadable := some e }

def closeFile : EditM Unit := do
  replaceFile
  modify fun st => { st with reading := false, lines := [], unreadable := none }

/-- Goes on to the next file that has lines, and tells whether there is one; `fuel` is the number of
files. -/
def findLines : Nat → EditM Bool
  | 0 => return false
  | fuel + 1 => do
    let s ← get
    if s.reading && !s.lines.isEmpty then return true
    if s.reading then closeFile
    match s.files with
    | [] => return false
    | name :: files =>
      modify fun st => { st with files }
      openFile name
      findLines fuel

def atLast : EditM Bool := do
  let s ← get
  if !s.lines.isEmpty then return false
  if (← mode).separate then return true
  return !(← findLines (s.files.length + 2))

/-- Takes the next line; `fuel` is the number of files. -/
def takeLine : Nat → EditM (Option String)
  | 0 => return none
  | fuel + 1 => do
    let s ← get
    match s.lines, s.unreadable with
    | l :: lines, _ =>
      set { s with lines }
      return some l
    | [], some e =>
      let name := if s.fileName = "-" then "stdin" else s.fileName
      fail s!"read error on {name}: {e.name}"
    | [], none =>
      if s.reading then closeFile
      match s.files with
      | [] => return none
      | name :: files =>
        modify fun st => { st with files }
        openFile name
        takeLine fuel

/-- Reads the next line into the pattern space, or behind what is there. -/
def readLine (appends : Bool) : EditM Bool := do
  flushAppendices
  modify fun st => { st with replaced := false }
  match ← takeLine ((← get).files.length + 2) with
  | none => return false
  | some l =>
    let ending := (← mode).ending
    modify fun st =>
      let line := withoutEnd ending l
      { st with
        text := if appends then st.text ++ String.singleton ending ++ line else line
        ended := line.length < l.length
        number := st.number + 1 }
    return true

/-! ## Addresses -/

def patternMeant (p : Option Pattern) : EditM Pattern := do
  match p, (← get).lastPattern with
  | some p, _ =>
    modify fun st => { st with lastPattern := some p }
    return p
  | none, some p => return p
  | none, none =>
    let place := (← mode).script.stop.text
    inUtility do
      writeError s!"{← programName}: {place}: no previous regular expression\n"
      quit 1

def fits (a : Address) : EditM Bool := do
  match a with
  | .line n => return (← get).number = n
  | .every first step =>
    let n := (← get).number
    return first ≤ n && (n - first) % step = 0
  | .last => atLast
  | .matching p =>
    let p ← patternMeant p
    return p.regex.matches? (p.subject (← get).text)

/-- The line number that a range from here on ends at, if that is known. -/
def stopNumber (stop : RangeEnd) (n : Nat) : Option Nat :=
  match stop with
  | .address (.line m) => some m
  | .address _ => none
  | .after m => some (n + m)
  | .multiple m => some (if m = 0 then n else (n / m + 1) * m)

/-- Whether a command works on the line in hand; `i` is its place in the script. -/
def selected (i : Nat) (s : Selection) : EditM Bool := do
  let setRange (r : RangeState) : EditM Unit :=
    modify fun st => { st with ranges := st.ranges.setIfInBounds i r }
  let begins (start : Address) (stop : RangeEnd) : EditM Bool := do
    if ← fits start then
      let n := (← get).number
      match stopNumber stop n with
      | some m => if n < m then setRange (.inside (some m))
      | none => setRange (.inside none)
      return true
    else return false
  match s.start, s.stop with
  | none, _ => return true
  | some start, none => fits start
  | some start, some stop =>
    match (← get).ranges[i]? with
    | some (.inside known) =>
      let n := (← get).number
      match known, stop with
      | some m, stop =>
        if m ≤ n then setRange .before
        match stop with
        | .address _ => return n ≤ m
        | _ => if n ≤ m then return true else begins start stop
      | none, .address a =>
        if ← fits a then setRange .before
        return true
      | none, _ => return true
    | _ => begins start stop

def insideRange (i : Nat) : EditM Bool := do
  match (← get).ranges[i]? with
  | some (.inside _) => return true
  | _ => return false

/-! ## Replacing text -/

structure Turning where
  change : Option Bool := none
  next : Option Bool := none

def turned (capital : Option Bool) (c : Char) : Char :=
  match capital with
  | some true => c.toUpper
  | some false => c.toLower
  | none => c

def Turning.add (t : Turning) (cs : List Char) : Turning × List Char :=
  match cs with
  | [] => (t, [])
  | c :: cs =>
    ({ t with next := none },
      turned (t.next <|> t.change) c :: cs.map (turned t.change))

def replacementFor (pieces : List Piece) (t : Regex.Subject) (m : Regex.Match) : List Char :=
  let step (state : Turning × List (List Char)) (p : Piece) : Turning × List (List Char) :=
    let (turning, done) := state
    let add (cs : List Char) : Turning × List (List Char) :=
      let (turning, cs) := turning.add cs
      (turning, cs :: done)
    match p with
    | .text cs => add cs
    | .group n => add (((m.group? t n).getD "").toList)
    | .turn change => ({ change }, done)
    | .turnNext capital => ({ turning with next := some capital }, done)
  (pieces.foldl step ({}, [])).2.reverse.flatten

/-- Replaces matches from a place on; `fuel` is the number of places, `count` that of the matches so
far, and `previous` the end of the last one. What comes out is in reverse. -/
def replaceFrom (s : Substitution) (r : Regex) (t : Regex.Subject) :
    Nat → Nat → Nat → Option Nat → List (List Char) → Bool → List (List Char) × Bool
  | 0, _, _, _, out, found => (out, found)
  | fuel + 1, start, count, previous, out, found =>
    let rest (i : Nat) : List Char := (t.chars.extract i t.size).toList
    match r.find? t start with
    | none => (rest start :: out, found)
    | some m =>
      let out := (t.chars.extract start m.start).toList :: out
      let one := (t.chars.extract m.stop (m.stop + 1)).toList
      if m.start = m.stop && previous = some m.start then
        if m.stop < t.size then
          replaceFrom s r t fuel (m.stop + 1) count none (one :: out) found
        else (out, found)
      else
        let count := count + 1
        let counts := s.number ≤ count
        let text := if counts then replacementFor s.replacement t m
          else (t.chars.extract m.start m.stop).toList
        let out := text :: out
        if counts && !s.all then (rest m.stop :: out, true)
        else if m.start = m.stop then
          if m.stop < t.size then
            replaceFrom s r t fuel (m.stop + 1) count none (one :: out) (found || counts)
          else (out, found || counts)
        else replaceFrom s r t fuel m.stop count (some m.stop) out (found || counts)

def substituted? (s : Substitution) (p : Pattern) (text : String) : Option String :=
  let t := p.subject text
  let (out, found) := replaceFrom s p.regex t (t.size + 2) 0 0 none [] false
  if found then some (String.ofList out.reverse.flatten) else none

/-! ## Commands -/

def listed (c : Char) : String :=
  match c with
  | '\\' => "\\\\"
  | '\x07' => "\\a"
  | '\x08' => "\\b"
  | '\x0c' => "\\f"
  | '\n' => "\\n"
  | '\r' => "\\r"
  | '\t' => "\\t"
  | '\x0b' => "\\v"
  | c =>
    if 0x20 ≤ c.toNat && c.toNat < 0x7F then String.singleton c
    else "\\" ++ padLeft 3 (String.ofList (Nat.toDigits 8 c.toNat)) '0'

/-- A listing of a text with lines of a length; zero means that lines are not broken. -/
def listing (width : Nat) (text : String) : String :=
  let step (state : Nat × List String) (c : Char) : Nat × List String :=
    let (column, out) := state
    let shown := listed c
    if 0 < width && width - 1 < column + shown.length then
      (shown.length, shown :: "\\\n" :: out)
    else (column + shown.length, shown :: out)
  String.join (text.toList.foldl step (0, [])).2.reverse ++ "$\n"

def outputOf (command : String) : UtilityM String := do
  let (reader, writer) ← onMachine Machine.newPipe
  discard <| runChild ["/bin/sh", "-c", command] fun c =>
    { c with args := "sh" :: c.args.drop 1, descriptors := c.descriptors.insert 1 writer }
  match ← onMachine (Machine.readAll reader) with
  | .ok bytes => return ByteText.ofBytes bytes
  | .error _ => return ""

def runText : EditM Unit := do
  let out ← inUtility (outputOf (← get).text)
  modify fun st => { st with text := withoutEnd '\n' out }

def firstLine (ending : Char) (text : String) : String :=
  String.ofList (text.toList.takeWhile (· ≠ ending))

def substitute (s : Substitution) : EditM Unit := do
  let p ← patternMeant s.pattern
  if let some text := substituted? s p (← get).text then
    modify fun st => { st with text, replaced := true }
    if s.runs then runText
    if s.prints then printText
    if let some sink := s.sink then emitLine sink (← get).text

def nextLineOf (name : String) : EditM (Option String) := do
  let lines ← match (← get).readers.lookup name with
    | some lines => pure lines
    | none =>
      match ← inUtility (readNamed (if name = "/dev/stdin" then "-" else name)) with
      | .ok text => pure (linesWithEnds (← mode).ending text)
      | .error .isDirectory => fail s!"read error on {name}: {FileError.isDirectory.name}"
      | .error _ => pure []
  let rest := lines.drop 1
  modify fun st => { st with readers := (name, rest) :: st.readers.filter (·.1 ≠ name) }
  return lines.head?

def leaveInput : EditM Unit := do
  let s ← get
  if s.reading && s.fileName = "-" then
    inUtility (putBack (s.lines.foldl (fun n l => n + l.length) 0))

/-- Carries out a command; `i` is its place in the script. -/
def perform (i : Nat) (a : Action) : EditM Outcome := do
  let mode ← mode
  let next : Outcome := .goOn (i + 1)
  let setText (text : String) : EditM Outcome := do
    modify fun st => { st with text }
    return next
  let ending := String.singleton mode.ending
  match a with
  | .append text =>
    modify fun st => { st with appendices := .text text :: st.appendices }
    return next
  | .insert text =>
    emitText .result text
    return next
  | .replaceLines text =>
    unless ← insideRange i do emitText .result text
    return .dropped
  | .jump condition label =>
    let replaced := (← get).replaced
    let taken := match condition with
      | .always => true
      | .replaced => replaced
      | .notReplaced => !replaced
    if condition ≠ .always then modify fun st => { st with replaced := false }
    return if taken then .goOn ((mode.script.place? label).getD (i + 1)) else next
  | .delete => return .dropped
  | .deleteFirstLine =>
    let text := (← get).text
    let first := firstLine mode.ending text
    if first.length = text.length then return .dropped
    modify fun st => { st with text := (text.drop (first.length + 1)).toString }
    return .again
  | .execute none =>
    runText
    return next
  | .execute (some command) =>
    let out ← inUtility (outputOf command)
    emitText .result out
    return next
  | .fileName =>
    emitText .result ((← get).fileName ++ "\n")
    return next
  | .fromHold =>
    modify fun st => { st with text := st.hold, ended := st.holdEnded }
    return next
  | .appendFromHold =>
    modify fun st => { st with text := st.text ++ ending ++ st.hold, ended := st.holdEnded }
    return next
  | .toHold =>
    modify fun st => { st with hold := st.text, holdEnded := st.ended }
    return next
  | .appendToHold =>
    modify fun st => { st with hold := st.hold ++ ending ++ st.text, holdEnded := st.ended }
    return next
  | .exchange =>
    modify fun st => { st with
      hold := st.text, holdEnded := st.ended, text := st.hold, ended := st.holdEnded }
    return next
  | .list width =>
    emitText .result (listing (width.getD mode.lineLength) (← get).text)
    return next
  | .next =>
    if ← atLast then return if mode.plain then .dropped else .done
    unless mode.quiet do printText
    return if ← readLine false then next else .dropped
  | .appendNext =>
    if ← atLast then return if mode.plain then .dropped else .done
    return if ← readLine true then next else .done
  | .print =>
    printText
    return next
  | .printFirstLine =>
    emitText .result (firstLine mode.ending (← get).text ++ ending)
    return next
  | .quit code =>
    unless mode.quiet do printText
    flushAppendices
    leaveInput
    return .quit code
  | .quitAtOnce code =>
    modify fun st => { st with appendices := [] }
    leaveInput
    return .quit code
  | .readFile name =>
    modify fun st => { st with appendices := .file name :: st.appendices }
    return next
  | .readLine name =>
    if let some line := ← nextLineOf name then
      modify fun st => { st with appendices := .text line :: st.appendices }
    return next
  | .substitute s =>
    substitute s
    return next
  | .write sink =>
    emitLine sink (← get).text
    return next
  | .writeFirstLine sink =>
    emitText sink (firstLine mode.ending (← get).text ++ ending)
    return next
  | .characters table =>
    setText ((← get).text.map fun c => (table.lookup c).getD c)
  | .clear => setText ""
  | .lineNumber =>
    emitText .result s!"{(← get).number}\n"
    return next
  | .block _ | .nothing => return next
  | .unknown c => fail s!"INTERNAL ERROR: Bad cmd {c}"

/-- Runs the script from a place on; `fuel` bounds the number of commands. -/
def runFrom : Nat → Nat → EditM Outcome
  | 0, _ => return .dropped
  | fuel + 1, i => do
    match (← mode).script.commands[i]? with
    | none => return .done
    | some c =>
      let active := (← selected i c.selection) != c.selection.negated
      if active then
        match ← perform i c.action with
        | .goOn j => runFrom fuel j
        | outcome => return outcome
      else match c.action with
      | .block stop => runFrom fuel stop
      | _ => runFrom fuel (i + 1)

def commandLimit : Nat := 10000000

/-- Runs cycles; `fuel` bounds their number, and `fresh` says whether a line has to be read. -/
def cycles : Nat → Bool → EditM Nat
  | 0, _ => return 0
  | fuel + 1, fresh => do
    let goes ← if fresh then readLine false else pure true
    if !goes then return (← get).code
    match ← runFrom commandLimit 0 with
    | .quit code =>
      closeFile
      let found := (← get).code
      return if code = 0 then found else code
    | .again =>
      flushAppendices
      cycles fuel false
    | .done =>
      unless (← mode).quiet do printText
      cycles fuel true
    | _ => cycles fuel true

def cycleLimit : Nat := 100000000

def flushSinks : EditM Unit := do
  let failed (found : Option FileError) (w : Nat × String) : EditM (Option FileError) := do
    match ← inUtility (writeOpened w.1 w.2) with
    | .ok () => return found
    | .error e => return found <|> some e
  let failure ← (← get).written.reverse.foldlM failed none
  if let some e := failure then
    inUtility flush
    fail s!"couldn't flush <unknown>: {e.name}"

/-- Edits files; the exit code. -/
def edit : EditM Nat := do
  let code ← cycles cycleLimit true
  flushAppendices
  flushSinks
  if let some e := ← inUtility lostOutput then
    let what := if e = .badDescriptor then "close" else "flush"
    fail s!"couldn't {what} stdout: {e.name}"
  return code

end EditM

end ModularBuild.Utility.Edit
