import ModularBuild.Shell.Arithmetic
import ModularBuild.Shell.Field
import ModularBuild.Shell.Grammar

/-!
# Expansion

What a word becomes when its command is run: tildes, parameters, arithmetic and the output of
commands are put in, then the result is split into fields, and fields that are patterns become the
paths they match.
-/

namespace ModularBuild.Shell

/-- What the parts of a shell need of each other. -/
structure Engine where
  /-- Runs a command; `tested` says that its failure is looked at, `last` that nothing follows it in
  its process. -/
  run : (c : Script) → (tested last : Bool) → ShellM Nat
  /-- Runs a text as commands. -/
  runText : (text : String) → (tested : Bool) → ShellM Nat
  /-- Runs an action in a subshell. -/
  subshell : ShellM Nat → ShellM ExitStatus
  /-- Runs the jobs that are still waiting. -/
  settle : ShellM Unit
  launcher : Launcher

structure ExpandMode where
  /-- Whether the result is split into fields, so that each argument is one. -/
  full : Bool := false
  /-- Whether the word is inside quotes as a whole. -/
  quoted : Bool := false
  /-- Whether a tilde may begin the word. -/
  tilde : Bool := false
  /-- Whether tildes may follow colons, and the first equals sign. -/
  assignment : Bool := false
  /-- Whether the word stands in a substitution that is not quoted, so that all of it is split. -/
  inner : Bool := false

def Memory.optionLetters (m : Memory) : String :=
  String.ofList ((optionNames.reverse.map (·.2)).filter fun c => m.has c && 0x20 < c.toNat)

/-! ## Tildes -/

def homeOf? (m : Memory) (user : String) : Option String :=
  if user = "" then m.value? "HOME"
  else if user = "root" then some "/root"
  else none

/-- The home that a word begins with, and the number of parts that name the user. -/
def takeTilde? (m : Memory) (assignment : Bool) (parts : List Part) : Option (String × Nat) :=
  match parts with
  | .char '~' false :: rest =>
    let ends : Part → Bool
      | .char c false => c = '/' || (assignment && c = ':')
      | _ => false
    let user := rest.takeWhile (!ends ·)
    let plain := user.all fun
      | .char _ false => true
      | _ => false
    if plain then do
      let home ← homeOf? m ((plainText? user).getD "")
      return (home, user.length)
    else none
  | _ => none

/-! ## Parameters -/

def positional? (m : Memory) (name : String) : Option (Option String) :=
  match name.toNat? with
  | some 0 => some (some m.name)
  | some n => some m.params[n - 1]?
  | none => none

def Memory.parameter? (m : Memory) (name : String) : Option String :=
  match name with
  | "$" => some (toString m.mainProcess)
  | "?" => some (toString m.status)
  | "#" => some (toString m.params.length)
  | "-" => some m.optionLetters
  | "!" => m.lastBackground.map toString
  | name =>
    match positional? m name with
    | some value => value
    | none => m.value? name

/-- The text between the arguments where they become one text, and whether they stay apart. -/
def separatorOf (m : Memory) (name : String) (full quoted : Bool) : List Cell :=
  let first := m.separators.toList.head?
  if quoted && full && name = "@" then [.plain '\x00']
  else if full && !quoted then
    match m.value? "IFS" with
    | some _ => [.plain '\x00']
    | none => [.plain ' ']
  else match first with
    | some c => [if quoted then .quoted c else .plain c]
    | none => []

/-- Characters of a value; NUL characters are lost. -/
def valueCells (quoted : Bool) (s : String) : List Cell :=
  (s.toList.filter (· ≠ '\x00')).map fun c => if quoted then .quoted c else .plain c

def parameterCells? (m : Memory) (name : String) (full quoted : Bool) : Option (List Cell) :=
  if name = "@" || name = "*" then
    some (List.intercalate (separatorOf m name full quoted) (m.params.map (valueCells quoted)))
  else (m.parameter? name).map (valueCells quoted)

def refuseUnset {α : Type} (name message : String) : ShellM α := fail s!"{name}: {message}"

/-- A value without what a pattern matches at its front or at its back. -/
def trimmed (use : ParameterUse) (pattern : List MarkedChar) (value : List Cell) : List Cell :=
  let text := (value.filterMap Cell.char?)
  match use with
  | .trimFront longest =>
    let found := frontMatches pattern text
    value.drop ((if longest then found.getLast? else found.head?).getD 0)
  | .trimBack longest =>
    let found := backMatches pattern text
    value.take (value.length - (if longest then found.getLast? else found.head?).getD 0)
  | _ => value

/-! ## Commands and arithmetic -/

def outputOf (engine : Engine) (body : Script) : ShellM String := do
  let (reader, writer) ← onMachine do
    let id ← Machine.newChannel none
    return (← Machine.hold { target := .channel id, reads := true },
      ← Machine.hold { target := .channel id, writes := true })
  let status ← engine.subshell do
    setDescriptors ((← memory).context.descriptors.insert 1 writer)
    engine.run body false true
  let code := match status with
    | .code n => n
    | .signal s => 128 + s.number
  modifyMemory fun m => { m with substitutionStatus := code }
  let bytes ← onMachine (Machine.readAll reader)
  let text := (ByteText.ofBytes (bytes.toOption.getD [])).toList
  return String.ofList (text.reverse.dropWhile (· = '\n')).reverse

abbrev ExpandM := StateT Expanded ShellM

def push (cells : List Cell) : ExpandM Unit := modify (·.push cells)

def noteRegion (quoted : Bool) (start : Nat) : ExpandM Unit :=
  unless quoted do modify (·.region start)

def expandedApart (action : ExpandM Unit) : ExpandM Expanded := do
  let (_, x) ← show ShellM (Unit × Expanded) from action.run {}
  return x

structure WordPlace where
  /-- Whether a tilde may come next. -/
  start : Bool := true
  /-- Whether the next part stands between quotes. -/
  inside : Bool := false
  /-- Whether the equals sign of an assignment is still to come. -/
  equals : Bool := false
  /-- The number of parts that have been dealt with already. -/
  passed : Nat := 0

mutual

def expandParts (engine : Engine) (mode : ExpandMode) (place : WordPlace) :
    List Part → ExpandM Unit
  | [] => return ()
  | p :: rest => do
    if 0 < place.passed then
      expandParts engine mode { place with passed := place.passed - 1 } rest
    else match p with
    | .quoteMark =>
      push [.mark]
      expandParts engine mode { place with start := false, inside := !place.inside } rest
    | .char c quoted =>
      if quoted then
        push [.quoted c]
        expandParts engine mode { place with start := false } rest
      else
        let m ← show ShellM Memory from memory
        let home? := if place.start && mode.tilde then
          takeTilde? m mode.assignment (p :: rest) else none
        match home? with
        | some (home, user) =>
          push (valueCells true home)
          expandParts engine mode { place with start := false, passed := user } rest
        | none =>
          let before := (← get).size
          push [.plain c]
          if mode.inner && !place.inside then modify (·.extend before)
          let opens := mode.assignment && if place.equals then c = '=' else c = ':'
          let equals := place.equals && c ≠ '='
          expandParts engine mode { place with start := opens, equals } rest
    | p =>
      expandPart engine mode p
      expandParts engine mode { place with start := false } rest

def expandPart (engine : Engine) (mode : ExpandMode) : Part → ExpandM Unit
  | .char c quoted => push [if quoted then .quoted c else .plain c]
  | .quoteMark => push [.mark]
  | .commands body quoted => do
    let quoted := quoted || mode.quoted
    match body with
    | none => return ()
    | some body =>
      let text ← show ShellM String from outputOf engine body
      let before := (← get).size
      push (valueCells quoted text)
      noteRegion quoted before
  | .arithmetic parts quoted => do
    let quoted := quoted || mode.quoted
    let x ← expandedApart (expandParts engine {} { start := false } parts)
    let n ← show ShellM Int from Arithmetic.evaluate (textOf x.all)
    let before := (← get).size
    push (valueCells quoted (toString n))
    noteRegion quoted before
  | .parameter name use colon word quoted => do
    let quoted := quoted || mode.quoted
    let m ← show ShellM Memory from memory
    let value := parameterCells? m name mode.full quoted
    let present := value.filter fun cells => !(colon && cells.isEmpty)
    let before := (← get).size
    let finish (cells : List Cell) : ExpandM Unit := do
      push cells
      if !quoted then modify (·.region before)
      else if name = "@" && !m.params.isEmpty then modify (·.region before true)
    let inner : ExpandMode := { mode with
      tilde := true, assignment := false, inner := !quoted, quoted }
    let checked : ExpandM (List Cell) := do
      match value with
      | some cells => return cells
      | none =>
        if m.has 'u' then refuseUnset name "parameter not set"
        return []
    let apart : ExpandM String := do
      let x ← expandedApart (expandParts engine { tilde := true } {} word)
      return textOf x.all
    match use with
    | .unknown => show ShellM Unit from fail "Bad substitution"
    | .value => finish (← checked)
    | .length =>
      let cells ← checked
      finish (valueCells quoted (toString (cells.filterMap Cell.char?).length))
    | .orElse =>
      match present with
      | some cells => finish cells
      | none => expandParts engine inner {} word
    | .ifSet =>
      match present with
      | some _ => expandParts engine inner {} word
      | none => finish []
    | .orAssign =>
      match present with
      | some cells => finish cells
      | none =>
        let text ← apart
        if !isName name then
          (show ShellM Unit from fail s!"{name}: bad variable name")
        (show ShellM Unit from assign name text)
        finish (valueCells quoted text)
    | .orComplain =>
      match present with
      | some cells => finish cells
      | none =>
        let text ← apart
        let message :=
          if word.isEmpty then "parameter not set" ++ if colon then " or null" else ""
          else text
        refuseUnset name message
    | .trimFront _ | .trimBack _ =>
      let cells ← checked
      let x ← expandedApart (expandParts engine { tilde := true } {} word)
      finish (trimmed use (patternOf x.all) cells)

end

/-! ## Words -/

def expandWord (engine : Engine) (mode : ExpandMode) (w : Word) : ShellM Expanded := do
  let (_, x) ← (expandParts engine mode { equals := mode.assignment } w).run {}
  return x

def expandText (engine : Engine) (w : Word) : ShellM String := do
  return textOf (← expandWord engine { tilde := true } w).all

def expandDocument (engine : Engine) (w : Word) : ShellM String := do
  return textOf (← expandWord engine { quoted := true } w).all

def expandAssignment (engine : Engine) (w : Word) : ShellM String := do
  return textOf (← expandWord engine { tilde := true, assignment := true } w).all

def expandPattern (engine : Engine) (w : Word) : ShellM (List MarkedChar) := do
  return patternOf (← expandWord engine { tilde := true } w).all

/-- A field as texts: the paths it matches, or itself. -/
def fieldTexts (m : Memory) (files : FileSystem) (field : List Cell) : List String :=
  let found := if m.has 'f' then []
    else expandPaths files m.context.cwd (patternOf field)
  if found.isEmpty then [textOf field] else found

def expandFields (engine : Engine) (w : Word) : ShellM (List String) := do
  let x ← expandWord engine { full := true, tilde := true } w
  let s ← get
  let fields := splitFields x s.memory.separators
  return fields.flatMap (fieldTexts s.memory s.machine.files)

def expandAll (engine : Engine) : List Word → ShellM (List String)
  | [] => return []
  | w :: ws => do
    let first ← expandFields engine w
    return first ++ (← expandAll engine ws)

def expandString (engine : Engine) (s : String) : ShellM String := do
  let read : Parser (WordState × Option Char) := do
    let g := Grammar.upTo 20
    let first ← Parser.takeJoined
    Parser.takeParts (Parser.enclosedFor g 20) (Parser.backquotedCommands g) .double
      (some ⟨"\x00", false⟩) first
  match read.run' (ParseState.start s 0) with
  | .ok (w, _) => expandDocument engine w.parts.reverse
  | .error _ => return s

end ModularBuild.Shell
