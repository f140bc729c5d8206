import ModularBuild.Shell.Builtin.Basic
import ModularBuild.Shell.Field

/-!
# Builtins for variables, arguments and options
-/

namespace ModularBuild.Shell

/-- A name and the value after its equals sign, if there is one. -/
def splitAssignment (s : String) : String × Option String :=
  let name := s.toList.takeWhile (· ≠ '=')
  match s.toList.drop name.length with
  | _ :: value => (String.ofList name, some (String.ofList value))
  | [] => (s, none)

def checkName (name : String) : ShellM Unit :=
  if isName name then return () else fail s!"{name}: bad variable name"

/-! ## Attributes of variables -/

/-- Shows the variables that satisfy `p`. -/
def showVariables (start : String) (p : Variable → Bool) : ShellM Unit := do
  for (name, v) in (← memory).vars.entries do
    if p v then
      match v.value with
      | some value => print s!"{start}{name}={inQuotes value}\n"
      | none => print s!"{start}{name}\n"

def mark (name : String) (has : Variable → Bool) (give : Variable → Variable)
    (args : List String) : ShellM Nat := do
  let (given, args) ← takeOptions "p" args
  if args.isEmpty || !given.isEmpty then
    showVariables s!"{name} " has
    return 0
  for a in args do
    let (name, value) := splitAssignment a
    checkName name
    match value, (← memory).vars.find? name with
    | none, some v => putVariable name (give v)
    | none, none => changeVariable name give
    | some value, _ => changeVariable name fun v => give { v with value := some value }
  return 0

def export' (args : List String) : ShellM Nat :=
  mark "export" (·.exported) ({ · with exported := true }) args

def readonly (args : List String) : ShellM Nat :=
  mark "readonly" (·.readonly) ({ · with readonly := true }) args

def localVariables (args : List String) : ShellM Nat := do
  if (← memory).hidden.isEmpty then fail "not in a function"
  for a in args do
    let (name, value) := splitAssignment a
    if name = optionsName then makeLocal name
    else
      checkName name
      makeLocal name
      if let some value := value then assign name value
  return 0

def unset (args : List String) : ShellM Nat := do
  let (given, args) ← takeOptions "vf" args
  for name in args do
    if given.getLast? = some ('f', "") then
      modifyMemory fun m => { m with functions := m.functions.erase name }
    else
      checkName name
      unsetVariable name
  return 0

/-! ## Options and arguments of the shell -/

/-- Shows the options, as a list or as commands that set them. -/
def showOptions (asList : Bool) : ShellM Unit := do
  let m ← memory
  if asList then print "Current option settings\n"
  for (name, letter) in optionNames do
    let on := m.has letter
    if asList then
      let padding := String.ofList (List.replicate (16 - name.length) ' ')
      print (name ++ padding ++ (if on then "on" else "off") ++ "\n")
    else print ("set " ++ (if on then "-" else "+") ++ s!"o {name}\n")

def setOptionLetter (c : Char) (on : Bool) : ShellM Unit := do
  if (optionNames.map (·.2)).contains c then modifyMemory (·.setOption c on)
  else fail s!"Illegal option -{c}"

def setOptionName (name : String) (on : Bool) : ShellM Unit := do
  match optionNames.lookup name with
  | some c => modifyMemory (·.setOption c on)
  | none => fail s!"Illegal option -o {name}"

def setParams (args : List String) : ShellM Unit :=
  modifyMemory fun m => { m with params := args, optionIndex := 1, optionOffset := none }

/-- The letters of an option argument; the answer is the arguments after those that they take. -/
def setLetters (on : Bool) : List Char → List String → ShellM (List String)
  | [], args => return args
  | 'o' :: cs, args => do
    match args with
    | [] =>
      showOptions on
      setLetters on cs []
    | name :: args =>
      setOptionName name on
      setLetters on cs args
  | c :: cs, args => do
    setOptionLetter c on
    setLetters on cs args

/-- The options of `set`, up to the first operand; `fuel` is the number of arguments. -/
def setFrom : Nat → List String → ShellM Unit
  | 0, _ => return ()
  | _, [] => return ()
  | fuel + 1, a :: args => do
    match a.toList with
    | ['-'] =>
      modifyMemory fun m => (m.setOption 'x' false).setOption 'v' false
      unless args.isEmpty do setParams args
    | ['-', '-'] => setParams args
    | '-' :: cs => setFrom fuel (← setLetters true cs args)
    | '+' :: cs => setFrom fuel (← setLetters false cs args)
    | _ => setParams (a :: args)

def set' (args : List String) : ShellM Nat := do
  if args.isEmpty then showVariables "" (·.value.isSome)
  else setFrom (args.length + 1) args
  return 0

def shift (args : List String) : ShellM Nat := do
  let n ← match args with
    | [] => pure 1
    | a :: _ => wholeNumber a
  let params := (← memory).params
  if params.length < n then fail "can't shift that many"
  setParams (params.drop n)
  return 0

/-! ## Options of scripts -/

def getopts (args : List String) : ShellM Nat := do
  let (_, args) ← takeOptions "" args
  match args with
  | spec :: name :: given =>
    let m ← memory
    let words := if given.isEmpty then m.params else given
    let index := if words.length + 1 < m.optionIndex then 1 else m.optionIndex
    let offset := if index = m.optionIndex then m.optionOffset else none
    let silent := spec.startsWith ":"
    let before := (words[index - 2]?.getD "").toList
    let inWord := match offset with
      | some n => if 1 < index then before.drop n else []
      | none => []
    let finish (c : Char) (rest : List Char) (index : Nat) (status : Nat) : ShellM Nat := do
      assign "OPTIND" (toString index)
      assign name (String.ofList [c])
      let word := (words[index - 2]?.getD "")
      modifyMemory fun m => { m with
        optionIndex := index
        optionOffset := if rest.isEmpty then none else some (word.length - rest.length) }
      return status
    let start? : Option (List Char × Nat) :=
      if !inWord.isEmpty then some (inWord, index)
      else match (words[index - 1]?.map (·.toList)) with
        | some ['-', '-'] => none
        | some ('-' :: c :: cs) => some (c :: cs, index + 1)
        | _ => none
    match start? with
    | none =>
      let isEnd := inWord.isEmpty && words[index - 1]? = some "--"
      finish '?' [] (if isEnd then index + 1 else index) 1
    | some ([], index) => finish '?' [] index 1
    | some (c :: cs, index) =>
      match takesValue? spec.toList c with
      | none =>
        if silent then assign "OPTARG" (String.ofList [c])
        else
          writeError s!"Illegal option -{c}\n"
          unsetVariable "OPTARG"
        finish '?' cs index 0
      | some false =>
        assign "OPTARG" ""
        finish c cs index 0
      | some true =>
        if !cs.isEmpty then
          assign "OPTARG" (String.ofList cs)
          finish c [] index 0
        else match words[index - 1]? with
          | some value =>
            assign "OPTARG" value
            finish c [] (index + 1) 0
          | none =>
            if silent then
              assign "OPTARG" (String.ofList [c])
              finish ':' [] index 0
            else
              writeError s!"No arg for -{c} option\n"
              unsetVariable "OPTARG"
              finish '?' [] index 0
  | _ => fail "Usage: getopts optstring var [arg...]"

/-! ## Reading a line -/

/-- What has been read of a line, and the stretch that is being read. -/
structure LineRead where
  line : Expanded := {}
  start : Nat := 0

namespace LineRead

def note (r : LineRead) : LineRead := { r with line := r.line.region r.start }

end LineRead

/-- Reads a line byte by byte; the answer tells whether the line had an end. A backslash takes the
meaning of the character after it, and a newline with it. -/
def readLineFor (raw : Bool) : Nat → Bool → LineRead → ShellM (LineRead × Bool)
  | 0, _, r => return (r.note, false)
  | fuel + 1, escaped, r => do
    match ← onMachine ((← memory).context.read 0 1) with
    | .error _ => return (r.note, false)
    | .ok s =>
      match s.toList with
      | [] => return (r.note, false)
      | c :: _ =>
        let add (r : LineRead) : LineRead := { r with line := r.line.push [.plain c] }
        if c = '\x00' then readLineFor raw fuel escaped r
        else if escaped then
          let r := r.note
          let r := if c = '\n' then r else add r
          readLineFor raw fuel false { r with start := r.line.size }
        else if !raw && c = '\\' then readLineFor raw fuel true r
        else if c = '\n' then return (r.note, true)
        else readLineFor raw fuel false (add r)

def lineLimit : Nat := 1 <<< 20

def read (args : List String) : ShellM Nat := do
  let (given, names) ← takeOptions "p:r" args
  if names.isEmpty then fail "arg count"
  let (r, whole) ← readLineFor (given.any (·.1 = 'r')) lineLimit false {}
  let fields := splitFields r.line (← memory).separators (some names.length)
  for (name, i) in names.zipIdx do
    checkName name
    assign name ((fields[i]?.map textOf).getD "")
  return if whole then 0 else 1

end ModularBuild.Shell
