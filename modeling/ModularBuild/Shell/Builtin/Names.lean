import ModularBuild.Shell.Builtin.Basic
import ModularBuild.Shell.Grammar
import ModularBuild.Shell.State

/-!
# Finding commands, and builtins for their names

A command is a function, a builtin, or a program. A name with a slash is the path of a program; any
other is looked for in the directories of the search path.
-/

namespace ModularBuild.Shell

/-! ## Lookup -/

def plainBuiltins : List String :=
  ["[", "alias", "bg", "cd", "chdir", "command", "echo", "false", "fg", "getopts", "hash", "jobs",
    "kill", "printf", "pwd", "read", "test", "true", "type", "ulimit", "umask", "unalias", "wait"]

def assigningBuiltins : List String := ["alias", "export", "local", "readonly"]

def isSpecialBuiltin (name : String) : Bool := specialBuiltins.contains name

def isBuiltin (name : String) : Bool := isSpecialBuiltin name || plainBuiltins.contains name

inductive Found where
  | function (f : Function)
  | builtin
  /-- A program that is found by its path. -/
  | path
  /-- A program in the directory with this place in the search path. -/
  | program (index : Nat)
  | unknown (e : FileError)

/-- The search path where the shell is asked to take no other. -/
def defaultSearchPath : String := "/usr/local/sbin:/usr/local/bin:/usr/sbin:/usr/bin:/sbin:/bin"

def Memory.searchPath (m : Memory) : String := (m.value? "PATH").getD ""

/-- The paths of a command in the directories of a search path. -/
def candidates (searchPath name : String) : List String :=
  (pieces ':' searchPath.toList).map fun dir =>
    if dir.isEmpty then name else String.ofList dir ++ "/" ++ name

def findAlong (files : FileSystem) (cwd : Location) :
    List (String × Nat) → FileError → Except FileError Nat
  | [], e => .error e
  | (path, index) :: rest, e =>
    match files.lookup cwd (ByteText.path path) with
    | .error .noEntry | .error .notDirectory => findAlong files cwd rest e
    | .error e => findAlong files cwd rest e
    | .ok (_, entry) =>
      if entry.isFile && entry.mayExecute then .ok index
      else findAlong files cwd rest .permission

/-- Looks for a program in a search path; one that was found before is not looked for again. -/
def findProgram (name searchPath : String) : ShellM Found := do
  let s ← get
  let m := s.memory
  let usual := searchPath = m.searchPath
  match m.found.lookup name with
  | some index => if usual then return .program index
  | none => pure ()
  match findAlong s.machine.files m.context.cwd (candidates searchPath name).zipIdx .noEntry with
  | .ok index =>
    if usual then modifyMemory fun m => { m with found := (name, index) :: m.found }
    return .program index
  | .error e => return .unknown e

def Memory.known? (m : Memory) (name : String) (functions : Bool) : Option Found :=
  if name.toList.contains '/' then some .path
  else match if functions then m.functions.find? name else none with
    | some f => some (.function f)
    | none => if isBuiltin name then some .builtin else none

def runFailure : FileError → String
  | .noEntry | .notDirectory => "not found"
  | e => e.name

def runFailureStatus : FileError → Nat
  | .noEntry | .notDirectory | .tooManyLinks | .nameTooLong => 127
  | _ => 126

/-! ## Aliases -/

def aliasText (a : String × String) : String := s!"{a.1}={inQuotes a.2}\n"

def complainNotFound (builtin name : String) : ShellM Unit :=
  writeError s!"{builtin}: {name} not found\n"

def defineAliases : List String → ShellM Nat
  | [] => return 0
  | a :: rest => do
    let name := match a.toList with
      | c :: cs => String.ofList (c :: cs.takeWhile (· ≠ '='))
      | [] => ""
    let aliases := (← memory).aliases
    let status ← if name.length < a.length then
        let text := (a.drop (name.length + 1)).toString
        let others := aliases.filter (·.1 ≠ name)
        modifyMemory fun m => { m with aliases := others ++ [(name, text)] }
        pure 0
      else match aliases.lookup a with
        | some text =>
          print (aliasText (a, text))
          pure 0
        | none =>
          complainNotFound "alias" a
          pure 1
    return max status (← defineAliases rest)

def alias' (args : List String) : ShellM Nat := do
  if args.isEmpty then
    let aliases := (← memory).aliases
    for a in aliases.mergeSort fun a b => bucketOf a.1 ≤ bucketOf b.1 do
      print (aliasText a)
    return 0
  else defineAliases args

def unalias (args : List String) : ShellM Nat := do
  let (given, args) ← takeOptions "a" args
  if !given.isEmpty then
    modifyMemory fun m => { m with aliases := [] }
    return 0
  let mut status := 0
  for a in args do
    let aliases := (← memory).aliases
    if (aliases.lookup a).isSome then
      modifyMemory fun m => { m with aliases := aliases.filter (·.1 ≠ a) }
    else
      complainNotFound "unalias" a
      status := 1
  return status

/-! ## What a name stands for -/

def describe (name : String) (searchPath : Option String) (full : Bool) : ShellM Nat := do
  let m ← memory
  let say (text short : String) : ShellM Nat := do
    print (if full then name ++ text ++ "\n" else short ++ "\n")
    return 0
  let missing : ShellM Nat := do
    if full then print s!"{name}: not found\n"
    return 127
  if (Token.keywords.lookup name).isSome then say " is a shell keyword" name
  else match m.aliases.lookup name with
  | some text =>
    if full then print s!"{name} is an alias for {text}\n"
    else print ("alias " ++ aliasText (name, text))
    return 0
  | none =>
    let searched := searchPath.getD m.searchPath
    let tracked := searchPath.isNone && (m.found.lookup name).isSome
    let found ← match m.known? name true with
      | some f => pure f
      | none => findProgram name searched
    match found with
    | .function _ => say " is a shell function" name
    | .builtin =>
      say (if isSpecialBuiltin name then " is a special shell builtin" else " is a shell builtin")
        name
    | .path =>
      let s ← get
      if s.machine.files.pathExists m.context.cwd (ByteText.path name) then
        say s!" is {name}" name
      else missing
    | .program index =>
      let path := (candidates searched name)[index]?.getD name
      say ((if tracked then " is a tracked alias for " else " is ") ++ path) path
    | .unknown _ => missing

def type (args : List String) : ShellM Nat := do
  let mut status := 0
  for a in args do
    status := max status (← describe a none true)
  return status

/-- The builtin `command` where it runs nothing. -/
def command (args : List String) : ShellM Nat := do
  let (given, args) ← takeOptions "pvV" args
  let searchPath := if given.any (·.1 = 'p') then some defaultSearchPath else none
  match given.filter (·.1 ≠ 'p'), args with
  | [], _ | _, [] => return 0
  | asked, name :: _ => describe name searchPath (asked.any (·.1 = 'V'))

/-! ## Programs that have been found -/

def commandBucket (name : String) : Nat :=
  match name.toList with
  | [] => 0
  | c :: cs => ((c :: cs).foldl (fun n c => n + c.toNat) (c.toNat * 16)) % 31

def hash (args : List String) : ShellM Nat := do
  let (given, args) ← takeOptions "r" args
  if !given.isEmpty then
    modifyMemory fun m => { m with found := [] }
    return 0
  let m ← memory
  if args.isEmpty then
    for (name, index) in m.found.reverse.mergeSort fun a b =>
        commandBucket a.1 ≤ commandBucket b.1 do
      print ((candidates m.searchPath name)[index]?.getD name ++ "\n")
    return 0
  let mut status := 0
  for a in args do
    modifyMemory fun m => { m with found := m.found.filter (·.1 ≠ a) }
    if (m.known? a true).isNone then
      match ← findProgram a m.searchPath with
      | .unknown e =>
        complain s!"{a}: {runFailure e}"
        status := 1
      | _ => pure ()
  return status

end ModularBuild.Shell
