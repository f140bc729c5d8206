import ModularBuild.Shell.Builtin.Basic
import ModularBuild.Shell.Builtin.Condition
import ModularBuild.Shell.Builtin.Directory
import ModularBuild.Shell.Builtin.Jobs
import ModularBuild.Shell.Builtin.Names
import ModularBuild.Shell.Builtin.Variables
import ModularBuild.Shell.Expansion

/-!
# Simple commands

The words of a simple command are expanded first, then its redirections are made, then its
assignments; then the command is run. Assignments hold for the command alone, unless there is none
or it is a special builtin.

The words of redirections are expanded first, where a mistake stops the shell; then the files are
opened one after the other, where a mistake stops only the command.
-/

namespace ModularBuild.Shell

/-! ## Redirections -/

/-- Where a redirection leads once its word is expanded. -/
inductive Destination where
  | path (kind : RedirectKind) (s : String)
  | descriptor (n : Nat)
  | nothing
  | text (s : String)

def destinationOf (engine : Engine) (r : Redirect) : ShellM (Nat × Destination) := do
  match r.kind with
  | .document id =>
    let body := ((← memory).documents.find? id).getD []
    return (r.descriptor, .text (← expandDocument engine body))
  | .duplicate =>
    let s ← expandText engine r.target
    match s.toList with
    | ['-'] => return (r.descriptor, .nothing)
    | [c] => if c.isDigit then return (r.descriptor, .descriptor (c.toNat - '0'.toNat))
    | _ => pure ()
    fail "Syntax error: Bad fd number"
  | kind => return (r.descriptor, .path kind (← expandText engine r.target))

def destinations (engine : Engine) : List Redirect → ShellM (List (Nat × Destination))
  | [] => return []
  | r :: rs => do
    let d ← destinationOf engine r
    return d :: (← destinations engine rs)

def openFailure (creating : Bool) : FileError → String
  | .noEntry | .notDirectory => if creating then "Directory nonexistent" else "No such file"
  | e => e.name

def openFor (kind : RedirectKind) (path : String) : ShellM Nat := do
  let m ← memory
  let attempt (access : Machine.Access) : ShellM Nat := do
    match ← onMachine (Machine.openPath m.context path access) with
    | .ok i => return i
    | .error e =>
      let verb := if access.creates then "create" else "open"
      fail s!"cannot {verb} {path}: {openFailure access.creates e}"
  match kind with
  | .input => attempt .read
  | .inputOutput => attempt .both
  | .append => attempt .append
  | .output =>
    if m.has 'C' then
      let files := (← get).machine.files
      if files.isFile m.context.cwd (ByteText.path path) then
        fail s!"cannot create {path}: File exists"
      else attempt { Machine.Access.write with
        exclusive := !files.pathExists m.context.cwd (ByteText.path path) }
    else attempt .write
  | _ => attempt .write

def setDescriptor (d i : Nat) : ShellM Unit := do
  setDescriptors ((← memory).context.descriptors.insert d i)

def redirect : Nat × Destination → ShellM Unit
  | (d, .path kind s) => do setDescriptor d (← openFor kind s)
  | (d, .text s) => do setDescriptor d (← onMachine (Machine.holdText s))
  | (d, .nothing) => do setDescriptors ((← memory).context.descriptors.erase d)
  | (d, .descriptor n) => do
    if d = n then return ()
    match (← memory).context.descriptors.find? n with
    | some i => setDescriptor d i
    | none => fail s!"{n}: {FileError.name .badDescriptor}"

/-- Makes redirections up to the first that fails; the answer is a status. -/
def redirectSafely (ds : List (Nat × Destination)) : ShellM Nat := do
  try
    ds.forM redirect
    return 0
  catch
    | .failure => return 2
    | stop => throw stop

def keepingDescriptors {α : Type} (action : ShellM α) : ShellM α := do
  let before := (← memory).context.descriptors
  andFinally action (setDescriptors before)

/-! ## Programs -/

def setLine (line : Nat) : ShellM Unit := modifyMemory fun m => { m with line }

def shellPath : String := "/bin/sh"

/-- Starts the program in a file; a file that is no program is run by the shell. -/
def startFile (engine : Engine) (path : String) (c : ProcessContext) :
    MachineM (Except FileError ExitStatus) := do
  match ← engine.launcher.start path c with
  | .error .notExecutableFormat =>
    engine.launcher.start shellPath { c with args := shellPath :: path :: c.args.drop 1 }
  | result => return result

def startAny (engine : Engine) (c : ProcessContext) :
    List String → FileError → MachineM (Except FileError ExitStatus)
  | [], e => return .error e
  | path :: rest, e => do
    match ← startFile engine path c with
    | .ok status => return .ok status
    | .error .noEntry | .error .notDirectory => startAny engine c rest e
    | .error e => startAny engine c rest e

/-- Runs a program, looked for in a search path from a place on, and complains if that cannot be
done. -/
def startProgram (engine : Engine) (process parent : Nat) (args : List String) (searchPath : String)
    (index : Nat) : ShellM (Option ExitStatus) := do
  let name := args.headD ""
  let paths := if name.toList.contains '/' then [name]
    else (candidates searchPath name).drop index
  let c := { (← memory).childContext args with process, parent }
  match ← onMachine (startAny engine c paths .noEntry) with
  | .ok status => return some status
  | .error e =>
    complain s!"{name}: {runFailure e}"
    setStatus (runFailureStatus e)
    return none

def becomeProgram (engine : Engine) (args : List String) (searchPath : String) (index : Nat) :
    ShellM Nat := do
  let c := (← memory).context
  match ← startProgram engine c.process c.parent args searchPath index with
  | some status => throw (.ended status)
  | none => throw .leave

def runProgram (engine : Engine) (args : List String) (searchPath : String) (index : Nat) :
    ShellM Nat := do
  if args.head? = some "sleep" then engine.settle
  let process ← onMachine Machine.newProcess
  match ← startProgram engine process (← memory).context.process args searchPath index with
  | some status =>
    tellSignal status
    return statusNumber status
  | none => return (← memory).status

/-! ## Builtins that change the course of the shell -/

def leaveLoops (skip : Skip) (args : List String) : ShellM Nat := do
  let n ← match args with
    | [] => pure 1
    | a :: _ => do
      let n ← wholeNumber a
      if n = 0 then fail s!"Illegal number: {a}"
      pure n
  modifyMemory fun m =>
    if m.loops = 0 then m else { m with skip := some skip, skipCount := min n m.loops }
  return 0

def return' (args : List String) : ShellM Nat := do
  let m ← memory
  let status ← match args with
    | [] => pure m.status
    | a :: _ => wholeNumber a
  modifyMemory fun m => { m with skip := some .returning }
  return status

def exit (args : List String) : ShellM Nat := do
  match args with
  | [] => pure ()
  | a :: _ =>
    let n ← wholeNumber a
    modifyMemory fun m => { m with status := n, trapStatus := m.trapStatus.map fun _ => n }
  throw .leave

def source (engine : Engine) (args : List String) : ShellM Nat := do
  let (_, args) ← takeOptions "" args
  match args with
  | [] => return 0
  | file :: _ =>
    let s ← get
    let m := s.memory
    let path ← if file.toList.contains '/' then pure file
      else match (candidates m.searchPath file).find? fun path =>
        s.machine.files.isFile m.context.cwd (ByteText.path path) with
      | some path => pure path
      | none => fail s!"{file}: not found"
    match ← onMachine (Machine.openPath m.context path .read) with
    | .error e => fail s!"cannot open {path}: {openFailure false e}"
    | .ok i =>
      let bytes := (← onMachine (Machine.readAll i)).toOption.getD []
      modifyMemory fun m => { m with builtin := some path }
      let status ← engine.runText (ByteText.ofBytes bytes) false
      modifyMemory fun m => { m with
        skip := if m.skip = some .returning then none else m.skip }
      return status

/-- Shows how many of a thing a process may have, which is not limited here. -/
def ulimit (args : List String) : ShellM Nat := do
  let (_, args) ← takeOptions "HSatfdscmlpnvwr" args
  if args.isEmpty then print "unlimited\n"
  return 0

/-- The processor time of the shell and of what it has run; nothing takes any here. -/
def times : ShellM Nat := do
  print "0m0.000000s 0m0.000000s\n0m0.000000s 0m0.000000s\n"
  return 0

def runBuiltin (engine : Engine) (name : String) (args : List String) (tested : Bool) :
    ShellM Nat :=
  match name with
  | "." => source engine args
  | ":" | "true" => return 0
  | "false" => return 1
  | "[" | "test" => Condition.test name args
  | "alias" => alias' args
  | "bg" | "fg" => moveJob args
  | "break" => leaveLoops .breaking args
  | "cd" | "chdir" => cd args
  | "command" => command args
  | "continue" => leaveLoops .continuing args
  | "echo" => echo args
  | "eval" => if args.isEmpty then return 0 else engine.runText (" ".intercalate args) tested
  | "exec" => do
    let (_, args) ← takeOptions "" args
    if args.isEmpty then return 0
    else becomeProgram engine args (← memory).searchPath 0
  | "exit" => exit args
  | "export" => export' args
  | "getopts" => getopts args
  | "hash" => hash args
  | "jobs" => jobs args
  | "kill" => kill args
  | "local" => localVariables args
  | "printf" => printf args
  | "pwd" => pwd args
  | "read" => read args
  | "readonly" => readonly args
  | "return" => return' args
  | "set" => set' args
  | "shift" => shift args
  | "times" => times
  | "trap" => trap args
  | "type" => type args
  | "ulimit" => ulimit args
  | "umask" => umask args
  | "unalias" => unalias args
  | "unset" => unset args
  | "wait" => wait engine args
  | _ => return 0

def asBuiltin (name : Option String) (action : ShellM Nat) : ShellM Nat := do
  let before := (← memory).builtin
  let restore : ShellM Unit := modifyMemory fun m => { m with builtin := before }
  modifyMemory fun m => { m with builtin := name }
  let status ← try action catch stop =>
    discard flush
    restore
    throw stop
  let written ← flush
  unless written do complain (name.getD "" ++ ": I/O error")
  restore
  let status := if written then status else status ||| 1
  setStatus status
  return status

/-! ## Functions -/

def functionDepth : Nat := 1000

def runFunction (engine : Engine) (f : Function) (args : List String) (tested : Bool) :
    ShellM Nat := do
  let before ← memory
  if functionDepth ≤ before.depth then
    fail s!"Maximum function recursion depth ({functionDepth}) reached"
  modifyMemory fun m => { m with
    params := args, optionIndex := 1, optionOffset := none, loops := 0, depth := m.depth + 1 }
  andFinally (discard <| engine.run f.body tested false)
    (modifyMemory fun m => { m with
      params := before.params, optionIndex := before.optionIndex
      optionOffset := before.optionOffset, loops := before.loops, depth := before.depth
      skip := if m.skip = some .returning then none else m.skip })
  return (← memory).status

/-! ## What the first words mean -/

/-- A command whose first words have been looked at. -/
structure Plan where
  args : List String := []
  found : Option Found := none
  /-- Whether the first builtin is a special one. -/
  special : Option Bool := none
  /-- Whether functions count. -/
  functions : Bool := true
  searchPath : Option String := none

def takeFirst (engine : Engine) : List Word → ShellM (List String × List Word)
  | [] => return ([], [])
  | w :: ws => do
    let fields ← expandFields engine w
    if fields.isEmpty then takeFirst engine ws else return (fields, ws)

def nextArgs (engine : Engine) (args : List String) (ws : List Word) :
    ShellM (List String × List Word) :=
  if args.isEmpty then takeFirst engine ws else return (args, ws)

/-- The command after the options of `command`, unless they ask for something else. The plan keeps
all arguments in case they do. -/
def afterCommand (engine : Engine) :
    Nat → Plan → List String → List Word → ShellM (Plan × List Word × Bool)
  | 0, plan, _, ws => return (plan, ws, false)
  | fuel + 1, plan, args, ws => do
    let fresh := args.isEmpty
    let (args, ws) ← nextArgs engine args ws
    let plan := if fresh then { plan with args := plan.args ++ args } else plan
    match args with
    | [] => return (plan, ws, false)
    | a :: rest =>
      let found (args : List String) (ws : List Word) : Plan × List Word × Bool :=
        ({ plan with args, functions := false }, ws, true)
      match a.toList with
      | ['-', '-'] =>
        let fresh := rest.isEmpty
        let (rest, ws) ← nextArgs engine rest ws
        let plan := if fresh then { plan with args := plan.args ++ rest } else plan
        if rest.isEmpty then return (plan, ws, false) else return found rest ws
      | '-' :: c :: cs =>
        if (c :: cs).all (· = 'p') then
          afterCommand engine fuel { plan with searchPath := some defaultSearchPath } rest ws
        else return (plan, ws, false)
      | _ => return found args ws

/-- Looks at the name of a command, past `command`. -/
def lookAt (engine : Engine) : Nat → Plan → List Word → ShellM (Plan × List Word)
  | 0, plan, ws => return (plan, ws)
  | fuel + 1, plan, ws => do
    match plan.args with
    | [] => return (plan, ws)
    | name :: rest =>
      let found := (← memory).known? name plan.functions
      let plan := { plan with found := found.getD (.unknown .noEntry) }
      match found with
      | some .builtin =>
        let plan := { plan with special := plan.special.getD (isSpecialBuiltin name) }
        if name ≠ "command" then return (plan, ws)
        let limit := plan.args.length + ws.length + 1
        let (plan, ws, goesOn) ← afterCommand engine limit plan rest ws
        if goesOn then lookAt engine fuel plan ws else return (plan, ws)
      | _ => return (plan, ws)

/-- The other arguments of a command; where it can be given assignments, they are not split. -/
def expandArguments (engine : Engine) (assigning : Bool) : List Word → ShellM (List String)
  | [] => return []
  | w :: ws => do
    let first ← if assigning && isAssignment w then List.singleton <$> expandAssignment engine w
      else expandFields engine w
    return first ++ (← expandArguments engine assigning ws)

/-! ## Running -/

def traceCommand (engine : Engine) (errors : Option Nat) (texts : List String) : ShellM Unit := do
  let m ← memory
  unless !m.has 'x' || m.tracing do
    modifyMemory fun m => { m with tracing := true }
    let start ← expandString engine ((m.value? "PS4").getD "")
    modifyMemory fun m => { m with tracing := false }
    if let some i := errors then
      let text := start ++ " ".intercalate texts ++ "\n"
      onMachine do discard <| Machine.write i (ByteText.bytes text)

def assignFor (isLocal exported : Bool) (text : String) : ShellM Unit := do
  let (name, value) := splitAssignment text
  if isLocal then makeLocal name
  assign name (value.getD "") (isLocal || exported)

def runPlan (engine : Engine) (plan : Plan) (args : List String) (tested last : Bool) :
    ShellM Nat := do
  let name := args.headD ""
  let start (searchPath : String) (index : Nat) : ShellM Nat := do
    if last && !(← memory).hasTraps then becomeProgram engine args searchPath index
    else runProgram engine args searchPath index
  match plan.found with
  | none => asBuiltin none (return (← memory).substitutionStatus)
  | some .builtin =>
    try asBuiltin name (runBuiltin engine name (args.drop 1) tested)
    catch
      | .failure =>
        if plan.special = some true then throw .failure
        return (← memory).status
      | stop => throw stop
  | some (.function f) => runFunction engine f (args.drop 1) tested
  | some .path => start "" 0
  | some _ =>
    let searchPath := plan.searchPath.getD (← memory).searchPath
    match ← findProgram name searchPath with
    | .program index => start searchPath index
    | .unknown e =>
      complain s!"{name}: {runFailure e}"
      return 127
    | _ => return 127

def runSimple (engine : Engine) (line : Nat) (assignments words : List Word)
    (redirects : List Redirect) (tested last : Bool) : ShellM Nat := do
  setLine line
  modifyMemory fun m => { m with substitutionStatus := 0 }
  let (first, ws) ← takeFirst engine words
  let (plan, ws) ← lookAt engine (words.length + 1) { args := first } ws
  let name := plan.args.headD ""
  let isBuiltin := match plan.found with
    | some .builtin => true
    | _ => false
  let more ← expandArguments engine (isBuiltin && assigningBuiltins.contains name) ws
  let args := plan.args ++ more
  let isExec := isBuiltin && name = "exec"
  let isLocal := plan.found.isSome && plan.special ≠ some true
  let before := (← memory).context.descriptors
  if isLocal then pushLocals
  andFinally (do
    let status ← redirectSafely (← destinations engine redirects)
    if status ≠ 0 then
      setStatus status
      if plan.special = some true then throw .failure
      return status
    let mut assigned := []
    for w in assignments do
      let text ← expandAssignment engine w
      assignFor isLocal (isExec && 1 < args.length) text
      assigned := assigned ++ [text]
    traceCommand engine (before.find? 2) (assigned ++ args)
    runPlan engine plan args tested last) do
      unless isExec || redirects.isEmpty do setDescriptors before
      if isLocal then popLocals

end ModularBuild.Shell
