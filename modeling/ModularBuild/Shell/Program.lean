import ModularBuild.Shell.Run

/-!
# The shell as a program

The shell takes its commands from an argument after `-c`, from a file, or from standard input.
-/

namespace ModularBuild.Shell

structure StartRequest where
  /-- Whether the commands stand in an argument. -/
  commands : Bool := false
  rest : List String := []

/-- The letters of an option argument; the answer is the arguments after those that they take. -/
def startLetters (on : Bool) : List Char → List String → Bool → ShellM (Bool × List String)
  | [], args, commands => return (commands, args)
  | 'c' :: cs, args, _ => startLetters on cs args true
  | 'l' :: cs, args, commands => startLetters on cs args commands
  | 'o' :: cs, args, commands => do
    match args with
    | [] =>
      showOptions on
      startLetters on cs [] commands
    | name :: args =>
      setOptionName name on
      startLetters on cs args commands
  | c :: cs, args, commands => do
    setOptionLetter c on
    startLetters on cs args commands

/-- Takes the options in front of the arguments; `fuel` is their number. -/
def takeStart : Nat → StartRequest → ShellM StartRequest
  | 0, r => return r
  | fuel + 1, r => do
    match r.rest with
    | [] => return r
    | a :: args =>
      match a.toList with
      | ['-'] | ['-', '-'] => return { r with rest := args }
      | '-' :: cs =>
        let (commands, rest) ← startLetters true cs args r.commands
        takeStart fuel { commands, rest }
      | '+' :: cs =>
        let (commands, rest) ← startLetters false cs args r.commands
        takeStart fuel { commands, rest }
      | _ => return r

def importable (env : List String) : List (String × String) :=
  env.filterMap fun s =>
    match splitAssignment s with
    | (name, some value) => if isName name then some (name, value) else none
    | _ => none

def startVariables (c : ProcessContext) : ShellM Unit := do
  for (name, value) in [("IFS", " \t\n"), ("PATH", defaultSearchPath), ("PS1", "$ "),
      ("PS2", "> "), ("PS4", "+ "), ("OPTIND", "1")] do
    assign name value
  for (name, value) in importable c.env do assign name value true
  assign "IFS" " \t\n"
  assign "OPTIND" "1"
  assign "PPID" (toString c.parent)
  let files := (← get).machine.files
  let named := ((← memory).value? "PWD").filter fun p =>
    p.startsWith "/" && match files.lookup c.cwd (ByteText.path p) with
      | .ok (l, _) => l = c.cwd
      | .error _ => false
  match named, files.at? c.cwd with
  | none, none =>
    complain "getcwd() failed: No such file or directory"
    setDirectory (some "") false
  | named, _ => setDirectory named false

def start (engine : Engine) (c : ProcessContext) : ShellM Nat := do
  startVariables c
  let args := c.args.drop 1
  let r ← takeStart (args.length + 1) { rest := args }
  let setName (args : List String) : ShellM Unit := do
    if let name :: params := args then modifyMemory fun m => { m with name, params }
  let runFile (i : Nat) : ShellM Nat := do
    let bytes := (← onMachine (Machine.readAll i)).toOption.getD []
    engine.runText (ByteText.ofBytes bytes) false
  match r.commands, r.rest with
  | true, [] => fail "-c requires an argument"
  | true, text :: rest =>
    setName rest
    engine.runText text false
  | false, rest =>
    if rest.isEmpty || (← memory).has 's' then
      modifyMemory fun m => { m with params := rest, options := m.options.insert 's' }
      match (← memory).context.descriptors.find? 0 with
      | some i => runFile i
      | none => return 0
    else
      let file := rest.headD ""
      match ← onMachine (Machine.openPath c file .read) with
      | .error e => fail s!"cannot open {file}: {openFailure false e}"
      | .ok i =>
        setName rest
        runFile i

def runDepth : Nat := 20000

def program (launcher : Launcher) (c : ProcessContext) : MachineM ExitStatus := fun machine =>
  let engine := Engine.upTo launcher runDepth
  let m : Memory := { name := c.args.headD "sh", context := c, mainProcess := c.process }
  let (status, s) := (untilEnd engine (start engine c)).run { memory := m, machine }
  match status with
  | .ok status => (status, s.machine)
  | .error _ => (.code 2, s.machine)

end ModularBuild.Shell
