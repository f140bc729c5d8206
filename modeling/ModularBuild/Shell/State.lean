import ModularBuild.Process.Machine
import ModularBuild.Shell.Syntax

/-!
# The state of a shell

Variables, functions, options and what else a shell remembers between commands, and the monad in
which it runs them. A subshell begins with a copy of what is remembered, so its changes are lost;
the machine is shared.
-/

namespace ModularBuild.Shell

structure Variable where
  value : Option String
  exported : Bool := false
  readonly : Bool := false
  /-- Counts the variables as they appear. -/
  serial : Nat
deriving Inhabited

/-- A function: its commands, and the line they begin on. -/
structure Function where
  line : Nat
  body : Script

inductive Skip where
  | breaking
  | continuing
  | returning
deriving DecidableEq

structure Memory where
  /-- The name the shell goes by in complaints. -/
  name : String
  params : List String := []
  context : ProcessContext
  /-- The working directory as it was named; empty if it is not known. -/
  directory : String := ""
  vars : SortedMap String Variable := ∅
  nextSerial : Nat := 0
  functions : SortedMap String Function := ∅
  aliases : List (String × String) := []
  /-- The letters of the options that are on. -/
  options : List Char := []
  /-- What is done on a signal, by its number; 0 stands for the end of the shell. -/
  traps : SortedMap Nat String := ∅
  /-- The signals that have come and whose traps have not been run. -/
  caught : List Nat := []
  status : Nat := 0
  /-- The status of the last substitution of commands. -/
  substitutionStatus : Nat := 0
  lastBackground : Option Nat := none
  /-- The process that the shell calls itself, which a subshell keeps. -/
  mainProcess : Nat
  line : Nat := 0
  /-- The builtin that is running. -/
  builtin : Option String := none
  /-- The values that local variables hide, one list for each function that runs. -/
  hidden : List (List (String × Option Variable)) := []
  loops : Nat := 0
  /-- The number of functions that run inside each other. -/
  depth : Nat := 0
  skip : Option Skip := none
  /-- The number of loops to leave. -/
  skipCount : Nat := 0
  /-- The texts in the script, by number. -/
  documents : SortedMap Nat Word := ∅
  nextDocument : Nat := 0
  /-- The argument whose options are looked at next, counted from 1. -/
  optionIndex : Nat := 1
  /-- The place of the next option in the argument before. -/
  optionOffset : Option Nat := none
  /-- The programs that have been found, with the place of their directory in the search path. -/
  found : List (String × Nat) := []
  /-- The status when the running trap began. -/
  trapStatus : Option Nat := none
  /-- Whether the marks before traced commands are being made. -/
  tracing : Bool := false

/-- A command that is not waited for. It is run when the shell has nothing else to do. -/
structure Job where
  /-- The number the job goes by. -/
  number : Nat
  process : Nat
  /-- What is still to be run, and by what kind of shell. -/
  waiting : Option (Script × Memory)
  status : ExitStatus := .code 0

structure Shell where
  memory : Memory
  /-- The newest job comes first. -/
  jobs : List Job := []
  /-- What the running builtin has printed, newest first. -/
  output : List String := []
  machine : Machine

inductive Stop where
  /-- A mistake that has been complained about. -/
  | failure
  /-- The end of the shell, with the status it has. -/
  | leave
  /-- The end of the process, without more ado. -/
  | ended (s : ExitStatus)

abbrev ShellM := ExceptT Stop (StateM Shell)

variable {α : Type}

def memory : ShellM Memory := return (← get).memory

def modifyMemory (f : Memory → Memory) : ShellM Unit :=
  modify fun s => { s with memory := f s.memory }

def onMachine (action : MachineM α) : ShellM α := do
  let s ← get
  let (a, machine) := action.run s.machine
  set { s with machine }
  return a

def setStatus (n : Nat) : ShellM Unit := modifyMemory fun m => { m with status := n }

/-! ## Complaints -/

def Memory.complaintStart (m : Memory) : String :=
  let start := s!"{m.name}: {m.line}: "
  match m.builtin with
  | some name => s!"{start}{name}: "
  | none => start

def writeError (s : String) : ShellM Unit := do onMachine ((← memory).context.complain s)

def complain (message : String) : ShellM Unit := do
  writeError ((← memory).complaintStart ++ message ++ "\n")

def fail (message : String) (status : Nat := 2) : ShellM α := do
  complain message
  setStatus status
  throw .failure

/-- Runs an action and then another, whether the first one stops or not. -/
def andFinally (action : ShellM α) (cleanup : ShellM Unit) : ShellM α := do
  let a ← try action catch stop =>
    cleanup
    throw stop
  cleanup
  return a

/-! ## Output of builtins -/

/-- Prints; what a builtin prints is written at its end. -/
def print (s : String) : ShellM Unit := modify fun sh => { sh with output := s :: sh.output }

def Memory.ignores (m : Memory) (s : Signal) : Bool :=
  m.context.ignored.contains s || m.traps.find? s.number = some ""

/-- Writes what has been printed, and tells whether that worked. A shell whose reader has gone is
ended. -/
def flush : ShellM Bool := do
  let s ← get
  let text := String.join s.output.reverse
  set { s with output := [] }
  if text.isEmpty then return true
  match ← onMachine (s.memory.context.write 1 text) with
  | .ok () => return true
  | .error e =>
    if e = .brokenPipe && !s.memory.ignores .pipe then throw (.ended (.signal .pipe))
    return false

/-! ## Options -/

/-- The options by name and letter, in the order they are shown. -/
def optionNames : List (String × Char) := [
  ("errexit", 'e'), ("noglob", 'f'), ("ignoreeof", 'I'), ("interactive", 'i'), ("monitor", 'm'),
  ("noexec", 'n'), ("stdin", 's'), ("xtrace", 'x'), ("verbose", 'v'), ("vi", 'V'), ("emacs", 'E'),
  ("noclobber", 'C'), ("allexport", 'a'), ("notify", 'b'), ("nounset", 'u'), ("privileged", 'p'),
  ("nolog", '\x00'), ("debug", '\x01')]

def Memory.has (m : Memory) (option : Char) : Bool := m.options.contains option

def Memory.setOption (m : Memory) (option : Char) (on : Bool) : Memory :=
  let others := m.options.filter (· ≠ option)
  { m with options := if on then option :: others else others }

/-! ## Variables -/

def Memory.value? (m : Memory) (name : String) : Option String :=
  (m.vars.find? name).bind (·.value)

def Memory.separators (m : Memory) : String := (m.value? "IFS").getD " \t\n"

def putVariable (name : String) (v : Variable) : ShellM Unit :=
  modifyMemory fun m => { m with vars := m.vars.insert name v }

/-- Changes a variable, or makes it. A variable that may not be changed stops the shell. -/
def changeVariable (name : String) (f : Variable → Variable) : ShellM Unit := do
  let m ← memory
  match m.vars.find? name with
  | some v =>
    if v.readonly then fail s!"{name}: is read only"
    putVariable name (f v)
  | none =>
    modifyMemory fun m => { m with nextSerial := m.nextSerial + 1 }
    putVariable name (f { value := none, serial := m.nextSerial })
  if name = "PATH" then modifyMemory fun m => { m with found := [] }
  if name = "OPTIND" then modifyMemory fun m =>
    let n := ((m.value? "OPTIND").bind (·.toNat?)).getD 0
    { m with optionIndex := max n 1, optionOffset := none }

/-- Assigns to a variable; `export` makes it part of the environment. -/
def assign (name value : String) (exported : Bool := false) : ShellM Unit := do
  let all := (← memory).has 'a'
  changeVariable name fun v => { v with
    value := some value, exported := v.exported || exported || all }

def unsetVariable (name : String) : ShellM Unit := do
  match (← memory).vars.find? name with
  | none => return ()
  | some v =>
    if v.readonly then fail s!"{name}: is read only"
    modifyMemory fun m => { m with vars := m.vars.erase name }

/-! ## Local variables -/

def optionsName : String := "-"

/-- Makes a variable, or the options, local to what runs now; the value is given back later. -/
def makeLocal (name : String) : ShellM Unit := do
  let m ← memory
  match m.hidden with
  | [] => return ()
  | frame :: frames =>
    let before := if name = optionsName then
        some { value := some (String.ofList m.options), serial := 0 }
      else m.vars.find? name
    unless frame.any (·.1 = name) do
      modifyMemory fun m => { m with hidden := ((name, before) :: frame) :: frames }

def pushLocals : ShellM Unit := modifyMemory fun m => { m with hidden := [] :: m.hidden }

def popLocals : ShellM Unit := modifyMemory fun m =>
  match m.hidden with
  | [] => m
  | frame :: frames =>
    let give (m : Memory) : String × Option Variable → Memory
      | (name, none) => { m with vars := m.vars.erase name }
      | (name, some v) =>
        if name = optionsName then { m with options := (v.value.getD "").toList }
        else { m with vars := m.vars.insert name v }
    let m := frame.foldl give m
    if frame.any (·.1 = "PATH") then { m with hidden := frames, found := [] }
    else { m with hidden := frames }

/-! ## The environment -/

def bucketOf (name : String) : Nat :=
  match name.toList with
  | [] => 0
  | c :: cs => ((c :: cs).foldl (fun n c => n + c.toNat) (c.toNat * 16)) % 39

/-- The environment of programs, in the order the shell hands it over. -/
def Memory.environment (m : Memory) : List String :=
  let exported := m.vars.entries.filter fun (_, v) => v.exported && v.value.isSome
  let sorted := exported.mergeSort fun (a, v) (b, w) =>
    bucketOf a < bucketOf b || (bucketOf a = bucketOf b && v.serial ≤ w.serial)
  sorted.map fun (name, v) => name ++ "=" ++ v.value.getD ""

def Memory.childContext (m : Memory) (args : List String) : ProcessContext :=
  let ignored := m.traps.entries.filterMap fun (n, action) =>
    if action = "" && n ≠ 0 then some (Signal.mk n) else none
  { m.context with args, env := m.environment, ignored := m.context.ignored ++ ignored }

/-! ## Descriptors -/

def setDescriptors (ds : SortedMap Nat Nat) : ShellM Unit :=
  modifyMemory fun m => { m with context := { m.context with descriptors := ds } }

/-- A text in quotes, up to its end: stretches without a single quote in single quotes, stretches of
single quotes in double ones. -/
def quotedFor : Nat → List Char → List Char
  | 0, _ => []
  | fuel + 1, cs =>
    let (plain, rest) := cs.span (· ≠ '\'')
    let (quotes, rest) := rest.span (· = '\'')
    let start := '\'' :: plain ++ ['\'']
    if quotes.isEmpty then start
    else
      let more := if rest.isEmpty then [] else quotedFor fuel rest
      start ++ '"' :: quotes ++ '"' :: more

def inQuotes (s : String) : String := String.ofList (quotedFor (s.length + 1) s.toList)

end ModularBuild.Shell
