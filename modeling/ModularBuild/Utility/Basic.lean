import ModularBuild.Process.Launch
import ModularBuild.Text.Escape

/-!
# Utilities

A utility is a program that comes with the machine: it takes its arguments and answers with its exit
code. What it prints is kept and written at its end, or before it complains.
-/

namespace ModularBuild.Utility

structure Setting where
  context : ProcessContext
  launcher : Launcher
  /-- The exit code of a utility that fails. -/
  failure : Nat := 1

structure State where
  machine : Machine
  /-- What has been printed and not been written, newest first. -/
  output : List String := []
  /-- The first failure to write it. -/
  broken : Option FileError := none

end Utility

abbrev UtilityM := ReaderT Utility.Setting (ExceptT ExitStatus (StateM Utility.State))

abbrev Utility := List String → UtilityM Nat

namespace Utility

variable {α : Type}

def context : UtilityM ProcessContext := return (← read).context

def onMachine (action : MachineM α) : UtilityM α := do
  let s ← get
  let (a, machine) := action.run s.machine
  set { s with machine }
  return a

def files : UtilityM FileSystem := return (← get).machine.files

def programName : UtilityM String := return (← context).args.headD ""

/-! ## Output -/

def say (s : String) : UtilityM Unit := modify fun st => { st with output := s :: st.output }

def sayLine (s : String) : UtilityM Unit := say (s ++ "\n")

/-- Writes what has been printed. A utility whose reader has gone is ended. -/
def flush : UtilityM Unit := do
  let s ← get
  let text := String.join s.output.reverse
  set { s with output := [] }
  if text.isEmpty || s.broken.isSome then return ()
  let c ← context
  match ← onMachine (c.write 1 text) with
  | .ok () => return ()
  | .error e =>
    if e = .brokenPipe && !c.ignored.contains .pipe then throw (.signal .pipe)
    modify fun s => { s with broken := some e }

def writeError (s : String) : UtilityM Unit := do onMachine ((← context).complain s)

/-- Complains under the name of the utility; what has been printed goes first. -/
def complain (s : String) : UtilityM Unit := do
  flush
  writeError s!"{← programName}: {s}\n"

def quit (code : Nat) : UtilityM α := throw (.code code)

def fail (s : String) : UtilityM α := do
  complain s
  quit (← read).failure

def refuse (s : String) : UtilityM α := do
  complain s
  writeError s!"Try '{← programName} --help' for more information.\n"
  quit (← read).failure

/-! ## Files -/

def openNamed (name : String) (access : Machine.Access) : UtilityM (Except FileError Nat) := do
  onMachine (Machine.openPath (← context) name access)

def readDescriptor (d : Nat) : UtilityM (Except FileError String) := do
  onMachine ((← context).read d Machine.readLimit)

/-- Puts bytes that were read last from standard input back, if that is possible. -/
def putBack (n : Nat) : UtilityM Unit := do
  if let some i := (← context).descriptors.find? 0 then
    let m := (← get).machine
    if m.seekable i then
      if let some o := m.opened[i]? then
        onMachine (Machine.update i { o with offset := o.offset - n })

/-- What is in the file with a name, or left of standard input for `-`. -/
def readNamed (name : String) : UtilityM (Except FileError String) := do
  if name = "-" then readDescriptor 0
  else match ← openNamed name .read with
    | .error e => return .error e
    | .ok i => return (← onMachine (Machine.readAll i)).map ByteText.ofBytes

def writeOpened (i : Nat) (s : String) : UtilityM (Except FileError Unit) :=
  onMachine (Machine.write i (ByteText.bytes s))

def perform (task : FileTask α) : UtilityM (Except FileError α) := onMachine (Machine.onFiles task)

def change (f : FileSystem → Except FileError FileSystem) : UtilityM (Except FileError Unit) :=
  perform (FileTask.change f)

/-- Runs work on each item; the exit code is the greatest. -/
def forEach {β : Type} (items : List β) (work : β → UtilityM Nat) : UtilityM Nat :=
  items.foldlM (fun code a => return max code (← work a)) 0

def lookup (path : String) : UtilityM (Except FileError (Location × FileEntry)) := do
  return (← files).lookup (← context).cwd (ByteText.path path)

/-- Asks about a path of bytes; a link at its end is not followed. -/
def lookupLink (path : String) : UtilityM (Except FileError (Location × FileEntry)) := do
  return (← files).lookupLink (← context).cwd (ByteText.path path)

def isDirectory (path : String) : UtilityM Bool := do
  return (← files).isDirectory (← context).cwd (ByteText.path path)

/-! ## Running -/

def lostOutput : UtilityM (Option FileError) := do
  flush
  return (← get).broken

/-- Ends the utility if output was lost, with a message of its own. -/
def checkOutput (message : FileError → String) : UtilityM Unit := do
  if let some e ← lostOutput then
    writeError (message e)
    quit (← read).failure

def finish (code : Nat) : UtilityM Nat := do
  match ← lostOutput with
  | none => return code
  | some e =>
    writeError s!"{← programName}: write error: {e.name}\n"
    return (← read).failure

def run (u : Utility) (failure : Nat) (launcher : Launcher) (context : ProcessContext) :
    MachineM ExitStatus := fun machine =>
  let whole : UtilityM Nat := do
    let code ← try u (context.args.drop 1) catch
      | .code n => pure n
      | status => throw status
    if (← get).broken.isSome && code ≠ 0 then return code
    finish code
  let (result, s) := (whole.run { context, launcher, failure }).run { machine }
  match result with
  | .ok code => (.code code, s.machine)
  | .error status => (status, s.machine)

end Utility

end ModularBuild
