import ModularBuild.Failure
import ModularBuild.Files.Task
import ModularBuild.Log
import ModularBuild.Process.Command
import ModularBuild.Process.Output

/-!
# The host of an operation

An operation works in a directory, under an environment, on a file system, and starts programs. What
a program does is the host's: any function of the invocation and the files. The world that an
operation changes holds the files, what the user was told, and which programs were started.
-/

namespace ModularBuild

structure Host where
  /-- The directory relative paths are taken from. -/
  cwd : Location
  env : SortedMap String String
  /-- Runs a program to its end. -/
  spawn : Invocation → FileSystem → Except FileError ProcessOutput × FileSystem

structure World where
  files : FileSystem
  /-- What the user was told, newest first. -/
  events : List Event := []
  /-- The programs that were started, newest first. -/
  started : List Invocation := []

/-- A step that changes the world and does not fail. -/
abbrev WorldM := StateM World

/-- An operation that may fail; what it has changed by then stays changed. -/
abbrev Operation := ExceptT Failure WorldM

namespace Host

def getEnv? (h : Host) (name : String) : Option String := h.env.find? name

def cwdPath (h : Host) : Path := FileSystem.pathOf h.cwd

def settingsDirectory? (h : Host) : Option Path :=
  ((h.getEnv? "HOME").filter (· ≠ "")).map fun home => Path.mk home / ".stratum"

def hasProgram (h : Host) (files : FileSystem) (p : Path) : Bool :=
  files.hasProgram h.cwd ((h.getEnv? "PATH").getD standardSearchPath) p

end Host

namespace World

def tell (e : Event) : WorldM Unit := modify fun w => { w with events := e :: w.events }

def tellAll (es : List Event) : WorldM Unit := es.forM tell

def log (level : LogLevel) (message : String) : WorldM Unit := tell (.log level message)

def onFiles {α : Type} (task : FileTask α) : WorldM (Except FileError α) := fun w =>
  let (result, files) := task.exec w.files
  (result, { w with files })

/-- Starts a program and waits for its end. -/
def spawn (h : Host) (i : Invocation) : WorldM (Except FileError ProcessOutput) := fun w =>
  let (result, files) := h.spawn i w.files
  (result, { w with files, started := i :: w.started })

end World

namespace Operation

variable {α : Type}

def orFail (context : String) (r : Except FileError α) : Operation α :=
  match r with
  | .ok a => return a
  | .error e => throw (.ofFile context e)

/-- Runs a task on the files; a failure is put into a context. -/
def onFiles (context : String) (task : FileTask α) : Operation α := do
  orFail context (← World.onFiles task)

def ensureDirectory (h : Host) (p : Path) : Operation Unit :=
  onFiles s!"failed to create directory: {p.text}" (FileTask.ensureDirectory h.cwd p)

/-- Makes the directory that a path lies in unless it is there. -/
def ensureParent (h : Host) (p : Path) : Operation Unit :=
  match FileTask.directoryOf? p with
  | some dir => ensureDirectory h dir
  | none => return ()

/-- Removes a file or a link if there is one, and tells whether there was. -/
def removeIfExists (h : Host) (p : Path) : Operation Bool :=
  onFiles s!"failed to remove file: {p.text}" (FileTask.removeIfExists h.cwd p)

/-- Copies a file into a directory under its own name, and gives the new path. -/
def copyInto (h : Host) (src dir : Path) : Operation Path := do
  match src.fileName? with
  | none => throw { cause := .other s!"not a file path: {src.text}" }
  | some name =>
    let dst := dir / ⟨name⟩
    onFiles s!"failed to copy {src.text} to {dst.text}" (FileTask.copy h.cwd src dst)
    return dst

def setMode (h : Host) (p : Path) (mode : Nat) : Operation Unit :=
  onFiles s!"failed to set permissions on {p.text}" (FileTask.change (·.setMode h.cwd p mode))

/-- The files at and below a directory, relative to a base. -/
def walkFiles (h : Host) (base dir : Path) : Operation (List Path) := do
  match (← get).files.walkFiles h.cwd base dir with
  | some found => return found
  | none => throw (.ofWalk dir)

/-- Runs a program to its end; failing to start is the only failure. -/
def exec (h : Host) (i : Invocation) : Operation ProcessOutput := do
  orFail s!"failed to spawn `{i.program.text}`" (← World.spawn h i)

/-- Runs a program that has to succeed. -/
def execChecked (h : Host) (i : Invocation) : Operation ProcessOutput := do
  let output ← exec h i
  if output.status.success then return output
  let message := s!"`{i.display}` exited with {output.status.message}\n{output.toolOutput}"
  throw { cause := .other message }

/-- Runs an operation; a failure becomes another. -/
def mapFailure (f : Failure → Failure) (op : Operation α) : Operation α := fun w =>
  let (result, w) := op.run w
  (result.mapError f, w)

/-- Runs an operation, and if it fails, something more before the failure is passed on. -/
def orElseDo (cleanup : WorldM Unit) (op : Operation α) : Operation α :=
  tryCatch op fun e => do
    cleanup
    throw e

end Operation

end ModularBuild
