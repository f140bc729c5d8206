import ModularBuild.CommandLine.Arguments
import ModularBuild.CommandLine.Subcommand
import ModularBuild.Install
import ModularBuild.Manifest.Project
import ModularBuild.Package

/-!
# The command line

A run reads its arguments, loads the project, and does what the subcommand says. Reports and paths
go to standard output, everything that is told on the way to standard error. A run ends with 0, with
1 after a failure, and with 2 if the arguments make no sense.
-/

namespace ModularBuild

/-- What is left of a run. -/
structure RunResult where
  exitCode : Nat
  stdout : String
  stderr : String
deriving DecidableEq, Repr

/-! ## Standard error -/

namespace Event

/-- The name of a level in a column of five. -/
def levelColumn (level : LogLevel) : String :=
  String.ofList (List.replicate (5 - level.name.length) ' ') ++ level.name

/-- A character of a log message. The control characters that terminals obey are spelled out. -/
def shownChar (c : Char) : List Char :=
  let n := c.toNat
  if n = 0x1B || n = 0x07 || n = 0x08 || n = 0x0C || n = 0x7F then
    ['\\', 'x', Nat.digitChar (n / 16), Nat.digitChar (n % 16)]
  else if 0x80 ≤ n && n ≤ 0x9F then ['\\', 'u', '\x7b'] ++ Nat.toDigits 16 n ++ ['\x7d']
  else [c]

def logLine (level : LogLevel) (message : String) : String :=
  s!"{levelColumn level} {String.ofList (message.toList.flatMap shownChar)}\n"

/-- The line of an event; what only helps to find mistakes is told to those who ask for it. -/
def line? (verbose : Bool) : Event → Option String
  | .log .debug message => if verbose then some (logLine .debug message) else none
  | .log level message => some (logLine level message)
  | .line text => some (text ++ "\n")

end Event

namespace CommandLine

/-! ## Doing what the subcommand says -/

/-- The project manifest: the one that is named, or the nearest one. -/
def manifestPath (s : Settings) (h : Host) (files : FileSystem) : Except Failure Path :=
  match s.manifestPath with
  | some p => .ok (h.cwdPath / p)
  | none => ProjectManifest.locate (files.isFile h.cwd) h.cwdPath

def mode (s : Settings) : BuildMode :=
  match s.module with
  | some module => .standalone (.ofString module)
  | none => .project

def loadWorkspace (s : Settings) (h : Host) : Operation Workspace := do
  let files := (← get).files
  let manifest ← MonadExcept.ofExcept (manifestPath s h files)
  Workspace.telling (Workspace.load (files.readText h.cwd) manifest (mode s))

def librariesInstalled (n : Nat) : String :=
  let noun := if n = 1 then "library" else "libraries"
  s!"   Installed {n} static {noun}"

def installPart (s : Settings) (ws : Workspace) (h : Host) (part : InstallPart) :
    Operation Unit := do
  let request : InstallRequest := ⟨s.destination, s.jobs, s.verbose⟩
  match part with
  | .everything => ws.install h request
  | .headers => ws.installInclude request
  | .programs =>
    let installed ← ws.installBin h request
    World.tell (.line s!"   Installed {installed.length} program(s)")
  | .libraries =>
    let installed ← ws.installLib h request
    World.tell (.line (librariesInstalled installed.length))

def clean (s : Settings) (ws : Workspace) (h : Host) : Operation Unit := do
  let removed ← ws.clean h
  if s.verbose then removed.forM fun p => World.tell (.line s!"     Removed {p.text}")
  World.tell (.line s!"     Removed {removed.length} file(s)")

def build (s : Settings) (ws : Workspace) (h : Host) (target : String) : Operation Unit :=
  discard <| ws.build h ⟨target, s.jobs, s.verbose⟩

/-- Does what a command line says, and gives what goes to standard output. -/
def perform (c : CommandLine) (h : Host) : Operation String := do
  let s := c.settings
  let ws ← loadWorkspace s h
  match c.subcommand with
  | .aggregate a =>
    build s ws h a.name
    return ""
  | .target =>
    build s ws h (s.target.getD "")
    return ""
  | .install part =>
    installPart s ws h part
    return ""
  | .package =>
    let distribution ← ws.package h s.tag
    return distribution.archive.text ++ "\n"
  | .clean =>
    clean s ws h
    return ""
  | .report => return if s.json then ws.reportJson else ws.report

/-! ## Runs -/

def failureText (e : Failure) : String :=
  s!"error: {e.message}\n" ++ match e.cause.help? with
    | some help => s!"help: {help}\n"
    | none => ""

/-- Performs a command line on some files. -/
def runOn (c : CommandLine) (h : Host) (files : FileSystem) : RunResult × FileSystem :=
  let (result, w) := (c.perform h).run { files }
  let told := String.join (w.events.reverse.filterMap (Event.line? c.settings.verbose))
  match result with
  | .ok stdout => (⟨0, stdout, told⟩, w.files)
  | .error e => (⟨1, "", told ++ failureText e⟩, w.files)

/-- How a run ends that does nothing. -/
def stopped : Stop → RunResult
  | .usage e => ⟨2, "", s!"error: {e.message}\n\n{Help.usage none}\n"⟩
  | .help topic => ⟨0, Help.text topic, ""⟩
  | .version => ⟨0, s!"{programName} {programVersion}\n", ""⟩

/-- Runs the program with its arguments. -/
def run (h : Host) (arguments : List String) (files : FileSystem) : RunResult × FileSystem :=
  match Arguments.read (h.getEnv? "STRATUM_JOBS") arguments with
  | .error stop => (stopped stop, files)
  | .ok c => c.runOn h files

end CommandLine

end ModularBuild
