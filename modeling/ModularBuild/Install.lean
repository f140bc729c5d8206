import ModularBuild.Build.Target

/-!
# Installing

What is installed is built first, and the first failure ends the installation. Programs go to `bin`
and archives to `lib` below the prefix; headers are not installed.
-/

namespace ModularBuild

/-- Where to install, and how to build what is installed. -/
structure InstallRequest where
  destination : Option Path := none
  jobs : Option Nat := none
  verbose : Bool := false
deriving DecidableEq, Repr

namespace Workspace

def buildFor (ws : Workspace) (h : Host) (request : InstallRequest) (a : Aggregate) :
    Operation Unit :=
  discard <| ws.build h ⟨a.name, request.jobs, request.verbose⟩

/-- An operation whose failure is that of installing into a path. -/
def installing {α : Type} (p : Path) (op : Operation α) : Operation α :=
  op.mapFailure fun e => .ofBuild (.installTarget p e.message)

def installDirectory (ws : Workspace) (h : Host) (request : InstallRequest) (name : String) :
    Operation Path := do
  let dir := ws.installPrefix request.destination / ⟨name⟩
  installing dir (Operation.ensureDirectory h dir)
  return dir

def installFile (h : Host) (src dir : Path) : Operation Path := do
  let dst ← installing dir (Operation.copyInto h src dir)
  World.log .info s!"installed {dst.text}"
  return dst

def installedExecutables (ws : Workspace) : List Path :=
  ws.plan.installedPrograms.map fun q => ws.fileNames.path (.ofName .executable q)

def installedArchives (ws : Workspace) : List Path :=
  ws.plan.libraries.values.map fun l => ws.fileNames.path (ArtifactGraph.archiveOf l)

/-- Builds the programs and copies their executables. -/
def installBin (ws : Workspace) (h : Host) (request : InstallRequest) : Operation (List Path) := do
  ws.buildFor h request .programs
  let dir ← ws.installDirectory h request "bin"
  ws.installedExecutables.mapM fun p => installFile h (ws.locate p) dir

def archiveMode : Nat := 0o644

/-- Builds the libraries and copies their archives. -/
def installLib (ws : Workspace) (h : Host) (request : InstallRequest) : Operation (List Path) := do
  ws.buildFor h request .libraries
  let dir ← ws.installDirectory h request "lib"
  ws.installedArchives.mapM fun p => do
    let dst ← installFile h (ws.locate p) dir
    installing dst (Operation.setMode h dst archiveMode)
    return dst

def installInclude (ws : Workspace) (request : InstallRequest) : Operation Unit := do
  let dir := ws.installPrefix request.destination / "include"
  World.log .info s!"header installation is not provided; nothing copied to {dir.text}"

/-- Runs the command the project wants run after an installation, if it wants one. -/
def runPostInstallHook (ws : Workspace) (h : Host) (request : InstallRequest) : Operation Unit := do
  match ws.manifest.postInstallHook with
  | [] => return ()
  | program :: args =>
    let command := " ".intercalate ws.manifest.postInstallHook
    World.log .info s!"running post-install hook `{command}`"
    let destination := ws.installPrefix request.destination
    let hook : Invocation := {
      program := ⟨program⟩, args, env := [("STRATUM_INSTALL_PREFIX", destination.text)],
      cwd := some ws.root }
    discard <| (Operation.execChecked h hook).mapFailure (·.within "post-install hook failed")

/-- Installs the programs, then runs the hook. -/
def install (ws : Workspace) (h : Host) (request : InstallRequest) : Operation Unit := do
  discard <| ws.installBin h request
  ws.runPostInstallHook h request

end Workspace

end ModularBuild
