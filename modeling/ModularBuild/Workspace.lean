import ModularBuild.Failure
import ModularBuild.Graph.Derive
import ModularBuild.Log
import ModularBuild.Manifest.Module
import ModularBuild.Manifest.Project
import ModularBuild.Plan.Registry
import ModularBuild.Plan.Report

/-!
# Workspaces

A workspace is a loaded project: its manifest, the mode it is built in, and the plan of the modules
the mode selects. Loading reads the project manifest and the manifest of every selected module, and
nothing else; how files are read is a parameter.
-/

namespace ModularBuild

structure Workspace where
  /-- The directory of the project manifest. -/
  root : Path
  manifest : ProjectManifest
  mode : BuildMode
  plan : Plan
  /-- The manifests that were read, relative to the root, in path order. -/
  controlFiles : List Path
deriving Inhabited

namespace Workspace

/-- Reads files as text. -/
abbrev Reader := Path → Except FileError String

/-! ## Loading -/

def loadProjectManifest (read : Reader) (p : Path) : Except Failure ProjectManifest :=
  match read p with
  | .error e => .error (.ofFile s!"failed to read manifest: {p.text}" e)
  | .ok text =>
    let failed (cause : Cause) : Except Failure ProjectManifest :=
      .error { contexts := [s!"failed to parse manifest: {p.text}"], cause }
    match ProjectManifest.parse text with
    | .ok m => .ok m
    | .error .malformed => failed .toml
    | .error .blankName => failed (.other "`project.name` must not be empty")

def loadModuleManifest (read : Reader) (p : Path) : Except Failure ModuleManifest :=
  match read p with
  | .error e => .error (.ofFile s!"failed to read module manifest: {p.text}" e)
  | .ok text =>
    match ModuleManifest.parse? text with
    | some m => .ok m
    | none => .error { contexts := [s!"failed to parse module manifest: {p.text}"], cause := .toml }

/-- The directory a manifest lies in; one without a directory lies in the current one. -/
def rootOf (manifestPath : Path) : Path := (manifestPath.parent?.filter (!·.isEmpty)).getD ⟨"."⟩

/-- The modules that a mode selects. A module built on its own has to be declared. -/
def selectModules (manifest : ProjectManifest) : BuildMode → Except Failure (List ModulePath)
  | .project => .ok manifest.modulePaths
  | .standalone module =>
    if manifest.modulePaths.contains module then .ok [module]
    else .error (.ofPlan (.unknownModule module))

def moduleManifestPath (module : ModulePath) : Path := module.pathOf ModuleManifest.fileName

/-- What is told of a module whose manifest has been fed into the registry. -/
def declareEvents (module : ModulePath) : Except PlanError Unit → List Event
  | .ok () => [.log .debug s!"begin module {module}", .log .debug s!"end module {module}"]
  | .error (.duplicateModule _) => []
  | .error _ => [.log .debug s!"begin module {module}"]

/-- Feeds the manifests of modules into a registry, up to the first that fails. -/
def declareModules (read : Reader) (root : Path) (r : Registry) :
    List ModulePath → List Event × Except Failure Registry
  | [] => ([], .ok r)
  | module :: modules =>
    match loadModuleManifest read (root / moduleManifestPath module) with
    | .error e => ([], .error (e.within s!"failed to load module `{module}`"))
    | .ok m =>
      let (r, result) := m.declareInto r module
      let events := declareEvents module result
      match result with
      | .error e => (events, .error (.ofPlan e))
      | .ok () =>
        let (more, result) := declareModules read root r modules
        (events ++ more, result)

/-- Paths in path order, one of each set of spellings. -/
def sortedPaths (ps : List Path) : List Path :=
  (SortedSet.ofList ps).toList

def load (read : Reader) (manifestPath : Path) (mode : BuildMode) :
    List Event × Except Failure Workspace :=
  match loadProjectManifest read manifestPath with
  | .error e => ([], .error e)
  | .ok manifest =>
    match manifestPath.fileName?, selectModules manifest mode with
    | none, _ => ([], .error { cause := .other "manifest path has no file name" })
    | some _, .error e => ([], .error e)
    | some name, .ok modules =>
      let root := rootOf manifestPath
      let (events, declared) := declareModules read root (.empty manifest.name) modules
      match declared with
      | .error e => (events, .error e)
      | .ok r =>
        match r.finalize (mode.naming manifest.name) with
        | .error e => (events, .error (.ofPlan e))
        | .ok plan =>
          let loaded :=
            s!"loaded project `{plan.project}` with {plan.modules.size} module(s)"
          let controlFiles := sortedPaths (⟨name⟩ :: modules.map moduleManifestPath)
          (events ++ [.log .debug loaded], .ok ⟨root, manifest, mode, plan, controlFiles⟩)

/-! ## Paths and names -/

/-- A project-relative path as one that can be opened. -/
def locate (ws : Workspace) (p : Path) : Path := ws.root / p

def fileNames (ws : Workspace) : FileNames := { extensions := ws.manifest.extensions }

/-- Where to install: the prefix asked for, else the manifest's, else `install` in the root.
Relative prefixes are taken from the root. -/
def installPrefix (ws : Workspace) (explicit : Option Path) : Path :=
  ws.root / ((explicit <|> ws.manifest.installPrefix).getD ⟨"install"⟩)

/-! ## The graph and the report -/

/-- The artifact graph of a workspace, with what is told while it is derived. -/
def graph (ws : Workspace) : List Event × Except Failure ArtifactGraph :=
  let d := ArtifactGraph.derive ws.plan ws.fileNames .everyLibrary ws.mode
  match d.result with
  | .error e => (d.warnings, .error (.ofPlan e))
  | .ok g =>
    let derived := s!"artifact graph has {g.nodes.size} node(s) and {g.edges.length} edge(s)"
    (d.warnings ++ [.log .debug derived], .ok g)

def report (ws : Workspace) : String := ws.plan.report

def reportJson (ws : Workspace) : String := (ws.plan.reportJson ws.mode).pretty

end Workspace

end ModularBuild
