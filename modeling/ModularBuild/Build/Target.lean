import ModularBuild.Build.Site
import ModularBuild.Number.Layout
import ModularBuild.Toolchain.Config
import ModularBuild.Workspace

/-!
# Building a target

What can be found wrong before anything runs is found in this order: the graph, the target, the
toolchain configuration, the required tools. Only then does the first action run.
-/

namespace ModularBuild

/-- What to build, and how. -/
structure BuildRequest where
  target : String
  jobs : Option Nat := none
  verbose : Bool := false
deriving DecidableEq, Repr

namespace Workspace

def telling {α : Type} (r : List Event × Except Failure α) : Operation α := do
  World.tellAll r.1
  match r.2 with
  | .ok a => return a
  | .error e => throw e

def deriveGraph (ws : Workspace) : Operation ArtifactGraph := telling ws.graph

def toolchainConfig (ws : Workspace) (h : Host) : Operation ToolchainConfig := do
  telling (ToolchainConfig.loadMerged h (← get).files (ToolchainConfig.userFile? h)
    (ToolchainConfig.projectFile ws.root))

/-- Programs that cannot be found. -/
def missingTools (h : Host) (files : FileSystem) (tools : List Path) : List Path :=
  tools.filter (!h.hasProgram files ·)

def missingToolsMessage (tools : List Path) : String :=
  "required tool(s) not found: " ++ ", ".intercalate (tools.map (·.text)) ++ "\n"
    ++ "hint: set `cxx`, `fc` or `ar` in .stratum/toolchain.toml, or the CXX, FC and AR "
    ++ "environment variables"

def seconds (t : Time) : String :=
  let hundredths := t / 10000000
  s!"{hundredths / 100}.{Text.numeral 10 2 (hundredths % 100)}"

def finishedLine (name : String) (s : BuildSummary) (elapsed : Time) : String :=
  s!"    Finished `{name}`: {s.built} built, {s.fresh} up to date in {seconds elapsed}s"

/-- Everything that has to be right before the first action runs: the graph, the number of the
target in it, and the site. -/
def preflight (ws : Workspace) (h : Host) (request : BuildRequest) :
    Operation (ArtifactGraph × NodeId × BuildSite) := do
  let g ← ws.deriveGraph
  match g.find? request.target with
  | none => throw (.ofBuild (.unknownTarget request.target))
  | some target =>
    let config ← ws.toolchainConfig h
    let site := { BuildSite.ofConfig ws.root config request.jobs with verbose := request.verbose }
    match missingTools h (← get).files (BuildSite.requiredTools site.toolchain g target) with
    | [] => return (g, target, site)
    | missing => throw { cause := .other (missingToolsMessage missing) }

def build (ws : Workspace) (h : Host) (request : BuildRequest) : Operation BuildSummary := do
  let (g, target, site) ← ws.preflight h request
  World.log .info s!"building `{request.target}`"
  let start := (← get).files.clock
  match ← (((site.runner h g).execute g target : WorldM _) : Operation _) with
  | .error e => throw (.ofBuild e)
  | .ok summary =>
    World.tell (.line (finishedLine (g.displayName target) summary ((← get).files.clock - start)))
    return summary

/-- Removes every file the build writes, and gives the paths of what was there. -/
def clean (ws : Workspace) (h : Host) : Operation (List Path) := do
  let g ← ws.deriveGraph
  let removed ← g.outputs.filterM fun p => do
    let wasThere ← Operation.removeIfExists h (ws.locate p)
    if wasThere then World.log .debug s!"removed {p.text}"
    return wasThere
  World.log .info s!"removed {removed.length} file(s)"
  return removed

end Workspace

end ModularBuild
