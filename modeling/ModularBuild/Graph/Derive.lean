import ModularBuild.Graph.Toposort
import ModularBuild.Log
import ModularBuild.Naming
import ModularBuild.Plan.Basic
import ModularBuild.Plan.Error

/-!
# Deriving the graph from a plan

Generated files come first, so that a declared source which is also generated is the generated node
and not a second one. Then come units, libraries and programs, each wired to what it is made of; the
inputs of rules are wired last, because they may name any of those. In a whole project every
archive, shared object, program and generated file gets its file name as a shorthand. A graph with a
cycle is refused.
-/

namespace ModularBuild.ArtifactGraph

/-! ## Adding artifacts -/

def addArtifact (g : ArtifactGraph) (f : FileNames) (a : Artifact) (action : Action) :
    ArtifactGraph × NodeId :=
  g.addNode ⟨.artifact a, some (f.path a), action⟩

/-- Adds a file that is written by hand, unless some node has its path. -/
def addSource (g : ArtifactGraph) (f : FileNames) (a : Artifact) : ArtifactGraph × NodeId :=
  match g.findPath? (f.path a) with
  | some n => (g, n)
  | none => g.addArtifact f a .source

/-- Adds a file that no artifact accounts for, unless some node has its path. -/
def addFile (g : ArtifactGraph) (path : Path) : ArtifactGraph × NodeId :=
  match g.findPath? path with
  | some n => (g, n)
  | none => g.addNode ⟨.file path, some path, .source⟩

/-- Adds an object and the source it is compiled from. -/
def addObject (g : ArtifactGraph) (f : FileNames) (unit : QualifiedName) (lang : Language) :
    ArtifactGraph × NodeId :=
  let source := Artifact.ofName (.source lang) unit
  let (g, s) := g.addSource f source
  let (g, o) := g.addArtifact f (.ofName .object unit) (.compile lang (f.path source))
  (g.addEdge o s, o)

/-- Makes a node need whatever carries each of the paths. -/
def linkPaths (g : ArtifactGraph) (n : NodeId) (paths : List Path) : ArtifactGraph :=
  paths.foldl (fun g path =>
    match g.findPath? path with
    | some m => g.addEdge n m
    | none => g) g

def linkAggregates (g : ArtifactGraph) (as : List Aggregate) (n : NodeId) : ArtifactGraph :=
  as.foldl (fun g a => g.addEdge (aggregate a) n) g

/-! ## The parts of a plan -/

def addGenerated (f : FileNames) (g : ArtifactGraph)
    (entry : QualifiedName × Option GeneratedRule) : ArtifactGraph :=
  let (file, rule) := entry
  let action :=
    match rule with
    | some rule => Action.generate rule.command ⟨file.module.text⟩
    | none => .source
  let (g, n) := g.addArtifact f (.ofName .generated file) action
  g.linkAggregates [.generated, .all] n

def addUnit (f : FileNames) (g : ArtifactGraph) (entry : QualifiedName × Bool) : ArtifactGraph :=
  let (unit, hasHeader) := entry
  let (g, o) := g.addObject f unit .c
  if hasHeader then
    let (g, h) := g.addSource f (.ofName .header unit)
    g.addEdge o h
  else g

def addFortranUnit (f : FileNames) (g : ArtifactGraph) (unit : QualifiedName) : ArtifactGraph :=
  (g.addObject f unit .fortran).1

def libraryObjects (plan : Plan) (f : FileNames) (library : Library) : List Path :=
  (plan.libraryUnits library).map fun unit => f.path (.ofName .object unit)

def archiveOf (library : Library) : Artifact := ⟨.archive, library.module, library.name⟩

def sharedObjectOf (library : Library) : Artifact := ⟨.sharedObject, library.module, library.name⟩

/-- Adds an artifact that is made of the objects of a library. -/
def addLibraryArtifact (f : FileNames) (objects : List Path) (a : Artifact) (action : Action)
    (g : ArtifactGraph) : ArtifactGraph :=
  let (g, n) := g.addArtifact f a action
  (g.linkPaths n objects).linkAggregates [.libraries, .all] n

def addLibrary (plan : Plan) (f : FileNames) (g : ArtifactGraph) (library : Library) :
    ArtifactGraph :=
  let objects := libraryObjects plan f library
  let g := g.addLibraryArtifact f objects (archiveOf library) (.archive objects)
  if library.shared then
    g.addLibraryArtifact f objects (sharedObjectOf library) (.sharedLink objects)
  else g

/-- Chooses the archives a program is linked with. -/
abbrev LinkPolicy := QualifiedName → Plan → List Artifact

/-- Every program is linked with every archive of the project. -/
def LinkPolicy.everyLibrary : LinkPolicy := fun _ plan => plan.libraries.values.map archiveOf

/-- A program as it is built: its name, its language, and whether it is a test. -/
structure ProgramSpec where
  name : QualifiedName
  lang : Language
  isTest : Bool

/-- The programs of a plan in the order they are added. -/
def programSpecs (plan : Plan) : List ProgramSpec :=
  plan.programs.keys.map (⟨·, .c, false⟩)
    ++ plan.fortranPrograms.keys.map (⟨·, .fortran, false⟩)
    ++ plan.testPrograms.keys.map (⟨·, .c, true⟩)

def addProgram (plan : Plan) (f : FileNames) (policy : LinkPolicy) (g : ArtifactGraph)
    (program : ProgramSpec) : ArtifactGraph :=
  let (g, _) := g.addObject f program.name program.lang
  let objects := [f.path (.ofName .object program.name)]
  let archives := (policy program.name plan).map f.path
  let (g, n) := g.addArtifact f (.ofName .executable program.name)
    (.linkExe program.lang objects archives)
  let g := (g.linkPaths n objects).linkPaths n archives
  g.linkAggregates (if program.isTest then [.testPrograms] else [.programs, .all]) n

/-! ## Rule inputs -/

/-- The project-relative file an input of a module's rule names. -/
def inputPath? (module : ModulePath) (input : String) : Option Path :=
  (module.pathOf input).normalizeInside?

def addRuleInput (file : QualifiedName) (n : NodeId) (g : ArtifactGraph) (input : String) :
    Except PlanError ArtifactGraph :=
  match inputPath? file.module input with
  | none => .error (.inputOutsideProject file.toString input)
  | some path =>
    let (g, m) := g.addFile path
    .ok (g.addEdge n m)

/-- Makes the node at a generated file's path need the inputs of the file's rule. -/
def addRuleInputs (f : FileNames) (g : ArtifactGraph)
    (entry : QualifiedName × Option GeneratedRule) : Except PlanError ArtifactGraph :=
  let (file, rule) := entry
  match rule, g.findPath? (f.path (.ofName .generated file)) with
  | some rule, some n => rule.inputs.foldlM (addRuleInput file n) g
  | _, _ => .ok g

/-! ## Shorthand names -/

/-- A shorthand name that an artifact asks for. -/
structure Shorthand where
  name : String
  target : NodeId
  /-- The path of the artifact with slashes. -/
  full : String

/-- What the artifacts of the graph ask for, in order of creation. -/
def wantedShorthands (g : ArtifactGraph) (f : FileNames) : List Shorthand :=
  g.ids.filterMap fun n =>
    match (g.node n).kind with
    | .artifact a =>
      if a.kind.hasShorthand then some ⟨f.baseName a, n, (f.path a).toSlash⟩ else none
    | _ => none

/-- The shorthand names by name, unless two artifacts ask for one. -/
def collectShorthands :
    SortedMap String Shorthand → List Shorthand → Except PlanError (SortedMap String Shorthand)
  | taken, [] => .ok taken
  | taken, s :: rest =>
    match taken.find? s.name with
    | some other =>
      let (first, second) :=
        if other.full ≤ s.full then (other.full, s.full) else (s.full, other.full)
      .error (.aliasCollision s.name first second)
    | none => collectShorthands (taken.insert s.name s) rest

/-- Whether a shorthand name is hidden by the aggregate of the same name. -/
def Shorthand.isShadowed (s : Shorthand) : Bool := (Aggregate.ofName? s.name).isSome

/-- Whether a shorthand name says anything: one that is its own full path does not. -/
def Shorthand.isUseful (s : Shorthand) : Bool := s.name ≠ s.full

def Shorthand.shadowWarning (s : Shorthand) : Event :=
  .log .warn
    s!"`{s.name}` is shadowed by the aggregate of the same name; build it as `{s.full}`"

/-- A derived graph, or what is wrong, with the warnings given on the way. -/
structure Derivation where
  warnings : List Event
  result : Except PlanError ArtifactGraph

def addShorthands (f : FileNames) (g : ArtifactGraph) : Derivation :=
  match collectShorthands ∅ (g.wantedShorthands f) with
  | .error e => ⟨[], .error e⟩
  | .ok taken =>
    let useful := taken.values.filter (·.isUseful)
    let named := useful.filter (!·.isShadowed)
    ⟨(useful.filter (·.isShadowed)).map (·.shadowWarning),
      .ok (named.foldl (fun g s => g.addShorthand s.name s.target) g)⟩

/-! ## The whole graph -/

/-- The graph of a plan before rule inputs are wired. -/
def ofDeclarations (plan : Plan) (f : FileNames) (policy : LinkPolicy) : ArtifactGraph :=
  let g := plan.generated.entries.foldl (addGenerated f) initial
  let g := plan.units.entries.foldl (addUnit f) g
  let g := plan.fortranUnits.keys.foldl (addFortranUnit f) g
  let g := plan.libraries.values.foldl (addLibrary plan f) g
  (programSpecs plan).foldl (addProgram plan f policy) g

def withInputs (plan : Plan) (f : FileNames) (policy : LinkPolicy) :
    Except PlanError ArtifactGraph :=
  plan.generated.entries.foldlM (addRuleInputs f) (ofDeclarations plan f policy)

def emptyLibraryWarnings (plan : Plan) : List Event :=
  (plan.libraries.values.filter fun l => (plan.libraryUnits l).isEmpty).map fun l =>
    .log .warn s!"library `{l.name}` in module `{l.module}` has no compiled units"

/-- Refuses a graph with a cycle. -/
def checkAcyclic (g : ArtifactGraph) : Except PlanError ArtifactGraph :=
  match g.toposort with
  | .ok _ => .ok g
  | .error n => .error (.dependencyCycle (g.displayName n))

def derive (plan : Plan) (f : FileNames) (policy : LinkPolicy) (mode : BuildMode) : Derivation :=
  let emptyLibraries := emptyLibraryWarnings plan
  match withInputs plan f policy with
  | .error e => ⟨emptyLibraries, .error e⟩
  | .ok g =>
    let named := if mode.hasShorthands then addShorthands f g else ⟨[], .ok g⟩
    ⟨emptyLibraries ++ named.warnings, named.result.bind checkAcyclic⟩

end ModularBuild.ArtifactGraph
