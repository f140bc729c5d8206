import ModularBuild.Artifact
import ModularBuild.SortedMap

/-!
# The artifact graph

Nodes are artifacts, files that rules read, named aggregates and shorthand names; an edge from `a`
to `b` says that `a` needs `b`. Each node carries the action that brings it up to date. Nodes are
numbered in the order they were added, and `byPath` leads from a path, in any spelling, to the
newest node that carries it.
-/

namespace ModularBuild

/-- Named targets that group others. -/
inductive Aggregate where
  | all
  | libraries
  | programs
  | testPrograms
  | generated
deriving DecidableEq, Repr

namespace Aggregate

/-- Every aggregate, in the order their nodes are created. -/
def list : List Aggregate := [all, libraries, programs, testPrograms, generated]

def name : Aggregate → String
  | all => "all"
  | libraries => "libraries"
  | programs => "programs"
  | testPrograms => "programs-test"
  | generated => "generated"

def ofName? (name : String) : Option Aggregate := list.find? (·.name = name)

end Aggregate

inductive NodeKind where
  | artifact (artifact : Artifact)
  | aggregate (aggregate : Aggregate)
  /-- A shorthand name of one artifact. -/
  | shorthand (name : String)
  /-- A file that a rule reads and that is no declared artifact. -/
  | file (path : Path)
deriving DecidableEq, Repr, Inhabited

/-- How a node is brought up to date. -/
inductive Action where
  /-- Nothing is run; the file has to be there. -/
  | source
  | compile (lang : Language) (source : Path)
  | archive (objects : List Path)
  | sharedLink (objects : List Path)
  | linkExe (lang : Language) (objects archives : List Path)
  /-- A command of the project, run in a directory. -/
  | generate (command : List String) (cwd : Path)
  /-- Nothing is run and there is no file. -/
  | phony
deriving DecidableEq, Repr, Inhabited

/-- Whether the action writes the node's file. -/
def Action.producesOutput : Action → Bool
  | source | phony => false
  | compile _ _ | archive _ | sharedLink _ | linkExe _ _ _ | generate _ _ => true

structure Node where
  kind : NodeKind
  /-- The project-relative file; aggregates and shorthand names have none. -/
  path : Option Path
  action : Action
deriving DecidableEq, Repr, Inhabited

namespace Node

def phony (kind : NodeKind) : Node := ⟨kind, none, .phony⟩

def displayName (n : Node) : String :=
  match n.kind, n.path with
  | .aggregate a, _ => a.name
  | .shorthand name, _ => name
  | _, some path => path.toSlash
  | .artifact a, none => a.toString
  | .file path, none => path.toSlash

end Node

/-- Nodes go by their number, counted from zero in order of creation. -/
abbrev NodeId := Nat

structure ArtifactGraph where
  nodes : Array Node := #[]
  /-- The edges, newest first. -/
  edges : List (NodeId × NodeId) := []
  byPath : SortedMap Path NodeId := ∅
  shorthands : SortedMap String NodeId := ∅
deriving Inhabited

namespace ArtifactGraph

/-! ## Reading -/

def node (g : ArtifactGraph) (n : NodeId) : Node := g.nodes[n]?.getD default

def displayName (g : ArtifactGraph) (n : NodeId) : String := (g.node n).displayName

/-- What a node needs directly, the newest edge first. -/
def dependencies (g : ArtifactGraph) (n : NodeId) : List NodeId :=
  g.edges.filterMap fun (dependent, dependency) => if dependent = n then some dependency else none

/-- What needs a node directly, the newest edge first. -/
def dependents (g : ArtifactGraph) (n : NodeId) : List NodeId :=
  g.edges.filterMap fun (dependent, dependency) => if dependency = n then some dependent else none

def hasEdge (g : ArtifactGraph) (a b : NodeId) : Bool := g.edges.contains (a, b)

/-- The numbers of all nodes, ascending. -/
def ids (g : ArtifactGraph) : List NodeId := List.range g.nodes.size

/-! ## Growing -/

/-- Adds a node; its path, if it has one, leads to it from now on. -/
def addNode (g : ArtifactGraph) (node : Node) : ArtifactGraph × NodeId :=
  let n := g.nodes.size
  let byPath :=
    match node.path with
    | some path => g.byPath.insert path n
    | none => g.byPath
  ({ g with nodes := g.nodes.push node, byPath }, n)

/-- Adds an edge, unless it is there. -/
def addEdge (g : ArtifactGraph) (a b : NodeId) : ArtifactGraph :=
  if g.hasEdge a b then g else { g with edges := (a, b) :: g.edges }

def addShorthand (g : ArtifactGraph) (name : String) (target : NodeId) : ArtifactGraph :=
  let (g, n) := g.addNode (.phony (.shorthand name))
  let g := g.addEdge n target
  { g with shorthands := g.shorthands.insert name n }

/-- The graph of the aggregates alone. -/
def initial : ArtifactGraph :=
  { nodes := (Aggregate.list.map fun a => Node.phony (.aggregate a)).toArray }

def aggregate : Aggregate → NodeId
  | .all => 0
  | .libraries => 1
  | .programs => 2
  | .testPrograms => 3
  | .generated => 4

theorem node_initial_aggregate (a : Aggregate) :
    initial.node (aggregate a) = .phony (.aggregate a) := by
  cases a <;> rfl

/-! ## Looking up targets -/

/-- The node of a path, in any spelling. -/
def findPath? (g : ArtifactGraph) (path : Path) : Option NodeId := g.byPath.find? path

/-- The path a target name stands for: backslashes are slashes, and leading `./` say nothing. -/
def targetPath (name : String) : Path := ⟨String.ofList (dropDotSlash (slashed name).toList)⟩

/-- A target by the name of an aggregate, a shorthand name, or a project-relative path. -/
def find? (g : ArtifactGraph) (name : String) : Option NodeId :=
  match Aggregate.ofName? name with
  | some a => some (aggregate a)
  | none =>
    match g.shorthands.find? name with
    | some n => some n
    | none => g.findPath? (targetPath name)

/-- Whether one target needs another directly. -/
def dependsOn (g : ArtifactGraph) (a b : String) : Bool :=
  match g.find? a, g.find? b with
  | some a, some b => g.hasEdge a b
  | _, _ => false

def shorthandTarget? (g : ArtifactGraph) (name : String) : Option NodeId :=
  (g.shorthands.find? name).bind fun n => (g.dependencies n).head?

/-! ## Outputs -/

/-- The nodes whose actions write a file. -/
def producers (g : ArtifactGraph) : List Node :=
  g.nodes.toList.filter fun n => n.action.producesOutput && n.path.isSome

/-- The files the build writes, in path order. -/
def outputs (g : ArtifactGraph) : List Path :=
  (g.producers.filterMap (·.path)).mergeSort fun a b => (compare a b).isLE

end ArtifactGraph

end ModularBuild
