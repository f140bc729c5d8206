import ModularBuild.Failure
import ModularBuild.Files.System
import ModularBuild.Graph.Basic

/-!
# Bringing a node up to date

A node is fresh if its file is there, nothing it needs was built in this run, and no file it needs
is missing or newer. Otherwise its action is performed; what a failed action may have left is
discarded, so that it is never taken for up to date. What the files are and what an action does is a
workbench's, over a state of any type.
-/

namespace ModularBuild

/-- What came of bringing a node up to date. -/
inductive NodeStatus where
  /-- Its action was performed. -/
  | built
  /-- There was nothing to do. -/
  | fresh
deriving DecidableEq, Repr

/-- What nodes are worked on with; paths are project-relative. -/
structure Workbench (σ : Type) where
  /-- When the file of a path last changed; none if there is none. -/
  modified? : Path → σ → Option Time
  /-- Performs the action of a node with a file of its own. -/
  perform : Node → Path → StateM σ (Except BuildError Unit)
  /-- Removes what a failed action may have left. -/
  discard : Path → StateM σ Unit

namespace Workbench

variable {σ : Type}

/-- Whether a dependency leaves an output of the given time up to date. -/
def isCurrent (b : Workbench σ) (g : ArtifactGraph) (built : List NodeId) (s : σ) (output : Time)
    (d : NodeId) : Bool :=
  !built.contains d &&
    match (g.node d).path with
    | none => true
    | some p =>
      match b.modified? p s with
      | some t => t ≤ output
      | none => false

/-- Whether the file of a node is up to date, `built` being what this run has built. -/
def isFresh (b : Workbench σ) (g : ArtifactGraph) (built : List NodeId) (s : σ) (n : NodeId)
    (p : Path) : Bool :=
  match b.modified? p s with
  | none => false
  | some output => (g.dependencies n).all (b.isCurrent g built s output)

/-- Performs the action of a node, and discards what it left if it fails. -/
def performOrDiscard (b : Workbench σ) (node : Node) (p : Path) :
    StateM σ (Except BuildError NodeStatus) := do
  match ← b.perform node p with
  | .ok () => return .ok .built
  | .error e =>
    b.discard p
    return .error e

/-- Brings a node up to date, which is judged by the state `seen`. -/
def runNodeSeeing (b : Workbench σ) (g : ArtifactGraph) (n : NodeId) (built : List NodeId)
    (seen : σ) : StateM σ (Except BuildError NodeStatus) := do
  let node := g.node n
  match node.path with
  | none => return .ok .fresh
  | some p =>
    if node.action = .source then
      return if (b.modified? p seen).isSome then .ok .fresh else .error (.missingArtifact p)
    else if b.isFresh g built seen n p then return .ok .fresh
    else b.performOrDiscard node p

/-- Brings a node up to date, which is judged by the state at hand. -/
def runNode (b : Workbench σ) (g : ArtifactGraph) (n : NodeId) (built : List NodeId) :
    StateM σ (Except BuildError NodeStatus) := do
  b.runNodeSeeing g n built (← get)

end Workbench

end ModularBuild
