import ModularBuild.Build.Node
import ModularBuild.Graph.Levels
import ModularBuild.Log

/-!
# Executing a target

The levels of a target are worked off from the lowest. Every node gets one outcome; a node that
needs one which failed, or was skipped, is skipped and not run. What ran and what was built is
settled between levels, so the nodes of a level do not see each other. Nodes that run at once find
the files as they were when their level began.
-/

namespace ModularBuild

inductive Outcome where
  | built
  | fresh
  | failed (e : BuildError)
  /-- A node of this name, which it needs, failed. -/
  | skipped (because : String)
deriving DecidableEq, Repr

namespace Outcome

def ofResult : Except BuildError NodeStatus → Outcome
  | .ok .built => .built
  | .ok .fresh => .fresh
  | .error e => .failed e

def error? : Outcome → Option BuildError
  | failed e => some e
  | built | fresh | skipped _ => none

end Outcome

/-- Runs nodes, and tells of what happens, over a state of any type. -/
structure Runner (σ : Type) where
  /-- Brings a node up to date, the list being what this run has built and the state the one in which
  the level began. -/
  run : NodeId → List NodeId → σ → StateM σ (Except BuildError NodeStatus)
  announce : Event → StateM σ Unit

/-- Outcomes in the order they came about. -/
abbrev Outcomes := List (NodeId × Outcome)

namespace Outcomes

def built (os : Outcomes) : List NodeId := (os.filter (·.2 = .built)).map (·.1)

def firstError? (os : Outcomes) : Option BuildError := os.findSome? (·.2.error?)

end Outcomes

/-- How many actions a run performed, and how many outputs were up to date. -/
structure BuildSummary where
  built : Nat
  fresh : Nat
deriving DecidableEq, Repr

namespace ArtifactGraph

/-- The name of the failed node because of which a node is skipped: the first of its dependencies
that failed, or that was skipped itself, decides. -/
def poison? (g : ArtifactGraph) (os : Outcomes) (n : NodeId) : Option String :=
  (g.dependencies n).findSome? fun d =>
    match os.lookup d with
    | some (.failed _) => some (g.displayName d)
    | some (.skipped because) => some because
    | _ => none

def outcomeEvent? (g : ArtifactGraph) : NodeId × Outcome → Option Event
  | (_, .failed e) => some (.log .error e.message)
  | (n, .skipped because) =>
    some (.log .debug (BuildError.dependencyFailed (g.displayName n) because).message)
  | _ => none

/-- The number of built and of fresh outputs. -/
def summarize (g : ArtifactGraph) (os : Outcomes) : BuildSummary where
  built := os.built.length
  fresh := (os.filter fun o => o.2 = .fresh && (g.node o.1).action.producesOutput).length

end ArtifactGraph

namespace Runner

variable {σ : Type}

/-- The outcome of a node, `before` being those of the levels below and `start` the state in which
its own level began. -/
def outcomeOf (r : Runner σ) (g : ArtifactGraph) (before : Outcomes) (start : σ) (n : NodeId) :
    StateM σ (NodeId × Outcome) := do
  match g.poison? before n with
  | some because => return (n, .skipped because)
  | none => return (n, .ofResult (← r.run n before.built start))

def runLevel (r : Runner σ) (g : ArtifactGraph) (before : Outcomes) (level : List NodeId) :
    StateM σ Outcomes := do
  let start ← get
  let outcomes ← level.mapM (r.outcomeOf g before start)
  (outcomes.filterMap g.outcomeEvent?).forM r.announce
  return before ++ outcomes

/-- Works off levels, the lowest first. -/
def runLevels (r : Runner σ) (g : ArtifactGraph) (levels : List (List NodeId)) :
    StateM σ Outcomes :=
  levels.foldlM (r.runLevel g) []

/-- Brings a target and all it needs up to date. The answer is the first failure, if any. -/
def execute (r : Runner σ) (g : ArtifactGraph) (target : NodeId) :
    StateM σ (Except BuildError BuildSummary) := do
  let outcomes ← r.runLevels g (g.levels target)
  match outcomes.firstError? with
  | some e => return .error e
  | none => return .ok (g.summarize outcomes)

end Runner

end ModularBuild
