import ModularBuild.Graph.Toposort

/-!
# Levels

What a target needs, itself included, is worked off in levels: a node's level is one more than the
highest level among the nodes it needs directly, so everything it needs lies below it. A level is
listed by display name.
-/

namespace ModularBuild.ArtifactGraph

/-- The nodes that can be reached from a node, itself included. -/
def reachable (g : ArtifactGraph) (root : NodeId) : List NodeId :=
  (Toposort.collectFrom g.dependencies [root] g.ids).1

/-- The level of a node once the levels of the nodes it needs are known. -/
def levelFrom (g : ArtifactGraph) (known : SortedMap NodeId Nat) (n : NodeId) : Nat :=
  ((g.dependencies n).filterMap fun d => (known.find? d).map (· + 1)).foldl max 0

/-- The levels of nodes listed with every node after the nodes it needs. -/
def levelMap (g : ArtifactGraph) (nodes : List NodeId) : SortedMap NodeId Nat :=
  nodes.foldl (fun known n => known.insert n (g.levelFrom known n)) ∅

/-- The nodes a target needs, every node after the nodes it needs itself. -/
def schedule (g : ArtifactGraph) (root : NodeId) : List NodeId :=
  match g.toposort with
  | .error _ => []
  | .ok order =>
    let needed := g.reachable root
    order.reverse.filter (needed.contains ·)

/-- The levels of a target, lowest first. -/
def levels (g : ArtifactGraph) (root : NodeId) : List (List NodeId) :=
  let nodes := g.schedule root
  let levelOf := g.levelMap nodes
  let height := (levelOf.values.map (· + 1)).foldl max 0
  (List.range height).map fun k =>
    (nodes.filter fun n => levelOf.find? n = some k).mergeSort fun a b =>
      g.displayName a ≤ g.displayName b

end ModularBuild.ArtifactGraph
