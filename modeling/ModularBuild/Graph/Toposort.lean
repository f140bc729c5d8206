import ModularBuild.Graph.Basic

/-!
# Topological order

A depth-first search with an explicit stack lists the nodes of a graph in the order they are
finished; if there is no cycle, the reversed list has every node before the nodes it needs. A second
search over the reversed edges, from the last finished node to the first, visits one strongly
connected component at a time, and the graph has a cycle if a node needs itself or a component has
two nodes. Both searches keep the list of nodes not yet discovered, which is what bounds them.
-/

namespace ModularBuild.Toposort

/-- A state of the first search: the nodes not yet discovered, and the finished ones, newest
first. -/
structure Search where
  undiscovered : List NodeId
  finished : List NodeId := []

/-- Works off the stack. The node on top is discovered, and what it needs is pushed, or, once
discovered, it is popped and finished. The answer is a node that needs itself if one is met. -/
def finishFrom (needs : NodeId → List NodeId) (stack : List NodeId) (s : Search) :
    Except NodeId Search :=
  match stack with
  | [] => .ok s
  | n :: rest =>
    if n ∈ s.undiscovered then
      if n ∈ needs n then .error n
      else
        let undiscovered := s.undiscovered.erase n
        let pushed := (needs n).filter (· ∈ undiscovered)
        finishFrom needs (pushed.reverse ++ n :: rest) { s with undiscovered }
    else if n ∈ s.finished then finishFrom needs rest s
    else finishFrom needs rest { s with finished := n :: s.finished }
termination_by (s.undiscovered.length, stack.length)
decreasing_by
  · exact Prod.Lex.left _ _ (by
      rw [List.length_erase_of_mem ‹_›]
      have := List.length_pos_of_mem ‹n ∈ s.undiscovered›
      omega)
  · exact Prod.Lex.right _ (by simp)
  · exact Prod.Lex.right _ (by simp)

/-- Finishes every node, beginning each search at the lowest that is not yet discovered. -/
def finishAll (needs : NodeId → List NodeId) (nodes : List NodeId) : Except NodeId Search :=
  nodes.foldlM (fun s n => if n ∈ s.undiscovered then finishFrom needs [n] s else .ok s)
    { undiscovered := nodes }

/-- Visits what is undiscovered and reachable from the stack, in the order it is popped. -/
def collectFrom (neighbours : NodeId → List NodeId) (stack : List NodeId)
    (undiscovered : List NodeId) : List NodeId × List NodeId :=
  match stack with
  | [] => ([], undiscovered)
  | n :: rest =>
    if n ∈ undiscovered then
      let undiscovered' := undiscovered.erase n
      let pushed := (neighbours n).filter (· ∈ undiscovered')
      let (visited, left) := collectFrom neighbours (pushed.reverse ++ rest) undiscovered'
      (n :: visited, left)
    else collectFrom neighbours rest undiscovered
termination_by (undiscovered.length, stack.length)
decreasing_by
  · exact Prod.Lex.left _ _ (by
      rw [List.length_erase_of_mem ‹_›]
      have := List.length_pos_of_mem ‹n ∈ undiscovered›
      omega)
  · exact Prod.Lex.right _ (by simp)

/-- The second node of the first component that has two. -/
def secondInComponent? (neededBy : NodeId → List NodeId) (undiscovered : List NodeId) :
    List NodeId → Option NodeId
  | [] => none
  | n :: rest =>
    match collectFrom neededBy [n] undiscovered with
    | (_ :: second :: _, _) => some second
    | (_, left) => secondInComponent? neededBy left rest

/-- The nodes with every node before those it needs, or a node that lies on a cycle. -/
def order (needs neededBy : NodeId → List NodeId) (nodes : List NodeId) :
    Except NodeId (List NodeId) := do
  let s ← finishAll needs nodes
  match secondInComponent? neededBy nodes s.finished with
  | some n => .error n
  | none => .ok s.finished

end ModularBuild.Toposort

namespace ModularBuild.ArtifactGraph

/-- The nodes of the graph, dependents first. -/
def toposort (g : ArtifactGraph) : Except NodeId (List NodeId) :=
  Toposort.order g.dependencies g.dependents g.ids

end ModularBuild.ArtifactGraph
