import ModularBuild.Graph.Levels
import Mathlib.Data.List.Nodup
import Mathlib.Logic.Relation

/-!
# What a search reaches

`Needs` is the edge relation of a graph, and `Reaches` its reflexive and transitive closure. A
search visits nothing twice, visits what it starts from, stops at nothing it could still go to
(`mem_visited_of_neighbour`), and visits only what can be reached; so `reachable` is exactly
`Reaches` in a graph whose edges stay within it (`mem_reachable_iff`).
-/

namespace ModularBuild

namespace Toposort

variable {neighbours : NodeId → List NodeId} {stack undiscovered : List NodeId}

/-! ## One search -/

theorem mem_left_iff (h : undiscovered.Nodup) {x : NodeId} :
    x ∈ (collectFrom neighbours stack undiscovered).2 ↔
      x ∈ undiscovered ∧ x ∉ (collectFrom neighbours stack undiscovered).1 := by
  fun_induction collectFrom neighbours stack undiscovered with
  | case1 => simp
  | case2 undiscovered n rest hn undiscovered' pushed visited left hrest =>
    rename_i ih
    rw [hrest] at ih
    simp only at ih ⊢
    rw [ih (h.erase n), h.mem_erase_iff, List.mem_cons, not_or]
    tauto
  | case3 undiscovered n rest hn ih => exact ih h

theorem nodup_left (h : undiscovered.Nodup) :
    (collectFrom neighbours stack undiscovered).2.Nodup := by
  fun_induction collectFrom neighbours stack undiscovered with
  | case1 => exact h
  | case2 undiscovered n rest hn undiscovered' pushed visited left hrest =>
    rename_i ih
    rw [hrest] at ih
    exact ih (h.erase n)
  | case3 undiscovered n rest hn ih => exact ih h

theorem mem_visited_of_stack {x : NodeId} (hs : x ∈ stack) (hx : x ∈ undiscovered) :
    x ∈ (collectFrom neighbours stack undiscovered).1 := by
  fun_induction collectFrom neighbours stack undiscovered with
  | case1 => cases hs
  | case2 undiscovered n rest hn undiscovered' pushed visited left hrest =>
    rename_i ih
    rw [hrest] at ih
    by_cases hxn : x = n
    · exact hxn ▸ List.mem_cons_self
    · have hxs : x ∈ rest := (List.mem_cons.mp hs).resolve_left hxn
      exact List.mem_cons_of_mem _
        (ih (List.mem_append_right _ hxs) ((List.mem_erase_of_ne hxn).mpr hx))
  | case3 undiscovered n rest hn ih =>
    rcases List.mem_cons.mp hs with rfl | hs
    · exact absurd hx hn
    · exact ih hs hx

/-- A search does not stop at a node it could still go to. -/
theorem mem_visited_of_neighbour {v w : NodeId}
    (hv : v ∈ (collectFrom neighbours stack undiscovered).1) (hvw : w ∈ neighbours v)
    (hw : w ∈ undiscovered) : w ∈ (collectFrom neighbours stack undiscovered).1 := by
  fun_induction collectFrom neighbours stack undiscovered with
  | case1 => cases hv
  | case2 undiscovered n rest hn undiscovered' pushed visited left hrest =>
    rename_i ih
    have hstack : w ∈ pushed.reverse ++ rest → w ∈ undiscovered' →
        w ∈ (collectFrom neighbours (pushed.reverse ++ rest) undiscovered').1 :=
      mem_visited_of_stack
    rw [hrest] at ih hstack
    by_cases hwn : w = n
    · exact hwn ▸ List.mem_cons_self
    · have hw' : w ∈ undiscovered' := (List.mem_erase_of_ne hwn).mpr hw
      -- A neighbour of the node on top is pushed; of a later node, the search goes on to it.
      rcases List.mem_cons.mp hv with rfl | hv
      · refine List.mem_cons_of_mem _ (hstack (List.mem_append_left _ ?_) hw')
        exact List.mem_reverse.mpr (List.mem_filter.mpr ⟨hvw, by simpa using hw'⟩)
      · exact List.mem_cons_of_mem _ (ih hv hw')
  | case3 undiscovered n rest hn ih => exact ih hv hw

theorem reaches_of_mem_visited {v : NodeId}
    (hv : v ∈ (collectFrom neighbours stack undiscovered).1) :
    ∃ s ∈ stack, Relation.ReflTransGen (fun a b => b ∈ neighbours a) s v := by
  fun_induction collectFrom neighbours stack undiscovered with
  | case1 => cases hv
  | case2 undiscovered n rest hn undiscovered' pushed visited left hrest =>
    rename_i ih
    rw [hrest] at ih
    rcases List.mem_cons.mp hv with rfl | hv
    · exact ⟨v, List.mem_cons_self, .refl⟩
    · obtain ⟨s, hs, hsv⟩ := ih hv
      rcases List.mem_append.mp hs with hs | hs
      · have hns : s ∈ neighbours n := (List.mem_filter.mp (List.mem_reverse.mp hs)).1
        exact ⟨n, List.mem_cons_self, .head hns hsv⟩
      · exact ⟨s, List.mem_cons_of_mem _ hs, hsv⟩
  | case3 undiscovered n rest hn ih =>
    obtain ⟨s, hs, hsv⟩ := ih hv
    exact ⟨s, List.mem_cons_of_mem _ hs, hsv⟩

end Toposort

namespace ArtifactGraph

variable {g : ArtifactGraph} {a b n root : NodeId}

/-! ## The edge relation -/

/-- One node needs another directly. -/
def Needs (g : ArtifactGraph) (a b : NodeId) : Prop := b ∈ g.dependencies a

/-- One node needs another directly, through others, or is the other. -/
def Reaches (g : ArtifactGraph) : NodeId → NodeId → Prop := Relation.ReflTransGen g.Needs

/-- One node needs another directly or through others. -/
def ReachesStrictly (g : ArtifactGraph) : NodeId → NodeId → Prop := Relation.TransGen g.Needs

theorem mem_dependencies : b ∈ g.dependencies a ↔ (a, b) ∈ g.edges := by
  simp [dependencies]

theorem mem_dependents : a ∈ g.dependents b ↔ (a, b) ∈ g.edges := by
  simp [dependents]

theorem mem_ids : n ∈ g.ids ↔ n < g.nodes.size := by
  simp [ids]

theorem nodup_ids (g : ArtifactGraph) : g.ids.Nodup := List.nodup_range

/-- Every edge leads from a node of the graph to a node of the graph. -/
def EdgesWithin (g : ArtifactGraph) : Prop :=
  ∀ a b, g.Needs a b → a < g.nodes.size ∧ b < g.nodes.size

theorem Reaches.lt_size (hg : g.EdgesWithin) (h : g.Reaches root n) (hroot : root < g.nodes.size) :
    n < g.nodes.size := by
  induction h with
  | refl => exact hroot
  | tail _ hbc _ => exact (hg _ _ hbc).2

/-! ## The nodes a target reaches -/

/-- The search from a node finds exactly what the node reaches. -/
theorem mem_reachable_iff (hg : g.EdgesWithin) (hroot : root < g.nodes.size) :
    n ∈ g.reachable root ↔ g.Reaches root n := by
  constructor
  · intro h
    obtain ⟨s, hs, hsn⟩ := Toposort.reaches_of_mem_visited h
    rw [List.mem_singleton] at hs
    exact hs ▸ hsn
  · intro h
    induction h with
    | refl =>
      exact Toposort.mem_visited_of_stack List.mem_cons_self (mem_ids.mpr hroot)
    | tail _ hbc ih =>
      exact Toposort.mem_visited_of_neighbour ih hbc (mem_ids.mpr (hg _ _ hbc).2)

end ArtifactGraph

end ModularBuild
