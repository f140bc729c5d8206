import ModularBuild.Proofs.Graph.Reach
import Mathlib.Data.List.Perm.Basic
import Mathlib.Order.WellFounded

/-!
# An order that is given out is topological

The first search finishes every node once and refuses a node that needs itself. That the finished
list has every node before the nodes it needs is then what the second search checks: where each
component has one node only, nothing listed later can need something listed before it. A graph with
an order is acyclic, and facts about its nodes can be proved by going up from their dependencies.
-/

namespace ModularBuild

namespace Toposort

variable {needs neededBy : NodeId → List NodeId} {nodes stack : List NodeId}

/-! ## The first search -/

/-- A first search over `nodes` that still has `stack` to work off: every node is undiscovered, on
the stack, or finished, and a node that needs itself is not discovered. -/
structure Covers (needs : NodeId → List NodeId) (nodes stack : List NodeId) (s : Search) :
    Prop where
  undiscovered_mem : ∀ n ∈ s.undiscovered, n ∈ nodes
  nodup_undiscovered : s.undiscovered.Nodup
  finished_mem : ∀ n ∈ s.finished, n ∈ nodes
  nodup_finished : s.finished.Nodup
  stack_mem : ∀ n ∈ stack, n ∈ nodes
  covered : ∀ n ∈ nodes, n ∈ s.undiscovered ∨ n ∈ s.finished ∨ n ∈ stack
  no_loop : ∀ n ∈ nodes, n ∉ s.undiscovered → n ∉ needs n

theorem covers_start (h : nodes.Nodup) : Covers needs nodes [] { undiscovered := nodes } where
  undiscovered_mem _ hn := hn
  nodup_undiscovered := h
  finished_mem _ hn := by cases hn
  nodup_finished := List.nodup_nil
  stack_mem _ hn := by cases hn
  covered _ hn := .inl hn
  no_loop _ hn hn' := absurd hn hn'

theorem Covers.push {s : Search} (h : Covers needs nodes [] s) {n : NodeId}
    (hn : n ∈ s.undiscovered) : Covers needs nodes [n] s where
  undiscovered_mem := h.undiscovered_mem
  nodup_undiscovered := h.nodup_undiscovered
  finished_mem := h.finished_mem
  nodup_finished := h.nodup_finished
  stack_mem x hx := by
    rw [List.mem_singleton] at hx
    exact hx ▸ h.undiscovered_mem n hn
  covered x hx := (h.covered x hx).imp_right fun hx => hx.imp_right fun hx => by cases hx
  no_loop := h.no_loop

theorem Covers.discover {s : Search} {n : NodeId} {rest : List NodeId}
    (h : Covers needs nodes (n :: rest) s) (hloop : n ∉ needs n) :
    Covers needs nodes
      (((needs n).filter (· ∈ s.undiscovered.erase n)).reverse ++ n :: rest)
      { s with undiscovered := s.undiscovered.erase n } where
  undiscovered_mem x hx := h.undiscovered_mem x (List.mem_of_mem_erase hx)
  nodup_undiscovered := h.nodup_undiscovered.erase n
  finished_mem := h.finished_mem
  nodup_finished := h.nodup_finished
  stack_mem x hx := by
    rcases List.mem_append.mp hx with hx | hx
    · have hx := (List.mem_filter.mp (List.mem_reverse.mp hx)).2
      exact h.undiscovered_mem x (List.mem_of_mem_erase (by simpa using hx))
    · exact h.stack_mem x hx
  covered x hx := by
    by_cases hxn : x = n
    · exact .inr (.inr (List.mem_append_right _ (hxn ▸ List.mem_cons_self)))
    · rcases h.covered x hx with hx | hx | hx
      · exact .inl ((List.mem_erase_of_ne hxn).mpr hx)
      · exact .inr (.inl hx)
      · exact .inr (.inr (List.mem_append_right _ hx))
  no_loop x hx hx' := by
    by_cases hxn : x = n
    · exact hxn ▸ hloop
    · exact h.no_loop x hx fun hmem => hx' ((List.mem_erase_of_ne hxn).mpr hmem)

theorem Covers.pop {s : Search} {n : NodeId} {rest : List NodeId}
    (h : Covers needs nodes (n :: rest) s) (hn : n ∈ s.finished) : Covers needs nodes rest s where
  undiscovered_mem := h.undiscovered_mem
  nodup_undiscovered := h.nodup_undiscovered
  finished_mem := h.finished_mem
  nodup_finished := h.nodup_finished
  stack_mem x hx := h.stack_mem x (List.mem_cons_of_mem _ hx)
  covered x hx := by
    rcases h.covered x hx with hx | hx | hx
    · exact .inl hx
    · exact .inr (.inl hx)
    · rcases List.mem_cons.mp hx with rfl | hx
      · exact .inr (.inl hn)
      · exact .inr (.inr hx)
  no_loop := h.no_loop

theorem Covers.finish {s : Search} {n : NodeId} {rest : List NodeId}
    (h : Covers needs nodes (n :: rest) s) (hn : n ∉ s.finished) :
    Covers needs nodes rest { s with finished := n :: s.finished } where
  undiscovered_mem := h.undiscovered_mem
  nodup_undiscovered := h.nodup_undiscovered
  finished_mem x hx := by
    rcases List.mem_cons.mp hx with rfl | hx
    · exact h.stack_mem x List.mem_cons_self
    · exact h.finished_mem x hx
  nodup_finished := List.nodup_cons.mpr ⟨hn, h.nodup_finished⟩
  stack_mem x hx := h.stack_mem x (List.mem_cons_of_mem _ hx)
  covered x hx := by
    rcases h.covered x hx with hx | hx | hx
    · exact .inl hx
    · exact .inr (.inl (List.mem_cons_of_mem _ hx))
    · rcases List.mem_cons.mp hx with rfl | hx
      · exact .inr (.inl List.mem_cons_self)
      · exact .inr (.inr hx)
  no_loop := h.no_loop

theorem covers_finishFrom {s s' : Search} (hs : finishFrom needs stack s = .ok s')
    (h : Covers needs nodes stack s) :
    Covers needs nodes [] s' ∧ ∀ n ∈ s'.undiscovered, n ∈ s.undiscovered ∧ n ∉ stack := by
  fun_induction finishFrom needs stack s with
  | case1 s =>
    cases hs
    exact ⟨h, fun n hn => ⟨hn, by simp⟩⟩
  | case2 s n rest hn hloop => cases hs
  | case3 s n rest hn hloop undiscovered pushed ih =>
    obtain ⟨hcovers, hsub⟩ := ih hs (h.discover hloop)
    refine ⟨hcovers, fun x hx => ?_⟩
    obtain ⟨hx, hstack⟩ := hsub x hx
    exact ⟨List.mem_of_mem_erase hx, fun hmem => hstack (List.mem_append_right _ hmem)⟩
  | case4 s n rest hn hfin ih =>
    obtain ⟨hcovers, hsub⟩ := ih hs (h.pop hfin)
    refine ⟨hcovers, fun x hx => ?_⟩
    obtain ⟨hx, hstack⟩ := hsub x hx
    exact ⟨hx, fun hmem => (List.mem_cons.mp hmem).elim (fun e => hn (e ▸ hx)) hstack⟩
  | case5 s n rest hn hfin ih =>
    obtain ⟨hcovers, hsub⟩ := ih hs (h.finish hfin)
    refine ⟨hcovers, fun x hx => ?_⟩
    obtain ⟨hx, hstack⟩ := hsub x hx
    exact ⟨hx, fun hmem => (List.mem_cons.mp hmem).elim (fun e => hn (e ▸ hx)) hstack⟩

theorem covers_finishEach {l : List NodeId} {s s' : Search}
    (hs : l.foldlM (fun s n => if n ∈ s.undiscovered then finishFrom needs [n] s else .ok s) s =
      .ok s') (h : Covers needs nodes [] s) :
    Covers needs nodes [] s' ∧ ∀ n ∈ s'.undiscovered, n ∈ s.undiscovered ∧ n ∉ l := by
  induction l generalizing s with
  | nil =>
    cases hs
    exact ⟨h, fun n hn => ⟨hn, by simp⟩⟩
  | cons m l ih =>
    rw [List.foldlM_cons] at hs
    by_cases hm : m ∈ s.undiscovered
    · rw [if_pos hm] at hs
      cases hfrom : finishFrom needs [m] s with
      | error e => rw [hfrom] at hs; cases hs
      | ok s₁ =>
        rw [hfrom] at hs
        obtain ⟨hcovers, hsub⟩ := covers_finishFrom hfrom (h.push hm)
        obtain ⟨hcovers', hsub'⟩ := ih hs hcovers
        refine ⟨hcovers', fun n hn => ?_⟩
        obtain ⟨hn, hnl⟩ := hsub' n hn
        obtain ⟨hn, hnm⟩ := hsub n hn
        exact ⟨hn, fun hmem => (List.mem_cons.mp hmem).elim
          (fun e => hnm (List.mem_singleton.mpr e)) hnl⟩
    · rw [if_neg hm] at hs
      obtain ⟨hcovers, hsub⟩ := ih hs h
      refine ⟨hcovers, fun n hn => ?_⟩
      obtain ⟨hn, hnl⟩ := hsub n hn
      exact ⟨hn, fun hmem => (List.mem_cons.mp hmem).elim (fun e => hm (e ▸ hn)) hnl⟩

/-- The first search finishes every node once, and no node needs itself. -/
theorem finishAll_spec {s : Search} (hnodes : nodes.Nodup) (hs : finishAll needs nodes = .ok s) :
    s.finished.Perm nodes ∧ ∀ n ∈ nodes, n ∉ needs n := by
  obtain ⟨h, hsub⟩ := covers_finishEach hs (covers_start hnodes)
  have hnone : ∀ n, n ∉ s.undiscovered := fun n hn =>
    (hsub n hn).2 (h.undiscovered_mem n hn)
  refine ⟨(List.perm_ext_iff_of_nodup h.nodup_finished hnodes).mpr fun n => ⟨h.finished_mem n, ?_⟩,
    fun n hn => h.no_loop n hn (hnone n)⟩
  intro hn
  rcases h.covered n hn with hn | hn | hn
  · exact absurd hn (hnone n)
  · exact hn
  · cases hn

/-! ## The second search -/

theorem not_mem_neighbours_of_visits_one {undiscovered : List NodeId} {n b : NodeId}
    (hvisited : (collectFrom neededBy [n] undiscovered).1 = [n]) (hb : b ∈ undiscovered)
    (hbn : b ≠ n) : b ∉ neededBy n := by
  intro hmem
  have hn : n ∈ (collectFrom neededBy [n] undiscovered).1 := by simp [hvisited]
  have hb := mem_visited_of_neighbour hn hmem hb
  rw [hvisited, List.mem_singleton] at hb
  exact hbn hb

theorem pairwise_of_secondInComponent? {order undiscovered : List NodeId} (horder : order.Nodup)
    (hnodup : undiscovered.Nodup) (hmem : ∀ n, n ∈ undiscovered ↔ n ∈ order)
    (h : secondInComponent? neededBy undiscovered order = none) :
    order.Pairwise fun a b => b ∉ neededBy a := by
  induction order generalizing undiscovered with
  | nil => exact .nil
  | cons n rest ih =>
    obtain ⟨hn, hrest⟩ := List.nodup_cons.mp horder
    rw [secondInComponent?] at h
    have hvisit : n ∈ (collectFrom neededBy [n] undiscovered).1 :=
      mem_visited_of_stack List.mem_cons_self ((hmem n).mpr List.mem_cons_self)
    have hleft : ∀ x, x ∈ (collectFrom neededBy [n] undiscovered).2 ↔
        x ∈ undiscovered ∧ x ∉ (collectFrom neededBy [n] undiscovered).1 :=
      fun _ => mem_left_iff hnodup
    have hleftNodup : (collectFrom neededBy [n] undiscovered).2.Nodup := nodup_left hnodup
    have hone : ∀ b, (collectFrom neededBy [n] undiscovered).1 = [n] → b ∈ undiscovered → b ≠ n →
        b ∉ neededBy n :=
      fun _ => not_mem_neighbours_of_visits_one
    generalize hcollect : collectFrom neededBy [n] undiscovered = searched at *
    obtain ⟨visited, left⟩ := searched
    match visited, h with
    | [], _ => cases hvisit
    | _ :: _ :: _, h => cases h
    | [m], h =>
      -- The component is the node alone, and the search goes on without it.
      rw [List.mem_singleton] at hvisit
      subst hvisit
      refine List.pairwise_cons.mpr ⟨fun b hb => ?_, ih hrest hleftNodup (fun x => ?_) h⟩
      · exact hone b rfl ((hmem b).mpr (List.mem_cons_of_mem _ hb)) fun e => hn (e ▸ hb)
      · rw [hleft x, hmem x, List.mem_singleton]
        exact ⟨fun ⟨hx, hxn⟩ => (List.mem_cons.mp hx).resolve_left hxn,
          fun hx => ⟨List.mem_cons_of_mem _ hx, fun e => hn (e ▸ hx)⟩⟩

/-- An order lists every node once, and nothing listed later needs anything listed before it; nor
does a node need itself. -/
theorem order_spec {result : List NodeId} (hnodes : nodes.Nodup)
    (h : order needs neededBy nodes = .ok result) :
    result.Perm nodes ∧ (result.Pairwise fun a b => b ∉ neededBy a) ∧ ∀ n ∈ nodes, n ∉ needs n := by
  unfold order at h
  cases hfinish : finishAll needs nodes with
  | error e => rw [hfinish] at h; cases h
  | ok s =>
    rw [hfinish] at h
    obtain ⟨hperm, hloop⟩ := finishAll_spec hnodes hfinish
    dsimp only [bind, Except.bind] at h
    cases hsecond : secondInComponent? neededBy nodes s.finished with
    | some n => rw [hsecond] at h; cases h
    | none =>
      rw [hsecond] at h
      cases h
      exact ⟨hperm, pairwise_of_secondInComponent? (hperm.nodup_iff.mpr hnodes) hnodes
        (fun n => (hperm.mem_iff (a := n)).symm) hsecond, hloop⟩

end Toposort

namespace ArtifactGraph

variable {g : ArtifactGraph}

/-! ## The order of a graph -/

/-- The order of a graph lists its nodes once each, every node before the nodes it needs. -/
theorem toposort_spec {order : List NodeId} (h : g.toposort = .ok order) :
    order.Perm g.ids ∧ (order.Pairwise fun a b => ¬ g.Needs b a) ∧
      ∀ n < g.nodes.size, ¬ g.Needs n n := by
  obtain ⟨hperm, hpair, hloop⟩ := Toposort.order_spec g.nodup_ids h
  refine ⟨hperm, hpair.imp fun hab hneeds => hab ?_, fun n hn => hloop n (mem_ids.mpr hn)⟩
  exact mem_dependents.mpr (mem_dependencies.mp hneeds)

/-- Edges stay within the graph, and an order of its nodes exists. -/
structure Ordered (g : ArtifactGraph) : Prop where
  within : g.EdgesWithin
  order : ∃ order, g.toposort = .ok order

theorem Ordered.wellFounded (h : g.Ordered) : WellFounded fun d n => g.Needs n d := by
  obtain ⟨order, horder⟩ := h.order
  obtain ⟨hperm, hpair, -⟩ := toposort_spec horder
  -- Going to a dependency moves towards the end of the order.
  have hlater : ∀ n d, g.Needs n d → order.idxOf n < order.idxOf d := by
    intro n d hneeds
    have hn : n ∈ order := hperm.mem_iff.mpr (mem_ids.mpr (h.within _ _ hneeds).1)
    have hd : d ∈ order := hperm.mem_iff.mpr (mem_ids.mpr (h.within _ _ hneeds).2)
    -- Otherwise the dependency is listed first, but nothing needs what is listed before it.
    by_contra hle
    have hloop := (toposort_spec horder).2.2 n (h.within _ _ hneeds).1
    have hne : order.idxOf d ≠ order.idxOf n := fun e =>
      hloop ((List.idxOf_inj hd).mp e ▸ hneeds)
    have hlt : order.idxOf d < order.idxOf n := by omega
    have hnot := List.pairwise_iff_getElem.mp hpair _ _ (List.idxOf_lt_length_iff.mpr hd)
      (List.idxOf_lt_length_iff.mpr hn) hlt
    rw [List.getElem_idxOf, List.getElem_idxOf] at hnot
    exact hnot hneeds
  refine Subrelation.wf (fun {d n} hneeds => ?_)
    (measure fun n => order.length - order.idxOf n).wf
  show order.length - order.idxOf d < order.length - order.idxOf n
  have hd : d ∈ order := hperm.mem_iff.mpr (mem_ids.mpr (h.within _ _ hneeds).2)
  have := hlater n d hneeds
  have := List.idxOf_lt_length_iff.mpr hd
  omega

/-- What holds of a node whenever it holds of the nodes it needs holds of every node. -/
theorem Ordered.induction (h : g.Ordered) {P : NodeId → Prop}
    (step : ∀ n, (∀ d, g.Needs n d → P d) → P n) (n : NodeId) : P n :=
  h.wellFounded.induction n step

theorem Ordered.not_reachesStrictly_self (h : g.Ordered) (n : NodeId) :
    ¬ g.ReachesStrictly n n := by
  intro hcycle
  have hswap : Relation.TransGen (fun d n => g.Needs n d) n n := Relation.transGen_swap.mpr hcycle
  exact h.wellFounded.transGen.irrefl.irrefl n hswap

end ArtifactGraph

end ModularBuild
