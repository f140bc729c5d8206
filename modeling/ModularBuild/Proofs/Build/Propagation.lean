import ModularBuild.Proofs.Build.Presence

/-!
# Rebuilds propagate upward

A node of which a dependency was built in this run is never fresh, whatever the times of the files
are. What a level has built is known before the next level begins, and everything that a node needs
is in a level below; so where an execution succeeds, all outputs that depend on one that was built,
directly or through other outputs, were built as well (`rebuilds_propagate`).
-/

namespace ModularBuild

namespace ArtifactGraph

def OutputNeeds (g : ArtifactGraph) (n d : NodeId) : Prop :=
  (g.node n).action.producesOutput ∧ g.Needs n d

end ArtifactGraph

namespace Workbench

open ArtifactGraph

variable {σ : Type} {b : Workbench σ} {announce : Event → StateM σ Unit} {g : ArtifactGraph}
  {n d target : NodeId} {before done : Outcomes} {s seen t t' : σ}

theorem built_of_runsTo (hg : g.WellFormed) (hn : n < g.nodes.size) (hneeds : g.OutputNeeds n d)
    {built : List NodeId} (hd : d ∈ built) {status : NodeStatus}
    (hrun : b.RunsTo g n built seen t (.ok status) t') : status = .built := by
  obtain ⟨hproduces, hneeds⟩ := hneeds
  cases hrun with
  | phony hpath =>
    rw [(hg.fits n hn).mp hpath] at hproduces
    cases hproduces
  | there hpath hsource _ =>
    rw [hsource] at hproduces
    cases hproduces
  | fresh hpath hsource hfresh =>
    obtain ⟨time, -, hcurrent⟩ := isFresh_iff.mp hfresh
    exact absurd hd (hcurrent d hneeds).1
  | made => rfl

/-- What is needed has its outcome first, and an output that needs a built node is built. -/
def Propagated (g : ArtifactGraph) (os : Outcomes) : Prop :=
  ∀ n ∈ os.map (·.1), ∀ d, g.Needs n d → d ∈ os.map (·.1) ∧
    ((g.node n).action.producesOutput → (d, .built) ∈ os → (n, .built) ∈ os)

theorem Propagated.runsTo (hg : g.WellFormed) {level rest : List NodeId}
    (hready : g.Ready before level) (hlevel : level = done.map (·.1) ++ n :: rest)
    (h : Propagated g (before ++ done)) {status : NodeStatus}
    (hrun : b.RunsTo g n before.built seen t (.ok status) t') :
    Propagated g (before ++ done ++ [(n, .ofResult (.ok status))]) := by
  have hmem : n ∈ level := by simp [hlevel]
  have hnew := hready.not_mem_done hlevel
  intro m hm d hneeds
  rw [List.map_append, List.mem_append] at hm ⊢
  rcases hm with hold | hlast
  · -- What an earlier node needs came before it, and is not the new node.
    obtain ⟨hd, hkept⟩ := h m hold d hneeds
    refine ⟨.inl hd, fun hproduces hbuilt => List.mem_append_left _ (hkept hproduces ?_)⟩
    rcases List.mem_append.mp hbuilt with hbuilt | hbuilt
    · exact hbuilt
    · obtain ⟨rfl, -⟩ := Prod.mk.inj (List.mem_singleton.mp hbuilt)
      exact absurd hd hnew
  · obtain rfl : m = n := List.mem_singleton.mp hlast
    have hd := hready.needs m hmem d hneeds
    refine ⟨.inl (by rw [List.map_append]; exact List.mem_append_left _ hd), ?_⟩
    intro hproduces hbuilt
    -- What the new node needs is below its level, so that its run has been told of it.
    have hbelow : d ∈ before.built := by
      rw [List.append_assoc] at hbuilt
      rcases List.mem_append.mp hbuilt with hbuilt | hbuilt
      · exact List.mem_map.mpr ⟨_, List.mem_filter.mpr ⟨hbuilt, by simp⟩, rfl⟩
      · have hlevel' : d ∈ level := by
          have hfst := List.mem_map_of_mem (f := Prod.fst) hbuilt
          rw [List.map_append, List.map_singleton] at hfst
          rw [hlevel]
          exact (List.Sublist.append_left (List.singleton_sublist.mpr List.mem_cons_self) _).subset
            hfst
        exact absurd hlevel' (hready.not_mem_of_needs hmem hneeds)
    rw [built_of_runsTo hg (hready.within m hmem) ⟨hproduces, hneeds⟩ hbelow hrun]
    exact List.mem_append_right _ (List.mem_singleton_self _)

theorem propagated_runLevels (hg : g.WellFormed) (hord : g.Ordered)
    (htarget : target < g.nodes.size) (late : NodeId → Bool)
    (hok : Outcomes.AllOk ((b.runner g late announce).runLevels g (g.levels target) s).1) :
    Propagated g ((b.runner g late announce).runLevels g (g.levels target) s).1 := by
  refine runLevels_induct_ok (P := fun os _ => Propagated g os) (R := fun _ _ _ => True) hord htarget
    late nofun (fun _ => trivial) ?_ (fun _ _ _ _ _ h _ => ⟨h, trivial⟩) hok
  intro before level done n rest start t t' status hready hlevel h _ hrun
  exact ⟨h.runsTo hg hready hlevel hrun, trivial⟩

/-- **Rebuilds propagate upward**, whatever the times of the files are. If an execution on a derived
graph succeeds and has built a node, it has built every output that its target needs and that depends
on that node, directly or through other outputs. -/
theorem rebuilds_propagate {plan : Plan} {f : FileNames} {policy : LinkPolicy} {mode : BuildMode}
    (hderive : (derive plan f policy mode).result = .ok g) (htarget : target < g.nodes.size)
    {late : NodeId → Bool} {summary : BuildSummary}
    (hok : ((b.runner g late announce).execute g target s).1 = .ok summary)
    (hbuilt : (d, .built) ∈ ((b.runner g late announce).runLevels g (g.levels target) s).1)
    (hreach : g.Reaches target n) (hchain : Relation.TransGen g.OutputNeeds n d) :
    (n, .built) ∈ ((b.runner g late announce).runLevels g (g.levels target) s).1 := by
  have hord := ordered_derive hderive
  have hpropagated := propagated_runLevels (wellFormed_derive hderive) hord htarget late
    (allOk_of_execute_ok hord htarget hok)
  have hmem : ∀ m, g.Reaches target m →
      m ∈ ((b.runner g late announce).runLevels g (g.levels target) s).1.map (·.1) := by
    intro m hm
    rw [Runner.map_fst_runLevels]
    exact (mem_flatten_levels_iff hord htarget).mpr hm
  -- Along the chain from its upper end: what is needed next is built by the induction hypothesis.
  induction hchain using Relation.TransGen.head_induction_on with
  | single hneeds => exact (hpropagated _ (hmem _ hreach) d hneeds.2).2 hneeds.1 hbuilt
  | head hneeds _ ih =>
    exact (hpropagated _ (hmem _ hreach) _ hneeds.2).2 hneeds.1 (ih (hreach.tail hneeds.2))

/-- The seed of two stages has changed since the first was made. The second is made again, too,
though its file is newer than all others. -/
theorem rebuilds_propagate_twoStages :
    let b : Workbench Unit :=
      { modified? := fun p _ =>
          if p.Same ⟨"gen/seed.txt"⟩ then some 2 else if p.Same ⟨"gen/b.txt"⟩ then some 3 else some 1
        perform := fun _ _ => pure (.ok ())
        discard := fun _ => pure () }
    let r := b.runner twoStages (fun _ => false) fun _ => pure ()
    aggregate .generated < twoStages.nodes.size ∧
      (r.execute twoStages (aggregate .generated) ()).1 = .ok ⟨2, 0⟩ ∧
      (5, .built) ∈ (r.runLevels twoStages (twoStages.levels (aggregate .generated)) ()).1 ∧
      twoStages.Reaches (aggregate .generated) 6 ∧
      Relation.TransGen twoStages.OutputNeeds 6 5 ∧
      (6, .built) ∈ (r.runLevels twoStages (twoStages.levels (aggregate .generated)) ()).1 := by
  intro b r
  have htarget : aggregate .generated < twoStages.nodes.size := by
    rw [constructs_twoStages.size]
    decide
  have hok : (r.execute twoStages (aggregate .generated) ()).1 = .ok ⟨2, 0⟩ := by
    show (r.execute twoStages 4 ()).1 = .ok ⟨2, 0⟩
    rw [Runner.execute_eq, levels_twoStages]
    rfl
  have hbuilt :
      (5, .built) ∈ (r.runLevels twoStages (twoStages.levels (aggregate .generated)) ()).1 := by
    show (5, .built) ∈ (r.runLevels twoStages (twoStages.levels 4) ()).1
    rw [levels_twoStages]
    exact List.mem_of_elem_eq_true rfl
  have hneeds : ∀ n d, (n, d) ∈ twoStages.edges → twoStages.Needs n d := fun n d =>
    mem_dependencies.mpr
  rw [constructs_twoStages.edges] at hneeds
  have hreach : twoStages.Reaches (aggregate .generated) 6 := .single (hneeds _ _ (by decide))
  have hchain : Relation.TransGen twoStages.OutputNeeds 6 5 :=
    .single ⟨by rfl, hneeds _ _ (by decide)⟩
  exact ⟨htarget, hok, hbuilt, hreach, hchain,
    rebuilds_propagate derive_twoStages htarget hok hbuilt hreach hchain⟩

end Workbench

end ModularBuild
