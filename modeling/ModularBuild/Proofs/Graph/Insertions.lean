import ModularBuild.Proofs.Graph.Edges
import ModularBuild.Proofs.Plan.Artifacts

/-!
# What is inserted before shorthand names are

Up to its shorthand names a graph is made of the aggregates by four kinds of insertions: the node
of a generated file or of an output, the node of a declared source or header and that of a file that
a rule reads, both where the path leads nowhere yet, and an edge. `Inserts` lists them, and
`inserts_withInputs` says that the declarations of a plan and the inputs of its rules are wired by
nothing else. An invariant of these graphs is one case for each kind: they hold no shorthand names
(`nameless_withInputs`), and their nodes are the aggregates first, and then files (`Indexed`).
-/

namespace ModularBuild.ArtifactGraph

variable {g g' g'' : ArtifactGraph} {f : FileNames} {plan : Plan} {policy : LinkPolicy}
  {a b n : NodeId} {x : Artifact} {q : QualifiedName} {lang : Language}

/-- How one graph becomes another by insertions. An artifact is a generated file, or put together by
the build, or declared and written by hand. The files that rules read are inside the project, and
their paths are resolved. -/
inductive Inserts (plan : Plan) (f : FileNames) (g : ArtifactGraph) : ArtifactGraph → Prop
  | refl : Inserts plan f g g
  | artifact {g' : ArtifactGraph} {x : Artifact} {action : Action} : x.kind.isOutput →
      x.kind = .generated ∨ action.assembles → Inserts plan f g g' →
      Inserts plan f g (g'.addArtifact f x action).1
  | source {g' : ArtifactGraph} {x : Artifact} : plan.Writes x → g'.findPath? (f.path x) = none →
      Inserts plan f g g' → Inserts plan f g (g'.addArtifact f x .source).1
  | file {g' : ArtifactGraph} {written path : Path} : written.normalizeInside? = some path →
      g'.findPath? path = none → Inserts plan f g g' →
      Inserts plan f g (g'.addNode ⟨.file path, some path, .source⟩).1
  | edge {g' : ArtifactGraph} {a b : NodeId} :
      Inserts plan f g g' → Inserts plan f g (g'.addEdge a b)

theorem Inserts.trans (h : Inserts plan f g g') (h' : Inserts plan f g' g'') :
    Inserts plan f g g'' := by
  induction h' with
  | refl => exact h
  | artifact houtput hx _ ih => exact ih.artifact houtput hx
  | source hx hfree _ ih => exact ih.source hx hfree
  | file hpath hfree _ ih => exact ih.file hpath hfree
  | edge _ ih => exact ih.edge

/-! ## Runs of insertions -/

theorem inserts_foldl {α : Type} {add : ArtifactGraph → α → ArtifactGraph} {l : List α}
    (hadd : ∀ g, ∀ x ∈ l, Inserts plan f g (add g x)) : Inserts plan f g (l.foldl add g) :=
  List.foldlRecOn (motive := fun g' => Inserts plan f g g') l add .refl
    fun g' h x hx => h.trans (hadd g' x hx)

theorem inserts_foldlM {α : Type} {add : ArtifactGraph → α → Except PlanError ArtifactGraph}
    (hadd : ∀ g g' x, add g x = .ok g' → Inserts plan f g g') {l : List α}
    (h : l.foldlM add g = .ok g') : Inserts plan f g g' := by
  induction l generalizing g with
  | nil =>
    cases h
    exact .refl
  | cons x l ih =>
    rw [List.foldlM_cons] at h
    cases hx : add g x with
    | error e => rw [hx] at h; cases h
    | ok g₁ =>
      rw [hx] at h
      exact (hadd g g₁ x hx).trans (ih h)

theorem inserts_addSource (hx : plan.Writes x) : Inserts plan f g (g.addSource f x).1 := by
  unfold addSource
  cases hfind : g.findPath? (f.path x) with
  | some n => exact .refl
  | none => exact .source hx hfind .refl

theorem inserts_addFile {written path : Path} (h : written.normalizeInside? = some path) :
    Inserts plan f g (g.addFile path).1 := by
  unfold addFile
  cases hfind : g.findPath? path with
  | some n => exact .refl
  | none => exact .file h hfind .refl

theorem inserts_addObject {kind : DeclKind} (hlang : kind.language? = some lang)
    (hq : q ∈ plan.names kind) : Inserts plan f g (g.addObject f q lang).1 :=
  ((inserts_addSource (.source hlang hq)).artifact rfl (.inr rfl)).edge

theorem inserts_linkPaths (paths : List Path) : Inserts plan f g (g.linkPaths n paths) := by
  refine inserts_foldl fun g p _ => ?_
  split
  · exact .edge .refl
  · exact .refl

theorem inserts_linkAggregates (as : List Aggregate) : Inserts plan f g (g.linkAggregates as n) :=
  inserts_foldl fun _ _ _ => .edge .refl

/-! ## The parts of a plan -/

theorem inserts_addGenerated (entry : QualifiedName × Option GeneratedRule) :
    Inserts plan f g (addGenerated f g entry) :=
  (Inserts.artifact rfl (.inl rfl) .refl).trans (inserts_linkAggregates _)

theorem inserts_addUnit {entry : QualifiedName × Bool} (hentry : entry ∈ plan.units.entries) :
    Inserts plan f g (addUnit f g entry) := by
  obtain ⟨unit, hasHeader⟩ := entry
  have hobject : Inserts plan f g (g.addObject f unit .c).1 :=
    inserts_addObject (show DeclKind.compiledUnit.language? = some .c from rfl)
      (List.mem_map_of_mem (f := (·.1)) hentry)
  cases hasHeader with
  | false => exact hobject
  | true =>
    have hheader : plan.Writes (.ofName .header unit) :=
      .unitHeader (SortedMap.mem_entries_iff.mp hentry)
    exact (hobject.trans (inserts_addSource hheader)).edge

theorem inserts_addLibraryArtifact (objects : List Path) {x : Artifact} {action : Action}
    (hx : x.kind.isOutput) (haction : action.assembles) :
    Inserts plan f g (addLibraryArtifact f objects x action g) :=
  ((Inserts.artifact hx (.inr haction) .refl).trans (inserts_linkPaths _)).trans
    (inserts_linkAggregates _)

theorem inserts_addLibrary (library : Library) :
    Inserts plan f g (addLibrary plan f g library) := by
  unfold addLibrary
  split
  · exact (inserts_addLibraryArtifact _ rfl rfl).trans (inserts_addLibraryArtifact _ rfl rfl)
  · exact inserts_addLibraryArtifact _ rfl rfl

theorem inserts_addProgram {program : ProgramSpec} (hprogram : program ∈ programSpecs plan) :
    Inserts plan f g (addProgram plan f policy g program) := by
  obtain ⟨kind, hlang, hname⟩ := Plan.exists_kind_of_mem_programSpecs hprogram
  exact ((((inserts_addObject hlang hname).artifact rfl (.inr rfl)).trans
    (inserts_linkPaths _)).trans (inserts_linkPaths _)).trans (inserts_linkAggregates _)

theorem inserts_ofDeclarations (plan : Plan) (f : FileNames) (policy : LinkPolicy) :
    Inserts plan f initial (ofDeclarations plan f policy) :=
  ((((inserts_foldl fun _ entry _ => inserts_addGenerated entry).trans
    (inserts_foldl fun _ _ hentry => inserts_addUnit hentry)).trans
    (inserts_foldl fun _ _ hunit =>
      inserts_addObject (show DeclKind.fortranUnit.language? = some _ from rfl) hunit)).trans
    (inserts_foldl fun _ library _ => inserts_addLibrary library)).trans
    (inserts_foldl fun _ _ hprogram => inserts_addProgram hprogram)

/-! ## Rule inputs -/

theorem inserts_addRuleInput {file : QualifiedName} {input : String}
    (h : addRuleInput file n g input = .ok g') : Inserts plan f g g' := by
  unfold addRuleInput at h
  cases hpath : inputPath? file.module input with
  | none => rw [hpath] at h; cases h
  | some path =>
    rw [hpath] at h
    cases h
    exact (inserts_addFile hpath).edge

theorem inserts_addRuleInputs {entry : QualifiedName × Option GeneratedRule}
    (h : addRuleInputs f g entry = .ok g') : Inserts plan f g g' := by
  obtain ⟨file, rule⟩ := entry
  unfold addRuleInputs at h
  dsimp only at h
  split at h
  · exact inserts_foldlM (fun _ _ _ => inserts_addRuleInput) h
  · cases h
    exact .refl

/-- A graph with rule inputs wired is made by insertions alone. -/
theorem inserts_withInputs (h : withInputs plan f policy = .ok g) : Inserts plan f initial g :=
  (inserts_ofDeclarations plan f policy).trans
    (inserts_foldlM (fun _ _ _ => inserts_addRuleInputs) h)

/-! ## No shorthand names -/

/-- No node of the graph is a shorthand name, and none is registered. -/
structure Nameless (g : ArtifactGraph) : Prop where
  kinds : ∀ n name, (g.node n).kind ≠ .shorthand name
  shorthands : g.shorthands = ∅

theorem nameless_initial : initial.Nameless where
  kinds n name hkind := by
    rw [node] at hkind
    cases hnode : initial.nodes[n]? with
    | none =>
      rw [hnode] at hkind
      cases hkind
    | some node =>
      obtain ⟨a, -, rfl⟩ : ∃ a ∈ Aggregate.list, Node.phony (.aggregate a) = node := by
        simpa [initial] using Array.mem_of_getElem? hnode
      rw [hnode] at hkind
      cases hkind
  shorthands := rfl

theorem node_addNode_of_ne {node : Node} (h : n ≠ g.nodes.size) :
    (g.addNode node).1.node n = g.node n := by
  simp [ArtifactGraph.node, addNode, Array.getElem?_push, h]

theorem Nameless.addNode {node : Node} (h : g.Nameless)
    (hnode : ∀ name, node.kind ≠ .shorthand name) : (g.addNode node).1.Nameless where
  kinds n name := by
    by_cases hn : n = g.nodes.size
    · rw [hn, node_addNode_self]
      exact hnode name
    · rw [node_addNode_of_ne hn]
      exact h.kinds n name
  shorthands := h.shorthands

theorem Nameless.addEdge (h : g.Nameless) : (g.addEdge a b).Nameless where
  kinds n name := by
    rw [node_addEdge]
    exact h.kinds n name
  shorthands := by
    unfold ArtifactGraph.addEdge
    split <;> exact h.shorthands

theorem Inserts.nameless (h : Inserts plan f g g') (hg : g.Nameless) : g'.Nameless := by
  induction h with
  | refl => exact hg
  | artifact _ _ _ ih | source _ _ _ ih | file _ _ _ ih => exact ih.addNode nofun
  | edge _ ih => exact ih.addEdge

theorem nameless_withInputs (h : withInputs plan f policy = .ok g) : g.Nameless :=
  (inserts_withInputs h).nameless nameless_initial

/-! ## What the nodes are -/

/-- What a node of a derived graph may be: an aggregate or a shorthand name, which has no path, or a
file. -/
inductive Stands (f : FileNames) : Node → Prop
  | aggregate (y : Aggregate) : Stands f (.phony (.aggregate y))
  | shorthand (name : String) : Stands f (.phony (.shorthand name))
  | artifact (x : Artifact) (action : Action) : Stands f ⟨.artifact x, some (f.path x), action⟩
  | file (p : Path) : Stands f ⟨.file p, some p, .source⟩

/-- Every node is what it may be, and the aggregates are the first ones. -/
structure Indexed (f : FileNames) (g : ArtifactGraph) : Prop where
  stands : ∀ n < g.nodes.size, Stands f (g.node n)
  aggregates : ∀ n y, (g.node n).kind = .aggregate y → n < initial.nodes.size

theorem indexed_initial : Indexed f initial where
  stands n hn := by
    obtain ⟨y, hy⟩ := Grows.refl.exists_aggregate hn
    rw [hy]
    exact .aggregate y
  aggregates n y hkind := lt_size_of_ne_default fun hdefault => by
    rw [hdefault] at hkind
    cases hkind

theorem Indexed.addNode {node : Node} (h : Indexed f g) (hnode : Stands f node)
    (hkind : ∀ y, node.kind ≠ .aggregate y) : Indexed f (g.addNode node).1 where
  stands n hn := by
    by_cases heq : n = g.nodes.size
    · rwa [heq, node_addNode_self]
    · rw [size_addNode] at hn
      rw [node_addNode_of_ne heq]
      exact h.stands n (by omega)
  aggregates n y hn := by
    by_cases heq : n = g.nodes.size
    · rw [heq, node_addNode_self] at hn
      exact absurd hn (hkind y)
    · rw [node_addNode_of_ne heq] at hn
      exact h.aggregates n y hn

theorem Indexed.addEdge {a b : NodeId} (h : Indexed f g) : Indexed f (g.addEdge a b) where
  stands n hn := by
    rw [node_addEdge]
    exact h.stands n (nodes_addEdge (g := g) ▸ hn)
  aggregates n y hn := by
    rw [node_addEdge] at hn
    exact h.aggregates n y hn

theorem Indexed.addShorthand {name : String} {target : NodeId} (h : Indexed f g) :
    Indexed f (g.addShorthand name target) := by
  have hadded := (h.addNode (.shorthand name) nofun).addEdge (a := g.nodes.size) (b := target)
  exact ⟨hadded.stands, hadded.aggregates⟩

theorem Inserts.indexed (h : Inserts plan f g g') (hg : Indexed f g) : Indexed f g' := by
  induction h with
  | refl => exact hg
  | artifact _ _ _ ih | source _ _ _ ih => exact ih.addNode (.artifact _ _) nofun
  | file _ _ _ ih => exact ih.addNode (.file _) nofun
  | edge _ ih => exact ih.addEdge

end ModularBuild.ArtifactGraph
