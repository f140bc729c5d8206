import ModularBuild.Proofs.Graph.Growth
import ModularBuild.Proofs.Plan.Artifacts

/-!
# Which nodes have an output

The nodes of a derived graph that have an output are those of the outputs which the plan declares,
one node each and in order (`makes_derive`). Whether two actions write one file is therefore a
question about the paths of declared outputs alone; nothing in a derivation asks it.
-/

namespace ModularBuild.ArtifactGraph

variable {g g' : ArtifactGraph} {f : FileNames} {as : List Artifact} {a b n : NodeId}

/-! ## One step -/

/-- The nodes with an output are those of the given artifacts, in order. -/
def Makes (g : ArtifactGraph) (f : FileNames) (as : List Artifact) : Prop :=
  g.producers.map (fun node => (node.kind, node.path)) =
    as.map fun a => (.artifact a, some (f.path a))

theorem Makes.addEdge (h : g.Makes f as) : (g.addEdge a b).Makes f as := by
  rwa [Makes, producers, nodes_addEdge]

theorem Makes.addIdle (h : g.Makes f as) (node : Node) (hidle : ¬ node.action.producesOutput) :
    (g.addNode node).1.Makes f as := by
  have hproducers : (g.addNode node).1.producers = g.producers := by
    simp [producers, addNode, hidle]
  rwa [Makes, hproducers]

theorem Makes.addArtifact (h : g.Makes f as) (artifact : Artifact) (action : Action)
    (haction : action.producesOutput) :
    (g.addArtifact f artifact action).1.Makes f (as ++ [artifact]) := by
  have hproducers : (g.addArtifact f artifact action).1.producers =
      g.producers ++ [⟨.artifact artifact, some (f.path artifact), action⟩] := by
    simp [producers, ArtifactGraph.addArtifact, addNode, haction]
  rw [Makes, hproducers, List.map_append, List.map_append, h]
  rfl

/-! ## Adding artifacts -/

theorem Makes.addSource (h : g.Makes f as) (artifact : Artifact) :
    (g.addSource f artifact).1.Makes f as := by
  unfold ArtifactGraph.addSource
  split
  · exact h
  · exact h.addIdle _ nofun

theorem Makes.addFile (h : g.Makes f as) (path : Path) : (g.addFile path).1.Makes f as := by
  unfold ArtifactGraph.addFile
  split
  · exact h
  · exact h.addIdle _ nofun

theorem Makes.addObject (h : g.Makes f as) (unit : QualifiedName) (lang : Language) :
    (g.addObject f unit lang).1.Makes f (as ++ [.ofName .object unit]) :=
  ((h.addSource _).addArtifact _ _ rfl).addEdge

theorem Makes.linkPaths (h : g.Makes f as) (paths : List Path) :
    (g.linkPaths n paths).Makes f as := by
  unfold ArtifactGraph.linkPaths
  induction paths generalizing g with
  | nil => exact h
  | cons p paths ih =>
    rw [List.foldl_cons]
    split
    · exact ih h.addEdge
    · exact ih h

theorem Makes.linkAggregates (h : g.Makes f as) (aggregates : List Aggregate) :
    (g.linkAggregates aggregates n).Makes f as := by
  unfold ArtifactGraph.linkAggregates
  induction aggregates generalizing g with
  | nil => exact h
  | cons aggregate aggregates ih => exact ih h.addEdge

/-! ## The parts of a plan -/

theorem makes_foldl {α : Type} {add : ArtifactGraph → α → ArtifactGraph} (new : α → List Artifact)
    (hadd : ∀ g as x, g.Makes f as → (add g x).Makes f (as ++ new x)) (h : g.Makes f as)
    (l : List α) : (l.foldl add g).Makes f (as ++ l.flatMap new) := by
  induction l generalizing g as with
  | nil => simpa using h
  | cons x l ih =>
    rw [List.foldl_cons, List.flatMap_cons, ← List.append_assoc]
    exact ih (hadd g as x h)

/-- The output of a generated file, if it has a rule. -/
def generatedOutput (entry : QualifiedName × Option GeneratedRule) : List Artifact :=
  if entry.2.isSome then [.ofName .generated entry.1] else []

theorem Makes.addGenerated (h : g.Makes f as) (entry : QualifiedName × Option GeneratedRule) :
    (addGenerated f g entry).Makes f (as ++ generatedOutput entry) := by
  obtain ⟨file, rule⟩ := entry
  cases rule with
  | none =>
    have hidle := h.addIdle ⟨.artifact (.ofName .generated file),
      some (f.path (.ofName .generated file)), .source⟩ nofun
    rw [show generatedOutput (file, none) = [] from rfl, List.append_nil]
    exact hidle.linkAggregates _
  | some rule => exact (h.addArtifact _ _ rfl).linkAggregates _

theorem Makes.addUnit (h : g.Makes f as) (entry : QualifiedName × Bool) :
    (addUnit f g entry).Makes f (as ++ [.ofName .object entry.1]) := by
  obtain ⟨unit, hasHeader⟩ := entry
  have hobject := h.addObject unit .c
  cases hasHeader with
  | false => exact hobject
  | true => exact (hobject.addSource _).addEdge

theorem Makes.addFortranUnit (h : g.Makes f as) (unit : QualifiedName) :
    (addFortranUnit f g unit).Makes f (as ++ [.ofName .object unit]) :=
  h.addObject unit .fortran

theorem Makes.addLibraryArtifact (h : g.Makes f as) (objects : List Path) (artifact : Artifact)
    (action : Action) (haction : action.producesOutput) :
    (addLibraryArtifact f objects artifact action g).Makes f (as ++ [artifact]) :=
  ((h.addArtifact artifact action haction).linkPaths _).linkAggregates _

theorem Makes.addLibrary (h : g.Makes f as) (plan : Plan) (library : Library) :
    (addLibrary plan f g library).Makes f (as ++ Plan.libraryArtifacts library) := by
  have harchive := h.addLibraryArtifact (libraryObjects plan f library) (archiveOf library)
    (.archive (libraryObjects plan f library)) rfl
  unfold ArtifactGraph.addLibrary Plan.libraryArtifacts
  split
  · have hshared := harchive.addLibraryArtifact (libraryObjects plan f library)
      (sharedObjectOf library) (.sharedLink (libraryObjects plan f library)) rfl
    rwa [List.append_assoc] at hshared
  · exact harchive

theorem Makes.addProgram (h : g.Makes f as) (plan : Plan) (policy : LinkPolicy)
    (program : ProgramSpec) :
    (addProgram plan f policy g program).Makes f
      (as ++ [.ofName .object program.name, .ofName .executable program.name]) := by
  have hobject := h.addObject program.name program.lang
  unfold ArtifactGraph.addProgram
  generalize g.addObject f program.name program.lang = r at hobject ⊢
  obtain ⟨g₁, o⟩ := r
  have hexe := hobject.addArtifact (.ofName .executable program.name)
    (.linkExe program.lang [f.path (.ofName .object program.name)]
      ((policy program.name plan).map f.path)) rfl
  rw [List.append_assoc] at hexe
  exact ((hexe.linkPaths _).linkPaths _).linkAggregates _

theorem flatMap_generatedOutput (plan : Plan) :
    plan.generated.entries.flatMap generatedOutput = plan.ruledFiles.map (.ofName .generated) := by
  unfold Plan.ruledFiles
  induction plan.generated.entries with
  | nil => rfl
  | cons entry entries ih =>
    rw [List.flatMap_cons, ih, generatedOutput, List.filter_cons]
    split <;> rfl

theorem makes_ofDeclarations (plan : Plan) (f : FileNames) (policy : LinkPolicy) :
    (ofDeclarations plan f policy).Makes f plan.outputArtifacts := by
  -- The parts are added in the order in which the outputs of a plan are listed.
  have h₀ : initial.Makes f [] := rfl
  have h₁ := makes_foldl generatedOutput (fun _ _ entry h => h.addGenerated entry) h₀
    plan.generated.entries
  have h₂ := makes_foldl (fun entry => [.ofName .object entry.1])
    (fun _ _ entry h => h.addUnit entry) h₁ plan.units.entries
  have h₃ := makes_foldl (fun unit => [.ofName .object unit])
    (fun _ _ unit h => h.addFortranUnit unit) h₂ plan.fortranUnits.keys
  have h₄ := makes_foldl Plan.libraryArtifacts (fun _ _ library h => h.addLibrary plan library) h₃
    plan.libraries.values
  have h₅ := makes_foldl
    (fun program => [.ofName .object program.name, .ofName .executable program.name])
    (fun _ _ program h => h.addProgram plan policy program) h₄ (programSpecs plan)
  have houtputs : [] ++ plan.generated.entries.flatMap generatedOutput ++
      plan.units.entries.flatMap (fun entry => [Artifact.ofName .object entry.1]) ++
      plan.fortranUnits.keys.flatMap (fun unit => [Artifact.ofName .object unit]) ++
      plan.libraries.values.flatMap Plan.libraryArtifacts ++
      (programSpecs plan).flatMap (fun program =>
        [.ofName .object program.name, .ofName .executable program.name]) =
      plan.outputArtifacts := by
    rw [flatMap_generatedOutput, ← List.map_eq_flatMap, ← List.map_eq_flatMap, List.nil_append]
    simp only [Plan.outputArtifacts, Plan.programNames, SortedMap.keys, List.map_map,
      List.flatMap_map, Function.comp_def]
  rw [houtputs] at h₅
  exact h₅

/-! ## Rule inputs and shorthand names -/

theorem Makes.addRuleInput (h : g.Makes f as) {file : QualifiedName} {input : String}
    (hadd : addRuleInput file n g input = .ok g') : g'.Makes f as := by
  unfold ArtifactGraph.addRuleInput at hadd
  split at hadd
  · cases hadd
  · cases hadd
    exact (h.addFile _).addEdge

theorem makes_foldlM {α : Type} {add : ArtifactGraph → α → Except PlanError ArtifactGraph}
    (hadd : ∀ g g' x, g.Makes f as → add g x = .ok g' → g'.Makes f as) (h : g.Makes f as)
    {l : List α} (hl : l.foldlM add g = .ok g') : g'.Makes f as := by
  induction l generalizing g with
  | nil =>
    cases hl
    exact h
  | cons x l ih =>
    rw [List.foldlM_cons] at hl
    cases hx : add g x with
    | error e => rw [hx] at hl; cases hl
    | ok g₁ =>
      rw [hx] at hl
      exact ih (hadd g g₁ x h hx) hl

theorem Makes.addRuleInputs (h : g.Makes f as) {entry : QualifiedName × Option GeneratedRule}
    (hadd : addRuleInputs f g entry = .ok g') : g'.Makes f as := by
  obtain ⟨file, rule⟩ := entry
  unfold ArtifactGraph.addRuleInputs at hadd
  cases hfind : g.findPath? (f.path (.ofName .generated file)) with
  | none =>
    simp only [hfind] at hadd
    cases hadd
    exact h
  | some n =>
    cases rule with
    | none =>
      cases hadd
      exact h
    | some rule =>
      simp only [hfind] at hadd
      exact makes_foldlM (fun _ _ _ h hadd => h.addRuleInput hadd) h hadd

theorem Makes.addShorthand (h : g.Makes f as) (name : String) :
    (g.addShorthand name n).Makes f as :=
  (h.addIdle (.phony (.shorthand name)) nofun).addEdge

theorem Makes.addShorthands (h : g.Makes f as) (hadd : (addShorthands f g).result = .ok g') :
    g'.Makes f as := by
  unfold ArtifactGraph.addShorthands at hadd
  split at hadd
  · cases hadd
  · cases hadd
    refine List.foldlRecOn (motive := fun g : ArtifactGraph => g.Makes f as) _ _ h ?_
    exact fun g h s _ => h.addShorthand s.name

/-! ## Derived graphs -/

/-- A derived graph has one node for every declared output, and no other nodes with an output. -/
theorem makes_derive {plan : Plan} {policy : LinkPolicy} {mode : BuildMode}
    (h : (derive plan f policy mode).result = .ok g) : g.Makes f plan.outputArtifacts := by
  obtain ⟨g₀, hinputs, hnamed, -⟩ := derive_eq_ok_iff.mp h
  have hmakes : g₀.Makes f plan.outputArtifacts :=
    makes_foldlM (fun _ _ _ h hadd => h.addRuleInputs hadd) (makes_ofDeclarations plan f policy)
      hinputs
  split at hnamed
  · exact hmakes.addShorthands hnamed
  · cases hnamed
    exact hmakes

/-! ## Nodes and declared outputs -/

theorem mem_producers_of_output {p : Path} (h : g.Output n p) : g.node n ∈ g.producers := by
  have hmem : g.node n ∈ g.nodes.toList := by
    rw [ArtifactGraph.node, Array.getElem?_eq_getElem (lt_size_of_path h.2)]
    exact Array.getElem_mem_toList _
  refine List.mem_filter.mpr ⟨hmem, ?_⟩
  rw [h.1, h.2]
  rfl

theorem Makes.exists_artifact (h : g.Makes f as) {p : Path} (hout : g.Output n p) :
    ∃ a ∈ as, (g.node n).kind = .artifact a ∧ p = f.path a := by
  have hmem := List.mem_map_of_mem (f := fun node : Node => (node.kind, node.path))
    (mem_producers_of_output hout)
  rw [h] at hmem
  obtain ⟨a, ha, hnode⟩ := List.mem_map.mp hmem
  obtain ⟨hkind, hpath⟩ := Prod.mk.inj hnode
  exact ⟨a, ha, hkind.symm, Option.some.inj (hout.2.symm.trans hpath.symm)⟩

theorem Makes.exists_node (h : g.Makes f as) {a : Artifact} (ha : a ∈ as) :
    ∃ n, (g.node n).kind = .artifact a ∧ g.Output n (f.path a) := by
  have hmem := List.mem_map_of_mem (f := fun a => (NodeKind.artifact a, some (f.path a))) ha
  rw [← h] at hmem
  obtain ⟨node, hnode, heq⟩ := List.mem_map.mp hmem
  obtain ⟨hkind, hpath⟩ := Prod.mk.inj heq
  obtain ⟨hmem, hproduces⟩ := List.mem_filter.mp hnode
  obtain ⟨n, hn, hget⟩ := List.getElem_of_mem hmem
  have hn' : g.node n = node := by
    rw [ArtifactGraph.node, Array.getElem?_eq_getElem (by simpa using hn)]
    exact hget
  refine ⟨n, hn'.symm ▸ hkind, ?_, hn'.symm ▸ hpath⟩
  rw [hn']
  exact (Bool.and_eq_true_iff.mp hproduces).1

/-- No declared artifact has two nodes with its output, if none is declared twice. -/
theorem Makes.output_unique (h : g.Makes f as) (has : as.Nodup) {m : NodeId} {p q : Path}
    (hn : g.Output n p) (hm : g.Output m q) (hkind : (g.node n).kind = (g.node m).kind) :
    n = m := by
  have hnodup : (g.producers.map (·.kind)).Nodup := by
    have hkinds := congrArg (List.map Prod.fst) h
    rw [List.map_map, List.map_map] at hkinds
    rw [show g.producers.map (·.kind) = as.map NodeKind.artifact from hkinds]
    exact has.map fun a b hab => NodeKind.artifact.inj hab
  -- Producers of one kind would stand at two places of a list that has no kind twice.
  have hpairwise := List.pairwise_filter.mp (List.pairwise_map.mp hnodup)
  have hlt : ∀ {n m : NodeId} {p q : Path}, g.Output n p → g.Output m q → n < m →
      (g.node n).kind ≠ (g.node m).kind := by
    intro n m p q hn hm hlt
    have hnlt := lt_size_of_path hn.2
    have hmlt := lt_size_of_path hm.2
    have hnode := hn.2
    have hnode' := hm.2
    have hproduces := hn.1
    have hproduces' := hm.1
    simp only [ArtifactGraph.node, Array.getElem?_eq_getElem hnlt, Array.getElem?_eq_getElem hmlt,
      Option.getD_some] at *
    refine List.pairwise_iff_getElem.mp hpairwise n m (by simpa using hnlt) (by simpa using hmlt)
      hlt ?_ ?_
    · simp [hnode, hproduces]
    · simp [hnode', hproduces']
  rcases Nat.lt_trichotomy n m with hnm | rfl | hnm
  · exact absurd hkind (hlt hn hm hnm)
  · rfl
  · exact absurd hkind.symm (hlt hm hn hnm)

/-! ## One producer per file -/

def OneProducerPerFile (g : ArtifactGraph) : Prop :=
  ∀ n m p q, g.Output n p → g.Output m q → p.Same q → n = m

/-- **No two actions write one file exactly if no two declared outputs have the same path.** -/
theorem oneProducerPerFile_iff {project : String} {calls : List (ModulePath × Registry.Call)}
    {naming : LibraryNaming} {plan : Plan}
    (hplan : ((Registry.empty project).run calls).1.finalize naming = .ok plan)
    {policy : LinkPolicy} {mode : BuildMode}
    (hderive : (derive plan f policy mode).result = .ok g) :
    g.OneProducerPerFile ↔ ∀ a ∈ plan.outputArtifacts, ∀ b ∈ plan.outputArtifacts,
      (f.path a).Same (f.path b) → a = b := by
  have hmakes := makes_derive hderive
  have hnodup := (Registry.distinct_of_finalize hplan).nodup_outputArtifacts
  constructor
  · intro hone a ha b hb hsame
    obtain ⟨n, hn, hna⟩ := hmakes.exists_node ha
    obtain ⟨m, hm, hmb⟩ := hmakes.exists_node hb
    rw [hone n m _ _ hna hmb hsame, hm] at hn
    exact (NodeKind.artifact.inj hn).symm
  · intro hdistinct n m p q hn hm hsame
    obtain ⟨a, ha, hna, rfl⟩ := hmakes.exists_artifact hn
    obtain ⟨b, hb, hmb, rfl⟩ := hmakes.exists_artifact hm
    refine hmakes.output_unique hnodup hn hm ?_
    rw [hna, hmb, hdistinct a ha b hb hsame]

/-- The two stages are two files. -/
theorem oneProducerPerFile_twoStages :
    ((Registry.empty "demo").run [(⟨"gen"⟩, .beginModule),
        (⟨"gen"⟩, .declareRule "a.txt" ⟨["make-a"], ["seed.txt"]⟩),
        (⟨"gen"⟩, .declareRule "b.txt" ⟨["make-b"], ["a.txt"]⟩),
        (⟨"gen"⟩, .endModule)]).1.finalize (.projectName "demo") = .ok twoStagesPlan ∧
      twoStages.OneProducerPerFile := by
  have hplan : ((Registry.empty "demo").run [(⟨"gen"⟩, .beginModule),
      (⟨"gen"⟩, .declareRule "a.txt" ⟨["make-a"], ["seed.txt"]⟩),
      (⟨"gen"⟩, .declareRule "b.txt" ⟨["make-b"], ["a.txt"]⟩),
      (⟨"gen"⟩, .endModule)]).1.finalize (.projectName "demo") = .ok twoStagesPlan := by
    rfl
  exact ⟨hplan, (oneProducerPerFile_iff hplan derive_twoStages).mpr (by decide)⟩

/-! ## Two modules and one object -/

/-- One module has a unit in a subdirectory, and the subdirectory is a module with that unit. -/
def nestedPlan : Plan where
  project := "demo"
  modules := (SortedMap.insert ∅ ⟨"A"⟩ ()).insert ⟨"A/b"⟩ ()
  units := (SortedMap.insert ∅ ⟨⟨"A"⟩, "b/c"⟩ false).insert ⟨⟨"A/b"⟩, "c"⟩ false

def nested : ArtifactGraph := (constructed nestedPlan {} .everyLibrary .project).toOption.getD {}

theorem constructs_nested : Constructs nestedPlan {} .everyLibrary .project nested
    [(7, 5), (6, 5)] 8 := constructs_of_computed ⟨by rfl, by rfl, by rfl⟩

theorem derive_nested : (derive nestedPlan {} .everyLibrary .project).result = .ok nested :=
  constructs_nested.derive (by cbv)

/-- Two nodes of the graph write the one object, and nothing has refused it. -/
theorem not_oneProducerPerFile_nested :
    ((Registry.empty "demo").run [(⟨"A"⟩, .beginModule), (⟨"A"⟩, .declareUnit "b/c" false),
        (⟨"A"⟩, .endModule), (⟨"A/b"⟩, .beginModule), (⟨"A/b"⟩, .declareUnit "c" false),
        (⟨"A/b"⟩, .endModule)]).1.finalize (BuildMode.project.naming "demo") = .ok nestedPlan ∧
      (derive nestedPlan {} .everyLibrary .project).result = .ok nested ∧
      ¬ nested.OneProducerPerFile := by
  refine ⟨by rfl, derive_nested, fun hone => ?_⟩
  have hfirst : nested.Output 6 ⟨"A/b/c.o"⟩ := by unfold Output; decide
  have hsecond : nested.Output 7 ⟨"A/b/c.o"⟩ := by unfold Output; decide
  exact absurd (hone 6 7 _ _ hfirst hsecond rfl) (by decide)

end ModularBuild.ArtifactGraph
