import ModularBuild.Proofs.Graph.Aggregates
import ModularBuild.Proofs.Path.Resolution

/-!
# How the inputs of rules are wired

The inputs of rules are gone through in the order of the plan, and the first one that is outside the
project is what a derivation answers, before it looks for anything else that is wrong
(`inputOutsideProject_iff`). If none is, each file with a rule needs the files that its inputs name.
The path of a generated file leads to the file's own node unless an output has taken it over
(`Overlays`): handwritten files are added only where there is no node yet. So a file that has its path
to itself needs its inputs and nothing else, and rules share the nodes of the files that they both
read (`ruleInputs_exact`).
-/

namespace ModularBuild

/-- No other generated file has the path of this one, and no other output of the plan. -/
structure Plan.OwnsPath (plan : Plan) (f : FileNames) (file : QualifiedName) : Prop where
  generated : ∀ other ∈ plan.generated.keys,
    (f.path (.ofName .generated file)).Same (f.path (.ofName .generated other)) → other = file
  outputs : ∀ x ∈ plan.outputArtifacts,
    (f.path (.ofName .generated file)).Same (f.path x) → x = .ofName .generated file

namespace ArtifactGraph

variable {g g' g'' : ArtifactGraph} {f : FileNames} {plan : Plan} {policy : LinkPolicy}
  {mode : BuildMode} {a b d n : NodeId} {p : Path} {x : Artifact} {action : Action}

/-! ## Inputs outside the project -/

/-- An input of a module's rule, joined to the module, is nothing below the root of the project. -/
def inputOutside (input : QualifiedName × String) : Bool :=
  (input.1.module.pathOf input.2).IsOutside

/-- The first input that is outside, by files in the order of the plan and by inputs in the order of
their rule, with the file that the rule makes. -/
def firstOutside? (plan : Plan) : Option (QualifiedName × String) :=
  (plan.generated.entries.flatMap ruleInputs).find? inputOutside

/-- Inputs are wired unless one of them is outside, and then the first of these is answered. -/
def Screens (inputs : List (QualifiedName × String)) : Except PlanError ArtifactGraph → Prop
  | .ok _ => inputs.find? inputOutside = none
  | .error e => ∃ input, inputs.find? inputOutside = some input ∧
      e = .inputOutsideProject input.1.toString input.2

theorem screens_foldlM {α : Type} {add : ArtifactGraph → α → Except PlanError ArtifactGraph}
    (inputs : α → List (QualifiedName × String)) (keeps : ArtifactGraph → Prop) {l : List α}
    (hadd : ∀ g, keeps g → ∀ z ∈ l, Screens (inputs z) (add g z) ∧
      ∀ g', add g z = .ok g' → keeps g') (hg : keeps g) :
    Screens (l.flatMap inputs) (l.foldlM add g) := by
  induction l generalizing g with
  | nil => exact List.find?_nil
  | cons z l ih =>
    obtain ⟨hscreens, hkeeps⟩ := hadd g hg z List.mem_cons_self
    rw [List.foldlM_cons, List.flatMap_cons]
    cases hz : add g z with
    | error e =>
      rw [hz] at hscreens
      obtain ⟨input, hfirst, he⟩ := hscreens
      exact ⟨input, by rw [List.find?_append, hfirst, Option.some_or], he⟩
    | ok g₁ =>
      rw [hz] at hscreens
      have hrest := ih (fun g hg y hy => hadd g hg y (List.mem_cons_of_mem _ hy)) (hkeeps g₁ hz)
      have hfind : (inputs z ++ l.flatMap inputs).find? inputOutside =
          (l.flatMap inputs).find? inputOutside := by
        rw [List.find?_append, show (inputs z).find? inputOutside = none from hscreens,
          Option.none_or]
      show Screens _ (l.foldlM add g₁)
      cases hl : l.foldlM add g₁ <;> rw [hl] at hrest
      · obtain ⟨input, hfirst, he⟩ := hrest
        exact ⟨input, hfind.trans hfirst, he⟩
      · exact hfind.trans hrest

theorem inputOutside_iff {input : QualifiedName × String} :
    inputOutside input ↔ inputPath? input.1.module input.2 = none := by
  rw [inputOutside, decide_eq_true_iff, Path.isOutside_iff, Path.IsInside, inputPath?,
    Option.not_isSome_iff_eq_none]

theorem screens_addRuleInput (file : QualifiedName) (input : String) :
    Screens [(file, input)] (addRuleInput file n g input) := by
  unfold addRuleInput
  cases hpath : inputPath? file.module input with
  | none =>
    have houtside : inputOutside (file, input) := inputOutside_iff.mpr hpath
    exact ⟨(file, input), by rw [List.find?_cons_of_pos houtside], rfl⟩
  | some path =>
    have hinside : ¬ inputOutside (file, input) := by
      rw [inputOutside_iff, hpath]
      exact nofun
    exact (List.find?_cons_of_neg hinside).trans List.find?_nil

theorem screens_addRuleInputs {entry : QualifiedName × Option GeneratedRule}
    (hfile : (g.findPath? (f.path (.ofName .generated entry.1))).isSome) :
    Screens (ruleInputs entry) (addRuleInputs f g entry) := by
  obtain ⟨file, rule⟩ := entry
  obtain ⟨n, hn⟩ := Option.isSome_iff_exists.mp hfile
  unfold addRuleInputs
  cases rule with
  | none => exact List.find?_nil
  | some rule =>
    simp only [hn]
    have h : Screens _ (rule.inputs.foldlM (addRuleInput file n) g) :=
      screens_foldlM (fun input => [(file, input)]) (fun _ => True)
        (fun g _ input _ => ⟨screens_addRuleInput file input, fun _ _ => trivial⟩) trivial
    rwa [← List.map_eq_flatMap] at h

theorem screens_withInputs :
    Screens (plan.generated.entries.flatMap ruleInputs) (withInputs plan f policy) := by
  refine screens_foldlM ruleInputs (Grows (ofDeclarations plan f policy)) (fun g hg entry hentry =>
    ⟨screens_addRuleInputs (hg.isSome_findPath? (isSome_findPath?_generated hentry)),
      fun g' h => ?_⟩) .refl
  exact hg.trans (grows_addRuleInputs
    (extends_ofDeclarations.grows.trans hg).wellFormed_of_initial h)

/-- The first input outside is what is answered, whatever else is wrong with the plan. -/
theorem inputOutsideProject_iff {artifact input : String} :
    (derive plan f policy mode).result = .error (.inputOutsideProject artifact input) ↔
      ∃ file, firstOutside? plan = some (file, input) ∧ artifact = file.toString := by
  have hscreens : Screens _ (withInputs plan f policy) := screens_withInputs
  rw [result_derive, constructed]
  cases hinputs : withInputs plan f policy with
  | error e =>
    rw [hinputs] at hscreens
    obtain ⟨⟨file, first⟩, hfirst, rfl⟩ := hscreens
    rw [firstOutside?, hfirst]
    constructor
    · rintro ⟨⟩
      exact ⟨file, rfl, rfl⟩
    · rintro ⟨file', heq, rfl⟩
      cases heq
      rfl
  | ok g =>
    rw [hinputs] at hscreens
    have hnone : firstOutside? plan = none := hscreens
    rw [hnone]
    constructor
    · -- Two artifacts may ask for one name, and there may be a cycle.
      intro h
      dsimp only [Except.bind] at h
      generalize hnamed : (if mode.hasShorthands then addShorthands f g
        else ⟨[], .ok g⟩ : Derivation) = named at h
      cases hresult : named.result with
      | error e =>
        rw [hresult] at h
        cases h
        rw [← hnamed] at hresult
        split at hresult
        · obtain ⟨_, _, _, heq⟩ := addShorthands_eq_error hresult
          cases heq
        · cases hresult
      | ok g' =>
        rw [hresult] at h
        dsimp only [checkAcyclic] at h
        split at h <;> cases h
    · rintro ⟨file, heq, -⟩
      cases heq

/-! ## Files that rules read -/

/-- The nodes of files that no artifact accounts for have paths of names, at least of one. -/
def FilesNamed (g : ArtifactGraph) : Prop :=
  ∀ n p, (g.node n).kind = .file p → (g.node n).path = some p ∧
    ∃ names, names ≠ [] ∧ p.components = names.map .normal

theorem FilesNamed.addNode {node : Node} (h : g.FilesNamed)
    (hnode : ∀ p, node.kind = .file p → node.path = some p ∧
      ∃ names, names ≠ [] ∧ p.components = names.map .normal) : (g.addNode node).1.FilesNamed := by
  intro n p hkind
  by_cases hn : n = g.nodes.size
  · rw [hn, node_addNode_self] at hkind ⊢
    exact hnode p hkind
  · rw [node_addNode_of_ne hn] at hkind ⊢
    exact h n p hkind

theorem FilesNamed.addEdge (h : g.FilesNamed) : (g.addEdge a b).FilesNamed := by
  intro n p hkind
  rw [node_addEdge] at hkind ⊢
  exact h n p hkind

theorem Inserts.filesNamed (h : Inserts plan f g g') (hg : g.FilesNamed) : g'.FilesNamed := by
  induction h with
  | refl => exact hg
  | artifact _ _ _ ih | source _ _ _ ih => exact ih.addNode nofun
  | file hpath _ _ ih =>
    refine ih.addNode fun p hkind => ?_
    cases hkind
    obtain ⟨names, hne, hnames, rfl⟩ := Path.exists_names_of_normalizeInside? hpath
    exact ⟨rfl, names, hne, Path.components_ofNames hnames⟩
  | edge _ ih => exact ih.addEdge

theorem filesNamed_initial : initial.FilesNamed := by
  intro n p hkind
  have hlt : n < initial.nodes.size :=
    lt_size_of_ne_default fun hdefault => by rw [hdefault] at hkind; cases hkind
  obtain ⟨y, hy⟩ := Grows.refl.exists_aggregate hlt
  rw [hy] at hkind
  cases hkind

theorem filesNamed_addShorthands (h : (addShorthands f g).result = .ok g') (hg : g.FilesNamed) :
    g'.FilesNamed := by
  obtain ⟨names, -, rfl⟩ := addShorthands_eq_ok h
  refine List.foldlRecOn (motive := FilesNamed) names _ hg fun g hg s _ => ?_
  have hnode : (g.addNode (.phony (.shorthand s.name))).1.FilesNamed := hg.addNode nofun
  exact hnode.addEdge (a := g.nodes.size) (b := s.target)

theorem filesNamed_derive (h : (derive plan f policy mode).result = .ok g) : g.FilesNamed := by
  obtain ⟨g₀, hinputs, hnamed, -⟩ := derive_eq_ok_iff.mp h
  have hg₀ := (inserts_withInputs hinputs).filesNamed filesNamed_initial
  split at hnamed
  · exact filesNamed_addShorthands hnamed hg₀
  · cases hnamed
    exact hg₀

/-! ## What takes over a path -/

/-- A graph grows by artifacts that are not generated files, and only the outputs among these take
over the path of a node. -/
structure Overlays (plan : Plan) (f : FileNames) (g g' : ArtifactGraph) : Prop where
  grows : Grows g g'
  artifacts : ∀ n x, g.nodes.size ≤ n → n < g'.nodes.size → (g'.node n).kind = .artifact x →
    x.kind ≠ .generated
  findPath? : ∀ p n, g.findPath? p = some n → g'.findPath? p = some n ∨
    ∃ x ∈ plan.outputArtifacts, x.kind ≠ .generated ∧ p.Same (f.path x)

theorem Overlays.refl : Overlays plan f g g :=
  ⟨.refl, fun _ _ hn hn' => absurd hn' (Nat.not_lt_of_le hn), fun _ _ h => .inl h⟩

theorem Overlays.trans (h : Overlays plan f g g') (h' : Overlays plan f g' g'') :
    Overlays plan f g g'' where
  grows := h.grows.trans h'.grows
  artifacts n x hn hn'' hkind := by
    by_cases hn' : n < g'.nodes.size
    · rw [h'.grows.node_eq hn'] at hkind
      exact h.artifacts n x hn hn' hkind
    · exact h'.artifacts n x (Nat.le_of_not_lt hn') hn'' hkind
  findPath? p n hn := by
    rcases h.findPath? p n hn with hn' | htaken
    · exact h'.findPath? p n hn'
    · exact .inr htaken

theorem overlays_of_nodes_eq (hgrows : Grows g g') (hnodes : g'.nodes = g.nodes)
    (hfind : ∀ p, g'.findPath? p = g.findPath? p) : Overlays plan f g g' where
  grows := hgrows
  artifacts _ _ hn hn' := absurd (hnodes ▸ hn') (Nat.not_lt_of_le hn)
  findPath? p _ hn := .inl ((hfind p).trans hn)

theorem overlays_addArtifact (hx : x.kind ≠ .generated) (haction : action ≠ .phony)
    (hpath : g.findPath? (f.path x) = none ∨ x ∈ plan.outputArtifacts) :
    Overlays plan f g (g.addArtifact f x action).1 where
  grows := (gained_addArtifact f x haction).grows
  artifacts n z hn hn' hkind := by
    rw [addArtifact, size_addNode] at hn'
    rw [addArtifact, Nat.le_antisymm (Nat.le_of_lt_succ hn') hn, node_addNode_self] at hkind
    cases hkind
    exact hx
  findPath? p n hn := by
    rcases hpath with hfree | houtput
    · refine .inl (findPath?_addNode_of_free (fun q hq => ?_) hn)
      cases hq
      exact hfree
    · by_cases hsame : p.Same (f.path x)
      · exact .inr ⟨x, houtput, hx, hsame⟩
      · refine .inl ?_
        rw [addArtifact, findPath?_addNode, if_neg]
        · exact hn
        · rintro ⟨q, hq, hsame'⟩
          cases hq
          exact hsame hsame'

theorem overlays_addSource (hx : x.kind ≠ .generated) :
    Overlays plan f g (g.addSource f x).1 := by
  unfold addSource
  cases hfind : g.findPath? (f.path x) with
  | some n => exact .refl
  | none => exact overlays_addArtifact hx (by decide) (.inl hfind)

theorem overlays_linkPaths (hg : g.WellFormed) (hn : n < g.nodes.size) (paths : List Path) :
    Overlays plan f g (g.linkPaths n paths) :=
  overlays_of_nodes_eq (grows_linkPaths hg hn paths) (nodes_linkPaths paths)
    fun _ => findPath?_linkPaths paths

theorem overlays_linkAggregates (hg : g.WellFormed) (hn : n < g.nodes.size)
    (as : List Aggregate) : Overlays plan f g (g.linkAggregates as n) :=
  overlays_of_nodes_eq (grows_linkAggregates hg hn as) (nodes_linkAggregates as)
    fun _ => findPath?_linkAggregates as

theorem overlays_addEdge (ha : a < g.nodes.size) (hb : b < g.nodes.size) :
    Overlays plan f g (g.addEdge a b) :=
  overlays_of_nodes_eq (Grows.refl.edge ha hb) nodes_addEdge fun _ => findPath?_addEdge _

/-- An output is added, with the edges to what it is made of and from its aggregates. -/
theorem overlays_output (hg : g.WellFormed) (hx : x ∈ plan.outputArtifacts)
    (hkind : x.kind ≠ .generated) (haction : action ≠ .phony) (paths : List Path)
    (as : List Aggregate) :
    Overlays plan f g (((g.addArtifact f x action).1.linkPaths (g.addArtifact f x action).2
      paths).linkAggregates as (g.addArtifact f x action).2) := by
  have hnode : Overlays plan f g (g.addArtifact f x action).1 :=
    overlays_addArtifact hkind haction (.inr hx)
  have hg₁ := hnode.grows.wellFormed hg
  have hn := (gained_addArtifact (g := g) f x haction).2
  have hlink : Overlays plan f _ ((g.addArtifact f x action).1.linkPaths
      (g.addArtifact f x action).2 paths) := overlays_linkPaths hg₁ hn paths
  exact (hnode.trans hlink).trans (overlays_linkAggregates (hlink.grows.wellFormed hg₁)
    (Nat.lt_of_lt_of_le hn hlink.grows.size_le) as)

theorem overlays_addObject (hg : g.WellFormed) {unit : QualifiedName} (lang : Language)
    (hunit : .ofName .object unit ∈ plan.outputArtifacts) :
    Overlays plan f g (g.addObject f unit lang).1 := by
  have hsource : Overlays plan f g (g.addSource f (.ofName (.source lang) unit)).1 :=
    overlays_addSource (by simp [Artifact.ofName])
  have hs := (gained_addSource hg f (.ofName (.source lang) unit)).2
  unfold addObject
  dsimp only
  generalize g.addSource f (.ofName (.source lang) unit) = r at hsource hs ⊢
  obtain ⟨g₁, s⟩ := r
  have hobject : Overlays plan f g₁ (g₁.addArtifact f (.ofName .object unit)
      (.compile lang (f.path (.ofName (.source lang) unit)))).1 :=
    overlays_addArtifact (by simp [Artifact.ofName]) (by simp) (.inr hunit)
  exact (hsource.trans hobject).trans (overlays_addEdge (gained_addArtifact f _ (by simp)).2
    (Nat.lt_of_lt_of_le hs hobject.grows.size_le))

theorem overlays_addUnit (hg : g.WellFormed) {entry : QualifiedName × Bool}
    (hunit : .ofName .object entry.1 ∈ plan.outputArtifacts) :
    Overlays plan f g (addUnit f g entry) := by
  obtain ⟨unit, hasHeader⟩ := entry
  have hobject : Overlays plan f g (g.addObject f unit .c).1 := overlays_addObject hg .c hunit
  have ho := (gained_addObject hg f unit .c).2
  unfold addUnit
  dsimp only
  generalize g.addObject f unit .c = r at hobject ho ⊢
  obtain ⟨g₁, o⟩ := r
  cases hasHeader with
  | false => exact hobject
  | true =>
    have hheader : Overlays plan f g₁ (g₁.addSource f (.ofName .header unit)).1 :=
      overlays_addSource (by simp [Artifact.ofName])
    exact (hobject.trans hheader).trans (overlays_addEdge
      (Nat.lt_of_lt_of_le ho hheader.grows.size_le)
      (gained_addSource (hobject.grows.wellFormed hg) f (.ofName .header unit)).2)

theorem overlays_addLibrary (hg : g.WellFormed) {library : Library}
    (hlibrary : ∀ x ∈ Plan.libraryArtifacts library, x ∈ plan.outputArtifacts) :
    Overlays plan f g (addLibrary plan f g library) := by
  have harchive : Overlays plan f g (g.addLibraryArtifact f (libraryObjects plan f library)
      (archiveOf library) (.archive (libraryObjects plan f library))) :=
    overlays_output hg (hlibrary _ (by simp [Plan.libraryArtifacts])) (by simp [archiveOf])
      (by simp) _ _
  unfold addLibrary
  split
  · rename_i hshared
    exact harchive.trans (overlays_output (harchive.grows.wellFormed hg)
      (hlibrary _ (by simp [Plan.libraryArtifacts, hshared])) (by simp [sharedObjectOf])
      (by simp) _ _)
  · exact harchive

theorem overlays_addProgram (hg : g.WellFormed) {program : ProgramSpec}
    (hobject : .ofName .object program.name ∈ plan.outputArtifacts)
    (hexe : .ofName .executable program.name ∈ plan.outputArtifacts) :
    Overlays plan f g (addProgram plan f policy g program) := by
  have hadd : Overlays plan f g (g.addObject f program.name program.lang).1 :=
    overlays_addObject hg program.lang hobject
  unfold addProgram
  generalize g.addObject f program.name program.lang = r at hadd ⊢
  obtain ⟨g₁, o⟩ := r
  dsimp only
  rw [linkPaths_linkPaths]
  exact hadd.trans (overlays_output (hadd.grows.wellFormed hg) hexe (by simp [Artifact.ofName])
    (by simp) _ _)

theorem overlays_foldl {α : Type} {add : ArtifactGraph → α → ArtifactGraph} {l : List α}
    (hadd : ∀ g, ∀ z ∈ l, g.WellFormed → Overlays plan f g (add g z)) (hg : g.WellFormed) :
    Overlays plan f g (l.foldl add g) :=
  List.foldlRecOn (motive := fun g' => Overlays plan f g g') l add .refl
    fun g' h z hz => h.trans (hadd g' z hz (h.grows.wellFormed hg))

theorem overlays_ofDeclarations :
    Overlays plan f (generatedStage plan f) (ofDeclarations plan f policy) := by
  have hobject : ∀ {q : QualifiedName}, q ∈ plan.objectNames →
      .ofName .object q ∈ plan.outputArtifacts := fun hq =>
    Plan.mem_outputArtifacts.mpr (.inr (.inr (.inl (List.mem_map_of_mem hq))))
  have hunits : Overlays plan f (generatedStage plan f) (unitStage plan f) :=
    overlays_foldl (fun g entry hentry hg => overlays_addUnit hg (hobject
      (List.mem_append_left _ (List.mem_append_left _ (List.mem_map_of_mem hentry)))))
      extends_generatedStage.grows.wellFormed_of_initial
  have hobjects : Overlays plan f (unitStage plan f) (objectStage plan f) :=
    overlays_foldl (fun g unit hunit hg => overlays_addObject hg .fortran (hobject
      (List.mem_append_left _ (List.mem_append_right _ hunit))))
      (extends_generatedStage.trans extends_unitStage).grows.wellFormed_of_initial
  have hlibraries : Overlays plan f (objectStage plan f) (libraryStage plan f) :=
    overlays_foldl (fun g library hlibrary hg => overlays_addLibrary hg fun x hx =>
      Plan.mem_outputArtifacts.mpr (.inr (.inl (List.mem_flatMap.mpr ⟨library, hlibrary, hx⟩))))
      extends_initial_objectStage.grows.wellFormed_of_initial
  have hprograms : Overlays plan f (libraryStage plan f) (ofDeclarations plan f policy) := by
    refine overlays_foldl (fun g program hprogram hg => ?_)
      extends_initial_libraryStage.grows.wellFormed_of_initial
    have hname : program.name ∈ plan.programNames := List.mem_map_of_mem hprogram
    exact overlays_addProgram hg (hobject (List.mem_append_right _ hname))
      (Plan.mem_outputArtifacts.mpr (.inr (.inr (.inr (List.mem_map_of_mem hname)))))
  exact ((hunits.trans hobjects).trans hlibraries).trans hprograms

/-! ## The node of a generated file -/

/-- The nodes with a file that are added first are those of generated files. -/
theorem exists_generated_of_path (hp : ((generatedStage plan f).node n).path = some p) :
    ∃ file ∈ plan.generated.keys,
      ((generatedStage plan f).node n).kind = .artifact (.ofName .generated file) ∧
        p = f.path (.ofName .generated file) := by
  have hstage : Joins (fun x => ∃ file ∈ plan.generated.keys, x = .ofName .generated file)
      Anything initial (generatedStage plan f) :=
    joins_foldl (fun g entry hentry hg => joins_addGenerated hg
      ⟨entry.1, List.mem_map_of_mem hentry, rfl⟩ fun _ => trivial) .refl
  have hle : initial.nodes.size ≤ n := by
    by_contra hinitial
    obtain ⟨y, hy⟩ := hstage.grows.exists_aggregate (Nat.lt_of_not_le hinitial)
    rw [hy] at hp
    cases hp
  have hlt := lt_size_of_path hp
  obtain ⟨x, hkind, ⟨file, hfile, rfl⟩, -⟩ := hstage.artifacts n hle hlt
  have hpath := (extends_generatedStage.suits n hle hlt _ hkind).1
  exact ⟨file, hfile, hkind, Option.some.inj (hp.symm.trans hpath)⟩

/-- A generated file has one node among those that are added first, and a path of its own leads
there. -/
theorem exists_node_generatedStage {file : QualifiedName} (hfile : file ∈ plan.generated.keys)
    (howns : plan.OwnsPath f file) :
    ∃ n, (generatedStage plan f).findPath? (f.path (.ofName .generated file)) = some n ∧
      ∀ m, (generatedStage plan f).Asks m (.ofName .generated file) ↔ m = n := by
  have hmembers : (generatedStage plan f).memberNodes =
      plan.generated.keys.map (.ofName .generated) := gathers_generatedStage.members
  have hnodup : (generatedStage plan f).memberNodes.Nodup := by
    rw [hmembers]
    exact plan.generated.nodup_keys.map (Plan.ofName_injective _)
  have hg : (generatedStage plan f).WellFormed := extends_generatedStage.grows.wellFormed_of_initial
  obtain ⟨entry, hentry, rfl⟩ := List.mem_map.mp hfile
  obtain ⟨n, hn⟩ := Option.isSome_iff_exists.mp (isSome_findPath?_generatedStage hentry)
  obtain ⟨hlt, q, hq, hsame⟩ := hg.byPath _ n hn
  obtain ⟨other, hother, hkind, rfl⟩ := exists_generated_of_path hq
  rw [howns.generated other hother hsame] at hkind
  refine ⟨n, hn, fun m => ⟨fun hm => hm.eq_of_nodup hnodup ⟨hlt, hkind, rfl⟩, ?_⟩⟩
  rintro rfl
  exact ⟨hlt, hkind, rfl⟩

/-- A generated file that has its path to itself has one node in the derived graph, and the path
leads there. -/
theorem exists_node_of_ownsPath (h : (derive plan f policy mode).result = .ok g)
    {file : QualifiedName} (hfile : file ∈ plan.generated.keys) (howns : plan.OwnsPath f file) :
    ∃ n, g.findPath? (f.path (.ofName .generated file)) = some n ∧
      ∀ m, (g.node m).kind = .artifact (.ofName .generated file) ↔ m = n := by
  obtain ⟨n, hn, hnode⟩ := exists_node_generatedStage hfile howns
  obtain ⟨g₀, hwires, hsettles, -⟩ := exists_wires_of_derive h
  have hadded := hwires.settles.trans hsettles
  have hoverlays : Overlays plan f (generatedStage plan f) (ofDeclarations plan f policy) :=
    overlays_ofDeclarations
  have hgrows := hoverlays.grows.trans hadded.grows
  have hasks := (hnode n).mpr rfl
  refine ⟨n, ?path, fun m => ⟨fun hm => ?only, ?kind⟩⟩
  case path =>
    rcases hoverlays.findPath? _ n hn with hfind | ⟨x, hx, hkind, hsame⟩
    · exact hadded.findPath? _ _ hfind
    · rw [howns.outputs x hx hsame] at hkind
      exact absurd rfl hkind
  case only =>
    have hlt : m < g.nodes.size :=
      lt_size_of_ne_default fun hdefault => by rw [hdefault] at hm; cases hm
    have hdeclared := hadded.artifacts m _ hlt hm
    rw [hadded.grows.node_eq hdeclared] at hm
    by_cases hstage : m < (generatedStage plan f).nodes.size
    · rw [hoverlays.grows.node_eq hstage] at hm
      exact (hnode m).mp ⟨hstage, hm, rfl⟩
    · exact absurd rfl
        (hoverlays.artifacts m _ (Nat.le_of_not_lt hstage) hdeclared hm)
  case kind =>
    rintro rfl
    rw [hgrows.node_eq hasks.lt_size]
    exact hasks.kind

/-! ## Derived graphs -/

/-- The inputs of rules are wired to the files that they name, and to nothing else. -/
structure InputsWired (plan : Plan) (f : FileNames) (g : ArtifactGraph) : Prop where
  /-- A file with a rule has one node, where its path leads and which needs the files of the rule's
  inputs exactly. -/
  needs : ∀ file rule, plan.generated.find? file = some (some rule) → plan.OwnsPath f file →
    ∃ n paths, (∀ m, (g.node m).kind = .artifact (.ofName .generated file) ↔ m = n) ∧
      g.findPath? (f.path (.ofName .generated file)) = some n ∧
      rule.inputs.map (fun input => (file.module.pathOf input).normalize?) = paths.map some ∧
      g.NeedsExactly n paths
  /-- Inputs with one normal form lead to one node, from the nodes at the paths of their rules'
  files. -/
  shared : ∀ input input' p p', HasInput plan input → HasInput plan input' →
    (input.1.module.pathOf input.2).normalize? = some p →
    (input'.1.module.pathOf input'.2).normalize? = some p' → p.Same p' →
    ∃ n n' d, g.findPath? (f.path (.ofName .generated input.1)) = some n ∧
      g.findPath? (f.path (.ofName .generated input'.1)) = some n' ∧
      g.HasPath d p ∧ g.Needs n d ∧ g.Needs n' d
  /-- Nodes of generated files need no two nodes of one path. -/
  single : ∀ file file' n n' d d' p, (g.node n).kind = .artifact (.ofName .generated file) →
    (g.node n').kind = .artifact (.ofName .generated file') →
    g.Needs n d → g.Needs n' d' → g.HasPath d p → g.HasPath d' p → d = d'
  files : g.FilesNamed

/-- What the node of a file with a rule needs is what its inputs name. -/
theorem needsExactly_of_ownsPath (h : (derive plan f policy mode).result = .ok g)
    {file : QualifiedName} {rule : GeneratedRule}
    (hrule : plan.generated.find? file = some (some rule)) (howns : plan.OwnsPath f file)
    (hn : g.findPath? (f.path (.ofName .generated file)) = some n)
    (hkind : (g.node n).kind = .artifact (.ofName .generated file)) {paths : List Path}
    (hpaths : rule.inputs.map (fun input => (file.module.pathOf input).normalize?) =
      paths.map some) : g.NeedsExactly n paths where
  needed p hp := by
    have hmem : some p ∈ rule.inputs.map fun input => (file.module.pathOf input).normalize? := by
      rw [hpaths]
      exact List.mem_map_of_mem hp
    obtain ⟨input, hinput, hnormal⟩ := List.mem_map.mp hmem
    have hinput : HasInput plan (file, input) := ⟨rule, hrule, hinput⟩
    obtain ⟨n', d, ⟨q, hq, hn', hd⟩, hneeds⟩ := exists_linksInput h hinput
    cases hn.symm.trans hn'
    cases (normalize?_of_inputPath? hq).symm.trans hnormal
    exact ⟨d, hneeds, (wellFormed_derive h).hasPath hd⟩
  only d hneeds := by
    obtain ⟨⟨file', input⟩, ⟨rule', hrule', hinput⟩, p, hp, hfile', hd⟩ :=
      linksInput_of_generated h hkind hneeds
    -- An input of another file would be wired here only if that file had the same path.
    have hsame := (leads_of_findPath? h hkind hfile').1
    obtain rfl := howns.generated file' (SortedMap.mem_keys_iff.mpr ⟨_, hrule'⟩) hsame
    cases hrule.symm.trans hrule'
    have hmem : some p ∈ paths.map some := by
      rw [← hpaths]
      exact List.mem_map.mpr ⟨input, hinput, normalize?_of_inputPath? hp⟩
    obtain ⟨q, hq, heq⟩ := List.mem_map.mp hmem
    cases heq
    exact ⟨p, hq, (wellFormed_derive h).hasPath hd⟩

theorem findPath?_of_needs (h : (derive plan f policy mode).result = .ok g) {file : QualifiedName}
    (hkind : (g.node n).kind = .artifact (.ofName .generated file)) (hneeds : g.Needs n d)
    (hd : g.HasPath d p) : g.findPath? p = some d := by
  obtain ⟨input, -, q, -, -, hfind⟩ := linksInput_of_generated h hkind hneeds
  obtain ⟨r, hr, hsame⟩ := (wellFormed_derive h).hasPath hfind
  obtain ⟨r', hr', hsame'⟩ := hd
  cases hr.symm.trans hr'
  have hpq : p.Same q := hsame'.trans hsame.symm
  rwa [findPath?_congr hpq]

theorem inputsWired_derive (h : (derive plan f policy mode).result = .ok g) :
    InputsWired plan f g := by
  refine ⟨fun file rule hrule howns => ?needs, fun input input' p p' hinput hinput' hp hp' hsame =>
    ?shared, fun file file' n n' d d' p hn hn' hneeds hneeds' hd hd' => ?single,
    filesNamed_derive h⟩
  case needs =>
    obtain ⟨n, hn, hkind⟩ :=
      exists_node_of_ownsPath h (SortedMap.mem_keys_iff.mpr ⟨_, hrule⟩) howns
    have hresolves : ∀ input ∈ rule.inputs,
        ∃ p, (file.module.pathOf input).normalize? = some p := by
      intro input hinput
      have hinput : HasInput plan (file, input) := ⟨rule, hrule, hinput⟩
      obtain ⟨_, _, ⟨p, hp, -, -⟩, -⟩ := exists_linksInput h hinput
      exact ⟨p, normalize?_of_inputPath? hp⟩
    have hpaths : rule.inputs.map (fun input => (file.module.pathOf input).normalize?) =
        (rule.inputs.map fun input =>
          ((file.module.pathOf input).normalize?).getD default).map some := by
      rw [List.map_map]
      refine List.map_congr_left fun input hinput => ?_
      obtain ⟨p, hp⟩ := hresolves input hinput
      simp [hp]
    exact ⟨n, _, hkind, hn, hpaths,
      needsExactly_of_ownsPath h hrule howns hn ((hkind n).mpr rfl) hpaths⟩
  case shared =>
    obtain ⟨n, d, ⟨q, hq, hn, hd⟩, hneeds⟩ := exists_linksInput h hinput
    obtain ⟨n', d', ⟨q', hq', hn', hd'⟩, hneeds'⟩ := exists_linksInput h hinput'
    cases (normalize?_of_inputPath? hq).symm.trans hp
    cases (normalize?_of_inputPath? hq').symm.trans hp'
    rw [← findPath?_congr hsame, hd] at hd'
    cases hd'
    exact ⟨n, n', d, hn, hn', (wellFormed_derive h).hasPath hd, hneeds, hneeds'⟩
  case single =>
    have hfind := findPath?_of_needs h hn hneeds hd
    rw [findPath?_of_needs h hn' hneeds' hd'] at hfind
    exact (Option.some.inj hfind).symm

/-- **The inputs of rules are wired exactly.** Some input of a rule is absolute, climbs above the
root or is the root itself exactly if a derivation is refused for an input outside the project, and
then it is refused for the first such input by name, whether or not two artifacts ask for one name or
there is a cycle. In every derived graph each file with a rule that has its path to itself needs the
files that its inputs name and nothing else, and what different rules read by one path is one
node. -/
theorem ruleInputs_exact (plan : Plan) (f : FileNames) (policy : LinkPolicy) (mode : BuildMode) :
    ((∃ artifact input, (derive plan f policy mode).result =
        .error (.inputOutsideProject artifact input)) ↔
      ∃ input, HasInput plan input ∧ (input.1.module.pathOf input.2).IsOutside) ∧
    (∀ artifact input, (derive plan f policy mode).result =
        .error (.inputOutsideProject artifact input) ↔
      ∃ file, firstOutside? plan = some (file, input) ∧ artifact = file.toString) ∧
    ∀ g, (derive plan f policy mode).result = .ok g → InputsWired plan f g := by
  refine ⟨?_, fun artifact input => inputOutsideProject_iff, fun g h => inputsWired_derive h⟩
  simp only [inputOutsideProject_iff]
  constructor
  · rintro ⟨_, input, file, hfirst, rfl⟩
    have houtside := List.find?_some hfirst
    exact ⟨(file, input), mem_flatMap_ruleInputs.mp (List.mem_of_find?_eq_some hfirst),
      of_decide_eq_true houtside⟩
  · rintro ⟨input, hinput, houtside⟩
    have hsome : (firstOutside? plan).isSome := List.find?_isSome.mpr
      ⟨input, mem_flatMap_ruleInputs.mpr hinput, decide_eq_true houtside⟩
    obtain ⟨⟨file, first⟩, hfirst⟩ := Option.isSome_iff_exists.mp hsome
    exact ⟨_, first, file, hfirst, rfl⟩

/-! ## An input outside, and one inside -/

/-- Two generated files, each made from the other, and one of them from a file outside too. -/
def straySeedPlan : Plan where
  project := "demo"
  modules := SortedMap.insert ∅ ⟨"gen"⟩ ()
  generated := (SortedMap.insert ∅ ⟨⟨"gen"⟩, "a.txt"⟩ (some ⟨["make-a"], ["b.txt"]⟩)).insert
    ⟨⟨"gen"⟩, "b.txt"⟩ (some ⟨["make-b"], ["a.txt", "../../seed.txt"]⟩)

/-- The input outside is answered, and not the cycle; the second of two stages needs the first. -/
theorem ruleInputs_exact_stages :
    (derive straySeedPlan {} .everyLibrary .project).result =
        .error (.inputOutsideProject "gen/b.txt" "../../seed.txt") ∧
      (derive twoStagesPlan {} .everyLibrary (.standalone ⟨"gen"⟩)).result = .ok twoStages ∧
      twoStages.NeedsExactly 6 [⟨"gen/a.txt"⟩] := by
  have hfirst : firstOutside? straySeedPlan = some (⟨⟨"gen"⟩, "b.txt"⟩, "../../seed.txt") := by
    decide
  obtain ⟨-, hstray, -⟩ := ruleInputs_exact straySeedPlan {} .everyLibrary .project
  obtain ⟨-, -, hwired⟩ :=
    ruleInputs_exact twoStagesPlan {} .everyLibrary (.standalone ⟨"gen"⟩)
  refine ⟨(hstray _ _).mpr ⟨_, hfirst, rfl⟩, derive_twoStages, ?_⟩
  have howns : twoStagesPlan.OwnsPath {} ⟨⟨"gen"⟩, "b.txt"⟩ := ⟨by decide, by decide⟩
  obtain ⟨n, paths, hnode, -, hpaths, hneeds⟩ := (hwired twoStages derive_twoStages).needs
    ⟨⟨"gen"⟩, "b.txt"⟩ ⟨["make-b"], ["a.txt"]⟩ (by rfl) howns
  obtain rfl : 6 = n := (hnode 6).mp (by rfl)
  obtain rfl : [⟨"gen/a.txt"⟩] = paths := by
    refine List.map_injective_iff.mpr (Option.some_injective _) (Eq.trans ?_ hpaths)
    rfl
  exact hneeds

end ArtifactGraph

end ModularBuild
