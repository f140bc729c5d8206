import ModularBuild.Proofs.Graph.Insertions
import ModularBuild.Proofs.Graph.Producers
import ModularBuild.Proofs.Graph.Shorthands

/-!
# Test programs stay out of default builds

What is made for a test program alone is secluded: its object, its executable, the aggregate of the
tests, and the shorthand names. Secluded nodes are needed by secluded nodes only (`Sealed`). The
programs that are no tests are added before the tests are, so that no link finds a test's file
(`joins_plainStage`); the edges that are added with the tests leave secluded nodes
(`joins_ofDeclarations`); and the inputs of rules, which are wired last, are no test's files by
assumption. The other aggregates therefore reach no test (`testPrograms_apart`).
-/

namespace ModularBuild.ArtifactGraph

variable {g g' g'' : ArtifactGraph} {f : FileNames} {plan : Plan} {policy : LinkPolicy}
  {mode : BuildMode} {a b d n : NodeId} {x : Artifact} {action : Action} {A : Artifact → Prop}
  {E : NodeKind → Prop}

/-! ## Joining artifacts to a graph -/

/-- A graph grows by nodes of artifacts of one class, where executables are made by their nodes, and
by edges that leave nodes of another class and lead to files. -/
structure Joins (A : Artifact → Prop) (E : NodeKind → Prop) (g g' : ArtifactGraph) : Prop where
  grows : Grows g g'
  artifacts : ∀ n, g.nodes.size ≤ n → n < g'.nodes.size →
    ∃ x, (g'.node n).kind = .artifact x ∧ A x ∧
      (x.kind = .executable → (g'.node n).action.producesOutput)
  edges : ∀ n d, g'.Needs n d → g.Needs n d ∨ E (g'.node n).kind ∧ (g'.node d).path ≠ none

theorem Joins.refl : Joins A E g g :=
  ⟨.refl, fun _ hn hn' => absurd hn' (Nat.not_lt_of_le hn), fun _ _ h => .inl h⟩

theorem Joins.trans (hg : Grows initial g) (h : Joins A E g g') (h' : Joins A E g' g'') :
    Joins A E g g'' where
  grows := h.grows.trans h'.grows
  artifacts n hn hn'' := by
    by_cases hn' : n < g'.nodes.size
    · rw [h'.grows.node_eq hn']
      exact h.artifacts n hn hn'
    · exact h'.artifacts n (Nat.le_of_not_lt hn') hn''
  edges n d hneeds := by
    rcases h'.edges n d hneeds with hneeds | hnew
    · obtain ⟨hn, hd⟩ := (hg.trans h.grows).wellFormed_of_initial.edgesWithin n d hneeds
      rw [h'.grows.node_eq hn, h'.grows.node_eq hd]
      exact h.edges n d hneeds
    · exact .inr hnew

theorem Joins.mono {A' : Artifact → Prop} {E' : NodeKind → Prop} (h : Joins A E g g')
    (hA : ∀ x, A x → A' x) (hE : ∀ kind, E kind → E' kind) : Joins A' E' g g' where
  grows := h.grows
  artifacts n hn hn' := by
    obtain ⟨x, hkind, hx, hmade⟩ := h.artifacts n hn hn'
    exact ⟨x, hkind, hA x hx, hmade⟩
  edges n d hneeds := (h.edges n d hneeds).imp_right fun hnew => ⟨hE _ hnew.1, hnew.2⟩

theorem joins_addArtifact (hx : A x) (haction : action ≠ .phony)
    (hmade : x.kind = .executable → action.producesOutput) :
    Joins A E g (g.addArtifact f x action).1 where
  grows := (gained_addArtifact f x haction).grows
  artifacts n hn hn' := by
    rw [addArtifact, size_addNode] at hn'
    rw [addArtifact, Nat.le_antisymm (Nat.le_of_lt_succ hn') hn, node_addNode_self]
    exact ⟨x, rfl, hx, hmade⟩
  edges _ _ h := .inl h

theorem joins_addSource (hx : A x) (hkind : x.kind ≠ .executable) :
    Joins A E g (g.addSource f x).1 := by
  unfold addSource
  split
  · exact .refl
  · exact joins_addArtifact hx (by decide) fun h => absurd h hkind

theorem joins_addEdge (ha : a < g.nodes.size) (hE : E (g.node a).kind)
    (hb : (g.node b).path ≠ none) : Joins A E g (g.addEdge a b) where
  grows := Grows.refl.edge ha (lt_size_of_path_ne_none hb)
  artifacts n hn hn' := absurd (nodes_addEdge ▸ hn') (Nat.not_lt_of_le hn)
  edges n d hneeds := by
    rw [node_addEdge, node_addEdge]
    rcases needs_addEdge.mp hneeds with ⟨rfl, rfl⟩ | hneeds
    · exact .inr ⟨hE, hb⟩
    · exact .inl hneeds

theorem joins_linkPaths (hg : Grows initial g) (hn : n < g.nodes.size) (hE : E (g.node n).kind)
    (paths : List Path) : Joins A E g (g.linkPaths n paths) := by
  unfold linkPaths
  induction paths generalizing g with
  | nil => exact .refl
  | cons p paths ih =>
    rw [List.foldl_cons]
    cases hfind : g.findPath? p with
    | none => exact ih hg hn hE
    | some m =>
      obtain ⟨-, q, hq, -⟩ := hg.wellFormed_of_initial.byPath p m hfind
      have hedge : Joins A E g (g.addEdge n m) := joins_addEdge hn hE (by simp [hq])
      exact hedge.trans hg (ih (hg.trans hedge.grows) (by simpa using hn) (by simpa using hE))

theorem joins_linkAggregates (hg : Grows initial g) (hn : (g.node n).path ≠ none)
    {as : List Aggregate} (hE : ∀ y ∈ as, E (.aggregate y)) :
    Joins A E g (g.linkAggregates as n) := by
  unfold linkAggregates
  induction as generalizing g with
  | nil => exact .refl
  | cons y as ih =>
    obtain ⟨hy, hE⟩ := List.forall_mem_cons.mp hE
    have hedge : Joins A E g (g.addEdge (aggregate y) n) :=
      joins_addEdge (hg.wellFormed_of_initial.aggregates y) (hg.node_aggregate y ▸ hy) hn
    exact hedge.trans hg (ih (hg.trans hedge.grows) (by simpa using hn) hE)

theorem joins_foldl {α : Type} {add : ArtifactGraph → α → ArtifactGraph} {l : List α}
    (hadd : ∀ g, ∀ y ∈ l, Grows initial g → Joins A E g (add g y)) (hg : Grows initial g) :
    Joins A E g (l.foldl add g) := by
  induction l generalizing g with
  | nil => exact .refl
  | cons y l ih =>
    have h := hadd g y List.mem_cons_self hg
    exact h.trans hg (ih (fun g y hy => hadd g y (List.mem_cons_of_mem _ hy)) (hg.trans h.grows))

/-! ## The parts of a plan -/

theorem joins_addObject (hg : Grows initial g) {unit : QualifiedName} {lang : Language}
    (hsource : A (.ofName (.source lang) unit)) (hobject : A (.ofName .object unit))
    (hE : E (.artifact (.ofName .object unit))) : Joins A E g (g.addObject f unit lang).1 := by
  have hadd : Joins A E g (g.addSource f (.ofName (.source lang) unit)).1 :=
    joins_addSource hsource (by simp [Artifact.ofName])
  have hpath : (g.addSource f (.ofName (.source lang) unit)).1.HasPath
      (g.addSource f (.ofName (.source lang) unit)).2 (f.path (.ofName (.source lang) unit)) :=
    hasPath_addSource hg.wellFormed_of_initial _
  unfold addObject
  dsimp only
  generalize g.addSource f (.ofName (.source lang) unit) = r at hadd hpath ⊢
  obtain ⟨g₁, s⟩ := r
  have hnode : Joins A E g₁ (g₁.addArtifact f (.ofName .object unit)
      (.compile lang (f.path (.ofName (.source lang) unit)))).1 :=
    joins_addArtifact hobject (by simp) (by simp [Artifact.ofName])
  have hedge : Joins A E (g₁.addArtifact f (.ofName .object unit)
      (.compile lang (f.path (.ofName (.source lang) unit)))).1 _ :=
    joins_addEdge (gained_addArtifact f _ (by simp)).2 (by rw [node_addArtifact]; exact hE)
      (b := s) (by
        obtain ⟨q, hq, -⟩ := hnode.grows.hasPath hpath
        simp [hq])
  exact (hadd.trans hg hnode).trans hg hedge

theorem joins_addProgram (hg : Grows initial g) {program : ProgramSpec}
    (hsource : A (.ofName (.source program.lang) program.name))
    (hobject : A (.ofName .object program.name))
    (hexe : A (.ofName .executable program.name))
    (hE : E (.artifact (.ofName .object program.name)))
    (hE' : E (.artifact (.ofName .executable program.name)))
    (haggregates : ∀ y ∈ if program.isTest then [Aggregate.testPrograms] else [.programs, .all],
      E (.aggregate y)) : Joins A E g (addProgram plan f policy g program) := by
  have hadd : Joins A E g (g.addObject f program.name program.lang).1 :=
    joins_addObject hg hsource hobject hE
  unfold addProgram
  generalize g.addObject f program.name program.lang = r at hadd ⊢
  obtain ⟨g₁, o⟩ := r
  dsimp only
  generalize [f.path (.ofName .object program.name)] = objects,
    (policy program.name plan).map f.path = archives
  have hg₁ := hg.trans hadd.grows
  have hlink : Joins A E g₁ (g₁.addArtifact f (.ofName .executable program.name)
      (.linkExe program.lang objects archives)).1 :=
    joins_addArtifact hexe (by simp) fun _ => rfl
  have hnode := node_addArtifact (g := g₁) (f := f) (.ofName .executable program.name)
    (.linkExe program.lang objects archives)
  have hn : (g₁.addArtifact f (.ofName .executable program.name)
      (.linkExe program.lang objects archives)).2 < _ :=
    (gained_addArtifact f _ (by simp)).2
  generalize g₁.addArtifact f (.ofName .executable program.name)
    (.linkExe program.lang objects archives) = r at hlink hnode hn ⊢
  obtain ⟨g₂, n⟩ := r
  have hg₂ := hg₁.trans hlink.grows
  have hobjects : Joins A E g₂ (g₂.linkPaths n objects) :=
    joins_linkPaths hg₂ hn (hnode ▸ hE') objects
  have harchives : Joins A E (g₂.linkPaths n objects)
      ((g₂.linkPaths n objects).linkPaths n archives) :=
    joins_linkPaths (hg₂.trans hobjects.grows) (by simpa using hn)
      (by rw [hobjects.grows.node_eq hn, hnode]; exact hE') archives
  have hlinks := hobjects.trans hg₂ harchives
  have hgroups : Joins A E ((g₂.linkPaths n objects).linkPaths n archives) _ :=
    joins_linkAggregates (hg₂.trans hlinks.grows) (n := n)
      (by rw [hlinks.grows.node_eq hn, hnode]; simp) haggregates
  exact hadd.trans hg (hlink.trans hg₁ (hlinks.trans hg₂ hgroups))

theorem joins_addGenerated (hg : Grows initial g) {entry : QualifiedName × Option GeneratedRule}
    (hfile : A (.ofName .generated entry.1)) (haggregates : ∀ y, E (.aggregate y)) :
    Joins A E g (addGenerated f g entry) := by
  obtain ⟨action, haction, -, heq⟩ := addGenerated_eq f g entry
  have hnode : Joins A E g (g.addArtifact f (.ofName .generated entry.1) action).1 :=
    joins_addArtifact hfile haction (by simp [Artifact.ofName])
  rw [heq]
  exact hnode.trans hg (joins_linkAggregates (hg.trans hnode.grows)
    (by rw [node_addArtifact]; simp) fun y _ => haggregates y)

theorem joins_addUnit (hg : Grows initial g) {entry : QualifiedName × Bool}
    (hunit : ∀ kind, kind ≠ .executable → A (.ofName kind entry.1))
    (hE : E (.artifact (.ofName .object entry.1))) : Joins A E g (addUnit f g entry) := by
  obtain ⟨unit, hasHeader⟩ := entry
  have hobject : Joins A E g (g.addObject f unit .c).1 :=
    joins_addObject hg (hunit _ (by simp)) (hunit _ (by simp)) hE
  have ho := (gained_addObject hg.wellFormed_of_initial f unit .c).2
  have hnode := node_addObject (g := g) (f := f) unit .c
  unfold addUnit
  dsimp only
  generalize g.addObject f unit .c = r at hobject ho hnode ⊢
  obtain ⟨g₁, o⟩ := r
  cases hasHeader with
  | false => exact hobject
  | true =>
    have hg₁ := hg.trans hobject.grows
    have hheader : Joins A E g₁ (g₁.addSource f (.ofName .header unit)).1 :=
      joins_addSource (hunit _ (by simp)) (by simp [Artifact.ofName])
    obtain ⟨q, hq, -⟩ := hasPath_addSource (f := f) hg₁.wellFormed_of_initial (.ofName .header unit)
    have hkind : E ((g₁.addSource f (.ofName .header unit)).1.node o).kind := by
      rw [hheader.grows.node_eq ho, hnode]
      exact hE
    exact (hobject.trans hg hheader).trans hg
      (joins_addEdge (Nat.lt_of_lt_of_le ho hheader.grows.size_le) hkind (by simp [hq]))

theorem joins_addLibraryArtifact (hg : Grows initial g) {objects : List Path} (hx : A x)
    (hkind : x.kind ≠ .executable) (haction : action ≠ .phony) (hE : E (.artifact x))
    (haggregates : ∀ y, E (.aggregate y)) :
    Joins A E g (addLibraryArtifact f objects x action g) := by
  have hnode : Joins A E g (g.addArtifact f x action).1 :=
    joins_addArtifact hx haction fun h => absurd h hkind
  have hg₁ := hg.trans hnode.grows
  have hn := (gained_addArtifact (g := g) f x haction).2
  have hlink : Joins A E (g.addArtifact f x action).1
      ((g.addArtifact f x action).1.linkPaths (g.addArtifact f x action).2 objects) :=
    joins_linkPaths hg₁ hn (by rw [node_addArtifact]; exact hE) objects
  have hfile : (((g.addArtifact f x action).1.linkPaths (g.addArtifact f x action).2
      objects).node (g.addArtifact f x action).2).path ≠ none := by
    rw [hlink.grows.node_eq hn, node_addArtifact]
    simp
  exact (hnode.trans hg hlink).trans hg
    (joins_linkAggregates (hg₁.trans hlink.grows) hfile fun y _ => haggregates y)

theorem joins_addLibrary (hg : Grows initial g) {library : Library}
    (harchive : A (archiveOf library)) (hshared : A (sharedObjectOf library))
    (hE : E (.artifact (archiveOf library))) (hE' : E (.artifact (sharedObjectOf library)))
    (haggregates : ∀ y, E (.aggregate y)) :
    Joins A E g (addLibrary plan f g library) := by
  have hnode : Joins A E g (g.addLibraryArtifact f (libraryObjects plan f library)
      (archiveOf library) (.archive (libraryObjects plan f library))) :=
    joins_addLibraryArtifact hg harchive (by simp [archiveOf]) (by simp) hE haggregates
  unfold addLibrary
  split
  · exact hnode.trans hg (joins_addLibraryArtifact (hg.trans hnode.grows) hshared
      (by simp [sharedObjectOf]) (by simp) hE' haggregates)
  · exact hnode

/-- Any node may need others. -/
abbrev Anything : NodeKind → Prop := fun _ => True

/-- Whatever is declared, edges leave aggregates and outputs, and lead to files. -/
theorem joins_declarations (haggregates : ∀ y, E (.aggregate y))
    (houtputs : ∀ x : Artifact, x.kind.isOutput → E (.artifact x)) :
    Joins (fun _ => True) E initial (ofDeclarations plan f policy) := by
  have hgenerated : Joins (fun _ => True) E initial (generatedStage plan f) :=
    joins_foldl (fun _ _ _ hg => joins_addGenerated hg trivial haggregates) .refl
  have hunits : Joins (fun _ => True) E (generatedStage plan f) (unitStage plan f) :=
    joins_foldl (fun _ _ _ hg => joins_addUnit hg (fun _ _ => trivial) (houtputs _ rfl))
      extends_generatedStage.grows
  have hobjects : Joins (fun _ => True) E (unitStage plan f) (objectStage plan f) :=
    joins_foldl (fun _ _ _ hg => joins_addObject hg trivial trivial (houtputs _ rfl))
      (extends_generatedStage.trans extends_unitStage).grows
  have hlibraries : Joins (fun _ => True) E (objectStage plan f) (libraryStage plan f) :=
    joins_foldl (fun _ _ _ hg => joins_addLibrary hg trivial trivial (houtputs _ rfl)
      (houtputs _ rfl) haggregates) extends_initial_objectStage.grows
  have hprograms : Joins (fun _ => True) E (libraryStage plan f) (ofDeclarations plan f policy) :=
    joins_foldl (fun _ _ _ hg => joins_addProgram hg trivial trivial trivial (houtputs _ rfl)
      (houtputs _ rfl) fun y _ => haggregates y) extends_initial_libraryStage.grows
  exact (((hgenerated.trans .refl hunits).trans .refl hobjects).trans .refl hlibraries).trans .refl
    hprograms

/-! ## Tests apart -/

def IsOfTest (plan : Plan) (x : Artifact) : Prop :=
  ∃ q ∈ plan.testPrograms.keys, x = .ofName .object q ∨ x = .ofName .executable q

theorem not_isOfTest_of_kind (hobject : x.kind ≠ .object) (hexe : x.kind ≠ .executable) :
    ¬ IsOfTest plan x := by
  rintro ⟨q, -, rfl | rfl⟩
  · exact hobject rfl
  · exact hexe rfl

theorem not_isOfTest_of_mem_names (hplan : plan.Distinct) (declared : DeclKind)
    (hdeclared : declared.producesObject) (hne : declared ≠ .testProgram) {q : QualifiedName}
    (hq : q ∈ plan.names declared) (kind : ArtifactKind) : ¬ IsOfTest plan (.ofName kind q) := by
  have hapart : q ∉ plan.testPrograms.keys := fun htest =>
    have htests : DeclKind.testProgram.producesObject := rfl
    hplan.disjoint_names hdeclared htests hne hq htest
  have hsame : ∀ {kind' : ArtifactKind} {q' : QualifiedName},
      Artifact.ofName kind q = .ofName kind' q' → q = q' := by
    rintro kind' ⟨module, name⟩ heq
    cases heq
    rfl
  rintro ⟨q', htest, heq | heq⟩ <;> exact hapart (hsame heq ▸ htest)

/-- The programs that are no tests, in the order they are added. -/
def plainSpecs (plan : Plan) : List ProgramSpec :=
  plan.programs.keys.map (⟨·, .c, false⟩) ++ plan.fortranPrograms.keys.map (⟨·, .fortran, false⟩)

def plainStage (plan : Plan) (f : FileNames) (policy : LinkPolicy) : ArtifactGraph :=
  (plainSpecs plan).foldl (addProgram plan f policy) (libraryStage plan f)

theorem ofDeclarations_eq : ofDeclarations plan f policy =
    (plan.testPrograms.keys.map (⟨·, .c, true⟩)).foldl (addProgram plan f policy)
      (plainStage plan f policy) :=
  List.foldl_append

theorem exists_names_of_mem_plainSpecs {program : ProgramSpec} (h : program ∈ plainSpecs plan) :
    program.isTest = false ∧ ∃ declared : DeclKind, declared.producesObject ∧
      declared ≠ .testProgram ∧ program.name ∈ plan.names declared := by
  rcases List.mem_append.mp h with h | h <;> obtain ⟨q, hq, rfl⟩ := List.mem_map.mp h
  · exact ⟨rfl, .program, rfl, by decide, hq⟩
  · exact ⟨rfl, .fortranProgram, rfl, by decide, hq⟩

theorem joins_plainStage (hplan : plan.Distinct) :
    Joins (¬ IsOfTest plan ·) Anything initial (plainStage plan f policy) := by
  have hgenerated : Joins (¬ IsOfTest plan ·) Anything initial (generatedStage plan f) :=
    joins_foldl (fun _ _ _ hg =>
      joins_addGenerated hg (not_isOfTest_of_kind (by simp [Artifact.ofName])
        (by simp [Artifact.ofName])) fun _ => trivial) .refl
  have hunits : Joins (¬ IsOfTest plan ·) Anything (generatedStage plan f) (unitStage plan f) :=
    joins_foldl (fun _ entry hentry hg => joins_addUnit hg (fun kind _ =>
      not_isOfTest_of_mem_names hplan .compiledUnit rfl (by decide)
        (List.mem_map_of_mem hentry) kind) trivial) extends_generatedStage.grows
  have hobjects : Joins (¬ IsOfTest plan ·) Anything (unitStage plan f) (objectStage plan f) :=
    joins_foldl (fun _ unit hunit hg => by
      have hnot := not_isOfTest_of_mem_names hplan .fortranUnit rfl (by decide) hunit
      exact joins_addObject hg (hnot _) (hnot _) trivial)
      (extends_generatedStage.trans extends_unitStage).grows
  have hlibraries : Joins (¬ IsOfTest plan ·) Anything (objectStage plan f)
      (libraryStage plan f) :=
    joins_foldl (fun _ library _ hg => joins_addLibrary hg
      (not_isOfTest_of_kind (by simp [archiveOf]) (by simp [archiveOf]))
      (not_isOfTest_of_kind (by simp [sharedObjectOf]) (by simp [sharedObjectOf]))
      trivial trivial fun _ => trivial)
      extends_initial_objectStage.grows
  have hprograms : Joins (¬ IsOfTest plan ·) Anything (libraryStage plan f)
      (plainStage plan f policy) :=
    joins_foldl (fun _ program hprogram hg => by
      obtain ⟨-, declared, hobject, hne, hmem⟩ := exists_names_of_mem_plainSpecs hprogram
      have hnot := not_isOfTest_of_mem_names hplan declared hobject hne hmem
      exact joins_addProgram hg (hnot _) (hnot _) (hnot _) trivial trivial fun _ _ => trivial)
      extends_initial_libraryStage.grows
  exact (((hgenerated.trans .refl hunits).trans .refl hobjects).trans .refl hlibraries).trans .refl
    hprograms

/-! ## Secluded nodes -/

/-- The nodes that are there for tests; and shorthand names, which stand for tests as well and which
nothing needs. -/
def Secluded (plan : Plan) : NodeKind → Prop
  | .artifact x => IsOfTest plan x
  | .aggregate y => y = .testPrograms
  | .shorthand _ => True
  | .file _ => False

def Sealed (plan : Plan) (g : ArtifactGraph) : Prop :=
  ∀ n d, g.Needs n d → Secluded plan (g.node d).kind → Secluded plan (g.node n).kind

theorem Sealed.reaches (h : Sealed plan g) (hreach : g.Reaches a b)
    (hb : Secluded plan (g.node b).kind) : Secluded plan (g.node a).kind := by
  induction hreach using Relation.ReflTransGen.head_induction_on with
  | refl => exact hb
  | head hneeds _ ih => exact h _ _ hneeds ih

theorem sealed_plainStage (hplan : plan.Distinct) : Sealed plan (plainStage plan f policy) := by
  have hjoins : Joins (¬ IsOfTest plan ·) Anything initial (plainStage plan f policy) :=
    joins_plainStage hplan
  intro n d hneeds hd
  rcases hjoins.edges n d hneeds with hneeds | ⟨-, hpath⟩
  · cases hneeds
  -- What is needed is a file, hence no aggregate, and so far no file is there for a test.
  by_cases hinitial : d < initial.nodes.size
  · obtain ⟨y, hy⟩ := hjoins.grows.exists_aggregate hinitial
    exact absurd (congrArg Node.path hy) hpath
  · have hlt := (hjoins.grows.wellFormed_of_initial.edgesWithin n d hneeds).2
    obtain ⟨x, hkind, hx, -⟩ := hjoins.artifacts d (Nat.le_of_not_lt hinitial) hlt
    rw [hkind] at hd
    exact absurd hd hx

theorem grows_plainStage : Grows initial (plainStage plan f policy) :=
  extends_initial_libraryStage.grows.trans (grows_foldl
    (fun _ program hg => grows_addProgram hg plan f policy program)
    extends_initial_libraryStage.grows.wellFormed_of_initial _)

theorem joins_ofDeclarations : Joins (fun _ => True) (Secluded plan)
    (plainStage plan f policy) (ofDeclarations plan f policy) := by
  rw [ofDeclarations_eq]
  refine joins_foldl (fun g program hprogram hg => ?_) grows_plainStage
  obtain ⟨q, hq, rfl⟩ := List.mem_map.mp hprogram
  exact joins_addProgram hg trivial trivial trivial ⟨q, hq, .inl rfl⟩ ⟨q, hq, .inr rfl⟩
    fun y hy => List.mem_singleton.mp hy

/-- A graph stays sealed if no edge is added from a node that is not secluded to one that is. -/
theorem Sealed.grows (h : Sealed plan g) (hg : g.WellFormed) (hgrows : Grows g g')
    (hnew : ∀ n d, g'.Needs n d → g.Needs n d ∨
      (Secluded plan (g'.node d).kind → Secluded plan (g'.node n).kind)) : Sealed plan g' := by
  intro n d hneeds hd
  rcases hnew n d hneeds with hold | hnew
  · obtain ⟨hnlt, hdlt⟩ := hg.edgesWithin n d hold
    rw [hgrows.node_eq hdlt] at hd
    rw [hgrows.node_eq hnlt]
    exact h n d hold hd
  · exact hnew hd

theorem sealed_ofDeclarations (hplan : plan.Distinct) :
    Sealed plan (ofDeclarations plan f policy) :=
  (sealed_plainStage hplan).grows grows_plainStage.wellFormed_of_initial joins_ofDeclarations.grows
    fun n d hneeds => (joins_ofDeclarations.edges n d hneeds).imp_right fun hn _ => hn.1

/-! ## Rule inputs -/

def InputsAvoid (plan : Plan) (f : FileNames) (x : Artifact) : Prop :=
  ∀ input p, HasInput plan input → inputPath? input.1.module input.2 = some p →
    ¬ (f.path x).Same p

/-- A path leads to no secluded node, unless it is that of a test's file. -/
theorem not_secluded_of_findPath? {p : Path} (hwith : withInputs plan f policy = .ok g)
    (hp : ∀ x, IsOfTest plan x → ¬ (f.path x).Same p) (hfind : g.findPath? p = some d) :
    ¬ Secluded plan (g.node d).kind := by
  have hgrows := grows_withInputs hwith
  obtain ⟨hd, q, hq, hsame⟩ := hgrows.wellFormed_of_initial.byPath p d hfind
  cases hkind : (g.node d).kind with
  | artifact x =>
    intro hx
    have hsuits := (wires_withInputs hwith).settles.suits (fun _ => suits_ofDeclarations) d hd
    rw [(hsuits x hkind).1] at hq
    cases hq
    exact hp x hx hsame.symm
  | aggregate y =>
    have hindexed : Indexed f g := (inserts_withInputs hwith).indexed indexed_initial
    obtain ⟨z, hz⟩ := hgrows.exists_aggregate (hindexed.aggregates d y hkind)
    rw [hz] at hq
    cases hq
  | shorthand name => exact absurd hkind ((nameless_withInputs hwith).kinds d name)
  | file path => exact id

theorem sealed_withInputs (hplan : plan.Distinct) (hwith : withInputs plan f policy = .ok g)
    (hinputs : ∀ x, IsOfTest plan x → InputsAvoid plan f x) : Sealed plan g := by
  have hwires := wires_withInputs hwith
  refine (sealed_ofDeclarations hplan).grows extends_ofDeclarations.grows.wellFormed_of_initial
    hwires.settles.grows fun n d hneeds => ?_
  refine (hwires.reasons n d hneeds).imp_right fun ⟨input, hinput, p, hp, _, hfind⟩ hd => ?_
  exact absurd hd (not_secluded_of_findPath? hwith (fun x hx =>
    hinputs x hx input p (mem_flatMap_ruleInputs.mp hinput) hp) hfind)

/-! ## Shorthand names -/

theorem Sealed.addShorthand (h : Sealed plan g) (hg : g.WellFormed) {name : String}
    {target : NodeId} (htarget : target < g.nodes.size) :
    Sealed plan (g.addShorthand name target) := by
  refine h.grows hg (grows_addShorthand name htarget) fun n d hneeds => ?_
  rcases needs_addShorthand.mp hneeds with ⟨rfl, -⟩ | hneeds
  · refine .inr fun _ => ?_
    rw [node_addShorthand_self]
    trivial
  · exact .inl hneeds

theorem Sealed.addShorthands (h : Sealed plan g) (hg : g.WellFormed)
    (hadd : (addShorthands f g).result = .ok g') : Sealed plan g' := by
  obtain ⟨names, hwanted, rfl⟩ := addShorthands_eq_ok hadd
  have hnames := fun s hs => target_lt_of_mem_wantedShorthands (hwanted s hs)
  clear hadd hwanted
  induction names generalizing g with
  | nil => exact h
  | cons s names ih =>
    obtain ⟨hs, hnames⟩ := List.forall_mem_cons.mp hnames
    have hgrows := grows_addShorthand s.name hs
    exact ih (h.addShorthand hg hs) (hgrows.wellFormed hg) fun s' hs' =>
      Nat.lt_of_lt_of_le (hnames s' hs') hgrows.size_le

/-! ## Derived graphs -/

theorem sealed_derive (hplan : plan.Distinct)
    (hinputs : ∀ x, IsOfTest plan x → InputsAvoid plan f x)
    (h : (derive plan f policy mode).result = .ok g) : Sealed plan g := by
  obtain ⟨g₀, hwith, hnamed, -⟩ := derive_eq_ok_iff.mp h
  have hsealed := sealed_withInputs hplan hwith hinputs
  split at hnamed
  · exact hsealed.addShorthands (grows_withInputs hwith).wellFormed_of_initial hnamed
  · cases hnamed
    exact hsealed

/-! ## The executables of tests -/

theorem needs_linkAggregates_iff {as : List Aggregate} {c : NodeId} :
    (g.linkAggregates as n).Needs c d ↔ g.Needs c d ∨ d = n ∧ ∃ y ∈ as, c = aggregate y := by
  unfold linkAggregates
  induction as generalizing g with
  | nil => simp
  | cons z as ih =>
    rw [List.foldl_cons, ih, needs_addEdge]
    simp only [List.mem_cons, exists_eq_or_imp]
    tauto

theorem exists_needs_addProgram (plan : Plan) (f : FileNames) (policy : LinkPolicy)
    (g : ArtifactGraph) (program : ProgramSpec) :
    ∃ n, ((addProgram plan f policy g program).node n).kind =
        .artifact (.ofName .executable program.name) ∧
      ∀ y ∈ if program.isTest then [Aggregate.testPrograms] else [.programs, .all],
        (addProgram plan f policy g program).Needs (aggregate y) n := by
  unfold addProgram
  generalize g.addObject f program.name program.lang = r
  obtain ⟨g₁, o⟩ := r
  dsimp only
  generalize [f.path (.ofName .object program.name)] = objects,
    (policy program.name plan).map f.path = archives
  refine ⟨_, ?_, fun y hy => needs_linkAggregates_iff.mpr (.inr ⟨rfl, y, hy, rfl⟩)⟩
  have hnode := node_addArtifact (g := g₁) (f := f) (.ofName .executable program.name)
    (.linkExe program.lang objects archives)
  generalize g₁.addArtifact f (.ofName .executable program.name)
    (.linkExe program.lang objects archives) = r at hnode ⊢
  rw [ArtifactGraph.node, nodes_linkAggregates, nodes_linkPaths, nodes_linkPaths]
  exact congrArg Node.kind hnode

theorem exists_needs_test (h : (derive plan f policy mode).result = .ok g) {q : QualifiedName}
    (hq : q ∈ plan.testPrograms.keys) : ∃ n, (g.node n).kind = .artifact (.ofName .executable q) ∧
      g.Needs (aggregate .testPrograms) n := by
  obtain ⟨g₀, hwires, hsettles, -⟩ := exists_wires_of_derive h
  obtain ⟨g₁, -, hrest⟩ := exists_step_of_mem (List.mem_map_of_mem (f := (⟨·, .c, true⟩)) hq)
    (fun g program _ hg => grows_addProgram hg.wellFormed_of_initial plan f policy program)
    grows_plainStage
  rw [← ofDeclarations_eq] at hrest
  have hgrows := hrest.trans (hwires.settles.trans hsettles).grows
  obtain ⟨n, hkind, hneeds⟩ := exists_needs_addProgram plan f policy g₁ ⟨q, .c, true⟩
  have hn : n < (addProgram plan f policy g₁ ⟨q, .c, true⟩).nodes.size :=
    lt_size_of_ne_default fun hdefault => by rw [hdefault] at hkind; cases hkind
  exact ⟨n, hgrows.node_eq hn ▸ hkind, hgrows.needs (hneeds _ (List.mem_singleton_self _))⟩

theorem output_of_executable (h : (derive plan f policy mode).result = .ok g)
    {q : QualifiedName} (hkind : (g.node n).kind = .artifact (.ofName .executable q)) :
    g.Output n (f.path (.ofName .executable q)) := by
  have hlt : n < g.nodes.size :=
    lt_size_of_ne_default fun hdefault => by rw [hdefault] at hkind; cases hkind
  refine ⟨?_, (suits_derive h hlt _ hkind).1⟩
  obtain ⟨g₀, hwires, hsettles, -⟩ := exists_wires_of_derive h
  have hadded := hwires.settles.trans hsettles
  have hdeclared := hadded.artifacts n _ hlt hkind
  rw [hadded.grows.node_eq hdeclared] at hkind ⊢
  have hjoins : Joins (fun _ => True) Anything initial (ofDeclarations plan f policy) :=
    joins_declarations (fun _ => trivial) fun _ _ => trivial
  by_cases hinitial : n < initial.nodes.size
  · obtain ⟨y, hy⟩ := hjoins.grows.exists_aggregate hinitial
    rw [hy] at hkind
    cases hkind
  · obtain ⟨x, hx, -, hmade⟩ := hjoins.artifacts n (Nat.le_of_not_lt hinitial) hdeclared
    cases hkind.symm.trans hx
    exact hmade rfl

/-- **Test programs stay out of default builds.** If no input of a rule names the object or the
executable of a test program, every test program has one node for its executable; the aggregate of
the tests needs that node directly, and the other aggregates do not reach it, whatever archives
programs are linked with and whether or not there are shorthand names. -/
theorem testPrograms_apart {project : String} {calls : List (ModulePath × Registry.Call)}
    {naming : LibraryNaming}
    (hplan : ((Registry.empty project).run calls).1.finalize naming = .ok plan)
    (hderive : (derive plan f policy mode).result = .ok g)
    (hinputs : ∀ x, IsOfTest plan x → InputsAvoid plan f x) :
    ∀ q ∈ plan.testPrograms.keys, ∃ n,
      (∀ m, (g.node m).kind = .artifact (.ofName .executable q) ↔ m = n) ∧
      g.Needs (aggregate .testPrograms) n ∧
      ∀ y, y ≠ .testPrograms → ¬ g.Reaches (aggregate y) n := by
  have hdistinct := Registry.distinct_of_finalize hplan
  intro q hq
  obtain ⟨n, hkind, hneeds⟩ := exists_needs_test hderive hq
  refine ⟨n, fun m => ⟨fun hm => ?_, fun hm => hm ▸ hkind⟩, hneeds, fun y hy hreach => hy ?_⟩
  · exact (makes_derive hderive).output_unique hdistinct.nodup_outputArtifacts
      (output_of_executable hderive hm) (output_of_executable hderive hkind)
      (hm.trans hkind.symm)
  · have htest : Secluded plan (g.node n).kind := hkind ▸ ⟨q, hq, .inr rfl⟩
    have hsecluded := (sealed_derive hdistinct hinputs hderive).reaches hreach htest
    rwa [(grows_derive hderive).node_aggregate] at hsecluded

/-! ## A program with a test -/

/-- A module with a program and a test, and a file that is made by running the program. -/
def testedPlan : Plan where
  project := "demo"
  modules := SortedMap.insert ∅ ⟨"m"⟩ ()
  programs := SortedMap.insert ∅ ⟨⟨"m"⟩, "main"⟩ ()
  testPrograms := SortedMap.insert ∅ ⟨⟨"m"⟩, "check"⟩ ()
  generated := SortedMap.insert ∅ ⟨⟨"m"⟩, "usage.txt"⟩ (some ⟨["./main", "--help"], ["main"]⟩)

def tested : ArtifactGraph :=
  (constructed testedPlan {} .everyLibrary .project).toOption.getD {}

theorem constructs_tested : Constructs testedPlan {} .everyLibrary .project tested
    [(14, 5), (13, 8), (12, 11), (5, 8), (3, 11), (11, 10), (10, 9), (0, 8), (2, 8), (8, 7), (7, 6),
      (0, 5), (4, 5)] 15 := constructs_of_computed ⟨by rfl, by rfl, by rfl⟩

theorem derive_tested : (derive testedPlan {} .everyLibrary .project).result = .ok tested :=
  constructs_tested.derive (by cbv)

/-- A build of everything runs the program for the generated file, and leaves the test alone. -/
theorem testPrograms_apart_tested :
    ((Registry.empty "demo").run [(⟨"m"⟩, .beginModule), (⟨"m"⟩, .declare .program ["main"]),
        (⟨"m"⟩, .declare .testProgram ["check"]),
        (⟨"m"⟩, .declareRule "usage.txt" ⟨["./main", "--help"], ["main"]⟩),
        (⟨"m"⟩, .endModule)]).1.finalize (BuildMode.project.naming "demo") = .ok testedPlan ∧
      (derive testedPlan {} .everyLibrary .project).result = .ok tested ∧
      (∀ x, IsOfTest testedPlan x → InputsAvoid testedPlan {} x) ∧
      ∃ n, (tested.node n).kind = .artifact ⟨.executable, ⟨"m"⟩, "check"⟩ ∧
        tested.Needs (aggregate .testPrograms) n ∧ ¬ tested.Reaches (aggregate .all) n := by
  have hplan : ((Registry.empty "demo").run [(⟨"m"⟩, .beginModule),
      (⟨"m"⟩, .declare .program ["main"]), (⟨"m"⟩, .declare .testProgram ["check"]),
      (⟨"m"⟩, .declareRule "usage.txt" ⟨["./main", "--help"], ["main"]⟩),
      (⟨"m"⟩, .endModule)]).1.finalize (BuildMode.project.naming "demo") = .ok testedPlan := by
    rfl
  have htests : testedPlan.testPrograms.keys = [⟨⟨"m"⟩, "check"⟩] := by rfl
  have hinputs : ∀ x, IsOfTest testedPlan x → InputsAvoid testedPlan {} x := by
    intro x hx input p hinput hp
    have hmem := mem_flatMap_ruleInputs.mpr hinput
    rw [show testedPlan.generated.entries.flatMap ruleInputs =
      [(⟨⟨"m"⟩, "usage.txt"⟩, "main")] from rfl, List.mem_singleton] at hmem
    cases hmem
    cases (show inputPath? ⟨"m"⟩ "main" = some ⟨"m/main"⟩ by rfl).symm.trans hp
    obtain ⟨q, hq, hx⟩ := hx
    rw [htests, List.mem_singleton] at hq
    cases hq
    rcases hx with rfl | rfl <;> decide
  obtain ⟨n, hkind, hneeds, hapart⟩ := testPrograms_apart hplan derive_tested hinputs
    ⟨⟨"m"⟩, "check"⟩ (by rw [htests]; exact List.mem_singleton_self _)
  exact ⟨hplan, derive_tested, hinputs, n, (hkind n).mpr rfl, hneeds, hapart .all (by decide)⟩

end ModularBuild.ArtifactGraph
