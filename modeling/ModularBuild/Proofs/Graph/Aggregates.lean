import ModularBuild.Proofs.Graph.TestPrograms

/-!
# What aggregates hold

An aggregate is filled while the parts of a plan are added, and by nothing else: `Gathers` says which
artifacts of a plan a graph has gained, and that the aggregates have gained the nodes of these as far
as they belong to them. The inputs of rules and the shorthand names add nothing to an aggregate. So
the direct dependencies of every aggregate are the nodes of its members (`aggregates_exact`), whatever
paths they have.
-/

namespace ModularBuild

namespace Plan

/-- The artifacts that an aggregate stands for. -/
def members (plan : Plan) : Aggregate → List Artifact
  | .generated => plan.generated.keys.map (.ofName .generated)
  | .libraries => plan.libraries.values.flatMap libraryArtifacts
  | .programs => plan.installedPrograms.map (.ofName .executable)
  | .testPrograms => plan.testPrograms.keys.map (.ofName .executable)
  | .all => plan.generated.keys.map (.ofName .generated) ++
      plan.libraries.values.flatMap libraryArtifacts ++
      plan.installedPrograms.map (.ofName .executable)

/-- All of them, in the order they are added. -/
def memberArtifacts (plan : Plan) : List Artifact :=
  plan.generated.keys.map (.ofName .generated) ++
    plan.libraries.values.flatMap libraryArtifacts ++
    plan.programNames.map (.ofName .executable)

theorem programNames_eq (plan : Plan) :
    plan.programNames = plan.installedPrograms ++ plan.testPrograms.keys := by
  simp [programNames, installedPrograms, ArtifactGraph.programSpecs, Function.comp_def]

/-- An aggregate lists its members in the order in which all are added. -/
theorem members_sublist (plan : Plan) (y : Aggregate) :
    (plan.members y).Sublist plan.memberArtifacts := by
  unfold memberArtifacts members
  rw [programNames_eq, List.map_append]
  cases y with
  | generated => exact (List.sublist_append_left _ _).trans (List.sublist_append_left _ _)
  | libraries => exact (List.sublist_append_right _ _).trans (List.sublist_append_left _ _)
  | programs => exact (List.sublist_append_left _ _).trans (List.sublist_append_right _ _)
  | testPrograms => exact (List.sublist_append_right _ _).trans (List.sublist_append_right _ _)
  | all => exact (List.sublist_append_left _ _).append_left _

/-- The aggregates that an artifact belongs to. -/
def groups (plan : Plan) (x : Artifact) : List Aggregate :=
  match x.kind with
  | .generated => [.generated, .all]
  | .archive | .sharedObject => [.libraries, .all]
  | .executable =>
    if (⟨x.module, x.name⟩ : QualifiedName) ∈ plan.testPrograms.keys then [.testPrograms]
    else [.programs, .all]
  | .source _ | .header | .object => []

end Plan

namespace ArtifactGraph

variable {g g' g'' : ArtifactGraph} {f : FileNames} {plan : Plan} {policy : LinkPolicy}
  {mode : BuildMode} {a b d n : NodeId} {x : Artifact} {action : Action} {node : Node}
  {new new' : List Artifact} {y : Aggregate}

/-! ## Nodes of members -/

/-- The artifact of a node that aggregates may hold. -/
def member? (node : Node) : Option Artifact :=
  match node.kind with
  | .artifact x => if x.kind.hasShorthand then some x else none
  | .aggregate _ | .shorthand _ | .file _ => none

/-- The artifacts that aggregates may hold, in the order of their nodes. -/
def memberNodes (g : ArtifactGraph) : List Artifact := g.ids.filterMap fun n => member? (g.node n)

theorem member?_eq_some_iff :
    member? node = some x ↔ node.kind = .artifact x ∧ x.kind.hasShorthand := by
  unfold member?
  cases hkind : node.kind with
  | artifact z =>
    dsimp only
    split
    · constructor
      · rintro ⟨⟩
        exact ⟨rfl, ‹_›⟩
      · rintro ⟨⟨⟩, -⟩
        rfl
    · constructor
      · rintro ⟨⟩
      · rintro ⟨⟨⟩, h⟩
        exact absurd h ‹_›
  | aggregate _ | shorthand _ | file _ => exact ⟨nofun, fun h => nomatch h.1⟩

theorem member?_node_eq_some_iff : member? (g.node n) = some x ↔ g.Asks n x := by
  rw [member?_eq_some_iff]
  refine ⟨fun ⟨hkind, hx⟩ => ⟨lt_size_of_ne_default fun hdefault => ?_, hkind, hx⟩,
    fun h => ⟨h.kind, h.hasShorthand⟩⟩
  -- The node that stands for none is a source.
  rw [hdefault] at hkind
  cases hkind
  cases hx

theorem mem_memberNodes : x ∈ g.memberNodes ↔ ∃ n, g.Asks n x := by
  rw [memberNodes, List.mem_filterMap]
  simp only [member?_node_eq_some_iff]
  exact exists_congr fun n => and_iff_right_of_imp fun h => mem_ids.mpr h.lt_size

theorem Asks.eq_of_nodup (hnodup : g.memberNodes.Nodup) {m : NodeId} (hm : g.Asks m x)
    (hn : g.Asks n x) : m = n := by
  by_contra hne
  have hpairwise := List.pairwise_filterMap.mp hnodup
  have hsymm : Std.Symm fun m n : NodeId => ∀ z, member? (g.node m) = some z →
      ∀ z', member? (g.node n) = some z' → z ≠ z' :=
    ⟨fun _ _ h z hz z' hz' heq => h z' hz' z hz heq.symm⟩
  exact hpairwise.forall (mem_ids.mpr hm.lt_size) (mem_ids.mpr hn.lt_size) hne
    x (member?_node_eq_some_iff.mpr hm) x (member?_node_eq_some_iff.mpr hn) rfl

theorem memberNodes_addNode :
    (g.addNode node).1.memberNodes = g.memberNodes ++ (member? node).toList := by
  have hold : g.ids.filterMap (fun n => member? ((g.addNode node).1.node n)) = g.memberNodes :=
    List.filterMap_congr fun n hn => by rw [node_addNode_of_lt (mem_ids.mp hn)]
  rw [memberNodes, ids, size_addNode, List.range_succ, List.filterMap_append]
  rw [show List.range g.nodes.size = g.ids from rfl, hold]
  congr 1
  cases hnode : member? node <;> simp [node_addNode_self, hnode]

theorem memberNodes_congr (h : g'.nodes = g.nodes) : g'.memberNodes = g.memberNodes := by
  simp only [memberNodes, ids, ArtifactGraph.node, h]

/-! ## One addition -/

/-- A graph grows by the nodes of these members of aggregates, and each of the aggregates gains the
new nodes that belong to it. -/
structure Gathers (plan : Plan) (new : List Artifact) (g g' : ArtifactGraph) : Prop where
  grows : Grows g g'
  members : g'.memberNodes = g.memberNodes ++ new
  needs : ∀ y n, g'.Needs (aggregate y) n ↔ g.Needs (aggregate y) n ∨
    (g.nodes.size ≤ n ∧ n < g'.nodes.size) ∧
      ∃ x, (g'.node n).kind = .artifact x ∧ y ∈ plan.groups x

theorem Gathers.refl : Gathers plan [] g g where
  grows := .refl
  members := (List.append_nil _).symm
  needs y n := by
    constructor
    · exact .inl
    · rintro (h | ⟨⟨hle, hlt⟩, -⟩)
      · exact h
      · exact absurd hlt (Nat.not_lt_of_le hle)

theorem Gathers.trans (h : Gathers plan new g g') (h' : Gathers plan new' g' g'') :
    Gathers plan (new ++ new') g g'' where
  grows := h.grows.trans h'.grows
  members := by rw [h'.members, h.members, List.append_assoc]
  needs y n := by
    rw [h'.needs, h.needs]
    have hle := h.grows.size_le
    have hle' := h'.grows.size_le
    constructor
    · rintro ((hold | ⟨hn, hx⟩) | ⟨hn, hx⟩)
      · exact .inl hold
      · rw [← h'.grows.node_eq hn.2] at hx
        exact .inr ⟨⟨hn.1, Nat.lt_of_lt_of_le hn.2 hle'⟩, hx⟩
      · exact .inr ⟨⟨Nat.le_trans hle hn.1, hn.2⟩, hx⟩
    · rintro (hold | ⟨hn, hx⟩)
      · exact .inl (.inl hold)
      · by_cases hlt : n < g'.nodes.size
        · rw [h'.grows.node_eq hlt] at hx
          exact .inl (.inr ⟨⟨hn.1, hlt⟩, hx⟩)
        · exact .inr ⟨⟨Nat.le_of_not_lt hlt, hn.2⟩, hx⟩

theorem groups_eq_nil (h : ¬ x.kind.hasShorthand) : plan.groups x = [] := by
  unfold Plan.groups
  cases hkind : x.kind <;> first | rfl | exact absurd (hkind ▸ rfl) h

theorem gathers_addNode (hfits : node.Fits) (hidle : member? node = none) :
    Gathers plan [] g (g.addNode node).1 where
  grows := Grows.refl.node hfits
  members := by rw [memberNodes_addNode, hidle]; rfl
  needs y n := by
    refine ⟨.inl, ?_⟩
    rintro (hold | ⟨⟨hle, hlt⟩, x, hkind, hy⟩)
    · exact hold
    · rw [size_addNode] at hlt
      rw [Nat.le_antisymm (Nat.le_of_lt_succ hlt) hle, node_addNode_self] at hkind
      have hx : ¬ x.kind.hasShorthand := fun hx => by
        rw [member?_eq_some_iff.mpr ⟨hkind, hx⟩] at hidle
        cases hidle
      rw [groups_eq_nil hx] at hy
      cases hy

theorem gathers_addEdge (ha : ∀ y, a ≠ aggregate y) (halt : a < g.nodes.size)
    (hb : b < g.nodes.size) : Gathers plan [] g (g.addEdge a b) where
  grows := Grows.refl.edge halt hb
  members := by rw [memberNodes_congr nodes_addEdge, List.append_nil]
  needs y n := by
    rw [nodes_addEdge, needs_addEdge]
    constructor
    · rintro (⟨heq, -⟩ | hold)
      · exact absurd heq.symm (ha y)
      · exact .inl hold
    · rintro (hold | ⟨⟨hle, hlt⟩, -⟩)
      · exact .inr hold
      · exact absurd hlt (Nat.not_lt_of_le hle)

theorem ne_aggregate (hg : Grows initial g) (hpath : (g.node a).path ≠ none) (y : Aggregate) :
    a ≠ aggregate y := by
  rintro rfl
  rw [hg.node_aggregate] at hpath
  exact hpath rfl

theorem gathers_addSource (hx : ¬ x.kind.hasShorthand) :
    Gathers plan [] g (g.addSource f x).1 := by
  unfold addSource
  split
  · exact .refl
  · refine gathers_addNode ⟨nofun, nofun⟩ ?_
    simp [member?, hx]

theorem gathers_linkPaths (hg : g.WellFormed) (hn : n < g.nodes.size) (ha : ∀ y, n ≠ aggregate y)
    (paths : List Path) : Gathers plan [] g (g.linkPaths n paths) := by
  unfold linkPaths
  induction paths generalizing g with
  | nil => exact .refl
  | cons p paths ih =>
    rw [List.foldl_cons]
    cases hfind : g.findPath? p with
    | none => exact ih hg hn
    | some m =>
      have hm := (hg.byPath _ _ hfind).1
      exact (gathers_addEdge ha hn hm).trans (ih (hg.addEdge hn hm) (by simpa using hn))

theorem gathers_addObject (hg : Grows initial g) (unit : QualifiedName) (lang : Language) :
    Gathers plan [] g (g.addObject f unit lang).1 := by
  have hsource : Gathers plan [] g (g.addSource f (.ofName (.source lang) unit)).1 :=
    gathers_addSource nofun
  have hs := (gained_addSource hg.wellFormed_of_initial f (.ofName (.source lang) unit)).2
  unfold addObject
  dsimp only
  generalize g.addSource f (.ofName (.source lang) unit) = r at hsource hs ⊢
  obtain ⟨g₁, s⟩ := r
  have hobject : Gathers plan [] g₁ (g₁.addArtifact f (.ofName .object unit)
      (.compile lang (f.path (.ofName (.source lang) unit)))).1 :=
    gathers_addNode ⟨nofun, nofun⟩ rfl
  have hgrows := (hg.trans hsource.grows).trans hobject.grows
  refine (hsource.trans hobject).trans (gathers_addEdge (ne_aggregate hgrows ?_)
    (gained_addArtifact f _ (by simp)).2 (Nat.lt_of_lt_of_le hs hobject.grows.size_le))
  rw [node_addArtifact]
  simp

theorem aggregate_injective {y z : Aggregate} (h : aggregate y = aggregate z) : y = z := by
  cases y <;> cases z <;> first | rfl | cases h

/-- The node of a member is added with the aggregates that the artifact belongs to. -/
theorem gathers_member (hg : Grows initial g) (hx : x.kind.hasShorthand) (haction : action ≠ .phony)
    {as : List Aggregate} (has : as = plan.groups x) (paths : List Path) :
    Gathers plan [x] g (((g.addArtifact f x action).1.linkPaths (g.addArtifact f x action).2
      paths).linkAggregates as (g.addArtifact f x action).2) := by
  have hnode := gained_addArtifact (g := g) f x haction
  have hg₁ := hg.trans hnode.grows
  have hpath : ((g.addArtifact f x action).1.node (g.addArtifact f x action).2).path ≠ none := by
    rw [node_addArtifact]
    simp
  have hlink : Gathers plan [] (g.addArtifact f x action).1
      ((g.addArtifact f x action).1.linkPaths (g.addArtifact f x action).2 paths) :=
    gathers_linkPaths hg₁.wellFormed_of_initial hnode.2 (ne_aggregate hg₁ hpath) paths
  have hgroups := grows_linkAggregates (hg₁.trans hlink.grows).wellFormed_of_initial
    (Nat.lt_of_lt_of_le hnode.2 hlink.grows.size_le) as
  refine ⟨(hnode.grows.trans hlink.grows).trans hgroups, ?_, fun y n => ?_⟩
  · rw [memberNodes_congr (nodes_linkAggregates as), hlink.members, List.append_nil, addArtifact,
      memberNodes_addNode, member?_eq_some_iff.mpr ⟨rfl, hx⟩]
    rfl
  · have hsame : (((g.addArtifact f x action).1.linkPaths (g.addArtifact f x action).2
        paths).linkAggregates as (g.addArtifact f x action).2).node n =
          (g.addArtifact f x action).1.node n := by
      rw [ArtifactGraph.node, nodes_linkAggregates, nodes_linkPaths]
      rfl
    rw [needs_linkAggregates_iff, hlink.needs, hsame, nodes_linkAggregates, nodes_linkPaths]
    have hsize : (g.addArtifact f x action).1.nodes.size = g.nodes.size + 1 := size_addNode
    rw [hsize]
    constructor
    · rintro ((hold | ⟨⟨hle, hlt⟩, -⟩) | ⟨rfl, z, hz, heq⟩)
      · exact .inl hold
      · exact absurd hlt (Nat.not_lt_of_le hle)
      · refine .inr ⟨⟨Nat.le_refl _, Nat.lt_succ_self _⟩, x, ?_, ?_⟩
        · rw [node_addArtifact]
        · rw [aggregate_injective heq, ← has]
          exact hz
    · rintro (hold | ⟨⟨hle, hlt⟩, z, hkind, hz⟩)
      · exact .inl (.inl hold)
      · obtain rfl : n = (g.addArtifact f x action).2 := Nat.le_antisymm (Nat.le_of_lt_succ hlt) hle
        rw [node_addArtifact] at hkind
        cases hkind
        exact .inr ⟨rfl, y, has ▸ hz, rfl⟩

/-! ## The parts of a plan -/

theorem gathers_foldl {α : Type} {add : ArtifactGraph → α → ArtifactGraph} {l : List α}
    (new : α → List Artifact)
    (hadd : ∀ g, ∀ z ∈ l, Grows initial g → Gathers plan (new z) g (add g z))
    (hg : Grows initial g) : Gathers plan (l.flatMap new) g (l.foldl add g) := by
  induction l generalizing g with
  | nil => exact .refl
  | cons z l ih =>
    have h := hadd g z List.mem_cons_self hg
    exact h.trans (ih (fun g z hz => hadd g z (List.mem_cons_of_mem _ hz)) (hg.trans h.grows))

theorem gathers_foldl_idle {α : Type} {add : ArtifactGraph → α → ArtifactGraph} {l : List α}
    (hadd : ∀ g z, Grows initial g → Gathers plan [] g (add g z)) (hg : Grows initial g) :
    Gathers plan [] g (l.foldl add g) := by
  have h := gathers_foldl (l := l) (fun _ => []) (fun g z _ => hadd g z) hg
  rwa [List.flatMap_eq_nil_iff.mpr fun _ _ => rfl] at h

theorem gathers_addGenerated (hg : Grows initial g)
    (entry : QualifiedName × Option GeneratedRule) :
    Gathers plan [.ofName .generated entry.1] g (addGenerated f g entry) := by
  obtain ⟨action, haction, -, heq⟩ := addGenerated_eq f g entry
  rw [heq]
  exact gathers_member hg rfl haction rfl []

theorem gathers_addUnit (hg : Grows initial g) (entry : QualifiedName × Bool) :
    Gathers plan [] g (addUnit f g entry) := by
  obtain ⟨unit, hasHeader⟩ := entry
  have hobject : Gathers plan [] g (g.addObject f unit .c).1 := gathers_addObject hg unit .c
  have ho := (gained_addObject hg.wellFormed_of_initial f unit .c).2
  have hnode := node_addObject (g := g) (f := f) unit .c
  unfold addUnit
  dsimp only
  generalize g.addObject f unit .c = r at hobject ho hnode ⊢
  obtain ⟨g₁, o⟩ := r
  cases hasHeader with
  | false => exact hobject
  | true =>
    have hg₁ := hg.trans hobject.grows
    have hheader : Gathers plan [] g₁ (g₁.addSource f (.ofName .header unit)).1 :=
      gathers_addSource nofun
    have hlt := (gained_addSource hg₁.wellFormed_of_initial f (.ofName .header unit)).2
    refine (hobject.trans hheader).trans (gathers_addEdge
      (ne_aggregate (hg₁.trans hheader.grows) ?_)
      (Nat.lt_of_lt_of_le ho hheader.grows.size_le) hlt)
    rw [hheader.grows.node_eq ho, hnode]
    simp

theorem gathers_addLibrary (hg : Grows initial g) (library : Library) :
    Gathers plan (Plan.libraryArtifacts library) g (addLibrary plan f g library) := by
  have harchive : Gathers plan [archiveOf library] g
      (g.addLibraryArtifact f (libraryObjects plan f library) (archiveOf library)
        (.archive (libraryObjects plan f library))) :=
    gathers_member hg rfl (by simp) rfl _
  unfold addLibrary Plan.libraryArtifacts
  split
  · exact harchive.trans (gathers_member (hg.trans harchive.grows) rfl (by simp) rfl _)
  · exact harchive

theorem linkPaths_linkPaths (paths paths' : List Path) :
    (g.linkPaths n paths).linkPaths n paths' = g.linkPaths n (paths ++ paths') :=
  List.foldl_append.symm

theorem gathers_addProgram (hg : Grows initial g) {program : ProgramSpec}
    (htest : program.isTest ↔ program.name ∈ plan.testPrograms.keys) :
    Gathers plan [.ofName .executable program.name] g (addProgram plan f policy g program) := by
  have hobject : Gathers plan [] g (g.addObject f program.name program.lang).1 :=
    gathers_addObject hg program.name program.lang
  unfold addProgram
  generalize g.addObject f program.name program.lang = r at hobject ⊢
  obtain ⟨g₁, o⟩ := r
  dsimp only
  rw [linkPaths_linkPaths]
  refine hobject.trans (gathers_member (hg.trans hobject.grows) rfl (by simp) ?_ _)
  simp only [Plan.groups, Artifact.ofName, ← htest]

/-- Where every object is declared once, the programs that are added as tests are those declared as
tests. -/
theorem isTest_iff (hplan : plan.Distinct) {program : ProgramSpec}
    (hprogram : program ∈ programSpecs plan) :
    program.isTest ↔ program.name ∈ plan.testPrograms.keys := by
  rcases List.mem_append.mp hprogram with hplain | htest
  · obtain ⟨hnot, declared, hobject, hne, hname⟩ := exists_names_of_mem_plainSpecs hplain
    rw [hnot]
    have htests : DeclKind.testProgram.producesObject := rfl
    refine ⟨nofun, fun htest => absurd htest fun htest => ?_⟩
    exact hplan.disjoint_names hobject htests hne hname htest
  · obtain ⟨q, hq, rfl⟩ := List.mem_map.mp htest
    exact ⟨fun _ => hq, fun _ => rfl⟩

theorem gathers_generatedStage :
    Gathers plan (plan.generated.keys.map (.ofName .generated)) initial (generatedStage plan f) := by
  have hfiles : plan.generated.entries.flatMap (fun entry => [Artifact.ofName .generated entry.1]) =
      plan.generated.keys.map (.ofName .generated) := by
    rw [← List.map_eq_flatMap, SortedMap.keys, List.map_map]
    rfl
  rw [← hfiles]
  exact gathers_foldl _ (fun _ entry _ hg => gathers_addGenerated hg entry) .refl

theorem gathers_ofDeclarations (hplan : plan.Distinct) :
    Gathers plan plan.memberArtifacts initial (ofDeclarations plan f policy) := by
  have hgenerated : Gathers plan _ initial (generatedStage plan f) := gathers_generatedStage
  have hunits : Gathers plan [] (generatedStage plan f) (unitStage plan f) :=
    gathers_foldl_idle (fun _ entry hg => gathers_addUnit hg entry) hgenerated.grows
  have hobjects : Gathers plan [] (unitStage plan f) (objectStage plan f) :=
    gathers_foldl_idle (fun _ unit hg => gathers_addObject hg unit .fortran)
      (hgenerated.trans hunits).grows
  have hlibraries : Gathers plan _ (objectStage plan f) (libraryStage plan f) :=
    gathers_foldl Plan.libraryArtifacts (fun _ library _ hg => gathers_addLibrary hg library)
      ((hgenerated.trans hunits).trans hobjects).grows
  have hprograms : Gathers plan _ (libraryStage plan f) (ofDeclarations plan f policy) :=
    gathers_foldl (fun program : ProgramSpec => [.ofName .executable program.name])
      (fun _ program hprogram hg => gathers_addProgram hg (isTest_iff hplan hprogram))
      (((hgenerated.trans hunits).trans hobjects).trans hlibraries).grows
  have hall := (((hgenerated.trans hunits).trans hobjects).trans hlibraries).trans hprograms
  have hmembers :
      plan.generated.keys.map (Artifact.ofName .generated) ++ [] ++ [] ++
          plan.libraries.values.flatMap Plan.libraryArtifacts ++
        (programSpecs plan).flatMap (fun program => [.ofName .executable program.name]) =
      plan.memberArtifacts := by
    simp [Plan.memberArtifacts, Plan.programNames, Function.comp_def, ← List.map_eq_flatMap]
  rwa [hmembers] at hall

/-! ## Aggregates that hold their members -/

/-- Each member of an aggregate has one node, no other artifact of these kinds has any, and every
aggregate needs the nodes that belong to it, and nothing else. -/
structure Grouped (plan : Plan) (g : ArtifactGraph) : Prop where
  nodes : ∀ x ∈ plan.memberArtifacts, ∃! n, g.Asks n x
  declared : ∀ n x, g.Asks n x → x ∈ plan.memberArtifacts
  needs : ∀ y n, g.Needs (aggregate y) n ↔ ∃ x, g.Asks n x ∧ y ∈ plan.groups x

theorem hasShorthand_of_mem_groups (h : y ∈ plan.groups x) : x.kind.hasShorthand := by
  by_contra hx
  rw [groups_eq_nil hx] at h
  cases h

theorem nodup_memberArtifacts (hplan : plan.Distinct) : plan.memberArtifacts.Nodup := by
  have hnames : plan.programNames.Nodup := (List.nodup_append.mp hplan.objects).2.1
  have hlibraries := Plan.nodup_libraryArtifacts hplan
  -- The three parts are of different kinds.
  refine List.nodup_append.mpr ⟨List.nodup_append.mpr ⟨?_, hlibraries, ?_⟩, ?_, ?_⟩
  · exact plan.generated.nodup_keys.map (Plan.ofName_injective _)
  · intro x hx z hz heq
    obtain ⟨q, -, rfl⟩ := List.mem_map.mp hx
    obtain ⟨l, -, hz⟩ := List.mem_flatMap.mp hz
    rw [← heq] at hz
    rcases Plan.kind_of_mem_libraryArtifacts hz with hkind | hkind <;> cases hkind
  · exact hnames.map (Plan.ofName_injective _)
  · intro x hx z hz heq
    obtain ⟨q, -, rfl⟩ := List.mem_map.mp hz
    rw [heq] at hx
    rcases List.mem_append.mp hx with hx | hx
    · obtain ⟨q', -, hkind⟩ := List.mem_map.mp hx
      cases congrArg Artifact.kind hkind
    · obtain ⟨l, -, hx⟩ := List.mem_flatMap.mp hx
      rcases Plan.kind_of_mem_libraryArtifacts hx with hkind | hkind <;> cases hkind

theorem grouped_ofDeclarations (hplan : plan.Distinct) :
    Grouped plan (ofDeclarations plan f policy) := by
  have hgathers : Gathers plan plan.memberArtifacts initial (ofDeclarations plan f policy) :=
    gathers_ofDeclarations hplan
  have hmembers : (ofDeclarations plan f policy).memberNodes = plan.memberArtifacts :=
    hgathers.members
  refine ⟨fun x hx => ?_, fun n x hx => ?_, fun y n => ?_⟩
  · rw [← hmembers] at hx
    obtain ⟨n, hn⟩ := mem_memberNodes.mp hx
    refine ⟨n, hn, fun m hm => hm.eq_of_nodup ?_ hn⟩
    rw [hmembers]
    exact nodup_memberArtifacts hplan
  · rw [← hmembers]
    exact mem_memberNodes.mpr ⟨n, hx⟩
  · rw [hgathers.needs]
    constructor
    · rintro (hold | ⟨hn, x, hkind, hy⟩)
      · cases hold
      · exact ⟨x, ⟨hn.2, hkind, hasShorthand_of_mem_groups hy⟩, hy⟩
    · rintro ⟨x, hx, hy⟩
      refine .inr ⟨⟨?_, hx.lt_size⟩, x, hx.kind, hy⟩
      by_contra hlt
      obtain ⟨z, hz⟩ := hgathers.grows.exists_aggregate (Nat.lt_of_not_le hlt)
      have hkind := hx.kind
      rw [hz] at hkind
      cases hkind

theorem Settles.asks_iff (h : Settles g g') : g'.Asks n x ↔ g.Asks n x := by
  constructor
  · intro hx
    have hn := h.artifacts n x hx.lt_size hx.kind
    exact ⟨hn, h.grows.node_eq hn ▸ hx.kind, hx.hasShorthand⟩
  · intro hx
    exact ⟨Nat.lt_of_lt_of_le hx.lt_size h.grows.size_le, h.grows.node_eq hx.lt_size ▸ hx.kind,
      hx.hasShorthand⟩

theorem Grouped.settles (h : Grouped plan g) (hsettles : Settles g g')
    (hneeds : ∀ y n, g'.Needs (aggregate y) n → g.Needs (aggregate y) n) : Grouped plan g' where
  nodes x hx := by simpa only [hsettles.asks_iff] using h.nodes x hx
  declared n x hx := h.declared n x (hsettles.asks_iff.mp hx)
  needs y n := by
    simp only [hsettles.asks_iff]
    exact ⟨fun hn => (h.needs y n).mp (hneeds y n hn),
      fun hn => hsettles.grows.needs ((h.needs y n).mpr hn)⟩

theorem grouped_withInputs (hplan : plan.Distinct) (h : withInputs plan f policy = .ok g) :
    Grouped plan g := by
  have hwires := wires_withInputs h
  refine (grouped_ofDeclarations hplan).settles hwires.settles fun y n hneeds => ?_
  rcases hwires.reasons _ _ hneeds with hold | ⟨input, -, p, -, hfile, -⟩
  · exact hold
  · have hgrows := grows_withInputs h
    obtain ⟨-, q, hq, -⟩ := hgrows.wellFormed_of_initial.byPath _ _ hfile
    exact absurd rfl (ne_aggregate hgrows (by rw [hq]; exact nofun) y)

theorem needs_addShorthands (h : (addShorthands f g).result = .ok g') (hneeds : g'.Needs n d) :
    g.Needs n d ∨ g.nodes.size ≤ n ∧ ∃ x, g.Asks d x := by
  obtain ⟨names, hnames, rfl⟩ := addShorthands_eq_ok h
  have hrun : ∀ (l : List Shorthand) (g₁ : ArtifactGraph), (∀ s ∈ l, s ∈ names) →
      g.nodes.size ≤ g₁.nodes.size →
      (l.foldl (fun g s => g.addShorthand s.name s.target) g₁).Needs n d →
      g₁.Needs n d ∨ g.nodes.size ≤ n ∧ ∃ x, g.Asks d x := by
    intro l
    induction l with
    | nil => exact fun _ _ _ hneeds => .inl hneeds
    | cons s l ih =>
      intro g₁ hl hsize hneeds
      obtain ⟨hs, hrest⟩ := List.forall_mem_cons.mp hl
      obtain ⟨m, x, hx, rfl⟩ := mem_wantedShorthands.mp (hnames s hs)
      have hsize' : g.nodes.size ≤
          (g₁.addShorthand (shorthandOf f m x).name (shorthandOf f m x).target).nodes.size := by
        refine Nat.le_trans hsize (Grows.size_le (grows_addShorthand _ ?_))
        exact Nat.lt_of_lt_of_le hx.lt_size hsize
      rcases ih _ hrest hsize' hneeds with hneeds | hnew
      · rcases needs_addShorthand.mp hneeds with ⟨rfl, rfl⟩ | hold
        · exact .inr ⟨hsize, x, hx⟩
        · exact .inl hold
      · exact .inr hnew
  exact hrun names g (fun _ hs => hs) (Nat.le_refl _) hneeds

theorem grouped_derive (hplan : plan.Distinct) (h : (derive plan f policy mode).result = .ok g) :
    Grouped plan g := by
  obtain ⟨g₀, hwith, hnamed, -⟩ := derive_eq_ok_iff.mp h
  have hgrouped := grouped_withInputs hplan hwith
  split at hnamed
  · have hshorthands : Settles g₀ g ∧ Extends plan f g₀ g := named_addShorthands hnamed
    refine hgrouped.settles hshorthands.1 fun y n hneeds => ?_
    rcases needs_addShorthands hnamed hneeds with hold | ⟨hle, -⟩
    · exact hold
    · exact absurd ((grows_withInputs hwith).wellFormed_of_initial.aggregates y)
        (Nat.not_lt_of_le hle)
  · cases hnamed
    exact hgrouped

theorem path_ne_none_of_needs (h : (derive plan f policy mode).result = .ok g)
    (hneeds : g.Needs n d) : (g.node d).path ≠ none := by
  obtain ⟨g₀, hwith, hnamed, -⟩ := derive_eq_ok_iff.mp h
  have hg₀ := grows_withInputs hwith
  have hwires := wires_withInputs hwith
  have hold : ∀ {n d}, g₀.Needs n d → (g₀.node d).path ≠ none := by
    intro n d hneeds
    rcases hwires.reasons n d hneeds with hneeds | ⟨input, -, p, -, -, hfind⟩
    · have hd := (extends_ofDeclarations.grows.wellFormed_of_initial.edgesWithin n d hneeds).2
      rw [hwires.settles.grows.node_eq hd]
      have hjoins : Joins (fun _ => True) Anything initial (ofDeclarations plan f policy) :=
        joins_declarations (fun _ => trivial) fun _ _ => trivial
      exact ((hjoins.edges n d hneeds).resolve_left nofun).2
    · obtain ⟨-, q, hq, -⟩ := hg₀.wellFormed_of_initial.byPath _ _ hfind
      rw [hq]
      exact nofun
  have hgrows : Grows g₀ g := by
    split at hnamed
    · exact grows_addShorthands hnamed
    · cases hnamed
      exact .refl
  have hcases : g₀.Needs n d ∨ ∃ x, g₀.Asks d x := by
    split at hnamed
    · exact (needs_addShorthands hnamed hneeds).imp_right And.right
    · cases hnamed
      exact .inl hneeds
  rcases hcases with hneeds | ⟨x, hx⟩
  · rw [hgrows.node_eq (hg₀.wellFormed_of_initial.edgesWithin n d hneeds).2]
    exact hold hneeds
  · have hd := Nat.lt_of_lt_of_le hx.lt_size hgrows.size_le
    rw [(suits_derive h hd x (hgrows.node_eq hx.lt_size ▸ hx.kind)).1]
    exact nofun

theorem Grows.nodup_edges (h : Grows g g') (hg : g.edges.Nodup) : g'.edges.Nodup := by
  induction h with
  | refl => exact hg
  | node _ _ ih => exact ih
  | @edge g' a b _ _ _ ih =>
    unfold addEdge
    split
    · exact ih
    · rename_i hnew
      exact List.nodup_cons.mpr ⟨by simpa [hasEdge] using hnew, ih⟩
  | shorthands _ _ ih => exact ih

/-! ## Derived graphs -/

/-- The aggregates of a graph hold their members, and nothing needs an aggregate. -/
structure AggregatesExact (plan : Plan) (g : ArtifactGraph) : Prop where
  /-- An aggregate needs the nodes of its members directly, and nothing else. -/
  needs : ∀ y n, g.Needs (aggregate y) n ↔ ∃ x ∈ plan.members y, (g.node n).kind = .artifact x
  /-- Each member has one node. -/
  nodes : ∀ y, ∀ x ∈ plan.members y, ∃! n, (g.node n).kind = .artifact x
  union : ∀ n, g.Needs (aggregate .all) n ↔ g.Needs (aggregate .generated) n ∨
    g.Needs (aggregate .libraries) n ∨ g.Needs (aggregate .programs) n
  disjoint : ∀ n, g.Needs (aggregate .programs) n → ¬ g.Needs (aggregate .testPrograms) n
  once : g.edges.Nodup
  unneeded : ∀ n y, ¬ g.Needs n (aggregate y)

theorem groups_of_mem_members (hplan : plan.Distinct) :
    (x ∈ plan.members .generated → plan.groups x = [.generated, .all]) ∧
      (x ∈ plan.members .libraries → plan.groups x = [.libraries, .all]) ∧
      (x ∈ plan.members .programs → plan.groups x = [.programs, .all]) ∧
      (x ∈ plan.members .testPrograms → plan.groups x = [.testPrograms]) := by
  refine ⟨fun hx => ?_, fun hx => ?_, fun hx => ?_, fun hx => ?_⟩
  · obtain ⟨q, -, rfl⟩ := List.mem_map.mp hx
    rfl
  · obtain ⟨l, -, hx⟩ := List.mem_flatMap.mp hx
    unfold Plan.groups
    rcases Plan.kind_of_mem_libraryArtifacts hx with hkind | hkind <;> rw [hkind]
  · obtain ⟨q, hq, rfl⟩ := List.mem_map.mp hx
    have hprograms : DeclKind.program.producesObject := rfl
    have hfortran : DeclKind.fortranProgram.producesObject := rfl
    have htests : DeclKind.testProgram.producesObject := rfl
    have hapart : q ∉ plan.testPrograms.keys := by
      intro htest
      rcases List.mem_append.mp hq with hq | hq
      · exact hplan.disjoint_names hprograms htests (by decide) hq htest
      · exact hplan.disjoint_names hfortran htests (by decide) hq htest
    exact if_neg hapart
  · obtain ⟨q, hq, rfl⟩ := List.mem_map.mp hx
    exact if_pos hq

theorem mem_memberArtifacts : x ∈ plan.memberArtifacts ↔ x ∈ plan.members .generated ∨
    x ∈ plan.members .libraries ∨ x ∈ plan.members .programs ∨ x ∈ plan.members .testPrograms := by
  rw [Plan.memberArtifacts, Plan.programNames_eq, List.map_append, List.mem_append, List.mem_append,
    List.mem_append, or_assoc]
  rfl

theorem mem_members_all : x ∈ plan.members .all ↔ x ∈ plan.members .generated ∨
    x ∈ plan.members .libraries ∨ x ∈ plan.members .programs := by
  show x ∈ plan.members .generated ++ plan.members .libraries ++ plan.members .programs ↔ _
  rw [List.mem_append, List.mem_append, or_assoc]

/-- The members of an aggregate are the artifacts that belong to it. -/
theorem mem_members_iff (hplan : plan.Distinct) :
    x ∈ plan.members y ↔ x ∈ plan.memberArtifacts ∧ y ∈ plan.groups x := by
  obtain ⟨hgenerated, hlibraries, hprograms, htests⟩ := groups_of_mem_members (x := x) hplan
  rw [mem_memberArtifacts]
  constructor
  · intro hx
    cases y with
    | generated => exact ⟨.inl hx, by simp [hgenerated hx]⟩
    | libraries => exact ⟨.inr (.inl hx), by simp [hlibraries hx]⟩
    | programs => exact ⟨.inr (.inr (.inl hx)), by simp [hprograms hx]⟩
    | testPrograms => exact ⟨.inr (.inr (.inr hx)), by simp [htests hx]⟩
    | all =>
      rcases mem_members_all.mp hx with hx | hx | hx
      · exact ⟨.inl hx, by simp [hgenerated hx]⟩
      · exact ⟨.inr (.inl hx), by simp [hlibraries hx]⟩
      · exact ⟨.inr (.inr (.inl hx)), by simp [hprograms hx]⟩
  · rintro ⟨hx | hx | hx | hx, hy⟩
    · rw [hgenerated hx] at hy
      rcases List.mem_pair.mp hy with rfl | rfl
      · exact hx
      · exact mem_members_all.mpr (.inl hx)
    · rw [hlibraries hx] at hy
      rcases List.mem_pair.mp hy with rfl | rfl
      · exact hx
      · exact mem_members_all.mpr (.inr (.inl hx))
    · rw [hprograms hx] at hy
      rcases List.mem_pair.mp hy with rfl | rfl
      · exact hx
      · exact mem_members_all.mpr (.inr (.inr hx))
    · rw [htests hx] at hy
      rw [List.mem_singleton.mp hy]
      exact hx

/-- **Aggregates have exactly their members**, in every graph that is derived of a finished plan,
whatever paths its files have and whatever programs are linked with: `generated` has the generated
files, `libraries` every archive and every shared object, `programs` the executables of programs that
are no tests and `programs-test` those of the tests, and `all` has what the first three have. No edge
is there twice, and nothing needs an aggregate. -/
theorem aggregates_exact {project : String} {calls : List (ModulePath × Registry.Call)}
    {naming : LibraryNaming}
    (hplan : ((Registry.empty project).run calls).1.finalize naming = .ok plan)
    (hderive : (derive plan f policy mode).result = .ok g) : AggregatesExact plan g := by
  have hdistinct := Registry.distinct_of_finalize hplan
  have hgrouped := grouped_derive hdistinct hderive
  have hasks : ∀ {y n x}, x ∈ plan.members y → ((g.node n).kind = .artifact x ↔ g.Asks n x) := by
    intro y n x hx
    obtain ⟨hmember, -⟩ := (mem_members_iff hdistinct).mp hx
    obtain ⟨m, hm, -⟩ := hgrouped.nodes x hmember
    refine ⟨fun hkind => ⟨?_, hkind, hm.hasShorthand⟩, Asks.kind⟩
    refine lt_size_of_ne_default fun hdefault => ?_
    -- The node that stands for none is a source.
    rw [hdefault] at hkind
    cases hkind
    exact nomatch hm.hasShorthand
  have hneeds : ∀ y n, g.Needs (aggregate y) n ↔
      ∃ x ∈ plan.members y, (g.node n).kind = .artifact x := by
    intro y n
    rw [hgrouped.needs]
    constructor
    · rintro ⟨x, hx, hy⟩
      exact ⟨x, (mem_members_iff hdistinct).mpr ⟨hgrouped.declared n x hx, hy⟩, hx.kind⟩
    · rintro ⟨x, hx, hkind⟩
      exact ⟨x, (hasks hx).mp hkind, ((mem_members_iff hdistinct).mp hx).2⟩
  refine ⟨hneeds, fun y x hx => ?nodes, fun n => ?union, fun n hn hn' => ?disjoint, ?once,
    fun n y hn => ?unneeded⟩
  case nodes =>
    simp only [hasks hx]
    exact hgrouped.nodes x ((mem_members_iff hdistinct).mp hx).1
  case union =>
    simp only [hneeds, mem_members_all, or_and_right, exists_or]
  case disjoint =>
    obtain ⟨x, hx, hkind⟩ := (hneeds _ n).mp hn
    obtain ⟨x', hx', hkind'⟩ := (hneeds _ n).mp hn'
    cases hkind.symm.trans hkind'
    have hgroups := (groups_of_mem_members hdistinct).2.2.1 hx
    rw [(groups_of_mem_members hdistinct).2.2.2 hx'] at hgroups
    cases hgroups
  case once =>
    exact (grows_derive hderive).nodup_edges List.nodup_nil
  case unneeded =>
    refine path_ne_none_of_needs hderive hn ?_
    rw [(grows_derive hderive).node_aggregate]
    rfl

/-! ## A module with one of each -/

/-- A library of one unit, a program, a test, and a generated file without a rule. -/
def stockedPlan : Plan where
  project := "demo"
  modules := SortedMap.insert ∅ ⟨"m"⟩ ()
  units := SortedMap.insert ∅ ⟨⟨"m"⟩, "util"⟩ false
  programs := SortedMap.insert ∅ ⟨⟨"m"⟩, "main"⟩ ()
  testPrograms := SortedMap.insert ∅ ⟨⟨"m"⟩, "check"⟩ ()
  generated := SortedMap.insert ∅ ⟨⟨"m"⟩, "usage.txt"⟩ none
  libraries := SortedMap.insert ∅ ⟨"m"⟩ ⟨⟨"m"⟩, "m", true⟩

def stocked : ArtifactGraph :=
  (constructed stockedPlan {} .everyLibrary .project).toOption.getD {}

theorem constructs_stocked : Constructs stockedPlan {} .everyLibrary .project stocked
    [(20, 5), (19, 12), (18, 9), (17, 8), (16, 15), (3, 15), (15, 8), (15, 14), (14, 13), (0, 12),
      (2, 12), (12, 8), (12, 11), (11, 10), (0, 9), (1, 9), (9, 7), (0, 8), (1, 8), (8, 7), (7, 6),
      (0, 5), (4, 5)] 21 := constructs_of_computed ⟨by rfl, by rfl, by rfl⟩

theorem derive_stocked : (derive stockedPlan {} .everyLibrary .project).result = .ok stocked :=
  constructs_stocked.derive (by cbv)

/-- Everything but the test is in `all`. -/
theorem aggregates_exact_stocked :
    ((Registry.empty "demo").run [(⟨"m"⟩, .beginModule), (⟨"m"⟩, .declareUnit "util" false),
        (⟨"m"⟩, .declare .program ["main"]), (⟨"m"⟩, .declare .testProgram ["check"]),
        (⟨"m"⟩, .declare .generated ["usage.txt"]), (⟨"m"⟩, .requestLibrary true),
        (⟨"m"⟩, .endModule)]).1.finalize (BuildMode.project.naming "demo") = .ok stockedPlan ∧
      (derive stockedPlan {} .everyLibrary .project).result = .ok stocked ∧
      AggregatesExact stockedPlan stocked ∧
      stockedPlan.members .all = [⟨.generated, ⟨"m"⟩, "usage.txt"⟩, ⟨.archive, ⟨"m"⟩, "m"⟩,
        ⟨.sharedObject, ⟨"m"⟩, "m"⟩, ⟨.executable, ⟨"m"⟩, "main"⟩] := by
  have hplan : ((Registry.empty "demo").run [(⟨"m"⟩, .beginModule),
      (⟨"m"⟩, .declareUnit "util" false), (⟨"m"⟩, .declare .program ["main"]),
      (⟨"m"⟩, .declare .testProgram ["check"]), (⟨"m"⟩, .declare .generated ["usage.txt"]),
      (⟨"m"⟩, .requestLibrary true),
      (⟨"m"⟩, .endModule)]).1.finalize (BuildMode.project.naming "demo") = .ok stockedPlan := by
    rfl
  exact ⟨hplan, derive_stocked, aggregates_exact hplan derive_stocked, by rfl⟩

end ArtifactGraph

end ModularBuild
