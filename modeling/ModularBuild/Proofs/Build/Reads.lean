import ModularBuild.Proofs.Build.Outcomes
import ModularBuild.Proofs.Graph.Producers
import ModularBuild.Proofs.Graph.RuleInputs

/-!
# What an action reads

The arguments of an action are computed from the plan, its node's edges from lookups in a graph that
is still growing. They agree because a file is looked up only after the stage that adds it
(`Supplies`): every file that a command names is that of a node which the command's node needs, and
of a node of the build's own tools these are all, headers apart (`reads_are_needed`). An execution
therefore runs no command before the files it names are up to date.
-/

namespace ModularBuild.ArtifactGraph

variable {g g' g'' : ArtifactGraph} {f : FileNames} {plan : Plan} {policy : LinkPolicy}
  {mode : BuildMode} {a b d n : NodeId} {p : Path} {node : Node}

/-! ## Nodes that are supplied -/

/-- A node needs nodes with the files that its command reads and, as the object of a unit with a
header, one with the header. Where the unit's name is another unit's or a program's as well, the
object may be that one's. -/
structure Supplied (plan : Plan) (f : FileNames) (g : ArtifactGraph) (n : NodeId) : Prop where
  reads : ∀ p ∈ (g.node n).action.reads, ∃ d, g.Needs n d ∧ g.HasPath d p
  header : ∀ unit, plan.units.find? unit = some true →
    (g.node n).kind = .artifact (.ofName .object unit) →
    unit ∈ plan.fortranUnits.keys ++ plan.programNames ∨
      ∃ d, g.Needs n d ∧ g.HasPath d (f.path (.ofName .header unit))

theorem Supplied.grows (h : Supplied plan f g n) (hn : n < g.nodes.size) (hg : Grows g g') :
    Supplied plan f g' n where
  reads p hp := by
    rw [hg.node_eq hn] at hp
    obtain ⟨d, hneeds, hd⟩ := h.reads p hp
    exact ⟨d, hg.needs hneeds, hg.hasPath hd⟩
  header unit hunit hkind := by
    rw [hg.node_eq hn] at hkind
    refine (h.header unit hunit hkind).imp_right fun ⟨d, hneeds, hd⟩ => ?_
    exact ⟨d, hg.needs hneeds, hg.hasPath hd⟩

/-- A graph grows by nodes that are supplied. -/
structure Supplies (plan : Plan) (f : FileNames) (g g' : ArtifactGraph) : Prop where
  grows : Grows g g'
  supplied : ∀ n, g.nodes.size ≤ n → n < g'.nodes.size → Supplied plan f g' n

theorem Supplies.trans (h : Supplies plan f g g') (h' : Supplies plan f g' g'') :
    Supplies plan f g g'' where
  grows := h.grows.trans h'.grows
  supplied n hn hn'' := by
    by_cases hn' : n < g'.nodes.size
    · exact (h.supplied n hn hn').grows hn' h'.grows
    · exact h'.supplied n (Nat.le_of_not_lt hn') hn''

theorem supplies_of_size_eq (h : Grows g g') (hsize : g'.nodes.size = g.nodes.size) :
    Supplies plan f g g' :=
  ⟨h, fun _ hn hn' => absurd (hsize ▸ hn') (Nat.not_lt_of_le hn)⟩

theorem Supplies.refl : Supplies plan f g g := supplies_of_size_eq .refl rfl

/-- It is enough to look at one node that is added, and at what is added after it. -/
theorem Supplied.supplies {g₁ : ArtifactGraph} (h : Supplied plan f g' g.nodes.size)
    (hg₁ : Grows g g₁) (hsize : g₁.nodes.size = g.nodes.size + 1) (hrest : Supplies plan f g₁ g') :
    Supplies plan f g g' where
  grows := hg₁.trans hrest.grows
  supplied n hn hn' := by
    by_cases hlt : n < g₁.nodes.size
    · rw [hsize] at hlt
      rwa [Nat.le_antisymm (Nat.le_of_lt_succ hlt) hn]
    · exact hrest.supplied n (Nat.le_of_not_lt hlt) hn'

theorem supplies_addArtifact {x : Artifact} {action : Action}
    (hg' : Grows (g.addArtifact f x action).1 g') (hsize : g'.nodes.size = g.nodes.size + 1)
    (haction : action ≠ .phony) (hkind : x.kind ≠ .object)
    (hreads : ∀ p ∈ action.reads, ∃ d, g'.Needs g.nodes.size d ∧ g'.HasPath d p) :
    Supplies plan f g g' := by
  have hadded := gained_addArtifact (g := g) f x haction
  have hnode : g'.node g.nodes.size = ⟨.artifact x, some (f.path x), action⟩ :=
    (hg'.node_eq hadded.2).trans (node_addArtifact x action)
  have hsupplied : Supplied plan f g' g.nodes.size := by
    refine ⟨fun p hp => hreads p ?_, fun unit _ hobject => absurd ?_ hkind⟩
    · rwa [hnode] at hp
    · rw [hnode] at hobject
      cases hobject
      rfl
  exact hsupplied.supplies (hadded.grows.trans hg') hsize .refl

/-! ## Adding artifacts -/

theorem supplies_addSource {x : Artifact} (hkind : x.kind ≠ .object) :
    Supplies plan f g (g.addSource f x).1 := by
  unfold addSource
  split
  · exact .refl
  · exact supplies_addArtifact .refl size_addNode (by decide) hkind nofun

theorem needs_linkPaths (hg : g.WellFormed) (hn : n < g.nodes.size) {paths : List Path}
    (hp : p ∈ paths) (hfound : (g.findPath? p).isSome) :
    ∃ d, (g.linkPaths n paths).Needs n d ∧ (g.linkPaths n paths).HasPath d p := by
  unfold linkPaths
  induction paths generalizing g with
  | nil => cases hp
  | cons q paths ih =>
    rw [List.foldl_cons]
    cases hq : g.findPath? q with
    | none =>
      rcases List.mem_cons.mp hp with rfl | hp
      · rw [hq] at hfound
        cases hfound
      · exact ih hg hn hp hfound
    | some m =>
      have hm := (hg.byPath _ _ hq).1
      have hg' := hg.addEdge hn hm
      have hn' : n < (g.addEdge n m).nodes.size := by rwa [nodes_addEdge]
      rcases List.mem_cons.mp hp with rfl | hp
      · have hrest := grows_linkPaths hg' hn' paths
        have hpath := (Grows.refl.edge hn hm).hasPath (hg.hasPath hq)
        exact ⟨m, hrest.needs (needs_addEdge.mpr (.inl ⟨rfl, rfl⟩)), hrest.hasPath hpath⟩
      · exact ih hg' hn' hp (by rwa [findPath?_addEdge])

/-- Adding an object supplies it with its source; the header is up to what is added next. -/
theorem supplies_addObject (hg : Grows initial g) {unit : QualifiedName} {lang : Language}
    (hrest : Supplies plan f (g.addObject f unit lang).1 g')
    (hheader : plan.units.find? unit = some true →
      unit ∈ plan.fortranUnits.keys ++ plan.programNames ∨
        ∃ d, g'.Needs (g.addObject f unit lang).2 d ∧
          g'.HasPath d (f.path (.ofName .header unit))) : Supplies plan f g g' := by
  have hsource : Supplies plan f g (g.addSource f (.ofName (.source lang) unit)).1 :=
    supplies_addSource (by simp [Artifact.ofName])
  have hs := (gained_addSource hg.wellFormed_of_initial f (.ofName (.source lang) unit)).2
  have hpath : (g.addSource f (.ofName (.source lang) unit)).1.HasPath
      (g.addSource f (.ofName (.source lang) unit)).2 (f.path (.ofName (.source lang) unit)) :=
    hasPath_addSource hg.wellFormed_of_initial _
  have hnode := node_addObject (g := g) (f := f) unit lang
  unfold addObject at hrest hheader hnode
  dsimp only at hrest hheader hnode
  generalize g.addSource f (.ofName (.source lang) unit) = r at *
  obtain ⟨g₁, s⟩ := r
  have hobject := gained_addArtifact (g := g₁) f (.ofName .object unit)
    (show Action.compile lang (f.path (.ofName (.source lang) unit)) ≠ .phony by simp)
  have hedge := Grows.refl.edge hobject.2 (Nat.lt_of_lt_of_le hs hobject.grows.size_le)
  have hnode := (hrest.grows.node_eq (by rw [nodes_addEdge]; exact hobject.2)).trans hnode
  have hsupplied : Supplied plan f g' g₁.nodes.size := by
    refine ⟨fun p hp => ⟨s, ?_, ?_⟩, fun unit' hunit' hobject' => ?_⟩
    · exact hrest.grows.needs (needs_addEdge.mpr (.inl ⟨rfl, rfl⟩))
    · rw [show g'.node g₁.nodes.size = _ from hnode] at hp
      rw [List.mem_singleton.mp hp]
      exact hrest.grows.hasPath (hedge.hasPath (hobject.grows.hasPath hpath))
    · rw [show g'.node g₁.nodes.size = _ from hnode] at hobject'
      obtain rfl := Plan.ofName_injective _ (NodeKind.artifact.inj hobject')
      exact hheader hunit'
  refine hsource.trans (hsupplied.supplies (hobject.grows.trans hedge) ?_ hrest)
  rw [nodes_addEdge]
  exact size_addNode

/-! ## The parts of a plan -/

theorem supplies_foldl {α : Type} {add : ArtifactGraph → α → ArtifactGraph} {l : List α}
    (hadd : ∀ g₁, Grows g g₁ → ∀ x ∈ l, Supplies plan f g₁ (add g₁ x)) :
    Supplies plan f g (l.foldl add g) := by
  induction l generalizing g with
  | nil => exact .refl
  | cons x l ih =>
    have hstep := hadd g .refl x List.mem_cons_self
    exact hstep.trans (ih fun g₁ hg₁ y hy =>
      hadd g₁ (hstep.grows.trans hg₁) y (List.mem_cons_of_mem _ hy))

theorem supplies_addGenerated (hg : Grows initial g)
    (entry : QualifiedName × Option GeneratedRule) :
    Supplies plan f g (addGenerated f g entry) := by
  obtain ⟨action, haction, hassembles, heq⟩ := addGenerated_eq f g entry
  have hfile := gained_addArtifact (g := g) f (.ofName .generated entry.1) haction
  rw [heq]
  refine supplies_addArtifact (grows_linkAggregates
    (hfile.grows.wellFormed hg.wellFormed_of_initial) hfile.2 _) ?_ haction
    (by simp [Artifact.ofName]) fun p hp => ?_
  · rw [nodes_linkAggregates]
    exact size_addNode
  · exact absurd (Action.assembles_of_mem_reads hp) hassembles

theorem needs_header_addUnit (hg : Grows initial g) (unit : QualifiedName) :
    ∃ d, (addUnit f g (unit, true)).Needs (g.addObject f unit .c).2 d ∧
      (addUnit f g (unit, true)).HasPath d (f.path (.ofName .header unit)) := by
  have hobject := gained_addObject hg.wellFormed_of_initial f unit .c
  have hg₁ := (hg.trans hobject.grows).wellFormed_of_initial
  have hheader := gained_addSource hg₁ f (.ofName .header unit)
  have hedge := Grows.refl.edge (Nat.lt_of_lt_of_le hobject.2 hheader.grows.size_le) hheader.2
  exact ⟨_, needs_addEdge.mpr (.inl ⟨rfl, rfl⟩), hedge.hasPath (hasPath_addSource hg₁ _)⟩

theorem supplies_addUnit (hg : Grows initial g) {entry : QualifiedName × Bool}
    (hentry : entry ∈ plan.units.entries) : Supplies plan f g (addUnit f g entry) := by
  obtain ⟨unit, hasHeader⟩ := entry
  have hunit := SortedMap.mem_entries_iff.mp hentry
  have hobject := gained_addObject hg.wellFormed_of_initial f unit .c
  cases hasHeader with
  | false =>
    refine supplies_addObject hg .refl fun hheader => ?_
    rw [hunit] at hheader
    cases hheader
  | true =>
    have hg₁ := (hg.trans hobject.grows).wellFormed_of_initial
    have hheader : Supplies plan f (g.addObject f unit .c).1
        ((g.addObject f unit .c).1.addSource f (.ofName .header unit)).1 :=
      supplies_addSource (by simp [Artifact.ofName])
    have ho := Nat.lt_of_lt_of_le hobject.2 hheader.grows.size_le
    have hh := (gained_addSource hg₁ f (.ofName .header unit)).2
    have hedge := Grows.refl.edge ho hh
    refine supplies_addObject hg (hheader.trans (supplies_of_size_eq hedge ?_)) fun _ =>
      .inr (needs_header_addUnit hg unit)
    exact congrArg Array.size nodes_addEdge

theorem supplies_addFortranUnit (hg : Grows initial g) {unit : QualifiedName}
    (hunit : unit ∈ plan.fortranUnits.keys) : Supplies plan f g (addFortranUnit f g unit) :=
  supplies_addObject hg .refl fun _ => .inl (List.mem_append_left _ hunit)

theorem supplies_addLibraryArtifact (hg : Grows initial g) {objects : List Path} {x : Artifact}
    (hkind : x.kind ≠ .object) {action : Action} (haction : action ≠ .phony)
    (hreads : action.reads = objects) (hfound : ∀ p ∈ objects, (g.findPath? p).isSome) :
    Supplies plan f g (addLibraryArtifact f objects x action g) := by
  have hnode := gained_addArtifact (g := g) f x haction
  have hg₁ := (hg.trans hnode.grows).wellFormed_of_initial
  have hlink := grows_linkPaths hg₁ hnode.2 objects
  have haggregates := grows_linkAggregates (hlink.wellFormed hg₁)
    (Nat.lt_of_lt_of_le hnode.2 hlink.size_le) [.libraries, .all]
  refine supplies_addArtifact (hlink.trans haggregates) ?_ haction hkind fun p hp => ?_
  · unfold addLibraryArtifact
    rw [nodes_linkAggregates, nodes_linkPaths]
    exact size_addNode
  · rw [hreads] at hp
    obtain ⟨d, hneeds, hd⟩ :=
      needs_linkPaths hg₁ hnode.2 hp (hnode.grows.isSome_findPath? (hfound p hp))
    exact ⟨d, haggregates.needs hneeds, haggregates.hasPath hd⟩

theorem supplies_addLibrary (hg : Grows initial g) {library : Library}
    (hfound : ∀ p ∈ libraryObjects plan f library, (g.findPath? p).isSome) :
    Supplies plan f g (addLibrary plan f g library) := by
  have harchive : Supplies plan f g (g.addLibraryArtifact f (libraryObjects plan f library)
      (archiveOf library) (.archive (libraryObjects plan f library))) :=
    supplies_addLibraryArtifact hg (by simp [archiveOf]) (by simp) rfl hfound
  unfold addLibrary
  split
  · exact harchive.trans (supplies_addLibraryArtifact (hg.trans harchive.grows)
      (by simp [sharedObjectOf]) (by simp) rfl
      fun p hp => harchive.grows.isSome_findPath? (hfound p hp))
  · exact harchive

theorem isSome_findPath?_addObject (unit : QualifiedName) (lang : Language) :
    ((g.addObject f unit lang).1.findPath? (f.path (.ofName .object unit))).isSome := by
  unfold addObject
  rw [findPath?_addEdge]
  exact isSome_findPath?_addArtifact _ _

theorem supplies_addProgram (hg : Grows initial g) {program : ProgramSpec}
    (hprogram : program ∈ programSpecs plan)
    (hfound : ∀ x ∈ policy program.name plan, (g.findPath? (f.path x)).isSome) :
    Supplies plan f g (addProgram plan f policy g program) := by
  have hobject := gained_addObject hg.wellFormed_of_initial f program.name program.lang
  have hown : ((g.addObject f program.name program.lang).1.findPath?
      (f.path (.ofName .object program.name))).isSome := isSome_findPath?_addObject _ _
  have hexe : Supplies plan f (g.addObject f program.name program.lang).1
      (addProgram plan f policy g program) := by
    unfold addProgram
    dsimp only
    generalize g.addObject f program.name program.lang = r at hobject hown ⊢
    obtain ⟨g₁, o⟩ := r
    have hnode := gained_addArtifact (g := g₁) f (.ofName .executable program.name)
      (show Action.linkExe program.lang [f.path (.ofName .object program.name)]
        ((policy program.name plan).map f.path) ≠ .phony by simp)
    have hg₂ := ((hg.trans hobject.grows).trans hnode.grows).wellFormed_of_initial
    have hobjects := grows_linkPaths hg₂ hnode.2 [f.path (.ofName .object program.name)]
    have hn := Nat.lt_of_lt_of_le hnode.2 hobjects.size_le
    have harchives := grows_linkPaths (hobjects.wellFormed hg₂) hn
      ((policy program.name plan).map f.path)
    have haggregates := grows_linkAggregates (harchives.wellFormed (hobjects.wellFormed hg₂))
      (Nat.lt_of_lt_of_le hn harchives.size_le)
      (if program.isTest then [.testPrograms] else [.programs, .all])
    refine supplies_addArtifact (hobjects.trans (harchives.trans haggregates)) ?_ (by simp)
      (by simp [Artifact.ofName]) fun p hp => ?_
    · rw [nodes_linkAggregates, nodes_linkPaths, nodes_linkPaths]
      exact size_addNode
    · rcases List.mem_append.mp hp with hp | hp
      · have hfound : ((g₁.addArtifact f _ _).1.findPath? p).isSome :=
          List.mem_singleton.mp hp ▸ hnode.grows.isSome_findPath? hown
        obtain ⟨d, hneeds, hd⟩ := needs_linkPaths hg₂ hnode.2 hp hfound
        have hrest := harchives.trans haggregates
        exact ⟨d, hrest.needs hneeds, hrest.hasPath hd⟩
      · obtain ⟨x, hx, rfl⟩ := List.mem_map.mp hp
        have hfound := ((hobject.grows.trans hnode.grows).trans hobjects).isSome_findPath?
          (hfound x hx)
        obtain ⟨d, hneeds, hd⟩ := needs_linkPaths (hobjects.wellFormed hg₂) hn hp hfound
        exact ⟨d, haggregates.needs hneeds, haggregates.hasPath hd⟩
  exact supplies_addObject hg hexe fun _ =>
    .inl (List.mem_append_right _ (List.mem_map_of_mem hprogram))

/-! ## What is found at a stage -/

theorem isSome_findPath?_object {unit : QualifiedName}
    (h : unit ∈ plan.units.keys ∨ unit ∈ plan.fortranUnits.keys) :
    ((objectStage plan f).findPath? (f.path (.ofName .object unit))).isSome := by
  rcases h with h | h
  · obtain ⟨hasHeader, hunit⟩ := SortedMap.mem_keys_iff.mp h
    have hstage : ((unitStage plan f).findPath? (f.path (.ofName .object unit))).isSome :=
      isSome_findPath?_foldl (SortedMap.mem_entries_iff.mpr hunit)
        (fun g y _ hg => grows_addUnit hg.wellFormed_of_initial f y)
        (fun g hg => (grows_addUnit_object hg.wellFormed_of_initial f unit
          hasHeader).isSome_findPath? (isSome_findPath?_addObject _ _))
        extends_generatedStage.grows
    exact extends_objectStage.grows.isSome_findPath? hstage
  · exact isSome_findPath?_foldl h
      (fun g y _ hg => grows_addFortranUnit hg.wellFormed_of_initial f y)
      (fun g _ => isSome_findPath?_addObject unit .fortran)
      (extends_generatedStage.trans extends_unitStage).grows

theorem isSome_findPath?_libraryObjects {library : Library}
    (hp : p ∈ libraryObjects plan f library) :
    ((objectStage plan f).findPath? p).isSome := by
  obtain ⟨unit, hunit, rfl⟩ := List.mem_map.mp hp
  exact isSome_findPath?_object ((List.mem_append.mp hunit).imp
    (fun h => (List.mem_filter.mp h).1) fun h => (List.mem_filter.mp h).1)

theorem isSome_findPath?_addLibrary (hg : Grows initial g) (library : Library) :
    ((addLibrary plan f g library).findPath? (f.path (archiveOf library))).isSome := by
  have harchive : ((g.addLibraryArtifact f (libraryObjects plan f library) (archiveOf library)
      (.archive (libraryObjects plan f library))).findPath?
        (f.path (archiveOf library))).isSome := by
    unfold addLibraryArtifact
    rw [findPath?_linkAggregates, findPath?_linkPaths]
    exact isSome_findPath?_addArtifact _ _
  have hgrows := grows_addLibraryArtifact hg.wellFormed_of_initial f
    (libraryObjects plan f library) (archiveOf library)
    (show Action.archive (libraryObjects plan f library) ≠ .phony by simp)
  unfold addLibrary
  split
  · exact (grows_addLibraryArtifact (hgrows.wellFormed hg.wellFormed_of_initial) f _ _
      (by simp)).isSome_findPath? harchive
  · exact harchive

theorem isSome_findPath?_archive {library : Library} (h : library ∈ plan.libraries.values) :
    ((libraryStage plan f).findPath? (f.path (archiveOf library))).isSome :=
  isSome_findPath?_foldl h (fun _ y _ hg => grows_addLibrary hg.wellFormed_of_initial plan f y)
    (fun _ hg => isSome_findPath?_addLibrary hg library) extends_initial_objectStage.grows

/-! ## Derived graphs -/

theorem supplies_ofDeclarations :
    Supplies plan f initial (ofDeclarations plan f .everyLibrary) := by
  have h₁ : Supplies plan f initial (generatedStage plan f) :=
    supplies_foldl fun _ hg entry _ => supplies_addGenerated hg entry
  have h₂ : Supplies plan f (generatedStage plan f) (unitStage plan f) :=
    supplies_foldl fun _ hg _ hentry => supplies_addUnit (h₁.grows.trans hg) hentry
  have h₃ : Supplies plan f (unitStage plan f) (objectStage plan f) :=
    supplies_foldl fun _ hg _ hunit =>
      supplies_addFortranUnit ((h₁.trans h₂).grows.trans hg) hunit
  have h₄ : Supplies plan f (objectStage plan f) (libraryStage plan f) :=
    supplies_foldl fun _ hg _ _ =>
      supplies_addLibrary (((h₁.trans h₂).trans h₃).grows.trans hg) fun _ hp =>
        hg.isSome_findPath? (isSome_findPath?_libraryObjects hp)
  have h₅ : Supplies plan f (libraryStage plan f) (ofDeclarations plan f .everyLibrary) :=
    supplies_foldl fun _ hg _ hprogram => by
      refine supplies_addProgram ((((h₁.trans h₂).trans h₃).trans h₄).grows.trans hg) hprogram
        fun x hx => ?_
      obtain ⟨library, hlibrary, rfl⟩ := List.mem_map.mp hx
      exact hg.isSome_findPath? (isSome_findPath?_archive hlibrary)
  exact (((h₁.trans h₂).trans h₃).trans h₄).trans h₅

theorem exists_artifact_of_assembles (h : (derive plan f policy mode).result = .ok g)
    (hn : (g.node n).action.assembles) :
    n < g.nodes.size ∧ ∃ x ∈ plan.outputArtifacts, (g.node n).kind = .artifact x ∧
      (g.node n).path = some (f.path x) := by
  have hlt : n < g.nodes.size :=
    lt_size_of_ne_default fun hdefault => by rw [hdefault] at hn; cases hn
  have hfits := (wellFormed_derive h).fits n hlt
  cases hpath : (g.node n).path with
  | none => rw [hfits.mp hpath] at hn; cases hn
  | some p =>
    have hproduces : (g.node n).action.producesOutput := by
      cases haction : (g.node n).action <;> rw [haction] at hn <;> first | rfl | cases hn
    obtain ⟨x, hx, hkind, rfl⟩ := (makes_derive h).exists_artifact ⟨hproduces, hpath⟩
    exact ⟨hlt, x, hx, hkind, rfl⟩

/-- Every unit with a header has an object in a derived graph that needs the header. -/
theorem exists_object_needs_header (h : (derive plan f policy mode).result = .ok g)
    {unit : QualifiedName} (hunit : plan.units.find? unit = some true) :
    ∃ n, g.node n = ⟨.artifact (.ofName .object unit), some (f.path (.ofName .object unit)),
        .compile .c (f.path (.ofName (.source .c) unit))⟩ ∧
      ∃ d, g.Needs n d ∧ g.HasPath d (f.path (.ofName .header unit)) := by
  have hgenerated : Grows initial (generatedStage plan f) := extends_generatedStage.grows
  obtain ⟨g₁, hstage, hgrows⟩ := exists_addUnit h (SortedMap.mem_entries_iff.mpr hunit)
  have hg₁ := hgenerated.trans hstage
  have hobject := gained_addObject hg₁.wellFormed_of_initial f unit .c
  have hadded := grows_addUnit_object hg₁.wellFormed_of_initial f unit true
  obtain ⟨d, hneeds, hd⟩ := needs_header_addUnit (f := f) hg₁ unit
  refine ⟨(g₁.addObject f unit .c).2, ?_, d, hgrows.needs hneeds, hgrows.hasPath hd⟩
  rw [(hadded.trans hgrows).node_eq hobject.2, node_addObject]

theorem supplied_derive (h : (derive plan f .everyLibrary mode).result = .ok g)
    (hn : (g.node n).action.assembles) : Supplied plan f g n := by
  obtain ⟨g₀, hwires, hsettles, -⟩ := exists_wires_of_derive h
  have hgrown := hwires.settles.trans hsettles
  obtain ⟨hlt, x, -, hkind, -⟩ := exists_artifact_of_assembles h hn
  have hdeclared := hgrown.artifacts n x hlt hkind
  rw [hgrown.grows.node_eq hdeclared] at hkind
  have hinitial : initial.nodes.size ≤ n := by
    by_contra hinitial
    obtain ⟨aggregate, hnode⟩ :=
      supplies_ofDeclarations.grows.exists_aggregate (Nat.lt_of_not_le hinitial)
    rw [hnode] at hkind
    cases hkind
  exact (supplies_ofDeclarations.supplied n hinitial hdeclared).grows hdeclared hgrown.grows

/-! ## What is read and what is needed -/

/-- The headers that a node needs: that of the unit whose object it is. Where the unit's name is
another unit's or a program's as well, the object may be that one's, which has none. -/
inductive HeadersOf (plan : Plan) (f : FileNames) (node : Node) : List Path → Prop
  | unit (unit : QualifiedName) : plan.units.find? unit = some true →
      node.kind = .artifact (.ofName .object unit) →
      HeadersOf plan f node [f.path (.ofName .header unit)]
  | none : (∀ unit, plan.units.find? unit = some true →
      node.kind = .artifact (.ofName .object unit) →
      unit ∈ plan.fortranUnits.keys ++ plan.programNames) → HeadersOf plan f node []

/-- No generated file that is made by a rule has the path of another output. -/
def GeneratedApart (plan : Plan) (f : FileNames) : Prop :=
  ∀ file ∈ plan.ruledFiles, ∀ x ∈ plan.outputArtifacts,
    (f.path (.ofName .generated file)).Same (f.path x) → x = .ofName .generated file

/-- Only what a command reads, and a header, is needed by a node of the build's own tools. -/
theorem read_or_header_of_needs (h : (derive plan f policy mode).result = .ok g)
    (hapart : GeneratedApart plan f) (hn : (g.node n).action.assembles) (hneeds : g.Needs n d) :
    (∃ p ∈ (g.node n).action.reads, g.HasPath d p) ∨
      ∃ unit, plan.units.find? unit = some true ∧
        (g.node n).kind = .artifact (.ofName .object unit) ∧
        g.HasPath d (f.path (.ofName .header unit)) := by
  obtain ⟨hlt, x, hx, hkind, hpath⟩ := exists_artifact_of_assembles h hn
  rcases reason_of_needs h hneeds with hreason | ⟨⟨file, input⟩, ⟨rule, hrule, -⟩, p, -, hfile, -⟩
  · cases hreason with
    | aggregate y hkind' | shorthand name hkind' => rw [hkind] at hkind'; cases hkind'
    | read p hp hd => exact .inl ⟨p, hp, hd⟩
    | header unit hunit hobject hd => exact .inr ⟨unit, hunit, hobject, hd⟩
  · -- The node would be that of a generated file, which is made by its rule.
    obtain ⟨q, hq, hsame⟩ := (wellFormed_derive h).hasPath hfile
    cases hpath.symm.trans hq
    have hruled : file ∈ plan.ruledFiles :=
      List.mem_map.mpr ⟨_, List.mem_filter.mpr ⟨SortedMap.mem_entries_iff.mpr hrule, rfl⟩, rfl⟩
    have hgenerated := hapart file hruled x hx hsame
    exact absurd (congrArg Artifact.kind hgenerated) ((suits_derive h hlt x hkind).2 hn)

theorem needsExactly_of_assembles (h : (derive plan f .everyLibrary mode).result = .ok g)
    (hapart : GeneratedApart plan f) (hn : (g.node n).action.assembles) :
    ∃ headers, HeadersOf plan f (g.node n) headers ∧
      g.NeedsExactly n ((g.node n).action.reads ++ headers) := by
  have hsupplied := supplied_derive h hn
  have honly := fun d => read_or_header_of_needs (d := d) h hapart hn
  by_cases hheader : ∃ unit, plan.units.find? unit = some true ∧
      (g.node n).kind = .artifact (.ofName .object unit) ∧
      ∃ d, g.Needs n d ∧ g.HasPath d (f.path (.ofName .header unit))
  · obtain ⟨unit, hunit, hkind, hneeded⟩ := hheader
    refine ⟨_, .unit unit hunit hkind, fun p hp => ?_, fun d hneeds => ?_⟩
    · rcases List.mem_append.mp hp with hp | hp
      · exact hsupplied.reads p hp
      · rwa [List.mem_singleton.mp hp]
    · rcases honly d hneeds with ⟨p, hp, hd⟩ | ⟨unit', -, hkind', hd⟩
      · exact ⟨p, List.mem_append_left _ hp, hd⟩
      · rw [hkind] at hkind'
        obtain rfl := Plan.ofName_injective _ (NodeKind.artifact.inj hkind')
        exact ⟨_, List.mem_append_right _ (List.mem_singleton_self _), hd⟩
  · refine ⟨[], .none fun unit hunit hkind => ?_, fun p hp => ?_, fun d hneeds => ?_⟩
    · refine (hsupplied.header unit hunit hkind).resolve_right fun hneeded => ?_
      exact hheader ⟨unit, hunit, hkind, hneeded⟩
    · rw [List.append_nil] at hp
      exact hsupplied.reads p hp
    · rcases honly d hneeds with ⟨p, hp, hd⟩ | ⟨unit, hunit, hkind, hd⟩
      · exact ⟨p, List.mem_append_left _ hp, hd⟩
      · exact absurd ⟨unit, hunit, hkind, d, hneeds, hd⟩ hheader

/-- **What an action reads is what its node needs.** Every file that a command names is that of
another node, which the command's node needs. If no generated file has the path of another output,
the nodes of the build's own tools need nothing else, the headers of units apart; every unit with a
header has an object that needs it. An execution runs a command only after the nodes of the files it
names. -/
theorem reads_are_needed (h : (derive plan f .everyLibrary mode).result = .ok g) :
    (∀ n, ∀ p ∈ (g.node n).action.reads, ∃ d, d ≠ n ∧ g.Needs n d ∧ g.HasPath d p) ∧
      (GeneratedApart plan f → ∀ n, (g.node n).action.assembles → ∃ headers,
        HeadersOf plan f (g.node n) headers ∧
          g.NeedsExactly n ((g.node n).action.reads ++ headers)) ∧
      (∀ unit, plan.units.find? unit = some true → ∃ n,
        g.node n = ⟨.artifact (.ofName .object unit), some (f.path (.ofName .object unit)),
          .compile .c (f.path (.ofName (.source .c) unit))⟩ ∧
        ∃ d, g.Needs n d ∧ g.HasPath d (f.path (.ofName .header unit))) ∧
      ∀ {σ : Type} (r : Runner σ) (s : σ) (target : NodeId), target < g.nodes.size →
        ∀ before n result after,
          (r.recorded.runLevels g (g.levels target) (s, [])).2.2 =
            before ++ (n, result) :: after →
          ∀ p ∈ (g.node n).action.reads, ∃ d status,
            g.HasPath d p ∧ (d, .ok status) ∈ before := by
  have hord := ordered_derive h
  have hneeded : ∀ n, ∀ p ∈ (g.node n).action.reads, ∃ d, g.Needs n d ∧ g.HasPath d p :=
    fun n p hp => (supplied_derive h (Action.assembles_of_mem_reads hp)).reads p hp
  refine ⟨fun n p hp => ?_, fun hapart n hn => needsExactly_of_assembles h hapart hn,
    fun unit hunit => exists_object_needs_header h hunit, ?_⟩
  · obtain ⟨d, hneeds, hd⟩ := hneeded n p hp
    exact ⟨d, fun heq => hord.not_needs_self n (heq ▸ hneeds), hneeds, hd⟩
  · intro σ r s target htarget before n result after hcalls p hp
    obtain ⟨d, hneeds, hd⟩ := hneeded n p hp
    obtain ⟨status, hdone⟩ :=
      (accounts_runner r hord htarget s).ready before n result after hcalls d hneeds
    exact ⟨d, status, hd, hdone⟩

/-! ## A module with a library and a program -/

/-- A unit with a header, which makes up a library, a program, and a generated file. -/
def libraryPlan : Plan where
  project := "demo"
  modules := SortedMap.insert ∅ ⟨"A"⟩ ()
  units := SortedMap.insert ∅ ⟨⟨"A"⟩, "foo"⟩ true
  programs := SortedMap.insert ∅ ⟨⟨"A"⟩, "main"⟩ ()
  generated := SortedMap.insert ∅ ⟨⟨"A"⟩, "version.txt"⟩ (some ⟨["make-version"], []⟩)
  libraries := SortedMap.insert ∅ ⟨"A"⟩ ⟨⟨"A"⟩, "demo", false⟩

def withLibrary : ArtifactGraph := (withInputs libraryPlan {} .everyLibrary).toOption.getD {}

theorem constructs_withLibrary :
    Constructs libraryPlan {} .everyLibrary (.standalone ⟨"A"⟩) withLibrary
      [(0, 12), (2, 12), (12, 9), (12, 11), (11, 10), (0, 9), (1, 9), (9, 7), (7, 8), (7, 6), (0, 5),
        (4, 5)] 13 :=
  ⟨constructed_of_withInputs (eq_ok_of_isSome (by rfl)) rfl, by rfl, by rfl⟩

theorem derive_withLibrary :
    (derive libraryPlan {} .everyLibrary (.standalone ⟨"A"⟩)).result = .ok withLibrary :=
  constructs_withLibrary.derive (by cbv)

/-- The object needs its source and its header, the program its object and the library. -/
theorem reads_are_needed_withLibrary :
    (derive libraryPlan {} .everyLibrary (.standalone ⟨"A"⟩)).result = .ok withLibrary ∧
      withLibrary.NeedsExactly 7 [⟨"A/foo.cpp"⟩, ⟨"A/foo.h"⟩] ∧
      withLibrary.NeedsExactly 12 [⟨"A/main.o"⟩, ⟨"A/libdemo.a"⟩] := by
  obtain ⟨-, hexact, -⟩ := reads_are_needed derive_withLibrary
  have hapart : GeneratedApart libraryPlan {} := by unfold GeneratedApart; decide
  refine ⟨derive_withLibrary, ?object, ?program⟩
  case object =>
    have hnode : withLibrary.node 7 = ⟨.artifact ⟨.object, ⟨"A"⟩, "foo"⟩, some ⟨"A/foo.o"⟩,
        .compile .c ⟨"A/foo.cpp"⟩⟩ := by rfl
    obtain ⟨headers, hheaders, hneeds⟩ := hexact hapart 7 (by rw [hnode]; rfl)
    rw [hnode] at hheaders hneeds
    cases hheaders with
    | unit unit _ hkind =>
      obtain ⟨module, name⟩ := unit
      cases hkind
      exact hneeds
    | none hother =>
      have hmem := hother ⟨⟨"A"⟩, "foo"⟩ (by rfl) rfl
      exact absurd hmem (by decide)
  case program =>
    have hnode : withLibrary.node 12 = ⟨.artifact ⟨.executable, ⟨"A"⟩, "main"⟩, some ⟨"A/main"⟩,
        .linkExe .c [⟨"A/main.o"⟩] [⟨"A/libdemo.a"⟩]⟩ := by rfl
    obtain ⟨headers, hheaders, hneeds⟩ := hexact hapart 12 (by rw [hnode]; rfl)
    rw [hnode] at hheaders hneeds
    cases hheaders with
    | unit unit _ hkind => cases hkind
    | none _ => exact hneeds

end ModularBuild.ArtifactGraph
