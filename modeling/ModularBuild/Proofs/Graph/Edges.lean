import ModularBuild.Proofs.Graph.Growth

/-!
# Why there is an edge

Every edge of a derived graph is there for a reason: an aggregate needs its members and a shorthand
name what it stands for, a node needs the files that its command reads, and the object of a unit
needs the unit's header. `Extends` carries the reasons through the stages in which the declarations
of a plan are added; the inputs of rules, which are wired last, are another matter.
-/

namespace ModularBuild

/-- The files that the command of an action is given. -/
def Action.reads : Action → List Path
  | .compile _ path => [path]
  | .archive objects | .sharedLink objects => objects
  | .linkExe _ objects archives => objects ++ archives
  | .source | .generate _ _ | .phony => []

/-- Whether the output is put together from files of the project, by a tool of the build. -/
def Action.assembles : Action → Bool
  | .compile _ _ | .archive _ | .sharedLink _ | .linkExe _ _ _ => true
  | .source | .generate _ _ | .phony => false

theorem Action.assembles_of_mem_reads {action : Action} {p : Path} (h : p ∈ action.reads) :
    action.assembles := by
  cases action <;> first | rfl | cases h

/-- An artifact's node has the artifact's file, and the build's own tools make no generated file. -/
def Node.Suits (f : FileNames) (node : Node) : Prop :=
  ∀ a, node.kind = .artifact a →
    node.path = some (f.path a) ∧ (node.action.assembles → a.kind ≠ .generated)

namespace ArtifactGraph

variable {g g' g'' : ArtifactGraph} {f : FileNames} {plan : Plan} {policy : LinkPolicy}
  {mode : BuildMode} {a b d n : NodeId} {p : Path} {node : Node}

/-! ## What stays -/

theorem lt_size_of_ne_default (h : g.node n ≠ default) : n < g.nodes.size := by
  by_contra hn
  exact h (by rw [ArtifactGraph.node, Array.getElem?_eq_none (Nat.le_of_not_lt hn)]; rfl)

theorem Grows.node_eq (h : Grows g g') (hn : n < g.nodes.size) : g'.node n = g.node n := by
  induction h with
  | refl => rfl
  | node h _ ih => rw [node_addNode_of_lt (Nat.lt_of_lt_of_le hn h.size_le), ih]
  | edge _ _ _ ih => rw [node_addEdge, ih]
  | shorthands _ _ ih => exact ih

theorem needs_addEdge : (g.addEdge a b).Needs n d ↔ n = a ∧ d = b ∨ g.Needs n d := by
  rw [Needs, Needs, mem_dependencies, mem_dependencies, mem_edges_addEdge, Prod.mk.injEq]

theorem Grows.needs (h : Grows g g') (hn : g.Needs n d) : g'.Needs n d := by
  induction h with
  | refl => exact hn
  | node _ _ ih => exact ih
  | edge _ _ _ ih => exact needs_addEdge.mpr (.inr ih)
  | shorthands _ _ ih => exact ih

/-- The path leads to some node from the first one on that has it. -/
theorem Grows.isSome_findPath? (h : Grows g g') (hp : (g.findPath? p).isSome) :
    (g'.findPath? p).isSome := by
  induction h with
  | refl => exact hp
  | node _ _ ih =>
    rw [findPath?_addNode]
    split
    · rfl
    · exact ih
  | edge _ _ _ ih => rwa [findPath?_addEdge]
  | shorthands _ _ ih => exact ih

@[simp] theorem nodes_linkPaths (paths : List Path) :
    (g.linkPaths n paths).nodes = g.nodes := by
  refine List.foldlRecOn (motive := fun g' : ArtifactGraph => g'.nodes = g.nodes) _ _ rfl
    fun g' h p _ => ?_
  split
  · rw [nodes_addEdge, h]
  · exact h

@[simp] theorem nodes_linkAggregates (as : List Aggregate) :
    (g.linkAggregates as n).nodes = g.nodes :=
  List.foldlRecOn (motive := fun g' : ArtifactGraph => g'.nodes = g.nodes) _ _ rfl
    fun g' h x _ => by rw [nodes_addEdge, h]

@[simp] theorem findPath?_linkPaths (paths : List Path) :
    (g.linkPaths n paths).findPath? p = g.findPath? p := by
  refine List.foldlRecOn (motive := fun g' : ArtifactGraph => g'.findPath? p = g.findPath? p) _ _
    rfl fun g' h q _ => ?_
  split
  · rw [findPath?_addEdge, h]
  · exact h

@[simp] theorem findPath?_linkAggregates (as : List Aggregate) :
    (g.linkAggregates as n).findPath? p = g.findPath? p :=
  List.foldlRecOn (motive := fun g' : ArtifactGraph => g'.findPath? p = g.findPath? p) _ _ rfl
    fun g' h x _ => by rw [findPath?_addEdge, h]

/-- The node's file is this one, in some spelling. -/
def HasPath (g : ArtifactGraph) (n : NodeId) (p : Path) : Prop :=
  ∃ q, (g.node n).path = some q ∧ p.Same q

theorem HasPath.lt_size (h : g.HasPath n p) : n < g.nodes.size := by
  obtain ⟨q, hq, -⟩ := h
  exact lt_size_of_path hq

theorem Grows.hasPath (h : Grows g g') (hn : g.HasPath n p) : g'.HasPath n p := by
  obtain ⟨q, hq, hsame⟩ := hn
  exact ⟨q, by rw [h.node_eq (lt_size_of_path hq), hq], hsame⟩

theorem WellFormed.hasPath (hg : g.WellFormed) (h : g.findPath? p = some n) : g.HasPath n p :=
  (hg.byPath p n h).2

/-- The files of the nodes that a node needs are these. -/
structure NeedsExactly (g : ArtifactGraph) (n : NodeId) (paths : List Path) : Prop where
  needed : ∀ p ∈ paths, ∃ d, g.Needs n d ∧ g.HasPath d p
  only : ∀ d, g.Needs n d → ∃ p ∈ paths, g.HasPath d p

theorem Grows.wellFormed_of_initial (h : Grows initial g) : g.WellFormed :=
  h.wellFormed wellFormed_initial

theorem Grows.node_aggregate (h : Grows initial g) (x : Aggregate) :
    g.node (aggregate x) = .phony (.aggregate x) := by
  rw [h.node_eq (wellFormed_initial.aggregates x), node_initial_aggregate]

theorem Grows.exists_aggregate (h : Grows initial g) (hn : n < initial.nodes.size) :
    ∃ x, g.node n = .phony (.aggregate x) := by
  rw [h.node_eq hn]
  match n, hn with
  | 0, _ | 1, _ | 2, _ | 3, _ | 4, _ => exact ⟨_, rfl⟩

/-! ## Reasons -/

/-- Why one node needs another. -/
inductive Reason (plan : Plan) (f : FileNames) (g : ArtifactGraph) (n d : NodeId) : Prop
  /-- The node is an aggregate of others. -/
  | aggregate (x : Aggregate) : (g.node n).kind = .aggregate x → Reason plan f g n d
  /-- The node is another name. -/
  | shorthand (name : String) : (g.node n).kind = .shorthand name → Reason plan f g n d
  /-- The node's command reads the other's file. -/
  | read (p : Path) : p ∈ (g.node n).action.reads → g.HasPath d p → Reason plan f g n d
  /-- The node is the object of a unit whose header the other is. -/
  | header (unit : QualifiedName) : plan.units.find? unit = some true →
      (g.node n).kind = .artifact (.ofName .object unit) →
      g.HasPath d (f.path (.ofName .header unit)) → Reason plan f g n d

theorem Reason.lt_size (h : Reason plan f g n d) : n < g.nodes.size := by
  refine lt_size_of_ne_default fun hdefault => ?_
  cases h with
  | aggregate x hkind | shorthand name hkind => rw [hdefault] at hkind; cases hkind
  | read p hp => rw [hdefault] at hp; cases hp
  | header unit _ hkind => rw [hdefault] at hkind; cases hkind

theorem Reason.grows (h : Reason plan f g n d) (hg : Grows g g') : Reason plan f g' n d := by
  have hnode := hg.node_eq h.lt_size
  cases h with
  | aggregate x hkind => exact .aggregate x (hnode ▸ hkind)
  | shorthand name hkind => exact .shorthand name (hnode ▸ hkind)
  | read p hp hd => exact .read p (hnode ▸ hp) (hg.hasPath hd)
  | header unit hunit hkind hd => exact .header unit hunit (hnode ▸ hkind) (hg.hasPath hd)

/-- A graph grows by nodes that suit their artifacts, and by edges that have a reason. -/
structure Extends (plan : Plan) (f : FileNames) (g g' : ArtifactGraph) : Prop where
  grows : Grows g g'
  suits : ∀ n, g.nodes.size ≤ n → n < g'.nodes.size → (g'.node n).Suits f
  reasons : ∀ n d, g'.Needs n d → g.Needs n d ∨ Reason plan f g' n d

theorem Extends.refl : Extends plan f g g :=
  ⟨.refl, fun _ hn hn' => absurd hn' (Nat.not_lt_of_le hn), fun _ _ h => .inl h⟩

theorem Extends.trans (h : Extends plan f g g') (h' : Extends plan f g' g'') :
    Extends plan f g g'' where
  grows := h.grows.trans h'.grows
  suits n hn hn'' := by
    by_cases hn' : n < g'.nodes.size
    · rw [h'.grows.node_eq hn']
      exact h.suits n hn hn'
    · exact h'.suits n (Nat.le_of_not_lt hn') hn''
  reasons n d hneeds := by
    rcases h'.reasons n d hneeds with hneeds | hreason
    · exact (h.reasons n d hneeds).imp_right fun hreason => hreason.grows h'.grows
    · exact .inr hreason

theorem extends_addNode (hfits : node.Fits) (hsuits : node.Suits f) :
    Extends plan f g (g.addNode node).1 where
  grows := Grows.refl.node hfits
  suits n hn hn' := by
    rw [size_addNode] at hn'
    rw [Nat.le_antisymm (Nat.le_of_lt_succ hn') hn, node_addNode_self]
    exact hsuits
  reasons _ _ h := .inl h

theorem Reason.addEdge (h : Reason plan f g a b) (ha : a < g.nodes.size) (hb : b < g.nodes.size) :
    Extends plan f g (g.addEdge a b) where
  grows := Grows.refl.edge ha hb
  suits n hn hn' := absurd (nodes_addEdge ▸ hn') (Nat.not_lt_of_le hn)
  reasons n d hneeds := by
    rcases needs_addEdge.mp hneeds with ⟨rfl, rfl⟩ | hneeds
    · exact .inr (h.grows (Grows.refl.edge ha hb))
    · exact .inl hneeds

/-! ## Adding artifacts -/

theorem node_addArtifact (artifact : Artifact) (action : Action) :
    (g.addArtifact f artifact action).1.node (g.addArtifact f artifact action).2 =
      ⟨.artifact artifact, some (f.path artifact), action⟩ :=
  node_addNode_self

theorem extends_addArtifact (artifact : Artifact) {action : Action} (haction : action ≠ .phony)
    (hkind : action.assembles → artifact.kind ≠ .generated) :
    Extends plan f g (g.addArtifact f artifact action).1 :=
  extends_addNode ⟨nofun, fun h => absurd h haction⟩ fun _ h => by
    cases h
    exact ⟨rfl, hkind⟩

theorem extends_addSource (artifact : Artifact) :
    Extends plan f g (g.addSource f artifact).1 := by
  unfold addSource
  split
  · exact .refl
  · exact extends_addArtifact artifact (by decide) nofun

theorem hasPath_addSource (hg : g.WellFormed) (artifact : Artifact) :
    (g.addSource f artifact).1.HasPath (g.addSource f artifact).2 (f.path artifact) := by
  unfold addSource
  cases hfind : g.findPath? (f.path artifact) with
  | some n => exact hg.hasPath hfind
  | none => exact ⟨_, congrArg Node.path (node_addArtifact artifact .source), rfl⟩

theorem extends_linkPaths (hg : g.WellFormed) {paths : List Path}
    (hpaths : ∀ p ∈ paths, p ∈ (g.node n).action.reads) :
    Extends plan f g (g.linkPaths n paths) := by
  unfold linkPaths
  induction paths generalizing g with
  | nil => exact .refl
  | cons p paths ih =>
    obtain ⟨hp, hpaths⟩ := List.forall_mem_cons.mp hpaths
    rw [List.foldl_cons]
    cases hfind : g.findPath? p with
    | none => exact ih hg hpaths
    | some m =>
      have hreason : Reason plan f g n m := .read p hp (hg.hasPath hfind)
      have hedge := hreason.addEdge hreason.lt_size (hg.byPath _ _ hfind).1
      refine hedge.trans (ih (hedge.grows.wellFormed hg) fun q hq => ?_)
      rw [node_addEdge]
      exact hpaths q hq

theorem extends_linkAggregates (hg : Grows initial g) (hn : n < g.nodes.size)
    (as : List Aggregate) : Extends plan f g (g.linkAggregates as n) := by
  unfold linkAggregates
  induction as generalizing g with
  | nil => exact .refl
  | cons x as ih =>
    have hreason : Reason plan f g (aggregate x) n :=
      .aggregate x (congrArg Node.kind (hg.node_aggregate x))
    have hedge := hreason.addEdge hreason.lt_size hn
    exact hedge.trans (ih (hg.trans hedge.grows) (by rwa [nodes_addEdge]))

theorem extends_addObject (hg : Grows initial g) (unit : QualifiedName) (lang : Language) :
    Extends plan f g (g.addObject f unit lang).1 := by
  have hsource : Extends plan f g (g.addSource f (.ofName (.source lang) unit)).1 :=
    extends_addSource _
  have hs := (gained_addSource hg.wellFormed_of_initial f (.ofName (.source lang) unit)).2
  have hpath : (g.addSource f (.ofName (.source lang) unit)).1.HasPath
      (g.addSource f (.ofName (.source lang) unit)).2 (f.path (.ofName (.source lang) unit)) :=
    hasPath_addSource hg.wellFormed_of_initial _
  unfold addObject
  dsimp only
  generalize g.addSource f (.ofName (.source lang) unit) = r at hsource hs hpath ⊢
  obtain ⟨g₁, s⟩ := r
  have hobject : Extends plan f g₁ (g₁.addArtifact f (.ofName .object unit)
      (.compile lang (f.path (.ofName (.source lang) unit)))).1 :=
    extends_addArtifact _ (by simp) (by simp [Artifact.ofName])
  have hreason : Reason plan f (g₁.addArtifact f (.ofName .object unit)
      (.compile lang (f.path (.ofName (.source lang) unit)))).1 g₁.nodes.size s := by
    refine .read (f.path (.ofName (.source lang) unit)) ?_ (hobject.grows.hasPath hpath)
    exact node_addArtifact (g := g₁) (f := f) _ _ ▸ List.mem_singleton_self _
  exact (hsource.trans hobject).trans
    (hreason.addEdge hreason.lt_size (Nat.lt_of_lt_of_le hs hobject.grows.size_le))

theorem node_addObject (unit : QualifiedName) (lang : Language) :
    (g.addObject f unit lang).1.node (g.addObject f unit lang).2 =
      ⟨.artifact (.ofName .object unit), some (f.path (.ofName .object unit)),
        .compile lang (f.path (.ofName (.source lang) unit))⟩ := by
  unfold addObject
  rw [node_addEdge]
  exact node_addArtifact _ _

/-! ## The parts of a plan -/

theorem extends_foldl {α : Type} {add : ArtifactGraph → α → ArtifactGraph} {l : List α}
    (hadd : ∀ g, ∀ x ∈ l, Grows initial g → Extends plan f g (add g x)) (hg : Grows initial g) :
    Extends plan f g (l.foldl add g) := by
  induction l generalizing g with
  | nil => exact .refl
  | cons x l ih =>
    have h := hadd g x List.mem_cons_self hg
    exact h.trans (ih (fun g x hx => hadd g x (List.mem_cons_of_mem _ hx)) (hg.trans h.grows))

/-- A generated file is added with an action that is not one of the build's own tools. -/
theorem addGenerated_eq (f : FileNames) (g : ArtifactGraph)
    (entry : QualifiedName × Option GeneratedRule) :
    ∃ action : Action, action ≠ .phony ∧ ¬ action.assembles ∧ addGenerated f g entry =
      (g.addArtifact f (.ofName .generated entry.1) action).1.linkAggregates [.generated, .all]
        (g.addArtifact f (.ofName .generated entry.1) action).2 := by
  obtain ⟨file, _ | rule⟩ := entry
  · exact ⟨.source, by simp, by simp [Action.assembles], rfl⟩
  · exact ⟨.generate rule.command ⟨file.module.text⟩, by simp, by simp [Action.assembles], rfl⟩

theorem extends_addGenerated (hg : Grows initial g)
    (entry : QualifiedName × Option GeneratedRule) :
    Extends plan f g (addGenerated f g entry) := by
  obtain ⟨action, haction, hassembles, heq⟩ := addGenerated_eq f g entry
  have hfile : Extends plan f g (g.addArtifact f (.ofName .generated entry.1) action).1 :=
    extends_addArtifact _ haction fun h => absurd h hassembles
  rw [heq]
  exact hfile.trans (extends_linkAggregates (hg.trans hfile.grows)
    (gained_addArtifact f _ haction).2 _)

theorem extends_addUnit (hg : Grows initial g) {entry : QualifiedName × Bool}
    (hentry : entry ∈ plan.units.entries) : Extends plan f g (addUnit f g entry) := by
  obtain ⟨unit, hasHeader⟩ := entry
  have hobject : Extends plan f g (g.addObject f unit .c).1 := extends_addObject hg unit .c
  have ho := (gained_addObject hg.wellFormed_of_initial f unit .c).2
  have hnode := node_addObject (g := g) (f := f) unit .c
  unfold addUnit
  dsimp only
  generalize g.addObject f unit .c = r at hobject ho hnode ⊢
  obtain ⟨g₁, o⟩ := r
  cases hasHeader with
  | false => exact hobject
  | true =>
    have hg₁ := (hg.trans hobject.grows).wellFormed_of_initial
    have hheader : Extends plan f g₁ (g₁.addSource f (.ofName .header unit)).1 :=
      extends_addSource _
    have hreason : Reason plan f (g₁.addSource f (.ofName .header unit)).1 o
        (g₁.addSource f (.ofName .header unit)).2 := by
      refine .header unit (SortedMap.mem_entries_iff.mp hentry) ?_ (hasPath_addSource hg₁ _)
      rw [hheader.grows.node_eq ho, hnode]
    exact (hobject.trans hheader).trans (hreason.addEdge hreason.lt_size
      (gained_addSource hg₁ f (.ofName .header unit)).2)

theorem extends_addLibraryArtifact (hg : Grows initial g) {objects : List Path}
    {artifact : Artifact} (hartifact : artifact.kind ≠ .generated) {action : Action}
    (hreads : action.reads = objects) (haction : action ≠ .phony) :
    Extends plan f g (addLibraryArtifact f objects artifact action g) := by
  have hnode : Extends plan f g (g.addArtifact f artifact action).1 :=
    extends_addArtifact _ haction fun _ => hartifact
  have hg' := hg.trans hnode.grows
  have hlink : Extends plan f (g.addArtifact f artifact action).1
      ((g.addArtifact f artifact action).1.linkPaths (g.addArtifact f artifact action).2
        objects) :=
    extends_linkPaths hg'.wellFormed_of_initial fun p hp => by
      rw [node_addArtifact, hreads]
      exact hp
  exact (hnode.trans hlink).trans (extends_linkAggregates (hg'.trans hlink.grows)
    (Nat.lt_of_lt_of_le (gained_addArtifact f _ haction).2 hlink.grows.size_le) _)

theorem extends_addLibrary (hg : Grows initial g) (library : Library) :
    Extends plan f g (addLibrary plan f g library) := by
  have harchive : Extends plan f g (g.addLibraryArtifact f (libraryObjects plan f library)
      (archiveOf library) (.archive (libraryObjects plan f library))) :=
    extends_addLibraryArtifact hg (by simp [archiveOf]) rfl (by simp)
  unfold addLibrary
  split
  · exact harchive.trans (extends_addLibraryArtifact (hg.trans harchive.grows)
      (by simp [sharedObjectOf]) rfl (by simp))
  · exact harchive

theorem extends_addProgram (hg : Grows initial g) (program : ProgramSpec) :
    Extends plan f g (addProgram plan f policy g program) := by
  have hobject : Extends plan f g (g.addObject f program.name program.lang).1 :=
    extends_addObject hg program.name program.lang
  unfold addProgram
  generalize g.addObject f program.name program.lang = r at hobject ⊢
  obtain ⟨g₁, o⟩ := r
  dsimp only
  generalize [f.path (.ofName .object program.name)] = objects,
    (policy program.name plan).map f.path = archives
  have hexe : Extends plan f g₁ (g₁.addArtifact f (.ofName .executable program.name)
      (.linkExe program.lang objects archives)).1 :=
    extends_addArtifact _ (by simp) (by simp [Artifact.ofName])
  have hn : (g₁.addArtifact f (.ofName .executable program.name)
      (.linkExe program.lang objects archives)).2 < _ :=
    (gained_addArtifact f _ (by simp)).2
  have hnode := node_addArtifact (g := g₁) (f := f) (.ofName .executable program.name)
    (.linkExe program.lang objects archives)
  generalize g₁.addArtifact f (.ofName .executable program.name)
    (.linkExe program.lang objects archives) = r at hexe hn hnode ⊢
  obtain ⟨g₂, n⟩ := r
  have hg₂ := (hg.trans hobject.grows).trans hexe.grows
  have hobjects : Extends plan f g₂ (g₂.linkPaths n objects) :=
    extends_linkPaths hg₂.wellFormed_of_initial fun p hp => by
      rw [hnode]
      exact List.mem_append_left _ hp
  have hg₃ := hg₂.trans hobjects.grows
  have harchives : Extends plan f (g₂.linkPaths n objects)
      ((g₂.linkPaths n objects).linkPaths n archives) :=
    extends_linkPaths hg₃.wellFormed_of_initial fun p hp => by
      rw [hobjects.grows.node_eq hn, hnode]
      exact List.mem_append_right _ hp
  exact hobject.trans (hexe.trans (hobjects.trans (harchives.trans (extends_linkAggregates
    (hg₃.trans harchives.grows) (Nat.lt_of_lt_of_le hn
      (hobjects.grows.trans harchives.grows).size_le) _))))

/-! ## Before rule inputs are wired

The graph of the declarations grows in stages: generated files, units, Fortran units, libraries and
programs. -/

def generatedStage (plan : Plan) (f : FileNames) : ArtifactGraph :=
  plan.generated.entries.foldl (addGenerated f) initial

def unitStage (plan : Plan) (f : FileNames) : ArtifactGraph :=
  plan.units.entries.foldl (addUnit f) (generatedStage plan f)

def objectStage (plan : Plan) (f : FileNames) : ArtifactGraph :=
  plan.fortranUnits.keys.foldl (addFortranUnit f) (unitStage plan f)

def libraryStage (plan : Plan) (f : FileNames) : ArtifactGraph :=
  plan.libraries.values.foldl (addLibrary plan f) (objectStage plan f)

theorem extends_generatedStage : Extends plan f initial (generatedStage plan f) :=
  extends_foldl (fun _ entry _ hg => extends_addGenerated hg entry) .refl

theorem extends_unitStage : Extends plan f (generatedStage plan f) (unitStage plan f) :=
  extends_foldl (fun _ _ hentry hg => extends_addUnit hg hentry) extends_generatedStage.grows

theorem extends_objectStage : Extends plan f (unitStage plan f) (objectStage plan f) :=
  extends_foldl (fun _ unit _ hg => extends_addObject hg unit .fortran)
    (extends_generatedStage.trans extends_unitStage).grows

theorem extends_initial_objectStage : Extends plan f initial (objectStage plan f) :=
  (extends_generatedStage.trans extends_unitStage).trans extends_objectStage

theorem extends_libraryStage : Extends plan f (objectStage plan f) (libraryStage plan f) :=
  extends_foldl (fun _ library _ hg => extends_addLibrary hg library)
    extends_initial_objectStage.grows

theorem extends_initial_libraryStage : Extends plan f initial (libraryStage plan f) :=
  extends_initial_objectStage.trans extends_libraryStage

theorem extends_programs :
    Extends plan f (libraryStage plan f) (ofDeclarations plan f policy) :=
  extends_foldl (fun _ program _ hg => extends_addProgram hg program)
    extends_initial_libraryStage.grows

theorem extends_ofDeclarations : Extends plan f initial (ofDeclarations plan f policy) :=
  extends_initial_libraryStage.trans extends_programs

theorem suits_ofDeclarations (hn : n < (ofDeclarations plan f policy).nodes.size) :
    ((ofDeclarations plan f policy).node n).Suits f := by
  by_cases hinitial : initial.nodes.size ≤ n
  · exact extends_ofDeclarations.suits n hinitial hn
  · obtain ⟨x, hx⟩ :=
      extends_ofDeclarations.grows.exists_aggregate (Nat.lt_of_not_le hinitial)
    rw [hx]
    exact nofun

/-- A run takes each of its steps, and goes on from it. -/
theorem exists_step_of_mem {α : Type} {add : ArtifactGraph → α → ArtifactGraph} {l : List α}
    {x : α} (hx : x ∈ l) (hadd : ∀ g, ∀ y ∈ l, Grows initial g → Grows g (add g y))
    (hg : Grows initial g) : ∃ g₁, Grows g g₁ ∧ Grows (add g₁ x) (l.foldl add g) := by
  induction l generalizing g with
  | nil => cases hx
  | cons y l ih =>
    have hy := hadd g y List.mem_cons_self hg
    have hadd' := fun g y hy => hadd g y (List.mem_cons_of_mem _ hy)
    rcases List.mem_cons.mp hx with rfl | hx
    · exact ⟨g, .refl, List.foldlRecOn (motive := fun g' => Grows (add g x) g') l add .refl
        fun g' h y hl => h.trans (hadd' g' y hl ((hg.trans hy).trans h))⟩
    · obtain ⟨g₁, hg₁, hrest⟩ := ih hx hadd' (hg.trans hy)
      exact ⟨g₁, hy.trans hg₁, hrest⟩

/-- What one step of a run finds is found after the run. -/
theorem isSome_findPath?_foldl {α : Type} {add : ArtifactGraph → α → ArtifactGraph} {l : List α}
    {x : α} (hx : x ∈ l) (hadd : ∀ g, ∀ y ∈ l, Grows initial g → Grows g (add g y))
    (hfound : ∀ g, Grows initial g → ((add g x).findPath? p).isSome) (hg : Grows initial g) :
    ((l.foldl add g).findPath? p).isSome := by
  obtain ⟨g₁, hg₁, hrest⟩ := exists_step_of_mem hx hadd hg
  exact hrest.isSome_findPath? (hfound g₁ (hg.trans hg₁))

theorem isSome_findPath?_addArtifact (artifact : Artifact) (action : Action) :
    ((g.addArtifact f artifact action).1.findPath? (f.path artifact)).isSome := by
  rw [addArtifact, findPath?_addNode, if_pos ⟨_, rfl, rfl⟩]
  rfl

theorem isSome_findPath?_generatedStage {entry : QualifiedName × Option GeneratedRule}
    (h : entry ∈ plan.generated.entries) :
    ((generatedStage plan f).findPath? (f.path (.ofName .generated entry.1))).isSome := by
  refine isSome_findPath?_foldl h (fun g y _ hg => grows_addGenerated hg.wellFormed_of_initial f y)
    (fun g hg => ?_) .refl
  obtain ⟨action, -, -, heq⟩ := addGenerated_eq f g entry
  rw [heq, findPath?_linkAggregates]
  exact isSome_findPath?_addArtifact _ _

theorem isSome_findPath?_generated {entry : QualifiedName × Option GeneratedRule}
    (h : entry ∈ plan.generated.entries) :
    ((ofDeclarations plan f policy).findPath? (f.path (.ofName .generated entry.1))).isSome :=
  ((extends_unitStage.trans extends_objectStage).trans
    (extends_libraryStage.trans extends_programs)).grows.isSome_findPath?
      (isSome_findPath?_generatedStage h)

/-! ## Shorthand names -/

theorem extends_addShorthand (name : String) (hn : n < g.nodes.size) :
    Extends plan f g (g.addShorthand name n) := by
  have hnode : Extends plan f g (g.addNode (.phony (.shorthand name))).1 :=
    extends_addNode ⟨fun _ => rfl, fun _ => rfl⟩ nofun
  have hreason : Reason plan f (g.addNode (.phony (.shorthand name))).1 g.nodes.size n :=
    .shorthand name (by rw [node_addNode_self]; rfl)
  have hedge := hnode.trans
    (hreason.addEdge hreason.lt_size (Nat.lt_of_lt_of_le hn hnode.grows.size_le))
  exact ⟨hedge.grows.shorthands _, hedge.suits, fun a b hneeds =>
    (hedge.reasons a b hneeds).imp_right fun h => h.grows (Grows.refl.shorthands _)⟩

end ArtifactGraph

end ModularBuild
