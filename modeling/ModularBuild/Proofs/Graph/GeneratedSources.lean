import ModularBuild.Proofs.Graph.Wiring

/-!
# Sources that are generated

Generated files are added first, and a handwritten file is added only where there is no node yet.
A path leads to the newest node that has it (`Grows.exists_findPath?_of_hasPath`), so what a unit
looks up for its source or its header is the newest node there. If no other output takes over the
path of a generated file, that is the node of a generated file still in the finished graph, and all
nodes at the path are of that kind: a unit whose source or header is generated, however its path is
spelled, is compiled from the generated node (`generated_feeds_compile`).
-/

namespace ModularBuild.ArtifactGraph

variable {g g' : ArtifactGraph} {f : FileNames} {plan : Plan} {policy : LinkPolicy}
  {mode : BuildMode} {d k m n : NodeId} {p : Path} {x : Artifact} {q : QualifiedName}
  {lang : Language}

/-! ## The newest node of a path -/

/-- Paths lead to nodes that have them, and the path of a node to none that is older. -/
structure Traced (g : ArtifactGraph) : Prop where
  hasPath : ∀ p n, g.findPath? p = some n → g.HasPath n p
  newest : ∀ n p, g.HasPath n p → ∃ m, g.findPath? p = some m ∧ n ≤ m

theorem traced_empty : Traced {} where
  hasPath _ _ h := by cases h
  newest _ _ h := by
    obtain ⟨q, hq, -⟩ := h
    cases hq

theorem hasPath_addNode_iff {node : Node} : (g.addNode node).1.HasPath n p ↔
    (n = g.nodes.size ∧ ∃ q, node.path = some q ∧ p.Same q) ∨
      (n ≠ g.nodes.size ∧ g.HasPath n p) := by
  by_cases hn : n = g.nodes.size
  · simp [HasPath, hn, node_addNode_self]
  · simp [HasPath, hn, node_addNode_of_ne hn]

theorem Traced.addNode {node : Node} (h : g.Traced) : (g.addNode node).1.Traced where
  hasPath p n hn := by
    rw [findPath?_addNode] at hn
    rw [hasPath_addNode_iff]
    split at hn
    · cases hn
      exact .inl ⟨rfl, ‹_›⟩
    · have hold := h.hasPath p n hn
      exact .inr ⟨Nat.ne_of_lt hold.lt_size, hold⟩
  newest n p hn := by
    rw [findPath?_addNode]
    rcases hasPath_addNode_iff.mp hn with ⟨rfl, hnode⟩ | ⟨-, hold⟩
    · exact ⟨_, if_pos hnode, Nat.le_refl _⟩
    · split
      · exact ⟨_, rfl, Nat.le_of_lt hold.lt_size⟩
      · exact h.newest n p hold

theorem hasPath_addEdge_iff {a b : NodeId} : (g.addEdge a b).HasPath n p ↔ g.HasPath n p := by
  rw [HasPath, HasPath, node_addEdge]

theorem Traced.addEdge {a b : NodeId} (h : g.Traced) : (g.addEdge a b).Traced where
  hasPath p n hn := by
    rw [findPath?_addEdge] at hn
    exact hasPath_addEdge_iff.mpr (h.hasPath p n hn)
  newest n p hn := by
    rw [findPath?_addEdge]
    exact h.newest n p (hasPath_addEdge_iff.mp hn)

theorem Grows.traced (h : Grows g g') (hg : g.Traced) : g'.Traced := by
  induction h with
  | refl => exact hg
  | node _ _ ih => exact ih.addNode
  | edge _ _ _ ih => exact ih.addEdge
  | shorthands _ _ ih => exact ⟨ih.hasPath, ih.newest⟩

theorem traced_initial : initial.Traced := grows_initial.traced traced_empty

theorem Grows.exists_findPath?_of_hasPath (h : Grows initial g) (hn : g.HasPath n p) :
    ∃ m, g.findPath? p = some m ∧ n ≤ m :=
  (h.traced traced_initial).newest n p hn

/-- Every node that has the path is older than this one, or is it. -/
def Newest (g : ArtifactGraph) (p : Path) (n : NodeId) : Prop := ∀ k, g.HasPath k p → k ≤ n

theorem Traced.findPath?_eq_some_iff (h : g.Traced) :
    g.findPath? p = some n ↔ g.HasPath n p ∧ g.Newest p n := by
  constructor
  · refine fun hn => ⟨h.hasPath p n hn, fun k hk => ?_⟩
    obtain ⟨m, hm, hle⟩ := h.newest k p hk
    cases hn.symm.trans hm
    exact hle
  · rintro ⟨hn, hnewest⟩
    obtain ⟨m, hm, hle⟩ := h.newest n p hn
    rwa [Nat.le_antisymm (hnewest m (h.hasPath p m hm)) hle] at hm

theorem Traced.isSome_findPath?_iff (h : g.Traced) :
    (g.findPath? p).isSome ↔ ∃ n, g.HasPath n p := by
  rw [Option.isSome_iff_exists]
  constructor
  · exact fun ⟨n, hn⟩ => ⟨n, h.hasPath p n hn⟩
  · rintro ⟨n, hn⟩
    obtain ⟨m, hm, -⟩ := h.newest n p hn
    exact ⟨m, hm⟩

theorem Grows.newest_of_findPath? (h : Grows initial g) (hn : g.findPath? p = some n) :
    g.Newest p n :=
  ((h.traced traced_initial).findPath?_eq_some_iff.mp hn).2

/-- What is looked up for a handwritten file is the newest node at its path. -/
theorem newest_addSource (hg : Grows initial g) (x : Artifact) :
    g.Newest (f.path x) (g.addSource f x).2 := by
  intro k hk
  unfold addSource
  cases hfind : g.findPath? (f.path x) with
  | some n => exact hg.newest_of_findPath? hfind k hk
  | none => exact Nat.le_of_lt hk.lt_size

/-! ## What an object needs -/

/-- In the second graph, a node needs a node at a path that is newer than all the first graph has
there. -/
def NeedsNewest (g g' : ArtifactGraph) (n : NodeId) (p : Path) : Prop :=
  ∃ s, g'.Needs n s ∧ g'.HasPath s p ∧ g.Newest p s

theorem NeedsNewest.grows {g'' : ArtifactGraph} (h : NeedsNewest g g' n p) (hg : Grows g' g'') :
    NeedsNewest g g'' n p := by
  obtain ⟨s, hneeds, hs, hnewest⟩ := h
  exact ⟨s, hg.needs hneeds, hg.hasPath hs, hnewest⟩

theorem needsNewest_addObject (hg : Grows initial g) (q : QualifiedName) (lang : Language) :
    NeedsNewest g (g.addObject f q lang).1 (g.addObject f q lang).2
      (f.path (.ofName (.source lang) q)) := by
  have hnewest := newest_addSource (f := f) hg (.ofName (.source lang) q)
  have hpath : (g.addSource f (.ofName (.source lang) q)).1.HasPath
      (g.addSource f (.ofName (.source lang) q)).2 (f.path (.ofName (.source lang) q)) :=
    hasPath_addSource hg.wellFormed_of_initial _
  have hs := (gained_addSource hg.wellFormed_of_initial f (.ofName (.source lang) q)).2
  unfold addObject
  dsimp only
  generalize g.addSource f (.ofName (.source lang) q) = r at hnewest hpath hs ⊢
  obtain ⟨g₁, s⟩ := r
  have hobject := gained_addArtifact (g := g₁) f (.ofName .object q)
    (show Action.compile lang (f.path (.ofName (.source lang) q)) ≠ .phony by simp)
  have hedge := Grows.refl.edge hobject.2 (Nat.lt_of_lt_of_le hs hobject.grows.size_le)
  exact ⟨s, needs_addEdge.mpr (.inl ⟨rfl, rfl⟩), hedge.hasPath (hobject.grows.hasPath hpath),
    hnewest⟩

/-- The object of a unit with a header needs the newest node at the path of the header. -/
theorem needsNewest_addUnit (hg : Grows initial g) (unit : QualifiedName) :
    NeedsNewest g (addUnit f g (unit, true)) (g.addObject f unit .c).2
      (f.path (.ofName .header unit)) := by
  have hobject := gained_addObject hg.wellFormed_of_initial f unit .c
  have hg₁ := hg.trans hobject.grows
  have hheader := gained_addSource hg₁.wellFormed_of_initial f (.ofName .header unit)
  have hedge := Grows.refl.edge (Nat.lt_of_lt_of_le hobject.2 hheader.grows.size_le) hheader.2
  refine ⟨_, needs_addEdge.mpr (.inl ⟨rfl, rfl⟩),
    hedge.hasPath (hasPath_addSource hg₁.wellFormed_of_initial _), fun k hk => ?_⟩
  exact newest_addSource hg₁ _ k (hobject.grows.hasPath hk)

theorem hasPath_congr {p' : Path} (hsame : p.Same p') (h : g.HasPath n p) : g.HasPath n p' := by
  obtain ⟨q, hq, hpq⟩ := h
  exact ⟨q, hq, hsame.symm.trans hpq⟩

/-- Where a spelling of the path still leads to a node that the first graph has there, that is the
node. -/
theorem NeedsNewest.needs {p' : Path} (h : NeedsNewest g g' n p') (hg' : Grows initial g')
    (hsame : p.Same p') (hd : g.HasPath d p) (hfind : g'.findPath? p = some d) :
    g'.Needs n d := by
  obtain ⟨s, hneeds, hs, hnewest⟩ := h
  have hsd : s ≤ d := hg'.newest_of_findPath? hfind s (hasPath_congr hsame.symm hs)
  rwa [Nat.le_antisymm hsd (hnewest d (hasPath_congr hsame hd))] at hneeds

/-! ## Objects of a derived graph -/

/-- Everything that is compiled to an object is added after the generated files, and the derived
graph grows out of what comes of it. -/
theorem exists_addObject (h : (derive plan f policy mode).result = .ok g) {kind : DeclKind}
    (hlang : kind.language? = some lang) (hq : q ∈ plan.names kind) :
    ∃ g₁, Grows (generatedStage plan f) g₁ ∧ Grows (g₁.addObject f q lang).1 g := by
  have hgenerated : Grows initial (generatedStage plan f) := extends_generatedStage.grows
  have hunits : Grows (generatedStage plan f) (unitStage plan f) := extends_unitStage.grows
  have hobjects : Grows (unitStage plan f) (objectStage plan f) := extends_objectStage.grows
  have hlibraries : Grows (objectStage plan f) (libraryStage plan f) := extends_libraryStage.grows
  have hprograms : Grows (libraryStage plan f) (ofDeclarations plan f policy) :=
    extends_programs.grows
  obtain ⟨g₀, hwires, hsettles, -⟩ := exists_wires_of_derive h
  have hgrown : Grows (ofDeclarations plan f policy) g := (hwires.settles.trans hsettles).grows
  have hadded : kind.isProgram → ∃ g₁, Grows (generatedStage plan f) g₁ ∧
      Grows (g₁.addObject f q lang).1 g := by
    intro hprogram
    obtain ⟨isTest, hspec⟩ := Plan.exists_mem_programSpecs hprogram hlang hq
    obtain ⟨g₁, hstage, hstep⟩ := exists_step_of_mem hspec
      (fun g y _ hg => grows_addProgram hg.wellFormed_of_initial plan f policy y)
      (hgenerated.trans (hunits.trans (hobjects.trans hlibraries)))
    have hg₁ := hunits.trans (hobjects.trans (hlibraries.trans hstage))
    exact ⟨g₁, hg₁, (grows_addProgram_object (hgenerated.trans hg₁).wellFormed_of_initial plan f
      policy ⟨q, lang, isTest⟩).trans (hstep.trans hgrown)⟩
  cases kind with
  | program | testProgram | fortranProgram => exact hadded rfl
  | headerUnit | generated => cases hlang
  | compiledUnit =>
    cases hlang
    obtain ⟨⟨q, hasHeader⟩, hentry, rfl⟩ := List.mem_map.mp hq
    obtain ⟨g₁, hstage, hstep⟩ := exists_addUnit h hentry
    exact ⟨g₁, hstage, (grows_addUnit_object (hgenerated.trans hstage).wellFormed_of_initial f q
      hasHeader).trans hstep⟩
  | fortranUnit =>
    cases hlang
    obtain ⟨g₁, hstage, hstep⟩ := exists_step_of_mem hq
      (fun g y _ hg => grows_addFortranUnit hg.wellFormed_of_initial f y) (hgenerated.trans hunits)
    exact ⟨g₁, hunits.trans hstage,
      hstep.trans (hlibraries.trans (hprograms.trans hgrown))⟩

/-- The node of an object, which is compiled from the source of its name; where no object is
declared twice, no other node makes the object. -/
structure ObjectNode (plan : Plan) (f : FileNames) (g : ArtifactGraph) (q : QualifiedName)
    (lang : Language) (n : NodeId) : Prop where
  node : g.node n = ⟨.artifact (.ofName .object q), some (f.path (.ofName .object q)),
    .compile lang (f.path (.ofName (.source lang) q))⟩
  unique : plan.Distinct → ∀ m p, g.Output m p →
    (g.node m).kind = .artifact (.ofName .object q) → m = n

theorem objectNode_of_grows (h : (derive plan f policy mode).result = .ok g) {g₁ : ArtifactGraph}
    (hg₁ : g₁.WellFormed) (hgrows : Grows (g₁.addObject f q lang).1 g) :
    ObjectNode plan f g q lang (g₁.addObject f q lang).2 := by
  have hnode := (hgrows.node_eq (gained_addObject hg₁ f q lang).2).trans (node_addObject q lang)
  refine ⟨hnode, fun hplan m p hout hkind => ?_⟩
  have hmakes : g.Output (g₁.addObject f q lang).2 (f.path (.ofName .object q)) := by
    rw [Output, hnode]
    exact ⟨rfl, rfl⟩
  refine (makes_derive h).output_unique hplan.nodup_outputArtifacts hout hmakes ?_
  rw [hkind, hnode]

/-! ## Generated files -/

/-- The path of a generated file that no other output has leads to the node it led to when the
generated files had been added, and all nodes there are those of generated files. -/
theorem exists_generated_node (h : (derive plan f policy mode).result = .ok g)
    {file : QualifiedName} (hfile : file ∈ plan.generated.keys)
    (happart : ∀ x ∈ plan.outputArtifacts, x.kind ≠ .generated →
      ¬ (f.path (.ofName .generated file)).Same (f.path x)) :
    ∃ d, (generatedStage plan f).HasPath d (f.path (.ofName .generated file)) ∧
      g.findPath? (f.path (.ofName .generated file)) = some d ∧
      ∀ n, g.HasPath n (f.path (.ofName .generated file)) →
        ∃ other ∈ plan.generated.keys, (g.node n).kind = .artifact (.ofName .generated other) := by
  obtain ⟨entry, hentry, rfl⟩ := List.mem_map.mp hfile
  obtain ⟨d, hd⟩ := Option.isSome_iff_exists.mp
    (isSome_findPath?_generatedStage (f := f) hentry)
  obtain ⟨g₀, hwires, hsettles, -⟩ := exists_wires_of_derive h
  have hadded := hwires.settles.trans hsettles
  have hoverlays : Overlays plan f (generatedStage plan f) (ofDeclarations plan f policy) :=
    overlays_ofDeclarations
  have hgrows := hoverlays.grows.trans hadded.grows
  have hwell : (generatedStage plan f).WellFormed :=
    extends_generatedStage.grows.wellFormed_of_initial
  have hfind : g.findPath? (f.path (.ofName .generated entry.1)) = some d := by
    rcases hoverlays.findPath? _ d hd with hkept | ⟨x, hx, hkind, hsame⟩
    · exact hadded.findPath? _ _ hkept
    · exact absurd hsame (happart x hx hkind)
  refine ⟨d, hwell.hasPath hd, hfind, fun n hn => ?_⟩
  -- Nothing newer has the path, so that the node was there before the units were added.
  have hle : n ≤ d := (grows_derive h).newest_of_findPath? hfind n hn
  have hlt := Nat.lt_of_le_of_lt hle (hwell.byPath _ d hd).1
  obtain ⟨p, hp, -⟩ := hn
  rw [hgrows.node_eq hlt] at hp ⊢
  obtain ⟨other, hother, hkind, -⟩ := exists_generated_of_path hp
  exact ⟨other, hother, hkind⟩

/-- **Generated sources feed their compile.** Where no other output has the path of a generated
file, the path leads to the node of a generated file, and no node at the path is of another kind:
neither a source nor a header. The object of everything whose source has the path, in any spelling,
needs the node directly, and so does the object of a unit whose header has it. -/
theorem generated_feeds_compile (h : (derive plan f policy mode).result = .ok g)
    {file : QualifiedName} (hfile : file ∈ plan.generated.keys)
    (happart : ∀ x ∈ plan.outputArtifacts, x.kind ≠ .generated →
      ¬ (f.path (.ofName .generated file)).Same (f.path x)) :
    ∃ d, g.findPath? (f.path (.ofName .generated file)) = some d ∧
      (∀ n, g.HasPath n (f.path (.ofName .generated file)) →
        ∃ other ∈ plan.generated.keys, (g.node n).kind = .artifact (.ofName .generated other)) ∧
      (∀ (kind : DeclKind) lang q, kind.language? = some lang → q ∈ plan.names kind →
        (f.path (.ofName .generated file)).Same (f.path (.ofName (.source lang) q)) →
        ∃ n, ObjectNode plan f g q lang n ∧ g.Needs n d) ∧
      ∀ unit, plan.units.find? unit = some true →
        (f.path (.ofName .generated file)).Same (f.path (.ofName .header unit)) →
        ∃ n, ObjectNode plan f g unit .c n ∧ g.Needs n d := by
  have hgenerated : Grows initial (generatedStage plan f) := extends_generatedStage.grows
  have hg := grows_derive h
  obtain ⟨d, hd, hfind, hothers⟩ := exists_generated_node h hfile happart
  refine ⟨d, hfind, hothers, fun kind lang q hlang hq hsame => ?source,
    fun unit hunit hsame => ?header⟩
  case source =>
    obtain ⟨g₁, hstage, hgrows⟩ := exists_addObject h hlang hq
    have hg₁ := hgenerated.trans hstage
    have hneeds := (needsNewest_addObject (f := f) hg₁ q lang).grows hgrows
    exact ⟨_, objectNode_of_grows h hg₁.wellFormed_of_initial hgrows,
      hneeds.needs hg hsame (hstage.hasPath hd) hfind⟩
  case header =>
    obtain ⟨g₁, hstage, hgrows⟩ := exists_addUnit h (SortedMap.mem_entries_iff.mpr hunit)
    have hg₁ := hgenerated.trans hstage
    have hobject := grows_addUnit_object hg₁.wellFormed_of_initial f unit true
    have hneeds := (needsNewest_addUnit (f := f) hg₁ unit).grows hgrows
    exact ⟨_, objectNode_of_grows h hg₁.wellFormed_of_initial (hobject.trans hgrows),
      hneeds.needs hg hsame (hstage.hasPath hd) hfind⟩

/-! ## Where artifacts come from -/

/-- An artifact is a generated file, or put together by the build, or declared and written by hand;
in the last case no older node has its path. -/
structure Origins (plan : Plan) (f : FileNames) (g : ArtifactGraph) : Prop where
  found : ∀ n p, g.HasPath n p → (g.findPath? p).isSome
  artifacts : ∀ n x, n < g.nodes.size → (g.node n).kind = .artifact x → x.kind = .generated ∨
    (g.node n).action.assembles ∨
      (g.node n).action = .source ∧ plan.Writes x ∧ ∀ m < n, ¬ g.HasPath m (f.path x)

theorem Origins.addNode {node : Node} (h : Origins plan f g)
    (hnew : ∀ x, node.kind = .artifact x → x.kind = .generated ∨ node.action.assembles ∨
      node.action = .source ∧ plan.Writes x ∧ g.findPath? (f.path x) = none) :
    Origins plan f (g.addNode node).1 where
  found n p hn := by
    rw [findPath?_addNode]
    rcases hasPath_addNode_iff.mp hn with ⟨-, hnode⟩ | ⟨-, hn⟩
    · rw [if_pos hnode]
      rfl
    · split
      · rfl
      · exact h.found n p hn
  artifacts n x hlt hkind := by
    -- Older nodes have the paths they had, and a new handwritten file has one that none has.
    by_cases hn : n = g.nodes.size
    · subst hn
      rw [node_addNode_self] at hkind ⊢
      rcases hnew x hkind with hgenerated | hassembles | ⟨haction, hwrites, hfree⟩
      · exact .inl hgenerated
      · exact .inr (.inl hassembles)
      · refine .inr (.inr ⟨haction, hwrites, fun m hm hpath => ?_⟩)
        rcases hasPath_addNode_iff.mp hpath with ⟨rfl, -⟩ | ⟨-, hpath⟩
        · exact absurd hm (Nat.lt_irrefl _)
        · have hsome := h.found m _ hpath
          rw [hfree] at hsome
          cases hsome
    · have hold : n < g.nodes.size := by
        rw [size_addNode] at hlt
        omega
      rw [node_addNode_of_ne hn] at hkind ⊢
      refine (h.artifacts n x hold hkind).imp_right
        (Or.imp_right fun ⟨haction, hwrites, hfresh⟩ => ?_)
      refine ⟨haction, hwrites, fun m hm hpath => ?_⟩
      rcases hasPath_addNode_iff.mp hpath with ⟨rfl, -⟩ | ⟨-, hpath⟩
      · exact absurd (Nat.lt_trans hm hold) (Nat.lt_irrefl _)
      · exact hfresh m hm hpath

theorem Origins.addEdge {a b : NodeId} (h : Origins plan f g) : Origins plan f (g.addEdge a b) where
  found n p hn := by
    rw [findPath?_addEdge]
    exact h.found n p (hasPath_addEdge_iff.mp hn)
  artifacts n x hlt hkind := by
    simp only [HasPath, node_addEdge] at hkind ⊢
    exact h.artifacts n x (nodes_addEdge (g := g) ▸ hlt) hkind

theorem origins_initial : Origins plan f initial := by
  refine ⟨fun n p hn => ?_, fun n x hlt hkind => ?_⟩
  · obtain ⟨m, hm, -⟩ := traced_initial.newest n p hn
    cases hm
  · obtain ⟨y, hy⟩ := Grows.refl.exists_aggregate hlt
    rw [hy] at hkind
    cases hkind

theorem Inserts.origins (h : Inserts plan f g g') (hg : Origins plan f g) : Origins plan f g' := by
  induction h with
  | refl => exact hg
  | artifact _ hx _ ih =>
    refine ih.addNode fun y hy => ?_
    cases hy
    exact hx.imp_right .inl
  | source hx hfree _ ih =>
    refine ih.addNode fun y hy => ?_
    cases hy
    exact .inr (.inr ⟨rfl, hx, hfree⟩)
  | file _ _ _ ih => exact ih.addNode nofun
  | edge _ ih => exact ih.addEdge

theorem artifacts_derive (h : (derive plan f policy mode).result = .ok g)
    (hn : n < g.nodes.size) (hkind : (g.node n).kind = .artifact x) : x.kind = .generated ∨
      (g.node n).action.assembles ∨
        (g.node n).action = .source ∧ plan.Writes x ∧ ∀ m < n, ¬ g.HasPath m (f.path x) := by
  obtain ⟨g₀, hinputs, hnamed, -⟩ := derive_eq_ok_iff.mp h
  have horigins := (inserts_withInputs hinputs).origins origins_initial
  have hsettles : Settles g₀ g := by
    split at hnamed
    · have hshorthands : Settles g₀ g ∧ Extends plan f g₀ g := named_addShorthands hnamed
      exact hshorthands.1
    · cases hnamed
      exact .refl
  -- Shorthand names are no artifacts, and nodes that are older than an artifact were there before.
  have hlt := hsettles.artifacts n x hn hkind
  rw [hsettles.grows.node_eq hlt] at hkind ⊢
  refine (horigins.artifacts n x hlt hkind).imp_right
    (Or.imp_right fun ⟨haction, hwrites, hfresh⟩ => ?_)
  refine ⟨haction, hwrites, fun m hm hpath => hfresh m hm ?_⟩
  rwa [HasPath, hsettles.grows.node_eq (Nat.lt_trans hm hlt)] at hpath

/-- A source or header that the build takes as it is has been declared, and no generated file has
its path. -/
theorem writes_of_source (h : (derive plan f policy mode).result = .ok g)
    (hpath : (g.node n).path = some p) (hkind : (g.node n).kind = .artifact x)
    (hx : x.kind ≠ .generated) (haction : (g.node n).action = .source) :
    p = f.path x ∧ plan.Writes x ∧
      ∀ file ∈ plan.generated.keys, ¬ (f.path (.ofName .generated file)).Same p := by
  have hn := lt_size_of_path hpath
  obtain rfl : p = f.path x := Option.some.inj (hpath.symm.trans (suits_derive h hn x hkind).1)
  rcases artifacts_derive h hn hkind with hgenerated | hassembles | ⟨-, hwrites, hfresh⟩
  · exact absurd hgenerated hx
  · rw [haction] at hassembles
    cases hassembles
  refine ⟨rfl, hwrites, fun file hfile hsame => ?_⟩
  obtain ⟨g₀, hwires, hsettles, -⟩ := exists_wires_of_derive h
  have hoverlays : Overlays plan f (generatedStage plan f) (ofDeclarations plan f policy) :=
    overlays_ofDeclarations
  have hgrows := hoverlays.grows.trans (hwires.settles.trans hsettles).grows
  have hwell : (generatedStage plan f).WellFormed :=
    extends_generatedStage.grows.wellFormed_of_initial
  -- The generated file has a node among the first, and this one is not among them.
  obtain ⟨entry, hentry, rfl⟩ := List.mem_map.mp hfile
  obtain ⟨d, hd⟩ := Option.isSome_iff_exists.mp (isSome_findPath?_generatedStage (f := f) hentry)
  have holder : d < n := by
    refine Nat.lt_of_lt_of_le (hwell.byPath _ d hd).1 (Nat.le_of_not_lt fun hlt => ?_)
    rw [hgrows.node_eq hlt] at hpath hkind
    obtain ⟨other, -, hother, -⟩ := exists_generated_of_path hpath
    rw [hkind] at hother
    exact hx (congrArg Artifact.kind (NodeKind.artifact.inj hother))
  exact hfresh d holder (hasPath_congr hsame (hgrows.hasPath (hwell.hasPath hd)))

/-- What the build generates is a generated file that has a rule. -/
theorem exists_rule_of_generate (h : (derive plan f policy mode).result = .ok g)
    {command : List String} {cwd : Path} (haction : (g.node n).action = .generate command cwd)
    (hpath : (g.node n).path = some p) :
    ∃ file rule, plan.generated.find? file = some (some rule) ∧
      p = f.path (.ofName .generated file) := by
  have hout : g.Output n p := ⟨by rw [haction]; rfl, hpath⟩
  obtain ⟨x, hx, hkind, rfl⟩ := (makes_derive h).exists_artifact hout
  have hgenerated : x.kind = .generated := by
    rcases artifacts_derive h (lt_size_of_path hpath) hkind with hgenerated | hassembles | ⟨hown, -⟩
    · exact hgenerated
    · rw [haction] at hassembles
      cases hassembles
    · cases haction.symm.trans hown
  obtain ⟨file, rule, hfile, rfl⟩ := Plan.exists_rule_of_mem_outputArtifacts hx hgenerated
  exact ⟨file, rule, hfile, rfl⟩

/-! ## Other spellings -/

/-- A unit whose source and header are generated by the root module under other spellings. -/
def spelledPlan : Plan where
  project := "demo"
  modules := (SortedMap.insert ∅ ⟨"."⟩ ()).insert ⟨"A"⟩ ()
  units := SortedMap.insert ∅ ⟨⟨"A"⟩, "foo"⟩ true
  generated := (SortedMap.insert ∅ ⟨⟨"."⟩, "A//foo.cpp"⟩ (some ⟨["make-foo"], []⟩)).insert
    ⟨⟨"."⟩, "A/./foo.h"⟩ none

def spelled : ArtifactGraph := (constructed spelledPlan {} .everyLibrary .project).toOption.getD {}

theorem constructs_spelled : Constructs spelledPlan {} .everyLibrary .project spelled
    [(9, 5), (8, 6), (7, 5), (7, 6), (0, 6), (4, 6), (0, 5), (4, 5)] 10 :=
  constructs_of_computed ⟨by rfl, by rfl, by rfl⟩

theorem derive_spelled : (derive spelledPlan {} .everyLibrary .project).result = .ok spelled :=
  constructs_spelled.derive (by cbv)

/-- The object needs both generated files, though none is spelled as the unit's are. -/
theorem generated_feeds_compile_spelled :
    (derive spelledPlan {} .everyLibrary .project).result = .ok spelled ∧
      (⟨⟨"."⟩, "A//foo.cpp"⟩ ∈ spelledPlan.generated.keys ∧ ∃ d n,
        spelled.findPath? ⟨"A//foo.cpp"⟩ = some d ∧
          ObjectNode spelledPlan {} spelled ⟨⟨"A"⟩, "foo"⟩ .c n ∧ spelled.Needs n d) ∧
      (⟨⟨"."⟩, "A/./foo.h"⟩ ∈ spelledPlan.generated.keys ∧ ∃ d n,
        spelled.findPath? ⟨"A/./foo.h"⟩ = some d ∧
          ObjectNode spelledPlan {} spelled ⟨⟨"A"⟩, "foo"⟩ .c n ∧ spelled.Needs n d) := by
  have hsource : ⟨⟨"."⟩, "A//foo.cpp"⟩ ∈ spelledPlan.generated.keys := by decide
  have hheader : ⟨⟨"."⟩, "A/./foo.h"⟩ ∈ spelledPlan.generated.keys := by decide
  refine ⟨derive_spelled, ⟨hsource, ?_⟩, hheader, ?_⟩
  · obtain ⟨d, hd, -, hfeeds, -⟩ := generated_feeds_compile derive_spelled hsource (by decide)
    obtain ⟨n, hn⟩ := hfeeds .compiledUnit .c ⟨⟨"A"⟩, "foo"⟩ rfl (by decide) (by decide)
    exact ⟨d, n, hd, hn⟩
  · obtain ⟨d, hd, -, -, hfeeds⟩ := generated_feeds_compile derive_spelled hheader (by decide)
    obtain ⟨n, hn⟩ := hfeeds ⟨⟨"A"⟩, "foo"⟩ (by rfl) (by decide)
    exact ⟨d, n, hd, hn⟩

end ModularBuild.ArtifactGraph
