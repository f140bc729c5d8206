import ModularBuild.Graph.Derive
import ModularBuild.Proofs.Graph.TopologicalOrder
import ModularBuild.Proofs.SortedMap

/-!
# How a graph grows

A graph is derived by adding nodes and edges and by nothing else: `Grows` lists the steps, and every
part of the derivation is a run of them. What each step keeps is therefore kept by the derivation;
first of all `WellFormed`, which says that edges and paths lead to nodes of the graph.
-/

namespace ModularBuild

/-- A node has a file unless there is nothing to be done for it. -/
def Node.Fits (node : Node) : Prop := node.path = none ↔ node.action = .phony

namespace ArtifactGraph

variable {g g' g'' : ArtifactGraph} {node : Node} {a b n : NodeId} {f : FileNames}

/-! ## One step -/

/-- How one graph grows out of another. -/
inductive Grows (g : ArtifactGraph) : ArtifactGraph → Prop
  | refl : Grows g g
  | node {g' : ArtifactGraph} {node : Node} : Grows g g' → node.Fits → Grows g (g'.addNode node).1
  | edge {g' : ArtifactGraph} {a b : NodeId} : Grows g g' → a < g'.nodes.size → b < g'.nodes.size →
      Grows g (g'.addEdge a b)
  | shorthands {g' : ArtifactGraph} (names : SortedMap String NodeId) : Grows g g' →
      Grows g { g' with shorthands := names }

theorem Grows.trans (h : Grows g g') (h' : Grows g' g'') : Grows g g'' := by
  induction h' with
  | refl => exact h
  | node _ hfits ih => exact ih.node hfits
  | edge _ ha hb ih => exact ih.edge ha hb
  | shorthands names _ ih => exact ih.shorthands names

@[simp] theorem size_addNode : (g.addNode node).1.nodes.size = g.nodes.size + 1 := by
  simp [addNode]

@[simp] theorem edges_addNode : (g.addNode node).1.edges = g.edges := rfl

@[simp] theorem nodes_addEdge : (g.addEdge a b).nodes = g.nodes := by
  unfold addEdge; split <;> rfl

@[simp] theorem findPath?_addEdge (p : Path) : (g.addEdge a b).findPath? p = g.findPath? p := by
  unfold addEdge; split <;> rfl

theorem mem_edges_addEdge {e : NodeId × NodeId} :
    e ∈ (g.addEdge a b).edges ↔ e = (a, b) ∨ e ∈ g.edges := by
  unfold addEdge
  split
  · rename_i h
    have hmem : (a, b) ∈ g.edges := by simpa [hasEdge] using h
    exact ⟨.inr, fun he => he.elim (fun he => he ▸ hmem) id⟩
  · simp

theorem node_addNode_self : (g.addNode node).1.node g.nodes.size = node := by
  simp [ArtifactGraph.node, addNode]

theorem node_addNode_of_lt (h : n < g.nodes.size) : (g.addNode node).1.node n = g.node n := by
  simp [ArtifactGraph.node, addNode, Array.getElem?_push, h, Nat.ne_of_lt h]

@[simp] theorem node_addEdge (n : NodeId) : (g.addEdge a b).node n = g.node n := by
  simp [ArtifactGraph.node]

theorem findPath?_addNode (p : Path) :
    (g.addNode node).1.findPath? p =
      if ∃ q, node.path = some q ∧ p.Same q then some g.nodes.size else g.findPath? p := by
  cases hq : node.path with
  | none => simp [addNode, findPath?, hq]
  | some q => simp [addNode, findPath?, hq, SortedMap.find?_insert, Path.compare_eq_iff_same]

theorem Grows.size_le (h : Grows g g') : g.nodes.size ≤ g'.nodes.size := by
  induction h with
  | refl => exact Nat.le_refl _
  | node _ _ ih => simpa using Nat.le_succ_of_le ih
  | edge _ _ _ ih => simpa using ih
  | shorthands _ _ ih => exact ih

theorem grows_initial : Grows {} initial := by
  have hinitial : initial =
      Aggregate.list.foldl (fun g a => (g.addNode (.phony (.aggregate a))).1) {} := rfl
  rw [hinitial]
  exact List.foldlRecOn (motive := Grows {}) Aggregate.list _ .refl
    fun _ h _ _ => h.node ⟨fun _ => rfl, fun _ => rfl⟩

/-! ## What every step keeps -/

/-- Edges lead to nodes of the graph, paths lead to the nodes that carry them, and exactly the nodes
with a file have something to be done. -/
structure WellFormed (g : ArtifactGraph) : Prop where
  edges : ∀ a b, (a, b) ∈ g.edges → a < g.nodes.size ∧ b < g.nodes.size
  byPath : ∀ p n, g.findPath? p = some n →
    n < g.nodes.size ∧ ∃ q, (g.node n).path = some q ∧ p.Same q
  fits : ∀ n < g.nodes.size, (g.node n).Fits
  aggregates : ∀ a, aggregate a < g.nodes.size

theorem wellFormed_initial : initial.WellFormed where
  edges _ _ h := by cases h
  byPath _ _ h := by cases h
  fits n hn := by
    have hn : n < 5 := hn
    match n with
    | 0 | 1 | 2 | 3 | 4 => exact ⟨fun _ => rfl, fun _ => rfl⟩
    | n + 5 => omega
  aggregates a := by cases a <;> decide

theorem WellFormed.addNode (h : g.WellFormed) (hfits : node.Fits) :
    (g.addNode node).1.WellFormed where
  edges a b hab := by
    obtain ⟨ha, hb⟩ := h.edges a b hab
    rw [size_addNode]
    exact ⟨Nat.lt_succ_of_lt ha, Nat.lt_succ_of_lt hb⟩
  byPath p n hn := by
    rw [findPath?_addNode] at hn
    rw [size_addNode]
    split at hn
    · rename_i hq
      cases hn
      exact ⟨Nat.lt_succ_self _, by rwa [node_addNode_self]⟩
    · obtain ⟨hlt, hq⟩ := h.byPath p n hn
      exact ⟨Nat.lt_succ_of_lt hlt, by rwa [node_addNode_of_lt hlt]⟩
  fits n hn := by
    rw [size_addNode] at hn
    by_cases hlt : n < g.nodes.size
    · rw [node_addNode_of_lt hlt]
      exact h.fits n hlt
    · have heq : n = g.nodes.size :=
        Nat.le_antisymm (Nat.le_of_lt_succ hn) (Nat.le_of_not_lt hlt)
      rw [heq, node_addNode_self]
      exact hfits
  aggregates a := by
    rw [size_addNode]
    exact Nat.lt_succ_of_lt (h.aggregates a)

theorem WellFormed.addEdge (h : g.WellFormed) (ha : a < g.nodes.size) (hb : b < g.nodes.size) :
    (g.addEdge a b).WellFormed where
  edges x y hxy := by
    rw [nodes_addEdge]
    rcases mem_edges_addEdge.mp hxy with hxy | hxy
    · cases hxy
      exact ⟨ha, hb⟩
    · exact h.edges x y hxy
  byPath p n hn := by
    simp only [findPath?_addEdge] at hn
    simpa using h.byPath p n hn
  fits n hn := by simpa using h.fits n (by simpa using hn)
  aggregates a := by simpa using h.aggregates a

theorem Grows.wellFormed (h : Grows g g') (hg : g.WellFormed) : g'.WellFormed := by
  induction h with
  | refl => exact hg
  | node _ hfits ih => exact ih.addNode hfits
  | edge _ ha hb ih => exact ih.addEdge ha hb
  | shorthands names _ ih => exact ⟨ih.edges, ih.byPath, ih.fits, ih.aggregates⟩

theorem WellFormed.edgesWithin (h : g.WellFormed) : g.EdgesWithin := fun a b hab =>
  h.edges a b (mem_dependencies.mp hab)

/-! ## Outputs -/

/-- The file that a node's action writes. -/
def Output (g : ArtifactGraph) (n : NodeId) (p : Path) : Prop :=
  (g.node n).action.producesOutput ∧ (g.node n).path = some p

theorem lt_size_of_path {p : Path} (h : (g.node n).path = some p) : n < g.nodes.size := by
  by_contra hn
  rw [node, Array.getElem?_eq_none (Nat.le_of_not_lt hn)] at h
  cases h

theorem lt_size_of_path_ne_none (h : (g.node n).path ≠ none) : n < g.nodes.size := by
  obtain ⟨p, hp⟩ := Option.ne_none_iff_exists'.mp h
  exact lt_size_of_path hp

/-! ## Adding artifacts -/

/-- A graph has grown into another that has this node. -/
def Gained (g : ArtifactGraph) (r : ArtifactGraph × NodeId) : Prop :=
  Grows g r.1 ∧ r.2 < r.1.nodes.size

theorem Gained.grows {r : ArtifactGraph × NodeId} (h : Gained g r) : Grows g r.1 := h.1

theorem gained_addNode (hfits : node.Fits) : Gained g (g.addNode node) :=
  ⟨Grows.refl.node hfits, by rw [size_addNode]; exact Nat.lt_succ_self _⟩

theorem gained_addArtifact (f : FileNames) (artifact : Artifact) {action : Action}
    (haction : action ≠ .phony) : Gained g (g.addArtifact f artifact action) :=
  gained_addNode ⟨nofun, fun h => absurd h haction⟩

theorem gained_addSource (hg : g.WellFormed) (f : FileNames) (artifact : Artifact) :
    Gained g (g.addSource f artifact) := by
  unfold addSource
  cases hfind : g.findPath? (f.path artifact) with
  | some n => exact ⟨.refl, (hg.byPath _ _ hfind).1⟩
  | none => exact gained_addArtifact f artifact (by decide)

theorem gained_addFile (hg : g.WellFormed) (path : Path) : Gained g (g.addFile path) := by
  unfold addFile
  cases hfind : g.findPath? path with
  | some n => exact ⟨.refl, (hg.byPath _ _ hfind).1⟩
  | none => exact gained_addNode ⟨nofun, nofun⟩

theorem gained_addObject (hg : g.WellFormed) (f : FileNames) (unit : QualifiedName)
    (lang : Language) : Gained g (g.addObject f unit lang) := by
  have hsource := gained_addSource hg f (.ofName (.source lang) unit)
  have hobject : Gained (g.addSource f (.ofName (.source lang) unit)).1
      ((g.addSource f (.ofName (.source lang) unit)).1.addArtifact f (.ofName .object unit)
        (.compile lang (f.path (.ofName (.source lang) unit)))) :=
    gained_addArtifact f _ (by simp)
  have hs := Nat.lt_of_lt_of_le hsource.2 hobject.grows.size_le
  refine ⟨(hsource.grows.trans hobject.grows).edge hobject.2 hs, ?_⟩
  show _ < (ArtifactGraph.addEdge _ _ _).nodes.size
  rw [nodes_addEdge]
  exact hobject.2

theorem grows_linkPaths (hg : g.WellFormed) (hn : n < g.nodes.size) (paths : List Path) :
    Grows g (g.linkPaths n paths) := by
  unfold linkPaths
  induction paths generalizing g with
  | nil => exact .refl
  | cons p paths ih =>
    rw [List.foldl_cons]
    cases hfind : g.findPath? p with
    | none => exact ih hg hn
    | some m =>
      have hm := (hg.byPath _ _ hfind).1
      exact (Grows.refl.edge hn hm).trans (ih (hg.addEdge hn hm) (by simpa using hn))

theorem grows_linkAggregates (hg : g.WellFormed) (hn : n < g.nodes.size) (as : List Aggregate) :
    Grows g (g.linkAggregates as n) := by
  unfold linkAggregates
  induction as generalizing g with
  | nil => exact .refl
  | cons a as ih =>
    rw [List.foldl_cons]
    have ha := hg.aggregates a
    exact (Grows.refl.edge ha hn).trans (ih (hg.addEdge ha hn) (by simpa using hn))

/-! ## The parts of a plan -/

theorem grows_foldl {α : Type} {add : ArtifactGraph → α → ArtifactGraph}
    (hadd : ∀ g a, g.WellFormed → Grows g (add g a)) (hg : g.WellFormed) (l : List α) :
    Grows g (l.foldl add g) := by
  induction l generalizing g with
  | nil => exact .refl
  | cons a l ih =>
    have h := hadd g a hg
    exact h.trans (ih (h.wellFormed hg))

theorem grows_addGenerated (hg : g.WellFormed) (f : FileNames)
    (entry : QualifiedName × Option GeneratedRule) : Grows g (addGenerated f g entry) := by
  obtain ⟨file, rule⟩ := entry
  have hlink : ∀ action : Action, action ≠ .phony →
      Grows g ((g.addArtifact f (.ofName .generated file) action).1.linkAggregates
        [.generated, .all] (g.addArtifact f (.ofName .generated file) action).2) :=
    fun action haction =>
      have hfile := gained_addArtifact f (.ofName .generated file) haction
      hfile.grows.trans (grows_linkAggregates (hfile.grows.wellFormed hg) hfile.2 _)
  cases rule with
  | none => exact hlink .source (by simp)
  | some rule => exact hlink (.generate rule.command ⟨file.module.text⟩) (by simp)

theorem grows_addUnit_object (hg : g.WellFormed) (f : FileNames) (unit : QualifiedName)
    (hasHeader : Bool) : Grows (g.addObject f unit .c).1 (addUnit f g (unit, hasHeader)) := by
  have hobject := gained_addObject hg f unit .c
  cases hasHeader with
  | false => exact .refl
  | true =>
    have hheader := gained_addSource (hobject.grows.wellFormed hg) f (.ofName .header unit)
    exact hheader.grows.edge (Nat.lt_of_lt_of_le hobject.2 hheader.grows.size_le) hheader.2

theorem grows_addUnit (hg : g.WellFormed) (f : FileNames) (entry : QualifiedName × Bool) :
    Grows g (addUnit f g entry) :=
  (gained_addObject hg f entry.1 .c).grows.trans (grows_addUnit_object hg f entry.1 entry.2)

theorem grows_addFortranUnit (hg : g.WellFormed) (f : FileNames) (unit : QualifiedName) :
    Grows g (addFortranUnit f g unit) :=
  (gained_addObject hg f unit .fortran).grows

/-- The links of a node, to what it is made of and from its aggregates, add edges. -/
theorem grows_links (hg : g.WellFormed) (hn : n < g.nodes.size) (paths : List Path)
    (as : List Aggregate) : Grows g ((g.linkPaths n paths).linkAggregates as n) := by
  have hlink := grows_linkPaths hg hn paths
  exact hlink.trans (grows_linkAggregates (hlink.wellFormed hg)
    (Nat.lt_of_lt_of_le hn hlink.size_le) as)

theorem grows_addLibraryArtifact_artifact (hg : g.WellFormed) (f : FileNames)
    (objects : List Path) (artifact : Artifact) {action : Action} (haction : action ≠ .phony) :
    Grows (g.addArtifact f artifact action).1 (addLibraryArtifact f objects artifact action g) :=
  have hartifact := gained_addArtifact (g := g) f artifact haction
  grows_links (hartifact.grows.wellFormed hg) hartifact.2 objects [.libraries, .all]

theorem grows_addLibraryArtifact (hg : g.WellFormed) (f : FileNames) (objects : List Path)
    (artifact : Artifact) {action : Action} (haction : action ≠ .phony) :
    Grows g (addLibraryArtifact f objects artifact action g) :=
  (gained_addArtifact f artifact haction).grows.trans
    (grows_addLibraryArtifact_artifact hg f objects artifact haction)

/-- The archive of a library, as it is added. -/
def addArchive (plan : Plan) (f : FileNames) (g : ArtifactGraph) (library : Library) :
    ArtifactGraph × NodeId :=
  g.addArtifact f (archiveOf library) (.archive (libraryObjects plan f library))

theorem grows_addLibrary_archive (hg : g.WellFormed) (plan : Plan) (f : FileNames)
    (library : Library) : Grows (addArchive plan f g library).1 (addLibrary plan f g library) := by
  have harchive : Grows (addArchive plan f g library).1 (g.addLibraryArtifact f
      (libraryObjects plan f library) (archiveOf library)
        (.archive (libraryObjects plan f library))) :=
    grows_addLibraryArtifact_artifact hg f _ _ (by simp)
  have hg₁ := harchive.wellFormed ((gained_addArtifact f _ (by simp)).grows.wellFormed hg)
  unfold addLibrary
  split
  · exact harchive.trans (grows_addLibraryArtifact hg₁ f _ _ (by simp))
  · exact harchive

theorem grows_addLibrary (hg : g.WellFormed) (plan : Plan) (f : FileNames) (library : Library) :
    Grows g (addLibrary plan f g library) :=
  have harchive : Gained g (addArchive plan f g library) := gained_addArtifact f _ (by simp)
  harchive.grows.trans (grows_addLibrary_archive hg plan f library)

/-- The executable of a program, as it is added after the program's object. -/
def addExecutable (plan : Plan) (f : FileNames) (policy : LinkPolicy) (g : ArtifactGraph)
    (program : ProgramSpec) : ArtifactGraph × NodeId :=
  (g.addObject f program.name program.lang).1.addArtifact f (.ofName .executable program.name)
    (.linkExe program.lang [f.path (.ofName .object program.name)]
      ((policy program.name plan).map f.path))

theorem gained_addExecutable (plan : Plan) (f : FileNames) (policy : LinkPolicy)
    (g : ArtifactGraph) (program : ProgramSpec) :
    Gained (g.addObject f program.name program.lang).1 (addExecutable plan f policy g program) :=
  gained_addArtifact f _ (by simp)

theorem grows_addProgram_executable (hg : g.WellFormed) (plan : Plan) (f : FileNames)
    (policy : LinkPolicy) (program : ProgramSpec) :
    Grows (addExecutable plan f policy g program).1 (addProgram plan f policy g program) := by
  have hobject := gained_addObject hg f program.name program.lang
  have hexe := gained_addExecutable plan f policy g program
  have hg₁ := hexe.grows.wellFormed (hobject.grows.wellFormed hg)
  have hobjects := grows_linkPaths hg₁ hexe.2 [f.path (.ofName .object program.name)]
  exact hobjects.trans (grows_links (hobjects.wellFormed hg₁)
    (Nat.lt_of_lt_of_le hexe.2 hobjects.size_le) _ _)

theorem grows_addProgram_object (hg : g.WellFormed) (plan : Plan) (f : FileNames)
    (policy : LinkPolicy) (program : ProgramSpec) :
    Grows (g.addObject f program.name program.lang).1 (addProgram plan f policy g program) :=
  (gained_addExecutable plan f policy g program).grows.trans
    (grows_addProgram_executable hg plan f policy program)

theorem grows_addProgram (hg : g.WellFormed) (plan : Plan) (f : FileNames) (policy : LinkPolicy)
    (program : ProgramSpec) : Grows g (addProgram plan f policy g program) :=
  (gained_addObject hg f program.name program.lang).grows.trans
    (grows_addProgram_object hg plan f policy program)

theorem grows_ofDeclarations (plan : Plan) (f : FileNames) (policy : LinkPolicy) :
    Grows initial (ofDeclarations plan f policy) := by
  have h₁ := grows_foldl (fun g e hg => grows_addGenerated hg f e) wellFormed_initial
    plan.generated.entries
  have hg₁ := h₁.wellFormed wellFormed_initial
  have h₂ := grows_foldl (fun g e hg => grows_addUnit hg f e) hg₁ plan.units.entries
  have hg₂ := h₂.wellFormed hg₁
  have h₃ := grows_foldl (fun g u hg => grows_addFortranUnit hg f u) hg₂ plan.fortranUnits.keys
  have hg₃ := h₃.wellFormed hg₂
  have h₄ := grows_foldl (fun g l hg => grows_addLibrary hg plan f l) hg₃ plan.libraries.values
  have hg₄ := h₄.wellFormed hg₃
  have h₅ := grows_foldl (fun g p hg => grows_addProgram hg plan f policy p) hg₄ (programSpecs plan)
  exact h₁.trans (h₂.trans (h₃.trans (h₄.trans h₅)))

/-! ## Rule inputs and shorthand names -/

theorem grows_addRuleInput (hg : g.WellFormed) {file : QualifiedName} (hn : n < g.nodes.size)
    {input : String} (h : addRuleInput file n g input = .ok g') : Grows g g' := by
  unfold addRuleInput at h
  cases hpath : inputPath? file.module input with
  | none => rw [hpath] at h; cases h
  | some path =>
    rw [hpath] at h
    cases h
    have hfile := gained_addFile hg path
    exact hfile.grows.edge (Nat.lt_of_lt_of_le hn hfile.grows.size_le) hfile.2

theorem grows_foldlM {α : Type} {add : ArtifactGraph → α → Except PlanError ArtifactGraph}
    (hadd : ∀ g' g'' a, g'.WellFormed → g.nodes.size ≤ g'.nodes.size → add g' a = .ok g'' →
      Grows g' g'') (hg : g.WellFormed) {l : List α} (h : l.foldlM add g = .ok g'') :
    Grows g g'' := by
  -- The size bound is carried along because an input is added to a node of the graph at the start.
  have hrun : ∀ (l : List α) (g' : ArtifactGraph), g'.WellFormed → g.nodes.size ≤ g'.nodes.size →
      l.foldlM add g' = .ok g'' → Grows g' g'' := by
    intro l
    induction l with
    | nil =>
      intro g' _ _ h
      cases h
      exact .refl
    | cons a l ih =>
      intro g' hg' hsize h
      rw [List.foldlM_cons] at h
      cases ha : add g' a with
      | error e => rw [ha] at h; cases h
      | ok g₁ =>
        rw [ha] at h
        have hstep := hadd g' g₁ a hg' hsize ha
        exact hstep.trans (ih g₁ (hstep.wellFormed hg') (Nat.le_trans hsize hstep.size_le) h)
  exact hrun l g hg (Nat.le_refl _) h

theorem grows_addRuleInputs (hg : g.WellFormed) {entry : QualifiedName × Option GeneratedRule}
    (h : addRuleInputs f g entry = .ok g') : Grows g g' := by
  obtain ⟨file, rule⟩ := entry
  unfold addRuleInputs at h
  cases hfind : g.findPath? (f.path (.ofName .generated file)) with
  | none =>
    simp only [hfind] at h
    cases h
    exact .refl
  | some n =>
    cases rule with
    | none =>
      cases h
      exact .refl
    | some rule =>
      simp only [hfind] at h
      have hn := (hg.byPath _ _ hfind).1
      exact grows_foldlM (fun _ _ _ hg₁ hsize h =>
        grows_addRuleInput hg₁ (Nat.lt_of_lt_of_le hn hsize) h) hg h

theorem grows_withInputs {plan : Plan} {policy : LinkPolicy}
    (h : withInputs plan f policy = .ok g) : Grows initial g := by
  have hdecl := grows_ofDeclarations plan f policy
  exact hdecl.trans (grows_foldlM (fun g₁ g₂ entry hg₁ _ h => grows_addRuleInputs hg₁ h)
    (hdecl.wellFormed wellFormed_initial) h)

theorem grows_addShorthand (name : String) (hn : n < g.nodes.size) :
    Grows g (g.addShorthand name n) := by
  have hnode : Gained g (g.addNode (.phony (.shorthand name))) :=
    gained_addNode ⟨fun _ => rfl, fun _ => rfl⟩
  exact (hnode.grows.edge hnode.2 (Nat.lt_of_lt_of_le hn hnode.grows.size_le)).shorthands _

theorem mem_of_collectShorthands {taken collected : SortedMap String Shorthand}
    {wanted : List Shorthand} (h : collectShorthands taken wanted = .ok collected) {s : Shorthand}
    {name : String} (hs : collected.find? name = some s) :
    taken.find? name = some s ∨ s ∈ wanted := by
  induction wanted generalizing taken with
  | nil =>
    cases h
    exact .inl hs
  | cons w wanted ih =>
    unfold collectShorthands at h
    cases hfind : taken.find? w.name with
    | some other => simp [hfind] at h
    | none =>
      simp only [hfind] at h
      rcases ih h with hs | hs
      · rw [SortedMap.find?_insert_eq_ite] at hs
        split at hs
        · cases hs
          exact .inr List.mem_cons_self
        · exact .inl hs
      · exact .inr (List.mem_cons_of_mem _ hs)

theorem target_lt_of_mem_wantedShorthands {s : Shorthand} (h : s ∈ g.wantedShorthands f) :
    s.target < g.nodes.size := by
  obtain ⟨n, hn, hs⟩ := List.mem_filterMap.mp h
  split at hs
  · split at hs
    · cases hs
      exact mem_ids.mp hn
    · cases hs
  · cases hs

theorem grows_foldl_addShorthand {names : List Shorthand}
    (hnames : ∀ s ∈ names, s.target < g.nodes.size) :
    Grows g (names.foldl (fun g s => g.addShorthand s.name s.target) g) := by
  induction names generalizing g with
  | nil => exact .refl
  | cons s names ih =>
    have h := grows_addShorthand s.name (hnames s List.mem_cons_self)
    exact h.trans (ih fun s' hs' =>
      Nat.lt_of_lt_of_le (hnames s' (List.mem_cons_of_mem _ hs')) h.size_le)

/-- What is added are shorthand names that artifacts of the graph ask for. -/
theorem addShorthands_eq_ok (h : (addShorthands f g).result = .ok g') :
    ∃ names : List Shorthand, (∀ s ∈ names, s ∈ g.wantedShorthands f) ∧
      g' = names.foldl (fun g s => g.addShorthand s.name s.target) g := by
  unfold addShorthands at h
  cases hcollect : collectShorthands ∅ (g.wantedShorthands f) with
  | error e => rw [hcollect] at h; cases h
  | ok taken =>
    rw [hcollect] at h
    cases h
    refine ⟨_, fun s hs => ?_, rfl⟩
    obtain ⟨e, he, rfl⟩ := List.mem_map.mp (List.mem_filter.mp (List.mem_filter.mp hs).1).1
    rcases mem_of_collectShorthands hcollect (SortedMap.mem_entries_iff.mp he) with hempty | hs
    · cases hempty
    · exact hs

theorem grows_addShorthands (h : (addShorthands f g).result = .ok g') : Grows g g' := by
  obtain ⟨names, hnames, rfl⟩ := addShorthands_eq_ok h
  exact grows_foldl_addShorthand fun s hs => target_lt_of_mem_wantedShorthands (hnames s hs)

/-! ## Derived graphs -/

theorem derive_eq_ok_iff {plan : Plan} {policy : LinkPolicy} {mode : BuildMode} :
    (derive plan f policy mode).result = .ok g ↔
      ∃ g₀, withInputs plan f policy = .ok g₀ ∧
        (if mode.hasShorthands then addShorthands f g₀ else ⟨[], .ok g₀⟩ : Derivation).result =
          .ok g ∧
        ∃ order, g.toposort = .ok order := by
  unfold derive
  cases hinputs : withInputs plan f policy with
  | error e => exact ⟨nofun, nofun⟩
  | ok g₀ =>
    simp only [Except.ok.injEq, exists_eq_left']
    generalize
      (if mode.hasShorthands then addShorthands f g₀ else ⟨[], .ok g₀⟩ : Derivation) = named
    obtain ⟨warnings, _ | g₁⟩ := named
    · exact ⟨nofun, nofun⟩
    · show checkAcyclic g₁ = .ok g ↔ Except.ok g₁ = .ok g ∧ _
      unfold checkAcyclic
      constructor
      · intro h
        cases hsort : g₁.toposort with
        | error n => rw [hsort] at h; cases h
        | ok order =>
          rw [hsort] at h
          cases h
          exact ⟨rfl, order, hsort⟩
      · rintro ⟨h, order, hsort⟩
        cases h
        rw [hsort]

/-- The graph of a plan before it is searched for cycles. -/
def constructed (plan : Plan) (f : FileNames) (policy : LinkPolicy) (mode : BuildMode) :
    Except PlanError ArtifactGraph :=
  (withInputs plan f policy).bind fun g =>
    (if mode.hasShorthands then addShorthands f g else ⟨[], .ok g⟩ : Derivation).result

theorem result_derive (plan : Plan) (f : FileNames) (policy : LinkPolicy) (mode : BuildMode) :
    (derive plan f policy mode).result = (constructed plan f policy mode).bind checkAcyclic := by
  unfold derive constructed
  cases withInputs plan f policy <;> rfl

theorem derive_of_constructed {plan : Plan} {policy : LinkPolicy} {mode : BuildMode}
    {order : List NodeId} (h : constructed plan f policy mode = .ok g)
    (hsort : g.toposort = .ok order) : (derive plan f policy mode).result = .ok g := by
  rw [result_derive, h]
  show checkAcyclic g = .ok g
  rw [checkAcyclic, hsort]

theorem grows_derive {plan : Plan} {policy : LinkPolicy} {mode : BuildMode}
    (h : (derive plan f policy mode).result = .ok g) : Grows initial g := by
  obtain ⟨g₀, hinputs, hnamed, -⟩ := derive_eq_ok_iff.mp h
  refine (grows_withInputs hinputs).trans ?_
  split at hnamed
  · exact grows_addShorthands hnamed
  · cases hnamed
    exact .refl

theorem wellFormed_derive {plan : Plan} {policy : LinkPolicy} {mode : BuildMode}
    (h : (derive plan f policy mode).result = .ok g) : g.WellFormed :=
  (grows_derive h).wellFormed wellFormed_initial

theorem ordered_derive {plan : Plan} {policy : LinkPolicy} {mode : BuildMode}
    (h : (derive plan f policy mode).result = .ok g) : g.Ordered where
  within := (wellFormed_derive h).edgesWithin
  order := (derive_eq_ok_iff.mp h).choose_spec.2.2

/-! ## Graphs by their edges -/

/-- The targets of the edges from a node. -/
def successors (es : List (NodeId × NodeId)) (n : NodeId) : List NodeId :=
  es.filterMap fun (a, b) => if a = n then some b else none

/-- The sources of the edges to a node. -/
def predecessors (es : List (NodeId × NodeId)) (n : NodeId) : List NodeId :=
  es.filterMap fun (a, b) => if b = n then some a else none

/-- The graph of a plan before it is searched for cycles, with its edges and the number of its nodes.
Its order and its levels are computed from these. -/
structure Constructs (plan : Plan) (f : FileNames) (policy : LinkPolicy) (mode : BuildMode)
    (g : ArtifactGraph) (es : List (NodeId × NodeId)) (size : Nat) : Prop where
  constructed : constructed plan f policy mode = .ok g
  edges : g.edges = es
  size : g.nodes.size = size

theorem eq_ok_of_isSome {ε α : Type} {r : Except ε α} {a : α} (h : r.toOption.isSome) :
    r = .ok (r.toOption.getD a) := by
  cases r with
  | error e => cases h
  | ok b => rfl

theorem constructed_of_withInputs {plan : Plan} {policy : LinkPolicy} {mode : BuildMode}
    (h : withInputs plan f policy = .ok g) (hmode : mode.hasShorthands = false) :
    constructed plan f policy mode = .ok g := by
  rw [constructed, h, hmode]
  rfl

/-- For a graph that is what a plan comes to there are three computations to do. -/
theorem constructs_of_computed {plan : Plan} {policy : LinkPolicy} {mode : BuildMode}
    {es : List (NodeId × NodeId)} {size : Nat}
    (h : (constructed plan f policy mode).toOption.isSome ∧
      ((constructed plan f policy mode).toOption.getD {}).edges = es ∧
      ((constructed plan f policy mode).toOption.getD {}).nodes.size = size) :
    Constructs plan f policy mode ((constructed plan f policy mode).toOption.getD {}) es size :=
  ⟨eq_ok_of_isSome h.1, h.2.1, h.2.2⟩

section Constructs

variable {plan : Plan} {policy : LinkPolicy} {mode : BuildMode} {es : List (NodeId × NodeId)}
  {size : Nat} (h : Constructs plan f policy mode g es size)

include h

theorem Constructs.dependencies (n : NodeId) : g.dependencies n = successors es n := by
  rw [← h.edges]
  rfl

theorem Constructs.toposort : g.toposort =
    Toposort.order (successors es) (predecessors es) (List.range size) := by
  rw [ArtifactGraph.toposort, ids, h.size, ← h.edges]
  rfl

theorem Constructs.derive
    (hsort : (Toposort.order (successors es) (predecessors es) (List.range size)).toOption.isSome) :
    (derive plan f policy mode).result = .ok g := by
  rw [← h.toposort] at hsort
  cases horder : g.toposort with
  | error n => rw [horder] at hsort; cases hsort
  | ok order => exact derive_of_constructed h.constructed horder

theorem Constructs.reachable (root : NodeId) : g.reachable root =
    (Toposort.collectFrom (successors es) [root] (List.range size)).1 := by
  rw [ArtifactGraph.reachable, ids, h.size, ← h.edges]
  rfl

/-- How levels are computed whose nodes are in the order of their names already. -/
theorem Constructs.levels {root : NodeId} {order nodes : List NodeId} {levels : List (List NodeId)}
    (hsort : Toposort.order (successors es) (predecessors es) (List.range size) = .ok order)
    (hnodes : order.reverse.filter
      ((Toposort.collectFrom (successors es) [root] (List.range size)).1.contains ·) = nodes)
    (hlevels :
      let levelOf := nodes.foldl (fun (known : SortedMap NodeId Nat) n => known.insert n
        (((successors es n).filterMap fun d => (known.find? d).map (· + 1)).foldl max 0)) ∅
      (List.range ((levelOf.values.map (· + 1)).foldl max 0)).map
        (fun k => nodes.filter fun n => levelOf.find? n = some k) = levels)
    (hsorted : ∀ level ∈ levels, level.Pairwise fun a b => g.displayName a ≤ g.displayName b) :
    g.levels root = levels := by
  have hschedule : g.schedule root = nodes := by
    rw [schedule, h.toposort, hsort, h.reachable]
    exact hnodes
  have hlevelOf : g.levelMap nodes = nodes.foldl (fun known n => known.insert n
      (((successors es n).filterMap fun d => (known.find? d).map (· + 1)).foldl max 0)) ∅ := by
    unfold levelMap levelFrom
    simp only [h.dependencies]
  dsimp only at hlevels
  rw [← hlevelOf] at hlevels
  rw [ArtifactGraph.levels, hschedule, ← hlevels]
  refine List.map_congr_left fun k hk => List.mergeSort_of_pairwise ?_
  refine (hsorted _ (hlevels ▸ List.mem_map_of_mem hk)).imp fun h => ?_
  exact decide_eq_true h

end Constructs

/-! ## A project of two stages -/

/-- One generated file is made from a file of the project, and another from the first. -/
def twoStagesPlan : Plan where
  project := "demo"
  modules := SortedMap.insert ∅ ⟨"gen"⟩ ()
  generated := (SortedMap.insert ∅ ⟨⟨"gen"⟩, "a.txt"⟩ (some ⟨["make-a"], ["seed.txt"]⟩)).insert
    ⟨⟨"gen"⟩, "b.txt"⟩ (some ⟨["make-b"], ["a.txt"]⟩)

def twoStages : ArtifactGraph :=
  (withInputs twoStagesPlan {} .everyLibrary).toOption.getD {}

theorem constructs_twoStages :
    Constructs twoStagesPlan {} .everyLibrary (.standalone ⟨"gen"⟩) twoStages
      [(6, 5), (5, 7), (0, 6), (4, 6), (0, 5), (4, 5)] 8 :=
  ⟨constructed_of_withInputs (eq_ok_of_isSome (by rfl)) rfl, by rfl, by rfl⟩

theorem derive_twoStages :
    (derive twoStagesPlan {} .everyLibrary (.standalone ⟨"gen"⟩)).result = .ok twoStages :=
  constructs_twoStages.derive (by cbv)

theorem levels_twoStages : twoStages.levels 4 = [[7], [5], [6], [4]] :=
  constructs_twoStages.levels (by cbv) (by cbv) (by rfl) (by decide)

end ArtifactGraph

end ModularBuild
