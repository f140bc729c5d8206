import ModularBuild.Proofs.Graph.GeneratedSources

/-!
# The graph while it grows

A derivation adds nodes and edges one at a time, and it may be refused on the way: `made` is what it
has added by then. `Consistent` says what holds after every single addition. The paths of nodes, and
no others, lead to the newest nodes that have them. Sources, headers and files that rules read are
given: they are added only where no node has the path yet (`GivenFirst`), and they need nothing.
Edges lead to files, and so to no aggregate and to no other name (`Guarded`).

What leads where is kept by every addition. The rest is shown of what is made in the end, and passes
to every graph on the way there, because additions take nothing away (`Assembled.consistent`).
-/

namespace ModularBuild

/-- Whether the file is there before anything is built: a source or a header, or a file that a rule
reads and that no artifact accounts for. -/
def NodeKind.isGiven : NodeKind → Bool
  | .artifact x => !x.kind.isOutput
  | .file _ => true
  | .aggregate _ | .shorthand _ => false

namespace ArtifactGraph

variable {g g' : ArtifactGraph} {f : FileNames} {plan : Plan} {policy : LinkPolicy}
  {mode : BuildMode} {a b m n : NodeId} {node : Node}

/-! ## What has been made when a derivation ends -/

section Until

variable {α β ε : Type} {step : β → α → Except ε β} {start result : β} {l : List α}

/-- What steps that may fail make of the first value: all of them, or those before the first one that
fails. -/
def runUntil (step : β → α → Except ε β) (start : β) : List α → β
  | [] => start
  | x :: l =>
    match step start x with
    | .ok next => runUntil step next l
    | .error _ => start

theorem runUntil_of_foldlM (h : l.foldlM step start = .ok result) :
    runUntil step start l = result := by
  induction l generalizing start with
  | nil =>
    cases h
    rfl
  | cons x l ih =>
    rw [List.foldlM_cons] at h
    unfold runUntil
    cases hx : step start x with
    | error e => rw [hx] at h; cases h
    | ok next =>
      rw [hx] at h
      exact ih h

theorem runUntil_keeps {P : β → Prop} (hstart : P start)
    (hstep : ∀ s s', ∀ x ∈ l, P s → step s x = .ok s' → P s') : P (runUntil step start l) := by
  induction l generalizing start with
  | nil => exact hstart
  | cons x l ih =>
    unfold runUntil
    cases hx : step start x with
    | error e => exact hstart
    | ok next =>
      exact ih (hstep start next x List.mem_cons_self hstart hx)
        fun s s' y hy => hstep s s' y (List.mem_cons_of_mem _ hy)

end Until

/-- Makes the node at the path of a file need one input of the file's rule. -/
def wireInput (f : FileNames) (g : ArtifactGraph) (input : QualifiedName × String) :
    Except PlanError ArtifactGraph :=
  match g.findPath? (f.path (.ofName .generated input.1)) with
  | some n => addRuleInput input.1 n g input.2
  | none => .ok g

theorem findPath?_addRuleInput {file : QualifiedName} {input : String} {p : Path}
    (hp : g.findPath? p = some m) (h : addRuleInput file n g input = .ok g') :
    g'.findPath? p = some m := by
  unfold addRuleInput at h
  split at h
  · cases h
  · cases h
    rw [findPath?_addEdge]
    exact (settles_addFile _).findPath? p m hp

theorem addRuleInputs_eq (entry : QualifiedName × Option GeneratedRule) :
    addRuleInputs f g entry = (ruleInputs entry).foldlM (wireInput f) g := by
  obtain ⟨file, rule⟩ := entry
  cases rule with
  | none => rfl
  | some rule =>
    unfold addRuleInputs ruleInputs
    dsimp only
    cases hfind : g.findPath? (f.path (.ofName .generated file)) with
    | none =>
      dsimp only
      induction rule.inputs with
      | nil => rfl
      | cons input inputs ih =>
        rw [List.map_cons, List.foldlM_cons, wireInput, hfind]
        exact ih
    | some n =>
      dsimp only
      generalize rule.inputs = inputs
      induction inputs generalizing g with
      | nil => rfl
      | cons input inputs ih =>
        rw [List.map_cons, List.foldlM_cons, List.foldlM_cons, wireInput, hfind]
        dsimp only
        cases hinput : addRuleInput file n g input with
        | error e => rfl
        | ok g₁ => exact ih (findPath?_addRuleInput hfind hinput)

theorem withInputs_eq : withInputs plan f policy =
    (plan.generated.entries.flatMap ruleInputs).foldlM (wireInput f)
      (ofDeclarations plan f policy) := by
  unfold withInputs
  generalize ofDeclarations plan f policy = g
  induction plan.generated.entries generalizing g with
  | nil => rfl
  | cons entry entries ih =>
    rw [List.foldlM_cons, List.flatMap_cons, List.foldlM_append, addRuleInputs_eq]
    exact bind_congr ih

/-- The declarations, and the inputs of rules as far as they are wired: all of them, or those before
the first one that is outside the project. -/
def wired (plan : Plan) (f : FileNames) (policy : LinkPolicy) : ArtifactGraph :=
  runUntil (wireInput f) (ofDeclarations plan f policy)
    (plan.generated.entries.flatMap ruleInputs)

/-- What a derivation has made when it ends, whether it answers the graph or refuses the plan. No
shorthand name is added before it is known that no two artifacts ask for one, and nothing is added
in search of a cycle. -/
def made (plan : Plan) (f : FileNames) (policy : LinkPolicy) (mode : BuildMode) : ArtifactGraph :=
  (constructed plan f policy mode).toOption.getD (wired plan f policy)

theorem wired_of_withInputs (h : withInputs plan f policy = .ok g) : wired plan f policy = g :=
  runUntil_of_foldlM (withInputs_eq ▸ h)

theorem made_of_constructed (h : constructed plan f policy mode = .ok g) :
    made plan f policy mode = g := by
  rw [made, h]
  rfl

theorem made_of_derive (h : (derive plan f policy mode).result = .ok g) :
    made plan f policy mode = g := by
  rw [result_derive] at h
  cases hconstructed : constructed plan f policy mode with
  | error e => rw [hconstructed] at h; cases h
  | ok g₁ =>
    rw [hconstructed] at h
    have hacyclic : checkAcyclic g₁ = .ok g := h
    unfold checkAcyclic at hacyclic
    split at hacyclic
    · exact made_of_constructed (hconstructed.trans hacyclic)
    · cases hacyclic

/-! ## Given files are the first at their paths -/

/-- No node is older than a given file and has its path. -/
def GivenFirst (g : ArtifactGraph) : Prop :=
  ∀ n p, (g.node n).kind.isGiven → g.HasPath n p → ∀ m, g.HasPath m p → n ≤ m

theorem GivenFirst.addNode (h : g.GivenFirst) (hg : g.Traced)
    (hfree : node.kind.isGiven → ∀ p, node.path = some p → g.findPath? p = none) :
    (g.addNode node).1.GivenFirst := by
  intro n p hgiven hn m hm
  rcases hasPath_addNode_iff.mp hn with ⟨rfl, q, hq, hsame⟩ | ⟨hne, hn⟩
  · rw [node_addNode_self] at hgiven
    rcases hasPath_addNode_iff.mp hm with ⟨rfl, -⟩ | ⟨-, hm⟩
    · exact Nat.le_refl _
    · obtain ⟨k, hk, -⟩ := hg.newest m q (hasPath_congr hsame hm)
      rw [hfree hgiven q hq] at hk
      cases hk
  · rw [node_addNode_of_ne hne] at hgiven
    rcases hasPath_addNode_iff.mp hm with ⟨rfl, -⟩ | ⟨-, hm⟩
    · exact Nat.le_of_lt hn.lt_size
    · exact h n p hgiven hn m hm

theorem GivenFirst.addEdge (h : g.GivenFirst) : (g.addEdge a b).GivenFirst := by
  intro n p hgiven hn m hm
  rw [node_addEdge] at hgiven
  exact h n p hgiven (hasPath_addEdge_iff.mp hn) m (hasPath_addEdge_iff.mp hm)

theorem Inserts.givenFirst (h : Inserts plan f g g') (htraced : g.Traced)
    (hfirst : g.GivenFirst) : g'.Traced ∧ g'.GivenFirst := by
  induction h with
  | refl => exact ⟨htraced, hfirst⟩
  | artifact houtput _ _ ih =>
    refine ⟨ih.1.addNode, ih.2.addNode ih.1 fun hgiven => ?_⟩
    simp [NodeKind.isGiven, houtput] at hgiven
  | source _ hfree _ ih | file _ hfree _ ih =>
    refine ⟨ih.1.addNode, ih.2.addNode ih.1 fun _ p hp => ?_⟩
    cases hp
    exact hfree
  | edge _ ih => exact ⟨ih.1.addEdge, ih.2.addEdge⟩

theorem givenFirst_initial : initial.GivenFirst := by
  intro n p _ hn
  obtain ⟨k, hk, -⟩ := traced_initial.newest n p hn
  cases hk

/-! ## Edges leave what is made, and lead to files -/

/-- Edges leave no given files, and lead to nodes with a path. -/
def Guarded (g : ArtifactGraph) : Prop :=
  ∀ n d, g.Needs n d → ¬ (g.node n).kind.isGiven ∧ (g.node d).path ≠ none

theorem Guarded.addNode (h : g.Guarded) (hg : g.EdgesWithin) : (g.addNode node).1.Guarded := by
  intro n d hneeds
  obtain ⟨hn, hd⟩ := hg n d hneeds
  rw [node_addNode_of_lt hn, node_addNode_of_lt hd]
  exact h n d hneeds

theorem Guarded.addEdge (h : g.Guarded) (ha : ¬ (g.node a).kind.isGiven)
    (hb : (g.node b).path ≠ none) : (g.addEdge a b).Guarded := by
  intro n d hneeds
  rw [node_addEdge, node_addEdge]
  rcases needs_addEdge.mp hneeds with ⟨rfl, rfl⟩ | hold
  · exact ⟨ha, hb⟩
  · exact h n d hold

theorem guarded_ofDeclarations : (ofDeclarations plan f policy).Guarded := by
  have hjoins : Joins (fun _ => True) (fun kind => ¬ kind.isGiven) initial
      (ofDeclarations plan f policy) :=
    joins_declarations (fun _ => nofun) fun x hx => by simp [NodeKind.isGiven, hx]
  exact fun n d hneeds => (hjoins.edges n d hneeds).resolve_left nofun

/-! ## The inputs of rules -/

/-- What has been made of a plan while the inputs of its rules are wired. -/
structure Wiring (plan : Plan) (f : FileNames) (policy : LinkPolicy) (g : ArtifactGraph) :
    Prop where
  inserts : Inserts plan f initial g
  grows : Grows (ofDeclarations plan f policy) g
  guarded : g.Guarded

theorem Wiring.grows_initial (h : Wiring plan f policy g) : Grows initial g :=
  (grows_ofDeclarations plan f policy).trans h.grows

theorem exists_hasPath_generated {entry : QualifiedName × Option GeneratedRule}
    (hentry : entry ∈ plan.generated.entries) :
    ∃ m, (generatedStage plan f).HasPath m (f.path (.ofName .generated entry.1)) ∧
      ¬ ((generatedStage plan f).node m).kind.isGiven := by
  have hsome := isSome_findPath?_generatedStage (f := f) hentry
  obtain ⟨m, hm⟩ := Option.isSome_iff_exists.mp hsome
  have hpath := extends_generatedStage.grows.wellFormed_of_initial.hasPath hm
  have ⟨_, hq, _⟩ := hpath
  obtain ⟨other, -, hkind, -⟩ := exists_generated_of_path hq
  exact ⟨m, hpath, by rw [hkind]; exact nofun⟩

/-- The path of a generated file leads to no given file: that would be both the newest node there and
the oldest one. -/
theorem Wiring.not_isGiven_of_findPath? (h : Wiring plan f policy g)
    {entry : QualifiedName × Option GeneratedRule} (hentry : entry ∈ plan.generated.entries)
    (hn : g.findPath? (f.path (.ofName .generated entry.1)) = some n) :
    ¬ (g.node n).kind.isGiven := by
  intro hgiven
  obtain ⟨m, hm, hmade⟩ := exists_hasPath_generated (f := f) hentry
  have hlater : Overlays plan f (generatedStage plan f) (ofDeclarations plan f policy) :=
    overlays_ofDeclarations
  have hstage := hlater.grows.trans h.grows
  have hnewest : m ≤ n := h.grows_initial.newest_of_findPath? hn m (hstage.hasPath hm)
  have holdest : n ≤ m := (h.inserts.givenFirst traced_initial givenFirst_initial).2 n _ hgiven
    (h.grows_initial.wellFormed_of_initial.hasPath hn) m (hstage.hasPath hm)
  rw [Nat.le_antisymm holdest hnewest, hstage.node_eq hm.lt_size] at hgiven
  exact hmade hgiven

/-- An input is wired by an edge from a node that is not given to a file. -/
theorem Guarded.addRuleInput (h : g.Guarded) (hg : g.WellFormed) (hn : n < g.nodes.size)
    (hmade : ¬ (g.node n).kind.isGiven) {file : QualifiedName} {input : String}
    (hstep : ArtifactGraph.addRuleInput file n g input = .ok g') : g'.Guarded := by
  unfold ArtifactGraph.addRuleInput at hstep
  split at hstep
  · cases hstep
  · rename_i path _
    cases hstep
    have hfile := gained_addFile hg path
    have hguarded : (g.addFile path).1.Guarded := by
      unfold addFile
      split
      · exact h
      · exact h.addNode hg.edgesWithin
    obtain ⟨-, q, hq, -⟩ := (hfile.grows.wellFormed hg).byPath _ _ (findPath?_addFile path)
    have hpath : ((g.addFile path).1.node (g.addFile path).2).path ≠ none := by
      rw [hq]
      exact nofun
    refine hguarded.addEdge ?_ hpath
    rwa [hfile.grows.node_eq hn]

theorem Wiring.wireInput (h : Wiring plan f policy g) {input : QualifiedName × String}
    (hinput : input ∈ plan.generated.entries.flatMap ruleInputs)
    (hstep : ArtifactGraph.wireInput f g input = .ok g') : Wiring plan f policy g' := by
  have hg := h.grows_initial.wellFormed_of_initial
  obtain ⟨rule, hfile, -⟩ := mem_flatMap_ruleInputs.mp hinput
  unfold ArtifactGraph.wireInput at hstep
  cases hn : g.findPath? (f.path (.ofName .generated input.1)) with
  | none =>
    rw [hn] at hstep
    cases hstep
    exact h
  | some n =>
    rw [hn] at hstep
    have hlt := (hg.byPath _ _ hn).1
    have hmade := h.not_isGiven_of_findPath? (SortedMap.mem_entries_iff.mpr hfile) hn
    exact ⟨h.inserts.trans (inserts_addRuleInput hstep),
      h.grows.trans (grows_addRuleInput hg hlt hstep), h.guarded.addRuleInput hg hlt hmade hstep⟩

theorem wiring_wired : Wiring plan f policy (wired plan f policy) :=
  runUntil_keeps ⟨inserts_ofDeclarations plan f policy, .refl, guarded_ofDeclarations⟩
    fun _ _ _ hinput h hstep => h.wireInput hinput hstep

/-! ## What is made in the end -/

/-- What a graph is like that has been made of declarations, of inputs and of shorthand names. -/
structure Assembled (plan : Plan) (f : FileNames) (policy : LinkPolicy) (g : ArtifactGraph) :
    Prop where
  grows : Grows (ofDeclarations plan f policy) g
  first : g.GivenFirst
  guarded : g.Guarded
  indexed : Indexed f g

theorem Assembled.grows_initial (h : Assembled plan f policy g) : Grows initial g :=
  (grows_ofDeclarations plan f policy).trans h.grows

theorem Wiring.assembled (h : Wiring plan f policy g) : Assembled plan f policy g where
  grows := h.grows
  first := (h.inserts.givenFirst traced_initial givenFirst_initial).2
  guarded := h.guarded
  indexed := h.inserts.indexed indexed_initial

theorem Assembled.addShorthand (h : Assembled plan f policy g) (name : String) {target : NodeId}
    (htarget : (g.node target).path ≠ none) :
    Assembled plan f policy (g.addShorthand name target) where
  grows := h.grows.trans (grows_addShorthand name (lt_size_of_path_ne_none htarget))
  first :=
    have hnode : (g.addNode (.phony (.shorthand name))).1.GivenFirst :=
      h.first.addNode (h.grows_initial.traced traced_initial) nofun
    hnode.addEdge (a := g.nodes.size) (b := target)
  guarded := by
    have hnode : (g.addNode (.phony (.shorthand name))).1.Guarded :=
      h.guarded.addNode h.grows_initial.wellFormed_of_initial.edgesWithin
    refine hnode.addEdge (a := g.nodes.size) (b := target) ?_ ?_
    · rw [node_addNode_self]
      exact nofun
    · rwa [node_addNode_of_lt (lt_size_of_path_ne_none htarget)]
  indexed := h.indexed.addShorthand

theorem path_ne_none_of_mem_wantedShorthands (hg : Indexed f g) {s : Shorthand}
    (hs : s ∈ g.wantedShorthands f) : (g.node s.target).path ≠ none := by
  obtain ⟨n, x, hx, rfl⟩ := mem_wantedShorthands.mp hs
  have hstands := hg.stands n hx.lt_size
  have hkind := hx.kind
  show (g.node n).path ≠ none
  generalize g.node n = node at hstands hkind
  cases hstands with
  | aggregate | shorthand => cases hkind
  | artifact | file => exact nofun

theorem Assembled.addShorthands (h : Assembled plan f policy g)
    (hnamed : (addShorthands f g).result = .ok g') : Assembled plan f policy g' := by
  obtain ⟨names, hnames, rfl⟩ := addShorthands_eq_ok hnamed
  have htargets := fun s hs => path_ne_none_of_mem_wantedShorthands h.indexed (hnames s hs)
  clear hnamed hnames
  induction names generalizing g with
  | nil => exact h
  | cons s names ih =>
    obtain ⟨hs, htargets⟩ := List.forall_mem_cons.mp htargets
    have hadded := h.addShorthand s.name hs
    refine ih hadded fun t ht => ?_
    have hpath := htargets t ht
    rwa [node_addShorthand_of_ne (Nat.ne_of_lt (lt_size_of_path_ne_none hpath))]

theorem assembled_made : Assembled plan f policy (made plan f policy mode) := by
  have hwired : Wiring plan f policy (wired plan f policy) := wiring_wired
  unfold made
  cases hconstructed : constructed plan f policy mode with
  | error e => exact hwired.assembled
  | ok g =>
    show Assembled plan f policy g
    unfold constructed at hconstructed
    cases hinputs : withInputs plan f policy with
    | error e => rw [hinputs] at hconstructed; cases hconstructed
    | ok g₀ =>
      rw [hinputs] at hconstructed
      rw [wired_of_withInputs hinputs] at hwired
      dsimp only [Except.bind] at hconstructed
      split at hconstructed
      · exact hwired.assembled.addShorthands hconstructed
      · cases hconstructed
        exact hwired.assembled

/-! ## After every addition -/

/-- What holds of a graph while it is derived. -/
structure Consistent (g : ArtifactGraph) : Prop where
  /-- A path leads to the newest node that has it. -/
  leads : ∀ p n, g.findPath? p = some n ↔ g.HasPath n p ∧ g.Newest p n
  /-- The paths that nodes have, and no others, lead to a node. -/
  carried : ∀ p, (g.findPath? p).isSome ↔ ∃ n, g.HasPath n p
  /-- No two given files have one path. -/
  sole : ∀ m n p, (g.node m).kind.isGiven → (g.node n).kind.isGiven →
    g.HasPath m p → g.HasPath n p → m = n
  /-- No node needs another twice. -/
  once : g.edges.Nodup
  /-- Given files need nothing. -/
  leaves : ∀ n, (g.node n).kind.isGiven → ∀ d, ¬ g.Needs n d
  /-- Nothing needs an aggregate or a shorthand name. -/
  roots : ∀ d, (∃ y, (g.node d).kind = .aggregate y) ∨
    (∃ name, (g.node d).kind = .shorthand name) → ∀ n, ¬ g.Needs n d

theorem Grows.edgesWithin (h : Grows g g') (hg : g.EdgesWithin) : g'.EdgesWithin := by
  induction h with
  | refl => exact hg
  | node _ _ ih =>
    intro a b hneeds
    obtain ⟨ha, hb⟩ := ih a b hneeds
    rw [size_addNode]
    exact ⟨Nat.lt_succ_of_lt ha, Nat.lt_succ_of_lt hb⟩
  | edge _ ha hb ih =>
    intro n d hneeds
    rw [nodes_addEdge]
    rcases needs_addEdge.mp hneeds with ⟨rfl, rfl⟩ | hold
    · exact ⟨ha, hb⟩
    · exact ih n d hold
  | shorthands _ _ ih => exact ih

/-- What is needed is neither an aggregate nor a shorthand name: these have no path. -/
theorem Assembled.kind_of_needs (h : Assembled plan f policy g) {n d : NodeId} (hneeds : g.Needs n d) :
    (∀ y, (g.node d).kind ≠ .aggregate y) ∧ ∀ name, (g.node d).kind ≠ .shorthand name := by
  have hpath := (h.guarded n d hneeds).2
  have hstands := h.indexed.stands d (h.grows_initial.wellFormed_of_initial.edgesWithin n d hneeds).2
  generalize g.node d = node at hpath hstands
  cases hstands with
  | aggregate | shorthand => exact absurd rfl hpath
  | artifact | file => exact ⟨nofun, nofun⟩

theorem Assembled.consistent {last : ArtifactGraph} (h : Assembled plan f policy last)
    (hfrom : Grows {} g) (hto : Grows g last) : g.Consistent := by
  have htraced := hfrom.traced traced_empty
  have hwithin : g.EdgesWithin := hfrom.edgesWithin nofun
  -- Nodes stay what they are, so that what is said of the last graph holds of this one.
  refine ⟨fun _ _ => htraced.findPath?_eq_some_iff, fun _ => htraced.isSome_findPath?_iff,
    fun m n p hm hn hpm hpn => ?sole, hfrom.nodup_edges List.nodup_nil,
    fun n hn d hneeds => ?leaves, fun d hd n hneeds => ?roots⟩
  case sole =>
    have hfirst : ∀ {m n}, (g.node m).kind.isGiven → g.HasPath m p → g.HasPath n p → m ≤ n := by
      intro m n hm hpm hpn
      rw [← hto.node_eq hpm.lt_size] at hm
      exact h.first m p hm (hto.hasPath hpm) n (hto.hasPath hpn)
    exact Nat.le_antisymm (hfirst hm hpm hpn) (hfirst hn hpn hpm)
  case leaves =>
    rw [← hto.node_eq (hwithin n d hneeds).1] at hn
    exact (h.guarded n d (hto.needs hneeds)).1 hn
  case roots =>
    obtain ⟨haggregate, hshorthand⟩ := h.kind_of_needs (hto.needs hneeds)
    rw [hto.node_eq (hwithin n d hneeds).2] at haggregate hshorthand
    rcases hd with ⟨y, hy⟩ | ⟨name, hname⟩
    · exact haggregate y hy
    · exact hshorthand name hname

/-- **A graph is consistent while it is derived.** Single additions of nodes and edges lead from the
graph of nothing to what a derivation has made when it ends, which is the derived graph unless the
plan is refused. After each of them, on whatever way from the one to the other, the paths of nodes
lead to the newest nodes that have them and other paths lead nowhere; no two sources, headers or files
that rules read have one path, and they need nothing; no node needs another twice; and nothing needs
an aggregate or a shorthand name. -/
theorem consistent_throughout (plan : Plan) (f : FileNames) (policy : LinkPolicy)
    (mode : BuildMode) :
    Grows {} (made plan f policy mode) ∧
    (∀ g, (derive plan f policy mode).result = .ok g → made plan f policy mode = g) ∧
    ∀ g, Grows {} g → Grows g (made plan f policy mode) → g.Consistent := by
  have hmade : Assembled plan f policy (made plan f policy mode) := assembled_made
  exact ⟨grows_initial.trans hmade.grows_initial, fun g => made_of_derive,
    fun g hfrom hto => hmade.consistent hfrom hto⟩

/-- Two files that are made from each other are wired before the plan is refused for an input outside
the project; before that they were wired to nothing. -/
theorem consistent_throughout_straySeed :
    (derive straySeedPlan {} .everyLibrary .project).result =
        .error (.inputOutsideProject "gen/b.txt" "../../seed.txt") ∧
      (made straySeedPlan {} .everyLibrary .project).edges =
        [(6, 5), (5, 6), (0, 6), (4, 6), (0, 5), (4, 5)] ∧
      (ofDeclarations straySeedPlan {} .everyLibrary).edges = [(0, 6), (4, 6), (0, 5), (4, 5)] ∧
      (made straySeedPlan {} .everyLibrary .project).Consistent ∧
      (ofDeclarations straySeedPlan {} .everyLibrary).Consistent := by
  obtain ⟨hmade, -, hconsistent⟩ :=
    consistent_throughout straySeedPlan {} .everyLibrary .project
  have hdeclared := grows_initial.trans (grows_ofDeclarations straySeedPlan {} .everyLibrary)
  exact ⟨by rfl, by rfl, by rfl, hconsistent _ hmade .refl, hconsistent _ hdeclared assembled_made.grows⟩

end ArtifactGraph

end ModularBuild
