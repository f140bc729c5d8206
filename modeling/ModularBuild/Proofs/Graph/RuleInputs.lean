import ModularBuild.Plan.Registry
import ModularBuild.Proofs.Graph.Edges
import ModularBuild.Proofs.Path.Normalize

/-!
# The inputs of rules

Rule inputs are wired last, and the nodes that are added for them take over no path (`Settles`):
what an input leads to when it is wired, it leads to in the derived graph. So a derived graph has,
reasons apart, exactly the edges that the inputs of rules make (`reason_of_needs`,
`exists_linksInput`).

An input is resolved before it is looked up, and an artifact's path is not before it is entered.
An input therefore leads to the node of an artifact exactly if the artifact's path is its own normal
form and no later node has taken it over (`needs_producer_iff`).
-/

namespace ModularBuild.ArtifactGraph

variable {g g' g'' : ArtifactGraph} {f : FileNames} {plan : Plan} {policy : LinkPolicy}
  {mode : BuildMode} {a b d n : NodeId} {p : Path} {node : Node}

/-! ## Rule inputs -/

/-- A graph grows by nodes that take over no path and carry no artifact. -/
structure Settles (g g' : ArtifactGraph) : Prop where
  grows : Grows g g'
  findPath? : ∀ p n, g.findPath? p = some n → g'.findPath? p = some n
  artifacts : ∀ n a, n < g'.nodes.size → (g'.node n).kind = .artifact a → n < g.nodes.size

theorem Settles.refl : Settles g g := ⟨.refl, fun _ _ h => h, fun _ _ hn _ => hn⟩

theorem Settles.trans (h : Settles g g') (h' : Settles g' g'') : Settles g g'' where
  grows := h.grows.trans h'.grows
  findPath? p n hn := h'.findPath? p n (h.findPath? p n hn)
  artifacts n a hn ha := by
    have hn' := h'.artifacts n a hn ha
    exact h.artifacts n a hn' (h'.grows.node_eq hn' ▸ ha)

theorem Settles.suits (h : Settles g g') (hg : ∀ n < g.nodes.size, (g.node n).Suits f) :
    ∀ n < g'.nodes.size, (g'.node n).Suits f := fun n hn a ha => by
  have hn' := h.artifacts n a hn ha
  rw [h.grows.node_eq hn'] at ha ⊢
  exact hg n hn' a ha

theorem Settles.addEdge (h : Settles g g') (ha : a < g'.nodes.size) (hb : b < g'.nodes.size) :
    Settles g (g'.addEdge a b) where
  grows := h.grows.edge ha hb
  findPath? p n hn := by rw [findPath?_addEdge, h.findPath? p n hn]
  artifacts n x hn hx := by
    rw [nodes_addEdge] at hn
    rw [node_addEdge] at hx
    exact h.artifacts n x hn hx

theorem findPath?_congr {q : Path} (h : p.Same q) : g.findPath? p = g.findPath? q :=
  SortedMap.find?_congr _ (Path.compare_eq_iff_same.mpr h)

theorem findPath?_addNode_of_free (hpath : ∀ q, node.path = some q → g.findPath? q = none)
    (hn : g.findPath? p = some n) : (g.addNode node).1.findPath? p = some n := by
  rw [findPath?_addNode, if_neg]
  · exact hn
  · rintro ⟨q, hq, hsame⟩
    rw [findPath?_congr hsame, hpath q hq] at hn
    cases hn

theorem settles_addNode (hfits : node.Fits) (hkind : ∀ x, node.kind ≠ .artifact x)
    (hpath : ∀ p, node.path = some p → g.findPath? p = none) : Settles g (g.addNode node).1 where
  grows := Grows.refl.node hfits
  findPath? _ _ hn := findPath?_addNode_of_free hpath hn
  artifacts n x hn hx := by
    by_contra hlt
    rw [size_addNode] at hn
    rw [Nat.le_antisymm (Nat.le_of_lt_succ hn) (Nat.le_of_not_lt hlt), node_addNode_self] at hx
    exact hkind x hx

theorem settles_addFile (path : Path) : Settles g (g.addFile path).1 := by
  unfold addFile
  cases hfind : g.findPath? path with
  | some n => exact .refl
  | none =>
    refine settles_addNode ⟨nofun, nofun⟩ nofun fun p hp => ?_
    cases hp
    exact hfind

theorem findPath?_addFile (path : Path) :
    (g.addFile path).1.findPath? path = some (g.addFile path).2 := by
  unfold addFile
  cases hfind : g.findPath? path with
  | some n => exact hfind
  | none => exact (findPath?_addNode path).trans (if_pos ⟨path, rfl, rfl⟩)

theorem needs_addFile (path : Path) : (g.addFile path).1.Needs a b ↔ g.Needs a b := by
  unfold addFile
  split <;> exact Iff.rfl

/-- An input of a file's rule leads from the node at the file's path to the node at its own. -/
def LinksInput (f : FileNames) (g : ArtifactGraph) (input : QualifiedName × String)
    (n d : NodeId) : Prop :=
  ∃ p, inputPath? input.1.module input.2 = some p ∧
    g.findPath? (f.path (.ofName .generated input.1)) = some n ∧ g.findPath? p = some d

theorem LinksInput.settles {input : QualifiedName × String} (h : LinksInput f g input n d)
    (hg : Settles g g') : LinksInput f g' input n d := by
  obtain ⟨p, hp, hn, hd⟩ := h
  exact ⟨p, hp, hg.findPath? _ _ hn, hg.findPath? _ _ hd⟩

/-- A graph grows by the edges that these inputs make, each named with its file. -/
structure Wires (f : FileNames) (inputs : List (QualifiedName × String)) (g g' : ArtifactGraph) :
    Prop where
  settles : Settles g g'
  reasons : ∀ n d, g'.Needs n d → g.Needs n d ∨ ∃ input ∈ inputs, LinksInput f g' input n d
  wired : ∀ input ∈ inputs, ∃ n d, LinksInput f g' input n d ∧ g'.Needs n d

theorem Wires.nil : Wires f [] g g := ⟨.refl, fun _ _ h => .inl h, nofun⟩

theorem Wires.append {inputs inputs' : List (QualifiedName × String)} (h : Wires f inputs g g')
    (h' : Wires f inputs' g' g'') : Wires f (inputs ++ inputs') g g'' where
  settles := h.settles.trans h'.settles
  reasons n d hneeds := by
    rcases h'.reasons n d hneeds with hneeds | ⟨input, hmem, hlinks⟩
    · refine (h.reasons n d hneeds).imp_right fun ⟨input, hmem, hlinks⟩ => ?_
      exact ⟨input, List.mem_append_left _ hmem, hlinks.settles h'.settles⟩
    · exact .inr ⟨input, List.mem_append_right _ hmem, hlinks⟩
  wired input hmem := by
    rcases List.mem_append.mp hmem with hmem | hmem
    · obtain ⟨n, d, hlinks, hneeds⟩ := h.wired input hmem
      exact ⟨n, d, hlinks.settles h'.settles, h'.settles.grows.needs hneeds⟩
    · exact h'.wired input hmem

theorem wires_foldlM {α : Type} {add : ArtifactGraph → α → Except PlanError ArtifactGraph}
    (inputs : α → List (QualifiedName × String)) {l : List α}
    (hadd : ∀ g₁ g₂, Settles g g₁ → ∀ x ∈ l, add g₁ x = .ok g₂ → Wires f (inputs x) g₁ g₂)
    (h : l.foldlM add g = .ok g') : Wires f (l.flatMap inputs) g g' := by
  induction l generalizing g with
  | nil =>
    cases h
    exact .nil
  | cons x l ih =>
    rw [List.foldlM_cons] at h
    cases hx : add g x with
    | error e => rw [hx] at h; cases h
    | ok g₁ =>
      rw [hx] at h
      have hstep := hadd g g₁ .refl x List.mem_cons_self hx
      exact hstep.append (ih (fun g₂ g₃ hg₂ y hy =>
        hadd g₂ g₃ (hstep.settles.trans hg₂) y (List.mem_cons_of_mem _ hy)) h)

theorem wires_addRuleInput (hg : g.WellFormed) {file : QualifiedName} {input : String}
    (hn : g.findPath? (f.path (.ofName .generated file)) = some n)
    (h : addRuleInput file n g input = .ok g') : Wires f [(file, input)] g g' := by
  unfold addRuleInput at h
  cases hpath : inputPath? file.module input with
  | none => rw [hpath] at h; cases h
  | some path =>
    rw [hpath] at h
    cases h
    have hfile := settles_addFile (g := g) path
    have hm := gained_addFile hg path
    have hsettles := hfile.addEdge
      (Nat.lt_of_lt_of_le (hg.byPath _ _ hn).1 hm.grows.size_le) hm.2
    have hlinks : LinksInput f ((g.addFile path).1.addEdge n (g.addFile path).2) (file, input) n
        (g.addFile path).2 :=
      ⟨path, hpath, hsettles.findPath? _ _ hn, by rw [findPath?_addEdge, findPath?_addFile]⟩
    refine ⟨hsettles, fun a b hneeds => ?_, fun i hi => ?_⟩
    · rcases needs_addEdge.mp hneeds with ⟨rfl, rfl⟩ | hneeds
      · exact .inr ⟨_, List.mem_singleton_self _, hlinks⟩
      · exact .inl ((needs_addFile path).mp hneeds)
    · rw [List.mem_singleton.mp hi]
      exact ⟨_, _, hlinks, needs_addEdge.mpr (.inl ⟨rfl, rfl⟩)⟩

/-- The inputs of a file's rule, if it has one. -/
def ruleInputs : QualifiedName × Option GeneratedRule → List (QualifiedName × String)
  | (file, some rule) => rule.inputs.map (file, ·)
  | (_, none) => []

theorem wires_addRuleInputs (hg : g.WellFormed) {entry : QualifiedName × Option GeneratedRule}
    (hfile : (g.findPath? (f.path (.ofName .generated entry.1))).isSome)
    (h : addRuleInputs f g entry = .ok g') : Wires f (ruleInputs entry) g g' := by
  obtain ⟨file, rule⟩ := entry
  obtain ⟨n, hn⟩ := Option.isSome_iff_exists.mp hfile
  unfold addRuleInputs at h
  cases rule with
  | none =>
    cases h
    exact .nil
  | some rule =>
    simp only [hn] at h
    have hwires := wires_foldlM (f := f) (fun input => [(file, input)]) (fun g₁ g₂ hg₁ input _ h =>
      wires_addRuleInput (hg₁.grows.wellFormed hg) (hg₁.findPath? _ _ hn) h) h
    rwa [← List.map_eq_flatMap] at hwires

theorem wires_withInputs (h : withInputs plan f policy = .ok g) :
    Wires f (plan.generated.entries.flatMap ruleInputs) (ofDeclarations plan f policy) g :=
  wires_foldlM ruleInputs (fun g₁ g₂ hg₁ entry hentry h => by
    refine wires_addRuleInputs ((extends_ofDeclarations.grows.trans
      hg₁.grows).wellFormed_of_initial) ?_ h
    exact hg₁.grows.isSome_findPath? (isSome_findPath?_generated hentry)) h

/-! ## Shorthand names -/

theorem settles_addShorthand (name : String) (hn : n < g.nodes.size) :
    Settles g (g.addShorthand name n) := by
  have hnode : Settles g (g.addNode (.phony (.shorthand name))).1 :=
    settles_addNode ⟨fun _ => rfl, fun _ => rfl⟩ nofun nofun
  have hedge := hnode.addEdge (a := g.nodes.size) (b := n)
    (by rw [size_addNode]; exact Nat.lt_succ_self _) (Nat.lt_of_lt_of_le hn hnode.grows.size_le)
  exact ⟨hedge.grows.shorthands _, hedge.findPath?, hedge.artifacts⟩

theorem named_addShorthands (h : (addShorthands f g).result = .ok g') :
    Settles g g' ∧ Extends plan f g g' := by
  obtain ⟨names, hwanted, rfl⟩ := addShorthands_eq_ok h
  have hnames := fun s hs => target_lt_of_mem_wantedShorthands (hwanted s hs)
  clear h hwanted
  induction names generalizing g with
  | nil => exact ⟨.refl, .refl⟩
  | cons s names ih =>
    obtain ⟨hs, hnames⟩ := List.forall_mem_cons.mp hnames
    have hsettles := settles_addShorthand s.name hs
    have hrest := ih fun s' hs' => Nat.lt_of_lt_of_le (hnames s' hs') hsettles.grows.size_le
    exact ⟨hsettles.trans hrest.1, (extends_addShorthand s.name hs).trans hrest.2⟩

/-! ## Derived graphs -/

/-- The rule of a file has this input. -/
def HasInput (plan : Plan) (input : QualifiedName × String) : Prop :=
  ∃ rule, plan.generated.find? input.1 = some (some rule) ∧ input.2 ∈ rule.inputs

theorem mem_flatMap_ruleInputs {input : QualifiedName × String} :
    input ∈ plan.generated.entries.flatMap ruleInputs ↔ HasInput plan input := by
  obtain ⟨file, input⟩ := input
  rw [List.mem_flatMap]
  constructor
  · rintro ⟨⟨file', rule⟩, hentry, hmem⟩
    cases rule with
    | none => cases hmem
    | some rule =>
      obtain ⟨_, hinput, heq⟩ := List.mem_map.mp hmem
      cases heq
      exact ⟨rule, SortedMap.mem_entries_iff.mp hentry, hinput⟩
  · rintro ⟨rule, hfile, hinput⟩
    exact ⟨_, SortedMap.mem_entries_iff.mpr hfile, List.mem_map_of_mem hinput⟩

theorem exists_wires_of_derive (h : (derive plan f policy mode).result = .ok g) :
    ∃ g₀, Wires f (plan.generated.entries.flatMap ruleInputs) (ofDeclarations plan f policy) g₀ ∧
      Settles g₀ g ∧ Extends plan f g₀ g := by
  obtain ⟨g₀, hinputs, hnamed, -⟩ := derive_eq_ok_iff.mp h
  refine ⟨g₀, wires_withInputs hinputs, ?_⟩
  split at hnamed
  · exact named_addShorthands hnamed
  · cases hnamed
    exact ⟨.refl, .refl⟩

/-- A unit is added to the generated files and the units before it, and the derived graph grows out
of what comes of it. -/
theorem exists_addUnit (h : (derive plan f policy mode).result = .ok g)
    {entry : QualifiedName × Bool} (hentry : entry ∈ plan.units.entries) :
    ∃ g₁, Grows (generatedStage plan f) g₁ ∧ Grows (addUnit f g₁ entry) g := by
  obtain ⟨g₀, hwires, hsettles, -⟩ := exists_wires_of_derive h
  obtain ⟨g₁, hstage, hstep⟩ := exists_step_of_mem hentry
    (fun g y _ hg => grows_addUnit hg.wellFormed_of_initial f y) extends_generatedStage.grows
  have hlater : Grows (unitStage plan f) (ofDeclarations plan f policy) :=
    ((extends_objectStage.trans extends_libraryStage).trans extends_programs).grows
  exact ⟨g₁, hstage, hstep.trans (hlater.trans (hwires.settles.trans hsettles).grows)⟩

theorem suits_derive (h : (derive plan f policy mode).result = .ok g) (hn : n < g.nodes.size) :
    (g.node n).Suits f := by
  obtain ⟨g₀, hwires, hsettles, -⟩ := exists_wires_of_derive h
  exact (hwires.settles.trans hsettles).suits (fun _ => suits_ofDeclarations) n hn

/-- Every edge of a derived graph has a reason, or leads from a file to an input of its rule. -/
theorem reason_of_needs (h : (derive plan f policy mode).result = .ok g) (hn : g.Needs n d) :
    Reason plan f g n d ∨ ∃ input, HasInput plan input ∧ LinksInput f g input n d := by
  obtain ⟨g₀, hwires, hsettles, hnames⟩ := exists_wires_of_derive h
  rcases hnames.reasons n d hn with hn | hreason
  · rcases hwires.reasons n d hn with hn | ⟨input, hmem, hlinks⟩
    · rcases extends_ofDeclarations.reasons n d hn with hn | hreason
      · cases hn
      · exact .inl (hreason.grows (hwires.settles.trans hsettles).grows)
    · exact .inr ⟨input, mem_flatMap_ruleInputs.mp hmem, hlinks.settles hsettles⟩
  · exact .inl hreason

/-- Every input of a rule is needed by the node at the path of the rule's file. -/
theorem exists_linksInput (h : (derive plan f policy mode).result = .ok g)
    {input : QualifiedName × String} (hinput : HasInput plan input) :
    ∃ n d, LinksInput f g input n d ∧ g.Needs n d := by
  obtain ⟨g₀, hwires, hsettles, -⟩ := exists_wires_of_derive h
  obtain ⟨n, d, hlinks, hneeds⟩ := hwires.wired input (mem_flatMap_ruleInputs.mpr hinput)
  exact ⟨n, d, hlinks.settles hsettles, hsettles.grows.needs hneeds⟩

/-! ## Inputs and their producers -/

/-- An input of a rule names the file of an artifact of the graph, up to `.` and `..`. -/
structure NamesArtifact (plan : Plan) (f : FileNames) (g : ArtifactGraph)
    (input : QualifiedName × String) (x : Artifact) : Prop where
  hasInput : HasInput plan input
  hasNode : ∃ m < g.nodes.size, (g.node m).kind = .artifact x
  resolves : ∃ p, (input.1.module.pathOf input.2).normalize? = some p ∧
    (f.path x).normalize? = some p

/-- Whenever an input of a rule names an artifact, the rule's file needs a node of the artifact. -/
def InputsReachProducers (plan : Plan) (f : FileNames) (g : ArtifactGraph) : Prop :=
  ∀ input x n, NamesArtifact plan f g input x →
    (g.node n).kind = .artifact (.ofName .generated input.1) →
    ∃ d, g.Needs n d ∧ (g.node d).kind = .artifact x

/-- An artifact's path leads to this node, which is the artifact's. -/
def Leads (f : FileNames) (g : ArtifactGraph) (x : Artifact) (n : NodeId) : Prop :=
  g.findPath? (f.path x) = some n ∧ (g.node n).kind = .artifact x

/-- Where the path of an artifact's node leads, the artifact leads. -/
theorem leads_of_findPath? (h : (derive plan f policy mode).result = .ok g) {x : Artifact}
    (hkind : (g.node n).kind = .artifact x) (hn : g.findPath? p = some n) :
    (f.path x).Same p ∧ Leads f g x n := by
  have hg := wellFormed_derive h
  obtain ⟨hlt, q, hq, hsame⟩ := hg.byPath p n hn
  have hpath := (suits_derive h hlt x hkind).1
  rw [hpath] at hq
  cases hq
  exact ⟨hsame.symm, (findPath?_congr hsame).symm.trans hn, hkind⟩

theorem linksInput_of_generated (h : (derive plan f policy mode).result = .ok g)
    {file : QualifiedName} (hkind : (g.node n).kind = .artifact (.ofName .generated file))
    (hneeds : g.Needs n d) : ∃ input, HasInput plan input ∧ LinksInput f g input n d := by
  have hlt := ((wellFormed_derive h).edgesWithin n d hneeds).1
  rcases reason_of_needs h hneeds with hreason | hinput
  · cases hreason with
    | aggregate x hkind' | shorthand name hkind' => rw [hkind] at hkind'; cases hkind'
    | read p hp =>
      exact absurd rfl ((suits_derive h hlt _ hkind).2 (Action.assembles_of_mem_reads hp))
    | header unit _ hkind' => rw [hkind] at hkind'; cases hkind'
  · exact hinput

theorem normalize?_of_inputPath? {module : ModulePath} {input : String}
    (h : inputPath? module input = some p) : (module.pathOf input).normalize? = some p :=
  (Option.filter_eq_some_iff.mp h).1

/-- The file of a rule needs the artifact that an input names exactly if the artifact's path is its
own normal form, and the paths of both still lead to their nodes. -/
theorem needs_producer_iff (h : (derive plan f policy mode).result = .ok g)
    {input : QualifiedName × String} {x : Artifact} (hnames : NamesArtifact plan f g input x)
    (hkind : (g.node n).kind = .artifact (.ofName .generated input.1)) :
    (∃ d, g.Needs n d ∧ (g.node d).kind = .artifact x) ↔
      (f.path x).IsNormal ∧ Leads f g (.ofName .generated input.1) n ∧ ∃ d, Leads f g x d := by
  constructor
  · rintro ⟨d, hneeds, hd⟩
    obtain ⟨⟨file, text⟩, -, p, hp, hn, hpd⟩ := linksInput_of_generated h hkind hneeds
    obtain ⟨hsame, hleads⟩ := leads_of_findPath? h hd hpd
    refine ⟨?_, (leads_of_findPath? h hkind hn).2, d, hleads⟩
    have hnormal := Path.normalize?_idempotent (normalize?_of_inputPath? hp)
    exact ⟨p, hsame.normalize?_eq.trans hnormal, hsame⟩
  · rintro ⟨⟨p, hp, hsame⟩, hleads, d, hd⟩
    obtain ⟨n', d', ⟨q, hq, hn', hd'⟩, hneeds⟩ := exists_linksInput h hnames.hasInput
    obtain ⟨r, hr, hxr⟩ := hnames.resolves
    -- The normal form of the input is that of the artifact's path, and so the path itself.
    have hqr := (normalize?_of_inputPath? hq).symm.trans hr
    have hpr := hp.symm.trans hxr
    cases hqr
    cases hpr
    cases hleads.1.symm.trans hn'
    rw [← findPath?_congr hsame] at hd'
    cases hd.1.symm.trans hd'
    exact ⟨d, hneeds, hd.2⟩

/-- **Rule inputs reach their producers exactly where artifacts are declared in normal form**, as
far as no later node has taken over the path of one of them. -/
theorem inputsReachProducers_iff (h : (derive plan f policy mode).result = .ok g) :
    InputsReachProducers plan f g ↔ ∀ input x n, NamesArtifact plan f g input x →
      (g.node n).kind = .artifact (.ofName .generated input.1) →
      (f.path x).IsNormal ∧ Leads f g (.ofName .generated input.1) n ∧ ∃ d, Leads f g x d := by
  constructor
  · exact fun hall input x n hnames hkind =>
      (needs_producer_iff h hnames hkind).mp (hall input x n hnames hkind)
  · exact fun hall input x n hnames hkind =>
      (needs_producer_iff h hnames hkind).mpr (hall input x n hnames hkind)

/-- The nodes that carry an artifact, with their artifacts. -/
def artifacts (g : ArtifactGraph) : List (NodeId × Artifact) :=
  g.ids.filterMap fun n =>
    match (g.node n).kind with
    | .artifact x => some (n, x)
    | _ => none

theorem mem_artifacts {x : Artifact} :
    (n, x) ∈ g.artifacts ↔ n < g.nodes.size ∧ (g.node n).kind = .artifact x := by
  rw [artifacts, List.mem_filterMap]
  constructor
  · rintro ⟨m, hm, hx⟩
    split at hx
    · cases hx
      exact ⟨mem_ids.mp hm, ‹_›⟩
    · cases hx
  · rintro ⟨hn, hx⟩
    exact ⟨n, mem_ids.mpr hn, by rw [hx]⟩

/-- The second stage is made from the first. -/
theorem inputsReachProducers_twoStages :
    NamesArtifact twoStagesPlan {} twoStages (⟨⟨"gen"⟩, "b.txt"⟩, "a.txt")
        ⟨.generated, ⟨"gen"⟩, "a.txt"⟩ ∧
      InputsReachProducers twoStagesPlan {} twoStages := by
  have hinputs : twoStagesPlan.generated.entries.flatMap ruleInputs =
      [(⟨⟨"gen"⟩, "a.txt"⟩, "seed.txt"), (⟨⟨"gen"⟩, "b.txt"⟩, "a.txt")] := by rfl
  have hartifacts : twoStages.artifacts =
      [(5, ⟨.generated, ⟨"gen"⟩, "a.txt"⟩), (6, ⟨.generated, ⟨"gen"⟩, "b.txt"⟩)] := by
    rfl
  have hfirst : (5, ⟨.generated, ⟨"gen"⟩, "a.txt"⟩) ∈ twoStages.artifacts := by simp [hartifacts]
  have hsecond : (6, ⟨.generated, ⟨"gen"⟩, "b.txt"⟩) ∈ twoStages.artifacts := by simp [hartifacts]
  have hpaths : twoStages.findPath? ⟨"gen/a.txt"⟩ = some 5 ∧
      twoStages.findPath? ⟨"gen/b.txt"⟩ = some 6 := by decide
  refine ⟨⟨mem_flatMap_ruleInputs.mp (by simp [hinputs]), ⟨5, mem_artifacts.mp hfirst⟩,
    ⟨"gen/a.txt"⟩, by rfl, by rfl⟩, ?_⟩
  refine (inputsReachProducers_iff derive_twoStages).mpr fun input x n hnames hkind => ?_
  obtain ⟨hinput, ⟨m, hx⟩, p, hp, hxp⟩ := hnames
  have hp := hp.trans hxp.symm
  have hinput := mem_flatMap_ruleInputs.mpr hinput
  have hm := mem_artifacts.mpr hx
  have hlt : n < twoStages.nodes.size :=
    lt_size_of_ne_default fun hdefault => by rw [hdefault] at hkind; cases hkind
  have hn := mem_artifacts.mpr ⟨hlt, hkind⟩
  rw [hinputs, List.mem_pair] at hinput
  rw [hartifacts, List.mem_pair] at hm hn
  -- Of the two inputs only the second names an artifact, and only the first file is meant.
  rcases hinput with rfl | rfl <;> rcases hm with hm | hm <;> cases hm
  · exact absurd hp (by decide +kernel)
  · exact absurd hp (by decide)
  · obtain rfl : n = 6 := by simpa [Artifact.ofName] using hn
    exact ⟨⟨⟨"gen/a.txt"⟩, by rfl, rfl⟩, ⟨hpaths.2, hkind⟩, 5, hpaths.1, hx.2⟩
  · exact absurd hp (by decide +kernel)

/-! ## A name that is not in normal form -/

/-- A generated file is declared with a leading `./`, and a rule reads it by the same name. -/
def dottedPlan : Plan where
  project := "demo"
  modules := SortedMap.insert ∅ ⟨"."⟩ ()
  generated := (SortedMap.insert ∅ ⟨⟨"."⟩, "./a.txt"⟩ (some ⟨["make-a"], []⟩)).insert
    ⟨⟨"."⟩, "b.txt"⟩ (some ⟨["make-b"], ["./a.txt"]⟩)

def dotted : ArtifactGraph := (withInputs dottedPlan {} .everyLibrary).toOption.getD {}

theorem constructs_dotted :
    Constructs dottedPlan {} .everyLibrary (.standalone ⟨"."⟩) dotted
      [(6, 7), (0, 6), (4, 6), (0, 5), (4, 5)] 8 :=
  ⟨constructed_of_withInputs (eq_ok_of_isSome (by decide)) rfl, by rfl, by rfl⟩

theorem derive_dotted :
    (derive dottedPlan {} .everyLibrary (.standalone ⟨"."⟩)).result = .ok dotted :=
  constructs_dotted.derive (by cbv)

/-- The rule that reads the file needs a file of its own in its place. -/
theorem not_inputsReachProducers_dotted :
    ((Registry.empty "demo").run [(⟨"."⟩, .beginModule),
        (⟨"."⟩, .declareRule "./a.txt" ⟨["make-a"], []⟩),
        (⟨"."⟩, .declareRule "b.txt" ⟨["make-b"], ["./a.txt"]⟩),
        (⟨"."⟩, .endModule)]).1.finalize ((BuildMode.standalone ⟨"."⟩).naming "demo") =
          .ok dottedPlan ∧
      (derive dottedPlan {} .everyLibrary (.standalone ⟨"."⟩)).result = .ok dotted ∧
      ¬ InputsReachProducers dottedPlan {} dotted := by
  refine ⟨by rfl, derive_dotted, fun hall => ?_⟩
  have hkinds : (dotted.node 5).kind = .artifact ⟨.generated, ⟨"."⟩, "./a.txt"⟩ ∧
      (dotted.node 6).kind = .artifact ⟨.generated, ⟨"."⟩, "b.txt"⟩ ∧
      (dotted.node 7).kind = .file ⟨"a.txt"⟩ := by decide
  have hnames : NamesArtifact dottedPlan {} dotted (⟨⟨"."⟩, "b.txt"⟩, "./a.txt")
      ⟨.generated, ⟨"."⟩, "./a.txt"⟩ :=
    ⟨⟨_, rfl, List.mem_singleton_self _⟩, ⟨5, by decide, hkinds.1⟩, ⟨"a.txt"⟩,
      by rfl, by rfl⟩
  obtain ⟨d, hneeds, hd⟩ := hall _ _ 6 hnames hkinds.2.1
  have hneeds := mem_dependencies.mp hneeds
  rw [constructs_dotted.edges] at hneeds
  obtain rfl : d = 7 := by simpa using hneeds
  rw [hkinds.2.2] at hd
  cases hd

end ModularBuild.ArtifactGraph
