import Mathlib.Data.List.Infix
import ModularBuild.Proofs.Build.Cleaning
import ModularBuild.Proofs.Build.Execution
import ModularBuild.Proofs.Files.Outside

/-!
# What stays in the project

Paths of outputs are put together from the texts of modules and the names declared in them, and
nothing looks at what comes of it. The outputs are confined to the project exactly if for every
declared output the module and the file name lead, without climbing above the root, to something
below it (`confined_iff`). Then an execution changes nothing outside the root that its tools do not
change, and cleaning removes nothing outside. A program that is called like a path which climbs out
of the project is an output outside (`not_confined_escape`).
-/

namespace ModularBuild

open FileSystem

/-! ## Operations that stay below -/

section Operations

variable {h : Host} {base : Location} {fs : FileSystem} {root p : Path}

/-- A program, started on files without links, changes nothing but what lies below a location, and
makes no links. -/
def Host.Stays (h : Host) (base : Location) (i : Invocation) : Prop :=
  ∀ fs, LinkFree fs → StaysBelow base fs (h.spawn i fs).2

theorem preserves_spawn {i : Invocation} (hi : h.Stays base i) :
    Preserves (fun w => StaysBelow base fs w.files) (World.spawn h i) := fun w hw =>
  hw.trans (hi w.files hw.linkFree)

theorem Operation.preserves_onFiles {α : Type} {P : FileSystem → Prop} {task : FileTask α}
    (context : String) (htask : Preserves P task.run) :
    Preserves (fun w => P w.files) (Operation.onFiles context task).run := by
  intro w hw
  have hfiles : P (task.exec w.files).2 := htask w.files hw
  show P (Operation.orFail context (task.exec w.files).1
    { w with files := (task.exec w.files).2 }).2.files
  cases (task.exec w.files).1 <;> exact hfiles

theorem preserves_removeIfExists (hp : p.IsInside) :
    Preserves (fun w => StaysBelow (lexical h.cwd root) fs w.files)
      (Operation.removeIfExists h (root / p)).run :=
  Operation.preserves_onFiles _ fun _ hfs => hfs.trans
    (staysBelow_removeIfExists hfs.linkFree (below_lexical_join h.cwd root hp))

theorem preserves_ensureParent (hroot : Reached fs h.cwd root) (hp : p.IsInside) :
    Preserves (fun w => StaysBelow (lexical h.cwd root) fs w.files)
      (Operation.ensureParent h (root / p)).run := by
  unfold Operation.ensureParent
  cases hdir : FileTask.directoryOf? (root / p) with
  | none => exact preserves_ok _
  | some dir => exact Operation.preserves_onFiles _ (preserves_ensureDirectory hroot hp hdir)

end Operations

/-! ## Actions that stay below -/

namespace BuildSite

variable {site : BuildSite} {h : Host} {base : Location} {fs : FileSystem} {p : Path} {node : Node}

/-- The command that makes the file of a node. -/
def invocation? (site : BuildSite) (node : Node) (p : Path) : Option Invocation :=
  let inRoot (c : Command) : Option Invocation := some { c with cwd := some site.root }
  match node.action with
  | .source | .phony | .generate [] _ => none
  | .compile lang source => inRoot (site.toolchain.compile lang source p)
  | .archive objects => inRoot (site.toolchain.archive objects p)
  | .sharedLink objects => inRoot (site.toolchain.sharedLink objects p)
  | .linkExe lang objects archives => inRoot (site.toolchain.linkExe lang objects archives p)
  | .generate (program :: args) dir =>
    some { (⟨⟨program⟩, args⟩ : Command) with cwd := some (site.locate dir) }

theorem preserves_prepare {I : World → Prop} {artifact : String} {op : Operation Unit}
    (hop : Preserves I op.run) : Preserves I (prepare artifact op).run := by
  intro w hw
  rw [prepare_eq]
  exact hop w hw

theorem preserves_runIn {artifact : String} {c : Command} {dir : Path}
    (hc : h.Stays base { c with cwd := some dir }) :
    Preserves (fun w => StaysBelow base fs w.files) (runIn h artifact c dir).run := by
  refine (preserves_log _ _).lift.bind fun _ _ => ?_
  refine (preserves_spawn hc).lift.bind fun answer _ => ?_
  cases answer with
  | error e => exact preserves_throw _
  | ok output =>
    dsimp only
    split
    · exact preserves_ok _
    · exact preserves_throw _

theorem preserves_act (hroot : Reached fs h.cwd site.root) (hp : p.IsInside)
    (htool : ∀ i, site.invocation? node p = some i → h.Stays (lexical h.cwd site.root) i) :
    Preserves (fun w => StaysBelow (lexical h.cwd site.root) fs w.files)
      (site.act h node p).run := by
  have hparent : Preserves (fun w => StaysBelow (lexical h.cwd site.root) fs w.files)
      (Operation.ensureParent h (site.locate p)).run := preserves_ensureParent hroot hp
  unfold act
  refine (preserves_prepare hparent).bind fun _ _ => ?_
  unfold invocation? at htool
  cases haction : node.action with
  | source | phony => exact preserves_ok _
  | compile lang source | linkExe lang objects archives =>
    rw [haction] at htool
    exact preserves_runIn (htool _ rfl)
  | archive objects | sharedLink objects =>
    rw [haction] at htool
    refine (preserves_prepare (hparent.bind fun _ _ => ?_)).bind fun _ _ => ?_
    · exact (preserves_removeIfExists hp).bind fun _ _ => preserves_ok _
    · exact (preserves_log _ _).lift.bind fun _ _ => preserves_runIn (htool _ rfl)
  | generate command dir =>
    rw [haction] at htool
    cases command with
    | nil => exact preserves_throw _
    | cons program args =>
      refine (preserves_runIn (htool _ rfl)).bind fun _ _ => preserves_get.bind fun now _ => ?_
      split
      · exact preserves_ok _
      · exact preserves_throw _

theorem preserves_perform (hroot : Reached fs h.cwd site.root) (hp : p.IsInside)
    (htool : ∀ i, site.invocation? node p = some i → h.Stays (lexical h.cwd site.root) i) :
    Preserves (fun w => StaysBelow (lexical h.cwd site.root) fs w.files)
      ((site.workbench h).perform node p) := by
  obtain ⟨es, hperform⟩ := exists_perform_eq site h node p
  intro w hw
  rw [hperform]
  exact preserves_act hroot hp htool { w with events := es ++ w.events } hw

theorem preserves_discardOutput (hp : p.IsInside) :
    Preserves (fun w => StaysBelow (lexical h.cwd site.root) fs w.files)
      (site.discardOutput h p) := by
  refine Preserves.andThen (preserves_removeIfExists hp) fun answer => ?_
  cases answer with
  | ok => exact preserves_pure _
  | error e => exact preserves_log _ _

/-- A site can be worked at without anything outside its root being touched: everything on the way to
the root is there, and the tools of all outputs stay below it. -/
structure Fenced (site : BuildSite) (h : Host) (g : ArtifactGraph) (fs : FileSystem) : Prop where
  reached : Reached fs h.cwd site.root
  tools : ∀ n p, g.Output n p → ∀ i, site.invocation? (g.node n) p = some i →
    h.Stays (lexical h.cwd site.root) i

end BuildSite

/-! ## Executing and cleaning -/

/-- Every output leads from the root to something below it. -/
def ArtifactGraph.Confined (g : ArtifactGraph) : Prop := ∀ p ∈ g.outputs, p.IsInside

/-- An execution whose outputs are confined changes nothing outside the root unless its tools do. -/
theorem BuildSite.staysBelow_execute {site : BuildSite} {h : Host} {g : ArtifactGraph} {w : World}
    (hg : g.WellFormed) (hconfined : g.Confined) (hfree : LinkFree w.files)
    (hsite : site.Fenced h g w.files) (target : NodeId) :
    StaysBelow (lexical h.cwd site.root) w.files
      ((site.runner h g).execute g target w).2.files := by
  have hinside : ∀ n p, g.Output n p → p.IsInside := fun n p hn =>
    hconfined p (ArtifactGraph.mem_outputs.mpr ⟨n, hn⟩)
  let I : World → Prop := fun t => StaysBelow (lexical h.cwd site.root) w.files t.files
  have hperform : ∀ n p, g.Output n p → Preserves I ((site.workbench h).perform (g.node n) p) :=
    fun n p hn => preserves_perform hsite.reached (hinside n p hn) (hsite.tools n p hn)
  have hdiscard : ∀ n p, g.Output n p → Preserves I ((site.workbench h).discard p) :=
    fun n p hn => preserves_discardOutput (hinside n p hn)
  have htell : ∀ e, Preserves I (World.tell e) := fun _ _ hw => hw
  rw [BuildSite.runner_eq]
  exact Workbench.preserves_execute hg hperform hdiscard htell _ target w (StaysBelow.refl hfree)

namespace Workspace

variable {ws : Workspace} {g : ArtifactGraph}

theorem staysBelow_clean (hg : ws.graph.2 = .ok g) (hconfined : g.Confined) (h : Host) {w : World}
    (hfree : LinkFree w.files) :
    StaysBelow (lexical h.cwd ws.root) w.files (ws.clean h w).2.files :=
  keeps_clean hg h (fun p hp => preserves_removeIfExists (hconfined p hp)) w (.refl hfree)

/-- **The outputs are confined to the project exactly if every declared one is**: from the root the
text of its module leads to a directory, and from there its file name leads to something below the
root, and neither climbs above the root on the way. Then every output is below the root, wherever
the project lies; where nothing is a link, cleaning changes nothing outside; and neither does an
execution, if everything on the way to the root is there and no tool does. -/
theorem confined_iff (hg : ws.graph.2 = .ok g) :
    (g.Confined ↔ ∀ a ∈ ws.plan.outputArtifacts, ∃ directory,
      Path.normalizeOnto [] (Path.mk a.module.text).components = some directory ∧
        ∃ names, Path.normalizeOnto directory (Path.mk (ws.fileNames.fileName a)).components =
          some names ∧ names ≠ []) ∧
    (g.Confined → ∀ (h : Host),
      (∀ p ∈ g.outputs, Below (lexical h.cwd ws.root) (lexical h.cwd (ws.locate p))) ∧
      ∀ w : World, LinkFree w.files →
        StaysBelow (lexical h.cwd ws.root) w.files (ws.clean h w).2.files ∧
        ∀ site : BuildSite, site.root = ws.root → site.Fenced h g w.files → ∀ target,
          StaysBelow (lexical h.cwd ws.root) w.files
            ((site.runner h g).execute g target w).2.files) := by
  constructor
  · have hdeclared : g.Confined ↔
        ∀ a ∈ ws.plan.outputArtifacts, (ws.fileNames.path a).IsInside := by
      constructor
      · intro hconfined a ha
        exact hconfined _ ((mem_outputs_iff hg).mpr ⟨a, ha, rfl⟩)
      · intro hinside p hp
        obtain ⟨a, ha, rfl⟩ := (mem_outputs_iff hg).mp hp
        exact hinside a ha
    rw [hdeclared]
    exact forall₂_congr fun a _ => Path.isInside_pathInModule_iff
  · intro hconfined h
    refine ⟨fun p hp => below_lexical_join h.cwd ws.root (hconfined p hp), fun w hfree =>
      ⟨staysBelow_clean hg hconfined h hfree, fun site hroot hsite target => ?_⟩⟩
    rw [← hroot]
    have hwell := ArtifactGraph.wellFormed_derive (graph_eq_ok_iff.mp hg)
    exact BuildSite.staysBelow_execute hwell hconfined hfree hsite target

/-- A program in the directory of its module is confined; on a host that runs nothing, neither an
execution nor cleaning changes what lies outside the project. -/
theorem confined_iff_main :
    (oneModule ["main"]).graph.2 = .ok (oneModuleGraph ["main"]) ∧
      (oneModuleGraph ["main"]).Confined ∧
      StaysBelow ["demo"] builtMain.files ((oneModule ["main"]).clean idleHost builtMain).2.files ∧
      ∀ target, StaysBelow ["demo"] builtMain.files
        (((BuildSite.ofConfig ⟨"/demo"⟩ {} none).runner idleHost (oneModuleGraph ["main"])).execute
          (oneModuleGraph ["main"]) target builtMain).2.files := by
  obtain ⟨hiff, hstays⟩ := confined_iff graph_main
  have hconfined : (oneModuleGraph ["main"]).Confined := by
    refine hiff.mpr fun a ha => Path.isInside_pathInModule_iff.mp ?_
    have hinside : ∀ a ∈ (oneModule ["main"]).plan.outputArtifacts,
        ((oneModule ["main"]).fileNames.path a).IsInside := by decide
    exact hinside a ha
  have hlexical : lexical idleHost.cwd (oneModule ["main"]).root = ["demo"] := by rfl
  obtain ⟨-, hworld⟩ := hstays hconfined idleHost
  obtain ⟨hclean, hexecute⟩ := hworld builtMain linkFree_builtMain
  rw [hlexical] at hclean hexecute
  refine ⟨graph_main, hconfined, hclean, fun target => hexecute _ rfl ⟨?_, ?_⟩ target⟩
  · rintro l ⟨names, hnames, rfl⟩
    have hway : ∀ names ∈ (steps ⟨"/demo"⟩).inits,
        (builtMain.files.at? (names.foldl enter [])).isSome ∧
          ¬ Below (lexical [] ⟨"/demo"⟩) (names.foldl enter []) := by decide
    exact hway names ((List.mem_inits _ _).mpr hnames)
  · intro n p _ i _ fs hfree
    exact .refl hfree

/-! ## A program outside its project -/

theorem load_escape :
    (load (oneModuleFiles "units = [\"foo\"]\nprograms = [\"../../escape\"]\n")
      ⟨"/demo/Stratum.toml"⟩ .project).2 = .ok (oneModule ["../../escape"]) :=
  load_eq_ok (by decide +kernel)

theorem constructs_escape :
    (oneModule ["../../escape"]).Constructs (oneModuleGraph ["../../escape"])
      [(11, 10), (0, 10), (2, 10), (10, 9), (9, 8), (6, 7), (6, 5)] 12 :=
  ArtifactGraph.constructs_of_computed (by decide)

theorem graph_escape :
    (oneModule ["../../escape"]).graph.2 = .ok (oneModuleGraph ["../../escape"]) :=
  graph_of_constructs constructs_escape (by cbv)

/-- A project with a program that is called like a path out of the project loads and has a graph;
the program and its object are outputs that have no normal form and lie beside the root. -/
theorem not_confined_escape :
    (load (oneModuleFiles "units = [\"foo\"]\nprograms = [\"../../escape\"]\n")
      ⟨"/demo/Stratum.toml"⟩ .project).2 = .ok (oneModule ["../../escape"]) ∧
      (oneModule ["../../escape"]).graph.2 = .ok (oneModuleGraph ["../../escape"]) ∧
      (∀ name ∈ ["escape", "escape.o"],
        let p : Path := ⟨"A/../../" ++ name⟩
        p ∈ (oneModuleGraph ["../../escape"]).outputs ∧ p.normalizeInside? = none ∧
          lexical [] ((oneModule ["../../escape"]).locate p) = [name] ∧
          ¬ Below (lexical [] (oneModule ["../../escape"]).root) [name]) ∧
      ¬ (oneModuleGraph ["../../escape"]).Confined := by
  have hbeside : ∀ name ∈ ["escape", "escape.o"],
      let p : Path := ⟨"A/../../" ++ name⟩
      p ∈ (oneModuleGraph ["../../escape"]).outputs ∧ p.normalizeInside? = none ∧
        lexical [] ((oneModule ["../../escape"]).locate p) = [name] ∧
        ¬ Below (lexical [] (oneModule ["../../escape"]).root) [name] := by
    have hdeclared : ∀ name ∈ ["escape", "escape.o"],
        let p : Path := ⟨"A/../../" ++ name⟩
        (∃ a ∈ (oneModule ["../../escape"]).plan.outputArtifacts,
          (oneModule ["../../escape"]).fileNames.path a = p) ∧ p.normalizeInside? = none ∧
          lexical [] ((oneModule ["../../escape"]).locate p) = [name] ∧
          ¬ Below (lexical [] (oneModule ["../../escape"]).root) [name] := by decide
    exact fun name hname => (hdeclared name hname).imp_left (mem_outputs_iff graph_escape).mpr
  refine ⟨load_escape, graph_escape, hbeside, fun hconfined => ?_⟩
  obtain ⟨houtput, hnone, -⟩ := hbeside "escape" (by decide)
  have hinside := hconfined _ houtput
  rw [Path.IsInside, hnone] at hinside
  cases hinside

end Workspace

end ModularBuild
