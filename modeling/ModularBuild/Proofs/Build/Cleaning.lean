import ModularBuild.Build.Target
import ModularBuild.Package
import ModularBuild.Proofs.Build.Node
import ModularBuild.Proofs.Files.Removal
import ModularBuild.Proofs.Graph.Cycles
import ModularBuild.Proofs.Graph.Producers
import ModularBuild.Proofs.Loading
import ModularBuild.Proofs.Preservation

/-!
# What cleaning removes

Cleaning removes what the paths of outputs name, and a failed action's leftover is such a path's,
too. Nothing keeps the outputs apart from the files that are written by hand: they are exactly if no
declared output has the path of one (`sparesHandwritten_iff`), and a project whose program is called
like a source of its module loses the source.
-/

namespace ModularBuild

/-! ## Operations that keep a property of the files -/

theorem preserves_log {P : FileSystem → Prop} (level : LogLevel) (message : String) :
    Preserves (fun w => P w.files) (World.log level message) := fun _ hw => hw

namespace Operation

variable {α β : Type} {P : FileSystem → Prop}

/-- What an operation finds true of the files it leaves true. -/
def Keeps (P : FileSystem → Prop) (op : Operation α) : Prop :=
  ∀ w : World, P w.files → P (op w).2.files

theorem keeps_pure (a : α) : Keeps P (pure a : Operation α) := preserves_ok a

theorem Keeps.bind {op : Operation α} {k : α → Operation β} (h : Keeps P op)
    (hk : ∀ a, (∃ w, (op w).1 = .ok a) → Keeps P (k a)) : Keeps P (op >>= k) :=
  Preserves.bind (I := fun w : World => P w.files) h hk

theorem keeps_log (level : LogLevel) (message : String) :
    Keeps P (World.log level message : Operation Unit) :=
  (preserves_log level message).lift

theorem keeps_filterM {f : α → Operation Bool} {l : List α} (hf : ∀ a ∈ l, Keeps P (f a)) :
    Keeps P (l.filterM f) := by
  have haux : ∀ kept, Keeps P (l.filterAuxM f kept) := by
    induction l with
    | nil => exact fun kept => keeps_pure kept
    | cons a l ih =>
      obtain ⟨ha, hl⟩ := List.forall_mem_cons.mp hf
      exact fun kept => ha.bind fun _ _ => ih hl _
  exact (haux []).bind fun _ _ => keeps_pure _

theorem run_onFiles_eq (context : String) (task : FileTask α) (w : World) :
    (onFiles context task).run w = match task.exec w.files with
      | (.ok a, files) => (.ok a, { w with files })
      | (.error e, files) => (.error (.ofFile context e), { w with files }) := by
  show orFail context (task.exec w.files).1 { w with files := (task.exec w.files).2 } = _
  rcases task.exec w.files with ⟨e | a, files⟩ <;> rfl

theorem files_of_onFiles {context : String} {task : FileTask α} {a : α} {w w' : World}
    (hrun : (onFiles context task).run w = (.ok a, w')) :
    task.exec w.files = (.ok a, w'.files) := by
  rw [run_onFiles_eq] at hrun
  rcases htask : task.exec w.files with ⟨e | b, files⟩
  · rw [htask] at hrun
    cases hrun
  · rw [htask] at hrun
    cases hrun
    rfl

theorem files_removeIfExists (h : Host) (p : Path) (w : World) :
    (removeIfExists h p w).2.files = ((FileTask.removeIfExists h.cwd p).exec w.files).2 := by
  show (ExceptT.bindCont (orFail s!"failed to remove file: {p.text}")
    (.ok ((FileTask.removeIfExists h.cwd p).exec w.files).1)
      { w with files := ((FileTask.removeIfExists h.cwd p).exec w.files).2 }).2.files = _
  cases ((FileTask.removeIfExists h.cwd p).exec w.files).1 <;> rfl

end Operation

/-! ## Cleaning -/

namespace Workspace

open FileSystem

variable {ws : Workspace} {g : ArtifactGraph}

theorem graph_eq_ok_iff : ws.graph.2 = .ok g ↔
    (ArtifactGraph.derive ws.plan ws.fileNames .everyLibrary ws.mode).result = .ok g := by
  unfold graph
  dsimp only
  split
  · rename_i h
    rw [h]
    exact ⟨nofun, nofun⟩
  · rename_i h
    rw [h]
    exact ⟨fun heq => by cases heq; rfl, fun heq => by cases heq; rfl⟩

theorem tellAll_eq (es : List Event) (w : World) :
    World.tellAll es w = ((), { w with events := es.reverse ++ w.events }) := by
  induction es generalizing w with
  | nil => rfl
  | cons e es ih =>
    refine (ih (World.tell e w).2).trans ?_
    rw [List.reverse_cons, List.append_assoc]
    rfl

/-- Telling and going on with a result changes nothing but what was told. -/
theorem run_telling {α : Type} (r : List Event × Except Failure α) (w : World) :
    (telling r).run w = (r.2, { w with events := r.1.reverse ++ w.events }) := by
  obtain ⟨es, result⟩ := r
  have htold : (liftM (World.tellAll es) : Operation Unit).run w =
      (.ok (), { w with events := es.reverse ++ w.events }) :=
    Prod.ext rfl (show (World.tellAll es w).2 = _ by rw [tellAll_eq])
  unfold telling
  rw [run_bind_of_ok htold]
  cases result <;> rfl

theorem keeps_clean (hg : ws.graph.2 = .ok g) (h : Host) {P : FileSystem → Prop}
    (hremove : ∀ p ∈ g.outputs, Operation.Keeps P (Operation.removeIfExists h (ws.locate p))) :
    Operation.Keeps P (ws.clean h) := by
  unfold clean
  refine Operation.Keeps.bind (fun w' hw' => ?_) fun g' hg' => ?_
  · rw [deriveGraph, show telling ws.graph w' = _ from run_telling ws.graph w']
    exact hw'
  · obtain ⟨w', hg'⟩ := hg'
    rw [deriveGraph, show telling ws.graph w' = _ from run_telling ws.graph w', hg] at hg'
    cases hg'
    refine (Operation.keeps_filterM fun p hp => ?_).bind fun removed _ => ?_
    · refine (hremove p hp).bind fun wasThere _ => ?_
      cases wasThere with
      | true => exact (Operation.keeps_log _ _).bind fun _ _ => Operation.keeps_pure _
      | false => exact Operation.keeps_pure _
    · exact (Operation.keeps_log _ _).bind fun _ _ => Operation.keeps_pure _

/-- Cleaning takes out nothing but what the paths of outputs name. -/
theorem thinned_clean (hg : ws.graph.2 = .ok g) (h : Host) (w : World)
    (hs : Standing w.files h.cwd) :
    Thinned (fun l => ∃ p ∈ g.outputs, Names w.files h.cwd (ws.locate p) l) w.files
      (ws.clean h w).2.files := by
  let P : FileSystem → Prop := Thinned
    (fun l => ∃ p ∈ g.outputs, Names w.files h.cwd (ws.locate p) l) w.files
  refine keeps_clean hg h (P := P) (fun p hp w' hw' => ?_) w .refl
  rw [Operation.files_removeIfExists]
  exact hw'.removeIfExists hs fun l hl => ⟨p, hp, hl⟩

/-- Where no entry is a link, cleaning keeps whatever no path of an output leads to. -/
theorem at?_clean (hg : ws.graph.2 = .ok g) (h : Host) (w : World) (hs : Standing w.files h.cwd)
    (hfree : LinkFree w.files) {l : Location} {e : FileEntry} (he : w.files.at? l = some e)
    (hother : ∀ p ∈ g.outputs, lexical h.cwd (ws.locate p) ≠ l) :
    ∃ t, (ws.clean h w).2.files.at? l = some { e with modified := t } := by
  refine ((thinned_clean hg h w hs).mono fun k hk => ?_).at?_of_lexical hfree he
    (List.forall_mem_map.mpr hother)
  obtain ⟨p, hp, hnamed⟩ := hk
  exact ⟨_, List.mem_map_of_mem hp, hnamed⟩

end Workspace

/-! ## What a failed action leaves -/

namespace BuildSite

open FileSystem

/-- Whether the removal fails or not, discarding leaves the files as it does. -/
theorem files_discardOutput (site : BuildSite) (h : Host) (p : Path) (w : World) :
    (site.discardOutput h p w).2.files =
      (Operation.removeIfExists h (site.locate p) w).2.files := by
  unfold discardOutput
  simp only [bind, StateT.bind, ExceptT.run]
  generalize Operation.removeIfExists h (site.locate p) w = r
  obtain ⟨_ | _, w'⟩ := r <;> rfl

theorem thinned_discardOutput (site : BuildSite) (h : Host) (p : Path) (w : World) :
    Thinned (Names w.files h.cwd (site.locate p)) w.files
      (site.discardOutput h p w).2.files := by
  rw [files_discardOutput, Operation.files_removeIfExists]
  exact thinned_removeIfExists w.files h.cwd (site.locate p)

end BuildSite

namespace ArtifactGraph

variable {g : ArtifactGraph} {n : NodeId} {p : Path}

theorem mem_outputs : p ∈ g.outputs ↔ ∃ n, g.Output n p := by
  rw [outputs, List.mem_mergeSort, List.mem_filterMap]
  constructor
  · rintro ⟨node, hnode, hpath⟩
    obtain ⟨hmem, hproduces⟩ := List.mem_filter.mp hnode
    obtain ⟨n, hn, rfl⟩ := List.getElem_of_mem hmem
    have hn' : n < g.nodes.size := by simpa using hn
    refine ⟨n, ?_, ?_⟩
    · simpa [ArtifactGraph.node, hn'] using (Bool.and_eq_true_iff.mp hproduces).1
    · simpa [ArtifactGraph.node, hn'] using hpath
  · rintro ⟨n, hn⟩
    exact ⟨g.node n, mem_producers_of_output hn, hn.2⟩

/-- A node that fails has lost nothing, being a source that is missing, or it discards its own
output after its action. -/
theorem discards_of_runNodeSeeing {σ : Type} (b : Workbench σ) (hg : g.WellFormed)
    {built : List NodeId} {seen s : σ} {e : BuildError}
    (h : (b.runNodeSeeing g n built seen s).1 = .error e) :
    (b.runNodeSeeing g n built seen s).2 = s ∨ ∃ p ∈ g.outputs, ∃ s',
      b.perform (g.node n) p s = (.error e, s') ∧
        (b.runNodeSeeing g n built seen s).2 = (b.discard p s').2 := by
  have hruns := b.runsTo g n built seen s
  generalize b.runNodeSeeing g n built seen s = r at *
  obtain ⟨result, s'⟩ := r
  cases h
  cases hruns with
  | missing => exact .inl rfl
  | broken hpath hsource _ hperform =>
    refine .inr ⟨_, mem_outputs.mpr ⟨n, ?_, hpath⟩, _, hperform, rfl⟩
    exact hg.producesOutput_of_path (lt_size_of_path hpath) hpath hsource

end ArtifactGraph

/-! ## Files that are written by hand -/

namespace Workspace

open FileSystem

variable {ws : Workspace} {g : ArtifactGraph} {p : Path}

/-- The declared sources and headers that no rule generates, and the manifests. -/
def handwritten (ws : Workspace) : List Path :=
  (ws.headerPaths ++ ws.plan.units.entries.flatMap ws.unitPaths ++ ws.otherSourcePaths).filter
      (fun p => !(ws.generatedPaths true).any fun q => p.Same q)
    ++ ws.controlFiles

/-- No output has the path of a file that is written by hand. -/
def SparesHandwritten (ws : Workspace) (g : ArtifactGraph) : Prop :=
  ∀ p ∈ g.outputs, ∀ q ∈ ws.handwritten, ¬ p.Same q

theorem mem_outputs_iff (hg : ws.graph.2 = .ok g) :
    p ∈ g.outputs ↔ ∃ a ∈ ws.plan.outputArtifacts, ws.fileNames.path a = p := by
  have hmakes := ArtifactGraph.makes_derive (graph_eq_ok_iff.mp hg)
  rw [ArtifactGraph.mem_outputs]
  constructor
  · rintro ⟨n, hn⟩
    obtain ⟨a, ha, -, rfl⟩ := hmakes.exists_artifact hn
    exact ⟨a, ha, rfl⟩
  · rintro ⟨a, ha, rfl⟩
    obtain ⟨n, -, hn⟩ := hmakes.exists_node ha
    exact ⟨n, hn⟩

/-- **Outputs spare what is written by hand exactly if no declared output has the path of such a
file.** Cleaning takes out nothing but what the paths of outputs name; where no entry is a link, it
keeps whatever none of these paths leads to. A node that fails takes out nothing but what its own
path names, once its action is over. -/
theorem sparesHandwritten_iff (hg : ws.graph.2 = .ok g) :
    (SparesHandwritten ws g ↔ ∀ a ∈ ws.plan.outputArtifacts, ∀ q ∈ ws.handwritten,
        ¬ (ws.fileNames.path a).Same q) ∧
      (∀ (h : Host) (w : World), Standing w.files h.cwd →
        Thinned (fun l => ∃ p ∈ g.outputs, Names w.files h.cwd (ws.locate p) l) w.files
            (ws.clean h w).2.files ∧
          (LinkFree w.files → ∀ l e, w.files.at? l = some e →
            (∀ p ∈ g.outputs, lexical h.cwd (ws.locate p) ≠ l) →
            ∃ t, (ws.clean h w).2.files.at? l = some { e with modified := t })) ∧
      ∀ (site : BuildSite) (h : Host) (n : NodeId) (built : List NodeId) (seen w : World)
        (e : BuildError), ((site.workbench h).runNodeSeeing g n built seen w).1 = .error e →
        ((site.workbench h).runNodeSeeing g n built seen w).2 = w ∨
          ∃ p ∈ g.outputs, ∃ w', (site.workbench h).perform (g.node n) p w = (.error e, w') ∧
            (Standing w'.files h.cwd → Thinned (Names w'.files h.cwd (site.locate p)) w'.files
              ((site.workbench h).runNodeSeeing g n built seen w).2.files) := by
  refine ⟨⟨fun hspares a ha => ?_, fun happart p hp => ?_⟩, fun h w hs => ⟨thinned_clean hg h w hs,
    fun hfree l e he hother => at?_clean hg h w hs hfree he hother⟩,
    fun site h n built seen w e he => ?_⟩
  · exact hspares _ ((mem_outputs_iff hg).mpr ⟨a, ha, rfl⟩)
  · obtain ⟨a, ha, rfl⟩ := (mem_outputs_iff hg).mp hp
    exact happart a ha
  · have hwell := ArtifactGraph.wellFormed_derive (graph_eq_ok_iff.mp hg)
    refine (ArtifactGraph.discards_of_runNodeSeeing _ hwell he).imp_right ?_
    rintro ⟨p, hp, w', hperform, hend⟩
    refine ⟨p, hp, w', hperform, fun _ => ?_⟩
    rw [hend]
    exact site.thinned_discardOutput h p w'

/-! ## A module with a unit and programs -/

/-- A project of one module, with a unit that has a header, and programs. -/
def oneModule (programs : List String) : Workspace where
  root := ⟨"/demo"⟩
  manifest := { name := "demo", modules := ["A"] }
  mode := .project
  plan :=
    { project := "demo"
      modules := SortedMap.insert ∅ ⟨"A"⟩ ()
      units := SortedMap.insert ∅ ⟨⟨"A"⟩, "foo"⟩ true
      programs := SortedSet.ofList (programs.map (⟨⟨"A"⟩, ·⟩)) }
  controlFiles := [⟨"A/module.toml"⟩, ⟨"Stratum.toml"⟩]

/-- The manifests of the project, the module's with the text it is given. -/
def oneModuleFiles (module : String) : Reader := fun p =>
  if p = ⟨"/demo/Stratum.toml"⟩ then .ok "[project]\nname = \"demo\"\nmodules = [\"A\"]\n"
  else if p = ⟨"/demo/A/module.toml"⟩ then .ok module
  else .error .noEntry

/-- The graph of a project of one module. -/
def oneModuleGraph (programs : List String) : ArtifactGraph :=
  let ws := oneModule programs
  (ArtifactGraph.constructed ws.plan ws.fileNames .everyLibrary ws.mode).toOption.getD {}

/-- The graph of a workspace, told by its edges and the number of its nodes. -/
abbrev Constructs (ws : Workspace) (g : ArtifactGraph) (es : List (NodeId × NodeId)) (size : Nat) :
    Prop :=
  ArtifactGraph.Constructs ws.plan ws.fileNames .everyLibrary ws.mode g es size

theorem graph_of_constructs {g : ArtifactGraph} {es : List (NodeId × NodeId)} {size : Nat}
    (h : ws.Constructs g es size)
    (hsort : (Toposort.order (ArtifactGraph.successors es) (ArtifactGraph.predecessors es)
      (List.range size)).toOption.isSome) : ws.graph.2 = .ok g :=
  graph_eq_ok_iff.mpr (h.derive hsort)

theorem load_main :
    (load (oneModuleFiles "units = [\"foo\"]\nprograms = [\"main\"]\n")
      ⟨"/demo/Stratum.toml"⟩ .project).2 = .ok (oneModule ["main"]) :=
  load_eq_ok (by decide +kernel)

theorem constructs_main : (oneModule ["main"]).Constructs (oneModuleGraph ["main"])
    [(11, 10), (0, 10), (2, 10), (10, 9), (9, 8), (6, 7), (6, 5)] 12 :=
  ArtifactGraph.constructs_of_computed (by decide)

theorem graph_main : (oneModule ["main"]).graph.2 = .ok (oneModuleGraph ["main"]) :=
  graph_of_constructs constructs_main (by cbv)

/-- A host on which no program can be run. -/
def idleHost : Host := ⟨[], ∅, fun _ files => (.error .noEntry, files)⟩

/-- A source, the program and its object on disk. -/
def builtMain : World :=
  let directory : FileEntry := ⟨.directory, directoryMode, 1, true, none⟩
  let file : FileEntry := ⟨.file [], fileMode, 1, true, none⟩
  { files :=
      { entries := ((((SortedMap.insert ∅ ["demo"] directory).insert ["demo", "A"] directory).insert
          ["demo", "A", "foo.cpp"] file).insert ["demo", "A", "main"] file).insert
          ["demo", "A", "main.o"] file } }

theorem linkFree_builtMain : LinkFree builtMain.files := linkFree_of_entries (by decide)

/-- The outputs of a program that is called like nothing else spare what is written by hand, and
cleaning leaves the source of the unit. -/
theorem sparesHandwritten_main :
    (load (oneModuleFiles "units = [\"foo\"]\nprograms = [\"main\"]\n")
      ⟨"/demo/Stratum.toml"⟩ .project).2 = .ok (oneModule ["main"]) ∧
      (oneModule ["main"]).graph.2 = .ok (oneModuleGraph ["main"]) ∧
      SparesHandwritten (oneModule ["main"]) (oneModuleGraph ["main"]) ∧
      ∃ t, ((oneModule ["main"]).clean idleHost builtMain).2.files.at? ["demo", "A", "foo.cpp"] =
        some ⟨.file [], fileMode, t, true, none⟩ := by
  obtain ⟨hiff, hclean, -⟩ := sparesHandwritten_iff graph_main
  refine ⟨load_main, graph_main, hiff.mpr (by decide), ?_⟩
  have hat : builtMain.files.at? ["demo", "A", "foo.cpp"] =
      some ⟨.file [], fileMode, 1, true, none⟩ := by rfl
  refine (hclean idleHost builtMain standing_nil).2 linkFree_builtMain _ _ hat fun p hp => ?_
  obtain ⟨a, ha, rfl⟩ := (mem_outputs_iff graph_main).mp hp
  have hother : ∀ a ∈ (oneModule ["main"]).plan.outputArtifacts,
      lexical [] ((oneModule ["main"]).locate ((oneModule ["main"]).fileNames.path a)) ≠
        ["demo", "A", "foo.cpp"] := by decide
  exact hother a ha

/-! ## Programs that are called like files of their module -/

theorem load_shadowing :
    (load (oneModuleFiles "units = [\"foo\"]\nprograms = [\"foo.cpp\", \"module.toml\"]\n")
      ⟨"/demo/Stratum.toml"⟩ .project).2 = .ok (oneModule ["foo.cpp", "module.toml"]) :=
  load_eq_ok (by decide +kernel)

theorem constructs_shadowing :
    (oneModule ["foo.cpp", "module.toml"]).Constructs (oneModuleGraph ["foo.cpp", "module.toml"])
      [(15, 13), (14, 10), (0, 13), (2, 13), (13, 12), (12, 11), (0, 10), (2, 10), (10, 9), (9, 8),
        (6, 7), (6, 5)] 16 := ArtifactGraph.constructs_of_computed (by decide)

theorem graph_shadowing : (oneModule ["foo.cpp", "module.toml"]).graph.2 =
    .ok (oneModuleGraph ["foo.cpp", "module.toml"]) :=
  graph_of_constructs constructs_shadowing (by cbv)

/-- A project whose programs are called like a source of their module and like its manifest loads
and has a graph; both files are outputs. -/
theorem not_sparesHandwritten_shadowing :
    (load (oneModuleFiles "units = [\"foo\"]\nprograms = [\"foo.cpp\", \"module.toml\"]\n")
      ⟨"/demo/Stratum.toml"⟩ .project).2 = .ok (oneModule ["foo.cpp", "module.toml"]) ∧
      (oneModule ["foo.cpp", "module.toml"]).graph.2 =
        .ok (oneModuleGraph ["foo.cpp", "module.toml"]) ∧
      (∀ p ∈ [(⟨"A/foo.cpp"⟩ : Path), ⟨"A/module.toml"⟩],
        p ∈ (oneModuleGraph ["foo.cpp", "module.toml"]).outputs ∧
          p ∈ (oneModule ["foo.cpp", "module.toml"]).handwritten) ∧
      ¬ SparesHandwritten (oneModule ["foo.cpp", "module.toml"])
        (oneModuleGraph ["foo.cpp", "module.toml"]) := by
  have hboth : ∀ p ∈ [(⟨"A/foo.cpp"⟩ : Path), ⟨"A/module.toml"⟩],
      p ∈ (oneModuleGraph ["foo.cpp", "module.toml"]).outputs ∧
        p ∈ (oneModule ["foo.cpp", "module.toml"]).handwritten := by
    have hdeclared : ∀ p ∈ [(⟨"A/foo.cpp"⟩ : Path), ⟨"A/module.toml"⟩],
        (∃ a ∈ (oneModule ["foo.cpp", "module.toml"]).plan.outputArtifacts,
          (oneModule ["foo.cpp", "module.toml"]).fileNames.path a = p) ∧
        p ∈ (oneModule ["foo.cpp", "module.toml"]).handwritten := by decide +kernel
    exact fun p hp => (hdeclared p hp).imp_left (mem_outputs_iff graph_shadowing).mpr
  refine ⟨load_shadowing, graph_shadowing, hboth, fun hspares => ?_⟩
  obtain ⟨houtput, hhandwritten⟩ := hboth ⟨"A/foo.cpp"⟩ (by decide)
  exact hspares _ houtput _ hhandwritten rfl

end Workspace

end ModularBuild
