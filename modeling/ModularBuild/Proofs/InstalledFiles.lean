import ModularBuild.Proofs.Build.CommandLines
import ModularBuild.Proofs.Installing
import ModularBuild.Proofs.ProjectLoading

/-!
# What is installed is what is built

An installation picks its files from the plan, and what it builds before from the graph. Both come
to the same files: `programs` needs the executables that are installed, and among what `libraries`
needs are the archives that are installed and no others (`InstallsBuilt`). Archives go to one
directory, where each has a name of its own: two of a whole project would ask for one shorthand
name, which refuses the graph, and a module that is built on its own has one library at most
(`nodup_archiveNames`).
-/

namespace ModularBuild

/-! ## File names -/

/-- The file of an artifact is called by the artifact's base name, whatever directory the path is
taken from, if its last letter is neither a slash nor a dot. -/
theorem FileNames.fileName?_join_path {f : FileNames} {a : Artifact} {c : Char} (base : Path)
    (hlast : (f.fileName a).toList.getLast? = some c) (hslash : c ≠ '/') (hdot : c ≠ '.') :
    (base / f.path a).fileName? = some (f.baseName a) := by
  have hpath : (pieces '/' (base / f.path a).text.toList).getLast? =
      (pieces '/' (f.fileName a).toList).getLast? := by
    rw [Path.getLast?_pieces_join, FileNames.path, ModulePath.pathOf, pathInModule]
    split
    · rfl
    · exact Path.getLast?_pieces_join (p := ⟨a.module.text⟩) (q := ⟨f.fileName a⟩)
  refine Path.fileName?_of_getLast? (hpath.trans getLast?_pieces)
    (Path.component?_of_getLast? (c := c) ?_ hdot)
  obtain ⟨before, hbefore⟩ := List.getLast?_eq_some_iff.mp hlast
  simp [hbefore, hslash]

/-! ## What an aggregate needs -/

namespace ArtifactGraph

variable {g : ArtifactGraph} {f : FileNames} {plan : Plan} {policy : LinkPolicy}
  {mode : BuildMode} {n : NodeId} {y : Aggregate}

theorem nodup_dependencies (h : g.edges.Nodup) : (g.dependencies n).Nodup := by
  refine List.Nodup.filterMap (fun e e' d hd hd' => ?_) h
  obtain ⟨rfl, rfl⟩ : e.1 = n ∧ e.2 = d := by simpa using hd
  obtain ⟨hfirst, hsecond⟩ : e'.1 = e.1 ∧ e'.2 = e.2 := by simpa using hd'
  exact Prod.ext hfirst.symm hsecond.symm

/-- An aggregate needs the nodes of its members directly, one of each, and nothing else. -/
theorem perm_members (hplan : plan.Distinct) (h : (derive plan f policy mode).result = .ok g)
    (y : Aggregate) : ((g.dependencies (aggregate y)).map fun n => member? (g.node n)).Perm
      ((plan.members y).map some) := by
  have hgrouped := grouped_derive hplan h
  have hasks : ∀ n ∈ g.dependencies (aggregate y), ∃ x, g.Asks n x ∧ y ∈ plan.groups x :=
    fun n => (hgrouped.needs y n).mp
  have hedges : g.edges.Nodup := (grows_derive h).nodup_edges List.nodup_nil
  refine (List.perm_ext_iff_of_nodup ?dependencies ?members).mpr fun z => ?mem
  case dependencies =>
    refine (nodup_dependencies hedges).map_on fun m hm n hn heq => ?_
    obtain ⟨x, hx, -⟩ := hasks m hm
    rw [member?_node_eq_some_iff.mpr hx] at heq
    exact (hgrouped.nodes x (hgrouped.declared m x hx)).unique hx
      (member?_node_eq_some_iff.mp heq.symm)
  case members =>
    exact ((plan.members_sublist y).nodup (nodup_memberArtifacts hplan)).map
      (Option.some_injective _)
  case mem =>
    rw [List.mem_map, List.mem_map]
    constructor
    · rintro ⟨n, hn, rfl⟩
      obtain ⟨x, hx, hy⟩ := hasks n hn
      exact ⟨x, (mem_members_iff hplan).mpr ⟨hgrouped.declared n x hx, hy⟩,
        (member?_node_eq_some_iff.mpr hx).symm⟩
    · rintro ⟨x, hx, rfl⟩
      obtain ⟨hmem, hy⟩ := (mem_members_iff hplan).mp hx
      obtain ⟨n, hn, -⟩ := hgrouped.nodes x hmem
      exact ⟨n, (hgrouped.needs y n).mpr ⟨x, hn, hy⟩, member?_node_eq_some_iff.mpr hn⟩

/-- The files of what an aggregate needs are those of its members, also of those that are picked. -/
theorem perm_paths (hplan : plan.Distinct) (h : (derive plan f policy mode).result = .ok g)
    (y : Aggregate) (pick : Option Artifact → Bool) :
    (((g.dependencies (aggregate y)).filter fun n => pick (member? (g.node n))).map
      fun n => (g.node n).path).Perm
        (((plan.members y).filter fun x => pick (some x)).map fun x => some (f.path x)) := by
  have hpath : ∀ n ∈ (g.dependencies (aggregate y)).filter fun n => pick (member? (g.node n)),
      (g.node n).path = (member? (g.node n)).map f.path := fun n hn => by
    obtain ⟨x, hx, -⟩ := ((grouped_derive hplan h).needs y n).mp (List.mem_filter.mp hn).1
    rw [(suits_derive h hx.lt_size x hx.kind).1, member?_node_eq_some_iff.mpr hx, Option.map_some]
  have hperm := ((perm_members hplan h y).filter pick).map (Option.map f.path)
  rw [List.filter_map, List.filter_map, List.map_map, List.map_map] at hperm
  rw [List.map_congr_left hpath]
  exact hperm

/-- Whether a node is that of an archive. -/
def isArchive (node : Node) : Bool :=
  match node.kind with
  | .artifact x => x.kind = .archive
  | .aggregate _ | .shorthand _ | .file _ => false

theorem isArchive_eq (node : Node) : isArchive node = (member? node).any (·.kind = .archive) := by
  unfold isArchive member?
  cases node.kind with
  | artifact x => cases hkind : x.kind <;> simp [hkind, ArtifactKind.hasShorthand]
  | aggregate _ | shorthand _ | file _ => rfl

/-- Every library has one archive among the members of `libraries`. -/
theorem filter_members_libraries (plan : Plan) :
    (plan.members .libraries).filter (·.kind = .archive) = plan.libraries.values.map archiveOf := by
  show (plan.libraries.values.flatMap Plan.libraryArtifacts).filter _ = _
  rw [List.filter_flatMap, List.map_eq_flatMap]
  refine List.flatMap_congr fun l _ => ?_
  unfold Plan.libraryArtifacts
  split <;> rfl

theorem eq_of_baseName_archive (hplan : plan.Distinct)
    (h : (derive plan f policy .project).result = .ok g) {l l' : Library}
    (hl : l ∈ plan.libraries.values) (hl' : l' ∈ plan.libraries.values)
    (hname : f.baseName (archiveOf l) = f.baseName (archiveOf l')) : l.module = l'.module := by
  obtain ⟨g₀, hwith, hnamed, -⟩ := derive_eq_ok_iff.mp h
  have hgrouped := grouped_withInputs hplan hwith
  have hasks : ∀ l ∈ plan.libraries.values, ∃ n, g₀.Asks n (archiveOf l) := fun l hl => by
    have hmem : archiveOf l ∈ plan.members .libraries :=
      List.mem_flatMap.mpr ⟨l, hl, List.mem_cons_self⟩
    obtain ⟨n, hn, -⟩ := hgrouped.nodes _ ((mem_members_iff hplan).mp hmem).1
    exact ⟨n, hn⟩
  obtain ⟨n, hn⟩ := hasks l hl
  obtain ⟨n', hn'⟩ := hasks l' hl'
  obtain ⟨hcollides, -⟩ := named_of_addShorthands
    (grows_withInputs hwith).wellFormed_of_initial (nameless_withInputs hwith) hnamed
  obtain rfl := hn.eq_of_baseName hn' hname hcollides
  exact congrArg Artifact.module (hn.unique hn')

end ArtifactGraph

namespace Workspace

open ArtifactGraph (aggregate archiveOf isArchive)
open Operation

variable {read : Reader} {manifestPath : Path} {mode : BuildMode} {ws : Workspace}
  {g : ArtifactGraph} {h : Host} {request : InstallRequest} {w w' : World} {installed : List Path}

/-! ## The names of archives -/

def archiveNames (ws : Workspace) : List String :=
  ws.plan.libraries.values.map fun l => ws.fileNames.baseName (archiveOf l)

theorem fileNames_installedArchives (ws : Workspace) :
    ws.installedArchives.map (fun p => (ws.locate p).fileName?) = ws.archiveNames.map some := by
  rw [installedArchives, archiveNames, List.map_map, List.map_map]
  refine List.map_congr_left fun l _ => ?_
  have hlast : (ws.fileNames.fileName (archiveOf l)).toList.getLast? = some 'a' := by
    show (affixed "lib" l.name ".a").toList.getLast? = _
    rw [affixed, String.toList_append, List.getLast?_append_of_ne_nil _ (by decide)]
    rfl
  exact FileNames.fileName?_join_path ws.root hlast (by decide) (by decide)

theorem isName_of_mem_archiveNames (ws : Workspace) {name : String} (h : name ∈ ws.archiveNames) :
    Path.IsName name := by
  have hmem : some name ∈ ws.archiveNames.map some := List.mem_map_of_mem h
  rw [← fileNames_installedArchives] at hmem
  obtain ⟨p, -, hp⟩ := List.mem_map.mp hmem
  exact Path.isName_of_fileName? hp

/-- No two archives are called alike, in a whole project or in a module on its own. -/
theorem nodup_archiveNames (hws : (load read manifestPath mode).2 = .ok ws)
    (hg : ws.graph.2 = .ok g) : ws.archiveNames.Nodup := by
  have hplan := distinct_of_load hws
  have hderive := graph_eq_ok_iff.mp hg
  obtain ⟨modules, -, -, hselect, -, rfl, -⟩ := tracks_of_load hws
  refine List.pairwise_map.mpr (hplan.pairwise_libraries.imp_of_mem fun {l l'} hl hl' hne hname =>
    hne ?_)
  cases hmode : ws.mode with
  | project =>
    rw [hmode] at hderive
    exact ArtifactGraph.eq_of_baseName_archive hplan hderive hl hl' hname
  | standalone module =>
    have hmodule : ∀ l ∈ ws.plan.libraries.values, l.module = module := fun l hl => by
      have hmem := mem_of_library hws hselect
        (((Plan.listsLibraries_values hplan).mem_iff l).mp hl)
      rw [hmode] at hselect
      rwa [eq_singleton_of_selectModules hselect, List.mem_singleton] at hmem
    exact (hmodule l hl).trans (hmodule l' hl').symm

/-! ## Runs -/

def libDirectory (ws : Workspace) (request : InstallRequest) : Path :=
  ws.installPrefix request.destination / "lib"

theorem eq_of_installFile {src dir dst : Path}
    (hrun : (installFile h src dir).run w = (.ok dst, w')) :
    ∃ name, src.fileName? = some name ∧ dst = dir / ⟨name⟩ := by
  obtain ⟨dst', w₁, hcopy, hlog⟩ := exists_of_bind_eq_ok hrun
  obtain ⟨_, w₂, -, hreturn⟩ := exists_of_bind_eq_ok hlog
  cases hreturn
  obtain ⟨name, hname, hdst, -⟩ := copy_of_copyInto (run_of_installing hcopy)
  exact ⟨name, hname, hdst⟩

theorem eq_map_of_mapM {α β : Type} {step : α → Operation β} {result : α → β}
    (hstep : ∀ a w b w', (step a).run w = (.ok b, w') → b = result a) {l : List α} {bs : List β}
    (hrun : (l.mapM step).run w = (.ok bs, w')) : bs = l.map result := by
  induction l generalizing w bs with
  | nil =>
    cases hrun
    rfl
  | cons a l ih =>
    rw [List.mapM_cons] at hrun
    obtain ⟨b, w₁, hfirst, hrun⟩ := exists_of_bind_eq_ok hrun
    obtain ⟨rest, w₂, hrest, hreturn⟩ := exists_of_bind_eq_ok hrun
    cases hreturn
    rw [hstep a _ _ _ hfirst, ih hrest, List.map_cons]

/-- An installation of archives builds `libraries` first, and gives the paths in `lib` that are
called like the archives. -/
theorem installed_of_installLib (hrun : (ws.installLib h request).run w = (.ok installed, w')) :
    (∃ w₁, (ws.buildFor h request .libraries).run w = (.ok (), w₁)) ∧
      installed = ws.archiveNames.map fun name => ws.libDirectory request / ⟨name⟩ := by
  obtain ⟨_, w₁, hbuild, hrun⟩ := exists_of_bind_eq_ok hrun
  obtain ⟨dir, w₂, hdir, hrun⟩ := exists_of_bind_eq_ok hrun
  obtain ⟨_, w₃, -, hreturn⟩ := exists_of_bind_eq_ok hdir
  cases hreturn
  refine ⟨⟨w₁, hbuild⟩, ?_⟩
  let place (name? : Option String) : Path := ws.libDirectory request / ⟨name?.getD ""⟩
  have hplaces : installed = ws.installedArchives.map fun p => place (ws.locate p).fileName? := by
    refine eq_map_of_mapM (fun p w dst w' hstep => ?_) hrun
    obtain ⟨dst', w₄, hfile, hmode⟩ := exists_of_bind_eq_ok hstep
    obtain ⟨_, w₅, -, hreturn⟩ := exists_of_bind_eq_ok hmode
    cases hreturn
    obtain ⟨name, hname, rfl⟩ := eq_of_installFile hfile
    rw [hname]
    rfl
  have hnames := congrArg (List.map place) ws.fileNames_installedArchives
  rw [List.map_map, List.map_map] at hnames
  exact hplaces.trans hnames

/-- An installation of programs builds `programs` first, and gives the paths in `bin` that are
called like the executables. -/
theorem installed_of_installBin (hrun : (ws.installBin h request).run w = (.ok installed, w')) :
    (∃ w₁, (ws.buildFor h request .programs).run w = (.ok (), w₁)) ∧
      installed = ws.installedExecutables.map (ws.installedAs request) := by
  obtain ⟨⟨⟩, w₁, hbuild, -⟩ := exists_of_bind_eq_ok hrun
  exact ⟨⟨w₁, hbuild⟩, (copied_of_installBin hbuild hrun).1⟩

/-! ## What is built and installed -/

/-- What is installed of a workspace is what its graph builds for that. -/
structure InstallsBuilt (ws : Workspace) (g : ArtifactGraph) : Prop where
  /-- The executables are the files of what `programs` needs directly, one of each. -/
  executables : (ws.installedExecutables.map some).Perm
    ((g.dependencies (aggregate .programs)).map fun n => (g.node n).path)
  /-- The archives are the files of the archives that `libraries` needs directly, one of each. -/
  archives : (ws.installedArchives.map some).Perm
    (((g.dependencies (aggregate .libraries)).filter fun n => isArchive (g.node n)).map
      fun n => (g.node n).path)
  /-- Every archive has a file name. -/
  names : ws.installedArchives.map (fun p => (ws.locate p).fileName?) = ws.archiveNames.map some
  /-- No two archives have one. -/
  distinct : ws.archiveNames.Nodup

theorem installsBuilt (hws : (load read manifestPath mode).2 = .ok ws) (hg : ws.graph.2 = .ok g) :
    InstallsBuilt ws g := by
  have hpaths := ArtifactGraph.perm_paths (distinct_of_load hws) (graph_eq_ok_iff.mp hg)
  refine ⟨?executables, ?archives, ws.fileNames_installedArchives, nodup_archiveNames hws hg⟩
  case executables =>
    have hprograms := hpaths .programs fun _ => true
    rw [List.filter_true, List.filter_true, Plan.members, List.map_map] at hprograms
    rw [installedExecutables, List.map_map]
    exact hprograms.symm
  case archives =>
    have hlibraries := hpaths .libraries (·.any (·.kind = .archive))
    simp only [← ArtifactGraph.isArchive_eq, Option.any_some] at hlibraries
    rw [ArtifactGraph.filter_members_libraries, List.map_map] at hlibraries
    rw [installedArchives, List.map_map]
    exact hlibraries.symm

/-- **What is installed is what is built.** Let a project, or a module on its own, be loaded and its
graph be derived. The executables that are installed are the files of what `programs` needs
directly, the archives are those of the archives among what `libraries` needs directly, and no two
archives have one file name. An installation that succeeds has built `programs` or `libraries`
before, and gives the paths below the prefix that are called like these files; no two paths of
archives are spellings of one. -/
theorem installs_as_built (hws : (load read manifestPath mode).2 = .ok ws)
    (hg : ws.graph.2 = .ok g) :
    g.find? Aggregate.programs.name = some (aggregate .programs) ∧
      g.find? Aggregate.libraries.name = some (aggregate .libraries) ∧
      InstallsBuilt ws g ∧
      (∀ h request w w' installed, (ws.installBin h request).run w = (.ok installed, w') →
        (∃ w₁, (ws.buildFor h request .programs).run w = (.ok (), w₁)) ∧
          installed = ws.installedExecutables.map (ws.installedAs request)) ∧
      ∀ h request w w' installed, (ws.installLib h request).run w = (.ok installed, w') →
        (∃ w₁, (ws.buildFor h request .libraries).run w = (.ok (), w₁)) ∧
          installed = ws.archiveNames.map (fun name => ws.libDirectory request / ⟨name⟩) ∧
          installed.Pairwise fun p q => ¬ p.Same q := by
  have hinstalls := installsBuilt hws hg
  refine ⟨rfl, rfl, hinstalls, fun h request w w' installed => installed_of_installBin,
    fun h request w w' installed hrun => ?_⟩
  obtain ⟨hbuild, hinstalled⟩ := installed_of_installLib hrun
  refine ⟨hbuild, hinstalled, ?_⟩
  rw [hinstalled]
  refine List.pairwise_map.mpr (hinstalls.distinct.imp_of_mem fun {a b} ha hb hne hsame => hne ?_)
  exact Path.eq_of_same_join (ws.isName_of_mem_archiveNames ha) (ws.isName_of_mem_archiveNames hb)
    hsame

/-! ## Two libraries -/

/-- A project with two libraries, of which one is shared too, and a program. -/
def librariesProject : Workspace where
  root := ⟨"/demo"⟩
  manifest := { name := "demo", modules := ["b", "a"] }
  mode := .project
  plan :=
    { project := "demo"
      modules := (SortedMap.insert ∅ ⟨"a"⟩ ()).insert ⟨"b"⟩ ()
      units := SortedMap.insert ∅ ⟨⟨"a"⟩, "x"⟩ true
      programs := SortedSet.ofList [⟨⟨"a"⟩, "main"⟩]
      libraries := (SortedMap.insert ∅ ⟨"a"⟩ ⟨⟨"a"⟩, "a", false⟩).insert ⟨"b"⟩ ⟨⟨"b"⟩, "b", true⟩ }
  controlFiles := [⟨"Stratum.toml"⟩, ⟨"a/module.toml"⟩, ⟨"b/module.toml"⟩]

/-- Its manifests. -/
def libraryFiles : Reader := fun p =>
  if p = ⟨"/demo/Stratum.toml"⟩ then .ok "[project]\nname = \"demo\"\nmodules = [\"b\", \"a\"]\n"
  else if p = ⟨"/demo/a/module.toml"⟩ then
    .ok "units = [\"x\"]\nprograms = [\"main\"]\nlibrary = true\n"
  else if p = ⟨"/demo/b/module.toml"⟩ then .ok "shared_library = true\n"
  else .error .noEntry

theorem load_libraries :
    (load libraryFiles ⟨"/demo/Stratum.toml"⟩ .project).2 = .ok librariesProject :=
  load_eq_ok (by decide +kernel)

def librariesGraph : ArtifactGraph :=
  (ArtifactGraph.constructed librariesProject.plan librariesProject.fileNames .everyLibrary
    librariesProject.mode).toOption.getD {}

theorem constructs_libraries : librariesProject.Constructs librariesGraph
    [(17, 13), (16, 10), (15, 9), (14, 8), (0, 13), (2, 13), (13, 9), (13, 8), (13, 12), (12, 11),
      (0, 10), (1, 10), (0, 9), (1, 9), (0, 8), (1, 8), (8, 6), (6, 7), (6, 5)] 18 :=
  ArtifactGraph.constructs_of_computed (by decide)

theorem graph_libraries : librariesProject.graph.2 = .ok librariesGraph :=
  graph_of_constructs constructs_libraries (by cbv)

/-- Of what `libraries` needs, the two archives are installed, and the shared object is not. -/
theorem installs_as_built_libraries :
    (load libraryFiles ⟨"/demo/Stratum.toml"⟩ .project).2 = .ok librariesProject ∧
      librariesProject.graph.2 = .ok librariesGraph ∧
      librariesProject.InstallsBuilt librariesGraph ∧
      librariesProject.archiveNames = ["liba.a", "libb.a"] ∧
      (librariesGraph.dependencies (aggregate .libraries)).map
          (fun n => (librariesGraph.node n).path) =
        [some ⟨"b/libb.so"⟩, some ⟨"b/libb.a"⟩, some ⟨"a/liba.a"⟩] := by
  obtain ⟨-, -, hinstalls, -⟩ := installs_as_built load_libraries graph_libraries
  exact ⟨load_libraries, graph_libraries, hinstalls, by decide, by decide⟩

end Workspace

end ModularBuild
