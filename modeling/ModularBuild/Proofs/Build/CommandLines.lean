import ModularBuild.Proofs.Build.Commands
import ModularBuild.Proofs.Graph.Aggregates

/-!
# From a plan to its command lines

The units of a module are picked from sorted collections over the whole project, the graph turns
them into paths, and a toolchain puts the paths into a command. What comes of it is stated about the
plan alone (`commandLines_exact`): a library is archived from the objects of its module's units,
each once and in name order, and of nothing else; a program is linked from its own object and every
library of the project, each once and in module order.
-/

namespace ModularBuild

/-! ## Names and libraries in order -/

/-- Lists in ascending order of a key that have the same members are the same. -/
theorem eq_of_ascending {α κ : Type} [Ord κ] [Std.TransOrd κ] {key : α → κ} {l l' : List α}
    (hl : l.Pairwise fun a b => compare (key a) (key b) = .lt)
    (hl' : l'.Pairwise fun a b => compare (key a) (key b) = .lt)
    (hmem : ∀ a, a ∈ l ↔ a ∈ l') : l = l' := by
  have hnodup : ∀ {l : List α}, (l.Pairwise fun a b => compare (key a) (key b) = .lt) →
      l.Nodup := fun hl => hl.imp fun hlt heq => by
    rw [heq, show compare (key _) (key _) = .eq from Std.ReflCmp.compare_self] at hlt
    cases hlt
  have hperm := (List.perm_ext_iff_of_nodup (hnodup hl) (hnodup hl')).mpr hmem
  refine hperm.eq_of_pairwise (fun a b _ _ hab hba => ?_) hl hl'
  exact absurd hba (Std.OrientedCmp.not_lt_of_lt hab)

namespace Plan

variable {plan : Plan} {kind : DeclKind} {m : ModulePath}

/-- The names that a module declares as a kind, each once and in name order. -/
structure Lists (plan : Plan) (kind : DeclKind) (m : ModulePath) (qs : List QualifiedName) :
    Prop where
  mem_iff : ∀ q, q ∈ qs ↔ q ∈ plan.names kind ∧ q.module = m
  ascending : qs.Pairwise fun a b => compare a.name b.name = .lt

/-- The libraries of a plan, each once and in module order. -/
structure ListsLibraries (plan : Plan) (ls : List Library) : Prop where
  mem_iff : ∀ l, l ∈ ls ↔ plan.libraries.find? l.module = some l
  ascending : ls.Pairwise fun a b => compare a.module b.module = .lt

theorem Lists.unique {qs qs' : List QualifiedName} (h : plan.Lists kind m qs)
    (h' : plan.Lists kind m qs') : qs = qs' :=
  eq_of_ascending h.ascending h'.ascending fun q => (h.mem_iff q).trans (h'.mem_iff q).symm

theorem ListsLibraries.unique {ls ls' : List Library} (h : plan.ListsLibraries ls)
    (h' : plan.ListsLibraries ls') : ls = ls' :=
  eq_of_ascending h.ascending h'.ascending fun l => (h.mem_iff l).trans (h'.mem_iff l).symm

/-- Among names of one module the order of names is that of what comes after the module. -/
theorem lists_filter {ν : Type} {names : SortedMap QualifiedName ν}
    (hnames : plan.names kind = names.keys) :
    plan.Lists kind m (names.keys.filter (·.module = m)) where
  mem_iff q := by
    rw [List.mem_filter, hnames, decide_eq_true_iff]
  ascending := by
    have hsorted : names.keys.Pairwise fun a b => compare a b = .lt :=
      List.pairwise_map.mpr names.sorted
    refine (hsorted.sublist List.filter_sublist).imp_of_mem fun {a b} ha hb hlt => ?_
    have ha : a.module = m := of_decide_eq_true (List.mem_filter.mp ha).2
    have hb : b.module = m := of_decide_eq_true (List.mem_filter.mp hb).2
    have hlt : (compare a.module b.module).then (compare a.name b.name) = .lt := hlt
    have hself : compare m m = .eq := Std.ReflCmp.compare_self
    rwa [ha, hb, hself] at hlt

theorem listsLibraries_values (h : plan.Distinct) : plan.ListsLibraries plan.libraries.values where
  mem_iff l := by
    constructor
    · intro hl
      obtain ⟨⟨m, l⟩, hentry, rfl⟩ := List.mem_map.mp hl
      have hfind := SortedMap.mem_entries_iff.mp hentry
      rwa [h.libraries m l hfind]
    · exact fun hfind => List.mem_map.mpr ⟨_, SortedMap.mem_entries_iff.mpr hfind, rfl⟩
  ascending := by
    refine List.pairwise_map.mpr (plan.libraries.sorted.imp_of_mem fun {e e'} he he' hlt => ?_)
    rwa [h.libraries e.1 e.2 (SortedMap.mem_entries_iff.mp he),
      h.libraries e'.1 e'.2 (SortedMap.mem_entries_iff.mp he')]

theorem Distinct.not_mem_names_of_unit (h : plan.Distinct) {units fortran : List QualifiedName}
    (hunits : plan.Lists .compiledUnit m units) (hfortran : plan.Lists .fortranUnit m fortran)
    {u : QualifiedName} (hu : u ∈ units ++ fortran) (hkind : kind.isProgram) :
    u ∉ plan.names kind := by
  have hobject : kind.producesObject ∧ kind ≠ .compiledUnit ∧ kind ≠ .fortranUnit := by
    cases kind <;> first | decide | cases hkind
  intro hprogram
  rcases List.mem_append.mp hu with hu | hu
  · exact h.disjoint_names hobject.1 rfl hobject.2.1 hprogram ((hunits.mem_iff u).mp hu).1
  · exact h.disjoint_names hobject.1 rfl hobject.2.2 hprogram ((hfortran.mem_iff u).mp hu).1

end Plan

/-! ## Nodes and their actions -/

namespace ArtifactGraph

variable {g : ArtifactGraph} {f : FileNames} {plan : Plan} {policy : LinkPolicy}
  {mode : BuildMode} {n : NodeId} {x : Artifact}

theorem exists_archive_node (h : (derive plan f policy mode).result = .ok g) {l : Library}
    (hl : l ∈ plan.libraries.values) : ∃ n, g.node n =
      ⟨.artifact (archiveOf l), some (f.path (archiveOf l)),
        .archive (libraryObjects plan f l)⟩ := by
  obtain ⟨g₀, hwires, hsettles, -⟩ := exists_wires_of_derive h
  have hobjects : Grows initial (objectStage plan f) := extends_initial_objectStage.grows
  obtain ⟨g₁, hstage, hstep⟩ := exists_step_of_mem hl
    (fun g y _ hg => grows_addLibrary hg.wellFormed_of_initial plan f y) hobjects
  have hg₁ := hobjects.trans hstage
  have hlater : Grows (libraryStage plan f) (ofDeclarations plan f policy) := extends_programs.grows
  have hgrows := (grows_addLibrary_archive hg₁.wellFormed_of_initial plan f l).trans
    (hstep.trans (hlater.trans (hwires.settles.trans hsettles).grows))
  have hadded : Gained g₁ (addArchive plan f g₁ l) := gained_addArtifact f _ (by simp)
  exact ⟨_, (hgrows.node_eq hadded.2).trans (node_addArtifact _ _)⟩

/-- Every program has a node that links the program's object with the archives of the policy. -/
theorem exists_executable_node (h : (derive plan f policy mode).result = .ok g)
    {program : ProgramSpec} (hprogram : program ∈ programSpecs plan) : ∃ n, g.node n =
      ⟨.artifact (.ofName .executable program.name),
        some (f.path (.ofName .executable program.name)),
        .linkExe program.lang [f.path (.ofName .object program.name)]
          ((policy program.name plan).map f.path)⟩ := by
  obtain ⟨g₀, hwires, hsettles, -⟩ := exists_wires_of_derive h
  have hlibraries : Grows initial (libraryStage plan f) := extends_initial_libraryStage.grows
  obtain ⟨g₁, hstage, hstep⟩ := exists_step_of_mem hprogram
    (fun g y _ hg => grows_addProgram hg.wellFormed_of_initial plan f policy y) hlibraries
  have hg₁ := hlibraries.trans hstage
  have hgrows := (grows_addProgram_executable hg₁.wellFormed_of_initial plan f policy program).trans
    (hstep.trans (hwires.settles.trans hsettles).grows)
  have hadded := gained_addExecutable plan f policy g₁ program
  exact ⟨_, (hgrows.node_eq hadded.2).trans (node_addArtifact _ _)⟩

theorem kind_iff_of_mem_memberArtifacts (hplan : plan.Distinct)
    (h : (derive plan f policy mode).result = .ok g) (hx : x ∈ plan.memberArtifacts)
    (hn : (g.node n).kind = .artifact x) (m : NodeId) :
    (g.node m).kind = .artifact x ↔ m = n := by
  obtain ⟨k, hk, hunique⟩ := (grouped_derive hplan h).nodes x hx
  have hasks : ∀ i, (g.node i).kind = .artifact x → g.Asks i x := fun i hi =>
    member?_node_eq_some_iff.mp (member?_eq_some_iff.mpr ⟨hi, hk.hasShorthand⟩)
  constructor
  · exact fun hm => (hunique m (hasks m hm)).trans (hunique n (hasks n hn)).symm
  · rintro rfl
    exact hn

end ArtifactGraph

/-! ## Commands of a plan -/

namespace BuildSite

/-- A command that is run in the root. -/
def inRoot (site : BuildSite) (program : Path) (args : List String) : Invocation :=
  { program, args, cwd := some site.root }

/-- Archives as arguments: between two markers if grouping is on and there are several. -/
def groupedArchives (t : Toolchain) (archives : List String) : List String :=
  if t.groupArchives ∧ 2 ≤ archives.length then
    ["-Wl,--start-group"] ++ archives ++ ["-Wl,--end-group"]
  else archives

theorem archiveArgs_eq (t : Toolchain) (archives : List Path) :
    t.archiveArgs archives = groupedArchives t (archives.map (·.text)) := by
  unfold Toolchain.archiveArgs groupedArchives
  simp only [Bool.and_eq_true, decide_eq_true_eq, List.length_map]
  rfl

variable {project : String} {calls : List (ModulePath × Registry.Call)} {naming : LibraryNaming}
  {plan : Plan} {f : FileNames} {mode : BuildMode} {g : ArtifactGraph}

open ArtifactGraph (archiveOf)

/-- **The command lines of a plan.** Each library has one node; its archiver is given the flags, the
archive, and the objects of the module's compiled units in name order, then those of its Fortran
units in name order; none of these is a program. Each program has one node; the driver of its
language is given the flags, the executable, the program's own object, the archives of all libraries
in module order, and what is linked last. -/
theorem commandLines_exact
    (hplan : ((Registry.empty project).run calls).1.finalize naming = .ok plan)
    (hderive : (ArtifactGraph.derive plan f .everyLibrary mode).result = .ok g)
    (site : BuildSite) :
    (∀ l ∈ plan.libraries.values,
      ∃ n, (∀ m, (g.node m).kind = .artifact (archiveOf l) ↔ m = n) ∧
      ∃ units fortran, plan.Lists .compiledUnit l.module units ∧
        plan.Lists .fortranUnit l.module fortran ∧
        (∀ u ∈ units ++ fortran, ∀ kind : DeclKind, kind.isProgram → u ∉ plan.names kind) ∧
        site.NodeIssues (g.node n) (site.inRoot site.toolchain.ar (site.toolchain.arFlags ++
          [(f.path (archiveOf l)).text] ++
          (units ++ fortran).map fun u => (f.path (.ofName .object u)).text))) ∧
    ∀ (kind : DeclKind) lang, kind.isProgram → kind.language? = some lang → ∀ q ∈ plan.names kind,
      ∃ n, (∀ m, (g.node m).kind = .artifact (.ofName .executable q) ↔ m = n) ∧
      ∃ libraries, plan.ListsLibraries libraries ∧
        site.NodeIssues (g.node n) (site.inRoot (site.toolchain.driver lang)
          (site.toolchain.ldflags ++ ["-o", (f.path (.ofName .executable q)).text] ++
            [(f.path (.ofName .object q)).text] ++
            groupedArchives site.toolchain (libraries.map fun l => (f.path (archiveOf l)).text) ++
            site.toolchain.libs)) := by
  have hdistinct := Registry.distinct_of_finalize hplan
  constructor
  · intro l hl
    obtain ⟨n, hn⟩ := ArtifactGraph.exists_archive_node hderive hl
    have hmember : archiveOf l ∈ plan.memberArtifacts := ArtifactGraph.mem_memberArtifacts.mpr
      (.inr (.inl (List.mem_flatMap.mpr ⟨l, hl, List.mem_cons_self⟩)))
    have hunits : plan.Lists .compiledUnit l.module (plan.unitsOf l.module) := Plan.lists_filter rfl
    have hfortran : plan.Lists .fortranUnit l.module (plan.fortranUnitsOf l.module) :=
      Plan.lists_filter rfl
    refine ⟨n, ArtifactGraph.kind_iff_of_mem_memberArtifacts hdistinct hderive hmember (by rw [hn]),
      _, _, hunits, hfortran, fun u hu kind hkind => ?_, ?_⟩
    · exact hdistinct.not_mem_names_of_unit hunits hfortran hu hkind
    · refine nodeIssues_of_invocation (by rw [hn]) ?_
      rw [hn, invocation?]
      simp only [ArtifactGraph.libraryObjects, Plan.libraryUnits, Toolchain.archive, inRoot,
        List.map_map, List.append_assoc, List.singleton_append, Function.comp_def]
  · intro kind lang hkind hlang q hq
    obtain ⟨isTest, hprogram⟩ := Plan.exists_mem_programSpecs hkind hlang hq
    obtain ⟨n, hn⟩ := ArtifactGraph.exists_executable_node hderive hprogram
    have hmember : .ofName .executable q ∈ plan.memberArtifacts :=
      List.mem_append_right _ (List.mem_map_of_mem (List.mem_map_of_mem hprogram))
    refine ⟨n, ArtifactGraph.kind_iff_of_mem_memberArtifacts hdistinct hderive hmember (by rw [hn]),
      _, Plan.listsLibraries_values hdistinct, ?_⟩
    refine nodeIssues_of_invocation (by rw [hn]) ?_
    rw [hn, invocation?]
    simp only [Toolchain.linkExe, archiveArgs_eq, ArtifactGraph.LinkPolicy.everyLibrary, inRoot,
      List.map_map, List.map_cons, List.map_nil, Function.comp_def]

/-! ## Two libraries and a program -/

/-- A module with two units, a Fortran unit and a program, and another one; both have libraries. -/
def twoLibrariesCalls : List (ModulePath × Registry.Call) :=
  [(⟨"b"⟩, .beginModule), (⟨"b"⟩, .declareUnit "z" false), (⟨"b"⟩, .requestLibrary false),
    (⟨"b"⟩, .endModule), (⟨"a"⟩, .beginModule), (⟨"a"⟩, .declare .program ["main"]),
    (⟨"a"⟩, .declareUnit "y" false), (⟨"a"⟩, .declareUnit "x" false),
    (⟨"a"⟩, .declare .fortranUnit ["k"]), (⟨"a"⟩, .requestLibrary false), (⟨"a"⟩, .endModule)]

def twoLibrariesPlan : Plan where
  project := "demo"
  modules := (SortedMap.insert ∅ ⟨"a"⟩ ()).insert ⟨"b"⟩ ()
  units := ((SortedMap.insert ∅ ⟨⟨"a"⟩, "x"⟩ false).insert ⟨⟨"a"⟩, "y"⟩ false).insert
    ⟨⟨"b"⟩, "z"⟩ false
  fortranUnits := SortedMap.insert ∅ ⟨⟨"a"⟩, "k"⟩ ()
  programs := SortedMap.insert ∅ ⟨⟨"a"⟩, "main"⟩ ()
  libraries := (SortedMap.insert ∅ ⟨"a"⟩ ⟨⟨"a"⟩, "a", false⟩).insert ⟨"b"⟩ ⟨⟨"b"⟩, "b", false⟩

theorem finalize_twoLibraries : ((Registry.empty "demo").run twoLibrariesCalls).1.finalize
    (BuildMode.project.naming "demo") = .ok twoLibrariesPlan := by
  rfl

open ArtifactGraph (Constructs constructed constructs_of_computed derive)

def twoLibraries : ArtifactGraph :=
  (constructed twoLibrariesPlan {} .everyLibrary .project).toOption.getD {}

theorem constructs_twoLibraries : Constructs twoLibrariesPlan {} .everyLibrary .project twoLibraries
    [(20, 17), (19, 14), (18, 13), (0, 17), (2, 17), (17, 14), (17, 13), (17, 16), (16, 15), (0, 14),
      (1, 14), (14, 10), (0, 13), (1, 13), (13, 12), (13, 8), (13, 6), (12, 11), (10, 9), (8, 7),
      (6, 5)] 21 := constructs_of_computed ⟨by rfl, by rfl, by rfl⟩

theorem derive_twoLibraries :
    (derive twoLibrariesPlan {} .everyLibrary .project).result = .ok twoLibraries :=
  constructs_twoLibraries.derive (by cbv)

/-- The Fortran object comes last in its library, and the program is linked with both. -/
theorem commandLines_exact_twoLibraries :
    ((Registry.empty "demo").run twoLibrariesCalls).1.finalize (BuildMode.project.naming "demo") =
        .ok twoLibrariesPlan ∧
      (derive twoLibrariesPlan {} .everyLibrary .project).result = .ok twoLibraries ∧
      (∃ n, (twoLibraries.node n).kind = .artifact ⟨.archive, ⟨"a"⟩, "a"⟩ ∧
        usualSite.NodeIssues (twoLibraries.node n) (usualSite.inRoot ⟨"ar"⟩
          ["rcsD", "a/liba.a", "a/x.o", "a/y.o", "a/k.o"])) ∧
      ∃ n, (twoLibraries.node n).kind = .artifact ⟨.executable, ⟨"a"⟩, "main"⟩ ∧
        usualSite.NodeIssues (twoLibraries.node n) (usualSite.inRoot ⟨"c++"⟩
          ["-o", "a/main", "a/main.o", "-Wl,--start-group", "a/liba.a", "b/libb.a",
            "-Wl,--end-group"]) := by
  obtain ⟨harchives, hprograms⟩ :=
    commandLines_exact finalize_twoLibraries derive_twoLibraries usualSite
  refine ⟨finalize_twoLibraries, derive_twoLibraries, ?archive, ?program⟩
  case archive =>
    obtain ⟨n, hn, units, fortran, hunits, hfortran, -, hissues⟩ :=
      harchives ⟨⟨"a"⟩, "a", false⟩ (by decide)
    have hxy : twoLibrariesPlan.Lists .compiledUnit ⟨"a"⟩ (twoLibrariesPlan.unitsOf ⟨"a"⟩) :=
      Plan.lists_filter rfl
    have hk : twoLibrariesPlan.Lists .fortranUnit ⟨"a"⟩ (twoLibrariesPlan.fortranUnitsOf ⟨"a"⟩) :=
      Plan.lists_filter rfl
    obtain rfl := hunits.unique hxy
    obtain rfl := hfortran.unique hk
    exact ⟨n, (hn n).mpr rfl, hissues⟩
  case program =>
    obtain ⟨n, hn, libraries, hlibraries, hissues⟩ :=
      hprograms .program .c rfl rfl ⟨⟨"a"⟩, "main"⟩ (by decide)
    have hdistinct := Registry.distinct_of_finalize finalize_twoLibraries
    obtain rfl : libraries = [⟨⟨"a"⟩, "a", false⟩, ⟨⟨"b"⟩, "b", false⟩] :=
      hlibraries.unique (Plan.listsLibraries_values hdistinct)
    exact ⟨n, (hn n).mpr rfl, hissues⟩

end BuildSite

end ModularBuild
