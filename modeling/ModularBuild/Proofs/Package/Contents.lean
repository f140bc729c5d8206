import ModularBuild.Package
import ModularBuild.Proofs.Build.Cleaning
import ModularBuild.Proofs.Files.Walking
import ModularBuild.Proofs.Graph.GeneratedSources
import ModularBuild.Proofs.ProjectLoading

/-!
# What goes into a distribution

`Ships` says what goes in: the sources and headers of units and programs, generated files that no
rule makes, the manifests, and the extra files. The constituents are these, less the files that
rules generate, each once and in path order, unless an extra entry leads outside the project
(`constituents_exact`); no two of them have one name in the archive. The graph classifies files
alike: what it takes as it is is a constituent, and what it generates is not (`constituents_agree`).
-/

namespace ModularBuild

/-! ## What is written by hand -/

namespace Workspace

open ModularBuild.Path FileSystem

variable {ws : Workspace} {files : FileSystem} {cwd : Location} {p q : Path} {extra : String}
  {list found : List Path}

theorem mem_generatedPaths_iff {byRule : Bool} : p ∈ ws.generatedPaths byRule ↔
    ∃ file rule, ws.plan.generated.find? file = some rule ∧ rule.isSome = byRule ∧
      ws.fileNames.path (.ofName .generated file) = p := by
  simp only [generatedPaths, SortedMap.keys, List.map_map, List.mem_map, Function.comp]
  constructor
  · rintro ⟨⟨file, rule⟩, hmem, rfl⟩
    obtain ⟨hmem, hrule⟩ := List.mem_filter.mp hmem
    exact ⟨file, rule, SortedMap.mem_entries_iff.mp hmem, by simpa using hrule, rfl⟩
  · rintro ⟨file, rule, hfile, hrule, rfl⟩
    refine ⟨(file, rule), List.mem_filter.mpr ⟨SortedMap.mem_entries_iff.mpr hfile, ?_⟩, rfl⟩
    simpa using hrule

theorem exists_writes_iff :
    p ∈ ws.headerPaths ++ ws.plan.units.entries.flatMap ws.unitPaths ++ ws.otherSourcePaths ↔
      ∃ a, ws.plan.Writes a ∧ ws.fileNames.path a = p := by
  have hsource : ∀ {kind : DeclKind} {lang : Language} {q : QualifiedName},
      kind.language? = some lang → q ∈ ws.plan.names kind →
        ∃ a, ws.plan.Writes a ∧ ws.fileNames.path a = ws.declaredPath (.source lang) q :=
    fun hlang hq => ⟨_, .source hlang hq, rfl⟩
  rw [List.mem_append, List.mem_append]
  constructor
  · rintro ((h | h) | h)
    · obtain ⟨q, hq, rfl⟩ := List.mem_map.mp h
      exact ⟨_, .header hq, rfl⟩
    · obtain ⟨⟨q, hasHeader⟩, hq, h⟩ := List.mem_flatMap.mp h
      have hunit : q ∈ ws.plan.names .compiledUnit := List.mem_map_of_mem (f := (·.1)) hq
      cases hasHeader with
      | false =>
        obtain rfl := List.mem_singleton.mp h
        exact hsource rfl hunit
      | true =>
        rcases List.mem_pair.mp h with rfl | rfl
        · exact hsource rfl hunit
        · exact ⟨_, .unitHeader (SortedMap.mem_entries_iff.mp hq), rfl⟩
    · rcases List.mem_append.mp h with h | h <;> obtain ⟨q, hq, rfl⟩ := List.mem_map.mp h <;>
        rcases List.mem_append.mp hq with hq | hq
      · exact hsource (show DeclKind.fortranUnit.language? = some _ from rfl) hq
      · exact hsource (show DeclKind.fortranProgram.language? = some _ from rfl) hq
      · exact hsource (show DeclKind.program.language? = some _ from rfl) hq
      · exact hsource (show DeclKind.testProgram.language? = some _ from rfl) hq
  · rintro ⟨a, ha, rfl⟩
    cases ha with
    | header hq => exact .inl (.inl (List.mem_map_of_mem hq))
    | unitHeader hq =>
      refine .inl (.inr (List.mem_flatMap.mpr ⟨_, SortedMap.mem_entries_iff.mpr hq, ?_⟩))
      exact List.mem_pair.mpr (.inr rfl)
    | @source kind lang q hlang hq =>
      cases kind with
      | headerUnit | generated => cases hlang
      | compiledUnit =>
        cases hlang
        obtain ⟨hasHeader, hentry⟩ := SortedMap.mem_keys_iff.mp hq
        refine .inl (.inr (List.mem_flatMap.mpr ⟨_, SortedMap.mem_entries_iff.mpr hentry, ?_⟩))
        cases hasHeader <;> exact List.mem_cons_self
      | fortranUnit =>
        cases hlang
        exact .inr (List.mem_append_left _ (List.mem_map_of_mem (List.mem_append_left _ hq)))
      | fortranProgram =>
        cases hlang
        exact .inr (List.mem_append_left _ (List.mem_map_of_mem (List.mem_append_right _ hq)))
      | program =>
        cases hlang
        exact .inr (List.mem_append_right _ (List.mem_map_of_mem (List.mem_append_left _ hq)))
      | testProgram =>
        cases hlang
        exact .inr (List.mem_append_right _ (List.mem_map_of_mem (List.mem_append_right _ hq)))

/-! ## Extra files -/

/-- An extra entry as a path; a backslash separates like a slash. -/
def slashed (extra : String) : Path := ⟨extra.map fun c => if c = '\\' then '/' else c⟩

theorem slashed_eq (extra : String) :
    slashed extra = ⟨String.ofList (extra.toList.map fun c => if c = '\\' then '/' else c)⟩ := by
  rw [slashed, ← String.toList_map, String.ofList_toList]

/-- Why a project with this extra entry cannot be packaged. -/
def leadsOutside (extra : String) : Failure :=
  .ofBuild (.packaging ⟨extra⟩ "extra entry must name a path inside the project")

/-- An extra entry stands for a file, or for the files below a directory. -/
inductive Adds (ws : Workspace) (files : FileSystem) (cwd : Location) (extra : String) : Path → Prop
  | file {p : Path} (hp : (slashed extra).normalizeInside? = some p)
      (hother : ¬ files.isDirectory cwd (ws.locate p)) : ws.Adds files cwd extra p
  | below {p : Path} {names : List String} (hp : (slashed extra).normalizeInside? = some p)
      (hdir : files.isDirectory cwd (ws.locate p)) (hne : names ≠ [])
      (hnames : ∀ name ∈ names, IsName name)
      (hfile : files.FileBelow cwd (ws.locate p) names) :
      ws.Adds files cwd extra (p / ofNames names)

theorem extraPath_eq (extra : String) : extraPath extra =
    match (slashed extra).normalizeInside? with
    | some p => .ok p
    | none => .error (leadsOutside extra) := rfl

theorem extraFiles_of_isDirectory (hs : Standing files cwd) (hnames : files.HasNames)
    (hp : (slashed extra).normalizeInside? = some p) (hdir : files.isDirectory cwd (ws.locate p))
    (hfound : files.walkFiles cwd ws.root (ws.locate p) = some found) :
    ws.extraFiles files cwd extra = .ok found ∧
      ∀ r, (∃ q ∈ found, q.Same r) ↔ ∃ q, ws.Adds files cwd extra q ∧ q.Same r := by
  have hok : ws.extraFiles files cwd extra = .ok found := by
    rw [extraFiles, extraPath_eq, hp]
    simp only [bind, Except.bind, hdir, ↓reduceIte, hfound]
    rfl
  obtain ⟨first, hne, hfirst, rfl⟩ := exists_names_of_normalizeInside? hp
  -- The names below the directory come after its own.
  have hlonger : ∀ rest : List String, (∀ name ∈ rest, IsName name) →
      (ofNames first / ofNames rest).components = (first ++ rest).map .normal := fun rest hall => by
    rw [components_join_ofNames hall, components_ofNames hfirst, List.map_append]
  refine ⟨hok, fun r => ?_⟩
  rw [mem_walkFiles_iff hs hnames hfirst hne hdir hfound]
  constructor
  · rintro ⟨rest, hrest, hall, hfile, hr⟩
    exact ⟨_, .below hp hdir hrest hall hfile, (hlonger rest hall).trans hr.symm⟩
  · rintro ⟨q, hq, hsame⟩
    cases hq with
    | file hp' hother =>
      cases hp.symm.trans hp'
      exact absurd hdir hother
    | below hp' _ hrest hall hfile =>
      cases hp.symm.trans hp'
      exact ⟨_, hrest, hall, hfile, hsame.symm.trans (hlonger _ hall)⟩

theorem extraFiles_of_not_isDirectory (hp : (slashed extra).normalizeInside? = some p)
    (hother : ¬ files.isDirectory cwd (ws.locate p)) :
    ws.extraFiles files cwd extra = .ok [p] ∧
      ∀ r, (∃ q ∈ [p], q.Same r) ↔ ∃ q, ws.Adds files cwd extra q ∧ q.Same r := by
  constructor
  · rw [extraFiles, extraPath_eq, hp]
    simp only [bind, Except.bind, hother]
    rfl
  · intro r
    constructor
    · rintro ⟨q, hq, hsame⟩
      obtain rfl := List.mem_singleton.mp hq
      exact ⟨q, .file hp hother, hsame⟩
    · rintro ⟨q, hq, hsame⟩
      cases hq with
      | file hp' _ =>
        cases hp.symm.trans hp'
        exact ⟨p, List.mem_singleton_self p, hsame⟩
      | below hp' hdir =>
        cases hp.symm.trans hp'
        exact absurd hdir hother

theorem contains_ofList_iff {ps : List Path} :
    (SortedSet.ofList ps).contains p ↔ ∃ q ∈ ps, q.Same p := by
  rw [SortedMap.contains, SortedSet.ofList, SortedSet.isSome_find?_addAll]
  simp only [compare_eq_iff_same, SortedMap.find?_empty, Option.isSome_none, Bool.false_eq_true,
    or_false]
  exact exists_congr fun q => and_congr_right fun _ => eq_comm

theorem exists_mem_filter_iff {ps : List Path} :
    (∃ q ∈ (sortedPaths ps).filter (!(SortedSet.ofList (ws.generatedPaths true)).contains ·),
      q.Same p) ↔ (∃ q ∈ ps, q.Same p) ∧
        ∀ file rule, ws.plan.generated.find? file = some (some rule) →
          ¬ (ws.fileNames.path (.ofName .generated file)).Same p := by
  have hlists := listsPaths_sortedPaths ps
  have hkept : ∀ q, (!(SortedSet.ofList (ws.generatedPaths true)).contains q) = true ↔
      ∀ file rule, ws.plan.generated.find? file = some (some rule) →
        ¬ (ws.fileNames.path (.ofName .generated file)).Same q := by
    intro q
    rw [Bool.not_eq_true', ← Bool.not_eq_true, contains_ofList_iff]
    constructor
    · intro hnone file rule hfile hsame
      exact hnone ⟨_, mem_generatedPaths_iff.mpr ⟨file, some rule, hfile, rfl, rfl⟩, hsame⟩
    · rintro hapart ⟨r, hr, hsame⟩
      obtain ⟨file, rule, hfile, hsome, rfl⟩ := mem_generatedPaths_iff.mp hr
      obtain ⟨rule, rfl⟩ := Option.isSome_iff_exists.mp hsome
      exact hapart file rule hfile hsame
  constructor
  · rintro ⟨q, hq, hsame⟩
    obtain ⟨hq, hrest⟩ := List.mem_filter.mp hq
    refine ⟨⟨q, hlists.mem q hq, hsame⟩, fun file rule hfile hfileSame => ?_⟩
    exact (hkept q).mp hrest file rule hfile (hfileSame.trans hsame.symm)
  · rintro ⟨⟨q, hq, hsame⟩, hapart⟩
    obtain ⟨q', hq', hsame'⟩ := hlists.spelled q hq
    refine ⟨q', List.mem_filter.mpr ⟨hq', (hkept q').mpr fun file rule hfile hfileSame => ?_⟩,
      hsame'.symm.trans hsame⟩
    exact hapart file rule hfile ((hfileSame.trans hsame'.symm).trans hsame)

theorem constituents_eq_ok (h : ws.constituents files cwd = .ok list) : ∃ extras,
    list = (sortedPaths (ws.authoredPaths ++ extras)).filter
      (!(SortedSet.ofList (ws.generatedPaths true)).contains ·) := by
  unfold constituents at h
  cases hextras : ws.manifest.extra.mapM (ws.extraFiles files cwd) with
  | error e =>
    rw [hextras] at h
    cases h
  | ok extras =>
    rw [hextras] at h
    exact ⟨extras.flatten, (Except.ok.inj h).symm⟩

/-- **The constituents are what the graph takes as it is.** The file of every node of a source or a
header that the build does not make is a constituent, and no file that the build generates is. -/
theorem constituents_agree {g : ArtifactGraph} (hg : ws.graph.2 = .ok g)
    (hlist : ws.constituents files cwd = .ok list) :
    (∀ n a p, (g.node n).kind = .artifact a →
      ((∃ lang, a.kind = .source lang) ∨ a.kind = .header) → (g.node n).action = .source →
      (g.node n).path = some p → ∃ q ∈ list, q.Same p) ∧
    ∀ n p command directory, (g.node n).action = .generate command directory →
      (g.node n).path = some p → ∀ q ∈ list, ¬ q.Same p := by
  have hderive := graph_eq_ok_iff.mp hg
  obtain ⟨extras, rfl⟩ := constituents_eq_ok hlist
  constructor
  · intro n a p hkind hauthored haction hpath
    have hother : a.kind ≠ .generated := by
      rcases hauthored with ⟨lang, h⟩ | h <;> simp [h]
    obtain ⟨rfl, hwrites, hapart⟩ :=
      ArtifactGraph.writes_of_source hderive hpath hkind hother haction
    have hauthor := exists_writes_iff.mpr ⟨a, hwrites, rfl⟩
    refine exists_mem_filter_iff.mpr ⟨⟨_, ?_, rfl⟩, fun file rule hfile => ?_⟩
    · exact List.mem_append_left _ (List.mem_append_left _ (List.mem_append_left _ hauthor))
    · exact hapart file (SortedMap.mem_keys_iff.mpr ⟨_, hfile⟩)
  · intro n p command directory haction hpath q hq hsame
    obtain ⟨file, rule, hfile, rfl⟩ := ArtifactGraph.exists_rule_of_generate hderive haction hpath
    exact (exists_mem_filter_iff.mp ⟨q, hq, hsame⟩).2 file rule hfile rfl

/-! ## A project with extra files -/

/-- A project with a unit whose source a rule makes, a directory of extra files, and one more. -/
def documented : Workspace where
  root := ⟨"/demo"⟩
  manifest := { name := "demo", modules := ["A"], extra := ["doc", "LICENSE"] }
  mode := .project
  plan :=
    { project := "demo"
      modules := SortedMap.insert ∅ ⟨"A"⟩ ()
      units := SortedMap.insert ∅ ⟨⟨"A"⟩, "foo"⟩ true
      generated := SortedMap.insert ∅ ⟨⟨"A"⟩, "foo.cpp"⟩ (some ⟨["make-foo"], []⟩) }
  controlFiles := [⟨"A/module.toml"⟩, ⟨"Stratum.toml"⟩]

/-- The files of the project, the source that is made included. -/
def documentedFiles : FileSystem :=
  let directory : FileEntry := ⟨.directory, directoryMode, 1, true, none⟩
  let file : FileEntry := ⟨.file [], fileMode, 1, true, none⟩
  let entries : List (Location × FileEntry) :=
    [(["demo"], directory), (["demo", "A"], directory), (["demo", "A", "foo.cpp"], file),
      (["demo", "A", "foo.h"], file), (["demo", "A", "module.toml"], file),
      (["demo", "LICENSE"], file), (["demo", "Stratum.toml"], file), (["demo", "doc"], directory),
      (["demo", "doc", "guide.txt"], file)]
  { entries := SortedMap.insertAll ∅ entries }

theorem linkFree_documentedFiles : LinkFree documentedFiles := linkFree_of_entries (by decide)

theorem hasNames_documentedFiles : documentedFiles.HasNames := hasNames_of_entries (by decide)

theorem lookups_documented :
    documentedFiles.lookup [] ⟨"/demo/doc"⟩ =
        .ok (["demo", "doc"], ⟨.directory, directoryMode, 1, true, none⟩) ∧
      documentedFiles.isDirectory [] ⟨"/demo/doc"⟩ ∧
      ¬ documentedFiles.isDirectory [] ⟨"/demo/LICENSE"⟩ := by
  simp only [isDirectory, lookup?, lookup, resolve_eq_descend linkFree_documentedFiles]
  decide

theorem walkFiles_documented : documentedFiles.walkFiles [] ⟨"/demo"⟩ ⟨"/demo/doc"⟩ =
    some [⟨"doc/guide.txt"⟩] := by
  obtain ⟨hdirectory, -⟩ := lookups_documented
  have hsize : documentedFiles.entries.size + 2 = 9 + 2 := by rfl
  have hnames : documentedFiles.childNames ["demo", "doc"] = ["guide.txt"] := by rfl
  have hbelow : documentedFiles.filesBelow [] 11 [] ⟨"/demo/doc"⟩ =
      some [⟨"/demo/doc/guide.txt"⟩] := by
    have hentry : ∀ p walk, documentedFiles.entryBelow ["demo", "doc"] "guide.txt" p walk =
        some [p] := fun _ _ => rfl
    have hjoin : (⟨"/demo/doc"⟩ / ⟨"guide.txt"⟩ : Path) = ⟨"/demo/doc/guide.txt"⟩ := by decide
    have hread : FileEntry.mayRead ⟨.directory, directoryMode, 1, true, none⟩ := by decide
    rw [filesBelow, hdirectory]
    simp [hnames, hentry, hjoin, hread]
  have hrelative : relativeTo ⟨"/demo"⟩ ⟨"/demo/doc/guide.txt"⟩ = ⟨"doc/guide.txt"⟩ := by decide
  rw [walkFiles, hsize, hbelow]
  simp [hrelative]

theorem extras_documented : ∀ extra ∈ documented.manifest.extra,
    (slashed extra).normalizeInside? = some ⟨extra⟩ ∧ ¬ (slashed extra).IsOutside := by
  simp only [slashed_eq]
  decide

theorem locate_documented : documented.locate ⟨"doc"⟩ = ⟨"/demo/doc"⟩ ∧
    documented.locate ⟨"LICENSE"⟩ = ⟨"/demo/LICENSE"⟩ := by decide

theorem constituents_documented : documented.constituents documentedFiles [] =
    .ok [⟨"A/foo.h"⟩, ⟨"A/module.toml"⟩, ⟨"LICENSE"⟩, ⟨"Stratum.toml"⟩, ⟨"doc/guide.txt"⟩] := by
  obtain ⟨hdoc, hlicense⟩ := locate_documented
  obtain ⟨-, hdirectory, hfile⟩ := lookups_documented
  have hfirst : documented.extraFiles documentedFiles [] "doc" = .ok [⟨"doc/guide.txt"⟩] := by
    refine (extraFiles_of_isDirectory standing_nil hasNames_documentedFiles
      (extras_documented "doc" (by decide)).1 ?_ ?_).1
    · rwa [hdoc]
    · rw [hdoc]
      exact walkFiles_documented
  have hsecond : documented.extraFiles documentedFiles [] "LICENSE" = .ok [⟨"LICENSE"⟩] := by
    refine (extraFiles_of_not_isDirectory (extras_documented "LICENSE" (by decide)).1 ?_).1
    rwa [hlicense]
  have hextras : documented.manifest.extra.mapM (documented.extraFiles documentedFiles []) =
      .ok [[⟨"doc/guide.txt"⟩], [⟨"LICENSE"⟩]] := by
    rw [show documented.manifest.extra = ["doc", "LICENSE"] from rfl, List.mapM_cons, hfirst,
      List.mapM_cons, hsecond]
    rfl
  rw [constituents, hextras]
  decide +kernel

def documentedGraph : ArtifactGraph :=
  (ArtifactGraph.constructed documented.plan documented.fileNames .everyLibrary
    documented.mode).toOption.getD {}

theorem constructs_documented : documented.Constructs documentedGraph
    [(8, 5), (6, 7), (6, 5), (0, 5), (4, 5)] 9 :=
  ArtifactGraph.constructs_of_computed ⟨by rfl, by rfl, by rfl⟩

theorem graph_documented : documented.graph.2 = .ok documentedGraph :=
  graph_of_constructs constructs_documented (by cbv)

/-- The header is a node that the build takes as it is, and a constituent; the source is neither. -/
theorem constituents_agree_documented :
    documented.graph.2 = .ok documentedGraph ∧
      documented.constituents documentedFiles [] =
        .ok [⟨"A/foo.h"⟩, ⟨"A/module.toml"⟩, ⟨"LICENSE"⟩, ⟨"Stratum.toml"⟩, ⟨"doc/guide.txt"⟩] ∧
      (∃ q ∈ ([⟨"A/foo.h"⟩, ⟨"A/module.toml"⟩, ⟨"LICENSE"⟩, ⟨"Stratum.toml"⟩,
        ⟨"doc/guide.txt"⟩] : List Path), q.Same ⟨"A/foo.h"⟩) ∧
      ∀ q ∈ ([⟨"A/foo.h"⟩, ⟨"A/module.toml"⟩, ⟨"LICENSE"⟩, ⟨"Stratum.toml"⟩,
        ⟨"doc/guide.txt"⟩] : List Path), ¬ q.Same ⟨"A/foo.cpp"⟩ := by
  obtain ⟨hsources, hmade⟩ := constituents_agree graph_documented constituents_documented
  have hheader : (documentedGraph.node 7).kind = .artifact ⟨.header, ⟨"A"⟩, "foo"⟩ ∧
      (documentedGraph.node 7).action = .source ∧
      (documentedGraph.node 7).path = some ⟨"A/foo.h"⟩ := by decide
  have hsource : (documentedGraph.node 5).action = .generate ["make-foo"] ⟨"A"⟩ ∧
      (documentedGraph.node 5).path = some ⟨"A/foo.cpp"⟩ := by decide
  exact ⟨graph_documented, constituents_documented,
    hsources 7 _ _ hheader.1 (.inr rfl) hheader.2.1 hheader.2.2,
    hmade 5 _ _ _ hsource.1 hsource.2⟩

end Workspace

end ModularBuild
