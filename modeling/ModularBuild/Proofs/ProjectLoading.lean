import ModularBuild.Proofs.Loading
import Mathlib.Data.List.Sort

/-!
# When a project loads, and to what

Modules are declared one after the other exactly if none is listed twice and the manifest of each is
accepted (`exists_declareModules_iff`). So loading is told by the manifests alone: whether it
succeeds (`Loads`), the plan (`HoldsManifests`) and the control files (`ListsPaths`), none of which
depends on the order of the modules: `project_load`.
-/

namespace ModularBuild

/-! ## Manifests as tables -/

theorem Toml.exists_table_of_parse? {text : String} {document : Value}
    (h : parse? text = some document) : ∃ entries, document = .table entries := by
  obtain ⟨statements, -, h⟩ := Option.bind_eq_some_iff.mp h
  obtain ⟨d, -, h⟩ := Option.bind_eq_some_iff.mp h
  cases h
  exact ⟨_, rfl⟩

theorem Toml.Record.ofValue?_strict_eq_none {fields : List String} {entries : List (String × Value)}
    {key : String} {v : Value} (h : (key, v) ∈ entries) (hkey : key ∉ fields) :
    ofValue? .strict fields (.table entries) = none := by
  have hunknown : entries.any fun e => !fields.contains e.1 :=
    List.any_eq_true.mpr ⟨_, h, by simpa using hkey⟩
  rw [ofValue?, hunknown]
  rfl

theorem ProjectManifest.exists_project_of_decode {entries : List (String × Toml.Value)}
    {manifest : ProjectManifest} (h : decode (.table entries) = some manifest) :
    ∃ v, ("project", v) ∈ entries := by
  obtain ⟨r, hr, h⟩ := Option.bind_eq_some_iff.mp h
  obtain ⟨project, hproject, -⟩ := Option.bind_eq_some_iff.mp h
  obtain ⟨v, hv, -⟩ := Option.bind_eq_some_iff.mp hproject
  rw [Toml.Record.ofValue?] at hr
  split at hr
  · cases hr
  · cases hr
    obtain ⟨before, after, rfl, -⟩ := List.lookup_eq_some_iff.mp hv
    exact ⟨v, by simp⟩

/-- The manifest of a project is not that of a module, of which `project` is no key. -/
theorem ModuleManifest.parse?_eq_none {text : String} {project : ProjectManifest}
    (h : ProjectManifest.parse text = .ok project) : parse? text = none := by
  rw [parse?]
  rw [ProjectManifest.parse] at h
  cases hdocument : Toml.parse? text with
  | none => rfl
  | some document =>
    obtain ⟨entries, rfl⟩ := Toml.exists_table_of_parse? hdocument
    rw [hdocument, Option.bind_some] at h
    cases hdecode : ProjectManifest.decode (.table entries) with
    | none =>
      rw [hdecode] at h
      cases h
    | some _ =>
      obtain ⟨v, hv⟩ := ProjectManifest.exists_project_of_decode hdecode
      rw [Option.bind_some, decode, Toml.Record.ofValue?_strict_eq_none hv (by decide)]
      rfl

/-! ## Several manifests -/

namespace Workspace

open Registry (setState)

variable {read read' : Reader} {root manifestPath : Path} {r r' : Registry} {project : String}
  {σ : ModulePath → ModuleState} {m : ModulePath} {modules : List ModulePath} {c : Contribution}
  {moduleManifest : ModuleManifest}

/-- The manifest of a module, if its file can be read and holds one. -/
def moduleManifest? (read : Reader) (root : Path) (m : ModulePath) : Option ModuleManifest :=
  (read (root / moduleManifestPath m)).toOption.bind ModuleManifest.parse?

theorem loadModuleManifest_eq_ok_iff :
    loadModuleManifest read (root / moduleManifestPath m) = .ok moduleManifest ↔
      moduleManifest? read root m = some moduleManifest := by
  rw [loadModuleManifest, moduleManifest?]
  cases hread : read (root / moduleManifestPath m) with
  | error e => simp [Except.toOption]
  | ok text => cases hparse : ModuleManifest.parse? text <;> simp [Except.toOption, hparse]

theorem contributes_iff : Contributes read root m c ↔
    ∃ moduleManifest, moduleManifest? read root m = some moduleManifest ∧
      moduleManifest.ObjectsApart ∧ c = moduleManifest.contribution := by
  simp only [Contributes, loadModuleManifest_eq_ok_iff, ModuleManifest.stepAll_unseen_eq_ok_iff]

/-- Modules are declared one after the other exactly if every one is new, none is listed twice, and
the manifest of each is accepted. -/
theorem exists_declareModules_iff (h : r.Tracks project σ) :
    (∃ r', (declareModules read root r modules).2 = .ok r') ↔
      modules.Nodup ∧ ∀ m ∈ modules, σ m = .unseen ∧ ∃ c, Contributes read root m c := by
  induction modules generalizing r σ with
  | nil => simp [declareModules]
  | cons module modules ih =>
    rw [declareModules, List.nodup_cons, List.forall_mem_cons]
    cases hread : loadModuleManifest read (root / moduleManifestPath module) with
    | error e => simp [Contributes, hread]
    | ok moduleManifest =>
      obtain ⟨htracks, hresult⟩ := Registry.tracks_stepAll h module moduleManifest.calls
      have hcontributes : ∀ c, Contributes read root module c ↔
          ModuleState.unseen.stepAll module moduleManifest.calls = (.merged c, .ok ()) := fun c => by
        simp [Contributes, hread]
      simp only [ModuleManifest.declareInto, hcontributes]
      rcases hdeclare : r.stepAll module moduleManifest.calls with ⟨r₁, e | u⟩ <;>
        rw [hdeclare] at htracks hresult
      · -- Refused: the module is not new, or its manifest is not accepted.
        constructor
        · rintro ⟨r', hr'⟩
          cases hr'
        · rintro ⟨-, ⟨hunseen, c, hc⟩, -⟩
          rw [hunseen, hc] at hresult
          cases hresult
      · obtain ⟨hunseen, c, hc⟩ := ModuleManifest.stepAll_calls hresult.symm
        rw [hc] at htracks
        rw [hunseen] at hc
        -- The modules that follow are new after it if they were new before and are others.
        have hnew : ∀ m, setState σ module (.merged c) m = .unseen ↔ m ≠ module ∧ σ m = .unseen := by
          intro m
          by_cases hm : m = module
          · simp [setState, hm]
          · simp [setState, hm]
        have hrest := ih htracks
        simp only [hnew] at hrest
        rw [hrest]
        constructor
        · rintro ⟨hnodup, hmodules⟩
          exact ⟨⟨fun hmem => (hmodules module hmem).1.1 rfl, hnodup⟩, ⟨hunseen, c, hc⟩,
            fun m hm => ⟨(hmodules m hm).1.2, (hmodules m hm).2⟩⟩
        · rintro ⟨⟨hfirst, hnodup⟩, -, hmodules⟩
          exact ⟨hnodup, fun m hm =>
            ⟨⟨fun heq => hfirst (heq ▸ hm), (hmodules m hm).1⟩, (hmodules m hm).2⟩⟩

end Workspace

/-! ## The plan of manifests -/

/-- A plan holds what manifests declare, each under the path of its module, and nothing else. -/
structure Plan.HoldsManifests (plan : Plan) (project : String) (naming : LibraryNaming)
    (manifests : ModulePath → Option ModuleManifest) : Prop where
  project : plan.project = project
  modules : ∀ m, m ∈ plan.modules.keys ↔ (manifests m).isSome
  names : ∀ kind q, q ∈ plan.names kind ↔
    ∃ manifest, manifests q.module = some manifest ∧ q.name ∈ manifest.listed kind
  /-- A unit has the header flag of its last entry. -/
  hasHeader : ∀ q, plan.units.find? q = (manifests q.module).bind (·.header? q.name)
  /-- A generated file has the rule of its last entry that gives one. -/
  rules : ∀ q rule, plan.generated.find? q = some rule ↔ ∃ manifest,
    manifests q.module = some manifest ∧ q.name ∈ manifest.listed .generated ∧
      rule = manifest.rule? q.name
  libraries : ∀ m library, plan.libraries.find? m = some library ↔ ∃ manifest,
    manifests m = some manifest ∧ (manifest.library || manifest.sharedLibrary) ∧
      library = ⟨m, naming.libraryName m, manifest.sharedLibrary⟩

section

variable {plan plan' : Plan} {project : String} {naming : LibraryNaming}
  {manifests : ModulePath → Option ModuleManifest} {r : Registry} {σ : ModulePath → ModuleState}
  {libraries : SortedMap ModulePath Library}

theorem Plan.HoldsManifests.unique (h : plan.HoldsManifests project naming manifests)
    (h' : plan'.HoldsManifests project naming manifests) : plan = plan' := by
  have hset : ∀ {κ : Type} [Ord κ] [Std.TransOrd κ] [Std.LawfulEqOrd κ] {s s' : SortedSet κ},
      (∀ k, k ∈ s.keys ↔ k ∈ s'.keys) → s = s' := fun hkeys =>
    SortedSet.ext_contains fun k => Bool.eq_iff_iff.mpr <| by
      simpa only [SortedMap.contains, SortedMap.mem_keys_iff, Option.isSome_iff_exists] using hkeys k
  have hnames : ∀ kind q, q ∈ plan.names kind ↔ q ∈ plan'.names kind := fun kind q =>
    (h.names kind q).trans (h'.names kind q).symm
  have hmodules : plan.modules = plan'.modules :=
    hset fun m => (h.modules m).trans (h'.modules m).symm
  have hunits : plan.units = plan'.units :=
    SortedMap.ext_find? fun q => (h.hasHeader q).trans (h'.hasHeader q).symm
  have hgenerated : plan.generated = plan'.generated :=
    SortedMap.ext_find? fun q => Option.ext fun rule => (h.rules q rule).trans (h'.rules q rule).symm
  have hlibraries : plan.libraries = plan'.libraries :=
    SortedMap.ext_find? fun m => Option.ext fun library =>
      (h.libraries m library).trans (h'.libraries m library).symm
  have hproject := h.project.trans h'.project.symm
  have hheaders := hset (hnames .headerUnit)
  have hfortranUnits := hset (hnames .fortranUnit)
  have hprograms := hset (hnames .program)
  have htestPrograms := hset (hnames .testProgram)
  have hfortranPrograms := hset (hnames .fortranProgram)
  cases plan
  cases plan'
  simp only [Plan.mk.injEq]
  exact ⟨hproject, hmodules, hheaders, hunits, hfortranUnits, hprograms, htestPrograms,
    hfortranPrograms, hgenerated, hlibraries⟩

theorem Registry.Tracks.holdsManifests (h : r.Tracks project σ)
    (hσ : ∀ m, (σ m).merged? = (manifests m).map (·.contribution))
    (hlibraries : ∀ m, libraries.find? m = (σ m).request?.map (⟨m, naming.libraryName m, ·⟩)) :
    Plan.HoldsManifests { r.plan with libraries } project naming manifests where
  project := h.project
  modules m := by
    show m ∈ r.plan.modules.keys ↔ _
    rw [SortedMap.mem_keys_iff, ← Option.isSome_iff_exists, h.modules m, hσ m, Option.map_map,
      Option.isSome_map]
  names kind q := by
    rw [Plan.names_libraries, h.mem_names_iff, hσ]
    simp [ModuleManifest.mem_names_contribution]
  hasHeader q := by
    show r.plan.units.find? q = _
    rw [h.units q, Plan.contributed, hσ, Option.bind_map]
    exact congrArg _ (funext fun _ => ModuleManifest.find?_units_contribution)
  rules q rule := by
    show r.plan.generated.find? q = _ ↔ _
    rw [h.generated q, Plan.contributed, hσ, Option.bind_map, Option.bind_eq_some_iff]
    simp [ModuleManifest.find?_generated_contribution, eq_comm]
  libraries m library := by
    show libraries.find? m = _ ↔ _
    rw [hlibraries m, ModuleState.request?, hσ]
    cases manifests m with
    | none => simp
    | some manifest =>
      simp only [Option.map_some, Option.bind_some, ModuleManifest.library_contribution,
        ModuleManifest.sharedLibrary_contribution]
      rw [Option.map_eq_some_iff]
      simp only [Option.ite_none_right_eq_some, Option.some.injEq, and_assoc, exists_and_left,
        exists_eq_left', eq_comm (a := library)]

end

/-! ## The control files -/

/-- Paths in path order, one of each set of spellings of `ps`. -/
structure ListsPaths (ps sorted : List Path) : Prop where
  ascending : sorted.Pairwise fun p q => compare p q = .lt
  mem : ∀ p ∈ sorted, p ∈ ps
  spelled : ∀ p ∈ ps, ∃ q ∈ sorted, p.Same q

section

variable {ps ps' qs qs' : List Path}

theorem Workspace.listsPaths_sortedPaths (ps : List Path) : ListsPaths ps (sortedPaths ps) where
  ascending := SortedSet.pairwise_toList _
  mem _ := SortedSet.mem_of_mem_ofList
  spelled p hp := by
    obtain ⟨q, hq, hsame⟩ := SortedSet.exists_mem_ofList hp
    exact ⟨q, hq, Path.compare_eq_iff_same.mp hsame⟩

theorem ListsPaths.mem_components_iff (h : ListsPaths ps qs) {cs : List Component} :
    cs ∈ qs.map Path.components ↔ cs ∈ ps.map Path.components := by
  simp only [List.mem_map]
  constructor
  · rintro ⟨q, hq, rfl⟩
    exact ⟨q, h.mem q hq, rfl⟩
  · rintro ⟨p, hp, rfl⟩
    obtain ⟨q, hq, hsame⟩ := h.spelled p hp
    exact ⟨q, hq, hsame.symm⟩

theorem ListsPaths.components_eq (h : ListsPaths ps qs) (h' : ListsPaths ps' qs')
    (hsame : ∀ p, p ∈ ps ↔ p ∈ ps') : qs.map Path.components = qs'.map Path.components := by
  have hantisymm : Std.Antisymm fun cs cs' : List Component => compare cs cs' = .lt :=
    ⟨fun cs cs' hlt hgt => by
      rw [Std.OrientedCmp.gt_of_lt hlt] at hgt
      cases hgt⟩
  have hirrefl : Std.Irrefl fun cs cs' : List Component => compare cs cs' = .lt :=
    ⟨fun cs hlt => by
      rw [(Std.ReflCmp.compare_self : compare cs cs = .eq)] at hlt
      cases hlt⟩
  have hsorted : (qs.map Path.components).Pairwise fun cs cs' => compare cs cs' = .lt :=
    List.pairwise_map.mpr h.ascending
  refine hsorted.eq_of_mem_iff (List.pairwise_map.mpr h'.ascending) fun cs => ?_
  rw [h.mem_components_iff, h'.mem_components_iff]
  simp only [List.mem_map, hsame]

end

/-! ## The whole load -/

namespace Workspace

variable {read read' : Reader} {root manifestPath : Path} {manifest manifest' : ProjectManifest}
  {name : String} {m : ModulePath} {modules modules' : List ModulePath} {ws ws' : Workspace}

def manifestsOf (read : Reader) (root : Path) (modules : List ModulePath) (m : ModulePath) :
    Option ModuleManifest :=
  if m ∈ modules then moduleManifest? read root m else none

theorem manifestsOf_eq_some_iff {moduleManifest : ModuleManifest} :
    manifestsOf read root modules m = some moduleManifest ↔
      m ∈ modules ∧ moduleManifest? read root m = some moduleManifest := by
  rw [manifestsOf, Option.ite_none_right_eq_some]

/-- No module is listed twice, and every one has a manifest that can be read and parsed and lists no
name under two kinds that are compiled to objects. -/
def Loads (read : Reader) (root : Path) (modules : List ModulePath) : Prop :=
  modules.Nodup ∧ ∀ m ∈ modules, ∃ moduleManifest,
    moduleManifest? read root m = some moduleManifest ∧ moduleManifest.ObjectsApart

/-- A project as it is loaded from the manifests of its modules. -/
structure IsLoaded (read : Reader) (manifestPath : Path) (project : ProjectManifest) (name : String)
    (ws : Workspace) : Prop where
  root : ws.root = rootOf manifestPath
  manifest : ws.manifest = project
  mode : ws.mode = .project
  plan : ws.plan.HoldsManifests project.name (BuildMode.project.naming project.name)
    (manifestsOf read (rootOf manifestPath) project.modulePaths)
  controlFiles : ListsPaths (⟨name⟩ :: project.modulePaths.map moduleManifestPath) ws.controlFiles

theorem exists_declareModules_empty_iff (project : String) :
    (∃ r, (declareModules read root (.empty project) modules).2 = .ok r) ↔
      Loads read root modules := by
  rw [exists_declareModules_iff (Registry.Tracks.empty project), Loads]
  refine and_congr_right fun _ => forall₂_congr fun m _ => ?_
  simp only [contributes_iff, true_and]
  constructor
  · rintro ⟨c, moduleManifest, hmanifest, happart, -⟩
    exact ⟨moduleManifest, hmanifest, happart⟩
  · rintro ⟨moduleManifest, hmanifest, happart⟩
    exact ⟨_, moduleManifest, hmanifest, happart, rfl⟩

/-- What is declared of a project is merged with what the manifests of its modules contribute. -/
theorem merged?_eq_manifestsOf {r : Registry} {project : String}
    (hok : (declareModules read root (.empty project) modules).2 = .ok r) :
    ∃ σ, r.Tracks project σ ∧ (∀ m, (σ m).opened? = none) ∧
      ∀ m, (σ m).merged? = (manifestsOf read root modules m).map (·.contribution) := by
  obtain ⟨σ, htracks, hothers, hmodules⟩ :=
    tracks_declareModules (Registry.Tracks.empty project) hok
  refine ⟨σ, htracks, fun m => ?_, fun m => ?_⟩
  · by_cases hm : m ∈ modules
    · obtain ⟨c, -, hc⟩ := hmodules m hm
      rw [hc]
      rfl
    · rw [hothers m hm]
      rfl
  · rw [manifestsOf]
    by_cases hm : m ∈ modules
    · obtain ⟨c, hcontributes, hc⟩ := hmodules m hm
      obtain ⟨moduleManifest, hmanifest, -, rfl⟩ := contributes_iff.mp hcontributes
      rw [hc, if_pos hm, hmanifest]
      rfl
    · rw [hothers m hm, if_neg hm]
      rfl

/-- The plan of what is loaded, project or module, is finalized from a registry in which the selected
modules are merged, each with what its manifest contributes, and no others. -/
theorem tracks_of_load {mode : BuildMode} (hws : (load read manifestPath mode).2 = .ok ws) :
    ∃ (modules : List ModulePath) (r : Registry) (σ : ModulePath → ModuleState),
      selectModules ws.manifest mode = .ok modules ∧ Loads read ws.root modules ∧
      ws.mode = mode ∧ r.Tracks ws.manifest.name σ ∧
      (∀ m, (σ m).merged? = (manifestsOf read ws.root modules m).map (·.contribution)) ∧
      r.finalize (mode.naming ws.manifest.name) = .ok ws.plan := by
  obtain ⟨manifest, name, modules, r, plan, -, -, hselect, hdeclare, hfinalize, rfl⟩ :=
    load_eq_ok_iff.mp hws
  obtain ⟨σ, htracks, -, hmerged⟩ := merged?_eq_manifestsOf hdeclare
  exact ⟨modules, r, σ, hselect, (exists_declareModules_empty_iff manifest.name).mp ⟨r, hdeclare⟩,
    rfl, htracks, hmerged, hfinalize⟩

theorem holdsManifests_of_load {mode : BuildMode} (hws : (load read manifestPath mode).2 = .ok ws)
    (hselect : selectModules ws.manifest mode = .ok modules) :
    Loads read ws.root modules ∧ ws.plan.HoldsManifests ws.manifest.name
      (mode.naming ws.manifest.name) (manifestsOf read ws.root modules) := by
  obtain ⟨modules', r, σ, hselect', hloads, -, htracks, hmerged, hfinalize⟩ := tracks_of_load hws
  cases hselect.symm.trans hselect'
  obtain ⟨-, libraries, hplan, hlibraries⟩ := htracks.eq_of_finalize hfinalize
  rw [hplan]
  exact ⟨hloads, htracks.holdsManifests hmerged hlibraries⟩

/-- The modules of a plan that is loaded are those selected. -/
theorem mem_modules_of_load {mode : BuildMode} (hws : (load read manifestPath mode).2 = .ok ws)
    (hselect : selectModules ws.manifest mode = .ok modules) :
    modules.Nodup ∧ ∀ m, m ∈ ws.plan.modules.keys ↔ m ∈ modules := by
  obtain ⟨⟨hnodup, hmanifests⟩, hplan⟩ := holdsManifests_of_load hws hselect
  refine ⟨hnodup, fun m => ?_⟩
  rw [hplan.modules, manifestsOf]
  by_cases hm : m ∈ modules
  · obtain ⟨manifest, hmanifest, -⟩ := hmanifests m hm
    simp [hm, hmanifest]
  · simp [hm]

/-- A module that is loaded on its own is the only one. -/
theorem keys_modules_of_standalone (hws : (load read manifestPath (.standalone m)).2 = .ok ws) :
    ws.plan.modules.keys = [m] := by
  obtain ⟨modules, _, _, hselect, -⟩ := tracks_of_load hws
  have hmodules := (mem_modules_of_load hws hselect).2
  rw [eq_singleton_of_selectModules hselect] at hmodules
  exact List.perm_singleton.mp ((List.perm_ext_iff_of_nodup (SortedMap.nodup_keys _)
    (List.nodup_singleton m)).mpr hmodules)

/-- A library that is loaded is that of a selected module. -/
theorem mem_of_library {mode : BuildMode} (hws : (load read manifestPath mode).2 = .ok ws)
    (hselect : selectModules ws.manifest mode = .ok modules) {library : Library}
    (hfind : ws.plan.libraries.find? m = some library) : m ∈ modules := by
  obtain ⟨-, hplan⟩ := holdsManifests_of_load hws hselect
  obtain ⟨moduleManifest, hmanifest, -⟩ := (hplan.libraries m library).mp hfind
  exact (manifestsOf_eq_some_iff.mp hmanifest).1

theorem distinct_of_load {mode : BuildMode} (hws : (load read manifestPath mode).2 = .ok ws) :
    ws.plan.Distinct := by
  obtain ⟨modules, r, σ, -, ⟨-, hmanifests⟩, -, htracks, hmerged, hfinalize⟩ := tracks_of_load hws
  refine htracks.distinct (fun m c hc => ?_) hfinalize
  rw [hmerged m, Option.map_eq_some_iff] at hc
  obtain ⟨moduleManifest, hmanifest, rfl⟩ := hc
  obtain ⟨hm, hmanifest⟩ := manifestsOf_eq_some_iff.mp hmanifest
  obtain ⟨other, hother, happart⟩ := hmanifests m hm
  cases hmanifest.symm.trans hother
  exact ModuleManifest.objectClash?_contribution.mpr happart

theorem exists_load_iff (hmanifest : loadProjectManifest read manifestPath = .ok manifest)
    (hname : manifestPath.fileName? = some name) :
    (∃ ws, (load read manifestPath .project).2 = .ok ws) ↔
      Loads read (rootOf manifestPath) manifest.modulePaths := by
  rw [← exists_declareModules_empty_iff manifest.name]
  constructor
  · rintro ⟨ws, hws⟩
    obtain ⟨_, _, _, r, -, hmanifest', -, hselect, hdeclare, -, -⟩ := load_eq_ok_iff.mp hws
    cases hmanifest.symm.trans hmanifest'
    cases hselect
    exact ⟨r, hdeclare⟩
  · rintro ⟨r, hdeclare⟩
    obtain ⟨σ, htracks, hclosed, -⟩ := merged?_eq_manifestsOf hdeclare
    obtain ⟨libraries, hfinalize, -⟩ :=
      htracks.finalize_eq_ok hclosed (BuildMode.project.naming manifest.name)
    exact ⟨_, load_eq_ok_iff.mpr
      ⟨manifest, name, _, r, _, hmanifest, hname, rfl, hdeclare, hfinalize, rfl⟩⟩

theorem isLoaded_of_load (hmanifest : loadProjectManifest read manifestPath = .ok manifest)
    (hname : manifestPath.fileName? = some name)
    (hws : (load read manifestPath .project).2 = .ok ws) :
    IsLoaded read manifestPath manifest name ws := by
  obtain ⟨_, _, _, r, plan, hmanifest', hname', hselect, hdeclare, hfinalize, rfl⟩ :=
    load_eq_ok_iff.mp hws
  cases hmanifest.symm.trans hmanifest'
  cases hname.symm.trans hname'
  cases hselect
  exact {
    root := rfl
    manifest := rfl
    mode := rfl
    plan := (holdsManifests_of_load hws rfl).2
    controlFiles := listsPaths_sortedPaths _ }

/-! ## The order of the modules -/

/-- Two ways to read files that differ at most in the project's manifest, under whatever paths it is
read. -/
def SameButManifest (manifestPath : Path) (read read' : Reader) : Prop :=
  ∀ p, read' p = read p ∨ read p = read manifestPath ∧ read' p = read' manifestPath

theorem exists_parse_of_loadProjectManifest
    (h : loadProjectManifest read manifestPath = .ok manifest) :
    ∃ text, read manifestPath = .ok text ∧ ProjectManifest.parse text = .ok manifest := by
  rw [loadProjectManifest] at h
  cases hread : read manifestPath with
  | error e =>
    rw [hread] at h
    cases h
  | ok text =>
    simp only [hread] at h
    split at h
    · cases h
      exact ⟨text, rfl, ‹_›⟩
    · cases h
    · cases h

/-- A file that holds the project's manifest is not a module's, so that what it says of the project
does not matter. -/
theorem moduleManifest?_congr (hmanifest : loadProjectManifest read manifestPath = .ok manifest)
    (hmanifest' : loadProjectManifest read' manifestPath = .ok manifest')
    (hfiles : SameButManifest manifestPath read read') (m : ModulePath) :
    moduleManifest? read' root m = moduleManifest? read root m := by
  rw [moduleManifest?, moduleManifest?]
  rcases hfiles (root / moduleManifestPath m) with hsame | ⟨hread, hread'⟩
  · rw [hsame]
  · obtain ⟨text, htext, hparse⟩ := exists_parse_of_loadProjectManifest hmanifest
    obtain ⟨text', htext', hparse'⟩ := exists_parse_of_loadProjectManifest hmanifest'
    rw [hread, hread', htext, htext']
    exact (ModuleManifest.parse?_eq_none hparse').trans
      (ModuleManifest.parse?_eq_none hparse).symm

theorem loads_congr (hperm : modules'.Perm modules)
    (hfiles : ∀ m, moduleManifest? read' root m = moduleManifest? read root m) :
    Loads read' root modules' ↔ Loads read root modules := by
  simp only [Loads, hperm.nodup_iff, hperm.mem_iff, hfiles]

theorem manifestsOf_congr (hperm : modules'.Perm modules)
    (hfiles : ∀ m, moduleManifest? read' root m = moduleManifest? read root m) :
    manifestsOf read' root modules' = manifestsOf read root modules := by
  funext m
  simp only [manifestsOf, hperm.mem_iff, hfiles]

/-- **When a project loads, and to what.** A project loads exactly if its modules differ and each has
a manifest that can be read and parsed and wants no object twice; it is loaded to what the manifests
declare, and its control files are its own manifest and those of the modules in path order. The order
in which the modules are listed decides neither whether it loads nor what to, but for how the
control files are spelled. -/
theorem project_load (hmanifest : loadProjectManifest read manifestPath = .ok manifest)
    (hname : manifestPath.fileName? = some name) :
    ((∃ ws, (load read manifestPath .project).2 = .ok ws) ↔
        Loads read (rootOf manifestPath) manifest.modulePaths) ∧
      (∀ ws, (load read manifestPath .project).2 = .ok ws →
        IsLoaded read manifestPath manifest name ws) ∧
      ∀ read' modules', SameButManifest manifestPath read read' →
        loadProjectManifest read' manifestPath = .ok { manifest with modules := modules' } →
        modules'.Perm manifest.modules →
        ((∃ ws', (load read' manifestPath .project).2 = .ok ws') ↔
          ∃ ws, (load read manifestPath .project).2 = .ok ws) ∧
        ∀ ws ws', (load read manifestPath .project).2 = .ok ws →
          (load read' manifestPath .project).2 = .ok ws' →
          ws'.plan = ws.plan ∧
            ws'.controlFiles.map Path.components = ws.controlFiles.map Path.components := by
  refine ⟨exists_load_iff hmanifest hname, fun ws => isLoaded_of_load hmanifest hname,
    fun read' modules' hfiles hmanifest' hperm => ?_⟩
  have hpaths : (modules'.map ModulePath.ofString).Perm manifest.modulePaths := hperm.map _
  have hmodules : ∀ m, moduleManifest? read' (rootOf manifestPath) m =
      moduleManifest? read (rootOf manifestPath) m := moduleManifest?_congr hmanifest hmanifest' hfiles
  refine ⟨?_, fun ws ws' hws hws' => ?_⟩
  · rw [exists_load_iff hmanifest hname, exists_load_iff hmanifest' hname]
    exact loads_congr hpaths hmodules
  · have hloaded := isLoaded_of_load hmanifest hname hws
    have hloaded' := isLoaded_of_load hmanifest' hname hws'
    constructor
    · refine Plan.HoldsManifests.unique ?_ hloaded.plan
      rw [← manifestsOf_congr hpaths hmodules]
      exact hloaded'.plan
    · refine hloaded'.controlFiles.components_eq hloaded.controlFiles fun p => ?_
      simp only [List.mem_cons, List.mem_map, ProjectManifest.modulePaths, hperm.mem_iff]

/-- The files of two modules where the project lists the modules the other way round. -/
def swappedModuleFiles : Reader := fun p =>
  if p = ⟨"/demo/Stratum.toml"⟩ then .ok "[project]\nname = \"demo\"\nmodules = [\"B\", \"A\"]\n"
  else twoModuleFiles (.ok "programs = [\"main\"]\n") p

/-- The two modules are loaded to one plan in either order. -/
theorem project_load_swapped :
    Loads (twoModuleFiles (.ok "programs = [\"main\"]\n")) (rootOf ⟨"/demo/Stratum.toml"⟩)
        twoModules.manifest.modulePaths ∧
      ∃ ws, (load swappedModuleFiles ⟨"/demo/Stratum.toml"⟩ .project).2 = .ok ws ∧
        ws.plan = twoModules.plan ∧
        ws.controlFiles.map Path.components = twoModules.controlFiles.map Path.components := by
  have hmanifest : loadProjectManifest (twoModuleFiles (.ok "programs = [\"main\"]\n"))
      ⟨"/demo/Stratum.toml"⟩ = .ok twoModules.manifest :=
    eq_ok_of_toOption (by decide +kernel)
  have hmanifest' : loadProjectManifest swappedModuleFiles ⟨"/demo/Stratum.toml"⟩ =
      .ok { twoModules.manifest with modules := ["B", "A"] } :=
    eq_ok_of_toOption (by decide +kernel)
  have hname : Path.fileName? ⟨"/demo/Stratum.toml"⟩ = some "Stratum.toml" := by decide +kernel
  have hfiles : SameButManifest ⟨"/demo/Stratum.toml"⟩
      (twoModuleFiles (.ok "programs = [\"main\"]\n")) swappedModuleFiles := fun p => by
    by_cases hp : p = ⟨"/demo/Stratum.toml"⟩
    · exact .inr ⟨by rw [hp], by rw [hp]⟩
    · exact .inl (if_neg hp)
  obtain ⟨hloads, -, horder⟩ := project_load hmanifest hname
  obtain ⟨hsame, hplan⟩ := horder _ _ hfiles hmanifest' (List.Perm.swap _ _ _)
  obtain ⟨ws, hws⟩ := hsame.mpr ⟨twoModules, load_twoModules⟩
  exact ⟨hloads.mp ⟨_, load_twoModules⟩, ws, hws, hplan _ ws load_twoModules hws⟩

end Workspace

end ModularBuild
