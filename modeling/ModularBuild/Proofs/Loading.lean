import ModularBuild.Proofs.Plan.Manifests
import ModularBuild.Workspace

/-!
# Loading a project, whole or one module of it

What loading makes of a registry is made of one module after the other, and no manifest says
anything of another module (`tracks_declareModules`). `load_eq_ok_iff` lists what a load goes
through that succeeds, and `load_congr` says which files it reads. So the plan of a module that is
loaded on its own is the part of the project's plan which is that module's (`ofModule_eq`), and
neither whether it loads nor what it is loaded to depends on the manifests of other modules:
`standalone_load`.
-/

namespace ModularBuild

theorem eq_ok_of_toOption {ε α : Type} {r : Except ε α} {a : α} (h : r.toOption = some a) :
    r = .ok a := by
  cases r with
  | error e => cases h
  | ok b =>
    cases h
    rfl

/-! ## Several manifests -/

namespace Workspace

open Registry (setState)

variable {read read' : Reader} {root manifestPath : Path} {r r' : Registry} {project : String}
  {σ : ModulePath → ModuleState} {m : ModulePath} {modules : List ModulePath} {mode : BuildMode}
  {ws : Workspace} {c : Contribution}

/-- The manifest of a module is read and accepted, and declares this. -/
def Contributes (read : Reader) (root : Path) (m : ModulePath) (c : Contribution) : Prop :=
  ∃ manifest, loadModuleManifest read (root / moduleManifestPath m) = .ok manifest ∧
    ModuleState.unseen.stepAll m manifest.calls = (.merged c, .ok ())

/-- Where one module after the other is declared, each is merged with what its manifest declares,
and nothing else changes. -/
theorem tracks_declareModules (h : r.Tracks project σ)
    (hok : (declareModules read root r modules).2 = .ok r') :
    ∃ σ', r'.Tracks project σ' ∧ (∀ m ∉ modules, σ' m = σ m) ∧
      ∀ m ∈ modules, ∃ c, Contributes read root m c ∧ σ' m = .merged c := by
  induction modules generalizing r σ with
  | nil =>
    cases hok
    exact ⟨σ, h, fun _ _ => rfl, nofun⟩
  | cons module modules ih =>
    rw [declareModules] at hok
    cases hread : loadModuleManifest read (root / moduleManifestPath module) with
    | error e => rw [hread] at hok; cases hok
    | ok manifest =>
      obtain ⟨htracks, hresult⟩ := Registry.tracks_stepAll h module manifest.calls
      simp only [hread, ModuleManifest.declareInto] at hok
      rcases hdeclare : r.stepAll module manifest.calls with ⟨r₁, e | u⟩
      · rw [hdeclare] at hok
        cases hok
      · rw [hdeclare] at hok htracks hresult
        obtain ⟨hunseen, c, hc⟩ := ModuleManifest.stepAll_calls hresult.symm
        rw [hc] at htracks
        obtain ⟨σ', htracks', hothers, hmodules⟩ := ih htracks hok
        refine ⟨σ', htracks', fun m hm => ?_, fun m hm => ?_⟩
        · obtain ⟨hne, hm⟩ := not_or.mp (List.mem_cons.not.mp hm)
          rw [hothers m hm, setState, Function.update_of_ne hne]
        · -- The modules that follow leave the first as it is, unless it is among them.
          by_cases hrest : m ∈ modules
          · exact hmodules m hrest
          · obtain rfl := (List.mem_cons.mp hm).resolve_right hrest
            exact ⟨c, ⟨manifest, hread, hunseen ▸ hc⟩, by
              rw [hothers m hrest, setState, Function.update_self]⟩

theorem declareModules_congr
    (h : ∀ m ∈ modules, read' (root / moduleManifestPath m) = read (root / moduleManifestPath m)) :
    declareModules read' root r modules = declareModules read root r modules := by
  induction modules generalizing r with
  | nil => rfl
  | cons module modules ih =>
    obtain ⟨hmodule, hmodules⟩ := List.forall_mem_cons.mp h
    have hread : loadModuleManifest read' (root / moduleManifestPath module) =
        loadModuleManifest read (root / moduleManifestPath module) := by
      rw [loadModuleManifest, loadModuleManifest, hmodule]
    rw [declareModules, declareModules, hread]
    simp only [ih hmodules]

/-! ## The whole load -/

/-- A module that is built on its own is all that is selected. -/
theorem eq_singleton_of_selectModules {manifest : ProjectManifest}
    (h : selectModules manifest (.standalone m) = .ok modules) : modules = [m] := by
  rw [selectModules] at h
  split at h
  · exact (Except.ok.inj h).symm
  · cases h

theorem load_eq_ok_iff : (load read manifestPath mode).2 = .ok ws ↔
    ∃ manifest name modules r plan, loadProjectManifest read manifestPath = .ok manifest ∧
      manifestPath.fileName? = some name ∧ selectModules manifest mode = .ok modules ∧
      (declareModules read (rootOf manifestPath) (.empty manifest.name) modules).2 = .ok r ∧
      r.finalize (mode.naming manifest.name) = .ok plan ∧
      ws = ⟨rootOf manifestPath, manifest, mode, plan,
        sortedPaths (⟨name⟩ :: modules.map moduleManifestPath)⟩ := by
  rw [load]
  cases hmanifest : loadProjectManifest read manifestPath with
  | error e => simp
  | ok manifest =>
    cases hname : manifestPath.fileName? with
    | none => simp
    | some name =>
      cases hselect : selectModules manifest mode with
      | error e => simp [hselect]
      | ok modules =>
        cases hdeclare :
          (declareModules read (rootOf manifestPath) (.empty manifest.name) modules).2 with
        | error e => simp [hselect, hdeclare]
        | ok r =>
          cases hfinalize : r.finalize (mode.naming manifest.name) with
          | error e => simp [hselect, hdeclare, hfinalize]
          | ok plan => simp [hselect, hdeclare, hfinalize, eq_comm]

theorem load_eq_ok
    (h : (load read manifestPath mode).2.toOption.map
        (fun w => (w.root, w.manifest, w.mode, w.plan, w.controlFiles)) =
      some (ws.root, ws.manifest, ws.mode, ws.plan, ws.controlFiles)) :
    (load read manifestPath mode).2 = .ok ws := by
  obtain ⟨w, hw, hparts⟩ := Option.map_eq_some_iff.mp h
  rw [eq_ok_of_toOption hw]
  cases w
  cases ws
  cases hparts
  rfl

theorem load_congr (hproject : read' manifestPath = read manifestPath)
    (hmodules : ∀ manifest modules, selectModules manifest mode = .ok modules → ∀ m ∈ modules,
      read' (rootOf manifestPath / moduleManifestPath m) =
        read (rootOf manifestPath / moduleManifestPath m)) :
    load read' manifestPath mode = load read manifestPath mode := by
  have hload : loadProjectManifest read' manifestPath = loadProjectManifest read manifestPath := by
    rw [loadProjectManifest, loadProjectManifest, hproject]
  rw [load, load, hload]
  cases loadProjectManifest read manifestPath with
  | error e => rfl
  | ok manifest =>
    cases hselect : selectModules manifest mode with
    | error e => cases manifestPath.fileName? <;> simp only [hselect]
    | ok modules =>
      have hdeclare := fun r => declareModules_congr (r := r) (hmodules manifest modules hselect)
      cases manifestPath.fileName? with
      | none => rfl
      | some name => simp only [hselect, hdeclare]

end Workspace

/-! ## The part of one module -/

namespace Plan

/-- The part of a plan that belongs to a module, with the module's library under another name. -/
def ofModule (plan : Plan) (m : ModulePath) (libraryName : String) : Plan where
  project := plan.project
  modules := plan.modules.filter fun m' _ => m' = m
  headers := plan.headers.filter fun q _ => q.module = m
  units := plan.units.filter fun q _ => q.module = m
  fortranUnits := plan.fortranUnits.filter fun q _ => q.module = m
  programs := plan.programs.filter fun q _ => q.module = m
  testPrograms := plan.testPrograms.filter fun q _ => q.module = m
  fortranPrograms := plan.fortranPrograms.filter fun q _ => q.module = m
  generated := plan.generated.filter fun q _ => q.module = m
  libraries :=
    (plan.libraries.filter fun m' _ => m' = m).mapValues ({ · with name := libraryName })

theorem contributed_eq_filter {ν : Type} {merged own : ModulePath → Option Contribution}
    {part : Contribution → SortedMap String ν} {whole alone : SortedMap QualifiedName ν}
    {m : ModulePath} (hm : own m = merged m) (hothers : ∀ m' ≠ m, own m' = none)
    (hwhole : ∀ q, whole.find? q = contributed merged part q)
    (halone : ∀ q, alone.find? q = contributed own part q) :
    alone = whole.filter fun q _ => q.module = m := by
  refine SortedMap.ext_find? fun q => ?_
  rw [SortedMap.find?_filter, hwhole, halone, contributed, contributed]
  by_cases hq : q.module = m
  · rw [hq, hm, if_pos (decide_eq_true rfl)]
  · rw [hothers _ hq, if_neg (by simpa using hq)]
    rfl

end Plan

namespace Registry

variable {r r' : Registry} {project : String} {σ : ModulePath → ModuleState} {m : ModulePath}
  {c : Contribution} {libraries libraries' : SortedMap ModulePath Library}
  {naming : LibraryNaming} {name : String}

/-- One module is merged, and no other was ever opened. -/
def alone (m : ModulePath) (c : Contribution) : ModulePath → ModuleState :=
  setState (fun _ => .unseen) m (.merged c)

@[simp] theorem alone_self (m : ModulePath) (c : Contribution) : alone m c m = .merged c := by
  rw [alone, setState, Function.update_self]

theorem alone_of_ne {m' : ModulePath} (h : m' ≠ m) (c : Contribution) :
    alone m c m' = .unseen := by
  rw [alone, setState, Function.update_of_ne h]

theorem ofModule_eq (h : r.Tracks project σ) (hm : σ m = .merged c)
    (h' : r'.Tracks project (alone m c))
    (hlibraries : ∀ m, libraries.find? m = (σ m).request?.map (⟨m, naming.libraryName m, ·⟩))
    (hlibraries' : ∀ m', libraries'.find? m' = (alone m c m').request?.map (⟨m', name, ·⟩)) :
    { r'.plan with libraries := libraries' } =
      ({ r.plan with libraries } : Plan).ofModule m name := by
  have hself : (alone m c m).merged? = (σ m).merged? := by rw [alone_self, hm]
  have hnone : ∀ m' ≠ m, (alone m c m').merged? = none := fun m' hne => by
    rw [alone_of_ne hne]
    rfl
  have hmodules : r'.plan.modules = r.plan.modules.filter fun m' _ => m' = m := by
    refine SortedMap.ext_find? fun m' => ?_
    rw [SortedMap.find?_filter, h'.modules, h.modules]
    by_cases hm' : m' = m
    · rw [hm', hself, if_pos (decide_eq_true rfl)]
    · rw [hnone m' hm', if_neg (by simpa using hm')]
      rfl
  have hlibraries : libraries' = (libraries.filter fun m' _ => m' = m).mapValues
      ({ · with name := name }) := by
    refine SortedMap.ext_find? fun m' => ?_
    rw [SortedMap.find?_mapValues, SortedMap.find?_filter, hlibraries', hlibraries]
    by_cases hm' : m' = m
    · rw [hm', ModuleState.request?, hself, ← ModuleState.request?, if_pos (decide_eq_true rfl),
        Option.map_map]
      rfl
    · rw [ModuleState.request?, hnone m' hm', if_neg (by simpa using hm')]
      rfl
  have hproject : r'.plan.project = r.plan.project := h'.project.trans h.project.symm
  simp only [Plan.ofModule, Plan.mk.injEq]
  exact ⟨hproject, hmodules, Plan.contributed_eq_filter hself hnone h.headers h'.headers,
    Plan.contributed_eq_filter hself hnone h.units h'.units,
    Plan.contributed_eq_filter hself hnone h.fortranUnits h'.fortranUnits,
    Plan.contributed_eq_filter hself hnone h.programs h'.programs,
    Plan.contributed_eq_filter hself hnone h.testPrograms h'.testPrograms,
    Plan.contributed_eq_filter hself hnone h.fortranPrograms h'.fortranPrograms,
    Plan.contributed_eq_filter hself hnone h.generated h'.generated, hlibraries⟩

end Registry

/-! ## Loading one module -/

namespace Workspace

variable {read read' : Reader} {manifestPath : Path} {m : ModulePath}

/-- Where a module can be merged, it is loaded on its own. -/
theorem load_standalone {manifest : ProjectManifest} {name : String} {c : Contribution}
    (hmanifest : loadProjectManifest read manifestPath = .ok manifest)
    (hname : manifestPath.fileName? = some name) (hm : m ∈ manifest.modulePaths)
    (hc : Contributes read (rootOf manifestPath) m c) :
    ∃ (r : Registry) (libraries : SortedMap ModulePath Library),
      r.Tracks manifest.name (Registry.alone m c) ∧
      (∀ m', libraries.find? m' =
        (Registry.alone m c m').request?.map (⟨m', manifest.name, ·⟩)) ∧
      (load read manifestPath (.standalone m)).2 = .ok ⟨rootOf manifestPath, manifest,
        .standalone m, { r.plan with libraries }, sortedPaths [⟨name⟩, moduleManifestPath m]⟩ := by
  obtain ⟨moduleManifest, hread, hcalls⟩ := hc
  have hselect : selectModules manifest (.standalone m) = .ok [m] :=
    if_pos (List.contains_iff_mem.mpr hm)
  obtain ⟨htracks, hresult⟩ :=
    Registry.tracks_stepAll (Registry.Tracks.empty manifest.name) m moduleManifest.calls
  rw [hcalls] at htracks hresult
  have hdeclare : (declareModules read (rootOf manifestPath) (.empty manifest.name) [m]).2 =
      .ok ((Registry.empty manifest.name).stepAll m moduleManifest.calls).1 := by
    simp only [declareModules, hread, ModuleManifest.declareInto, hresult]
  have hclosed : ∀ m', (Registry.alone m c m').opened? = none := by
    intro m'
    by_cases hm' : m' = m
    · rw [hm', Registry.alone_self]
      rfl
    · rw [Registry.alone_of_ne hm']
      rfl
  obtain ⟨libraries, hfinalize, hlibraries⟩ :=
    Registry.Tracks.finalize_eq_ok (σ := Registry.alone m c) htracks hclosed
      (.projectName manifest.name)
  exact ⟨_, libraries, htracks, hlibraries, load_eq_ok_iff.mpr
    ⟨manifest, name, [m], _, _, hmanifest, hname, hselect, hdeclare, hfinalize, rfl⟩⟩

/-- **A module on its own is its part of the project.** Where a project loads, each of its modules
loads on its own, to the part of the project's plan that is the module's, with its library named
after the project. And what a module on its own is loaded to depends on no file but the manifest of
the project and its own. -/
theorem standalone_load (read : Reader) (manifestPath : Path) (m : ModulePath) :
    (∀ ws, (load read manifestPath .project).2 = .ok ws → m ∈ ws.manifest.modulePaths →
      ∃ ws', (load read manifestPath (.standalone m)).2 = .ok ws' ∧
        ws'.manifest = ws.manifest ∧ ws'.plan = ws.plan.ofModule m ws.manifest.name ∧
        ws'.plan.modules.keys = [m]) ∧
      ∀ read', read' manifestPath = read manifestPath →
        read' (rootOf manifestPath / moduleManifestPath m) =
          read (rootOf manifestPath / moduleManifestPath m) →
        load read' manifestPath (.standalone m) = load read manifestPath (.standalone m) := by
  refine ⟨fun ws hws hm => ?_, fun read' hproject hmodule => load_congr hproject ?_⟩
  · obtain ⟨manifest, name, modules, r, plan, hmanifest, hname, hselect, hdeclare, hfinalize, rfl⟩ :=
      load_eq_ok_iff.mp hws
    cases hselect
    obtain ⟨σ, htracks, -, hmodules⟩ :=
      tracks_declareModules (Registry.Tracks.empty manifest.name) hdeclare
    obtain ⟨c, hc, hσ⟩ := hmodules m hm
    obtain ⟨-, libraries, rfl, hlibraries⟩ := htracks.eq_of_finalize hfinalize
    obtain ⟨r', libraries', htracks', hlibraries', hload⟩ :=
      load_standalone hmanifest hname hm hc
    have hplan := Registry.ofModule_eq htracks hσ htracks' hlibraries hlibraries'
    have hmodules : r'.plan.modules = (∅ : SortedSet ModulePath).insert m () := by
      refine SortedMap.ext_find? fun m' => ?_
      rw [htracks'.modules, SortedMap.find?_insert_eq_ite]
      by_cases hm' : m' = m
      · rw [hm', Registry.alone_self, if_pos rfl]
        rfl
      · rw [Registry.alone_of_ne hm', if_neg hm']
        rfl
    exact ⟨_, hload, rfl, hplan, congrArg SortedMap.keys hmodules⟩
  · intro manifest modules hselect m' hm'
    rw [eq_singleton_of_selectModules hselect, List.mem_singleton] at hm'
    rw [hm']
    exact hmodule

/-! ## A module with a library -/

/-- A project of a module with a library and of another, whose manifest is read like this. -/
def twoModuleFiles (other : Except FileError String) : Reader := fun p =>
  if p = ⟨"/demo/Stratum.toml"⟩ then .ok "[project]\nname = \"demo\"\nmodules = [\"A\", \"B\"]\n"
  else if p = ⟨"/demo/A/module.toml"⟩ then .ok "units = [\"foo\"]\nlibrary = true\n"
  else if p = ⟨"/demo/B/module.toml"⟩ then other
  else .error .noEntry

/-- The project as it is loaded where the other module has a program. -/
def twoModules : Workspace where
  root := ⟨"/demo"⟩
  manifest := { name := "demo", modules := ["A", "B"] }
  mode := .project
  plan :=
    { project := "demo"
      modules := (SortedMap.insert ∅ ⟨"A"⟩ ()).insert ⟨"B"⟩ ()
      units := SortedMap.insert ∅ ⟨⟨"A"⟩, "foo"⟩ true
      programs := SortedMap.insert ∅ ⟨⟨"B"⟩, "main"⟩ ()
      libraries := SortedMap.insert ∅ ⟨"A"⟩ ⟨⟨"A"⟩, "A", false⟩ }
  controlFiles := [⟨"A/module.toml"⟩, ⟨"B/module.toml"⟩, ⟨"Stratum.toml"⟩]

theorem load_twoModules :
    (load (twoModuleFiles (.ok "programs = [\"main\"]\n")) ⟨"/demo/Stratum.toml"⟩ .project).2 =
      .ok twoModules :=
  load_eq_ok (by decide +kernel)

/-- The library is named after its module in the project and after the project where the module is
on its own, and then the other module need not even have a manifest. -/
theorem standalone_load_twoModules :
    twoModules.plan.libraries.find? ⟨"A"⟩ = some ⟨⟨"A"⟩, "A", false⟩ ∧
      ∃ ws, (load (twoModuleFiles (.error .noEntry)) ⟨"/demo/Stratum.toml"⟩ (.standalone ⟨"A"⟩)).2 =
          .ok ws ∧ ws.plan.modules.keys = [⟨"A"⟩] ∧ ws.plan.programs = ∅ ∧
        ws.plan.libraries.find? ⟨"A"⟩ = some ⟨⟨"A"⟩, "demo", false⟩ := by
  obtain ⟨hpart, hsame⟩ := standalone_load (twoModuleFiles (.ok "programs = [\"main\"]\n"))
    ⟨"/demo/Stratum.toml"⟩ ⟨"A"⟩
  obtain ⟨ws, hload, -, hplan, hmodules⟩ := hpart twoModules load_twoModules (by decide +kernel)
  have hpath : rootOf ⟨"/demo/Stratum.toml"⟩ / moduleManifestPath ⟨"A"⟩ =
      ⟨"/demo/A/module.toml"⟩ := by decide +kernel
  refine ⟨by decide, ws, ?_, hmodules, ?_, ?_⟩
  · rw [hsame (twoModuleFiles (.error .noEntry)) rfl (by rw [hpath]; rfl)]
    exact hload
  · rw [hplan]
    decide
  · rw [hplan]
    decide

end Workspace

end ModularBuild
