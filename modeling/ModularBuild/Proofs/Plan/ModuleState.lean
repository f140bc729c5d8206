import ModularBuild.Plan.Registry
import ModularBuild.Proofs.SortedMap
import Mathlib.Logic.Function.Basic

/-!
# A registry, module by module

What a registry knows of one module is a `ModuleState`, and a call about a module reads and writes
the state of that module alone. `Registry.Tracks` says that a registry holds a given state for every
module, in all of its maps at once. `tracks_step` carries it through a call, `tracks_run` through
any run, and `Tracks.unique` says that the states are all there is to a registry. Finalizing it fails
for the least module that is open (`Tracks.finalize_eq_error`), and otherwise answers the registry's
plan with a library for every merged module that asked for one (`Tracks.finalize_eq_ok`).
-/

namespace ModularBuild

/-- Where a registry stands with one module. -/
inductive ModuleState where
  | unseen
  | opened (c : Contribution)
  /-- Closed, but two of its declarations clashed: nothing of it is in the plan. -/
  | rejected
  /-- Closed and merged into the plan. -/
  | merged (c : Contribution)

namespace ModuleState

def opened? : ModuleState → Option Contribution
  | opened c => some c
  | unseen | rejected | merged _ => none

def merged? : ModuleState → Option Contribution
  | merged c => some c
  | unseen | rejected | opened _ => none

def isSeen : ModuleState → Bool
  | unseen => false
  | opened _ | rejected | merged _ => true

/-- Whether a merged module asked for a library, and whether for a shared one. -/
def request? (s : ModuleState) : Option Bool :=
  s.merged?.bind fun c => if c.library then some c.sharedLibrary else none

/-- A module's state after a call, and how the call ended. -/
abbrev Step := ModuleState × Except PlanError Unit

/-- Changes what an open module has declared. -/
def modify (m : ModulePath) (s : ModuleState) (f : Contribution → Contribution) : Step :=
  match s with
  | opened c => (opened (f c), .ok ())
  | s => (s, .error (.unopenedModule m))

def step (m : ModulePath) (s : ModuleState) : Registry.Call → Step
  | .beginModule =>
    match s with
    | unseen => (opened {}, .ok ())
    | s => (s, .error (.duplicateModule m))
  | .declare kind names => s.modify m (·.declareAll kind names)
  | .declareUnit name header => s.modify m (·.declareUnit name header)
  | .declareRule file rule => s.modify m (·.declareRule file rule)
  | .requestLibrary shared => s.modify m (·.requestLibrary shared)
  | .endModule =>
    match s with
    | opened c =>
      match c.objectClash? with
      | some clash => (rejected, .error (.objectNameClash m clash))
      | none => (merged c, .ok ())
    | s => (s, .error (.unopenedModule m))

/-- Makes calls about the module, going on after a failure, and collects how each ended. -/
def run (m : ModulePath) (s : ModuleState) :
    List Registry.Call → ModuleState × List (Except PlanError Unit)
  | [] => (s, [])
  | call :: calls =>
    let (s', result) := s.step m call
    let (s'', results) := run m s' calls
    (s'', result :: results)

end ModuleState

/-! ## A plan as the union of what modules contributed -/

namespace Plan

variable {ν : Type}

/-- What the merged modules contribute to one collection of the plan. -/
def contributed (merged : ModulePath → Option Contribution)
    (part : Contribution → SortedMap String ν) (q : QualifiedName) : Option ν :=
  (merged q.module).bind fun c => (part c).find? q.name

theorem findIn?_qualify (module : ModulePath) (m : SortedMap String ν) (q : QualifiedName) :
    SortedMap.findIn? q (qualify module m) =
      if q.module = module then m.find? q.name else none := by
  obtain ⟨l, hl⟩ := m
  show SortedMap.findIn? q (l.map fun e => (⟨module, e.1⟩, e.2)) =
    if _ then SortedMap.findIn? _ l else _
  clear hl
  induction l with
  | nil => simp [SortedMap.findIn?]
  | cons e l ih =>
    obtain ⟨name, v⟩ := e
    obtain ⟨qm, qn⟩ := q
    have hcmp : compare (⟨qm, qn⟩ : QualifiedName) ⟨module, name⟩ = .eq ↔
        qm = module ∧ compare qn name = .eq := by
      rw [Std.LawfulEqCmp.compare_eq_iff_eq, Std.LawfulEqCmp.compare_eq_iff_eq]
      constructor
      · intro h
        cases h
        exact ⟨rfl, rfl⟩
      · rintro ⟨rfl, rfl⟩
        rfl
    simp only [List.map_cons, SortedMap.findIn?, hcmp, ih]
    by_cases hm : qm = module <;> simp [hm]

theorem pairwise_qualify (module : ModulePath) (m : SortedMap String ν) :
    (qualify module m).Pairwise fun a b => compare a.1 b.1 ≠ .eq := by
  refine List.pairwise_map.mpr (m.pairwise_entries.imp fun h he => h ?_)
  have he := Std.LawfulEqCmp.eq_of_compare he
  rw [(QualifiedName.mk.inj he).2]
  exact Std.ReflCmp.compare_self

/-- Merging a module that has not been merged adds its contribution and changes no other. -/
theorem contributed_merge {merged : ModulePath → Option Contribution}
    {part : Contribution → SortedMap String ν} {collection : SortedMap QualifiedName ν}
    (h : ∀ q, collection.find? q = contributed merged part q) {module : ModulePath}
    (hnew : merged module = none) (c : Contribution) (q : QualifiedName) :
    (collection.insertAll (qualify module (part c))).find? q =
      contributed (Function.update merged module (some c)) part q := by
  rw [SortedMap.find?_insertAll _ (pairwise_qualify module (part c)), findIn?_qualify, h q]
  by_cases hq : q.module = module
  · simp [contributed, hq, hnew]
  · simp [contributed, hq]

end Plan

/-! ## Tracking -/

namespace Registry

/-- The registry of a project stands with every module as `σ` says. The libraries of its plan are
empty because they are only named when the plan is finalized. -/
structure Tracks (r : Registry) (project : String) (σ : ModulePath → ModuleState) : Prop where
  project : r.plan.project = project
  libraries : r.plan.libraries = ∅
  opened : ∀ m, r.opened.find? m = (σ m).opened?
  seen : ∀ m, r.seen.contains m = (σ m).isSeen
  requests : ∀ m, r.libraryRequests.find? m = (σ m).request?
  modules : ∀ m, r.plan.modules.find? m = (σ m).merged?.map fun _ => ()
  headers : ∀ q, r.plan.headers.find? q = Plan.contributed (fun m => (σ m).merged?) (·.headers) q
  units : ∀ q, r.plan.units.find? q = Plan.contributed (fun m => (σ m).merged?) (·.units) q
  fortranUnits : ∀ q,
    r.plan.fortranUnits.find? q = Plan.contributed (fun m => (σ m).merged?) (·.fortranUnits) q
  programs : ∀ q,
    r.plan.programs.find? q = Plan.contributed (fun m => (σ m).merged?) (·.programs) q
  testPrograms : ∀ q,
    r.plan.testPrograms.find? q = Plan.contributed (fun m => (σ m).merged?) (·.testPrograms) q
  fortranPrograms : ∀ q,
    r.plan.fortranPrograms.find? q = Plan.contributed (fun m => (σ m).merged?) (·.fortranPrograms) q
  generated : ∀ q,
    r.plan.generated.find? q = Plan.contributed (fun m => (σ m).merged?) (·.generated) q

namespace Tracks

variable {r r' : Registry} {project : String} {σ : ModulePath → ModuleState}

theorem empty (project : String) : (Registry.empty project).Tracks project fun _ => .unseen where
  project := rfl
  libraries := rfl
  opened _ := rfl
  seen _ := rfl
  requests _ := rfl
  modules _ := rfl
  headers _ := rfl
  units _ := rfl
  fortranUnits _ := rfl
  programs _ := rfl
  testPrograms _ := rfl
  fortranPrograms _ := rfl
  generated _ := rfl

/-- The states of the modules are all there is to a registry. -/
theorem unique (h : r.Tracks project σ) (h' : r'.Tracks project σ) : r = r' := by
  have hplan : r.plan = r'.plan := by
    obtain ⟨⟨_, _, _, _, _, _, _, _, _, _⟩, _, _, _⟩ := r
    obtain ⟨⟨_, _, _, _, _, _, _, _, _, _⟩, _, _, _⟩ := r'
    simp only [Plan.mk.injEq]
    exact ⟨h.project.trans h'.project.symm,
      SortedMap.ext_find? fun k => (h.modules k).trans (h'.modules k).symm,
      SortedMap.ext_find? fun k => (h.headers k).trans (h'.headers k).symm,
      SortedMap.ext_find? fun k => (h.units k).trans (h'.units k).symm,
      SortedMap.ext_find? fun k => (h.fortranUnits k).trans (h'.fortranUnits k).symm,
      SortedMap.ext_find? fun k => (h.programs k).trans (h'.programs k).symm,
      SortedMap.ext_find? fun k => (h.testPrograms k).trans (h'.testPrograms k).symm,
      SortedMap.ext_find? fun k => (h.fortranPrograms k).trans (h'.fortranPrograms k).symm,
      SortedMap.ext_find? fun k => (h.generated k).trans (h'.generated k).symm,
      h.libraries.trans h'.libraries.symm⟩
  have hopened : r.opened = r'.opened :=
    SortedMap.ext_find? fun k => (h.opened k).trans (h'.opened k).symm
  have hseen : r.seen = r'.seen :=
    SortedSet.ext_contains fun k => (h.seen k).trans (h'.seen k).symm
  have hrequests : r.libraryRequests = r'.libraryRequests :=
    SortedMap.ext_find? fun k => (h.requests k).trans (h'.requests k).symm
  obtain ⟨_, _, _, _⟩ := r
  obtain ⟨_, _, _, _⟩ := r'
  simp only [Registry.mk.injEq]
  exact ⟨hplan, hopened, hseen, hrequests⟩

end Tracks

/-! ## One call -/

/-- The states of the modules after the state of one has changed. -/
abbrev setState (σ : ModulePath → ModuleState) (m : ModulePath) (s : ModuleState) :
    ModulePath → ModuleState :=
  Function.update σ m s

section Step

variable {r : Registry} {project : String} {σ : ModulePath → ModuleState}

/-- A state that is merged neither before nor after a change leaves every contribution as it was. -/
theorem merged?_setState {m : ModulePath} {s : ModuleState} (hs : (σ m).merged? = s.merged?) :
    (fun m' => (setState σ m s m').merged?) = fun m' => (σ m').merged? := by
  funext m'
  by_cases hm : m' = m
  · subst hm
    simp [setState, hs]
  · simp [setState, hm]

theorem merged?_setState_merged (σ : ModulePath → ModuleState) (m : ModulePath)
    (c : Contribution) :
    (fun m' => (setState σ m (.merged c) m').merged?) =
      Function.update (fun m' => (σ m').merged?) m (some c) := by
  funext m'
  by_cases hm : m' = m
  · subst hm
    simp [setState, ModuleState.merged?]
  · simp [setState, hm]

/-! What a changed state says of the modules that are open, of those that have been seen and of the
libraries they ask for is what the maps answer after the write that goes with it. -/

theorem Tracks.find?_opened_insert (h : r.Tracks project σ) {m : ModulePath} {s : ModuleState}
    {c : Contribution} (hs : s.opened? = some c) (m' : ModulePath) :
    (r.opened.insert m c).find? m' = (setState σ m s m').opened? := by
  rw [SortedMap.find?_insert_eq_ite]
  by_cases hm : m' = m
  · simp [setState, hm, hs]
  · simp [setState, hm, h.opened m']

theorem Tracks.find?_opened_erase (h : r.Tracks project σ) {m : ModulePath} {s : ModuleState}
    (hs : s.opened? = none) (m' : ModulePath) :
    (r.opened.erase m).find? m' = (setState σ m s m').opened? := by
  rw [SortedMap.find?_erase_eq_ite]
  by_cases hm : m' = m
  · simp [setState, hm, hs]
  · simp [setState, hm, h.opened m']

theorem Tracks.contains_seen_insert (h : r.Tracks project σ) {m : ModulePath} {s : ModuleState}
    (hs : s.isSeen) (m' : ModulePath) :
    (r.seen.insert m ()).contains m' = (setState σ m s m').isSeen := by
  show ((r.seen.insert m ()).find? m').isSome = _
  rw [SortedMap.find?_insert_eq_ite]
  by_cases hm : m' = m
  · simp [setState, hm, hs]
  · simpa [setState, hm, SortedMap.contains] using h.seen m'

theorem Tracks.contains_seen (h : r.Tracks project σ) {m : ModulePath} {s : ModuleState}
    (hs : (σ m).isSeen = s.isSeen) (m' : ModulePath) :
    r.seen.contains m' = (setState σ m s m').isSeen := by
  rw [h.seen m']
  by_cases hm : m' = m
  · simp [setState, hm, hs]
  · simp [setState, hm]

theorem Tracks.find?_requests_merged (h : r.Tracks project σ) {m : ModulePath}
    (hm : (σ m).merged? = none) (c : Contribution) (m' : ModulePath) :
    (if c.library then r.libraryRequests.insert m c.sharedLibrary
      else r.libraryRequests).find? m' = (setState σ m (.merged c) m').request? := by
  by_cases hm' : m' = m
  · -- Before it is merged, nothing is requested of a module.
    have hnone : r.libraryRequests.find? m = none := by
      rw [h.requests m, ModuleState.request?, hm]
      rfl
    rw [hm', setState, Function.update_self]
    split
    · rename_i hlibrary
      simp [SortedMap.find?_insert_eq_ite, ModuleState.request?, ModuleState.merged?, hlibrary]
    · rename_i hlibrary
      simp [hnone, ModuleState.request?, ModuleState.merged?, hlibrary]
  · rw [setState, Function.update_of_ne hm', ← h.requests m']
    split
    · rw [SortedMap.find?_insert_eq_ite, if_neg hm']
    · rfl

theorem Tracks.setUnmerged (h : r.Tracks project σ) {m : ModulePath} {s : ModuleState}
    (hm : (σ m).merged? = none) (hs : s.merged? = none)
    {opened : SortedMap ModulePath Contribution} {seen : SortedSet ModulePath}
    (hopened : ∀ m', opened.find? m' = (setState σ m s m').opened?)
    (hseen : ∀ m', seen.contains m' = (setState σ m s m').isSeen) :
    Tracks { r with opened, seen } project (setState σ m s) := by
  have hmerged : (fun m' => (setState σ m s m').merged?) = fun m' => (σ m').merged? :=
    merged?_setState (hm.trans hs.symm)
  have hmerged' : ∀ m', (setState σ m s m').merged? = (σ m').merged? := congrFun hmerged
  exact {
    project := h.project
    libraries := h.libraries
    opened := hopened
    seen := hseen
    requests := fun m' => by rw [ModuleState.request?, hmerged' m']; exact h.requests m'
    modules := fun m' => by rw [hmerged' m']; exact h.modules m'
    headers := by rw [hmerged]; exact h.headers
    units := by rw [hmerged]; exact h.units
    fortranUnits := by rw [hmerged]; exact h.fortranUnits
    programs := by rw [hmerged]; exact h.programs
    testPrograms := by rw [hmerged]; exact h.testPrograms
    fortranPrograms := by rw [hmerged]; exact h.fortranPrograms
    generated := by rw [hmerged]; exact h.generated }

theorem Tracks.setState_of_eq (h : r.Tracks project σ) {m : ModulePath} {s : ModuleState}
    (hs : s = σ m) : r.Tracks project (setState σ m s) := by
  rwa [setState, hs, Function.update_eq_self]

theorem Tracks.setMerged (h : r.Tracks project σ) {m : ModulePath} {c : Contribution}
    (hm : σ m = .opened c) :
    Tracks { r with
      opened := r.opened.erase m
      libraryRequests :=
        if c.library then r.libraryRequests.insert m c.sharedLibrary else r.libraryRequests
      plan := r.plan.merge m c } project (setState σ m (.merged c)) := by
  have hnew : (fun m' => (σ m').merged?) m = none := by simp only [hm]; rfl
  have hmerged := merged?_setState_merged σ m c
  exact {
    project := h.project
    libraries := h.libraries
    opened := h.find?_opened_erase rfl
    seen := h.contains_seen (by rw [hm]; rfl)
    requests := h.find?_requests_merged (by rw [hm]; rfl) c
    modules := fun m' => by
      show (r.plan.modules.insert m ()).find? m' = _
      rw [SortedMap.find?_insert_eq_ite]
      by_cases hm' : m' = m
      · simp [setState, hm', ModuleState.merged?]
      · simp [setState, hm', h.modules m']
    headers := by rw [hmerged]; exact Plan.contributed_merge h.headers hnew c
    units := by rw [hmerged]; exact Plan.contributed_merge h.units hnew c
    fortranUnits := by rw [hmerged]; exact Plan.contributed_merge h.fortranUnits hnew c
    programs := by rw [hmerged]; exact Plan.contributed_merge h.programs hnew c
    testPrograms := by rw [hmerged]; exact Plan.contributed_merge h.testPrograms hnew c
    fortranPrograms := by rw [hmerged]; exact Plan.contributed_merge h.fortranPrograms hnew c
    generated := by rw [hmerged]; exact Plan.contributed_merge h.generated hnew c }

theorem tracks_beginModule (h : r.Tracks project σ) (m : ModulePath) :
    (r.beginModule m).1.Tracks project (setState σ m ((σ m).step m .beginModule).1) ∧
      (r.beginModule m).2 = ((σ m).step m .beginModule).2 := by
  have hseen := h.seen m
  unfold beginModule
  cases hm : σ m with
  | unseen =>
    rw [hm] at hseen
    rw [if_neg (by simp [hseen, ModuleState.isSeen])]
    exact ⟨h.setUnmerged (by rw [hm]; rfl) rfl (h.find?_opened_insert rfl)
      (h.contains_seen_insert rfl), rfl⟩
  | opened c | rejected | merged c =>
    rw [hm] at hseen
    rw [if_pos (by simp [hseen, ModuleState.isSeen])]
    exact ⟨h.setState_of_eq hm.symm, rfl⟩

theorem tracks_modifyOpened (h : r.Tracks project σ) (m : ModulePath)
    (f : Contribution → Contribution) :
    (r.modifyOpened m f).1.Tracks project (setState σ m ((σ m).modify m f).1) ∧
      (r.modifyOpened m f).2 = ((σ m).modify m f).2 := by
  have hopened := h.opened m
  unfold modifyOpened
  cases hm : σ m with
  | opened c =>
    rw [hm] at hopened
    rw [show r.opened.find? m = some c from hopened]
    exact ⟨h.setUnmerged (by rw [hm]; rfl) rfl (h.find?_opened_insert rfl)
      (h.contains_seen (by rw [hm]; rfl)), rfl⟩
  | unseen | rejected | merged c =>
    rw [hm] at hopened
    rw [show r.opened.find? m = none from hopened]
    exact ⟨h.setState_of_eq hm.symm, rfl⟩

theorem tracks_endModule (h : r.Tracks project σ) (m : ModulePath) :
    (r.endModule m).1.Tracks project (setState σ m ((σ m).step m .endModule).1) ∧
      (r.endModule m).2 = ((σ m).step m .endModule).2 := by
  have hopened := h.opened m
  unfold endModule
  cases hm : σ m with
  | opened c =>
    rw [hm] at hopened
    rw [show r.opened.find? m = some c from hopened]
    cases hc : c.objectClash? with
    | some clash =>
      simp only [ModuleState.step, hc]
      exact ⟨h.setUnmerged (by rw [hm]; rfl) rfl (h.find?_opened_erase rfl)
        (h.contains_seen (by rw [hm]; rfl)), trivial⟩
    | none =>
      simp only [ModuleState.step, hc]
      exact ⟨h.setMerged hm, trivial⟩
  | unseen | rejected | merged c =>
    rw [hm] at hopened
    rw [show r.opened.find? m = none from hopened]
    exact ⟨h.setState_of_eq hm.symm, rfl⟩

/-- A call about a module changes the state of that module alone, and ends as that state says. -/
theorem tracks_step (h : r.Tracks project σ) (m : ModulePath) (call : Call) :
    (r.step m call).1.Tracks project (setState σ m ((σ m).step m call).1) ∧
      (r.step m call).2 = ((σ m).step m call).2 := by
  cases call with
  | beginModule => exact tracks_beginModule h m
  | declare kind names => exact tracks_modifyOpened h m _
  | declareUnit name header => exact tracks_modifyOpened h m _
  | declareRule file rule => exact tracks_modifyOpened h m _
  | requestLibrary shared => exact tracks_modifyOpened h m _
  | endModule => exact tracks_endModule h m

end Step

/-! ## What a registry is finalized to -/

section Finish

variable {r : Registry} {project : String} {σ : ModulePath → ModuleState}

theorem foldl_addLibrary (naming : LibraryNaming) (requests : List (ModulePath × Bool))
    (plan : Plan) :
    requests.foldl (fun plan (module, shared) =>
        plan.addLibrary ⟨module, naming.libraryName module, shared⟩) plan =
      { plan with
        libraries := plan.libraries.insertAll (requests.map fun (module, shared) =>
          (module, ⟨module, naming.libraryName module, shared⟩)) } := by
  induction requests generalizing plan with
  | nil => rfl
  | cons request requests ih => exact ih _

theorem findIn?_map_library (naming : LibraryNaming) (requests : List (ModulePath × Bool))
    (m : ModulePath) :
    SortedMap.findIn? m (requests.map fun (module, shared) =>
        (module, (⟨module, naming.libraryName module, shared⟩ : Library))) =
      (SortedMap.findIn? m requests).map (⟨m, naming.libraryName m, ·⟩) := by
  induction requests with
  | nil => rfl
  | cons request requests ih =>
    obtain ⟨module, shared⟩ := request
    simp only [List.map_cons, SortedMap.findIn?, ih]
    by_cases hm : compare m module = .eq
    · rw [if_pos hm, if_pos hm, Std.LawfulEqCmp.eq_of_compare hm]
      rfl
    · rw [if_neg hm, if_neg hm]

/-- Where no module is open, the plan is finished; each library is that of a merged module which
asked for it. -/
theorem Tracks.finalize_eq_ok (h : r.Tracks project σ) (hopened : ∀ m, (σ m).opened? = none)
    (naming : LibraryNaming) :
    ∃ libraries, r.finalize naming = .ok { r.plan with libraries } ∧
      ∀ m, libraries.find? m = (σ m).request?.map (⟨m, naming.libraryName m, ·⟩) := by
  have hkeys : r.opened.keys = [] := List.eq_nil_iff_forall_not_mem.mpr fun m hm => by
    obtain ⟨c, hc⟩ := SortedMap.mem_keys_iff.mp hm
    rw [h.opened m, hopened m] at hc
    cases hc
  refine ⟨_, by rw [finalize, hkeys]; exact congrArg _ (foldl_addLibrary _ _ _), fun m => ?_⟩
  rw [SortedMap.find?_insertAll, findIn?_map_library, h.libraries, SortedMap.find?_empty,
    Option.or_none]
  · exact congrArg _ (h.requests m)
  · exact List.pairwise_map.mpr r.libraryRequests.pairwise_entries

theorem Tracks.finalize_eq_error (h : r.Tracks project σ) {m : ModulePath}
    (hopened : (σ m).opened?.isSome) (naming : LibraryNaming) :
    ∃ least, r.finalize naming = .error (.unclosedModule least) ∧ (σ least).opened?.isSome ∧
      ∀ m', (σ m').opened?.isSome → (compare least m').isLE := by
  have hmem : ∀ m', m' ∈ r.opened.keys ↔ (σ m').opened?.isSome := fun m' => by
    rw [SortedMap.mem_keys_iff, h.opened m', Option.isSome_iff_exists]
  cases hkeys : r.opened.keys with
  | nil => exact absurd ((hmem m).mpr hopened) (hkeys ▸ List.not_mem_nil)
  | cons least rest =>
    have hsorted : r.opened.keys.Pairwise fun a b => compare a b = .lt :=
      List.pairwise_map.mpr r.opened.sorted
    rw [hkeys] at hsorted hmem
    refine ⟨least, by rw [finalize, hkeys], (hmem least).mp List.mem_cons_self, fun m' hm' => ?_⟩
    rcases List.mem_cons.mp ((hmem m').mpr hm') with rfl | hrest
    · exact Std.ReflCmp.isLE_rfl
    · rw [(List.pairwise_cons.mp hsorted).1 m' hrest]
      rfl

/-- A finished plan is that of a registry in which no module is open. -/
theorem Tracks.eq_of_finalize (h : r.Tracks project σ) {naming : LibraryNaming} {plan : Plan}
    (hplan : r.finalize naming = .ok plan) :
    (∀ m, (σ m).opened? = none) ∧ ∃ libraries, plan = { r.plan with libraries } ∧
      ∀ m, libraries.find? m = (σ m).request?.map (⟨m, naming.libraryName m, ·⟩) := by
  have hopened : ∀ m, (σ m).opened? = none := fun m => by
    by_contra hm
    obtain ⟨least, herror, -⟩ := h.finalize_eq_error (Option.isSome_iff_ne_none.mpr hm) naming
    rw [hplan] at herror
    cases herror
  obtain ⟨libraries, hok, hlibraries⟩ := h.finalize_eq_ok hopened naming
  rw [hplan] at hok
  cases hok
  exact ⟨hopened, libraries, rfl, hlibraries⟩

end Finish

end Registry

end ModularBuild
