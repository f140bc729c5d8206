import ModularBuild.Manifest.Module
import ModularBuild.Proofs.Plan.Artifacts
import ModularBuild.Proofs.Plan.Declarations

/-!
# What a module's manifest declares

A manifest lists names, and a registry is fed calls. Here what the calls of a manifest contribute is
read off its lists: every listed name and no other (`mem_names_contribution`), the header flag of
the last entry of a unit (`find?_units_contribution`) and the rule of the last entry of a file that
gives one (`find?_generated_contribution`). Nothing of it clashes exactly if no name is listed under
two kinds that are compiled to objects (`objectClash?_contribution`).

A manifest that is fed to a registry is merged as a whole or refused as a whole
(`ModuleManifest.stepAll_unseen`), so what a registry and its finished plan gain by it is what it
lists: `declareInto_exact`.
-/

namespace ModularBuild

/-! ## Calls -/

namespace Registry.Call

variable {α : Type} {said? : Call → Option α}

theorem newest?_eq_none {calls : List Call} (h : ∀ call ∈ calls, said? call = none) :
    newest? said? calls = none :=
  List.findSome?_eq_none_iff.mpr fun call hcall => h call (List.mem_reverse.mp hcall)

theorem newest?_of_part {before part after : List Call}
    (hbefore : ∀ call ∈ before, said? call = none) (hafter : ∀ call ∈ after, said? call = none) :
    newest? said? (before ++ part ++ after) = newest? said? part := by
  have happend : ∀ calls later, newest? said? (calls ++ later) =
      (newest? said? later).or (newest? said? calls) := fun calls later => by
    rw [newest?, List.reverse_append, List.findSome?_append]
    rfl
  rw [happend, happend, newest?_eq_none hbefore, newest?_eq_none hafter, Option.or_none,
    Option.none_or]

theorem newest?_map {β : Type} (call : β → Call) (l : List β) :
    newest? said? (l.map call) = l.reverse.findSome? fun x => said? (call x) := by
  rw [newest?, ← List.map_reverse, List.findSome?_map]
  rfl

end Registry.Call

namespace ModuleManifest

open Registry (Call)
open Registry.Call (newest? newest?_of_part newest?_map)

variable {manifest : ModuleManifest} {m : ModulePath} {kind : DeclKind} {name file : String}
  {call : Call}

theorem mem_libraryCalls : call ∈ manifest.libraryCalls ↔
    (manifest.library || manifest.sharedLibrary) ∧
      call = .requestLibrary manifest.sharedLibrary := by
  unfold libraryCalls
  split <;> simp [*]

theorem mem_calls : call ∈ manifest.calls ↔
    call = .beginModule ∨ call = .declare .headerUnit manifest.headers ∨
    (∃ u ∈ manifest.units, unitCall u = call) ∨
    call = .declare .fortranUnit manifest.fortranUnits ∨
    call = .declare .program manifest.programs ∨
    call = .declare .testProgram manifest.testPrograms ∨
    call = .declare .fortranProgram manifest.fortranPrograms ∨
    (∃ g ∈ manifest.generated, generatedCall g = call) ∨
    ((manifest.library || manifest.sharedLibrary) ∧
      call = .requestLibrary manifest.sharedLibrary) ∨
    call = .endModule := by
  simp only [calls, List.mem_append, List.mem_cons, List.mem_map, List.not_mem_nil, or_false,
    mem_libraryCalls, or_assoc]

theorem declares_generatedCall {g : GeneratedEntry} :
    (generatedCall g).Declares kind name ↔ kind = .generated ∧ name = g.path := by
  unfold generatedCall
  split
  · simp [Call.Declares]
  · rfl

/-! ## What is listed -/

/-- The names that the manifest lists under a kind. -/
def listed (manifest : ModuleManifest) : DeclKind → List String
  | .headerUnit => manifest.headers
  | .compiledUnit => manifest.units.map (·.name)
  | .fortranUnit => manifest.fortranUnits
  | .program => manifest.programs
  | .testProgram => manifest.testPrograms
  | .fortranProgram => manifest.fortranPrograms
  | .generated => manifest.generated.map (·.path)

/-- The header flag of the last entry of a unit. -/
def header? (manifest : ModuleManifest) (unit : String) : Option Bool :=
  manifest.units.reverse.findSome? fun u => if u.name = unit then some u.header else none

/-- The rule of the last entry of a file that gives one, by a command or by inputs. -/
def rule? (manifest : ModuleManifest) (file : String) : Option GeneratedRule :=
  manifest.generated.reverse.findSome? fun g =>
    if g.path = file ∧ (g.command ≠ [] ∨ g.inputs ≠ []) then some ⟨g.command, g.inputs⟩ else none

/-- No name is listed under two kinds that are compiled to objects. -/
def ObjectsApart (manifest : ModuleManifest) : Prop :=
  ∀ kind kind' : DeclKind, kind.producesObject → kind'.producesObject → kind ≠ kind' →
    (manifest.listed kind).Disjoint (manifest.listed kind')

/-- What the manifest contributes to the plan. -/
def contribution (manifest : ModuleManifest) : Contribution := .ofCalls manifest.calls

theorem mem_names_contribution :
    name ∈ manifest.contribution.names kind ↔ name ∈ manifest.listed kind := by
  rw [contribution, Contribution.mem_names_ofCalls]
  simp only [mem_calls, or_and_right, exists_or, exists_eq_left, and_assoc, exists_and_left,
    exists_exists_and_eq_and, declares_generatedCall]
  cases kind <;> simp [Call.Declares, unitCall, listed, eq_comm (a := name)]

theorem header?_unitCall (u : UnitEntry) :
    (unitCall u).header? name = if u.name = name then some u.header else none :=
  if_congr eq_comm rfl rfl

theorem nodup_names_contribution (manifest : ModuleManifest) (kind : DeclKind) :
    (manifest.contribution.names kind).Nodup := by
  cases kind <;> exact SortedMap.nodup_keys _

theorem find?_units_contribution :
    manifest.contribution.units.find? name = manifest.header? name := by
  have hcalls : manifest.calls = [.beginModule, .declare .headerUnit manifest.headers] ++
      manifest.units.map unitCall ++
      ([.declare .fortranUnit manifest.fortranUnits, .declare .program manifest.programs,
        .declare .testProgram manifest.testPrograms,
        .declare .fortranProgram manifest.fortranPrograms] ++
        manifest.generated.map generatedCall ++ manifest.libraryCalls ++ [.endModule]) := by
    simp only [calls, List.append_assoc]
  rw [contribution, Contribution.find?_units_ofCalls, hcalls, newest?_of_part, newest?_map]
  · simp only [header?_unitCall, header?]
  · simp [Call.header?]
  · intro call hcall
    simp only [List.mem_append, List.mem_cons, List.mem_map, List.not_mem_nil, or_false,
      mem_libraryCalls, or_assoc] at hcall
    rcases hcall with rfl | rfl | rfl | rfl | ⟨g, -, rfl⟩ | ⟨-, rfl⟩ | rfl
    case inr.inr.inr.inr.inl =>
      unfold generatedCall
      split <;> rfl
    all_goals rfl

theorem rule?_generatedCall (g : GeneratedEntry) : (generatedCall g).rule? file =
    if g.path = file ∧ (g.command ≠ [] ∨ g.inputs ≠ []) then some ⟨g.command, g.inputs⟩
    else none := by
  rw [generatedCall]
  by_cases hplain : g.command.isEmpty && g.inputs.isEmpty
  · rw [if_pos hplain, if_neg (by simp_all)]
    rfl
  · rw [if_neg hplain, Call.rule?]
    have hgives : g.command ≠ [] ∨ g.inputs ≠ [] := by
      simpa [Decidable.imp_iff_not_or] using hplain
    simp only [hgives, and_true, eq_comm]

theorem find?_generated_contribution : manifest.contribution.generated.find? file =
    if file ∈ manifest.listed .generated then some (manifest.rule? file) else none := by
  have hdeclared : (∃ call ∈ manifest.calls, call.Declares .generated file) ↔
      file ∈ manifest.listed .generated := by
    rw [← Contribution.mem_names_ofCalls]
    exact mem_names_contribution
  have hcalls : manifest.calls = ([.beginModule, .declare .headerUnit manifest.headers] ++
      manifest.units.map unitCall ++
      [.declare .fortranUnit manifest.fortranUnits, .declare .program manifest.programs,
        .declare .testProgram manifest.testPrograms,
        .declare .fortranProgram manifest.fortranPrograms]) ++
        manifest.generated.map generatedCall ++ (manifest.libraryCalls ++ [.endModule]) := by
    simp only [calls, List.append_assoc]
  have hrule : newest? (·.rule? file) manifest.calls = manifest.rule? file := by
    rw [hcalls, newest?_of_part, newest?_map]
    · simp only [rule?_generatedCall, rule?]
    · intro call hcall
      simp only [List.mem_append, List.mem_cons, List.mem_map, List.not_mem_nil, or_false,
        or_assoc] at hcall
      rcases hcall with rfl | rfl | ⟨u, -, rfl⟩ | rfl | rfl | rfl | rfl <;> rfl
    · intro call hcall
      rw [List.mem_append, mem_libraryCalls, List.mem_singleton] at hcall
      rcases hcall with ⟨-, rfl⟩ | rfl <;> rfl
  rw [contribution, Contribution.find?_generated_ofCalls]
  simp only [hdeclared, hrule]

theorem requestLibrary_mem_calls {shared : Bool} : .requestLibrary shared ∈ manifest.calls ↔
    (manifest.library || manifest.sharedLibrary) ∧ shared = manifest.sharedLibrary := by
  have hgenerated : ∀ g, generatedCall g ≠ .requestLibrary shared := fun g => by
    unfold generatedCall
    split <;> simp
  simp [mem_calls, unitCall, hgenerated]

theorem library_contribution :
    manifest.contribution.library = (manifest.library || manifest.sharedLibrary) := by
  rw [Bool.eq_iff_iff, contribution, Contribution.library_ofCalls]
  simp [requestLibrary_mem_calls]

theorem sharedLibrary_contribution :
    manifest.contribution.sharedLibrary = manifest.sharedLibrary := by
  rw [Bool.eq_iff_iff, contribution, Contribution.sharedLibrary_ofCalls, requestLibrary_mem_calls]
  cases manifest.sharedLibrary <;> simp

/-! ## Clashes -/

/-- Nothing of a manifest clashes exactly if no name is listed under two kinds that are compiled to
objects. -/
theorem objectClash?_contribution :
    manifest.contribution.objectClash? = none ↔ manifest.ObjectsApart := by
  constructor
  · intro h kind kind' hkind hkind' hne name hname hname'
    exact Contribution.disjoint_names h hkind hkind' hne (mem_names_contribution.mpr hname)
      (mem_names_contribution.mpr hname')
  · intro h
    rw [Contribution.objectClash?_eq_none_iff, List.nodup_flatMap]
    refine ⟨fun kind _ => manifest.nodup_names_contribution kind, ?_⟩
    have hnodup : (DeclKind.all.filter (·.producesObject)).Nodup := by decide
    refine hnodup.imp_of_mem fun hkind hkind' hne name hname hname' => ?_
    exact h _ _ (List.mem_filter.mp hkind).2 (List.mem_filter.mp hkind').2 hne
      (mem_names_contribution.mp hname) (mem_names_contribution.mp hname')

end ModuleManifest

/-! ## Feeding a manifest to a registry

A module's state tells what a manifest makes of it: only a new module is opened, and then the
manifest is merged as a whole or refused as a whole. -/

namespace Registry.Call

def IsDeclaration : Call → Prop
  | .beginModule | .endModule => False
  | .declare _ _ | .declareUnit _ _ | .declareRule _ _ | .requestLibrary _ => True

end Registry.Call

namespace ModuleState

open Registry (Call)

variable {m : ModulePath} {s : ModuleState} {c : Contribution}

/-- Makes calls about the module until one fails. -/
def stepAll (m : ModulePath) (s : ModuleState) : List Registry.Call → Step
  | [] => (s, .ok ())
  | call :: calls =>
    match s.step m call with
    | (s', .ok ()) => stepAll m s' calls
    | failed => failed

theorem step_opened {call : Call} (h : call.IsDeclaration) :
    (opened c).step m call = (opened (call.change c), .ok ()) := by
  cases call with
  | beginModule | endModule => exact h.elim
  | declare | declareUnit | declareRule | requestLibrary => rfl

theorem stepAll_opened {calls : List Call} (h : ∀ call ∈ calls, call.IsDeclaration)
    (later : List Call) : (opened c).stepAll m (calls ++ later) =
      (opened (calls.foldl Call.change c)).stepAll m later := by
  induction calls generalizing c with
  | nil => rfl
  | cons call calls ih =>
    obtain ⟨hcall, hcalls⟩ := List.forall_mem_cons.mp h
    rw [List.cons_append, stepAll, step_opened hcall]
    exact ih hcalls

end ModuleState

namespace Registry

variable {r : Registry} {project : String} {σ : ModulePath → ModuleState}

/-- What calls about a module do until one fails is told by the module's state. -/
theorem tracks_stepAll (h : r.Tracks project σ) (m : ModulePath) (calls : List Call) :
    (r.stepAll m calls).1.Tracks project (setState σ m ((σ m).stepAll m calls).1) ∧
      (r.stepAll m calls).2 = ((σ m).stepAll m calls).2 := by
  induction calls generalizing r σ with
  | nil => exact ⟨h.setState_of_eq rfl, rfl⟩
  | cons call calls ih =>
    obtain ⟨hstep, hresult⟩ := tracks_step h m call
    rw [stepAll, ModuleState.stepAll]
    rcases hr : r.step m call with ⟨r', _ | _⟩ <;> rcases hs : (σ m).step m call with ⟨s', _ | _⟩ <;>
      rw [hr, hs] at hstep hresult
    · exact ⟨hstep, hresult⟩
    · cases hresult
    · cases hresult
    · have hrest := ih hstep
      simp only [setState, Function.update_self, Function.update_idem] at hrest
      exact hrest

end Registry

namespace ModuleManifest

open Registry (Call)

variable {manifest : ModuleManifest} {m : ModulePath} {s : ModuleState} {call : Call}

/-- The calls of a manifest between the one that opens the module and the one that closes it. -/
def declarations (manifest : ModuleManifest) : List Call :=
  .declare .headerUnit manifest.headers :: manifest.units.map unitCall ++
    [.declare .fortranUnit manifest.fortranUnits, .declare .program manifest.programs,
      .declare .testProgram manifest.testPrograms,
      .declare .fortranProgram manifest.fortranPrograms] ++
    manifest.generated.map generatedCall ++ manifest.libraryCalls

theorem calls_eq (manifest : ModuleManifest) :
    manifest.calls = .beginModule :: (manifest.declarations ++ [.endModule]) := by
  simp [calls, declarations]

theorem isDeclaration_of_mem_declarations (h : call ∈ manifest.declarations) :
    call.IsDeclaration := by
  simp only [declarations, List.mem_append, List.mem_cons, List.mem_map, List.not_mem_nil, or_false,
    mem_libraryCalls, or_assoc] at h
  rcases h with rfl | ⟨u, -, rfl⟩ | rfl | rfl | rfl | rfl | ⟨g, -, rfl⟩ | ⟨-, rfl⟩
  case inr.inr.inr.inr.inr.inr.inl =>
    unfold generatedCall
    split <;> trivial
  all_goals trivial

/-- A manifest whose module is new is merged with all it declares, unless some of it clashes. -/
theorem stepAll_unseen : ModuleState.unseen.stepAll m manifest.calls =
    match manifest.contribution.objectClash? with
    | some clash => (.rejected, .error (.objectNameClash m clash))
    | none => (.merged manifest.contribution, .ok ()) := by
  have hcontribution : manifest.contribution = manifest.declarations.foldl Call.change {} := by
    rw [contribution, Contribution.ofCalls, calls_eq, List.foldl_cons, List.foldl_append]
    rfl
  rw [calls_eq]
  show (ModuleState.opened {}).stepAll m (manifest.declarations ++ [.endModule]) = _
  rw [ModuleState.stepAll_opened fun _ => isDeclaration_of_mem_declarations, ← hcontribution,
    ModuleState.stepAll, ModuleState.step]
  cases manifest.contribution.objectClash? <;> rfl

theorem stepAll_unseen_eq_ok_iff {c : Contribution} :
    ModuleState.unseen.stepAll m manifest.calls = (.merged c, .ok ()) ↔
      manifest.ObjectsApart ∧ c = manifest.contribution := by
  rw [stepAll_unseen, ← objectClash?_contribution]
  cases manifest.contribution.objectClash? <;> simp [eq_comm]

theorem stepAll_of_isSeen (h : s.isSeen) :
    s.stepAll m manifest.calls = (s, .error (.duplicateModule m)) := by
  rw [calls_eq, ModuleState.stepAll]
  cases s with
  | unseen => cases h
  | opened c | rejected | merged c => rfl

/-- A manifest that is accepted is that of a new module, which it merges. -/
theorem stepAll_calls (h : (s.stepAll m manifest.calls).2 = .ok ()) :
    s = .unseen ∧ ∃ c, s.stepAll m manifest.calls = (.merged c, .ok ()) := by
  cases s with
  | unseen =>
    refine ⟨rfl, ?_⟩
    rw [stepAll_unseen] at h ⊢
    cases hclash : manifest.contribution.objectClash? with
    | some clash =>
      rw [hclash] at h
      cases h
    | none => exact ⟨_, rfl⟩
  | opened c | rejected | merged c =>
    rw [stepAll_of_isSeen rfl] at h
    cases h

end ModuleManifest

/-! ## What a manifest adds to a plan -/

/-- Whether a library is asked for, and whether a shared one. -/
def ModuleManifest.request? (manifest : ModuleManifest) : Option Bool :=
  if manifest.library || manifest.sharedLibrary then some manifest.sharedLibrary else none

theorem ModuleState.request?_merged (manifest : ModuleManifest) :
    (merged manifest.contribution).request? = manifest.request? := by
  rw [request?, merged?, Option.bind_some, ModuleManifest.library_contribution,
    ModuleManifest.sharedLibrary_contribution, ModuleManifest.request?]

/-- A plan becomes another by a module with what its manifest lists. All that is under the path of
the module is the manifest's, and what is under any other path is as it was. The libraries are not
among it: they are named when a plan is finalized. -/
structure Plan.Gains (plan plan' : Plan) (m : ModulePath) (manifest : ModuleManifest) : Prop where
  project : plan'.project = plan.project
  modules : ∀ m', m' ∈ plan'.modules.keys ↔ m' = m ∨ m' ∈ plan.modules.keys
  names : ∀ kind q, q ∈ plan'.names kind ↔
    if q.module = m then q.name ∈ manifest.listed kind else q ∈ plan.names kind
  /-- A unit has the header flag of its last entry. -/
  hasHeader : ∀ q, plan'.units.find? q =
    if q.module = m then manifest.header? q.name else plan.units.find? q
  /-- A generated file has the rule of its last entry that gives one. -/
  rules : ∀ q, plan'.generated.find? q =
    if q.module = m then
      if q.name ∈ manifest.listed .generated then some (manifest.rule? q.name) else none
    else plan.generated.find? q

/-- The libraries of a plan become those of another by the one that a manifest asks for. -/
def Plan.GainsLibrary (plan plan' : Plan) (m : ModulePath) (manifest : ModuleManifest)
    (naming : LibraryNaming) : Prop :=
  ∀ m', plan'.libraries.find? m' =
    if m' = m then manifest.request?.map (⟨m, naming.libraryName m, ·⟩) else plan.libraries.find? m'

namespace Registry

/-- A registry becomes another by a module that has been opened, declared and closed. -/
structure Gains (r r' : Registry) (m : ModulePath) (manifest : ModuleManifest) : Prop where
  plan : r.plan.Gains r'.plan m manifest
  requests : ∀ m', r'.libraryRequests.find? m' =
    if m' = m then manifest.request? else r.libraryRequests.find? m'
  opened : r'.opened = r.opened
  seen : ∀ m', r'.seen.contains m' ↔ m' = m ∨ r.seen.contains m'

variable {r r' : Registry} {project : String} {σ : ModulePath → ModuleState} {m : ModulePath}
  {manifest : ModuleManifest} {naming : LibraryNaming} {plan : Plan}

theorem Tracks.plan_gains (h : r.Tracks project σ)
    (h' : r'.Tracks project (setState σ m (.merged manifest.contribution))) :
    r.plan.Gains r'.plan m manifest where
  project := h'.project.trans h.project.symm
  modules m' := by
    rw [SortedMap.mem_keys_iff, SortedMap.mem_keys_iff, h'.modules m', h.modules m']
    by_cases hm' : m' = m <;> simp [setState, hm', ModuleState.merged?]
  names kind q := by
    rw [h'.mem_names_iff, h.mem_names_iff]
    by_cases hq : q.module = m
    · simp [setState, hq, ModuleState.merged?, ModuleManifest.mem_names_contribution]
    · simp [setState, hq]
  hasHeader q := by
    rw [h'.units q, h.units q, Plan.contributed, Plan.contributed]
    by_cases hq : q.module = m
    · simp [setState, hq, ModuleState.merged?, ModuleManifest.find?_units_contribution]
    · simp [setState, hq]
  rules q := by
    rw [h'.generated q, h.generated q, Plan.contributed, Plan.contributed]
    by_cases hq : q.module = m
    · simp [setState, hq, ModuleState.merged?, ModuleManifest.find?_generated_contribution]
    · simp [setState, hq]

theorem Tracks.gains (h : r.Tracks project σ) (hm : σ m = .unseen)
    (h' : r'.Tracks project (setState σ m (.merged manifest.contribution))) :
    r.Gains r' m manifest where
  plan := h.plan_gains h'
  requests m' := by
    rw [h'.requests m', h.requests m']
    by_cases hm' : m' = m
    · simp [setState, hm', ModuleState.request?_merged]
    · simp [setState, hm']
  opened := SortedMap.ext_find? fun m' => by
    rw [h'.opened m', h.opened m']
    by_cases hm' : m' = m
    · simp [setState, hm', hm, ModuleState.opened?]
    · simp [setState, hm']
  seen m' := by
    rw [h'.seen m', h.seen m']
    by_cases hm' : m' = m <;> simp [setState, hm', ModuleState.isSeen]

theorem Tracks.finalize_gains (h : r.Tracks project σ)
    (h' : r'.Tracks project (setState σ m (.merged manifest.contribution)))
    (hplan : r.finalize naming = .ok plan) :
    ∃ plan', r'.finalize naming = .ok plan' ∧ plan.Gains plan' m manifest ∧
      plan.GainsLibrary plan' m manifest naming := by
  obtain ⟨hclosed, libraries, rfl, hlibraries⟩ := h.eq_of_finalize hplan
  have hclosed' : ∀ m', (setState σ m (.merged manifest.contribution) m').opened? = none := by
    intro m'
    by_cases hm' : m' = m
    · simp [setState, hm', ModuleState.opened?]
    · simpa [setState, hm'] using hclosed m'
  obtain ⟨libraries', hplan', hlibraries'⟩ := h'.finalize_eq_ok hclosed' naming
  have hgains := h.plan_gains h'
  refine ⟨_, hplan', ⟨hgains.project, hgains.modules, fun kind q => ?_, hgains.hasHeader,
    hgains.rules⟩, fun m' => ?_⟩
  · rw [Plan.names_libraries, Plan.names_libraries]
    exact hgains.names kind q
  · show libraries'.find? m' = _
    rw [hlibraries' m', hlibraries m']
    by_cases hm' : m' = m
    · simp [setState, hm', ModuleState.request?_merged]
    · simp [setState, hm']

end Registry

namespace ModuleManifest

variable {manifest : ModuleManifest} {m : ModulePath} {r : Registry} {project : String}
  {σ : ModulePath → ModuleState}

theorem declareInto_of_isSeen (h : r.Tracks project σ) (hm : (σ m).isSeen) :
    manifest.declareInto r m = (r, .error (.duplicateModule m)) := by
  obtain ⟨htracks, hresult⟩ := Registry.tracks_stepAll h m manifest.calls
  rw [stepAll_of_isSeen hm] at htracks hresult
  exact Prod.ext ((htracks.unique (h.setState_of_eq rfl))) hresult

/-- A manifest of a new module is refused exactly if two of its names clash. -/
theorem declareInto_of_unseen (h : r.Tracks project σ) (hm : σ m = .unseen) :
    ((∃ clash, (manifest.declareInto r m).2 = .error (.objectNameClash m clash)) ↔
        ¬ manifest.ObjectsApart) ∧
      (manifest.ObjectsApart → ∃ r', manifest.declareInto r m = (r', .ok ()) ∧
        r'.Tracks project (Registry.setState σ m (.merged manifest.contribution))) := by
  obtain ⟨htracks, hresult⟩ := Registry.tracks_stepAll h m manifest.calls
  rw [hm, stepAll_unseen] at htracks hresult
  rw [← objectClash?_contribution, declareInto]
  cases hclash : manifest.contribution.objectClash? with
  | some clash =>
    rw [hclash] at hresult
    exact ⟨by simp [hresult], nofun⟩
  | none =>
    rw [hclash] at htracks hresult
    exact ⟨by simp [hresult], fun _ => ⟨_, Prod.ext rfl hresult, htracks⟩⟩

/-- **A manifest declares exactly its content.** Whatever calls a registry has seen, a manifest for
a module that was begun before is refused, and nothing changes. For another module it is refused
exactly if a name is listed under two kinds that are compiled to objects. Otherwise the registry
gains the module with what the manifest lists, and so does the plan it is finalized to; a module
that is still open is reported as before. -/
theorem declareInto_exact (project : String) (calls : List (ModulePath × Registry.Call))
    (manifest : ModuleManifest) (m : ModulePath) :
    let r := ((Registry.empty project).run calls).1
    ((m, .beginModule) ∈ calls → manifest.declareInto r m = (r, .error (.duplicateModule m))) ∧
      ((m, .beginModule) ∉ calls →
        ((∃ clash, (manifest.declareInto r m).2 = .error (.objectNameClash m clash)) ↔
            ¬ manifest.ObjectsApart) ∧
          (manifest.ObjectsApart → ∃ r', manifest.declareInto r m = (r', .ok ()) ∧
            r.Gains r' m manifest ∧
            ∀ naming, (∀ plan, r.finalize naming = .ok plan →
                ∃ plan', r'.finalize naming = .ok plan' ∧ plan.Gains plan' m manifest ∧
                  plan.GainsLibrary plan' m manifest naming) ∧
              ∀ e, r.finalize naming = .error e → r'.finalize naming = .error e)) := by
  intro r
  have htracks : r.Tracks project _ := (Registry.tracks_run (.empty project) calls).1
  rw [← Registry.seen_run (m := m), htracks.seen m]
  refine ⟨declareInto_of_isSeen htracks, fun hunseen => ?_⟩
  have hm := ModuleState.eq_unseen_of_not_isSeen hunseen
  refine ⟨(declareInto_of_unseen htracks hm).1, fun hapart => ?_⟩
  obtain ⟨r', hdeclare, htracks'⟩ := (declareInto_of_unseen htracks hm).2 hapart
  have hgains := htracks.gains hm htracks'
  refine ⟨r', hdeclare, hgains, fun naming =>
    ⟨fun plan => htracks.finalize_gains htracks', fun e herror => ?_⟩⟩
  -- What is still open is reported, and the same modules are open.
  rw [Registry.finalize, hgains.opened]
  rw [Registry.finalize] at herror
  split at herror <;> simp_all

/-- A unit is listed twice, with a header and without, and a generated file with a rule and then
without. -/
def repeating : ModuleManifest :=
  { units := [⟨"foo", true⟩, ⟨"foo", false⟩]
    generated := [⟨"table.h", ["make-table"], []⟩, ⟨"table.h", [], []⟩]
    sharedLibrary := true }

/-- The unit has no header, the file keeps its rule, and the program of another module is there as
before; the manifest cannot be declared twice. -/
theorem declareInto_repeating :
    let calls : List (ModulePath × Registry.Call) :=
      [(⟨"B"⟩, .beginModule), (⟨"B"⟩, .declare .program ["main"]), (⟨"B"⟩, .endModule)]
    let r := ((Registry.empty "demo").run calls).1
    (∃ r', repeating.declareInto r ⟨"A"⟩ = (r', .ok ()) ∧
      r'.plan.units.find? ⟨⟨"A"⟩, "foo"⟩ = some false ∧
      r'.plan.generated.find? ⟨⟨"A"⟩, "table.h"⟩ = some (some ⟨["make-table"], []⟩) ∧
      ⟨⟨"B"⟩, "main"⟩ ∈ r'.plan.names .program ∧
      r'.libraryRequests.find? ⟨"A"⟩ = some true) ∧
    repeating.declareInto r ⟨"B"⟩ = (r, .error (.duplicateModule ⟨"B"⟩)) := by
  intro calls r
  have hapart : repeating.ObjectsApart := objectClash?_contribution.mp (by decide)
  obtain ⟨-, hnew⟩ := declareInto_exact "demo" calls repeating ⟨"A"⟩
  obtain ⟨hduplicate, -⟩ := declareInto_exact "demo" calls repeating ⟨"B"⟩
  obtain ⟨r', hdeclare, hgains, -⟩ := (hnew (by decide)).2 hapart
  refine ⟨⟨r', hdeclare, ?_, ?_, ?_, ?_⟩, hduplicate (by decide)⟩
  · rw [hgains.plan.hasHeader]
    decide
  · rw [hgains.plan.rules]
    decide
  · rw [hgains.plan.names]
    decide
  · rw [hgains.requests]
    decide

end ModuleManifest

end ModularBuild
