import ModularBuild.Proofs.Plan.Artifacts
import ModularBuild.Proofs.Plan.Declarations

/-!
# A finished plan is the union of the closed modules

What happened to a registry is the list of the calls that were made with how each of them ended. A
module's state says of that list which of the module's calls succeeded, and whether the module was
opened and not closed since (`Recalls`); `recalls_step` carries this through one call about the
module and `recalls_run` through any run. So what the registry is finalized to can be read off the
calls and their results alone: `finalize_union`.
-/

namespace ModularBuild.Registry

/-- Calls that were made, in order, with how they ended. -/
abbrev Transcript := List ((ModulePath × Call) × Except PlanError Unit)

variable {run before : Transcript} {r : Registry} {project : String} {m m' : ModulePath}
  {call : Call} {s : ModuleState} {σ : ModulePath → ModuleState} {c : Contribution}

/-! ## Reading a transcript -/

/-- The calls about a module that succeeded, in order. -/
def succeeded (run : Transcript) (m : ModulePath) : List Call :=
  run.filterMap fun
    | ((m', call), .ok ()) => if m' = m then some call else none
    | (_, .error _) => none

/-- The module was opened, and no call to close it followed. -/
def LeftOpen (run : Transcript) (m : ModulePath) : Prop :=
  ∃ before after, run = before ++ ((m, .beginModule), .ok ()) :: after ∧
    ∀ e ∈ after, e.1 ≠ (m, .endModule)

theorem succeeded_append_ok (run : Transcript) (m : ModulePath) (call : Call) :
    succeeded (run ++ [((m, call), .ok ())]) m = succeeded run m ++ [call] := by
  simp [succeeded]

theorem succeeded_append_error (run : Transcript) (m : ModulePath) (e : ModulePath × Call)
    (error : PlanError) : succeeded (run ++ [(e, .error error)]) m = succeeded run m := by
  simp [succeeded]

theorem succeeded_append_of_ne (h : m' ≠ m) (run : Transcript) (call : Call)
    (result : Except PlanError Unit) :
    succeeded (run ++ [((m', call), result)]) m = succeeded run m := by
  cases result <;> simp [succeeded, h]

theorem leftOpen_append_singleton {e : ModulePath × Call} {result : Except PlanError Unit} :
    LeftOpen (run ++ [(e, result)]) m ↔
      e = (m, .beginModule) ∧ result = .ok () ∨ LeftOpen run m ∧ e ≠ (m, .endModule) := by
  constructor
  · rintro ⟨before, after, hrun, hafter⟩
    rcases List.eq_nil_or_concat after with rfl | ⟨after, last, rfl⟩
    · obtain ⟨-, hlast⟩ := List.append_inj' hrun rfl
      cases hlast
      exact .inl ⟨rfl, rfl⟩
    · rw [List.concat_eq_append, ← List.cons_append, ← List.append_assoc] at hrun
      obtain ⟨hinit, hlast⟩ := List.append_inj' hrun rfl
      cases hlast
      simp only [List.concat_eq_append, List.forall_mem_append, List.forall_mem_singleton] at hafter
      exact .inr ⟨⟨before, after, hinit, hafter.1⟩, hafter.2⟩
  · rintro (⟨rfl, rfl⟩ | ⟨⟨before, after, rfl, hafter⟩, he⟩)
    · exact ⟨run, [], rfl, fun e he => absurd he List.not_mem_nil⟩
    · refine ⟨before, after ++ [(e, result)], by simp, fun e' he' => ?_⟩
      rcases List.mem_append.mp he' with he' | he'
      · exact hafter e' he'
      · rw [List.mem_singleton.mp he']
        exact he

/-! ## What a module's state recalls -/

/-- What the state of a module says of the calls that were made. -/
structure Recalls (run : Transcript) (m : ModulePath) (s : ModuleState) : Prop where
  /-- What an open or merged module has declared is what its calls declare that succeeded. -/
  contribution : ∀ c, s = .opened c ∨ s = .merged c → c = .ofCalls (succeeded run m)
  unseen : s = .unseen → succeeded run m = []
  isMerged : s.merged?.isSome ↔ .endModule ∈ succeeded run m
  isOpen : s.opened?.isSome ↔ LeftOpen run m

theorem recalls_nil (m : ModulePath) : Recalls [] m .unseen where
  contribution c hc := by rcases hc with hc | hc <;> cases hc
  unseen _ := rfl
  isMerged := ⟨nofun, nofun⟩
  isOpen := ⟨nofun, fun ⟨before, after, h, _⟩ => by simp at h⟩

theorem Recalls.other (h : Recalls run m s) (hm : m' ≠ m) (call : Call)
    (result : Except PlanError Unit) : Recalls (run ++ [((m', call), result)]) m s where
  contribution c hc := by
    rw [succeeded_append_of_ne hm]
    exact h.contribution c hc
  unseen hs := by
    rw [succeeded_append_of_ne hm]
    exact h.unseen hs
  isMerged := by
    rw [succeeded_append_of_ne hm]
    exact h.isMerged
  isOpen := by
    have hne : ∀ call', (m', call) ≠ (m, call') := fun call' heq => hm (congrArg Prod.fst heq)
    rw [leftOpen_append_singleton, h.isOpen]
    exact ⟨fun hopen => .inr ⟨hopen, hne _⟩, fun hopen =>
      hopen.elim (fun hbegin => absurd hbegin.1 (hne _)) fun hopen => hopen.1⟩

/-- A call that fails changes nothing, unless it closes the module. -/
theorem Recalls.failed (h : Recalls run m s) {error : PlanError}
    (hcall : call = .endModule → s.opened? = none) :
    Recalls (run ++ [((m, call), .error error)]) m s where
  contribution c hc := by
    rw [succeeded_append_error]
    exact h.contribution c hc
  unseen hs := by
    rw [succeeded_append_error]
    exact h.unseen hs
  isMerged := by
    rw [succeeded_append_error]
    exact h.isMerged
  isOpen := by
    rw [leftOpen_append_singleton, ← h.isOpen]
    constructor
    · refine fun hopen => .inr ⟨hopen, fun heq => ?_⟩
      rw [hcall (congrArg Prod.snd heq)] at hopen
      cases hopen
    · rintro (⟨-, hok⟩ | ⟨hopen, -⟩)
      · cases hok
      · exact hopen

theorem Recalls.declared (h : Recalls run m (.opened c)) (hend : call ≠ .endModule) :
    Recalls (run ++ [((m, call), .ok ())]) m (.opened (call.change c)) where
  contribution c' hc' := by
    have hc := h.contribution c (.inl rfl)
    rcases hc' with hc' | hc' <;> cases hc'
    rw [succeeded_append_ok, Contribution.ofCalls_append_singleton, ← hc]
  unseen := nofun
  isMerged := by
    rw [succeeded_append_ok, List.mem_append, List.mem_singleton, ← h.isMerged]
    exact ⟨nofun, fun hmem => hmem.elim id fun heq => absurd heq.symm hend⟩
  isOpen := by
    rw [leftOpen_append_singleton, ← h.isOpen]
    exact ⟨fun _ => .inr ⟨rfl, fun heq => hend (congrArg Prod.snd heq)⟩, fun _ => rfl⟩

theorem Recalls.begun (h : Recalls run m .unseen) :
    Recalls (run ++ [((m, .beginModule), .ok ())]) m (.opened {}) where
  contribution c hc := by
    rcases hc with hc | hc <;> cases hc
    rw [succeeded_append_ok, h.unseen rfl]
    rfl
  unseen := nofun
  isMerged := by
    rw [succeeded_append_ok, h.unseen rfl]
    exact ⟨nofun, fun hmem => nomatch List.mem_singleton.mp hmem⟩
  isOpen := by
    rw [leftOpen_append_singleton]
    exact ⟨fun _ => .inl ⟨rfl, rfl⟩, fun _ => rfl⟩

theorem not_leftOpen_of_closed (run : Transcript) (result : Except PlanError Unit) :
    ¬ LeftOpen (run ++ [((m, .endModule), result)]) m := by
  rw [leftOpen_append_singleton]
  rintro (⟨heq, -⟩ | ⟨-, hne⟩)
  · cases heq
  · exact hne rfl

theorem Recalls.closed (h : Recalls run m (.opened c)) :
    Recalls (run ++ [((m, .endModule), .ok ())]) m (.merged c) where
  contribution c' hc' := by
    have hc := h.contribution c (.inl rfl)
    rcases hc' with hc' | hc' <;> cases hc'
    rw [succeeded_append_ok, Contribution.ofCalls_append_singleton, ← hc]
    rfl
  unseen := nofun
  isMerged := by
    rw [succeeded_append_ok]
    exact ⟨fun _ => List.mem_append_right _ (List.mem_singleton_self _), fun _ => rfl⟩
  isOpen := ⟨nofun, fun hopen => absurd hopen (not_leftOpen_of_closed run _)⟩

theorem Recalls.rejected (h : Recalls run m (.opened c)) {error : PlanError} :
    Recalls (run ++ [((m, .endModule), .error error)]) m .rejected where
  contribution c hc := by rcases hc with hc | hc <;> cases hc
  unseen := nofun
  isMerged := by
    rw [succeeded_append_error, ← h.isMerged]
    exact Iff.rfl
  isOpen := ⟨nofun, fun hopen => absurd hopen (not_leftOpen_of_closed run _)⟩

theorem recalls_step (h : Recalls run m s) (call : Call) :
    Recalls (run ++ [((m, call), (s.step m call).2)]) m (s.step m call).1 := by
  cases call with
  | beginModule =>
    cases s with
    | unseen => exact h.begun
    | opened c | rejected | merged c => exact h.failed nofun
  | declare | declareUnit | declareRule | requestLibrary =>
    cases s with
    | opened c => exact h.declared nofun
    | unseen | rejected | merged c => exact h.failed nofun
  | endModule =>
    cases s with
    | opened c =>
      unfold ModuleState.step
      cases hclash : c.objectClash? with
      | some clash => simpa only [hclash] using h.rejected
      | none => simpa only [hclash] using h.closed
    | unseen | rejected | merged c => exact h.failed fun _ => rfl

theorem recalls_run (h : r.Tracks project σ) (hσ : ∀ m, Recalls before m (σ m))
    (calls : List (ModulePath × Call)) :
    ∃ σ', (r.run calls).1.Tracks project σ' ∧
      ∀ m, Recalls (before ++ calls.zip (r.run calls).2) m (σ' m) := by
  induction calls generalizing r σ before with
  | nil =>
    refine ⟨σ, h, fun m => ?_⟩
    rw [List.zip_nil_left, List.append_nil]
    exact hσ m
  | cons e calls ih =>
    obtain ⟨m, call⟩ := e
    obtain ⟨hstep, hresult⟩ := tracks_step h m call
    -- The call is a step of its module's state, and no other state has to say anything of it.
    have hrecalls : ∀ m', Recalls (before ++ [((m, call), (r.step m call).2)]) m'
        (setState σ m ((σ m).step m call).1 m') := by
      intro m'
      by_cases hm : m' = m
      · rw [hm, setState, Function.update_self, hresult]
        exact recalls_step (hσ m) call
      · rw [setState, Function.update_of_ne hm]
        exact (hσ m').other (Ne.symm hm) call _
    obtain ⟨σ', hrun, hσ'⟩ := ih hstep hrecalls
    refine ⟨σ', hrun, fun m' => ?_⟩
    have h' := hσ' m'
    rw [List.append_assoc] at h'
    exact h'

/-! ## What is finished -/

/-- A plan is the union of what the closed modules of a run have declared. -/
structure IsUnion (project : String) (naming : LibraryNaming) (run : Transcript) (plan : Plan) :
    Prop where
  project : plan.project = project
  modules : ∀ m, m ∈ plan.modules.keys ↔ .endModule ∈ succeeded run m
  names : ∀ kind q, q ∈ plan.names kind ↔ .endModule ∈ succeeded run q.module ∧
    ∃ call ∈ succeeded run q.module, call.Declares kind q.name
  /-- A unit has the header flag its module gave it last. -/
  hasHeader : ∀ q header, plan.units.find? q = some header ↔
    .endModule ∈ succeeded run q.module ∧
      Call.newest? (·.header? q.name) (succeeded run q.module) = some header
  /-- A generated file has the rule its module gave it last, if it gave it one. -/
  rules : ∀ q rule, plan.generated.find? q = some rule ↔
    .endModule ∈ succeeded run q.module ∧
      (∃ call ∈ succeeded run q.module, call.Declares .generated q.name) ∧
      rule = Call.newest? (·.rule? q.name) (succeeded run q.module)
  libraries : ∀ m library, plan.libraries.find? m = some library ↔
    .endModule ∈ succeeded run m ∧ (∃ shared, .requestLibrary shared ∈ succeeded run m) ∧
      library.module = m ∧ library.name = naming.libraryName m ∧
      (library.shared ↔ .requestLibrary true ∈ succeeded run m)
  objects : ∀ kind kind', kind.producesObject → kind'.producesObject → kind ≠ kind' →
    (plan.names kind).Disjoint (plan.names kind')

theorem Recalls.merged?_eq (h : Recalls run m s) :
    s.merged? = if .endModule ∈ succeeded run m then some (.ofCalls (succeeded run m)) else none := by
  have hmerged := h.isMerged
  cases s with
  | merged c =>
    rw [if_pos (hmerged.mp rfl), ← h.contribution c (.inr rfl)]
    rfl
  | unseen | rejected | opened c =>
    rw [if_neg fun hmem => nomatch hmerged.mpr hmem]
    rfl

theorem Recalls.exists_merged_iff (h : Recalls run m s) (P : Contribution → Prop) :
    (∃ c, s.merged? = some c ∧ P c) ↔
      .endModule ∈ succeeded run m ∧ P (.ofCalls (succeeded run m)) := by
  rw [h.merged?_eq]
  split <;> simp [*]

/-- A closed module asked for a library if one of its requests succeeded, and for a shared one if one
of these was for that. -/
theorem Recalls.request?_eq_some_iff (h : Recalls run m s) {shared : Bool} :
    s.request? = some shared ↔ .endModule ∈ succeeded run m ∧
      (∃ shared, .requestLibrary shared ∈ succeeded run m) ∧
      (shared ↔ .requestLibrary true ∈ succeeded run m) := by
  rw [ModuleState.request?, Option.bind_eq_some_iff, h.exists_merged_iff,
    Option.ite_none_right_eq_some, Contribution.library_ofCalls,
    ← Contribution.sharedLibrary_ofCalls, Option.some.injEq, Bool.eq_iff_iff,
    iff_comm (a := shared = true)]

theorem isUnion_of_recalls {naming : LibraryNaming} {libraries : SortedMap ModulePath Library}
    (h : r.Tracks project σ) (hσ : ∀ m, Recalls run m (σ m))
    (hlibraries : ∀ m, libraries.find? m = (σ m).request?.map (⟨m, naming.libraryName m, ·⟩))
    (hobjects : Plan.Distinct { r.plan with libraries }) :
    IsUnion project naming run { r.plan with libraries } where
  project := h.project
  modules m := by
    show m ∈ r.plan.modules.keys ↔ _
    rw [SortedMap.mem_keys_iff, h.modules m, ← (hσ m).isMerged, Option.isSome_iff_exists]
    simp
  names kind q := by
    rw [Plan.names_libraries, h.mem_names_iff, (hσ q.module).exists_merged_iff,
      Contribution.mem_names_ofCalls]
  hasHeader q header := by
    show r.plan.units.find? q = _ ↔ _
    rw [h.units q, Plan.contributed, Option.bind_eq_some_iff, (hσ q.module).exists_merged_iff,
      Contribution.find?_units_ofCalls]
  rules q rule := by
    show r.plan.generated.find? q = _ ↔ _
    rw [h.generated q, Plan.contributed, Option.bind_eq_some_iff, (hσ q.module).exists_merged_iff,
      Contribution.find?_generated_ofCalls]
    simp [eq_comm]
  libraries m library := by
    show libraries.find? m = _ ↔ _
    obtain ⟨module, name, shared⟩ := library
    simp only [hlibraries m, Option.map_eq_some_iff, (hσ m).request?_eq_some_iff,
      Library.mk.injEq]
    constructor
    · rintro ⟨shared', ⟨hclosed, hrequest, hshared⟩, rfl, rfl, rfl⟩
      exact ⟨hclosed, hrequest, rfl, rfl, hshared⟩
    · rintro ⟨hclosed, hrequest, rfl, rfl, hshared⟩
      exact ⟨shared, ⟨hclosed, hrequest, hshared⟩, rfl, rfl, rfl⟩
  objects _ _ hkind hkind' hne := hobjects.disjoint_names hkind hkind' hne

/-- **A finished plan is the union of the closed modules.** Whatever calls are made of a registry,
and however they end, it is refused exactly if some module was opened and never closed, by the least
such module; otherwise its plan holds of every closed module what the calls about it declared that
succeeded, and nothing else. -/
theorem finalize_union (project : String) (calls : List (ModulePath × Call))
    (naming : LibraryNaming) :
    let run := calls.zip ((empty project).run calls).2
    let finished := ((empty project).run calls).1.finalize naming
    ((∃ m, finished = .error (.unclosedModule m)) ↔ ∃ m, LeftOpen run m) ∧
      (∀ e, finished = .error e → ∃ m, e = .unclosedModule m ∧ LeftOpen run m ∧
        ∀ m', LeftOpen run m' → (compare m m').isLE) ∧
      ((∀ m, ¬ LeftOpen run m) → ∃ plan, finished = .ok plan ∧ IsUnion project naming run plan) := by
  intro run finished
  obtain ⟨σ, htracks, hrecalls⟩ := recalls_run (Tracks.empty project) recalls_nil calls
  have hσ : ∀ m, Recalls run m (σ m) := hrecalls
  by_cases hopened : ∃ m, (σ m).opened?.isSome
  · obtain ⟨m, hm⟩ := hopened
    obtain ⟨least, herror, hleast, hmin⟩ := htracks.finalize_eq_error hm naming
    have herror : finished = .error (.unclosedModule least) := herror
    have hleft : LeftOpen run least := (hσ least).isOpen.mp hleast
    refine ⟨⟨fun _ => ⟨least, hleft⟩, fun _ => ⟨least, herror⟩⟩, fun e he => ?_,
      fun hnone => absurd hleft (hnone least)⟩
    cases herror.symm.trans he
    exact ⟨least, rfl, hleft, fun m' hm' => hmin m' ((hσ m').isOpen.mpr hm')⟩
  · have hnone : ∀ m, (σ m).opened? = none := fun m =>
      Option.not_isSome_iff_eq_none.mp fun hm => hopened ⟨m, hm⟩
    obtain ⟨libraries, hok, hlibraries⟩ := htracks.finalize_eq_ok hnone naming
    have hunion := isUnion_of_recalls htracks hσ hlibraries (distinct_of_finalize hok)
    have hok : finished = .ok _ := hok
    refine ⟨⟨fun ⟨m, hm⟩ => ?_, fun ⟨m, hm⟩ => absurd ⟨m, (hσ m).isOpen.mpr hm⟩ hopened⟩,
      fun e he => ?_, fun _ => ⟨_, hok, hunion⟩⟩
    · cases hok.symm.trans hm
    · cases hok.symm.trans he

end ModularBuild.Registry
