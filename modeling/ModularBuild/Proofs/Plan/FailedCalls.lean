import Mathlib.Data.List.Basic
import ModularBuild.Proofs.Plan.Interleaving

/-!
# What a call that fails leaves

A call fails in one of three ways (`step_eq_error`). A module opened twice and a module that is not
open leave the registry as it was. A clash of two declarations closes the module: no later call can
open it again, nothing reports it, and the plan is the one that the other modules make
(`finalize_after_clash`). So of the calls that fail, exactly those that meet no clash leave no trace
(`leavesNoTrace_iff`).
-/

namespace ModularBuild

/-! ## A rejected module -/

namespace ModuleState

theorem run_append (m : ModulePath) (s : ModuleState) (calls later : List Registry.Call) :
    (s.run m (calls ++ later)).1 = ((s.run m calls).1.run m later).1 := by
  induction calls generalizing s with
  | nil => rfl
  | cons call calls ih => exact ih (s.step m call).1

theorem step_rejected (m : ModulePath) (call : Registry.Call) :
    ∃ e, rejected.step m call = (rejected, .error e) := by
  cases call with
  | beginModule => exact ⟨_, rfl⟩
  | declare kind names | declareUnit name header | declareRule file rule | requestLibrary shared =>
    exact ⟨_, rfl⟩
  | endModule => exact ⟨_, rfl⟩

theorem run_rejected (m : ModulePath) (calls : List Registry.Call) :
    (rejected.run m calls).1 = rejected ∧
      ∀ result ∈ (rejected.run m calls).2, ∃ e, result = .error e := by
  induction calls with
  | nil => exact ⟨rfl, nofun⟩
  | cons call calls ih =>
    obtain ⟨e, hstep⟩ := step_rejected m call
    simp only [run, hstep]
    exact ⟨ih.1, List.forall_mem_cons.mpr ⟨⟨e, rfl⟩, ih.2⟩⟩

end ModuleState

namespace Registry

variable {r r' : Registry} {project : String} {σ σ' : ModulePath → ModuleState} {m : ModulePath}
  {call : Call} {calls later : List (ModulePath × Call)} {e : PlanError}

/-! ## How a call fails -/

/-- The ways in which a call fails, and what each of them leaves. -/
theorem step_eq_error (h : (r.step m call).2 = .error e) :
    (r.step m call).1 = r ∧ (e = .duplicateModule m ∨ e = .unopenedModule m) ∨
      call = .endModule ∧ ∃ c clash, r.opened.find? m = some c ∧ c.objectClash? = some clash ∧
        e = .objectNameClash m clash ∧
        (r.step m call).1 = { r with opened := r.opened.erase m } := by
  have hmodify : ∀ f, (r.modifyOpened m f).2 = .error e →
      (r.modifyOpened m f).1 = r ∧ (e = .duplicateModule m ∨ e = .unopenedModule m) := by
    intro f hf
    unfold modifyOpened at hf ⊢
    split at hf
    · cases hf
    · cases hf
      exact ⟨rfl, .inr rfl⟩
  cases call with
  | beginModule =>
    left
    simp only [step, beginModule] at h ⊢
    by_cases hseen : r.seen.contains m
    · rw [if_pos hseen] at h ⊢
      cases h
      exact ⟨rfl, .inl rfl⟩
    · rw [if_neg hseen] at h
      cases h
  | declare kind names | declareUnit name header | declareRule file rule | requestLibrary shared =>
    exact .inl (hmodify _ h)
  | endModule =>
    simp only [step, endModule] at h ⊢
    cases hopened : r.opened.find? m with
    | none =>
      rw [hopened] at h
      cases h
      exact .inl ⟨rfl, .inr rfl⟩
    | some c =>
      simp only [hopened] at h ⊢
      cases hclash : c.objectClash? with
      | none =>
        rw [hclash] at h
        cases h
      | some clash =>
        rw [hclash] at h
        cases h
        exact .inr ⟨trivial, c, clash, rfl, hclash, rfl, rfl⟩

/-! ## What can be told of a registry -/

/-- Neither how any further calls end nor what is finished after them tells two registries apart. -/
def Indistinguishable (r r' : Registry) : Prop :=
  ∀ calls, (r.run calls).2 = (r'.run calls).2 ∧
    ∀ naming, (r.run calls).1.finalize naming = (r'.run calls).1.finalize naming

def LeavesNoTrace (r : Registry) (m : ModulePath) (call : Call) : Prop :=
  Indistinguishable (r.step m call).1 r

theorem Tracks.finalize_eq (h : r.Tracks project σ) (h' : r'.Tracks project σ')
    (hopened : ∀ m, (σ' m).opened? = (σ m).opened?) (hmerged : ∀ m, (σ' m).merged? = (σ m).merged?)
    (naming : LibraryNaming) : r.finalize naming = r'.finalize naming := by
  have hparts : (fun m => (σ' m).merged?) = fun m => (σ m).merged? := funext hmerged
  have htracks : Tracks { r' with seen := r.seen } project σ :=
    { project := h'.project
      libraries := h'.libraries
      opened := fun m => (h'.opened m).trans (hopened m)
      seen := h.seen
      requests := fun m => by
        rw [ModuleState.request?, ← hmerged m]
        exact h'.requests m
      modules := fun m => by
        rw [← hmerged m]
        exact h'.modules m
      headers := hparts ▸ h'.headers
      units := hparts ▸ h'.units
      fortranUnits := hparts ▸ h'.fortranUnits
      programs := hparts ▸ h'.programs
      testPrograms := hparts ▸ h'.testPrograms
      fortranPrograms := hparts ▸ h'.fortranPrograms
      generated := hparts ▸ h'.generated }
  rw [h.unique htracks]
  rfl

/-! ## A clash -/

def callsBeside (m : ModulePath) (calls : List (ModulePath × Call)) : List (ModulePath × Call) :=
  calls.filter (·.1 ≠ m)

theorem callsOn_append (m : ModulePath) (calls later : List (ModulePath × Call)) :
    callsOn m (calls ++ later) = callsOn m calls ++ callsOn m later :=
  List.filterMap_append

theorem callsOn_callsBeside_self (m : ModulePath) (calls : List (ModulePath × Call)) :
    callsOn m (callsBeside m calls) = [] := by
  refine List.filterMap_eq_nil_iff.mpr fun e he => ?_
  have hne := (List.mem_filter.mp he).2
  simpa using hne

theorem callsOn_callsBeside_of_ne {m m' : ModulePath} (h : m' ≠ m)
    (calls : List (ModulePath × Call)) : callsOn m' (callsBeside m calls) = callsOn m' calls := by
  induction calls with
  | nil => rfl
  | cons e calls ih =>
    obtain ⟨m'', call⟩ := e
    by_cases hm : m'' = m
    · rw [callsOn_cons_of_ne (hm ▸ h), ← ih]
      simp [callsBeside, hm]
    · rw [callsBeside, List.filter_cons_of_pos (by simpa using hm)]
      by_cases hm' : m'' = m'
      · subst hm'
        rw [callsOn_cons_self, callsOn_cons_self]
        exact congrArg _ ih
      · rw [callsOn_cons_of_ne (Ne.symm hm'), callsOn_cons_of_ne (Ne.symm hm')]
        exact ih

/-- A registry after a clash: the module is rejected, and the others stand as before. -/
theorem tracks_clash {clash : Contribution.ObjectClash} (h : r.Tracks project σ)
    (herror : (r.step m .endModule).2 = .error (.objectNameClash m clash)) :
    (r.step m .endModule).1.Tracks project (setState σ m .rejected) := by
  obtain ⟨htracks, hresult⟩ := tracks_step h m .endModule
  rw [hresult] at herror
  cases hm : σ m with
  | opened c =>
    rw [hm] at htracks herror
    unfold ModuleState.step at htracks herror
    cases hclash : c.objectClash? with
    | none =>
      simp only [hclash] at herror
      cases herror
    | some clash' => simpa only [hclash] using htracks
  | unseen | rejected | merged c =>
    rw [hm] at herror
    cases herror

/-- After a clash every call about the module fails, and calls about other modules end as they would
have ended. -/
theorem resultsOn_after_clash {clash : Contribution.ObjectClash} (h : r.Tracks project σ)
    (herror : (r.step m .endModule).2 = .error (.objectNameClash m clash))
    (later : List (ModulePath × Call)) :
    (∀ result ∈ resultsOn m later ((r.step m .endModule).1.run later).2, ∃ e, result = .error e) ∧
      ∀ m', m' ≠ m → resultsOn m' later ((r.step m .endModule).1.run later).2 =
        resultsOn m' later (r.run later).2 := by
  have hclash := (tracks_run (tracks_clash h herror) later).2
  refine ⟨?_, fun m' hm => ?_⟩
  · rw [hclash m, setState, Function.update_self]
    exact (ModuleState.run_rejected m _).2
  · rw [hclash m', setState, Function.update_of_ne hm, (tracks_run h later).2 m']

/-- After a clash a registry finishes, now and after any calls, as if no call about the module had
ever been made. -/
theorem finalize_after_clash {clash : Contribution.ObjectClash}
    (herror : (((empty project).run calls).1.step m .endModule).2 =
      .error (.objectNameClash m clash)) (later : List (ModulePath × Call))
    (naming : LibraryNaming) :
    ((((empty project).run calls).1.step m .endModule).1.run later).1.finalize naming =
      ((empty project).run (callsBeside m (calls ++ later))).1.finalize naming := by
  have hrun := (tracks_run (Tracks.empty project) calls).1
  have hclash := (tracks_run (tracks_clash hrun herror) later).1
  have hbeside := (tracks_run (Tracks.empty project) (callsBeside m (calls ++ later))).1
  have hstates : ∀ m', m' ≠ m →
      ModuleState.run m' .unseen (callsOn m' (callsBeside m (calls ++ later))) =
        ModuleState.run m' .unseen (callsOn m' calls ++ callsOn m' later) := fun m' hm => by
    rw [callsOn_callsBeside_of_ne hm, callsOn_append]
  -- Of the module itself one run knows that it was rejected and the other nothing at all.
  refine hclash.finalize_eq hbeside (fun m' => ?_) (fun m' => ?_) naming
  all_goals
    by_cases hm : m' = m
    · subst hm
      rw [callsOn_callsBeside_self, setState, Function.update_self,
        (ModuleState.run_rejected m' _).1]
      rfl
    · rw [hstates m' hm, ModuleState.run_append, setState, Function.update_of_ne hm]

theorem not_leavesNoTrace_of_clash {c : Contribution} {clash : Contribution.ObjectClash}
    (hopened : r.opened.find? m = some c) (hclash : c.objectClash? = some clash) :
    ¬ LeavesNoTrace r m .endModule := by
  intro htrace
  have hstep : r.step m .endModule =
      ({ r with opened := r.opened.erase m }, .error (.objectNameClash m clash)) := by
    simp only [step, endModule, hopened, hclash]
  have hagain := (htrace [(m, .endModule)]).1
  have hclosed : (r.opened.erase m).find? m = none := by
    rw [SortedMap.find?_erase_eq_ite, if_pos rfl]
  simp only [run, hstep, List.cons.injEq, and_true] at hagain
  simp only [step, endModule, hclosed] at hagain
  cases hagain

/-! ## Calls that fail -/

/-- **A call that fails leaves no trace exactly if it meets no clash.** One that does drops its
module for good: every later call about the module fails, no other call ends otherwise than it would
have, and whatever is finished later is what the calls about the other modules make of it. -/
theorem leavesNoTrace_iff
    (h : (((empty project).run calls).1.step m call).2 = .error e) :
    (LeavesNoTrace ((empty project).run calls).1 m call ↔
        ∀ clash, e ≠ .objectNameClash m clash) ∧
      ∀ clash, e = .objectNameClash m clash → ∀ later,
        let after := ((((empty project).run calls).1.step m call).1.run later)
        (∀ result ∈ resultsOn m later after.2, ∃ e, result = .error e) ∧
          (∀ m', m' ≠ m → resultsOn m' later after.2 =
            resultsOn m' later (((empty project).run calls).1.run later).2) ∧
          ∀ naming, after.1.finalize naming =
            ((empty project).run (callsBeside m (calls ++ later))).1.finalize naming := by
  rcases step_eq_error h with ⟨hsame, herror⟩ | ⟨rfl, c, clash, hopened, hclash, rfl, -⟩
  · have hno : ∀ clash, e ≠ .objectNameClash m clash := by
      rintro clash rfl
      rcases herror with herror | herror <;> cases herror
    refine ⟨⟨fun _ => hno, fun _ => ?_⟩, fun clash he => absurd he (hno clash)⟩
    rw [LeavesNoTrace, hsame]
    exact fun _ => ⟨rfl, fun _ => rfl⟩
  · refine ⟨⟨fun htrace => ?_, fun hno => absurd rfl (hno clash)⟩, fun clash' _ later => ?_⟩
    · exact absurd htrace (not_leavesNoTrace_of_clash hopened hclash)
    · have htracks := (tracks_run (Tracks.empty project) calls).1
      obtain ⟨hself, hothers⟩ := resultsOn_after_clash htracks h later
      exact ⟨hself, hothers, finalize_after_clash h later⟩

/-! ## A unit and a program of one name -/

/-- A module that is about to be closed, and would clash; another one is closed. -/
def clashing : List (ModulePath × Call) :=
  [(⟨"A"⟩, .beginModule), (⟨"A"⟩, .declare .program ["run"]), (⟨"A"⟩, .endModule),
    (⟨"m"⟩, .beginModule), (⟨"m"⟩, .declare .compiledUnit ["main"]),
    (⟨"m"⟩, .declare .program ["main"])]

theorem clash_clashing : (((empty "demo").run clashing).1.step ⟨"m"⟩ .endModule).2 =
    .error (.objectNameClash ⟨"m"⟩ ⟨"main", .compiledUnit, .program⟩) := by
  rfl

/-- Opening the module again leaves no trace. After the clash it can be neither opened again nor
closed, and what is finished is the other module's plan. -/
theorem leavesNoTrace_iff_clashing :
    let r := ((empty "demo").run clashing).1
    let after := (r.step ⟨"m"⟩ .endModule).1.run [(⟨"m"⟩, .beginModule), (⟨"m"⟩, .endModule)]
    (r.step ⟨"m"⟩ .beginModule).2 = .error (.duplicateModule ⟨"m"⟩) ∧
      LeavesNoTrace r ⟨"m"⟩ .beginModule ∧
      (∀ result ∈ after.2, ∃ e, result = .error e) ∧
      after.1.finalize (.projectName "demo") = ((empty "demo").run
        [(⟨"A"⟩, .beginModule), (⟨"A"⟩, .declare .program ["run"]),
          (⟨"A"⟩, .endModule)]).1.finalize (.projectName "demo") := by
  intro r after
  have hduplicate : (r.step ⟨"m"⟩ .beginModule).2 = .error (.duplicateModule ⟨"m"⟩) := by
    rfl
  obtain ⟨hself, -, hfinish⟩ := (leavesNoTrace_iff clash_clashing).2 _ rfl
    [(⟨"m"⟩, .beginModule), (⟨"m"⟩, .endModule)]
  exact ⟨hduplicate, (leavesNoTrace_iff hduplicate).1.mpr nofun, hself, hfinish _⟩

/-- The module that met the clash was going to be reported as unclosed. Now nothing is reported, and
nothing of the module is in the plan. -/
theorem not_leavesNoTrace_clash :
    let r := ((empty "demo").run clashing).1
    (r.step ⟨"m"⟩ .endModule).2 =
        .error (.objectNameClash ⟨"m"⟩ ⟨"main", .compiledUnit, .program⟩) ∧
      r.finalize (.projectName "demo") = .error (.unclosedModule ⟨"m"⟩) ∧
      (r.step ⟨"m"⟩ .endModule).1.finalize (.projectName "demo") = .ok
        { project := "demo"
          modules := SortedMap.insert ∅ ⟨"A"⟩ ()
          programs := SortedMap.insert ∅ ⟨⟨"A"⟩, "run"⟩ () } ∧
      ¬ LeavesNoTrace r ⟨"m"⟩ .endModule := by
  intro r
  have hbefore : r.finalize (.projectName "demo") = .error (.unclosedModule ⟨"m"⟩) := by
    rfl
  have hafter : (r.step ⟨"m"⟩ .endModule).1.finalize (.projectName "demo") = .ok
      { project := "demo"
        modules := SortedMap.insert ∅ ⟨"A"⟩ ()
        programs := SortedMap.insert ∅ ⟨⟨"A"⟩, "run"⟩ () } := by
    rfl
  refine ⟨clash_clashing, hbefore, hafter, fun htrace => ?_⟩
  have hsame := (htrace []).2 (.projectName "demo")
  rw [show ((r.step ⟨"m"⟩ .endModule).1.run []).1 = (r.step ⟨"m"⟩ .endModule).1 from rfl,
    hafter, show (r.run []).1 = r from rfl, hbefore] at hsame
  cases hsame

end Registry

end ModularBuild
