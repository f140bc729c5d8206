import ModularBuild.Proofs.Plan.ModuleState

/-!
# Accumulation does not depend on the interleaving of modules

A run of a registry is, module by module, the run of that module's calls alone (`tracks_run`). Two
runs that make the same calls about every module, interleaved in whatever way and with whatever
failures among them, therefore end every call in the same way and finalize to the same plan or
error.
-/

namespace ModularBuild

namespace ModuleState

variable {m : ModulePath} {s : ModuleState}

theorem eq_unseen_of_not_isSeen (h : ¬ s.isSeen) : s = .unseen := by
  cases s with
  | unseen => rfl
  | opened c | rejected | merged c => exact absurd rfl h

/-- A module that has been seen stays so, and opening it is the only way to see it. -/
theorem isSeen_step (call : Registry.Call) :
    (s.step m call).1.isSeen ↔ s.isSeen ∨ call = .beginModule := by
  cases call with
  | beginModule => cases s <;> simp [step, isSeen]
  | declare kind names | declareUnit name header | declareRule file rule | requestLibrary shared =>
    cases s <;> simp [step, modify, isSeen]
  | endModule =>
    cases s with
    | opened c => cases hclash : c.objectClash? <;> simp [step, hclash, isSeen]
    | unseen | rejected | merged c => simp [step, isSeen]

theorem isSeen_run (calls : List Registry.Call) :
    (s.run m calls).1.isSeen ↔ s.isSeen ∨ .beginModule ∈ calls := by
  induction calls generalizing s with
  | nil => simp [run]
  | cons call calls ih => rw [run, ih, isSeen_step, List.mem_cons, or_assoc, eq_comm (a := call)]

end ModuleState

namespace Registry

/-! ## What a run does about one module -/

/-- The calls about one module, in order. -/
def callsOn (m : ModulePath) (calls : List (ModulePath × Call)) : List Call :=
  calls.filterMap fun e => if e.1 = m then some e.2 else none

/-- How the calls about one module ended, in order. -/
def resultsOn (m : ModulePath) (calls : List (ModulePath × Call))
    (results : List (Except PlanError Unit)) : List (Except PlanError Unit) :=
  (calls.zip results).filterMap fun e => if e.1.1 = m then some e.2 else none

theorem callsOn_cons_self (m : ModulePath) (call : Call) (calls : List (ModulePath × Call)) :
    callsOn m ((m, call) :: calls) = call :: callsOn m calls := by
  simp [callsOn]

theorem callsOn_cons_of_ne {m m' : ModulePath} (h : m' ≠ m) (call : Call)
    (calls : List (ModulePath × Call)) : callsOn m' ((m, call) :: calls) = callsOn m' calls := by
  simp [callsOn, Ne.symm h]

theorem resultsOn_cons_self (m : ModulePath) (call : Call) (calls : List (ModulePath × Call))
    (result : Except PlanError Unit) (results : List (Except PlanError Unit)) :
    resultsOn m ((m, call) :: calls) (result :: results) = result :: resultsOn m calls results := by
  simp [resultsOn]

theorem resultsOn_cons_of_ne {m m' : ModulePath} (h : m' ≠ m) (call : Call)
    (calls : List (ModulePath × Call)) (result : Except PlanError Unit)
    (results : List (Except PlanError Unit)) :
    resultsOn m' ((m, call) :: calls) (result :: results) = resultsOn m' calls results := by
  simp [resultsOn, Ne.symm h]

theorem length_results (r : Registry) (calls : List (ModulePath × Call)) :
    (r.run calls).2.length = calls.length := by
  induction calls generalizing r with
  | nil => rfl
  | cons e calls ih =>
    obtain ⟨m, call⟩ := e
    exact congrArg (· + 1) (ih (r.step m call).1)

/-- A run about many modules is, for every module, the run of the calls about it. -/
theorem tracks_run {r : Registry} {project : String} {σ : ModulePath → ModuleState}
    (h : r.Tracks project σ) (calls : List (ModulePath × Call)) :
    (r.run calls).1.Tracks project (fun m => ((σ m).run m (callsOn m calls)).1) ∧
      ∀ m, resultsOn m calls (r.run calls).2 = ((σ m).run m (callsOn m calls)).2 := by
  induction calls generalizing r σ with
  | nil => exact ⟨h, fun _ => rfl⟩
  | cons e calls ih =>
    obtain ⟨m, call⟩ := e
    obtain ⟨hstep, hresult⟩ := tracks_step h m call
    obtain ⟨hrun, hresults⟩ := ih hstep
    -- One call more about `m` is one step more of its state, and nothing to any other module.
    have hstate : ∀ m', (((setState σ m ((σ m).step m call).1) m').run m' (callsOn m' calls)).1 =
        ((σ m').run m' (callsOn m' ((m, call) :: calls))).1 := by
      intro m'
      by_cases hm : m' = m
      · subst hm
        rw [callsOn_cons_self, setState, Function.update_self]
        rfl
      · rw [callsOn_cons_of_ne hm, setState, Function.update_of_ne hm]
    refine ⟨?_, fun m' => ?_⟩
    · rw [← funext hstate]
      exact hrun
    · show resultsOn m' ((m, call) :: calls)
        ((r.step m call).2 :: ((r.step m call).1.run calls).2) = _
      have hrest := hresults m'
      by_cases hm : m' = m
      · subst hm
        rw [setState, Function.update_self] at hrest
        rw [resultsOn_cons_self, callsOn_cons_self, hrest, hresult]
        rfl
      · rw [setState, Function.update_of_ne hm] at hrest
        rw [resultsOn_cons_of_ne hm, callsOn_cons_of_ne hm, hrest]

/-- A run has seen the modules that it has opened, or has tried to. -/
theorem seen_run {project : String} {calls : List (ModulePath × Call)} {m : ModulePath} :
    ((empty project).run calls).1.seen.contains m ↔ (m, .beginModule) ∈ calls := by
  rw [(tracks_run (Tracks.empty project) calls).1.seen m, ModuleState.isSeen_run]
  simp [callsOn, ModuleState.isSeen]

/-! ## Two interleavings -/

theorem run_eq_of_callsOn_eq (project : String) {calls calls' : List (ModulePath × Call)}
    (h : ∀ m, callsOn m calls = callsOn m calls') :
    ((empty project).run calls).1 = ((empty project).run calls').1 := by
  have hrun := (tracks_run (Tracks.empty project) calls).1
  have hrun' := (tracks_run (Tracks.empty project) calls').1
  simp only [← h] at hrun'
  exact hrun.unique hrun'

/-- **Accumulation is independent of the order of modules.** If two runs make the same calls about
every module, every call ends the same way in both, and both finalize to the same plan or to the
same error, however libraries are named. -/
theorem interleaving_invariant (project : String) {calls calls' : List (ModulePath × Call)}
    (h : ∀ m, callsOn m calls = callsOn m calls') :
    (((empty project).run calls).2.length = calls.length ∧
        ((empty project).run calls').2.length = calls'.length) ∧
      (∀ m, resultsOn m calls ((empty project).run calls).2 =
        resultsOn m calls' ((empty project).run calls').2) ∧
      ∀ naming, ((empty project).run calls).1.finalize naming =
        ((empty project).run calls').1.finalize naming := by
  refine ⟨⟨length_results _ _, length_results _ _⟩, fun m => ?_, fun naming => ?_⟩
  · rw [(tracks_run (Tracks.empty project) calls).2 m,
      (tracks_run (Tracks.empty project) calls').2 m, h m]
  · rw [run_eq_of_callsOn_eq project h]

/-- Two modules, one after the other and interleaved; a repeated `beginModule` and a declaration
after the end fail in both. -/
theorem interleaving_invariant_two_modules :
    let a : ModulePath := ⟨"A"⟩
    let b : ModulePath := ⟨"libs/B"⟩
    let apart : List (ModulePath × Call) :=
      [(a, .beginModule), (a, .declare .compiledUnit ["foo"]), (a, .beginModule),
        (a, .requestLibrary true), (a, .endModule), (a, .declareUnit "late" false),
        (b, .declare .program ["run"]), (b, .beginModule), (b, .declare .program ["run"])]
    let mixed : List (ModulePath × Call) :=
      [(b, .declare .program ["run"]), (a, .beginModule), (b, .beginModule),
        (a, .declare .compiledUnit ["foo"]), (b, .declare .program ["run"]), (a, .beginModule),
        (a, .requestLibrary true), (a, .endModule), (a, .declareUnit "late" false)]
    (∀ m, callsOn m apart = callsOn m mixed) ∧
      ((empty "demo").run apart).1.finalize (.projectName "demo") =
        ((empty "demo").run mixed).1.finalize (.projectName "demo") := by
  intro a b apart mixed
  have h : ∀ m, callsOn m apart = callsOn m mixed := by
    intro m
    by_cases ha : a = m
    · have hb : b ≠ m := fun hb => absurd (ha.trans hb.symm) (by decide)
      simp [callsOn, apart, mixed, ha, hb]
    · by_cases hb : b = m <;> simp [callsOn, apart, mixed, ha, hb]
  exact ⟨h, (interleaving_invariant "demo" h).2.2 _⟩

end Registry

end ModularBuild
