import ModularBuild.Build.Site
import ModularBuild.Proofs.Build.Node
import ModularBuild.Proofs.Graph.Levels
import ModularBuild.Proofs.Preservation

/-!
# Rules for executions

What holds at the end of an execution is shown by what each node keeps (`runLevel_induct`) and what
each level keeps (`runLevels_induct`). The runs of an execution are recorded by a runner that does
the same otherwise (`runLevels_recorded`), and the runners of build sites are instances of the
runner of any workbench, whose nodes are judged early or late (`BuildSite.runner_eq`).
-/

namespace ModularBuild

namespace Runner

variable {σ : Type} {g : ArtifactGraph}

/-! ## One node -/

theorem fst_outcomeOf (r : Runner σ) (before : Outcomes) (start : σ) (n : NodeId) (s : σ) :
    (r.outcomeOf g before start n s).1.1 = n := by
  unfold outcomeOf
  cases g.poison? before n <;> rfl

theorem outcomeOf_skipped (r : Runner σ) {before : Outcomes} {start : σ} {n : NodeId} {s : σ}
    {because : String} (h : g.poison? before n = some because) :
    r.outcomeOf g before start n s = ((n, .skipped because), s) := by
  unfold outcomeOf
  rw [h]
  rfl

theorem outcomeOf_run (r : Runner σ) {before : Outcomes} {start : σ} {n : NodeId} {s : σ}
    (h : g.poison? before n = none) :
    r.outcomeOf g before start n s =
      ((n, .ofResult (r.run n before.built start s).1), (r.run n before.built start s).2) := by
  unfold outcomeOf
  rw [h]
  rfl

/-! ## One level -/

/-- What starts a level true, and is kept by each of its nodes and by what is told of them, is true
at its end. -/
theorem runLevel_induct (r : Runner σ) {P : Outcomes → σ → Prop} (before : Outcomes)
    (level : List NodeId) (s : σ) (hstart : P [] s)
    (hnode : ∀ done n rest t, level = done.map (·.1) ++ n :: rest → P done t →
      P (done ++ [(r.outcomeOf g before s n t).1]) (r.outcomeOf g before s n t).2)
    (htell : ∀ done e t, P done t → P done (r.announce e t).2) :
    ∃ os, (r.runLevel g before level s).1 = before ++ os ∧ os.map (·.1) = level ∧
      P os (r.runLevel g before level s).2 := by
  -- The nodes still to come are the list of the induction; those done are carried along.
  have hrun : ∀ (rest : List NodeId) (done : Outcomes) (t : σ),
      level = done.map (·.1) ++ rest → P done t →
      (done ++ (rest.mapM (r.outcomeOf g before s) t).1).map (·.1) = level ∧
        P (done ++ (rest.mapM (r.outcomeOf g before s) t).1)
          (rest.mapM (r.outcomeOf g before s) t).2 := by
    intro rest
    induction rest with
    | nil =>
      intro done t hlevel hdone
      rw [List.append_nil] at hlevel
      show (done ++ ([] : Outcomes)).map (·.1) = level ∧ P (done ++ []) t
      rw [List.append_nil]
      exact ⟨hlevel.symm, hdone⟩
    | cons n rest ih =>
      intro done t hlevel hdone
      have hfst := fst_outcomeOf (g := g) r before s n t
      have hnext := ih (done ++ [(r.outcomeOf g before s n t).1]) (r.outcomeOf g before s n t).2
        (by rw [List.map_append, List.map_singleton, hfst, List.append_assoc]; exact hlevel)
        (hnode done n rest t hlevel hdone)
      rw [List.append_assoc] at hnext
      rw [List.mapM_cons]
      exact hnext
  have htold : ∀ (events : List Event) (os : Outcomes) (t : σ), P os t →
      P os (events.forM r.announce t).2 := by
    intro events
    induction events with
    | nil => exact fun _ _ h => h
    | cons e events ih =>
      intro os t h
      exact ih os _ (htell os e t h)
  obtain ⟨hfst, hP⟩ := hrun level [] s rfl hstart
  exact ⟨_, rfl, hfst, htold _ _ _ hP⟩

theorem runLevel_eq {r : Runner σ} {before os : Outcomes} {level : List NodeId} {s t : σ}
    (hrun : level.mapM (r.outcomeOf g before s) s = (os, t)) :
    r.runLevel g before level s =
      (before ++ os, ((os.filterMap g.outcomeEvent?).forM r.announce t).2) := by
  show (before ++ (level.mapM (r.outcomeOf g before s) s).1,
    (((level.mapM (r.outcomeOf g before s) s).1.filterMap g.outcomeEvent?).forM r.announce
      (level.mapM (r.outcomeOf g before s) s).2).2) = _
  rw [hrun]

theorem runLevel_singleton {r : Runner σ} {before : Outcomes} {n : NodeId} {o : NodeId × Outcome}
    {s t : σ} (hrun : r.outcomeOf g before s n s = (o, t)) :
    r.runLevel g before [n] s =
      (before ++ [o], (([o].filterMap g.outcomeEvent?).forM r.announce t).2) := by
  refine runLevel_eq ?_
  rw [List.mapM_cons]
  simp only [bind, StateT.bind, hrun]
  rfl

theorem runLevel_of_mapM {r : Runner σ} {before os : Outcomes} {level : List NodeId} {s t : σ}
    (hrun : level.mapM (r.outcomeOf g before s) s = (os, t))
    (hquiet : os.filterMap g.outcomeEvent? = []) :
    r.runLevel g before level s = (before ++ os, t) := by
  rw [runLevel_eq hrun, hquiet]
  rfl

/-! ## All levels -/

/-- What starts an execution true and is kept by each level, the outcomes so far being those of the
levels below, is true at its end. -/
theorem runLevels_induct (r : Runner σ) {P : Outcomes → σ → Prop} (levels : List (List NodeId))
    (s : σ) (hstart : P [] s)
    (hlevel : ∀ lower level upper os t, levels = lower ++ level :: upper →
      os.map (·.1) = lower.flatten → P os t →
      P (r.runLevel g os level t).1 (r.runLevel g os level t).2) :
    (r.runLevels g levels s).1.map (·.1) = levels.flatten ∧
      P (r.runLevels g levels s).1 (r.runLevels g levels s).2 := by
  -- As in a level: the levels still to come are the list of the induction.
  have hrun : ∀ (upper lower : List (List NodeId)) (os : Outcomes) (t : σ),
      levels = lower ++ upper → os.map (·.1) = lower.flatten → P os t →
      (upper.foldlM (r.runLevel g) os t).1.map (·.1) = levels.flatten ∧
        P (upper.foldlM (r.runLevel g) os t).1 (upper.foldlM (r.runLevel g) os t).2 := by
    intro upper
    induction upper with
    | nil =>
      intro lower os t hlevels hos hP
      rw [List.append_nil] at hlevels
      rw [List.foldlM_nil]
      exact ⟨hlevels ▸ hos, hP⟩
    | cons level upper ih =>
      intro lower os t hlevels hos hP
      obtain ⟨new, hnew, hfst, -⟩ := r.runLevel_induct (g := g) (P := fun _ _ => True) os level t
        trivial (fun _ _ _ _ _ _ => trivial) (fun _ _ _ _ => trivial)
      rw [List.foldlM_cons]
      refine ih (lower ++ [level]) (r.runLevel g os level t).1 (r.runLevel g os level t).2
        (by rw [hlevels, List.append_assoc]; rfl) ?_ (hlevel lower level upper os t hlevels hos hP)
      rw [hnew, List.map_append, hos, hfst, List.flatten_append, List.flatten_singleton]
  exact hrun levels [] [] s rfl rfl hstart

/-- What starts an execution true and is kept by each node is true at its end, the outcomes so far
being those of the levels below and those before the node in its own level. -/
theorem runLevels_induct_node (r : Runner σ) {P : Outcomes → σ → Prop}
    (levels : List (List NodeId)) (s : σ) (hstart : P [] s)
    (hnode : ∀ lower level upper before done n rest start t, levels = lower ++ level :: upper →
      before.map (·.1) = lower.flatten → level = done.map (·.1) ++ n :: rest →
      P (before ++ done) t →
      P (before ++ (done ++ [(r.outcomeOf g before start n t).1]))
        (r.outcomeOf g before start n t).2)
    (htell : ∀ os e t, P os t → P os (r.announce e t).2) :
    P (r.runLevels g levels s).1 (r.runLevels g levels s).2 := by
  refine (r.runLevels_induct levels s hstart
    fun lower level upper before t hlevels hbefore hP => ?_).2
  obtain ⟨os, hos, -, hend⟩ := r.runLevel_induct (g := g) (P := fun done t => P (before ++ done) t)
    before level t (by rwa [List.append_nil])
    (fun done n rest t' hlevel h =>
      hnode lower level upper before done n rest t t' hlevels hbefore hlevel h)
    (fun done e t' h => htell _ e t' h)
  rw [hos]
  exact hend

theorem map_fst_runLevels (r : Runner σ) (levels : List (List NodeId)) (s : σ) :
    (r.runLevels g levels s).1.map (·.1) = levels.flatten :=
  (r.runLevels_induct (P := fun _ _ => True) levels s trivial fun _ _ _ _ _ _ _ _ => trivial).1

/-- The answer of an execution, and the state it ends in. -/
theorem execute_eq (r : Runner σ) (target : NodeId) (s : σ) :
    r.execute g target s =
      (match (r.runLevels g (g.levels target) s).1.firstError? with
        | some e => .error e
        | none => .ok (g.summarize (r.runLevels g (g.levels target) s).1),
      (r.runLevels g (g.levels target) s).2) := by
  show (match (r.runLevels g (g.levels target) s).1.firstError? with
    | some e => (pure (.error e) : StateM σ (Except BuildError BuildSummary))
    | none => pure (.ok (g.summarize (r.runLevels g (g.levels target) s).1)))
      (r.runLevels g (g.levels target) s).2 = _
  cases (r.runLevels g (g.levels target) s).1.firstError? <;> rfl

/-! ## Recording what is run -/

/-- The nodes that were run, in order, with what came of them. -/
abbrev Calls := List (NodeId × Except BuildError NodeStatus)

/-- A runner that keeps a record of the nodes it runs. -/
def recorded (r : Runner σ) : Runner (σ × Calls) where
  run n built start := fun (s, calls) =>
    let (result, t) := r.run n built start.1 s
    (result, t, calls ++ [(n, result)])
  announce e := fun (s, calls) => ((), (r.announce e s).2, calls)

theorem outcomeOf_recorded (r : Runner σ) (before : Outcomes) (start s : σ × Calls) (n : NodeId) :
    (r.recorded.outcomeOf g before start n s).1 = (r.outcomeOf g before start.1 n s.1).1 ∧
      (r.recorded.outcomeOf g before start n s).2.1 = (r.outcomeOf g before start.1 n s.1).2 := by
  cases h : g.poison? before n with
  | none =>
    rw [outcomeOf_run _ h, outcomeOf_run _ h]
    exact ⟨rfl, rfl⟩
  | some because =>
    rw [outcomeOf_skipped _ h, outcomeOf_skipped _ h]
    exact ⟨rfl, rfl⟩

theorem runLevel_recorded (r : Runner σ) (before : Outcomes) (level : List NodeId)
    (s : σ × Calls) :
    (r.recorded.runLevel g before level s).1 = (r.runLevel g before level s.1).1 ∧
      (r.recorded.runLevel g before level s).2.1 = (r.runLevel g before level s.1).2 := by
  have hrun : ∀ (level : List NodeId) (t : σ × Calls),
      (level.mapM (r.recorded.outcomeOf g before s) t).1 =
          (level.mapM (r.outcomeOf g before s.1) t.1).1 ∧
        (level.mapM (r.recorded.outcomeOf g before s) t).2.1 =
          (level.mapM (r.outcomeOf g before s.1) t.1).2 := by
    intro level
    induction level with
    | nil => exact fun _ => ⟨rfl, rfl⟩
    | cons n level ih =>
      intro t
      obtain ⟨hfst, hsnd⟩ := r.outcomeOf_recorded (g := g) before s t n
      obtain ⟨ih₁, ih₂⟩ := ih (r.recorded.outcomeOf g before s n t).2
      rw [hsnd] at ih₁ ih₂
      rw [List.mapM_cons, List.mapM_cons]
      exact ⟨congrArg₂ List.cons hfst ih₁, ih₂⟩
  have htold : ∀ (events : List Event) (t : σ × Calls),
      (events.forM r.recorded.announce t).2.1 = (events.forM r.announce t.1).2 := by
    intro events
    induction events with
    | nil => exact fun _ => rfl
    | cons e events ih =>
      intro t
      exact ih (r.recorded.announce e t).2
  obtain ⟨hfst, hsnd⟩ := hrun level s
  refine ⟨congrArg (before ++ ·) hfst, ?_⟩
  show (((level.mapM (r.recorded.outcomeOf g before s) s).1.filterMap g.outcomeEvent?).forM
    r.recorded.announce (level.mapM (r.recorded.outcomeOf g before s) s).2).2.1 = _
  rw [htold, hfst, hsnd]
  rfl

/-- Keeping a record changes neither what comes of an execution nor what it does. -/
theorem runLevels_recorded (r : Runner σ) (levels : List (List NodeId)) (s : σ × Calls) :
    (r.recorded.runLevels g levels s).1 = (r.runLevels g levels s.1).1 ∧
      (r.recorded.runLevels g levels s).2.1 = (r.runLevels g levels s.1).2 := by
  unfold runLevels
  generalize ([] : Outcomes) = os
  induction levels generalizing os s with
  | nil => exact ⟨rfl, rfl⟩
  | cons level levels ih =>
    obtain ⟨hfst, hsnd⟩ := r.runLevel_recorded (g := g) os level s
    obtain ⟨ih₁, ih₂⟩ := ih (r.recorded.runLevel g os level s).2
      (r.recorded.runLevel g os level s).1
    rw [List.foldlM_cons, List.foldlM_cons]
    exact ⟨ih₁.trans (by rw [hfst, hsnd]; rfl), ih₂.trans (by rw [hfst, hsnd]; rfl)⟩

end Runner

/-! ## Levels that begin -/

namespace ArtifactGraph

variable {g : ArtifactGraph} {before done : Outcomes} {level : List NodeId} {n target : NodeId}

/-- What is known of a level when it begins, `before` being the outcomes of those below. -/
structure Ready (g : ArtifactGraph) (before : Outcomes) (level : List NodeId) : Prop where
  once : (before.map (·.1) ++ level).Nodup
  within : ∀ n ∈ level, n < g.nodes.size
  needs : ∀ n ∈ level, ∀ d, g.Needs n d → d ∈ before.map (·.1)

theorem Ready.not_mem_before (h : g.Ready before level) (hn : n ∈ level) :
    n ∉ before.map (·.1) := fun hmem =>
  (List.nodup_append.mp h.once).2.2 n hmem n hn rfl

theorem Ready.not_mem_of_needs (h : g.Ready before level) (hn : n ∈ level) {d : NodeId}
    (hneeds : g.Needs n d) : d ∉ level := fun hmem =>
  (List.nodup_append.mp h.once).2.2 d (h.needs n hn d hneeds) d hmem rfl

theorem Ready.not_mem_done (h : g.Ready before level) {rest : List NodeId}
    (hlevel : level = done.map (·.1) ++ n :: rest) : n ∉ (before ++ done).map (·.1) := by
  intro hmem
  have honce := h.once
  rw [hlevel, ← List.append_assoc, ← List.map_append] at honce
  exact (List.nodup_append.mp honce).2.2 n hmem n List.mem_cons_self rfl

theorem ready_of_levels (hord : g.Ordered) (htarget : target < g.nodes.size)
    {lower upper : List (List NodeId)} (hlevels : g.levels target = lower ++ level :: upper)
    (hbefore : before.map (·.1) = lower.flatten) : g.Ready before level := by
  have hnodup := nodup_flatten_levels target hord
  rw [hlevels, List.flatten_append, List.flatten_cons, ← List.append_assoc] at hnodup
  refine ⟨hbefore ▸ (List.nodup_append.mp hnodup).1, fun n hn => ?_, fun n hn d hd => ?_⟩
  · have hmem : n ∈ (g.levels target).flatten := by simp [hlevels, hn]
    exact ((mem_flatten_levels_iff hord htarget).mp hmem).lt_size hord.within htarget
  · rw [hbefore]
    exact mem_lower_of_needs hord htarget hlevels hn hd

end ArtifactGraph

/-! ## Runners of workbenches -/

/-- The runner of a workbench on a graph. A node is judged late if it finds what those before it in
its level have left, and early if it finds what there was when its level began. -/
def Workbench.runner {σ : Type} (b : Workbench σ) (g : ArtifactGraph) (late : NodeId → Bool)
    (announce : Event → StateM σ Unit) : Runner σ where
  run n built start := do
    let now ← get
    b.runNodeSeeing g n built (if late n then now else start)
  announce := announce

namespace Workbench

variable {σ : Type} {b : Workbench σ} {g : ArtifactGraph} {late : NodeId → Bool}
  {announce : Event → StateM σ Unit} {before : Outcomes} {n : NodeId} {start seen s : σ}

/-- The outcome of a node on which nothing has to be done. -/
def judge? (b : Workbench σ) (g : ArtifactGraph) (before : Outcomes) (seen : σ) (n : NodeId) :
    Option Outcome :=
  match g.poison? before n with
  | some because => some (.skipped because)
  | none => (b.verdict? g n before.built seen).map .ofResult

theorem outcomeOf_of_judged {o : Outcome}
    (h : b.judge? g before (if late n then s else start) n = some o) :
    (b.runner g late announce).outcomeOf g before start n s = ((n, o), s) := by
  unfold judge? at h
  cases hpoison : g.poison? before n with
  | some because =>
    rw [hpoison] at h
    cases h
    rw [Runner.outcomeOf_skipped _ hpoison]
  | none =>
    rw [hpoison] at h
    obtain ⟨result, hresult, rfl⟩ := Option.map_eq_some_iff.mp h
    rw [Runner.outcomeOf_run _ hpoison]
    show ((n,
        Outcome.ofResult (b.runNodeSeeing g n before.built (if late n then s else start) s).1),
      (b.runNodeSeeing g n before.built (if late n then s else start) s).2) = _
    rw [runNodeSeeing_of_verdict hresult]

/-- A node for which there is no outcome without doing anything has its action performed. -/
theorem exists_of_not_judged (h : b.judge? g before seen n = none) :
    ∃ p, (g.node n).path = some p ∧ (g.node n).action ≠ .source ∧
      ∀ late announce start s, (if late n then s else start) = seen →
        (b.runner g late announce).outcomeOf g before start n s =
          ((n, .ofResult (b.performOrDiscard (g.node n) p s).1),
            (b.performOrDiscard (g.node n) p s).2) := by
  unfold judge? at h
  cases hpoison : g.poison? before n with
  | some because =>
    rw [hpoison] at h
    cases h
  | none =>
    rw [hpoison] at h
    obtain ⟨p, hpath, hsource, hrun⟩ :=
      runNodeSeeing_of_no_verdict (Option.map_eq_none_iff.mp h)
    refine ⟨p, hpath, hsource, fun late announce start s hseen => ?_⟩
    rw [Runner.outcomeOf_run _ hpoison, ← hrun, ← hseen]
    rfl

/-- What the action of a node, and the removal of what it has left if it failed, keep true, the run
of the node keeps true. -/
theorem preserves_outcomeOf {I : σ → Prop} (hg : g.WellFormed)
    (hperform : ∀ p, g.Output n p → Preserves I (b.perform (g.node n) p))
    (hdiscard : ∀ p, g.Output n p → Preserves I (b.discard p)) (late : NodeId → Bool)
    (before : Outcomes) (start : σ) :
    Preserves I ((b.runner g late announce).outcomeOf g before start n) := by
  have houtput : ∀ p, (g.node n).path = some p → (g.node n).action ≠ .source → g.Output n p := by
    intro p hpath hsource
    have hn := ArtifactGraph.lt_size_of_path hpath
    exact ⟨hg.producesOutput_of_path hn hpath hsource, hpath⟩
  intro t ht
  cases hpoison : g.poison? before n with
  | some because => rwa [Runner.outcomeOf_skipped _ hpoison]
  | none =>
    rw [Runner.outcomeOf_run _ hpoison]
    have hruns := b.runsTo g n before.built (if late n then t else start) t
    show I (b.runNodeSeeing g n before.built (if late n then t else start) t).2
    generalize b.runNodeSeeing g n before.built (if late n then t else start) t = r at hruns
    obtain ⟨result, t'⟩ := r
    cases hruns with
    | phony | there | missing | fresh => exact ht
    | made hpath hsource hfresh hmade =>
      have hmade' := hperform _ (houtput _ hpath hsource) t ht
      rwa [hmade] at hmade'
    | broken hpath hsource hfresh hbroken =>
      have hbroken' := hperform _ (houtput _ hpath hsource) t ht
      rw [hbroken] at hbroken'
      exact hdiscard _ (houtput _ hpath hsource) _ hbroken'

/-- What every action, and every removal of what a failed one has left, keeps true, and what is told
does not affect, an execution keeps true. -/
theorem preserves_execute {I : σ → Prop} (hg : g.WellFormed)
    (hperform : ∀ n p, g.Output n p → Preserves I (b.perform (g.node n) p))
    (hdiscard : ∀ n p, g.Output n p → Preserves I (b.discard p))
    (htell : ∀ e, Preserves I (announce e)) (late : NodeId → Bool) (target : NodeId) :
    Preserves I ((b.runner g late announce).execute g target) := by
  intro s hs
  rw [Runner.execute_eq]
  exact (b.runner g late announce).runLevels_induct_node (P := fun _ t => I t) _ s hs
    (fun _ _ _ before _ n _ start t _ _ _ ht =>
      preserves_outcomeOf hg (hperform n) (hdiscard n) late before start t ht)
    (fun _ e t ht => htell e t ht)

/-- An execution keeps true what the nodes that its target needs keep true. -/
theorem preserves_execute_of_reaches {I : σ → Prop} (hg : g.WellFormed) (hord : g.Ordered)
    {target : NodeId} (htarget : target < g.nodes.size)
    (hperform : ∀ n p, g.Reaches target n → g.Output n p → Preserves I (b.perform (g.node n) p))
    (hdiscard : ∀ p, Preserves I (b.discard p)) (htell : ∀ e, Preserves I (announce e))
    (late : NodeId → Bool) : Preserves I ((b.runner g late announce).execute g target) := by
  intro s hs
  rw [Runner.execute_eq]
  refine (b.runner g late announce).runLevels_induct_node (P := fun _ t => I t) _ s hs ?_
    (fun _ e t ht => htell e t ht)
  intro lower level upper before done n rest start t hlevels _ hlevel ht
  have hmem : n ∈ (g.levels target).flatten := by simp [hlevels, hlevel]
  have hreach := (ArtifactGraph.mem_flatten_levels_iff hord htarget).mp hmem
  exact preserves_outcomeOf hg (fun p => hperform n p hreach) (fun p _ => hdiscard p) late before
    start t ht

end Workbench

namespace BuildSite

/-- A site with one job judges every node late, any other site early. -/
theorem runner_eq (site : BuildSite) (h : Host) (g : ArtifactGraph) :
    site.runner h g = (site.workbench h).runner g (fun _ => site.jobs = some 1) World.tell := by
  unfold runner Workbench.runner
  simp only [decide_eq_true_eq]

/-- What is prepared before a command does what it does, and fails as an action. -/
theorem prepare_eq (artifact : String) (op : Operation Unit) (w : World) :
    (prepare artifact op).run w =
      ((op.run w).1.mapError fun e => .actionFailed artifact "" e.message, (op.run w).2) := by
  have hlift : (liftM op.run : Work (Except Failure Unit)).run w =
      (.ok (op.run w).1, (op.run w).2) := rfl
  unfold prepare
  rw [run_bind_of_ok hlift]
  cases (op.run w).1 <;> rfl

/-- What is told of an action before it is performed is all that performing it adds. -/
theorem exists_perform_eq (site : BuildSite) (h : Host) (node : Node) (p : Path) :
    ∃ es, ∀ w, (site.workbench h).perform node p w =
      (site.act h node p).run { w with events := es ++ w.events } := by
  unfold workbench
  dsimp only
  generalize site.act h node p = work
  cases site.verbose with
  | true =>
    exact ⟨[.line (alignRight 12 (verb node.action) ++ " " ++ node.displayName)], fun _ => rfl⟩
  | false => exact ⟨[], fun _ => rfl⟩

end BuildSite

end ModularBuild
