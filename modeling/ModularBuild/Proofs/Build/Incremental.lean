import ModularBuild.Proofs.Build.Outcomes
import ModularBuild.Proofs.Build.Workshop

/-!
# Incremental builds are sound

However a project came to be as it is, by edits of its sources, removals of outputs and executions
of any targets, an execution that succeeds leaves every output that its target needs with the
content that a build from scratch gives it. `Progress` is what holds all through one execution,
`Evolves` lists what may happen to a project, and `Made` is what a build from scratch makes of given
sources. Of the tools nothing is asked but in the states that the executions pass through.
-/

namespace ModularBuild.ArtifactGraph

variable {σ κ : Type} {g : ArtifactGraph} {look : σ → Snapshot κ}
  {make : Action → List (Path × Option κ) → κ} {b : Workbench σ}
  {announce : Event → StateM σ Unit} {s s' start t : σ} {w w' : Snapshot κ}
  {n target : NodeId}

/-! ## An execution -/

/-- What an execution that began with the files `w` has come to with the files `w'`. -/
structure Progress (g : ArtifactGraph) (make : Action → List (Path × Option κ) → κ)
    (w : Snapshot κ) (os : Outcomes) (w' : Snapshot κ) : Prop where
  sound : g.Sound make w'
  current : ∀ n status, (n, .ofResult (.ok status)) ∈ os → g.Current w' n
  /-- Files that are no outputs are left alone. -/
  sources : ∀ n, ¬ (g.node n).action.producesOutput → g.contents w' n = g.contents w n

/-- What a level that began in the state `start` has come to: only the files of the nodes done since
differ from those that it found. -/
structure Advanced (g : ArtifactGraph) (make : Action → List (Path × Option κ) → κ)
    (b : Workbench σ) (announce : Event → StateM σ Unit) (look : σ → Snapshot κ) (s start : σ)
    (before done : Outcomes) (t : σ) : Prop where
  passed : b.Passes announce g s t
  progress : g.Progress make (look s) (before ++ done) (look t)
  waiting : ∀ m, m ∉ done.map (·.1) → ∀ p, (g.node m).path = some p → look t p = look start p

/-- A node that is skipped changes nothing. -/
theorem Advanced.skip {before done : Outcomes}
    (h : g.Advanced make b announce look s start before done t) (because : String) :
    g.Advanced make b announce look s start before (done ++ [(n, .skipped because)]) t := by
  refine ⟨h.passed, ⟨h.progress.sound, fun m status hm => ?_, h.progress.sources⟩,
    fun m hm => h.waiting m fun hmem => hm ?_⟩
  · rw [← List.append_assoc] at hm
    rcases List.mem_append.mp hm with hm | hm
    · exact h.progress.current m status hm
    · cases status <;> cases List.mem_singleton.mp hm
  · rw [List.map_append]
    exact List.mem_append_left _ hmem

theorem Advanced.outcomeOf (hb : b.Orderly announce g look make s) (hg : g.WellFormed)
    (hord : g.Ordered) (hpaths : g.OneNodePerPath) (htarget : target < g.nodes.size)
    {late : NodeId → Bool} {before done : Outcomes} {rest : List NodeId}
    (hsplit : (g.levels target).flatten = (before ++ done).map (·.1) ++ n :: rest)
    (hbefore : ∀ d, g.Needs n d → d ∈ before.map (·.1)) (hstart : b.Passes announce g s start)
    (h : g.Advanced make b announce look s start before done t) :
    g.Advanced make b announce look s start before
      (done ++ [((b.runner g late announce).outcomeOf g before start n t).1])
      ((b.runner g late announce).outcomeOf g before start n t).2 := by
  have hnodup := nodup_flatten_levels target hord
  have hnmem : n ∈ (g.levels target).flatten := by simp [hsplit]
  have hn := ((mem_flatten_levels_iff hord htarget).mp hnmem).lt_size hord.within htarget
  rw [hsplit] at hnodup
  obtain ⟨hkeys, -, hdisjoint⟩ := List.nodup_append.mp hnodup
  have hother : ∀ m o, (m, o) ∈ before ++ done → m ≠ n ∧ ¬ g.Needs m n := fun m o hm =>
    have hm : m ∈ (before ++ done).map (·.1) := List.mem_map_of_mem hm
    ⟨hdisjoint m hm n List.mem_cons_self, not_needs_of_mem_before hord htarget hsplit hm⟩
  rw [List.map_append, List.nodup_append] at hkeys
  cases hpoison : g.poison? before n with
  | some because =>
    rw [Runner.outcomeOf_skipped _ hpoison]
    exact h.skip because
  | none =>
    rw [Runner.outcomeOf_run _ hpoison]
    have hrun := b.runsTo g n before.built (if late n then t else start) t
    have hredoes := redoes_of_runsTo hb hg hn h.passed hrun
    have hpassed : b.Passes announce g s (if late n then t else start) := by
      split
      · exact h.passed
      · exact hstart
    -- Neither the node nor what it needs has been done since the level began.
    have hseen : ∀ m, m = n ∨ g.Needs n m → ∀ p, (g.node m).path = some p →
        look (if late n then t else start) p = look t p := by
      intro m hm p hp
      split
      · rfl
      · refine (h.waiting m (fun hmem => ?_) p hp).symm
        rcases hm with rfl | hm
        · exact hdisjoint m (by rw [List.map_append]; exact List.mem_append_right _ hmem) m
            List.mem_cons_self rfl
        · exact hkeys.2.2 m (hbefore m hm) m hmem rfl
    have hcurrent : ∀ d, g.Needs n d → g.Current (look t) d := fun d hd =>
      have ⟨status, hd⟩ := ok_of_poison?_eq_none hkeys.1 hpoison hd (hbefore d hd)
      h.progress.current d status (List.mem_append_left _ hd)
    refine ⟨h.passed.runsTo hg hn hrun, ⟨h.progress.sound.run hord hpaths hredoes,
      fun m status hm => ?_, fun m hm => ?_⟩, fun m hm p hp => ?_⟩
    · rw [← List.append_assoc] at hm
      rcases List.mem_append.mp hm with hm | hm
      · obtain ⟨hne, hneeds⟩ := hother m _ hm
        exact (h.progress.current m status hm).run hpaths hredoes hne hneeds
      · obtain ⟨hmn, hresult⟩ := Prod.mk.inj (List.mem_singleton.mp hm)
        have hresult : .ok status =
            (b.runNodeSeeing g n before.built (if late n then t else start) t).1 :=
          Outcome.ofResult_inj hresult
        rw [← hresult] at hrun
        rw [hmn]
        exact current_of_runsTo hb hg hn h.passed hord hpaths hpassed hseen hcurrent hrun
    · exact (hredoes.source_eq hpaths hm).trans (h.progress.sources m hm)
    · rw [List.map_append, List.mem_append, not_or] at hm
      have hmn : m ≠ n := fun hmn => hm.2 (by simp [hmn])
      exact (hredoes.file_eq hpaths hmn hp).trans (h.waiting m hm.1 p hp)

/-- Every execution that begins with sound files makes progress. -/
theorem progress_runLevels (hb : b.Orderly announce g look make s) (hg : g.WellFormed)
    (hord : g.Ordered) (hpaths : g.OneNodePerPath) (htarget : target < g.nodes.size)
    (late : NodeId → Bool) (hs : g.Sound make (look s)) :
    g.Progress make (look s) ((b.runner g late announce).runLevels g (g.levels target) s).1
      (look ((b.runner g late announce).runLevels g (g.levels target) s).2) := by
  refine ((b.runner g late announce).runLevels_induct
    (P := fun os t => b.Passes announce g s t ∧ g.Progress make (look s) os (look t)) _ s
    ⟨.start, hs, nofun, fun _ _ => rfl⟩
    fun lower level upper before start hlevels hbefore ⟨hpassed, h⟩ => ?_).2.2
  have hneeds : ∀ n ∈ level, ∀ d, g.Needs n d → d ∈ before.map (·.1) := fun n hn d hd => by
    rw [hbefore]
    exact mem_lower_of_needs hord htarget hlevels hn hd
  obtain ⟨os, hos, -, hend⟩ := (b.runner g late announce).runLevel_induct (g := g)
    (P := fun done t => g.Advanced make b announce look s start before done t)
    before level start ⟨hpassed, by rwa [List.append_nil], fun _ _ _ _ => rfl⟩
    (fun done n rest t hlevel hdone => by
      have hsplit : (g.levels target).flatten =
          (before ++ done).map (·.1) ++ n :: (rest ++ upper.flatten) := by
        rw [hlevels, List.flatten_append, List.flatten_cons, hlevel, List.map_append, hbefore]
        simp only [List.append_assoc, List.cons_append]
      exact hdone.outcomeOf hb hg hord hpaths htarget hsplit
        (hneeds n (by rw [hlevel]; simp)) hpassed)
    (fun done e t hdone => by
      have hlook : look ((b.runner g late announce).announce e t).2 = look t :=
        hb.announces e t hdone.passed
      exact ⟨hdone.passed.told e, by rw [hlook]; exact hdone.progress,
        by rw [hlook]; exact hdone.waiting⟩)
  rw [hos]
  exact ⟨hend.passed, hend.progress⟩

/-- An execution of any target, whether it succeeds or fails, keeps what ages say. -/
theorem Sound.execute (hs : g.Sound make (look s)) (hb : b.Orderly announce g look make s)
    (hg : g.WellFormed) (hord : g.Ordered) (hpaths : g.OneNodePerPath)
    (htarget : target < g.nodes.size) (late : NodeId → Bool) :
    g.Sound make (look ((b.runner g late announce).execute g target s).2) := by
  rw [Runner.execute_eq]
  exact (progress_runLevels hb hg hord hpaths htarget late hs).sound

theorem current_of_execute_ok (hs : g.Sound make (look s)) (hb : b.Orderly announce g look make s)
    (hg : g.WellFormed) (hord : g.Ordered) (hpaths : g.OneNodePerPath)
    (htarget : target < g.nodes.size) {late : NodeId → Bool} {summary : BuildSummary}
    (hok : ((b.runner g late announce).execute g target s).1 = .ok summary)
    (hn : g.Reaches target n) :
    g.Current (look ((b.runner g late announce).execute g target s).2) n := by
  have hprogress := progress_runLevels hb hg hord hpaths htarget late hs
  have hall := allSettled_runLevels (b.runner g late announce) hord htarget s
  have hfirst := (execute_eq_ok hok).1
  have horder := (b.runner g late announce).map_fst_runLevels (g := g) (g.levels target) s
  rw [Runner.execute_eq]
  generalize (b.runner g late announce).runLevels g (g.levels target) s = done at *
  have hmem : n ∈ done.1.map (·.1) := by
    rw [horder]
    exact (mem_flatten_levels_iff hord htarget).mpr hn
  obtain ⟨⟨n, o⟩, hno, rfl⟩ := List.mem_map.mp hmem
  obtain ⟨status, rfl⟩ := hall.ok_of_no_failure hord (not_mem_of_firstError?_eq_none hfirst) hno
  exact hprogress.current n status hno

/-! ## What a build from scratch makes -/

/-- What is made of given sources: of a source itself, and of an output by its action from what is
made of everything it needs. -/
inductive Made (g : ArtifactGraph) (make : Action → List (Path × Option κ) → κ)
    (source? : NodeId → Option κ) : NodeId → κ → Prop
  | source {n : NodeId} {c : κ} : (g.node n).action = .source → source? n = some c →
      Made g make source? n c
  | output {n : NodeId} (known : NodeId → κ) : (g.node n).action.producesOutput →
      (∀ d, g.Needs n d → (g.node d).path ≠ none → Made g make source? d (known d)) →
      Made g make source? n (make (g.node n).action (g.inputs (fun d => some (known d)) n))

variable {source? source?' : NodeId → Option κ} {c c' : κ}

theorem Made.congr (h : g.Made make source? n c)
    (hsame : ∀ m, (g.node m).action = .source → source? m = source?' m) :
    g.Made make source?' n c := by
  induction h with
  | source hsource hc => exact .source hsource (hsame _ hsource ▸ hc)
  | output known hout _ ih => exact .output known hout ih

theorem Made.unique (hord : g.Ordered) (h : g.Made make source? n c)
    (h' : g.Made make source? n c') : c = c' := by
  induction n using hord.induction generalizing c c' with
  | step n ih =>
    cases h with
    | source hsource hc =>
      cases h' with
      | source _ hc' => exact Option.some.inj (hc.symm.trans hc')
      | output known' hout' _ =>
        rw [hsource] at hout'
        cases hout'
    | output known hout hknown =>
      cases h' with
      | source hsource' _ =>
        rw [hsource'] at hout
        cases hout
      | output known' _ hknown' =>
        have hinputs : g.inputs (fun d => some (known d)) n =
            g.inputs (fun d => some (known' d)) n :=
          inputs_congr fun d hd q hq => congrArg some <|
            ih d hd (hknown d hd (by simp [hq])) (hknown' d hd (by simp [hq]))
        rw [hinputs]

/-- Where ages say what they should, everything current is what a build from scratch makes. -/
theorem made_of_current (hg : g.WellFormed) (hord : g.Ordered) (htarget : target < g.nodes.size)
    (hs : g.Sound make w) (hcurrent : ∀ n, g.Reaches target n → g.Current w n)
    (hn : g.Reaches target n) {p : Path} (hp : (g.node n).path = some p) :
    ∃ t c, w p = some (t, c) ∧ g.Made make (g.contents w) n c := by
  induction n using hord.induction generalizing p with
  | step n ih =>
    obtain ⟨t, c, hfile, hnewer⟩ := hcurrent n hn p hp
    refine ⟨t, c, hfile, ?_⟩
    by_cases hsource : (g.node n).action = .source
    · refine .source hsource ?_
      rw [contents_of_path hp, hfile]
      rfl
    · have hout := hg.producesOutput_of_path (hn.lt_size hord.within htarget) hp hsource
      -- Files that are needed are there, so that it does not matter what stands for others.
      have hknown : ∀ d, g.Needs n d → ∀ q, (g.node d).path = some q →
          g.contents w d = some ((g.contents w d).getD c) ∧
            g.Made make (g.contents w) d ((g.contents w d).getD c) := by
        intro d hd q hq
        obtain ⟨t', c', hfile', hmade⟩ := ih d hd (hn.tail hd) hq
        rw [contents_of_path hq, hfile']
        exact ⟨rfl, hmade⟩
      rw [hs n p ⟨hout, hp⟩ t c hfile (hnewer hout),
        inputs_congr fun d hd q hq => (hknown d hd q hq).1]
      refine .output _ hout fun d hd hd' => ?_
      obtain ⟨q, hq⟩ := Option.ne_none_iff_exists'.mp hd'
      exact (hknown d hd q hq).2

/-! ## Whole histories -/

/-- What may happen to a project. -/
inductive Evolves (g : ArtifactGraph) (b : Workbench σ) (announce : Event → StateM σ Unit)
    (look : σ → Snapshot κ) (make : Action → List (Path × Option κ) → κ) : σ → σ → Prop
  /-- A source is written. -/
  | edit {s s' : σ} {n : NodeId} {p : Path} {c : κ} : (g.node n).action = .source →
      (g.node n).path = some p → g.Writes (look s) p c (look s') →
      Evolves g b announce look make s s'
  /-- A source or an output is removed. -/
  | remove {s s' : σ} {n : NodeId} {p : Path} : (g.node n).path = some p →
      g.Removes (look s) p (look s') → Evolves g b announce look make s s'
  | execute {s : σ} {target : NodeId} (late : NodeId → Bool) : target < g.nodes.size →
      b.Orderly announce g look make s →
      Evolves g b announce look make s ((b.runner g late announce).execute g target s).2

/-- Ages say what they should all through the history of a project. -/
theorem sound_of_history (hg : g.WellFormed) (hord : g.Ordered) (hpaths : g.OneNodePerPath)
    (hs : g.Sound make (look s))
    (hhistory : Relation.ReflTransGen (g.Evolves b announce look make) s s') :
    g.Sound make (look s') := by
  induction hhistory with
  | refl => exact hs
  | tail _ hstep ih =>
    cases hstep with
    | edit hsource hp hwrite => exact ih.edit hord hpaths hp hsource hwrite
    | remove hp hremove => exact ih.remove hord hpaths hp hremove
    | execute late htarget hb => exact ih.execute hb hg hord hpaths htarget late

/-- **Incremental builds are sound.** After any history that began without outputs, an execution
that succeeds leaves every output that its target needs as it is made of the sources, and as any
execution that succeeds from the same sources and without outputs leaves it. The tools are orderly
in every execution, as far as it goes. -/
theorem incremental_sound {plan : Plan} {f : FileNames} {policy : LinkPolicy} {mode : BuildMode}
    (hderive : (derive plan f policy mode).result = .ok g) (hpaths : g.OneNodePerPath) {s₀ : σ}
    (hstart : ∀ n p, g.Output n p → look s₀ p = none)
    (hhistory : Relation.ReflTransGen (g.Evolves b announce look make) s₀ s)
    (hb : b.Orderly announce g look make s) (htarget : target < g.nodes.size)
    {late : NodeId → Bool} {summary : BuildSummary}
    (hok : ((b.runner g late announce).execute g target s).1 = .ok summary) :
    let w := look ((b.runner g late announce).execute g target s).2
    ∀ n p, g.Reaches target n → g.Output n p →
      ∃ t c, w p = some (t, c) ∧ g.Made make (g.contents w) n c ∧
        ∀ s₁ late₁ summary₁, b.Orderly announce g look make s₁ →
          (∀ m q, g.Output m q → look s₁ q = none) →
          (∀ m, (g.node m).action = .source → g.contents (look s₁) m = g.contents w m) →
          ((b.runner g late₁ announce).execute g target s₁).1 = .ok summary₁ →
          g.contents (look ((b.runner g late₁ announce).execute g target s₁).2) n = some c := by
  intro w n p hn hout
  have hg := wellFormed_derive hderive
  have hord := ordered_derive hderive
  have hs := sound_of_history hg hord hpaths (sound_of_no_outputs hstart) hhistory
  obtain ⟨t, c, hfile, hmade⟩ := made_of_current hg hord htarget
    (hs.execute hb hg hord hpaths htarget late)
    (fun _ => current_of_execute_ok hs hb hg hord hpaths htarget hok) hn hout.2
  refine ⟨t, c, hfile, hmade, fun s₁ late₁ summary₁ hb₁ hstart₁ hsources hok₁ => ?_⟩
  have hs₁ : g.Sound make (look s₁) := sound_of_no_outputs hstart₁
  obtain ⟨t₁, c₁, hfile₁, hmade₁⟩ := made_of_current hg hord htarget
    (hs₁.execute hb₁ hg hord hpaths htarget late₁)
    (fun _ => current_of_execute_ok hs₁ hb₁ hg hord hpaths htarget hok₁) hn hout.2
  have hprogress := progress_runLevels hb₁ hg hord hpaths htarget late₁ hs₁
  -- A run changes no source, so both executions end with the same sources.
  have hsame : ∀ m, (g.node m).action = .source →
      g.contents (look ((b.runner g late₁ announce).execute g target s₁).2) m =
        g.contents w m := fun m hm => by
    rw [Runner.execute_eq]
    exact (hprogress.sources m (by rw [hm]; exact nofun)).trans (hsources m hm)
  rw [contents_of_path hout.2, hfile₁]
  exact congrArg some ((hmade₁.congr hsame).unique hord hmade)

/-! ## Two stages on disk -/

open BuildSite FileSystem

/-- The first stage makes nothing of an empty seed, but leaves a part of its file; the second takes
what the first has made. -/
def stageRecipes : String → Option Recipe
  | "make-a" => some ⟨[⟨"gen/seed.txt"⟩], ⟨"gen/a.txt"⟩, fun contents =>
      if contents.flatten = [] then .error [0] else .ok (1 :: contents.flatten)⟩
  | "make-b" => some ⟨[⟨"gen/a.txt"⟩], ⟨"gen/b.txt"⟩, fun contents => .ok (2 :: contents.flatten)⟩
  | _ => none

theorem supplied_twoStages : demoSite.Supplied twoStages stageRecipes ["demo", "gen"] := by
  refine supplied_of_size constructs_twoStages.size (by decide) (by decide) (by decide)
    fun n p hout => ?_
  have hn : ∀ n < 8, ∀ p ∈ (twoStages.node n).path, (twoStages.node n).action.producesOutput →
      n = 5 ∧ p = ⟨"gen/a.txt"⟩ ∨ n = 6 ∧ p = ⟨"gen/b.txt"⟩ := by decide
  rw [constructs_twoStages.dependencies]
  rcases hn n (constructs_twoStages.size ▸ lt_size_of_path hout.2) p hout.2 hout.1 with
    ⟨rfl, rfl⟩ | ⟨rfl, rfl⟩
  · exact ⟨"make-a", [], ⟨"gen"⟩, _, by decide, rfl⟩
  · exact ⟨"make-b", [], ⟨"gen"⟩, _, by decide, rfl⟩

theorem oneNodePerPath_twoStages : twoStages.OneNodePerPath :=
  oneNodePerPath_of_size constructs_twoStages.size (by decide)

theorem nodes_twoStages : (twoStages.node 7).path = some ⟨"gen/seed.txt"⟩ ∧
    (twoStages.node 7).action = .source ∧ twoStages.Output 5 ⟨"gen/a.txt"⟩ ∧
    (twoStages.node 5).action = .generate ["make-a"] ⟨"gen"⟩ ∧
    twoStages.Output 6 ⟨"gen/b.txt"⟩ ∧ (twoStages.node 6).action = .generate ["make-b"] ⟨"gen"⟩ ∧
    (twoStages.node 4).path = none := by
  unfold Output
  decide

theorem inputs_twoStages (known : NodeId → Option Content) :
    twoStages.inputs known 5 = [(⟨"gen/seed.txt"⟩, known 7)] ∧
      twoStages.inputs known 6 = [(⟨"gen/a.txt"⟩, known 5)] := by
  simp only [inputs, constructs_twoStages.dependencies]
  exact ⟨rfl, rfl⟩

theorem execute_twoStages {known : NodeId → Option Content} {seed : List UInt8} {t : World}
    (h : demoSite.Holds twoStages stageRecipes ["demo", "gen"] t known)
    (hseed : known 7 = some (.file seed)) (hfirst : known 5 = none) :
    ∃ t', (demoSite.runner (recipeHost demoSite stageRecipes) twoStages).execute twoStages 4 t =
        (if seed = [] then .error (failure (twoStages.node 5)) else .ok ⟨2, 0⟩, t') ∧
      demoSite.Holds twoStages stageRecipes ["demo", "gen"] t' (if seed = []
        then Function.update known 5 none
        else Function.update (Function.update known 5 (some (.file (1 :: seed)))) 6
          (some (.file (2 :: 1 :: seed)))) := by
  obtain ⟨hseedPath, hseedSource, hout₅, haction₅, hout₆, haction₆, htarget⟩ := nodes_twoStages
  rw [runner_eq, Runner.execute_eq, levels_twoStages]
  generalize (fun _ : NodeId => decide (demoSite.jobs = some 1)) = late
  have hrun₇ := h.runLevel_source late [] hseedPath hseedSource
    (by rw [poison?, constructs_twoStages.dependencies]; rfl) (by rw [hseed]; rfl)
  have hpoison₅ : twoStages.poison? [(7, .fresh)] 5 = none := by
    rw [poison?, constructs_twoStages.dependencies]
    rfl
  by_cases hempty : seed = []
  · -- The first stage fails, and what needs its file is skipped.
    subst hempty
    obtain ⟨t₅, hrun₅, h₅⟩ := h.runLevel_failed late _ supplied_twoStages oneNodePerPath_twoStages
      hout₅ hpoison₅ (.inl hfirst) (by rw [(inputs_twoStages known).1, hseed, haction₅]; rfl)
    obtain ⟨t₆, hrun₆, h₆⟩ := h₅.runLevel_skipped late
      [(7, .fresh), (5, .failed (failure (twoStages.node 5)))]
      (show twoStages.poison? _ 6 = some "gen/a.txt" by
        rw [poison?, constructs_twoStages.dependencies]; rfl)
    obtain ⟨t₄, hrun₄, h₄⟩ := h₆.runLevel_skipped late
      [(7, .fresh), (5, .failed (failure (twoStages.node 5))), (6, .skipped "gen/a.txt")]
      (show twoStages.poison? _ 4 = some "gen/a.txt" by
        rw [poison?, constructs_twoStages.dependencies]; rfl)
    refine ⟨t₄, ?_, h₄⟩
    simp only [Runner.runLevels, List.foldlM_cons, List.foldlM_nil, bind, StateT.bind, hrun₇,
      hrun₅, hrun₆, hrun₄, List.cons_append, List.nil_append]
    rfl
  · obtain ⟨t₅, hrun₅, h₅⟩ := h.runLevel_made late _ supplied_twoStages oneNodePerPath_twoStages
      hout₅ hpoison₅ (.inl hfirst) (show _ = some (1 :: seed) by
        rw [(inputs_twoStages known).1, hseed, haction₅]
        simp [product?, stageRecipes, Content.bytes?, hempty, Except.toOption])
    obtain ⟨t₆, hrun₆, h₆⟩ := h₅.runLevel_made late [(7, .fresh), (5, .built)] supplied_twoStages
      oneNodePerPath_twoStages hout₆ (by rw [poison?, constructs_twoStages.dependencies]; rfl)
      (.inr ⟨5, by decide, by rw [Needs, constructs_twoStages.dependencies]; decide⟩)
      (show _ = some (2 :: 1 :: seed) by
        rw [(inputs_twoStages _).2, Function.update_self, haction₆]
        simp [product?, stageRecipes, Content.bytes?, Except.toOption])
    have hrun₄ := runLevel_phony (b := demoSite.workbench (recipeHost demoSite stageRecipes))
      (t := t₆) late [(7, .fresh), (5, .built), (6, .built)] htarget
      (by rw [poison?, constructs_twoStages.dependencies]; rfl)
    rw [if_neg hempty, if_neg hempty]
    refine ⟨t₆, ?_, h₆⟩
    simp only [Runner.runLevels, List.foldlM_cons, List.foldlM_nil, bind, StateT.bind, hrun₇,
      hrun₅, hrun₆, hrun₄, List.cons_append, List.nil_append]
    rfl

def reseed (bytes : List UInt8) (w : World) : World :=
  { w with
    files := (w.files.write [] (demoSite.locate ⟨"gen/seed.txt"⟩) bytes).toOption.getD w.files }

theorem reseed_spec {known : NodeId → Option Content} {w : World}
    (h : demoSite.Holds twoStages stageRecipes ["demo", "gen"] w known) (bytes : List UInt8) :
    twoStages.Writes (demoSite.look (recipeHost demoSite stageRecipes) w) ⟨"gen/seed.txt"⟩
        (.file bytes) (demoSite.look (recipeHost demoSite stageRecipes) (reseed bytes w)) ∧
      demoSite.Holds twoStages stageRecipes ["demo", "gen"] (reseed bytes w)
        (Function.update known 7 (some (.file bytes))) := by
  obtain ⟨files, hwrite, hspec⟩ := h.write supplied_twoStages oneNodePerPath_twoStages
    nodes_twoStages.1 bytes
  unfold reseed
  rw [hwrite]
  exact hspec

theorem orderly_twoStages {known : NodeId → Option Content} {w : World}
    (h : demoSite.Holds twoStages stageRecipes ["demo", "gen"] w known) :
    (demoSite.workbench (recipeHost demoSite stageRecipes)).Orderly World.tell twoStages
      (demoSite.look (recipeHost demoSite stageRecipes))
      (fun action inputs => .file ((product? stageRecipes action inputs).getD [])) w :=
  supplied_twoStages.orderly h.room

theorem target_twoStages : 4 < twoStages.nodes.size ∧ twoStages.Needs 4 6 := by
  rw [constructs_twoStages.size, Needs, constructs_twoStages.dependencies]
  decide

/-- The seed is written, all is executed, and the seed is written anew. -/
theorem history_twoStages {known : NodeId → Option Content} {result : Except BuildError BuildSummary}
    {left : World} (hrun : (demoSite.runner (recipeHost demoSite stageRecipes) twoStages).execute
      twoStages 4 (reseed [] bareModule) = (result, left))
    (hleft : demoSite.Holds twoStages stageRecipes ["demo", "gen"] left known) :
    Relation.ReflTransGen (twoStages.Evolves
      (demoSite.workbench (recipeHost demoSite stageRecipes)) World.tell
      (demoSite.look (recipeHost demoSite stageRecipes))
      fun action inputs => .file ((product? stageRecipes action inputs).getD []))
      bareModule (reseed [7] left) := by
  obtain ⟨hseedPath, hseedSource, -⟩ := nodes_twoStages
  obtain ⟨hwrite, hseeded⟩ := reseed_spec (holds_bareModule supplied_twoStages) []
  rw [runner_eq] at hrun
  have hend := congrArg Prod.snd hrun
  dsimp only at hend
  refine .tail (.tail (.single (.edit hseedSource hseedPath hwrite)) ?_)
    (.edit hseedSource hseedPath (reseed_spec hleft [7]).1)
  rw [← hend]
  exact .execute _ target_twoStages.1 (orderly_twoStages hseeded)

/-- A first execution fails, since the seed is empty, and what it has left of the first file is
removed; the seed is written anew, and the second execution makes both stages of it. -/
theorem incremental_sound_twoStages :
    let h := recipeHost demoSite stageRecipes
    let r := demoSite.runner h twoStages
    let first := r.execute twoStages 4 (reseed [] bareModule)
    let second := r.execute twoStages 4 (reseed [7] first.2)
    first.1 = .error (failure (twoStages.node 5)) ∧ second.1 = .ok ⟨2, 0⟩ ∧
      ∃ t c, demoSite.look h second.2 ⟨"gen/b.txt"⟩ = some (t, c) ∧ c = .file [2, 1, 7] ∧
        twoStages.Made (fun action inputs => .file ((product? stageRecipes action inputs).getD []))
          (twoStages.contents (demoSite.look h second.2)) 6 c := by
  intro h r first second
  have hbare := holds_bareModule supplied_twoStages
  have hseeded := (reseed_spec hbare []).2
  obtain ⟨left, hfirst, hleft⟩ := execute_twoStages hseeded (Function.update_self ..) rfl
  have hreseeded := (reseed_spec hleft [7]).2
  obtain ⟨done, hsecond, hdone⟩ := execute_twoStages hreseeded (Function.update_self ..) rfl
  have hfirst : first = (.error (failure (twoStages.node 5)), left) := hfirst
  have hsecond : second = (.ok ⟨2, 0⟩, done) := by
    show r.execute twoStages 4 (reseed [7] first.2) = _
    rw [hfirst]
    exact hsecond
  have hnothing : ∀ n p, twoStages.Output n p → demoSite.look h bareModule p = none := by
    intro n p hp
    have hnone := congrFun hbare.contents n
    rwa [contents_of_path hp.2, Option.map_eq_none_iff] at hnone
  obtain ⟨-, -, -, -, hout, -⟩ := nodes_twoStages
  obtain ⟨htarget, hneeds⟩ := target_twoStages
  have hrunner : r = (demoSite.workbench h).runner twoStages (fun _ => demoSite.jobs = some 1)
      World.tell := runner_eq demoSite h twoStages
  have hend : ((demoSite.workbench h).runner twoStages (fun _ => demoSite.jobs = some 1)
      World.tell).execute twoStages 4 (reseed [7] left) = (.ok ⟨2, 0⟩, done) := by
    rw [← hrunner, ← hsecond, show left = first.2 by rw [hfirst]]
  obtain ⟨t, c, hfile, hmade, -⟩ := incremental_sound derive_twoStages oneNodePerPath_twoStages
    hnothing (history_twoStages hfirst hleft) (orderly_twoStages hreseeded) htarget
    (congrArg Prod.fst hend) 6 _ (.single hneeds) hout
  rw [hend] at hfile hmade
  refine ⟨by rw [hfirst], by rw [hsecond], t, c, by rw [hsecond]; exact hfile, ?_,
    by rw [hsecond]; exact hmade⟩
  have hcontents := congrFun hdone.contents 6
  rw [contents_of_path hout.2, hfile] at hcontents
  exact Option.some.inj hcontents

end ModularBuild.ArtifactGraph
