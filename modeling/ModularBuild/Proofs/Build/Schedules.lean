import ModularBuild.Proofs.Build.Outcomes
import ModularBuild.Proofs.Build.Workshop
import Mathlib.Data.List.Perm.Basic

/-!
# The order in a level does not matter

The nodes of a level may run at once. `WorksOff` says what can come of this: they run in any order,
and each is judged by any of the states that there have been since the level began. Where what an
action does is a function of what its node needs, in every state that runs can pass through
(`Functional`), a node comes to the same in every such run as it does by itself, at the beginning of
its level (`Apart`). Two runs of a level therefore agree if what was there before agreed
(`Agree.worksOff`), and all runs of all levels agree with the execution (`same_in_any_order`). The
programs of a workshop are such tools (`functional_of_supplied`).
-/

namespace ModularBuild

namespace Workbench

variable {σ κ : Type} {b : Workbench σ} {announce : Event → StateM σ Unit} {g : ArtifactGraph}
  {n : NodeId} {before done : Outcomes} {built : List NodeId} {start seen s s₀ t : σ}
  {passed : List σ}

/-! ## Runs in any order -/

/-- The outcome of a node that is judged by the state `seen`. -/
def outcomeSeeing (b : Workbench σ) (g : ArtifactGraph) (before : Outcomes) (seen : σ)
    (n : NodeId) : StateM σ (NodeId × Outcome) :=
  (b.runner g (fun _ => false) fun _ => pure ()).outcomeOf g before seen n

theorem outcomeOf_runner (late : NodeId → Bool) (announce : Event → StateM σ Unit) (n : NodeId)
    (s : σ) :
    (b.runner g late announce).outcomeOf g before start n s =
      b.outcomeSeeing g before (if late n then s else start) n s := by
  unfold outcomeSeeing
  cases hpoison : g.poison? before n with
  | some because => rw [Runner.outcomeOf_skipped _ hpoison, Runner.outcomeOf_skipped _ hpoison]
  | none =>
    rw [Runner.outcomeOf_run _ hpoison, Runner.outcomeOf_run _ hpoison]
    rfl

theorem fst_outcomeSeeing (b : Workbench σ) (g : ArtifactGraph) (before : Outcomes) (seen : σ)
    (n : NodeId) (s : σ) : (b.outcomeSeeing g before seen n s).1.1 = n :=
  Runner.fst_outcomeOf _ _ _ _ _

theorem outcomeSeeing_of_judged {o : Outcome} (h : b.judge? g before seen n = some o) (s : σ) :
    b.outcomeSeeing g before seen n s = ((n, o), s) :=
  outcomeOf_of_judged h

theorem outcomeSeeing_of_not_judged (h : b.judge? g before seen n = none) :
    ∃ p, (g.node n).path = some p ∧ (g.node n).action ≠ .source ∧
      ∀ s, b.outcomeSeeing g before seen n s =
        ((n, .ofResult (b.performOrDiscard (g.node n) p s).1),
          (b.performOrDiscard (g.node n) p s).2) := by
  obtain ⟨p, hpath, hsource, hact⟩ := exists_of_not_judged h
  exact ⟨p, hpath, hsource, fun s => hact (fun _ => false) (fun _ => pure ()) seen s rfl⟩

/-- What the nodes of a level may have come to, run in any order: the states that have passed since
the level began, the outcomes so far, and the state at hand. Each node is judged by a state that has
passed or is at hand. -/
inductive WorksOff (b : Workbench σ) (g : ArtifactGraph) (before : Outcomes) (start : σ) :
    List σ → Outcomes → σ → Prop
  | start : WorksOff b g before start [] [] start
  | node {passed : List σ} {done : Outcomes} {s : σ} (n : NodeId) (seen : σ) :
      WorksOff b g before start passed done s → seen ∈ s :: passed →
      WorksOff b g before start (s :: passed) (done ++ [(b.outcomeSeeing g before seen n s).1])
        (b.outcomeSeeing g before seen n s).2

/-- A run of levels, the nodes of each being run in the order that `orders` gives for it. When a
level is done its outcomes are put into the order of the level, and told. -/
inductive RunsIn (b : Workbench σ) (g : ArtifactGraph) (announce : Event → StateM σ Unit) :
    List (List NodeId) → List (List NodeId) → Outcomes → σ → Outcomes → σ → Prop
  | done {os : Outcomes} {s : σ} : RunsIn b g announce [] [] os s os s
  | level {order level : List NodeId} {orders levels : List (List NodeId)}
      {before done os after : Outcomes} {passed : List σ} {s t s' : σ} :
      b.WorksOff g before s passed done t → done.map (·.1) = order → os.Perm done →
      os.map (·.1) = level →
      RunsIn b g announce orders levels (before ++ os)
        ((os.filterMap g.outcomeEvent?).forM announce t).2 after s' →
      RunsIn b g announce (order :: orders) (level :: levels) before s after s'

theorem WorksOff.start_mem (h : b.WorksOff g before start passed done s) : start ∈ s :: passed := by
  induction h with
  | start => exact List.mem_cons_self
  | node n seen _ _ ih => exact List.mem_cons_of_mem _ ih

theorem Passes.outcomeSeeing (hg : g.WellFormed) (h : b.Passes announce g s₀ s)
    (before : Outcomes) (seen : σ) (n : NodeId) :
    b.Passes announce g s₀ (b.outcomeSeeing g before seen n s).2 := by
  cases hjudged : b.judge? g before seen n with
  | some o => rwa [outcomeSeeing_of_judged hjudged]
  | none =>
    obtain ⟨p, hpath, hsource, hact⟩ := outcomeSeeing_of_not_judged hjudged
    rw [hact]
    have hn := ArtifactGraph.lt_size_of_path hpath
    exact h.acted ⟨hg.producesOutput_of_path hn hpath hsource, hpath⟩

theorem WorksOff.passes (hg : g.WellFormed) (hstart : b.Passes announce g s₀ start)
    (h : b.WorksOff g before start passed done s) :
    ∀ t ∈ s :: passed, b.Passes announce g s₀ t := by
  induction h with
  | start => exact fun t ht => List.mem_singleton.mp ht ▸ hstart
  | node n seen _ _ ih =>
    intro t ht
    rcases List.mem_cons.mp ht with rfl | ht
    · exact (ih _ List.mem_cons_self).outcomeSeeing hg before seen n
    · exact ih t ht

/-- A runner works off the nodes in the order in which it is given them. -/
theorem WorksOff.mapM (late : NodeId → Bool) (announce : Event → StateM σ Unit)
    (h : b.WorksOff g before start passed done s) (order : List NodeId) :
    ∃ passed', b.WorksOff g before start passed'
        (done ++ (order.mapM ((b.runner g late announce).outcomeOf g before start) s).1)
        (order.mapM ((b.runner g late announce).outcomeOf g before start) s).2 ∧
      (order.mapM ((b.runner g late announce).outcomeOf g before start) s).1.map (·.1) = order := by
  induction order generalizing passed done s with
  | nil =>
    refine ⟨passed, ?_, rfl⟩
    show b.WorksOff g before start passed (done ++ []) s
    rwa [List.append_nil]
  | cons n order ih =>
    have hseen : (if late n then s else start) ∈ s :: passed := by
      split
      · exact List.mem_cons_self
      · exact h.start_mem
    have hnext := WorksOff.node n _ h hseen
    rw [← outcomeOf_runner late announce n s] at hnext
    obtain ⟨passed', hrest, horder⟩ := ih hnext
    rw [List.append_assoc] at hrest
    rw [List.mapM_cons]
    exact ⟨passed', hrest, congrArg₂ List.cons (Runner.fst_outcomeOf _ _ _ _ _) horder⟩

theorem runsIn_runLevels (late : NodeId → Bool) (announce : Event → StateM σ Unit)
    (levels : List (List NodeId)) (before : Outcomes) (s : σ) :
    b.RunsIn g announce levels levels before s
      (levels.foldlM ((b.runner g late announce).runLevel g) before s).1
      (levels.foldlM ((b.runner g late announce).runLevel g) before s).2 := by
  induction levels generalizing before s with
  | nil => exact .done
  | cons level levels ih =>
    have hstart : b.WorksOff g before s [] [] s := .start
    obtain ⟨passed, hlevel, horder⟩ := hstart.mapM late announce level
    rw [List.nil_append] at hlevel
    exact .level hlevel horder (.refl _) horder (ih _ _)

theorem exists_runsIn (b : Workbench σ) (g : ArtifactGraph) (announce : Event → StateM σ Unit)
    {orders levels : List (List NodeId)} (h : List.Forall₂ List.Perm orders levels)
    (before : Outcomes) (s : σ) :
    ∃ os s', b.RunsIn g announce orders levels before s os s' := by
  induction h generalizing before s with
  | nil => exact ⟨before, s, .done⟩
  | @cons order level orders levels hperm _ ih =>
    have hstart : b.WorksOff g before s [] [] s := .start
    obtain ⟨passed, hlevel, horder⟩ := hstart.mapM (fun _ => true) announce order
    -- The outcomes can be put into the order of the level, which has the same nodes.
    obtain ⟨os, hos, hdone⟩ := (congrFun₂ (List.eq_map_comp_perm (Prod.fst : NodeId × Outcome → _))
      level _).mpr (show level.Perm _ from horder ▸ hperm.symm)
    obtain ⟨after, s', hrest⟩ := ih (before ++ os) _
    exact ⟨after, s', .level hlevel horder hdone hos.symm hrest⟩

/-! ## Actions as functions -/

/-- What is asked of a workbench from the state `s` on, in the states that runs which begin there pass
through: what comes of an action, and the content that its node's output then has, is a function of
the node, the files that it needs and the content before; no other node's file differs. A failed
action is taken with the removal of what it has left. `look` looks at the files of a state. -/
structure Functional (b : Workbench σ) (announce : Event → StateM σ Unit) (g : ArtifactGraph)
    (look : σ → Snapshot κ)
    (does : Node → List (Path × Option κ) → Option κ → Except BuildError NodeStatus × Option κ)
    (s : σ) : Prop where
  modified : ∀ n p t, b.Passes announce g s t → (g.node n).path = some p →
    b.modified? p t = (look t p).map (·.1)
  acts : ∀ n p t, b.Passes announce g s t → g.Output n p →
    ((b.performOrDiscard (g.node n) p t).1,
        g.contents (look (b.performOrDiscard (g.node n) p t).2) n) =
      does (g.node n) (g.inputs (g.contents (look t)) n) (g.contents (look t) n)
  spares : ∀ n p t, b.Passes announce g s t → g.Output n p →
    g.Untouched (look t) p (look (b.performOrDiscard (g.node n) p t).2)
  announces : ∀ e t, b.Passes announce g s t → look (announce e t).2 = look t

end Workbench

/-- An outcome that leaves the node's file as it was. -/
def Outcome.Idle (o : Outcome) : Prop := o = .fresh ∨ ∃ because, o = .skipped because

namespace ArtifactGraph

variable {σ κ : Type} {b : Workbench σ} {announce : Event → StateM σ Unit} {g : ArtifactGraph}
  {look : σ → Snapshot κ}
  {does : Node → List (Path × Option κ) → Option κ → Except BuildError NodeStatus × Option κ}
  {n target : NodeId} {before done os : Outcomes} {level : List NodeId}
  {seen seen' s s' s₀ start t : σ} {passed : List σ} {w w' : Snapshot κ}

/-- The file of a node is the same, its time included. -/
def SameFile (g : ArtifactGraph) (n : NodeId) (w w' : Snapshot κ) : Prop :=
  ∀ p, (g.node n).path = some p → w' p = w p

theorem SameFile.symm (h : g.SameFile n w w') : g.SameFile n w' w := fun p hp => (h p hp).symm

theorem SameFile.trans {w'' : Snapshot κ} (h : g.SameFile n w w') (h' : g.SameFile n w' w'') :
    g.SameFile n w w'' := fun p hp => (h' p hp).trans (h p hp)

theorem SameFile.contents_eq (h : g.SameFile n w w') : g.contents w n = g.contents w' n := by
  unfold contents
  cases hpath : (g.node n).path with
  | none => rfl
  | some p => rw [Option.bind_some, Option.bind_some, h p hpath]

/-! ## One node -/

section Node

variable (hb : b.Functional announce g look does s₀)

section Judging

variable (hseen : b.Passes announce g s₀ seen) (hseen' : b.Passes announce g s₀ seen')

include hb hseen hseen'

/-- How a node is judged depends on its own file and on those of the nodes it needs, these only as
far as they have not been built. -/
theorem verdict?_congr {built : List NodeId}
    (h : ∀ m, m = n ∨ g.Needs n m ∧ m ∉ built → g.SameFile m (look seen) (look seen')) :
    b.verdict? g n built seen = b.verdict? g n built seen' := by
  have htime : ∀ m, m = n ∨ g.Needs n m ∧ m ∉ built → ∀ p, (g.node m).path = some p →
      b.modified? p seen = b.modified? p seen' := fun m hm p hp => by
    rw [hb.modified m p seen hseen hp, hb.modified m p seen' hseen' hp, h m hm p hp]
  unfold Workbench.verdict?
  cases hpath : (g.node n).path with
  | none => rfl
  | some p =>
    have hcurrent : ∀ output, ∀ d ∈ g.dependencies n,
        b.isCurrent g built seen output d = b.isCurrent g built seen' output d := by
      intro output d hd
      unfold Workbench.isCurrent
      by_cases hbuilt : d ∈ built
      · simp [hbuilt]
      · cases hd' : (g.node d).path with
        | none => rfl
        | some q => simp only [htime d (.inr ⟨hd, hbuilt⟩) q hd']
    have hfresh : b.isFresh g built seen n p = b.isFresh g built seen' n p := by
      unfold Workbench.isFresh
      rw [htime n (.inl rfl) p hpath]
      cases b.modified? p seen' with
      | none => rfl
      | some output =>
        rw [Bool.eq_iff_iff, List.all_eq_true, List.all_eq_true]
        exact forall₂_congr fun d hd => by rw [hcurrent output d hd]
    simp only [htime n (.inl rfl) p hpath, hfresh]

theorem judge?_congr (hready : g.Ready before level) (hn : n ∈ level)
    (h : ∀ m, m = n ∨ g.Needs n m → (∀ o, (m, o) ∈ before → o.Idle) →
      g.SameFile m (look seen) (look seen')) :
    b.judge? g before seen n = b.judge? g before seen' n := by
  unfold Workbench.judge?
  cases hpoison : g.poison? before n with
  | some because => rfl
  | none =>
    refine congrArg (Option.map Outcome.ofResult) (verdict?_congr hb hseen hseen' fun m hm => ?_)
    have honce := (List.nodup_append.mp hready.once).1
    rcases hm with rfl | ⟨hneeds, hbuilt⟩
    · exact h m (.inl rfl) fun o ho =>
        absurd (List.mem_map_of_mem ho) (hready.not_mem_before hn)
    · refine h m (.inr hneeds) fun o ho => ?_
      obtain ⟨status, hstatus⟩ :=
        ok_of_poison?_eq_none honce hpoison hneeds (hready.needs n hn m hneeds)
      have heq := (Outcomes.lookup_eq_some_of_mem honce ho).symm.trans
        (Outcomes.lookup_eq_some_of_mem honce hstatus)
      cases status with
      | built =>
        refine absurd (List.mem_map.mpr ⟨_, List.mem_filter.mpr ⟨hstatus, ?_⟩, rfl⟩) hbuilt
        exact decide_eq_true rfl
      | fresh => exact .inl (Option.some.inj heq)

end Judging

include hb

/-- What comes of a node depends on how it is judged and on the contents that it reads. -/
theorem outcomeSeeing_congr (hs : b.Passes announce g s₀ s) (hs' : b.Passes announce g s₀ s')
    (hready : g.Ready before level) (hn : n ∈ level) (hg : g.WellFormed)
    (hjudge : b.judge? g before seen n = b.judge? g before seen' n)
    (hread : ∀ m, m = n ∨ g.Needs n m → g.contents (look s) m = g.contents (look s') m) :
    (b.outcomeSeeing g before seen n s).1 = (b.outcomeSeeing g before seen' n s').1 ∧
      g.contents (look (b.outcomeSeeing g before seen n s).2) n =
        g.contents (look (b.outcomeSeeing g before seen' n s').2) n := by
  cases hjudged : b.judge? g before seen n with
  | some o =>
    rw [Workbench.outcomeSeeing_of_judged hjudged,
      Workbench.outcomeSeeing_of_judged (hjudge ▸ hjudged)]
    exact ⟨rfl, hread n (.inl rfl)⟩
  | none =>
    obtain ⟨p, hpath, hsource, hact⟩ := Workbench.outcomeSeeing_of_not_judged hjudged
    obtain ⟨p', hpath', -, hact'⟩ := Workbench.outcomeSeeing_of_not_judged (hjudge ▸ hjudged)
    obtain rfl := Option.some.inj (hpath.symm.trans hpath')
    have hout : g.Output n p :=
      ⟨hg.producesOutput_of_path (hready.within n hn) hpath hsource, hpath⟩
    have hdoes : does (g.node n) (g.inputs (g.contents (look s)) n) (g.contents (look s) n) =
        does (g.node n) (g.inputs (g.contents (look s')) n) (g.contents (look s') n) := by
      rw [hread n (.inl rfl), inputs_congr fun d hd q _ => hread d (.inr hd)]
    rw [← hb.acts n p s hs hout, ← hb.acts n p s' hs' hout] at hdoes
    obtain ⟨hresult, hcontents⟩ := Prod.mk.inj hdoes
    rw [hact, hact', hresult]
    exact ⟨rfl, hcontents⟩

/-- A node leaves the files of all others alone. -/
theorem sameFile_outcomeSeeing (hready : g.Ready before level) (hn : n ∈ level) (hg : g.WellFormed)
    (hpaths : g.OneNodePerPath) {m : NodeId} (hne : m ≠ n) (seen : σ)
    (hs : b.Passes announce g s₀ s) :
    g.SameFile m (look s) (look (b.outcomeSeeing g before seen n s).2) := by
  cases hjudged : b.judge? g before seen n with
  | some o =>
    rw [Workbench.outcomeSeeing_of_judged hjudged]
    exact fun _ _ => rfl
  | none =>
    obtain ⟨p, hpath, hsource, hact⟩ := Workbench.outcomeSeeing_of_not_judged hjudged
    rw [hact]
    exact fun q hq => hb.spares n p s hs
      ⟨hg.producesOutput_of_path (hready.within n hn) hpath hsource, hpath⟩ m q hq
      fun hsame => hne (hpaths n m p q hpath hq hsame).symm

omit hb in
theorem outcomeSeeing_of_idle (h : (b.outcomeSeeing g before seen n s).1.2.Idle) :
    (b.outcomeSeeing g before seen n s).2 = s := by
  cases hjudged : b.judge? g before seen n with
  | some o => rw [Workbench.outcomeSeeing_of_judged hjudged]
  | none =>
    obtain ⟨p, -, -, hact⟩ := Workbench.outcomeSeeing_of_not_judged hjudged
    rw [hact] at h
    have hfresh := b.performOrDiscard_ne_fresh (g.node n) p s
    rcases h with h | ⟨because, h⟩
    · rw [show Outcome.fresh = .ofResult (.ok .fresh) from rfl] at h
      exact absurd (Outcome.ofResult_inj h) hfresh
    · have hresult := congrArg Outcome.result? h
      rw [Outcome.result?_ofResult] at hresult
      cases hresult

end Node

/-! ## One level -/

/-- What a level that began in the state `start` has come to, with the files `w`: each node that is
done as if it had been run by itself in the beginning, and nothing else. -/
structure Apart (b : Workbench σ) (g : ArtifactGraph) (look : σ → Snapshot κ) (before : Outcomes)
    (start : σ) (done : Outcomes) (w : Snapshot κ) : Prop where
  untouched : ∀ n, n ∉ done.map (·.1) → g.SameFile n (look start) w
  alone : ∀ n o, (n, o) ∈ done → (n, o) = (b.outcomeSeeing g before start n start).1 ∧
    g.contents w n = g.contents (look (b.outcomeSeeing g before start n start).2) n ∧
    (o.Idle → g.SameFile n (look start) w)

section Level

variable (hb : b.Functional announce g look does s₀) (hg : g.WellFormed)
  (hpaths : g.OneNodePerPath) (hready : g.Ready before level)
  (hstart : b.Passes announce g s₀ start)

include hb hg hpaths hready hstart

/-- One more node. Whichever state it is judged by, the files that this depends on are as they were
when the level began. -/
theorem Apart.outcomeSeeing (h : Apart b g look before start done (look s)) (hn : n ∈ level)
    (hnew : n ∉ done.map (·.1)) (hdone : ∀ m ∈ done.map (·.1), m ∈ level)
    (hs : b.Passes announce g s₀ s) (hpassed : b.Passes announce g s₀ seen)
    (hseen : ∀ m, m ∉ done.map (·.1) → g.SameFile m (look start) (look seen)) :
    Apart b g look before start (done ++ [(b.outcomeSeeing g before seen n s).1])
      (look (b.outcomeSeeing g before seen n s).2) := by
  have hread : ∀ m, m = n ∨ g.Needs n m → m ∉ done.map (·.1) := by
    rintro m (rfl | hneeds) hmem
    · exact hnew hmem
    · exact hready.not_mem_of_needs hn hneeds (hdone m hmem)
  have hsame : ∀ m, m = n ∨ g.Needs n m → g.contents (look s) m = g.contents (look start) m :=
    fun m hm => (h.untouched m (hread m hm)).contents_eq.symm
  obtain ⟨houtcome, hcontents⟩ := outcomeSeeing_congr hb hs hstart hready hn hg
    (judge?_congr hb hpassed hstart hready hn fun m hm _ => (hseen m (hread m hm)).symm) hsame
  constructor
  · intro m hm
    rw [List.map_append, List.mem_append, not_or] at hm
    have hne : m ≠ n := fun hmn => hm.2 (by simp [hmn, Workbench.fst_outcomeSeeing])
    exact (h.untouched m hm.1).trans (sameFile_outcomeSeeing hb hready hn hg hpaths hne seen hs)
  · intro m o hm
    rcases List.mem_append.mp hm with hm | hm
    · have hne : m ≠ n := fun hmn => hnew (hmn ▸ List.mem_map_of_mem hm)
      have hsame := sameFile_outcomeSeeing hb hready hn hg hpaths hne seen hs
      obtain ⟨ho, hm, hidle⟩ := h.alone m o hm
      exact ⟨ho, hsame.contents_eq.symm.trans hm, fun ho => (hidle ho).trans hsame⟩
    · have hm := List.mem_singleton.mp hm
      obtain rfl : m = n := (congrArg Prod.fst hm).trans (Workbench.fst_outcomeSeeing _ _ _ _ _ _)
      refine ⟨hm.trans houtcome, hcontents, fun ho => ?_⟩
      rw [outcomeSeeing_of_idle (congrArg Prod.snd hm ▸ ho)]
      exact h.untouched m hnew

/-- Whatever the order, each node of a level comes to the same as by itself. -/
theorem apart_of_worksOff (h : b.WorksOff g before start passed done s)
    (hdone : (done.map (·.1)).Nodup) (hmem : ∀ m ∈ done.map (·.1), m ∈ level) :
    Apart b g look before start done (look s) ∧
      ∀ t ∈ s :: passed, ∀ m, m ∉ done.map (·.1) → g.SameFile m (look start) (look t) := by
  induction h with
  | start =>
    refine ⟨⟨fun _ _ _ _ => rfl, nofun⟩, fun t ht m _ _ _ => ?_⟩
    rw [List.mem_singleton.mp ht]
  | @node passed done s n seen hworks hseen ih =>
    have hway := hworks.passes hg hstart
    rw [List.map_append, List.map_singleton, Workbench.fst_outcomeSeeing] at hdone hmem
    obtain ⟨hdone, -, hnew⟩ := List.nodup_append.mp hdone
    have hold : ∀ m ∈ done.map (·.1), m ∈ level := fun m hm => hmem m (List.mem_append_left _ hm)
    obtain ⟨hapart, hpassed⟩ := ih hdone hold
    have hnext := hapart.outcomeSeeing hb hg hpaths hready hstart
      (hmem n (List.mem_append_right _ List.mem_cons_self))
      (fun hn => hnew n hn n List.mem_cons_self rfl) hold (hway s List.mem_cons_self)
      (hway seen hseen) (hpassed seen hseen)
    refine ⟨hnext, fun t ht m hm => ?_⟩
    rcases List.mem_cons.mp ht with rfl | ht
    · exact hnext.untouched m hm
    · rw [List.map_append, List.mem_append, not_or] at hm
      exact hpassed t ht m hm.1

omit hb hg hpaths hready hstart in
theorem Apart.eq_map (h : Apart b g look before start done w) (hperm : os.Perm done)
    (hlevel : os.map (·.1) = level) :
    os = level.map fun n => (b.outcomeSeeing g before start n start).1 := by
  rw [← hlevel, List.map_map]
  conv_lhs => rw [← List.map_id os]
  exact List.map_congr_left fun e he => (h.alone e.1 e.2 (hperm.mem_iff.mp he)).1

end Level

/-- Two ways to come to the same outcomes have left files of the same contents, and the very same
files where no action was performed. -/
structure Agree (g : ArtifactGraph) (os : Outcomes) (w w' : Snapshot κ) : Prop where
  contents : ∀ n, g.contents w n = g.contents w' n
  files : ∀ n, (∀ o, (n, o) ∈ os → o.Idle) → g.SameFile n w w'

section Runs

variable (hb : b.Functional announce g look does s₀) (hg : g.WellFormed)
  (hpaths : g.OneNodePerPath)

include hb hg hpaths

/-- Two runs of a level that begin with files that agree have the same outcomes, and end with files
that agree. -/
theorem Agree.worksOff (h : g.Agree before (look s) (look s')) (hready : g.Ready before level)
    (hs : b.Passes announce g s₀ s) (hs' : b.Passes announce g s₀ s')
    {done' os' : Outcomes} {passed' : List σ} {t' : σ}
    (hrun : b.WorksOff g before s passed done t) (hperm : os.Perm done)
    (hlevel : os.map (·.1) = level)
    (hrun' : b.WorksOff g before s' passed' done' t') (hperm' : os'.Perm done')
    (hlevel' : os'.map (·.1) = level) :
    os = os' ∧ g.Agree (before ++ os) (look t) (look t') := by
  have hmem : ∀ {os done : Outcomes}, os.Perm done → os.map (·.1) = level →
      (done.map (·.1)).Perm level := fun hperm hlevel => hlevel ▸ (hperm.map _).symm
  have hlevelOnce := (List.nodup_append.mp hready.once).2.1
  have hkeys := hmem hperm hlevel
  have hkeys' := hmem hperm' hlevel'
  have hapart := (apart_of_worksOff hb hg hpaths hready hs hrun (hkeys.nodup_iff.mpr hlevelOnce)
    fun m hm => hkeys.mem_iff.mp hm).1
  have hapart' := (apart_of_worksOff hb hg hpaths hready hs' hrun' (hkeys'.nodup_iff.mpr hlevelOnce)
    fun m hm => hkeys'.mem_iff.mp hm).1
  -- By itself each node comes to the same from both beginnings.
  have halone : ∀ n ∈ level,
      (b.outcomeSeeing g before s n s).1 = (b.outcomeSeeing g before s' n s').1 ∧
        g.contents (look (b.outcomeSeeing g before s n s).2) n =
          g.contents (look (b.outcomeSeeing g before s' n s').2) n := fun n hn =>
    outcomeSeeing_congr hb hs hs' hready hn hg
      (judge?_congr hb hs hs' hready hn fun m _ hidle => h.files m hidle) fun m _ => h.contents m
  have hos : os = os' := by
    rw [hapart.eq_map hperm hlevel, hapart'.eq_map hperm' hlevel']
    exact List.map_congr_left fun n hn => (halone n hn).1
  subst hos
  have hcases : ∀ n, (∃ o, (n, o) ∈ os) ∨ n ∉ done.map (·.1) ∧ n ∉ done'.map (·.1) := fun n => by
    rw [← (hperm.map _).mem_iff, ← (hperm'.map _).mem_iff, and_self]
    by_cases hn : n ∈ os.map (·.1)
    · obtain ⟨⟨n, o⟩, ho, rfl⟩ := List.mem_map.mp hn
      exact .inl ⟨o, ho⟩
    · exact .inr hn
  refine ⟨rfl, fun n => ?_, fun n hidle => ?_⟩
  · rcases hcases n with ⟨o, ho⟩ | ⟨hn, hn'⟩
    · have hn : n ∈ level := hlevel ▸ List.mem_map_of_mem ho
      rw [(hapart.alone n o (hperm.mem_iff.mp ho)).2.1,
        (hapart'.alone n o (hperm'.mem_iff.mp ho)).2.1, (halone n hn).2]
    · rw [← (hapart.untouched n hn).contents_eq, ← (hapart'.untouched n hn').contents_eq,
        h.contents n]
  · have hsame := h.files n fun o ho => hidle o (List.mem_append_left _ ho)
    rcases hcases n with ⟨o, ho⟩ | ⟨hn, hn'⟩
    · have ho' := hidle o (List.mem_append_right _ ho)
      exact (((hapart.alone n o (hperm.mem_iff.mp ho)).2.2 ho').symm.trans hsame).trans
        ((hapart'.alone n o (hperm'.mem_iff.mp ho)).2.2 ho')
    · exact ((hapart.untouched n hn).symm.trans hsame).trans (hapart'.untouched n hn')

omit hg hpaths in
theorem look_told (hs : b.Passes announce g s₀ s) (events : List Event) :
    b.Passes announce g s₀ (events.forM announce s).2 ∧
      look (events.forM announce s).2 = look s := by
  induction events generalizing s with
  | nil => exact ⟨hs, rfl⟩
  | cons e events ih =>
    obtain ⟨hpassed, hlook⟩ := ih (hs.told e)
    exact ⟨hpassed, hlook.trans (hb.announces e s hs)⟩

/-- Two runs of the same levels, each node in any order in its level, have the same outcomes, and
end with files that agree. -/
theorem Agree.runsIn (hord : g.Ordered) (htarget : target < g.nodes.size)
    {orders orders' lower upper : List (List NodeId)} {os' : Outcomes} {t' : σ}
    (h : g.Agree before (look s) (look s')) (hs : b.Passes announce g s₀ s)
    (hs' : b.Passes announce g s₀ s') (hlevels : g.levels target = lower ++ upper)
    (hbefore : before.map (·.1) = lower.flatten)
    (hrun : b.RunsIn g announce orders upper before s os t)
    (hrun' : b.RunsIn g announce orders' upper before s' os' t') :
    os = os' ∧ g.Agree os (look t) (look t') := by
  induction hrun generalizing s' lower orders' with
  | done =>
    cases hrun'
    exact ⟨rfl, h⟩
  | @level order level orders upper before done os after passed s t _ hworks _ hperm hlevel _ ih =>
    cases hrun' with
    | level hworks' _ hperm' hlevel' hrest' =>
      obtain ⟨rfl, hagree⟩ := h.worksOff hb hg hpaths (ready_of_levels hord htarget hlevels hbefore)
        hs hs' hworks hperm hlevel hworks' hperm' hlevel'
      have hlevels : g.levels target = (lower ++ [level]) ++ upper := by
        rw [hlevels, List.append_assoc]
        rfl
      have hbefore : (before ++ os).map (·.1) = (lower ++ [level]).flatten := by
        rw [List.map_append, hbefore, hlevel, List.flatten_append, List.flatten_singleton]
      -- What is told of the level changes no file.
      obtain ⟨hpassed, hlook⟩ := look_told hb (hworks.passes hg hs _ List.mem_cons_self)
        (os.filterMap g.outcomeEvent?)
      obtain ⟨hpassed', hlook'⟩ := look_told hb (hworks'.passes hg hs' _ List.mem_cons_self)
        (os.filterMap g.outcomeEvent?)
      exact ih (by rwa [hlook, hlook']) hpassed hpassed' hlevels hbefore hrest'

end Runs

/-! ## Whole executions -/

/-- What an execution answers. -/
def answer (g : ArtifactGraph) (os : Outcomes) : Except BuildError BuildSummary :=
  match os.firstError? with
  | some e => .error e
  | none => .ok (g.summarize os)

/-- The nodes of each level can be run in any order, each being judged at any time since its level
began, and whatever the order, the outcome of every node, the answer and the contents of every
node's file are those of the execution. It makes no difference either when the execution itself
judges its nodes, which is what the number of its jobs decides (`BuildSite.runner_eq`). -/
theorem same_in_any_order {plan : Plan} {f : FileNames} {linking : LinkPolicy} {mode : BuildMode}
    (hderive : (derive plan f linking mode).result = .ok g) (hpaths : g.OneNodePerPath)
    (late : NodeId → Bool) (s : σ) (hb : b.Functional announce g look does s)
    (htarget : target < g.nodes.size) {orders : List (List NodeId)}
    (horders : List.Forall₂ List.Perm orders (g.levels target)) :
    (∃ os s', b.RunsIn g announce orders (g.levels target) [] s os s') ∧
      ∀ os s', b.RunsIn g announce orders (g.levels target) [] s os s' →
        os = ((b.runner g late announce).runLevels g (g.levels target) s).1 ∧
        g.answer os = ((b.runner g late announce).execute g target s).1 ∧
        ∀ n, g.contents (look s') n =
          g.contents (look ((b.runner g late announce).execute g target s).2) n := by
  refine ⟨b.exists_runsIn g announce horders [] s, fun os s' hrun => ?_⟩
  have hstart : g.Agree [] (look s) (look s) := ⟨fun _ => rfl, fun _ _ _ _ => rfl⟩
  obtain ⟨rfl, hagree⟩ := hstart.runsIn hb (wellFormed_derive hderive) hpaths
    (ordered_derive hderive) htarget .start .start (List.nil_append _).symm rfl hrun
    (Workbench.runsIn_runLevels late announce (g.levels target) [] s)
  rw [Runner.execute_eq]
  exact ⟨rfl, rfl, hagree.contents⟩

/-! ## Two files made at once -/

open BuildSite FileSystem

/-- What an action of a workshop does is a function of what its recipe reads. -/
theorem functional_of_supplied {site : BuildSite} {recipes : String → Option Recipe}
    {dir : Location} (hsup : site.Supplied g recipes dir) {w : World}
    (hroom : Workroom w.files dir) :
    (site.workbench (recipeHost site recipes)).Functional World.tell g
      (site.look (recipeHost site recipes))
      (fun node inputs _ => match product? recipes node.action inputs with
        | some bytes => (.ok .built, some (.file bytes))
        | none => (.error (failure node), none)) w where
  modified n p t _ _ := modified?_eq_look site _ p t
  announces _ _ _ := rfl
  acts n p t hpassed hout := by
    obtain ⟨t', hrun, -, -, hcontents⟩ :=
      hsup.performOrDiscard (hsup.workroom_of_passes hroom (fun _ _ => rfl) hpassed) hout
    rw [hrun, contents_of_path hout.2, hcontents]
    cases product? recipes (g.node n).action
      (g.inputs (g.contents (site.look (recipeHost site recipes) t)) n) <;> rfl
  spares n p t hpassed hout := by
    obtain ⟨t', hrun, -, huntouched, -⟩ :=
      hsup.performOrDiscard (hsup.workroom_of_passes hroom (fun _ _ => rfl) hpassed) hout
    rwa [hrun]

/-- Two files that are made of nothing, and one that is made of both. -/
def forkPlan : Plan where
  project := "demo"
  modules := SortedMap.insert ∅ ⟨"gen"⟩ ()
  generated := ((SortedMap.insert ∅ ⟨⟨"gen"⟩, "a.txt"⟩ (some ⟨["make-a"], []⟩)).insert
    ⟨⟨"gen"⟩, "b.txt"⟩ (some ⟨["make-b"], []⟩)).insert
    ⟨⟨"gen"⟩, "c.txt"⟩ (some ⟨["make-c"], ["a.txt", "b.txt"]⟩)

def fork : ArtifactGraph := (withInputs forkPlan {} .everyLibrary).toOption.getD {}

theorem constructs_fork : Constructs forkPlan {} .everyLibrary (.standalone ⟨"gen"⟩) fork
    [(7, 6), (7, 5), (0, 7), (4, 7), (0, 6), (4, 6), (0, 5), (4, 5)] 8 :=
  ⟨constructed_of_withInputs (eq_ok_of_isSome (by rfl)) rfl, by rfl, by rfl⟩

theorem derive_fork :
    (derive forkPlan {} .everyLibrary (.standalone ⟨"gen"⟩)).result = .ok fork :=
  constructs_fork.derive (by cbv)

theorem levels_fork : fork.levels 4 = [[5, 6], [7], [4]] :=
  constructs_fork.levels (by cbv) (by cbv) (by rfl) (by decide)

theorem oneNodePerPath_fork : fork.OneNodePerPath :=
  oneNodePerPath_of_size constructs_fork.size (by decide)

/-- The second file cannot be made, though a part of it is. -/
def forkRecipes : String → Option Recipe
  | "make-a" => some ⟨[], ⟨"gen/a.txt"⟩, fun _ => .ok [1]⟩
  | "make-b" => some ⟨[], ⟨"gen/b.txt"⟩, fun _ => .error [0]⟩
  | "make-c" => some ⟨[⟨"gen/b.txt"⟩, ⟨"gen/a.txt"⟩], ⟨"gen/c.txt"⟩, fun contents =>
      .ok (3 :: contents.flatten)⟩
  | _ => none

theorem supplied_fork : demoSite.Supplied fork forkRecipes ["demo", "gen"] := by
  refine supplied_of_size constructs_fork.size (by decide) (by decide) (by decide)
    fun n p hout => ?_
  have hn : ∀ n < 8, ∀ p ∈ (fork.node n).path, (fork.node n).action.producesOutput →
      n = 5 ∧ p = ⟨"gen/a.txt"⟩ ∨ n = 6 ∧ p = ⟨"gen/b.txt"⟩ ∨ n = 7 ∧ p = ⟨"gen/c.txt"⟩ := by
    decide
  rw [constructs_fork.dependencies]
  rcases hn n (constructs_fork.size ▸ lt_size_of_path hout.2) p hout.2 hout.1 with
    ⟨rfl, rfl⟩ | ⟨rfl, rfl⟩ | ⟨rfl, rfl⟩
  · exact ⟨"make-a", [], ⟨"gen"⟩, _, by decide, rfl⟩
  · exact ⟨"make-b", [], ⟨"gen"⟩, _, by decide, rfl⟩
  · exact ⟨"make-c", [], ⟨"gen"⟩, _, by decide, rfl⟩

theorem runLevels_fork :
    ∃ t, ((demoSite.workbench (recipeHost demoSite forkRecipes)).runner fork (fun _ => false)
        World.tell).runLevels fork (fork.levels 4) bareModule =
          ([(5, .built), (6, .failed (failure (fork.node 6))), (7, .skipped "gen/b.txt"),
            (4, .skipped "gen/b.txt")], t) ∧
      demoSite.Holds fork forkRecipes ["demo", "gen"] t
        (Function.update (Function.update (fun _ => none) 5 (some (.file [1]))) 6 none) := by
  have hbare := holds_bareModule supplied_fork
  have hpoison : ∀ n ∈ [5, 6], fork.poison? [] n = none := by
    simp only [poison?, constructs_fork.dependencies]
    decide
  have hinputs : ∀ known : NodeId → Option Content, ∀ n ∈ [5, 6], fork.inputs known n = [] := by
    intro known n hn
    rw [inputs, constructs_fork.dependencies]
    rcases List.mem_pair.mp hn with rfl | rfl <;> rfl
  -- Both files are judged by the empty module in which the level begins.
  have hmake : ∀ n ∈ [5, 6], ∀ p known t, fork.Output n p →
      demoSite.Holds fork forkRecipes ["demo", "gen"] t known →
      ∃ t', ((demoSite.workbench (recipeHost demoSite forkRecipes)).runner fork (fun _ => false)
          World.tell).outcomeOf fork [] bareModule n t =
            ((n, if (product? forkRecipes (fork.node n).action []).isSome then .built
              else .failed (failure (fork.node n))), t') ∧
        demoSite.Holds fork forkRecipes ["demo", "gen"] t'
          (Function.update known n ((product? forkRecipes (fork.node n).action []).map .file)) := by
    intro n hn p known t hout ht
    have hrun := ht.outcomeOf_output (fun _ => false) [] supplied_fork oneNodePerPath_fork hout
      (hpoison n hn) (isFresh_eq_false (.inl (hbare.modified?_eq_none hout.2 rfl)))
    rwa [hinputs known n hn] at hrun
  obtain ⟨t₅, hrun₅, h₅⟩ := hmake 5 (by simp) ⟨"gen/a.txt"⟩ _ _ (by unfold Output; decide) hbare
  obtain ⟨t₆, hrun₆, h₆⟩ := hmake 6 (by simp) ⟨"gen/b.txt"⟩ _ _ (by unfold Output; decide) h₅
  obtain ⟨t, hlevel, hheld⟩ : ∃ t, ((demoSite.workbench (recipeHost demoSite forkRecipes)).runner
      fork (fun _ => false) World.tell).runLevel fork [] [5, 6] bareModule =
        ([(5, .built), (6, .failed (failure (fork.node 6)))], t) ∧
      demoSite.Holds fork forkRecipes ["demo", "gen"] t _ := by
    refine ⟨_, Runner.runLevel_eq ?_, h₆.told _⟩
    simp only [List.mapM_cons, List.mapM_nil, bind, StateT.bind, hrun₅, hrun₆]
    rfl
  obtain ⟨t₇, hrun₇, h₇⟩ := hheld.runLevel_skipped (fun _ => false)
    [(5, .built), (6, .failed (failure (fork.node 6)))]
    (show fork.poison? _ 7 = some "gen/b.txt" by rw [poison?, constructs_fork.dependencies]; rfl)
  obtain ⟨t₄, hrun₄, h₄⟩ := h₇.runLevel_skipped (fun _ => false)
    [(5, .built), (6, .failed (failure (fork.node 6))), (7, .skipped "gen/b.txt")]
    (show fork.poison? _ 4 = some "gen/b.txt" by rw [poison?, constructs_fork.dependencies]; rfl)
  refine ⟨t₄, ?_, h₄⟩
  rw [levels_fork]
  simp only [Runner.runLevels, List.foldlM_cons, List.foldlM_nil, bind, StateT.bind, hlevel,
    hrun₇, hrun₄, List.cons_append, List.nil_append]
  rfl

/-- The second file is tried before the first, and fails. The outcomes are told in the order of the
level all the same, and what needs both files is skipped. -/
theorem same_in_any_order_fork :
    let h := recipeHost demoSite forkRecipes
    let runs := (demoSite.workbench h).RunsIn fork World.tell [[6, 5], [7], [4]] (fork.levels 4) []
      bareModule
    (∃ os s', runs os s') ∧ ∀ os s', runs os s' →
      os = [(5, .built), (6, .failed (failure (fork.node 6))), (7, .skipped "gen/b.txt"),
        (4, .skipped "gen/b.txt")] ∧
      fork.answer os = .error (failure (fork.node 6)) ∧
      fork.contents (demoSite.look h s') 5 = some (.file [1]) ∧
      fork.contents (demoSite.look h s') 6 = none := by
  intro h runs
  have horders : List.Forall₂ List.Perm [[6, 5], [7], [4]] (fork.levels 4) := by
    rw [levels_fork]
    exact .cons (.swap 5 6 []) (.cons (.refl _) (.cons (.refl _) .nil))
  obtain ⟨hexists, hsame⟩ := same_in_any_order derive_fork oneNodePerPath_fork (fun _ => false)
    bareModule (functional_of_supplied supplied_fork workroom_bareModule)
    (by rw [constructs_fork.size]; decide) horders
  obtain ⟨t, hrun, hholds⟩ := runLevels_fork
  refine ⟨hexists, fun os s' hruns => ?_⟩
  obtain ⟨hos, hanswer, hcontents⟩ := hsame os s' hruns
  rw [Runner.execute_eq] at hanswer hcontents
  rw [hrun] at hos hanswer hcontents
  rw [hanswer, hos, hcontents, hcontents, hholds.contents]
  exact ⟨rfl, rfl, rfl, rfl⟩

end ArtifactGraph

end ModularBuild
