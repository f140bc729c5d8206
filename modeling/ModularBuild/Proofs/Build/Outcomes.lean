import ModularBuild.Proofs.Build.Execution
import ModularBuild.Proofs.Build.Node
import Mathlib.Data.Set.Card

/-!
# What an execution comes to

Every outcome follows from those of the nodes needed directly (`allSettled_runLevels`). Because a
graph has an order, this local fact gives the global one: a node is skipped exactly if something it
needs, directly or through others, failed. `Accounts` collects what an execution of any target comes
to.
-/

namespace ModularBuild

/-! ## Looking up outcomes -/

namespace Outcome

/-- What running the node has come to, if it was run. -/
def result? : Outcome → Option (Except BuildError NodeStatus)
  | built => some (.ok .built)
  | fresh => some (.ok .fresh)
  | failed e => some (.error e)
  | skipped _ => none

@[simp] theorem result?_ofResult (result : Except BuildError NodeStatus) :
    (ofResult result).result? = some result := by
  rcases result with e | _ | _ <;> rfl

theorem ofResult_inj {result result' : Except BuildError NodeStatus}
    (h : ofResult result = ofResult result') : result = result' := by
  have hresults := congrArg result? h
  rw [result?_ofResult, result?_ofResult] at hresults
  exact Option.some.inj hresults

end Outcome

namespace Outcomes

variable {os new : Outcomes} {n : NodeId} {o : Outcome}

theorem mem_of_lookup_eq_some (h : os.lookup n = some o) : (n, o) ∈ os := by
  obtain ⟨before, after, hos, -⟩ := List.lookup_eq_some_iff.mp h
  rw [hos]
  exact List.mem_append_right _ List.mem_cons_self

theorem lookup_eq_some_of_mem (hos : (os.map (·.1)).Nodup) (h : (n, o) ∈ os) :
    os.lookup n = some o := by
  obtain ⟨before, after, rfl⟩ := List.append_of_mem h
  refine List.lookup_eq_some_iff.mpr ⟨before, after, rfl, fun e he => ?_⟩
  rw [List.map_append, List.nodup_append] at hos
  have hne : e.1 ≠ n := hos.2.2 _ (List.mem_map_of_mem he) _ List.mem_cons_self
  simpa using Ne.symm hne

/-- Later outcomes do not change what is looked up of a node that has one. -/
theorem lookup_append_of_mem (h : n ∈ os.map (·.1)) :
    (os ++ new).lookup n = os.lookup n := by
  rw [List.lookup_append]
  obtain ⟨e, he, rfl⟩ := List.mem_map.mp h
  have hsome : (os.lookup e.1).isSome := List.lookup_isSome_iff.mpr ⟨e, he, by simp⟩
  exact Option.or_of_isSome hsome

end Outcomes

namespace ArtifactGraph

variable {g : ArtifactGraph} {os new : Outcomes} {n d target : NodeId} {o : Outcome}

/-! ## Why a node is skipped -/

theorem poison?_eq_some {because : String} (h : g.poison? os n = some because) :
    ∃ d, g.Needs n d ∧ ((∃ e, os.lookup d = some (.failed e) ∧ g.displayName d = because) ∨
      os.lookup d = some (.skipped because)) := by
  obtain ⟨d, hd, hlookup⟩ := List.exists_of_findSome?_eq_some h
  refine ⟨d, hd, ?_⟩
  split at hlookup
  · rename_i e he
    exact .inl ⟨e, he, Option.some.inj hlookup⟩
  · rename_i because' he
    rw [he, Option.some.inj hlookup]
    exact .inr rfl
  · cases hlookup

theorem poison?_eq_none (h : g.poison? os n = none) (hneeds : g.Needs n d) :
    (∀ e, os.lookup d ≠ some (.failed e)) ∧ ∀ because, os.lookup d ≠ some (.skipped because) := by
  have hd := List.findSome?_eq_none_iff.mp h d hneeds
  refine ⟨fun e he => ?_, fun because he => ?_⟩
  · rw [he] at hd
    cases hd
  · rw [he] at hd
    cases hd

/-- All that a node which is not skipped needs directly was run, with success. -/
theorem ok_of_poison?_eq_none (hos : (os.map (·.1)).Nodup) (hpoison : g.poison? os n = none)
    (hneeds : g.Needs n d) (hd : d ∈ os.map (·.1)) :
    ∃ status, (d, .ofResult (.ok status)) ∈ os := by
  obtain ⟨⟨d, o⟩, ho, rfl⟩ := List.mem_map.mp hd
  have hlookup := Outcomes.lookup_eq_some_of_mem hos ho
  have hdone := poison?_eq_none hpoison hneeds
  cases o with
  | built => exact ⟨.built, ho⟩
  | fresh => exact ⟨.fresh, ho⟩
  | failed e => exact absurd hlookup (hdone.1 e)
  | skipped because => exact absurd hlookup (hdone.2 because)

/-- Only the outcomes of the nodes it needs directly decide whether a node is skipped. -/
theorem poison?_congr {os' : Outcomes} (h : ∀ d, g.Needs n d → os.lookup d = os'.lookup d) :
    g.poison? os n = g.poison? os' n := by
  have hcongr : ∀ (f f' : NodeId → Option String) (l : List NodeId), (∀ d ∈ l, f d = f' d) →
      l.findSome? f = l.findSome? f' := by
    intro f f' l hl
    induction l with
    | nil => rfl
    | cons d l ih =>
      rw [List.findSome?_cons, List.findSome?_cons, hl d List.mem_cons_self,
        ih fun d hd => hl d (List.mem_cons_of_mem _ hd)]
  exact hcongr _ _ _ fun d hd => by simp only [h d hd]

/-! ## Settled outcomes -/

/-- An outcome that follows from those of the nodes needed directly: the node is skipped, with the
name they give, or else was run. -/
def Settled (g : ArtifactGraph) (os : Outcomes) (n : NodeId) (o : Outcome) : Prop :=
  match g.poison? os n with
  | some because => o = .skipped because
  | none => ∃ result, o = .ofResult result

theorem Settled.append (h : g.Settled os n o) (hneeds : ∀ d, g.Needs n d → d ∈ os.map (·.1)) :
    g.Settled (os ++ new) n o := by
  have hpoison : g.poison? (os ++ new) n = g.poison? os n :=
    poison?_congr fun d hd => Outcomes.lookup_append_of_mem (hneeds d hd)
  rwa [Settled, hpoison]

theorem settled_outcomeOf {σ : Type} (r : Runner σ) (before : Outcomes) (start : σ) (n : NodeId)
    (s : σ) : g.Settled before n (r.outcomeOf g before start n s).1.2 := by
  unfold Settled
  cases h : g.poison? before n with
  | none =>
    rw [r.outcomeOf_run h]
    exact ⟨_, rfl⟩
  | some because =>
    rw [r.outcomeOf_skipped h]

/-- Every outcome is settled, and everything that a node with an outcome needs has one too. -/
structure AllSettled (g : ArtifactGraph) (os : Outcomes) : Prop where
  settled : ∀ n o, (n, o) ∈ os → g.Settled os n o
  closed : ∀ n o, (n, o) ∈ os → ∀ d, g.Needs n d → d ∈ os.map (·.1)

theorem allSettled_runLevels {σ : Type} (r : Runner σ) (hg : g.Ordered)
    (htarget : target < g.nodes.size) (s : σ) :
    g.AllSettled (r.runLevels g (g.levels target) s).1 := by
  refine r.runLevels_induct_node (P := fun os _ => g.AllSettled os) _ s
    ⟨nofun, nofun⟩ ?_ (fun os e t h => h)
  intro lower level upper before done n rest start t hlevels hbefore hlevel hdone
  have hneeds : ∀ d, g.Needs n d → d ∈ before.map (·.1) := fun d hd => by
    rw [hbefore]
    exact mem_lower_of_needs hg htarget hlevels (by rw [hlevel]; simp) hd
  have hself : ∀ m o, (m, o) = (r.outcomeOf g before start n t).1 → m = n := fun m o h =>
    (congrArg Prod.fst h).trans (r.fst_outcomeOf before start n t)
  constructor
  · intro m o hm
    rw [← List.append_assoc] at hm
    rcases List.mem_append.mp hm with hm | hm
    · rw [← List.append_assoc]
      exact (hdone.settled m o hm).append (hdone.closed m o hm)
    · -- The node itself is judged by the levels below, which hold all it needs.
      have houtcome := settled_outcomeOf (g := g) r before start n t
      have hm := List.mem_singleton.mp hm
      rw [← hm] at houtcome ⊢
      rw [hself m o hm]
      exact houtcome.append hneeds
  · intro m o hm d hd
    rw [← List.append_assoc] at hm
    rcases List.mem_append.mp hm with hm | hm
    · rw [← List.append_assoc, List.map_append]
      exact List.mem_append_left _ (hdone.closed m o hm d hd)
    · rw [hself m o (List.mem_singleton.mp hm)] at hd
      rw [List.map_append]
      exact List.mem_append_left _ (hneeds d hd)

/-! ## Failures poison what needs them -/

theorem AllSettled.failed_of_skipped (hg : g.Ordered) (h : g.AllSettled os) {because : String}
    (hn : (n, .skipped because) ∈ os) :
    ∃ d e, g.ReachesStrictly n d ∧ (d, .failed e) ∈ os ∧ g.displayName d = because := by
  induction n using hg.induction with
  | step n ih =>
    have hsettled := h.settled n _ hn
    unfold Settled at hsettled
    split at hsettled
    · rename_i because' hpoison
      cases hsettled
      -- The name is that of a failure right here, or was handed on by a node that is skipped.
      obtain ⟨d, hd, ⟨e, he, hname⟩ | hskipped⟩ := poison?_eq_some hpoison
      · exact ⟨d, e, .single hd, Outcomes.mem_of_lookup_eq_some he, hname⟩
      · obtain ⟨c, e, hc, he, hname⟩ := ih d hd (Outcomes.mem_of_lookup_eq_some hskipped)
        exact ⟨c, e, .head hd hc, he, hname⟩
    · obtain ⟨result, hresult⟩ := hsettled
      have hnone := congrArg Outcome.result? hresult
      rw [Outcome.result?_ofResult] at hnone
      cases hnone

/-- A node is skipped if one that it needs directly has failed or is skipped. -/
theorem AllSettled.skipped_of_poison (h : g.AllSettled os) (hn : (n, o) ∈ os)
    (hpoison : g.poison? os n ≠ none) : ∃ because, o = .skipped because := by
  have hsettled := h.settled n o hn
  unfold Settled at hsettled
  split at hsettled
  · rename_i because _
    exact ⟨because, hsettled⟩
  · rename_i hnone
    exact absurd hnone hpoison

theorem AllSettled.skipped_of_failed (h : g.AllSettled os) (hos : (os.map (·.1)).Nodup)
    (hreach : g.ReachesStrictly n d) {e : BuildError} (hd : (d, .failed e) ∈ os)
    (hn : (n, o) ∈ os) : ∃ because, o = .skipped because := by
  -- Along the chain of needs, from the failure up, every node is skipped.
  induction hreach using Relation.TransGen.head_induction_on generalizing o with
  | single hneeds =>
    refine h.skipped_of_poison hn fun hnone => ?_
    exact (poison?_eq_none hnone hneeds).1 e (Outcomes.lookup_eq_some_of_mem hos hd)
  | head hneeds _ ih =>
    obtain ⟨⟨m, o'⟩, hm, hmd⟩ := List.mem_map.mp (h.closed _ _ hn _ hneeds)
    cases hmd
    obtain ⟨because, rfl⟩ := ih hm
    refine h.skipped_of_poison hn fun hnone => ?_
    exact (poison?_eq_none hnone hneeds).2 because (Outcomes.lookup_eq_some_of_mem hos hm)

theorem AllSettled.ok_of_run (h : g.AllSettled os) (hos : (os.map (·.1)).Nodup)
    (hn : (n, o) ∈ os) {result : Except BuildError NodeStatus} (hrun : o.result? = some result)
    (hneeds : g.Needs n d) : ∃ status, (d, .ofResult (.ok status)) ∈ os := by
  refine ok_of_poison?_eq_none hos ?_ hneeds (h.closed n o hn d hneeds)
  by_contra hpoison
  obtain ⟨because, rfl⟩ := h.skipped_of_poison hn hpoison
  cases hrun

theorem AllSettled.ok_of_no_failure (hg : g.Ordered) (h : g.AllSettled os)
    (hnone : ∀ m e, (m, .failed e) ∉ os) (hn : (n, o) ∈ os) :
    ∃ status, o = .ofResult (.ok status) := by
  cases o with
  | built => exact ⟨.built, rfl⟩
  | fresh => exact ⟨.fresh, rfl⟩
  | failed e => exact absurd hn (hnone n e)
  | skipped because =>
    obtain ⟨d, e, -, hd, -⟩ := h.failed_of_skipped hg hn
    exact absurd hd (hnone d e)

end ArtifactGraph

/-! ## What is run -/

/-- The runs that the outcomes tell of, in order. -/
def Outcomes.calls (os : Outcomes) : Runner.Calls :=
  os.filterMap fun e => e.2.result?.map (e.1, ·)

theorem Outcomes.calls_append (os new : Outcomes) : calls (os ++ new) = os.calls ++ new.calls :=
  List.filterMap_append

theorem Outcomes.calls_run (n : NodeId) (result : Except BuildError NodeStatus) :
    calls [(n, .ofResult result)] = [(n, result)] := by
  simp [calls]

theorem Outcomes.calls_skipped (n : NodeId) (because : String) :
    calls [(n, .skipped because)] = [] := rfl

/-- The nodes run are those that are not skipped, in the order of their outcomes. -/
theorem Runner.calls_recorded {σ : Type} {g : ArtifactGraph} (r : Runner σ)
    (levels : List (List NodeId)) (s : σ) :
    (r.recorded.runLevels g levels (s, [])).2.2 = (r.runLevels g levels s).1.calls := by
  have hcalls := r.recorded.runLevels_induct_node (g := g) (P := fun os t => t.2 = os.calls)
    levels (s, []) rfl (by
      intro lower level upper before done n rest start t _ _ _ ht
      rw [← List.append_assoc, Outcomes.calls_append, ← ht]
      cases hpoison : g.poison? before n with
      | none =>
        rw [Runner.outcomeOf_run _ hpoison, Outcomes.calls_run]
        rfl
      | some because =>
        rw [Runner.outcomeOf_skipped _ hpoison, Outcomes.calls_skipped, List.append_nil])
    (fun os e t h => h)
  rw [hcalls, (r.runLevels_recorded levels (s, [])).1]

theorem Outcomes.calls_eq_append_cons {os : Outcomes} {before after : Runner.Calls} {n : NodeId}
    {result : Except BuildError NodeStatus} (h : os.calls = before ++ (n, result) :: after) :
    ∃ os₁ o os₂, os = os₁ ++ (n, o) :: os₂ ∧ o.result? = some result ∧
      Outcomes.calls os₁ = before := by
  obtain ⟨os₁, rest, hos, hbefore, hrest⟩ := List.filterMap_eq_append_iff.mp h
  obtain ⟨quiet, ⟨m, o⟩, os₂, hsplit, hquiet, ho, -⟩ := List.filterMap_eq_cons_iff.mp hrest
  obtain ⟨result', hresult, hpair⟩ := Option.map_eq_some_iff.mp ho
  cases hpair
  refine ⟨os₁ ++ quiet, o, os₂, by rw [hos, hsplit, List.append_assoc], hresult, ?_⟩
  have hnone : Outcomes.calls quiet = [] := List.filterMap_eq_nil_iff.mpr hquiet
  rw [Outcomes.calls_append, hnone, List.append_nil]
  exact hbefore

/-! ## What is built -/

namespace ArtifactGraph

variable {g : ArtifactGraph} {os : Outcomes} {target : NodeId}

theorem producesOutput_of_mem_runLevels {σ : Type} (b : Workbench σ) (late : NodeId → Bool)
    (announce : Event → StateM σ Unit) (hg : g.WellFormed) (hord : g.Ordered)
    (htarget : target < g.nodes.size) (s : σ) :
    ∀ n, (n, .built) ∈ ((b.runner g late announce).runLevels g (g.levels target) s).1 →
      (g.node n).action.producesOutput := by
  refine (b.runner g late announce).runLevels_induct_node
    (P := fun os _ => ∀ n, (n, .built) ∈ os → (g.node n).action.producesOutput) _ s nofun ?_
    (fun os e t h => h)
  intro lower level upper before done n rest start t hlevels hbefore hlevel hdone m hm
  have hn := (ready_of_levels hord htarget hlevels hbefore).within n (by simp [hlevel])
  rw [← List.append_assoc] at hm
  rcases List.mem_append.mp hm with hm | hm
  · exact hdone m hm
  · have hm := List.mem_singleton.mp hm
    cases hpoison : g.poison? before n with
    | none =>
      rw [Runner.outcomeOf_run _ hpoison] at hm
      obtain ⟨hmn, hbuilt⟩ := Prod.mk.inj hm
      rw [hmn]
      have hresult : .ok .built =
          (b.runNodeSeeing g n before.built (if late n then t else start) t).1 :=
        Outcome.ofResult_inj hbuilt
      have hrun := b.runsTo g n before.built (if late n then t else start) t
      rw [← hresult] at hrun
      exact hg.producesOutput_of_built hn hrun
    | some because =>
      rw [Runner.outcomeOf_skipped _ hpoison] at hm
      cases hm

/-- Where every outcome is success, and only outputs are built, the summary counts the outputs. -/
theorem summarize_eq_length
    (hok : ∀ n o, (n, o) ∈ os → ∃ status, o = .ofResult (.ok status))
    (hbuilt : ∀ n, (n, .built) ∈ os → (g.node n).action.producesOutput) :
    (g.summarize os).built + (g.summarize os).fresh =
      (os.filter fun e => (g.node e.1).action.producesOutput).length := by
  show os.built.length + _ = _
  unfold Outcomes.built
  rw [List.length_map]
  induction os with
  | nil => rfl
  | cons e os ih =>
    have htail := ih (fun n o hn => hok n o (List.mem_cons_of_mem _ hn))
      (fun n hn => hbuilt n (List.mem_cons_of_mem _ hn))
    obtain ⟨n, o⟩ := e
    obtain ⟨status, rfl⟩ := hok n o List.mem_cons_self
    cases status with
    | built =>
      have hn := hbuilt n List.mem_cons_self
      simp [summarize, hn, Outcome.ofResult] at htail ⊢
      omega
    | fresh =>
      cases hn : (g.node n).action.producesOutput
      · simpa [summarize, hn, Outcome.ofResult] using htail
      · simp [summarize, hn, Outcome.ofResult] at htail ⊢
        omega

/-! ## What an execution comes to -/

theorem execute_eq_error_iff {σ : Type} (r : Runner σ) (target : NodeId) (s : σ) (e : BuildError) :
    (r.execute g target s).1 = .error e ↔
      (r.runLevels g (g.levels target) s).1.firstError? = some e := by
  rw [r.execute_eq]
  cases (r.runLevels g (g.levels target) s).1.firstError? with
  | none => exact ⟨nofun, nofun⟩
  | some e' => exact ⟨fun h => by cases h; rfl, fun h => by cases h; rfl⟩

theorem execute_eq_ok {σ : Type} {r : Runner σ} {s : σ} {summary : BuildSummary}
    (h : (r.execute g target s).1 = .ok summary) :
    (r.runLevels g (g.levels target) s).1.firstError? = none ∧
      summary = g.summarize (r.runLevels g (g.levels target) s).1 := by
  rw [r.execute_eq] at h
  cases hfirst : (r.runLevels g (g.levels target) s).1.firstError? with
  | none =>
    rw [hfirst] at h
    exact ⟨rfl, (Except.ok.inj h).symm⟩
  | some e' =>
    rw [hfirst] at h
    cases h

theorem firstError?_eq_some_iff {e : BuildError} :
    os.firstError? = some e ↔ ∃ before n after, os = before ++ (n, .failed e) :: after ∧
      ∀ m e', (m, .failed e') ∉ before := by
  rw [Outcomes.firstError?, List.findSome?_eq_some_iff]
  constructor
  · rintro ⟨before, ⟨n, o⟩, after, hos, ho, hbefore⟩
    cases o with
    | failed e' =>
      cases ho
      exact ⟨before, n, after, hos, fun m e' hm => nomatch hbefore _ hm⟩
    | built | fresh | skipped because => cases ho
  · rintro ⟨before, n, after, hos, hbefore⟩
    refine ⟨before, (n, .failed e), after, hos, rfl, fun ⟨m, o⟩ hm => ?_⟩
    cases o with
    | failed e' => exact absurd hm (hbefore m e')
    | built | fresh | skipped because => rfl

theorem not_mem_of_firstError?_eq_none (h : os.firstError? = none) (n : NodeId) (e : BuildError) :
    (n, .failed e) ∉ os := fun hn =>
  nomatch List.findSome?_eq_none_iff.mp h _ hn

/-- What the outcomes of an execution, the nodes that were run, and the answer have to do with each
other and with what the target needs. -/
structure Accounts (g : ArtifactGraph) (target : NodeId) (os : Outcomes) (calls : Runner.Calls)
    (answer : Except BuildError BuildSummary) : Prop where
  /-- Outcomes come about level by level, and in a level in its order. -/
  order : os.map (·.1) = (g.levels target).flatten
  once : (os.map (·.1)).Nodup
  reached : ∀ n, n ∈ os.map (·.1) ↔ g.Reaches target n
  run : calls = os.calls
  /-- A node is run only after everything that it needs directly was built or fresh. -/
  ready : ∀ before n result after, calls = before ++ (n, result) :: after →
    ∀ d, g.Needs n d → ∃ status, (d, .ok status) ∈ before
  skipped : ∀ n, g.Reaches target n →
    ((∃ because, (n, .skipped because) ∈ os) ↔
      ∃ d e, g.ReachesStrictly n d ∧ (d, .failed e) ∈ os)
  because : ∀ n because, (n, .skipped because) ∈ os →
    ∃ d e, g.ReachesStrictly n d ∧ (d, .failed e) ∈ os ∧ g.displayName d = because
  fails : (∃ e, answer = .error e) ↔ ∃ n e, (n, .failed e) ∈ os
  /-- The answer to a failure is the first. -/
  first : ∀ e, answer = .error e ↔ ∃ before n after, os = before ++ (n, .failed e) :: after ∧
    ∀ m e', (m, .failed e') ∉ before

/-- Whatever the nodes that are run come to, an execution accounts for them. -/
theorem accounts_runner {σ : Type} (r : Runner σ) (hord : g.Ordered)
    (htarget : target < g.nodes.size) (s : σ) :
    g.Accounts target (r.runLevels g (g.levels target) s).1
      (r.recorded.runLevels g (g.levels target) (s, [])).2.2 (r.execute g target s).1 := by
  have horder := r.map_fst_runLevels (g := g) (g.levels target) s
  have hall := allSettled_runLevels r hord htarget s
  have hcalls := r.calls_recorded (g := g) (g.levels target) s
  have herror := execute_eq_error_iff (g := g) r target s
  generalize (r.runLevels g (g.levels target) s).1 = os at *
  have hnodup : (os.map (·.1)).Nodup := by
    rw [horder]
    exact nodup_flatten_levels target hord
  have hreached : ∀ n, n ∈ os.map (·.1) ↔ g.Reaches target n := fun n => by
    rw [horder]
    exact mem_flatten_levels_iff hord htarget
  have hfirst : ∀ e, (r.execute g target s).1 = .error e ↔ ∃ before n after,
      os = before ++ (n, .failed e) :: after ∧ ∀ m e', (m, .failed e') ∉ before := fun e =>
    (herror e).trans firstError?_eq_some_iff
  refine ⟨horder, hnodup, hreached, hcalls, ?ready, ?skipped, ?because, ?fails, hfirst⟩
  case ready =>
    intro before n result after hsplit d hd
    rw [hcalls] at hsplit
    obtain ⟨os₁, o, os₂, hos, ho, rfl⟩ := Outcomes.calls_eq_append_cons hsplit
    have hn : (n, o) ∈ os := by
      rw [hos]
      exact List.mem_append_right _ List.mem_cons_self
    obtain ⟨status, hd'⟩ := hall.ok_of_run hnodup hn ho hd
    -- The outcome of `d` is not only there but there before that of `n`.
    have hbefore : d ∈ os₁.map (·.1) := by
      have hsplit' : (g.levels target).flatten = os₁.map (·.1) ++ n :: os₂.map (·.1) := by
        rw [← horder, hos, List.map_append, List.map_cons]
      exact mem_before_of_needs_levels hord htarget hsplit' hd
    obtain ⟨⟨d, o''⟩, hd'', rfl⟩ := List.mem_map.mp hbefore
    have hlookup := Outcomes.lookup_eq_some_of_mem hnodup hd'
    rw [Outcomes.lookup_eq_some_of_mem hnodup (hos ▸ List.mem_append_left _ hd'')] at hlookup
    refine ⟨status, List.mem_filterMap.mpr ⟨_, hd'', ?_⟩⟩
    rw [Option.some.inj hlookup, Outcome.result?_ofResult]
    rfl
  case skipped =>
    intro n hn
    constructor
    · rintro ⟨because, hskipped⟩
      obtain ⟨d, e, hnd, hd, -⟩ := hall.failed_of_skipped hord hskipped
      exact ⟨d, e, hnd, hd⟩
    · rintro ⟨d, e, hnd, hd⟩
      obtain ⟨⟨n, o⟩, ho, rfl⟩ := List.mem_map.mp ((hreached n).mpr hn)
      obtain ⟨because, rfl⟩ := hall.skipped_of_failed hnodup hnd hd ho
      exact ⟨because, ho⟩
  case because => exact fun n because hn => hall.failed_of_skipped hord hn
  case fails =>
    constructor
    · rintro ⟨e, he⟩
      obtain ⟨before, n, after, hos, -⟩ := (hfirst e).mp he
      exact ⟨n, e, by rw [hos]; exact List.mem_append_right _ List.mem_cons_self⟩
    · rintro ⟨n, e, hn⟩
      cases hfe : os.firstError? with
      | none => exact absurd hn (not_mem_of_firstError?_eq_none hfe n e)
      | some e' => exact ⟨e', (herror e').mpr hfe⟩

theorem built_add_fresh {σ : Type} {b : Workbench σ} {late : NodeId → Bool}
    {announce : Event → StateM σ Unit} (hg : g.WellFormed) (hord : g.Ordered)
    (htarget : target < g.nodes.size) {s : σ} {summary : BuildSummary}
    (hok : ((b.runner g late announce).execute g target s).1 = .ok summary) :
    summary.built + summary.fresh =
      {n | g.Reaches target n ∧ (g.node n).action.producesOutput}.ncard := by
  have haccounts := accounts_runner (b.runner g late announce) hord htarget s
  have hall := allSettled_runLevels (b.runner g late announce) hord htarget s
  have hbuilt := producesOutput_of_mem_runLevels b late announce hg hord htarget s
  obtain ⟨hfirst, rfl⟩ := execute_eq_ok hok
  generalize ((b.runner g late announce).runLevels g (g.levels target) s).1 = os at *
  have hdone : ∀ n o, (n, o) ∈ os → ∃ status, o = .ofResult (.ok status) := fun n o hn =>
    hall.ok_of_no_failure hord (not_mem_of_firstError?_eq_none hfirst) hn
  have hset : {n | g.Reaches target n ∧ (g.node n).action.producesOutput} =
      (((os.map (·.1)).filter fun n => (g.node n).action.producesOutput).toFinset :
        Set NodeId) := by
    ext n
    rw [Finset.mem_coe, List.mem_toFinset, List.mem_filter, haccounts.reached n]
    rfl
  rw [summarize_eq_length hdone hbuilt, hset, Set.ncard_coe_finset,
    List.toFinset_card_of_nodup (haccounts.once.filter _), List.filter_map, List.length_map]
  rfl

/-- **What an execution comes to**, for any target of a derived graph: it accounts for its nodes
whatever running them comes to, and where they are run on a workbench it counts the outputs. -/
theorem accounts_execute {plan : Plan} {f : FileNames} {policy : LinkPolicy} {mode : BuildMode}
    (hderive : (derive plan f policy mode).result = .ok g) (htarget : target < g.nodes.size)
    {σ : Type} (r : Runner σ) (s : σ) :
    g.Accounts target (r.runLevels g (g.levels target) s).1
        (r.recorded.runLevels g (g.levels target) (s, [])).2.2 (r.execute g target s).1 ∧
      ∀ (b : Workbench σ) (late : NodeId → Bool) (announce : Event → StateM σ Unit)
        (summary : BuildSummary), r = b.runner g late announce →
        (r.execute g target s).1 = .ok summary →
        summary.built + summary.fresh =
          {n | g.Reaches target n ∧ (g.node n).action.producesOutput}.ncard := by
  have hord := ordered_derive hderive
  refine ⟨accounts_runner r hord htarget s, fun b late announce summary hr hok => ?_⟩
  rw [hr] at hok
  exact built_add_fresh (wellFormed_derive hderive) hord htarget hok

/-- Two stages are built where their actions succeed. Where they fail, the second is skipped. -/
theorem accounts_execute_twoStages :
    let b : Workbench Bool :=
      { modified? := fun p _ => if p.Same ⟨"gen/seed.txt"⟩ then some 0 else none
        perform := fun _ _ works =>
          (if works then .ok () else .error (.unknownTarget "make-a"), works)
        discard := fun _ => pure () }
    let r := b.runner twoStages (fun _ => true) fun _ => pure ()
    aggregate .generated < twoStages.nodes.size ∧
      twoStages.Accounts (aggregate .generated)
        (r.runLevels twoStages (twoStages.levels (aggregate .generated)) false).1
        (r.recorded.runLevels twoStages (twoStages.levels (aggregate .generated)) (false, [])).2.2
        (r.execute twoStages (aggregate .generated) false).1 ∧
      (r.execute twoStages (aggregate .generated) true).1 = .ok ⟨2, 0⟩ ∧
      {n | twoStages.Reaches (aggregate .generated) n ∧
        (twoStages.node n).action.producesOutput}.ncard = 2 := by
  intro b r
  have htarget : aggregate .generated < twoStages.nodes.size := by
    rw [constructs_twoStages.size]
    decide
  have hok : (r.execute twoStages (aggregate .generated) true).1 = .ok ⟨2, 0⟩ := by
    show (r.execute twoStages 4 true).1 = .ok ⟨2, 0⟩
    rw [Runner.execute_eq, levels_twoStages]
    rfl
  exact ⟨htarget, (accounts_execute derive_twoStages htarget r false).1, hok,
    ((accounts_execute derive_twoStages htarget r true).2 b _ _ _ rfl hok).symm⟩

end ArtifactGraph

end ModularBuild
