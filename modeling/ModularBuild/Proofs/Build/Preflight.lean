import ModularBuild.Install
import ModularBuild.Proofs.Build.Cleaning
import ModularBuild.Proofs.Build.Outcomes
import ModularBuild.Proofs.Toolchain.Precedence

/-!
# What is found wrong before anything runs

A build begins with four checks and reports the first that fails. Until all of them have passed, the
user is told things and nothing else is done (`preflight_cases`), so whatever begins with a build,
installing included, leaves the files as they were and starts no program if one of them fails
(`guarded_operations`). What an operation fails with after the checks is never what a check reports.
-/

namespace ModularBuild

/-! ## Operations that only tell -/

namespace Operation

variable {α β : Type} {op : Operation α} {k : α → Operation β} {w : World}

/-- An operation comes to a result and does nothing but tell the user. -/
def Tells (op : Operation α) (w : World) (result : Except Failure α) : Prop :=
  ∃ es, op.run w = (result, { w with events := es ++ w.events })

theorem tells_pure (a : α) : Tells (pure a) w (.ok a) := ⟨[], rfl⟩

theorem tells_throw (e : Failure) : Tells (throw e : Operation α) w (.error e) := ⟨[], rfl⟩

theorem tells_get (w : World) : Tells get w (.ok w) := ⟨[], rfl⟩

theorem Tells.bind {a : α} {result : Except Failure β} (h : Tells op w (.ok a))
    (hk : ∀ es, Tells (k a) { w with events := es ++ w.events } result) :
    Tells (op >>= k) w result := by
  obtain ⟨es, hrun⟩ := h
  obtain ⟨more, hmore⟩ := hk es
  refine ⟨more ++ es, ?_⟩
  rw [run_bind_of_ok hrun, hmore, List.append_assoc]

theorem Tells.bind_error {e : Failure} (h : Tells op w (.error e)) :
    Tells (op >>= k) w (.error e) :=
  h.imp fun _ hrun => run_bind_of_error hrun

theorem discard_eq_bind (op : Operation α) : discard op = op >>= fun _ => pure () :=
  (bind_pure_comp _ op).symm

theorem run_mapFailure (f : Failure → Failure) (op : Operation α) (w : World) :
    (op.mapFailure f).run w = ((op.run w).1.mapError f, (op.run w).2) := rfl

end Operation

/-! ## What operations fail with -/

/-- What bringing a node up to date fails with. -/
inductive BuildError.OfNode : BuildError → Prop
  | missing (p : Path) : OfNode (.missingArtifact p)
  | action (artifact command output : String) : OfNode (.actionFailed artifact command output)

/-- What an operation fails with that has begun to act: a node, an installation into a path, or the
command that is run after it. -/
inductive Failure.OfActing : Failure → Prop
  | node {e : BuildError} : e.OfNode → OfActing (.ofBuild e)
  | installing (p : Path) (reason : String) : OfActing (.ofBuild (.installTarget p reason))
  | hook (e : Failure) : OfActing (e.within "post-install hook failed")

/-- What the failure of acting looks like: it is an error of building in no context, or that of the
command that is run after an installation. -/
theorem Failure.OfActing.cause_or_contexts {e : Failure} (he : e.OfActing) :
    (e.contexts = [] ∧ ∃ b, e.cause = .build b ∧ ∀ name, b ≠ .unknownTarget name) ∨
      ∃ contexts, e.contexts = "post-install hook failed" :: contexts := by
  cases he with
  | node he => exact .inl ⟨rfl, _, rfl, fun name hb => by cases he <;> cases hb⟩
  | installing p reason => exact .inl ⟨rfl, _, rfl, nofun⟩
  | hook e => exact .inr ⟨e.contexts, rfl⟩

/-! ## What actions fail with -/

namespace BuildSite

variable {h : Host} {site : BuildSite}

theorem raises_prepare (artifact : String) (op : Operation Unit) :
    Raises BuildError.OfNode (prepare artifact op) := by
  refine (raises_lift _).bind fun result _ => ?_
  cases result with
  | ok => exact raises_pure _
  | error e => exact raises_throw (.action ..)

theorem raises_runIn (artifact : String) (c : Command) (dir : Path) :
    Raises BuildError.OfNode (runIn h artifact c dir) := by
  refine (raises_lift _).bind fun _ _ => (raises_lift _).bind fun answer _ => ?_
  cases answer with
  | error e => exact raises_throw (.action ..)
  | ok output =>
    dsimp only
    split
    · exact raises_pure _
    · exact raises_throw (.action ..)

theorem raises_assemble (form : LibraryForm) (objects : List Path) (output : Path) :
    Raises BuildError.OfNode (site.assemble h form objects output) :=
  (raises_prepare _ _).bind fun _ _ => (raises_lift _).bind fun _ _ => raises_runIn _ _ _

theorem raises_generate (artifact : String) (output : Path) (command : List String) (dir : Path) :
    Raises BuildError.OfNode (site.generate h artifact output command dir) := by
  unfold generate
  cases command with
  | nil => exact raises_throw (.action ..)
  | cons program args =>
    refine (raises_runIn _ _ _).bind fun _ _ => raises_get.bind fun now _ => ?_
    split
    · exact raises_pure _
    · exact raises_throw (.action ..)

theorem raises_act (node : Node) (p : Path) : Raises BuildError.OfNode (site.act h node p) := by
  unfold act
  refine (raises_prepare _ _).bind fun _ _ => ?_
  cases node.action with
  | source | phony => exact raises_pure _
  | compile | linkExe => exact raises_runIn _ _ _
  | archive | sharedLink => exact raises_assemble _ _ _
  | generate => exact raises_generate _ _ _ _

end BuildSite

/-! ## What an execution fails with -/

namespace Workbench

variable {σ : Type} {b : Workbench σ} {g : ArtifactGraph} {late : NodeId → Bool}
  {announce : Event → StateM σ Unit} {P : BuildError → Prop}

/-- A node fails with what its action fails with, or for want of a source. -/
theorem error_of_runNodeSeeing (hmissing : ∀ p, P (.missingArtifact p))
    (hperform : ∀ node p s e, (b.perform node p s).1 = .error e → P e) {n : NodeId}
    {built : List NodeId} {seen s : σ} {e : BuildError}
    (he : (b.runNodeSeeing g n built seen s).1 = .error e) : P e := by
  have hruns := b.runsTo g n built seen s
  generalize b.runNodeSeeing g n built seen s = r at he hruns
  obtain ⟨result, s'⟩ := r
  cases he
  cases hruns with
  | missing => exact hmissing _
  | broken _ _ _ hbroken => exact hperform _ _ _ _ (by rw [hbroken])

theorem error_of_execute (hmissing : ∀ p, P (.missingArtifact p))
    (hperform : ∀ node p s e, (b.perform node p s).1 = .error e → P e) {target : NodeId} {s : σ}
    {e : BuildError} (he : ((b.runner g late announce).execute g target s).1 = .error e) : P e := by
  -- Carried along the run: every failure among the outcomes so far is one of these.
  have hall : ∀ n e', (n, Outcome.failed e') ∈
      ((b.runner g late announce).runLevels g (g.levels target) s).1 → P e' := by
    refine (b.runner g late announce).runLevels_induct_node
      (P := fun os _ => ∀ n e', (n, Outcome.failed e') ∈ os → P e') _ s nofun ?_ fun _ _ _ h => h
    intro _ _ _ before done n _ start t _ _ _ hdone m e' hm
    rw [← List.append_assoc] at hm
    rcases List.mem_append.mp hm with hm | hm
    · exact hdone m e' hm
    · -- The node itself has failed only if it was run: one that is skipped does not fail.
      replace hm := congrArg Prod.snd (List.mem_singleton.mp hm)
      cases hpoison : g.poison? before n with
      | some because =>
        rw [Runner.outcomeOf_skipped _ hpoison] at hm
        cases hm
      | none =>
        rw [Runner.outcomeOf_run _ hpoison] at hm
        have hrun : (b.runNodeSeeing g n before.built (if late n then t else start) t).1 =
            .error e' := Outcome.ofResult_inj hm.symm
        exact error_of_runNodeSeeing hmissing hperform hrun
  obtain ⟨before, n, after, hos, -⟩ :=
    ArtifactGraph.firstError?_eq_some_iff.mp ((ArtifactGraph.execute_eq_error_iff _ _ _ _).mp he)
  exact hall n e (by rw [hos]; simp)

end Workbench

theorem BuildSite.ofNode_of_execute {site : BuildSite} {h : Host} {g : ArtifactGraph}
    {target : NodeId} {w : World} {e : BuildError}
    (he : ((site.runner h g).execute g target w).1 = .error e) : e.OfNode := by
  rw [BuildSite.runner_eq] at he
  refine Workbench.error_of_execute .missing (fun node p s e he => ?_) he
  obtain ⟨es, hperform⟩ := exists_perform_eq site h node p
  rw [hperform] at he
  exact raises_act node p _ e he

namespace Workspace

variable {ws : Workspace} {h : Host} {files : FileSystem} {name : String} {w : World}
  {request : BuildRequest} {e : Failure}

/-! ## The checks -/

/-- What is checked before the first action runs. -/
inductive Check where
  | graph
  | target
  | toolchain
  | tools
deriving DecidableEq

namespace Check

/-- The checks that come before a check. -/
def earlier : Check → List Check
  | graph => []
  | target => [graph]
  | toolchain => [graph, target]
  | tools => [graph, target, toolchain]

theorem eq_or_earlier (c c' : Check) : c = c' ∨ c ∈ c'.earlier ∨ c' ∈ c.earlier := by
  cases c <;> cases c' <;> decide

end Check

/-- The toolchain configuration of the user, the project and the environment. -/
def settings (ws : Workspace) (h : Host) (files : FileSystem) : Except Failure ToolchainConfig :=
  (ToolchainConfig.loadMerged h files (ToolchainConfig.userFile? h)
    (ToolchainConfig.projectFile ws.root)).2

/-- What a check of a target finds wrong, whatever the checks before it find. There are tools to be
looked for only if there is a target and a configuration. -/
inductive FindsWrong (ws : Workspace) (h : Host) (files : FileSystem) (name : String) :
    Check → Failure → Prop
  | graph {e : Failure} : ws.graph.2 = .error e → FindsWrong ws h files name .graph e
  | target {g : ArtifactGraph} : ws.graph.2 = .ok g → g.find? name = none →
      FindsWrong ws h files name .target (.ofBuild (.unknownTarget name))
  | toolchain {e : Failure} : ws.settings h files = .error e →
      FindsWrong ws h files name .toolchain e
  | tools {g : ArtifactGraph} {target : NodeId} {config : ToolchainConfig} {missing : List Path} :
      ws.graph.2 = .ok g → g.find? name = some target → ws.settings h files = .ok config →
      missingTools h files (BuildSite.requiredTools (.ofConfig config) g target) = missing →
      missing ≠ [] →
      FindsWrong ws h files name .tools { cause := .other (missingToolsMessage missing) }

theorem exists_ofPlan_of_graph (hg : ws.graph.2 = .error e) : ∃ e', e = .ofPlan e' := by
  unfold graph at hg
  dsimp only at hg
  split at hg
  · exact ⟨_, (Except.error.inj hg).symm⟩
  · cases hg

/-- A text that goes on after `failed to` is not the context of a command that is run late. -/
theorem failedTo_ne_hook (s : String) : "failed to " ++ s ≠ "post-install hook failed" := by
  intro heq
  have hfirst := congrArg (·.toList.head?) heq
  simp at hfirst

/-- A configuration file that cannot be loaded is one that could not be read or holds no TOML. -/
theorem exists_context_of_load {p : Path} (hload : ToolchainConfig.load h files p = .error e) :
    ∃ context, e.contexts = ["failed to " ++ context] ∧ ∀ b, e.cause ≠ .build b := by
  unfold ToolchainConfig.load at hload
  split at hload
  · cases hload
    refine ⟨"read toolchain config: " ++ p.text, ?_, nofun⟩
    rw [← String.append_assoc]
    rfl
  · split at hload
    · cases hload
    · cases hload
      refine ⟨"parse toolchain config: " ++ p.text, ?_, nofun⟩
      rw [← String.append_assoc]
      rfl

theorem load_of_settings (hconfig : ws.settings h files = .error e) :
    ToolchainConfig.load h files (ToolchainConfig.projectFile ws.root) = .error e :=
  (ToolchainConfig.loadMerged_eq_error_iff.mp hconfig).2

theorem FindsWrong.not_ofActing {c : Check} (hwrong : ws.FindsWrong h files name c e) :
    ¬ e.OfActing := by
  intro hacting
  have hshape := hacting.cause_or_contexts
  cases hwrong with
  | graph hg =>
    obtain ⟨e', rfl⟩ := exists_ofPlan_of_graph hg
    rcases hshape with ⟨-, b, hb, -⟩ | ⟨contexts, hcontexts⟩
    · cases hb
    · cases hcontexts
  | target =>
    rcases hshape with ⟨-, b, hb, hother⟩ | ⟨contexts, hcontexts⟩
    · cases hb
      exact hother _ rfl
    · cases hcontexts
  | toolchain hconfig =>
    obtain ⟨context, hcontext, hcause⟩ := exists_context_of_load (load_of_settings hconfig)
    rcases hshape with ⟨-, b, hb, -⟩ | ⟨contexts, hcontexts⟩
    · exact hcause b hb
    · exact failedTo_ne_hook context (List.cons.inj (hcontext.symm.trans hcontexts)).1
  | tools =>
    rcases hshape with ⟨-, b, hb, -⟩ | ⟨contexts, hcontexts⟩
    · cases hb
    · cases hcontexts

/-- The first check that finds something wrong, and what it finds. -/
structure FirstWrong (ws : Workspace) (h : Host) (files : FileSystem) (name : String) (c : Check)
    (e : Failure) : Prop where
  wrong : ws.FindsWrong h files name c e
  first : ∀ c' ∈ c.earlier, ∀ e', ¬ ws.FindsWrong h files name c' e'

theorem FindsWrong.unique {c : Check} {e' : Failure} (hwrong : ws.FindsWrong h files name c e)
    (hwrong' : ws.FindsWrong h files name c e') : e = e' := by
  cases hwrong with
  | graph hg =>
    cases hwrong' with
    | graph hg' => exact Except.error.inj (hg.symm.trans hg')
  | target => cases hwrong' with | target => rfl
  | toolchain hconfig =>
    cases hwrong' with
    | toolchain hconfig' => exact Except.error.inj (hconfig.symm.trans hconfig')
  | tools hg hfind hconfig hmissing =>
    cases hwrong' with
    | tools hg' hfind' hconfig' hmissing' =>
      cases hg.symm.trans hg'
      cases hfind.symm.trans hfind'
      cases hconfig.symm.trans hconfig'
      rw [← hmissing, ← hmissing']

theorem FirstWrong.unique {c c' : Check} {e' : Failure} (hwrong : ws.FirstWrong h files name c e)
    (hwrong' : ws.FirstWrong h files name c' e') : c = c' ∧ e = e' := by
  rcases c.eq_or_earlier c' with rfl | hc | hc
  · exact ⟨rfl, hwrong.wrong.unique hwrong'.wrong⟩
  · exact absurd hwrong.wrong (hwrong'.first c hc e)
  · exact absurd hwrong'.wrong (hwrong.first c' hc e')

theorem not_findsWrong_graph {g : ArtifactGraph} (hg : ws.graph.2 = .ok g) (e : Failure) :
    ¬ ws.FindsWrong h files name .graph e := fun hwrong => by
  cases hwrong with | graph hg' => cases hg.symm.trans hg'

theorem not_findsWrong_target {g : ArtifactGraph} {target : NodeId} (hg : ws.graph.2 = .ok g)
    (hfind : g.find? name = some target) (e : Failure) :
    ¬ ws.FindsWrong h files name .target e := fun hwrong => by
  cases hwrong with
  | target hg' hfind' =>
    cases hg.symm.trans hg'
    cases hfind.symm.trans hfind'

theorem not_findsWrong_toolchain {config : ToolchainConfig}
    (hconfig : ws.settings h files = .ok config) (e : Failure) :
    ¬ ws.FindsWrong h files name .toolchain e := fun hwrong => by
  cases hwrong with | toolchain hconfig' => cases hconfig.symm.trans hconfig'

/-- What has been made ready once all checks have passed. -/
structure Ready (ws : Workspace) (h : Host) (files : FileSystem) (request : BuildRequest)
    (g : ArtifactGraph) (target : NodeId) (site : BuildSite) : Prop where
  derived : ws.graph.2 = .ok g
  found : g.find? request.target = some target
  configured : ∃ config, ws.settings h files = .ok config ∧
    site = { BuildSite.ofConfig ws.root config request.jobs with verbose := request.verbose }
  equipped : missingTools h files (BuildSite.requiredTools site.toolchain g target) = []

theorem Ready.not_findsWrong {g : ArtifactGraph} {target : NodeId} {site : BuildSite}
    (hready : ws.Ready h files request g target site) (c : Check) (e : Failure) :
    ¬ ws.FindsWrong h files request.target c e := by
  obtain ⟨hg, hfind, ⟨config, hconfig, rfl⟩, htools⟩ := hready
  cases c with
  | graph => exact not_findsWrong_graph hg e
  | target => exact not_findsWrong_target hg hfind e
  | toolchain => exact not_findsWrong_toolchain hconfig e
  | tools =>
    intro hwrong
    cases hwrong with
    | tools hg' hfind' hconfig' hmissing hne =>
      cases hg.symm.trans hg'
      cases hfind.symm.trans hfind'
      cases hconfig.symm.trans hconfig'
      exact hne (hmissing.symm.trans htools)

/-! ## Making the checks -/

theorem tells_telling {α : Type} (r : List Event × Except Failure α) (w : World) :
    (telling r).Tells w r.2 := ⟨_, run_telling r w⟩

theorem tells_toolchainConfig (ws : Workspace) (h : Host) (w : World) :
    (ws.toolchainConfig h).Tells w (ws.settings h w.files) := ⟨_, run_telling _ w⟩

/-- **The checks report the first that finds something wrong, or make everything ready.** Either way
they do nothing but tell the user. -/
theorem preflight_cases (ws : Workspace) (h : Host) (request : BuildRequest) (w : World) :
    (∃ c e, ws.FirstWrong h w.files request.target c e ∧
        (ws.preflight h request).Tells w (.error e)) ∨
      ∃ g target site, ws.Ready h w.files request g target site ∧
        (ws.preflight h request).Tells w (.ok (g, target, site)) := by
  -- A check is made only where all before it have passed, so each case below keeps what they found.
  have hderive : (ws.deriveGraph).Tells w ws.graph.2 := tells_telling ws.graph w
  unfold preflight
  cases hg : ws.graph.2 with
  | error e => exact .inl ⟨.graph, e, ⟨.graph hg, nofun⟩, (hg ▸ hderive).bind_error⟩
  | ok g =>
    rw [hg] at hderive
    have hgraph : ∀ e, ¬ ws.FindsWrong h w.files request.target .graph e :=
      not_findsWrong_graph hg
    cases hfind : g.find? request.target with
    | none =>
      refine .inl ⟨.target, _, ⟨.target hg hfind, ?_⟩, hderive.bind fun es => ?_⟩
      · simpa [Check.earlier] using hgraph
      · rw [hfind]
        exact Operation.tells_throw _
    | some target =>
      have htarget : ∀ e, ¬ ws.FindsWrong h w.files request.target .target e :=
        not_findsWrong_target hg hfind
      have hload : ∀ es, (ws.toolchainConfig h).Tells { w with events := es ++ w.events }
          (ws.settings h w.files) := fun es => ws.tells_toolchainConfig h _
      cases hconfig : ws.settings h w.files with
      | error e =>
        refine .inl ⟨.toolchain, e, ⟨.toolchain hconfig, ?_⟩, hderive.bind fun es => ?_⟩
        · simp [Check.earlier, hgraph, htarget]
        · rw [hfind]
          exact (hconfig ▸ hload es).bind_error
      | ok config =>
        rw [hconfig] at hload
        have hsettings : ∀ e, ¬ ws.FindsWrong h w.files request.target .toolchain e :=
          not_findsWrong_toolchain hconfig
        let site : BuildSite :=
          { BuildSite.ofConfig ws.root config request.jobs with verbose := request.verbose }
        cases hmissing : missingTools h w.files
          (BuildSite.requiredTools site.toolchain g target) with
        | nil =>
          refine .inr ⟨g, target, site, ⟨hg, hfind, ⟨config, hconfig, rfl⟩, hmissing⟩, ?_⟩
          refine hderive.bind fun es => ?_
          rw [hfind]
          refine (hload es).bind fun es' => (Operation.tells_get _).bind fun es'' => ?_
          dsimp only
          rw [hmissing]
          exact Operation.tells_pure _
        | cons tool tools =>
          refine .inl ⟨.tools, _, ⟨.tools hg hfind hconfig hmissing nofun, ?_⟩,
            hderive.bind fun es => ?_⟩
          · simp [Check.earlier, hgraph, htarget, hsettings]
          · rw [hfind]
            refine (hload es).bind fun es' => (Operation.tells_get _).bind fun es'' => ?_
            dsimp only
            rw [hmissing]
            exact Operation.tells_throw _

theorem Ready.unique {g g' : ArtifactGraph} {target target' : NodeId} {site site' : BuildSite}
    (hready : ws.Ready h files request g target site)
    (hready' : ws.Ready h files request g' target' site') :
    g = g' ∧ target = target' ∧ site = site' := by
  obtain ⟨hg, hfind, ⟨config, hconfig, rfl⟩, -⟩ := hready
  obtain ⟨hg', hfind', ⟨config', hconfig', rfl⟩, -⟩ := hready'
  cases hg.symm.trans hg'
  cases hfind.symm.trans hfind'
  cases hconfig.symm.trans hconfig'
  exact ⟨rfl, rfl, rfl⟩

theorem Ready.tells_preflight {g : ArtifactGraph} {target : NodeId} {site : BuildSite}
    (hready : ws.Ready h w.files request g target site) :
    (ws.preflight h request).Tells w (.ok (g, target, site)) := by
  rcases ws.preflight_cases h request w with ⟨c, e, hwrong, -⟩ | ⟨_, _, _, hready', htells⟩
  · exact absurd hwrong.wrong (hready.not_findsWrong c e)
  · obtain ⟨rfl, rfl, rfl⟩ := hready.unique hready'
    exact htells

/-! ## Operations that begin with the checks -/

/-- An operation that begins with the checks of a target. If one of them finds something wrong, the
operation reports it and does nothing but tell the user; whatever else it fails with, it fails with
in acting. -/
structure Guarded {α : Type} (ws : Workspace) (h : Host) (name : String) (op : Operation α) :
    Prop where
  idle : ∀ w c e, ws.FirstWrong h w.files name c e → op.Tells w (.error e)
  acting : ∀ w e, (op.run w).1 = .error e →
    (∃ c, ws.FirstWrong h w.files name c e) ∨ e.OfActing

section Guarded

variable {α β : Type} {op : Operation α}

theorem Guarded.bind {k : α → Operation β} (hop : ws.Guarded h name op)
    (hk : ∀ a, (∃ w, (op.run w).1 = .ok a) → Raises Failure.OfActing (k a)) :
    ws.Guarded h name (op >>= k) where
  idle w c e hwrong := (hop.idle w c e hwrong).bind_error
  acting w e he := by
    replace he : (ExceptT.bindCont k (op.run w).1 (op.run w).2).1 = .error e := he
    cases hresult : (op.run w).1 with
    | ok a =>
      rw [hresult] at he
      exact .inr (hk a ⟨w, hresult⟩ _ e he)
    | error e' =>
      rw [hresult] at he
      exact Except.error.inj he ▸ hop.acting w e' hresult

theorem Guarded.discard (hop : ws.Guarded h name op) : ws.Guarded h name (discard op) := by
  rw [Operation.discard_eq_bind]
  exact hop.bind fun _ _ => raises_pure _

end Guarded

theorem guarded_preflight (ws : Workspace) (h : Host) (request : BuildRequest) :
    ws.Guarded h request.target (ws.preflight h request) where
  idle w c e hwrong := by
    rcases ws.preflight_cases h request w with ⟨c', e', hwrong', htells⟩ | ⟨_, _, _, hready, -⟩
    · obtain ⟨rfl, rfl⟩ := hwrong.unique hwrong'
      exact htells
    · exact absurd hwrong.wrong (hready.not_findsWrong c e)
  acting w e he := by
    rcases ws.preflight_cases h request w with ⟨c, e', hwrong, es, hrun⟩ | ⟨_, _, _, _, es, hrun⟩
    · rw [hrun] at he
      exact .inl ⟨c, Except.error.inj he ▸ hwrong⟩
    · rw [hrun] at he
      cases he

/-- A build begins with the checks of its target. -/
theorem guarded_build (ws : Workspace) (h : Host) (request : BuildRequest) :
    ws.Guarded h request.target (ws.build h request) := by
  refine (ws.guarded_preflight h request).bind fun (g, target, site) _ => ?_
  refine (raises_lift _).bind fun _ _ => raises_get.bind fun _ _ => ?_
  refine (raises_lift _).bind fun result hresult => ?_
  cases result with
  | error e =>
    obtain ⟨w, hexecute⟩ := hresult
    exact raises_throw (.node (BuildSite.ofNode_of_execute (Except.ok.inj hexecute)))
  | ok summary => exact raises_get.bind fun _ _ => (raises_lift _).bind fun _ _ => raises_pure _

theorem raises_mapFailure {α : Type} {f : Failure → Failure} (hf : ∀ e, (f e).OfActing)
    (op : Operation α) : Raises Failure.OfActing (op.mapFailure f) := by
  intro w e he
  rw [Operation.run_mapFailure] at he
  cases hop : (op.run w).1 with
  | ok a =>
    rw [hop] at he
    cases he
  | error e' =>
    rw [hop] at he
    cases he
    exact hf e'

theorem raises_installing {α : Type} (p : Path) (op : Operation α) :
    Raises Failure.OfActing (installing p op) :=
  raises_mapFailure (fun _ => .installing p _) op

theorem raises_installDirectory (dir : String) (request : InstallRequest) :
    Raises Failure.OfActing (ws.installDirectory h request dir) :=
  (raises_installing _ _).bind fun _ _ => raises_pure _

theorem raises_installFile (src dir : Path) : Raises Failure.OfActing (installFile h src dir) :=
  (raises_installing _ _).bind fun _ _ => (raises_lift _).bind fun _ _ => raises_pure _

theorem guarded_buildFor (ws : Workspace) (h : Host) (request : InstallRequest) (a : Aggregate) :
    ws.Guarded h a.name (ws.buildFor h request a) :=
  (ws.guarded_build h ⟨a.name, request.jobs, request.verbose⟩).discard

theorem guarded_installBin (ws : Workspace) (h : Host) (request : InstallRequest) :
    ws.Guarded h Aggregate.programs.name (ws.installBin h request) := by
  refine (ws.guarded_buildFor h request _).bind fun _ _ => ?_
  refine (raises_installDirectory _ _).bind fun _ _ => ?_
  exact raises_mapM fun _ _ => raises_installFile _ _

theorem guarded_installLib (ws : Workspace) (h : Host) (request : InstallRequest) :
    ws.Guarded h Aggregate.libraries.name (ws.installLib h request) := by
  refine (ws.guarded_buildFor h request _).bind fun _ _ => ?_
  refine (raises_installDirectory _ _).bind fun _ _ => ?_
  refine raises_mapM fun _ _ => (raises_installFile _ _).bind fun _ _ => ?_
  exact (raises_installing _ _).bind fun _ _ => raises_pure _

theorem raises_runPostInstallHook (request : InstallRequest) :
    Raises Failure.OfActing (ws.runPostInstallHook h request) := by
  unfold runPostInstallHook
  cases ws.manifest.postInstallHook with
  | nil => exact raises_pure _
  | cons program args =>
    refine (raises_lift _).bind fun _ _ => ?_
    rw [Operation.discard_eq_bind]
    exact (raises_mapFailure .hook _).bind fun _ _ => raises_pure _

theorem guarded_install (ws : Workspace) (h : Host) (request : InstallRequest) :
    ws.Guarded h Aggregate.programs.name (ws.install h request) :=
  (ws.guarded_installBin h request).discard.bind fun _ _ => raises_runPostInstallHook request

/-- **What is found wrong before anything runs stops a build, and an installation, before it has
done anything.** The graph, the target, the toolchain configuration and the required tools are
checked in this order. If one of the checks finds something wrong, the first that does is reported,
no file is changed and no program is started, the command that is run after an installation among
them. What these operations fail with otherwise is never what a check reports. -/
theorem guarded_operations (ws : Workspace) (h : Host) :
    (∀ request, ws.Guarded h request.target (ws.build h request)) ∧
      (∀ request, ws.Guarded h Aggregate.programs.name (ws.installBin h request) ∧
        ws.Guarded h Aggregate.libraries.name (ws.installLib h request) ∧
        ws.Guarded h Aggregate.programs.name (ws.install h request)) ∧
      ∀ files name c e, ws.FindsWrong h files name c e → ¬ e.OfActing :=
  ⟨ws.guarded_build h,
    fun request => ⟨ws.guarded_installBin h request, ws.guarded_installLib h request,
      ws.guarded_install h request⟩,
    fun _ _ _ _ hwrong => hwrong.not_ofActing⟩

/-! ## A project whose configuration cannot be read -/

open FileSystem

/-- A project with a command to be run after an installation. -/
def hooked : Workspace :=
  { oneModule ["main"] with
    manifest := { name := "demo", modules := ["A"], postInstallHook := ["true"] } }

/-- A directory is where the project keeps its configuration. -/
def misconfigured : World :=
  let directory : FileEntry := ⟨.directory, directoryMode, 1, true, none⟩
  { files :=
      { entries := ((SortedMap.insert ∅ ["demo"] directory).insert ["demo", ".stratum"]
          directory).insert ["demo", ".stratum", "toolchain.toml"] directory } }

theorem linkFree_misconfigured : LinkFree misconfigured.files := linkFree_of_entries (by decide)

theorem graph_hooked : hooked.graph.2 = .ok (oneModuleGraph ["main"]) := graph_main

theorem find?_nope : (oneModuleGraph ["main"]).find? "nope" = none := by
  have hpath : ArtifactGraph.targetPath "nope" = ⟨"nope"⟩ := by
    rw [ArtifactGraph.targetPath, slashed, String.toList_map]
    rfl
  unfold ArtifactGraph.find?
  rw [hpath]
  decide

/-- What is reported of the configuration. -/
def unreadable : Failure :=
  .ofFile "failed to read toolchain config: /demo/.stratum/toolchain.toml" .isDirectory

theorem settings_hooked : hooked.settings idleHost misconfigured.files = .error unreadable := by
  unfold settings ToolchainConfig.loadMerged ToolchainConfig.load
  simp only [readText, FileSystem.read, pathExists, lookup?, lookup,
    resolve_eq_descend linkFree_misconfigured]
  decide

/-- A build of what there is not reports that, although the configuration cannot be read; an
installation of the programs reports the configuration. Neither does anything. -/
theorem guarded_operations_hooked :
    (∀ name, hooked.FindsWrong idleHost misconfigured.files name .toolchain unreadable) ∧
      (hooked.build idleHost ⟨"nope", none, false⟩).Tells misconfigured
        (.error (.ofBuild (.unknownTarget "nope"))) ∧
      (hooked.install idleHost {}).Tells misconfigured (.error unreadable) ∧
      ¬ unreadable.OfActing := by
  obtain ⟨hbuild, hinstall, hacting⟩ := guarded_operations hooked idleHost
  have hwrong : ∀ name, hooked.FindsWrong idleHost misconfigured.files name .toolchain unreadable :=
    fun _ => .toolchain settings_hooked
  have hgraph : ∀ name e, ¬ hooked.FindsWrong idleHost misconfigured.files name .graph e :=
    fun _ => not_findsWrong_graph graph_hooked
  have hprograms : (oneModuleGraph ["main"]).find? Aggregate.programs.name = some 2 := by rfl
  refine ⟨hwrong, (hbuild _).idle _ .target _ ⟨.target graph_hooked find?_nope, ?_⟩,
    (hinstall {}).2.2.idle _ .toolchain _ ⟨hwrong _, ?_⟩, hacting _ "nope" _ _ (hwrong _)⟩
  · simpa [Check.earlier] using hgraph "nope"
  · simp [Check.earlier, hgraph, not_findsWrong_target graph_hooked hprograms]

end Workspace

end ModularBuild
