import ModularBuild.Proofs.Build.Confinement
import ModularBuild.Proofs.Build.Presence
import ModularBuild.Proofs.Build.Reads

/-!
# Which commands are started

Which tools a target needs is read off the actions before anything runs; which commands are started
is decided by the actions as they are performed. Performing an action starts the command of its
node, once, and nothing else (`issues_perform`), unless the place of the file cannot be made ready
before. So the required tools are the programs of the commands that the nodes of the build's own
tools issue, and whatever else an execution starts is the command of a generated file
(`requiredTools_exact`).
-/

namespace ModularBuild

variable {h : Host} {w w' : World} {i : Invocation} {p : Path}

/-! ## What starts nothing -/

def Quiet {α : Type} (x : WorldM α) : Prop := ∀ is, Preserves (fun w => w.started = is) x

theorem quiet_onFiles {α : Type} (context : String) (task : FileTask α) :
    Quiet (Operation.onFiles context task).run := by
  intro is w hw
  show (Operation.orFail context (task.exec w.files).1
    { w with files := (task.exec w.files).2 }).2.started = is
  cases (task.exec w.files).1 <;> exact hw

theorem quiet_ensureParent (h : Host) (p : Path) : Quiet (Operation.ensureParent h p).run := by
  unfold Operation.ensureParent
  cases FileTask.directoryOf? p with
  | none => exact fun _ => preserves_ok _
  | some dir => exact quiet_onFiles _ _

theorem quiet_discardOutput (site : BuildSite) (h : Host) (p : Path) :
    Quiet (site.discardOutput h p) := by
  intro is
  refine (quiet_onFiles _ (FileTask.removeIfExists h.cwd (site.locate p)) is).andThen
    fun answer => ?_
  cases answer with
  | ok => exact preserves_pure _
  | error e => exact fun _ hw => hw

theorem run_removeIfExists (hfile : ¬ w.files.isFile h.cwd p) (hlink : ¬ w.files.isLink h.cwd p) :
    (Operation.removeIfExists h p).run w = (.ok false, w) := by
  refine BuildSite.run_onFiles ?_
  rw [FileTask.exec_removeIfExists, if_neg (by simp [hfile, hlink])]

namespace BuildSite

variable {site : BuildSite} {node : Node}

/-! ## Work that issues a command -/

/-- The place of an output is clear: its directory is there, and the output itself is not. -/
structure Clear (site : BuildSite) (h : Host) (p : Path) (files : FileSystem) : Prop where
  directory : ∀ dir, FileTask.directoryOf? (site.locate p) = some dir → files.pathExists h.cwd dir
  file : ¬ files.isFile h.cwd (site.locate p)
  link : ¬ files.isLink h.cwd (site.locate p)

/-- Work that comes to one command: it is started, once and last, unless the place of the output is
not clear, in which case what is done to make it so may fail, and nothing is started. -/
def Issues (site : BuildSite) (h : Host) (p : Path) (x : WorldM (Except BuildError Unit))
    (i : Invocation) : Prop := ∀ w,
  (x w).2.started = i :: w.started ∨ ¬ site.Clear h p w.files ∧
    (∃ artifact message, (x w).1 = .error (.actionFailed artifact "" message)) ∧
      (x w).2.started = w.started

theorem started_runIn (h : Host) (artifact : String) (c : Command) (dir : Path) (w : World) :
    ((runIn h artifact c dir).run w).2.started = { c with cwd := some dir } :: w.started := by
  unfold runIn
  have hlog : (liftM (World.log .debug s!"running `{c.display}`") : Work Unit).run w =
      (.ok (), (World.log .debug s!"running `{c.display}`" w).2) := rfl
  have hspawn : ∀ t, (liftM (World.spawn h { c with cwd := some dir }) : Work _).run t =
      (.ok (World.spawn h { c with cwd := some dir } t).1,
        (World.spawn h { c with cwd := some dir } t).2) := fun _ => rfl
  rw [run_bind_of_ok hlog, run_bind_of_ok (hspawn _)]
  -- What is left looks at the answer of the command.
  cases (World.spawn h { c with cwd := some dir } _).1 with
  | error e => rfl
  | ok output =>
    dsimp only
    split <;> rfl

theorem issues_runIn (artifact : String) (c : Command) (dir : Path) :
    Issues site h p (runIn h artifact c dir).run { c with cwd := some dir } := fun w =>
  .inl (started_runIn h artifact c dir w)

/-- What is prepared before a command starts nothing, and succeeds where the place is clear. -/
theorem Issues.prepare {artifact : String} {op : Operation Unit} {k : Work Unit}
    (hop : Quiet op.run) (hclear : ∀ w, site.Clear h p w.files → op.run w = (.ok (), w))
    (hk : Issues site h p k.run i) :
    Issues site h p (BuildSite.prepare artifact op >>= fun _ => k).run i := by
  intro w
  by_cases hw : site.Clear h p w.files
  · rw [run_bind_of_ok (run_prepare (hclear w hw))]
    exact hk w
  · have hstarted : (op.run w).2.started = w.started := hop _ w rfl
    have hprepare := prepare_eq artifact op w
    rcases hrun : op.run w with ⟨e | _, w'⟩
    · rw [hrun] at hprepare hstarted
      rw [run_bind_of_error hprepare]
      exact .inr ⟨hw, ⟨artifact, e.message, rfl⟩, hstarted⟩
    · rw [hrun] at hprepare hstarted
      rw [run_bind_of_ok hprepare, ← hstarted]
      exact (hk w').imp_right fun hfailed => ⟨hw, hfailed.2⟩

theorem Issues.logged {k : Work Unit} {level : LogLevel} {message : String}
    (hk : Issues site h p k.run i) :
    Issues site h p (liftM (World.log level message) >>= fun _ => k : Work Unit).run i := fun w =>
  hk (World.log level message w).2

theorem Issues.andThen {x k : Work Unit} (hx : Issues site h p x.run i) (hk : Quiet k.run) :
    Issues site h p (x >>= fun _ => k).run i := by
  intro w
  have hissued := hx w
  rcases hrun : x.run w with ⟨e | _, w'⟩
  · rw [hrun] at hissued
    rwa [run_bind_of_error hrun]
  · rw [hrun] at hissued
    rcases hissued with hstarted | ⟨-, ⟨artifact, message, hfailed⟩, -⟩
    · rw [run_bind_of_ok hrun]
      exact .inl (hk _ w' hstarted)
    · cases hfailed

theorem issues_assemble (form : LibraryForm) (objects : List Path) (output : Path) :
    Issues site h output (site.assemble h form objects output).run
      { site.libraryCommand form objects output with cwd := some site.root } := by
  refine Issues.prepare ?quiet ?clear (issues_runIn _ _ _).logged
  case quiet =>
    intro is
    refine (quiet_ensureParent h (site.locate output) is).bind fun _ _ => ?_
    exact (quiet_onFiles _ _ is).bind fun _ _ => preserves_ok _
  case clear =>
    intro w hw
    rw [run_bind_of_ok (run_ensureParent hw.directory)]
    show (Operation.removeIfExists h (site.locate output) >>= fun _ => pure ()).run w = _
    rw [run_bind_of_ok (run_removeIfExists hw.file hw.link)]
    rfl

/-- **Performing the action of a node starts its command**, once and as the last, and nothing
else. -/
theorem issues_act (hi : site.invocation? node p = some i) :
    Issues site h p (site.act h node p).run i := by
  unfold act
  refine Issues.prepare (quiet_ensureParent h _) (fun w hw => run_ensureParent hw.directory) ?_
  unfold invocation? at hi
  cases haction : node.action with
  | source | phony =>
    rw [haction] at hi
    cases hi
  | compile lang source | linkExe lang objects archives =>
    rw [haction] at hi
    cases hi
    exact issues_runIn _ _ _
  | archive objects | sharedLink objects =>
    rw [haction] at hi
    cases hi
    exact issues_assemble _ objects p
  | generate command dir =>
    rw [haction] at hi
    cases command with
    | nil => cases hi
    | cons program args =>
      cases hi
      refine (issues_runIn _ _ _).andThen fun is => preserves_get.bind fun now _ => ?_
      split
      · exact preserves_ok _
      · exact preserves_throw _

theorem quiet_act (hi : site.invocation? node p = none) : Quiet (site.act h node p).run := by
  intro is
  unfold act
  have hparent : Preserves (fun w => w.started = is)
      (BuildSite.prepare node.displayName (Operation.ensureParent h (site.locate p))).run :=
    preserves_prepare (quiet_ensureParent h _ is)
  refine hparent.bind fun _ _ => ?_
  unfold invocation? at hi
  cases haction : node.action with
  | source | phony => exact preserves_ok _
  | compile lang source | linkExe lang objects archives | archive objects | sharedLink objects =>
    rw [haction] at hi
    cases hi
  | generate command dir =>
    rw [haction] at hi
    cases command with
    | nil => exact preserves_throw _
    | cons program args => cases hi

theorem issues_perform (hi : site.invocation? node p = some i) :
    Issues site h p ((site.workbench h).perform node p) i := by
  obtain ⟨es, hperform⟩ := exists_perform_eq site h node p
  intro w
  rw [hperform]
  exact issues_act hi { w with events := es ++ w.events }

theorem quiet_perform (hi : site.invocation? node p = none) :
    Quiet ((site.workbench h).perform node p) := by
  obtain ⟨es, hperform⟩ := exists_perform_eq site h node p
  intro is w hw
  rw [hperform]
  exact quiet_act hi is { w with events := es ++ w.events } hw

/-! ## Required tools -/

variable {plan : Plan} {f : FileNames} {policy : ArtifactGraph.LinkPolicy} {mode : BuildMode}
  {g : ArtifactGraph} {n target : NodeId}

theorem exists_invocation_of_assembles (site : BuildSite) (hn : node.action.assembles) (p : Path) :
    ∃ i, site.invocation? node p = some i ∧ tool? site.toolchain node.action = some i.program := by
  unfold invocation?
  cases haction : node.action with
  | compile | archive | sharedLink | linkExe => exact ⟨_, rfl, rfl⟩
  | source | phony | generate =>
    rw [haction] at hn
    cases hn

theorem assembles_of_tool? {t : Toolchain} {action : Action} (h : tool? t action = some p) :
    action.assembles := by
  cases action <;> first | rfl | cases h

/-- A node issues a command on a site: whatever the host and the world are, performing its action
does. -/
def NodeIssues (site : BuildSite) (node : Node) (i : Invocation) : Prop :=
  ∃ p, node.path = some p ∧ site.invocation? node p = some i ∧
    ∀ h, Issues site h p ((site.workbench h).perform node p) i

theorem nodeIssues_of_invocation (hpath : node.path = some p)
    (hi : site.invocation? node p = some i) : site.NodeIssues node i :=
  ⟨p, hpath, hi, fun _ => issues_perform hi⟩

/-- Every node of the build's own tools issues a command, whose program is its tool. -/
theorem exists_nodeIssues (site : BuildSite)
    (hderive : (ArtifactGraph.derive plan f policy mode).result = .ok g)
    (hn : (g.node n).action.assembles) : ∃ i, site.NodeIssues (g.node n) i ∧
      tool? site.toolchain (g.node n).action = some i.program := by
  obtain ⟨-, x, -, -, hpath⟩ := ArtifactGraph.exists_artifact_of_assembles hderive hn
  obtain ⟨i, hi, htool⟩ := exists_invocation_of_assembles site hn (f.path x)
  exact ⟨i, nodeIssues_of_invocation hpath hi, htool⟩

theorem started_execute (site : BuildSite)
    (hderive : (ArtifactGraph.derive plan f policy mode).result = .ok g)
    (htarget : target < g.nodes.size) (h : Host) (w : World) :
    ∃ is, ((site.runner h g).execute g target w).2.started = is ++ w.started ∧
      ∀ i ∈ is, ∃ n p, g.Reaches target n ∧ g.Output n p ∧
        site.invocation? (g.node n) p = some i := by
  let I : World → Prop := fun t => ∃ is, t.started = is ++ w.started ∧
    ∀ i ∈ is, ∃ n p, g.Reaches target n ∧ g.Output n p ∧ site.invocation? (g.node n) p = some i
  have hquiet : ∀ {α : Type} {x : WorldM α}, Quiet x → Preserves I x :=
    fun hx t ⟨is, ht, his⟩ => ⟨is, hx _ t ht, his⟩
  have hperform : ∀ n p, g.Reaches target n → g.Output n p →
      Preserves I ((site.workbench h).perform (g.node n) p) := by
    intro n p hreach hout t ht
    cases hi : site.invocation? (g.node n) p with
    | none => exact hquiet (quiet_perform hi) t ht
    | some i =>
      obtain ⟨is, ht, his⟩ := ht
      rcases issues_perform hi t with hstarted | ⟨-, -, hstarted⟩
      · refine ⟨i :: is, by rw [hstarted, ht]; rfl, List.forall_mem_cons.mpr ⟨?_, his⟩⟩
        exact ⟨n, p, hreach, hout, hi⟩
      · exact ⟨is, hstarted.trans ht, his⟩
  rw [BuildSite.runner_eq]
  exact Workbench.preserves_execute_of_reaches (ArtifactGraph.wellFormed_derive hderive)
    (ArtifactGraph.ordered_derive hderive) htarget hperform
    (fun p => hquiet (quiet_discardOutput site h p)) (fun _ _ ht => ht) _ w ⟨[], rfl, nofun⟩

/-- **The required tools of a target are the programs that its actions run.** They stand in strict
path order; each is the program of the command that some node issues which the target needs, and the
program of the command of every such node is among them, generated files apart. An execution starts
the commands of such nodes and nothing else. -/
theorem requiredTools_exact
    (hderive : (ArtifactGraph.derive plan f policy mode).result = .ok g)
    (htarget : target < g.nodes.size) (site : BuildSite) :
    (requiredTools site.toolchain g target).Pairwise (fun a b => compare a b = .lt) ∧
    (∀ p ∈ requiredTools site.toolchain g target, ∃ n i, g.Reaches target n ∧
      (g.node n).action.assembles ∧ site.NodeIssues (g.node n) i ∧ i.program = p) ∧
    (∀ n, g.Reaches target n → (g.node n).action.assembles →
      ∃ i, site.NodeIssues (g.node n) i ∧
        ∃ p ∈ requiredTools site.toolchain g target, p.Same i.program) ∧
    ∀ (h : Host) (w : World), ∃ is,
      ((site.runner h g).execute g target w).2.started = is ++ w.started ∧
      ∀ i ∈ is, ∃ n p, g.Reaches target n ∧ g.Output n p ∧
        site.invocation? (g.node n) p = some i ∧
        ((g.node n).action.assembles →
          ∃ q ∈ requiredTools site.toolchain g target, q.Same i.program) := by
  have hreachable : ∀ n, n ∈ g.reachable target ↔ g.Reaches target n := fun n =>
    ArtifactGraph.mem_reachable_iff (ArtifactGraph.wellFormed_derive hderive).edgesWithin htarget
  have hincluded : ∀ n q, g.Reaches target n → tool? site.toolchain (g.node n).action = some q →
      ∃ p ∈ requiredTools site.toolchain g target, p.Same q := by
    intro n q hreach htool
    have hmem : q ∈ (g.reachable target).filterMap
        fun n => tool? site.toolchain (g.node n).action :=
      List.mem_filterMap.mpr ⟨n, (hreachable n).mpr hreach, htool⟩
    obtain ⟨p, hp, hsame⟩ := SortedSet.exists_mem_ofList hmem
    exact ⟨p, hp, (Path.compare_eq_iff_same.mp hsame).symm⟩
  refine ⟨SortedSet.pairwise_toList _, fun p hp => ?used, fun n hreach hn => ?included,
    fun h w => ?run⟩
  case used =>
    obtain ⟨n, hmem, htool⟩ := List.mem_filterMap.mp (SortedSet.mem_of_mem_ofList hp)
    have hn := assembles_of_tool? htool
    obtain ⟨i, hissues, hi⟩ := exists_nodeIssues site hderive hn
    exact ⟨n, i, (hreachable n).mp hmem, hn, hissues, Option.some.inj (hi.symm.trans htool)⟩
  case included =>
    obtain ⟨i, hissues, hi⟩ := exists_nodeIssues site hderive hn
    exact ⟨i, hissues, hincluded n _ hreach hi⟩
  case run =>
    obtain ⟨is, hstarted, his⟩ := started_execute site hderive htarget h w
    refine ⟨is, hstarted, fun i hi => ?_⟩
    obtain ⟨n, p, hreach, hout, hinvocation⟩ := his i hi
    refine ⟨n, p, hreach, hout, hinvocation, fun hn => hincluded n _ hreach ?_⟩
    obtain ⟨i', hi', htool⟩ := exists_invocation_of_assembles site hn p
    cases hi'.symm.trans hinvocation
    exact htool

/-! ## The tools of a small project -/

/-- A site with the usual tools. -/
def usualSite : BuildSite := .ofConfig ⟨"/demo"⟩ {} none

open ArtifactGraph

theorem requiredTools_withLibrary :
    requiredTools usualSite.toolchain withLibrary 0 = [⟨"ar"⟩, ⟨"c++"⟩] := by
  have hreachable : withLibrary.reachable 0 = [0, 5, 9, 7, 6, 8, 12, 11, 10] := by
    rw [constructs_withLibrary.reachable]
    cbv
  rw [requiredTools, hreachable]
  decide

/-- For the library and the program the archiver and the compiler are required; each is run, and the
program is linked by one of them. -/
theorem requiredTools_exact_withLibrary :
    (derive libraryPlan {} .everyLibrary (.standalone ⟨"A"⟩)).result = .ok withLibrary ∧
      0 < withLibrary.nodes.size ∧
      (∀ tool ∈ [Path.mk "ar", ⟨"c++"⟩], ∃ n i, withLibrary.Reaches 0 n ∧
        usualSite.NodeIssues (withLibrary.node n) i ∧ i.program = tool) ∧
      ∃ i, usualSite.NodeIssues (withLibrary.node 12) i ∧
        ∃ tool ∈ [Path.mk "ar", ⟨"c++"⟩], tool.Same i.program := by
  have hsize : 0 < withLibrary.nodes.size := by rw [constructs_withLibrary.size]; decide
  obtain ⟨-, hused, hincluded, -⟩ := requiredTools_exact derive_withLibrary hsize usualSite
  rw [requiredTools_withLibrary] at hused hincluded
  refine ⟨derive_withLibrary, hsize, fun tool htool => ?_, hincluded 12 (.single ?_) (by rfl)⟩
  · obtain ⟨n, i, hreach, -, hissues, hi⟩ := hused tool htool
    exact ⟨n, i, hreach, hissues, hi⟩
  · refine mem_dependencies.mpr ?_
    rw [constructs_withLibrary.edges]
    decide

end BuildSite

end ModularBuild
