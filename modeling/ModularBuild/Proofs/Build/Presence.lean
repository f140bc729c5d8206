import ModularBuild.Proofs.Build.Cleaning
import ModularBuild.Proofs.Build.Outcomes
import ModularBuild.Proofs.Files.Removal
import ModularBuild.Proofs.Graph.Edges

/-!
# What a successful build leaves in place

An execution that succeeds has looked at the file of every source and of every fresh output, but not
at all files that it has had made: only the command of a generated file is asked for its file. So a
file is there in the end, or its node was built by a tool that succeeded and left nothing
(`present_or_missed`, and `inPlace_iff` with the four kinds of tools of which this can be said). A
compiler that does nothing is such a tool (`not_inPlace_silent`).
-/

namespace ModularBuild

/-- All outcomes are success. -/
def Outcomes.AllOk (os : Outcomes) : Prop :=
  ∀ n o, (n, o) ∈ os → ∃ status, o = .ofResult (.ok status)

theorem Outcomes.AllOk.left {os new : Outcomes} (h : AllOk (os ++ new)) : os.AllOk := fun n o hn =>
  h n o (List.mem_append_left _ hn)

namespace Workbench

open ArtifactGraph

variable {σ : Type} {b : Workbench σ} {announce : Event → StateM σ Unit} {g : ArtifactGraph}
  {n m target : NodeId} {p : Path} {before done os : Outcomes} {s s' start t t' : σ}

/-- The states that actions which succeed, and what is told, lead to. -/
inductive Visits (b : Workbench σ) (announce : Event → StateM σ Unit) (g : ArtifactGraph) (s : σ) :
    σ → Prop
  | start : Visits b announce g s s
  | acted {n : NodeId} {p : Path} {t t' : σ} : Visits b announce g s t → g.Output n p →
      b.perform (g.node n) p t = (.ok (), t') → Visits b announce g s t'
  | told {t : σ} (e : Event) : Visits b announce g s t → Visits b announce g s (announce e t).2

/-- No action that succeeds removes the file of another node. -/
def SparesOthers (b : Workbench σ) (announce : Event → StateM σ Unit) (g : ArtifactGraph) (s : σ) :
    Prop :=
  ∀ n p t t', b.Visits announce g s t → g.Output n p → b.perform (g.node n) p t = (.ok (), t') →
    ∀ m q, m ≠ n → (g.node m).path = some q → (b.modified? q t).isSome → (b.modified? q t').isSome

/-- The action of a node has succeeded and left no file. -/
def Missed (b : Workbench σ) (announce : Event → StateM σ Unit) (g : ArtifactGraph) (s : σ)
    (n : NodeId) (p : Path) : Prop :=
  g.Output n p ∧ ∃ t t', b.Visits announce g s t ∧ b.perform (g.node n) p t = (.ok (), t') ∧
    b.modified? p t' = none

/-- What has come of an execution that began in the state `s`: every node that was brought up to
date has its file, or it was built and its action has missed it. -/
structure Placed (b : Workbench σ) (announce : Event → StateM σ Unit) (g : ArtifactGraph) (s : σ)
    (os : Outcomes) (t : σ) : Prop where
  visited : b.Visits announce g s t
  files : ∀ n o, (n, o) ∈ os → ∀ p, (g.node n).path = some p →
    (b.modified? p t).isSome ∨ o = .built ∧ b.Missed announce g s n p

/-- No file of a node, those in the list apart, has gone. -/
def Remain (b : Workbench σ) (g : ArtifactGraph) (done : List NodeId) (t t' : σ) : Prop :=
  ∀ m, m ∉ done → ∀ q, (g.node m).path = some q → (b.modified? q t).isSome →
    (b.modified? q t').isSome

theorem Remain.trans {ds : List NodeId} {t'' : σ} (h : b.Remain g ds t t')
    (h' : b.Remain g ds t' t'') : b.Remain g ds t t'' := fun m hm q hq hfile =>
  h' m hm q hq (h m hm q hq hfile)

theorem Remain.mono {ds ds' : List NodeId} (h : b.Remain g ds t t') (hds : ds ⊆ ds') :
    b.Remain g ds' t t' := fun m hm => h m fun hmem => hm (hds hmem)

/-! ## One node -/

theorem remain_of_runsTo (hg : g.WellFormed) (hn : n < g.nodes.size)
    (hspares : b.SparesOthers announce g s) (hvisited : b.Visits announce g s t)
    {built : List NodeId} {seen : σ} {status : NodeStatus}
    (hrun : b.RunsTo g n built seen t (.ok status) t') :
    b.Visits announce g s t' ∧ b.Remain g [n] t t' := by
  cases hrun with
  | phony hpath => exact ⟨hvisited, fun _ _ _ _ hfile => hfile⟩
  | there hpath hsource hthere => exact ⟨hvisited, fun _ _ _ _ hfile => hfile⟩
  | fresh hpath hsource hfresh => exact ⟨hvisited, fun _ _ _ _ hfile => hfile⟩
  | @made p t' hpath hsource hfresh hperform =>
    have hout : g.Output n p := ⟨hg.producesOutput_of_path hn hpath hsource, hpath⟩
    refine ⟨hvisited.acted hout hperform, fun m hm q hq => ?_⟩
    exact hspares n p t t' hvisited hout hperform m q (fun hmn => hm (by simp [hmn])) hq

/-- A node that is brought up to date has its file, or its action has missed it. The node may have
been judged by an earlier state, but its file has not gone since. -/
theorem file_of_runsTo (hg : g.WellFormed) (hn : n < g.nodes.size)
    (hvisited : b.Visits announce g s t) {built : List NodeId} {seen : σ} {status : NodeStatus}
    (hseen : ∀ q, (g.node n).path = some q → (b.modified? q seen).isSome → (b.modified? q t).isSome)
    (hrun : b.RunsTo g n built seen t (.ok status) t') (hpath : (g.node n).path = some p) :
    (b.modified? p t').isSome ∨ status = .built ∧ b.Missed announce g s n p := by
  cases hrun with
  | phony hnone =>
    rw [hnone] at hpath
    cases hpath
  | @there q hq hsource hthere =>
    obtain rfl := Option.some.inj (hpath.symm.trans hq)
    exact .inl (hseen p hpath hthere)
  | @fresh q hq hsource hfresh =>
    obtain rfl := Option.some.inj (hpath.symm.trans hq)
    obtain ⟨time, htime, -⟩ := isFresh_iff.mp hfresh
    exact .inl (hseen p hpath (by rw [htime]; rfl))
  | @made q t' hq hsource hfresh hperform =>
    obtain rfl := Option.some.inj (hpath.symm.trans hq)
    have hout : g.Output n p := ⟨hg.producesOutput_of_path hn hpath hsource, hpath⟩
    cases hfile : b.modified? p t' with
    | some time => exact .inl rfl
    | none => exact .inr ⟨rfl, hout, t, t', hvisited, hperform, hfile⟩

/-! ## Whole executions -/

/-- What starts an execution true and is kept by every node that is brought up to date is true in the
end, if all outcomes are success. Of the nodes that a level has done, `R` says what they have kept of
the state in which it began. -/
theorem runLevels_induct_ok {P : Outcomes → σ → Prop} {R : List NodeId → σ → σ → Prop}
    (hord : g.Ordered) (htarget : target < g.nodes.size) (late : NodeId → Bool)
    (hstart : P [] s) (hbegin : ∀ t, R [] t t)
    (hnode : ∀ before level done n rest start t t' status, g.Ready before level →
      level = done.map (·.1) ++ n :: rest → P (before ++ done) t →
      R (done.map (·.1)) start t →
      b.RunsTo g n before.built (if late n then t else start) t (.ok status) t' →
      P (before ++ done ++ [(n, .ofResult (.ok status))]) t' ∧
        R (done.map (·.1) ++ [n]) start t')
    (htell : ∀ os ds start e t, P os t → R ds start t →
      P os (announce e t).2 ∧ R ds start (announce e t).2)
    (hok : Outcomes.AllOk ((b.runner g late announce).runLevels g (g.levels target) s).1) :
    P ((b.runner g late announce).runLevels g (g.levels target) s).1
      ((b.runner g late announce).runLevels g (g.levels target) s).2 := by
  refine ((b.runner g late announce).runLevels_induct (P := fun os t => os.AllOk → P os t) _ s
    (fun _ => hstart) fun lower level upper before start hlevels hbefore h => ?_).2 hok
  have hready := ready_of_levels hord htarget hlevels hbefore
  let Q := fun (done : Outcomes) (t : σ) => Outcomes.AllOk (before ++ done) →
    P (before ++ done) t ∧ R (done.map (·.1)) start t
  have hfirst : Q [] start := by
    intro hok
    rw [List.append_nil] at hok ⊢
    exact ⟨h hok, hbegin start⟩
  have hstep : ∀ done n rest t, level = done.map (·.1) ++ n :: rest → Q done t →
      Q (done ++ [((b.runner g late announce).outcomeOf g before start n t).1])
        ((b.runner g late announce).outcomeOf g before start n t).2 := by
    intro done n rest t hlevel hdone hok
    have hfst := Runner.fst_outcomeOf (g := g) (b.runner g late announce) before start n t
    rcases hrun : (b.runner g late announce).outcomeOf g before start n t with ⟨⟨m, o⟩, t'⟩
    rw [hrun] at hfst hok
    obtain rfl : m = n := hfst
    rw [← List.append_assoc] at hok ⊢
    obtain ⟨hP, hR⟩ := hdone hok.left
    -- The outcome is success, so that the node was run.
    obtain ⟨status, rfl⟩ := hok m o (by simp)
    have hresult : b.RunsTo g m before.built (if late m then t else start) t (.ok status) t' := by
      cases hpoison : g.poison? before m with
      | some because =>
        rw [Runner.outcomeOf_skipped _ hpoison] at hrun
        cases status <;> cases hrun
      | none =>
        rw [Runner.outcomeOf_run _ hpoison] at hrun
        obtain ⟨houtcome, rfl⟩ := Prod.mk.inj hrun
        rw [← Outcome.ofResult_inj (congrArg Prod.snd houtcome)]
        exact b.runsTo g m before.built _ t
    rw [List.map_append]
    exact hnode before level done m rest start t t' status hready hlevel hP hR hresult
  have htold : ∀ done e t, Q done t → Q done ((b.runner g late announce).announce e t).2 :=
    fun done e t hdone hok => htell _ _ start e t (hdone hok).1 (hdone hok).2
  obtain ⟨os, hos, -, hend⟩ :=
    (b.runner g late announce).runLevel_induct before level start hfirst hstep htold
  rw [hos]
  exact fun hok => (hend hok).1

theorem allOk_of_execute_ok (hord : g.Ordered) (htarget : target < g.nodes.size)
    {late : NodeId → Bool} {summary : BuildSummary}
    (hok : ((b.runner g late announce).execute g target s).1 = .ok summary) :
    Outcomes.AllOk ((b.runner g late announce).runLevels g (g.levels target) s).1 := fun _ _ hm =>
  (allSettled_runLevels (b.runner g late announce) hord htarget s).ok_of_no_failure hord
    (not_mem_of_firstError?_eq_none (execute_eq_ok hok).1) hm

/-- One more node of a level that began in the state `start`. -/
theorem Placed.runsTo (hg : g.WellFormed) (hspares : b.SparesOthers announce g s)
    (hn : n < g.nodes.size) (hnew : n ∉ (before ++ done).map (·.1)) {late : Bool}
    {status : NodeStatus} (h : b.Placed announce g s (before ++ done) t)
    (hstart : b.Remain g (done.map (·.1)) start t)
    (hrun : b.RunsTo g n before.built (if late then t else start) t (.ok status) t') :
    b.Placed announce g s (before ++ done ++ [(n, .ofResult (.ok status))]) t' ∧
      b.Remain g (done.map (·.1) ++ [n]) start t' := by
  obtain ⟨hvisited, hremain⟩ := remain_of_runsTo hg hn hspares h.visited hrun
  have hseen : ∀ q, (g.node n).path = some q →
      (b.modified? q (if late then t else start)).isSome → (b.modified? q t).isSome := by
    rw [List.map_append, List.mem_append, not_or] at hnew
    intro q hq hfile
    split at hfile
    · exact hfile
    · exact hstart n hnew.2 q hq hfile
  constructor
  · refine ⟨hvisited, fun m o hm q hq => ?_⟩
    rcases List.mem_append.mp hm with hold | hlast
    · have hmn : m ≠ n := by
        rintro rfl
        exact hnew (List.mem_map_of_mem hold)
      exact (h.files m o hold q hq).imp_left (hremain m (by simpa using hmn) q hq)
    · obtain ⟨rfl, rfl⟩ := Prod.mk.inj (List.mem_singleton.mp hlast)
      refine (file_of_runsTo hg hn h.visited hseen hrun hq).imp_right fun ⟨hbuilt, hmissed⟩ => ?_
      rw [hbuilt]
      exact ⟨rfl, hmissed⟩
  · exact (hstart.mono (List.subset_append_left _ _)).trans
      (hremain.mono (List.subset_append_right _ _))

theorem placed_runLevels (hg : g.WellFormed) (hord : g.Ordered) (htarget : target < g.nodes.size)
    (hspares : b.SparesOthers announce g s)
    (htell : ∀ e t q, b.modified? q (announce e t).2 = b.modified? q t) (late : NodeId → Bool)
    (hok : Outcomes.AllOk ((b.runner g late announce).runLevels g (g.levels target) s).1) :
    b.Placed announce g s ((b.runner g late announce).runLevels g (g.levels target) s).1
      ((b.runner g late announce).runLevels g (g.levels target) s).2 := by
  refine runLevels_induct_ok (R := b.Remain g) hord htarget late ⟨.start, nofun⟩
    (fun _ _ _ _ _ hfile => hfile) ?_ ?_ hok
  · intro before level done n rest start t t' status hready hlevel hplaced hremain hrun
    exact hplaced.runsTo hg hspares (hready.within n (by simp [hlevel]))
      (hready.not_mem_done hlevel) hremain hrun
  · intro os ds start e t hplaced hremain
    refine ⟨⟨.told e hplaced.visited, fun n o hn p hp => ?_⟩, fun m hm q hq hfile => ?_⟩
    · rw [htell]
      exact hplaced.files n o hn p hp
    · rw [htell]
      exact hremain m hm q hq hfile

/-- After an execution that succeeds, the file of everything that the target needs is there, or its
node was built and its action has missed it. -/
theorem present_or_missed (hg : g.WellFormed) (hord : g.Ordered) (htarget : target < g.nodes.size)
    (hspares : b.SparesOthers announce g s)
    (htell : ∀ e t q, b.modified? q (announce e t).2 = b.modified? q t) {late : NodeId → Bool}
    {summary : BuildSummary}
    (hok : ((b.runner g late announce).execute g target s).1 = .ok summary)
    (hreach : g.Reaches target n) (hpath : (g.node n).path = some p) :
    (b.modified? p ((b.runner g late announce).execute g target s).2).isSome ∨
      (n, .built) ∈ ((b.runner g late announce).runLevels g (g.levels target) s).1 ∧
        b.Missed announce g s n p := by
  have hplaced := placed_runLevels hg hord htarget hspares htell late
    (allOk_of_execute_ok hord htarget hok)
  have hmem : n ∈ ((b.runner g late announce).runLevels g (g.levels target) s).1.map (·.1) := by
    rw [Runner.map_fst_runLevels]
    exact (mem_flatten_levels_iff hord htarget).mpr hreach
  obtain ⟨⟨n, o⟩, ho, rfl⟩ := List.mem_map.mp hmem
  rw [Runner.execute_eq]
  exact (hplaced.files n o ho p hpath).imp_right fun ⟨hbuilt, hmissed⟩ => ⟨hbuilt ▸ ho, hmissed⟩

end Workbench

namespace BuildSite

variable {site : BuildSite} {h : Host} {w w' : World} {node : Node} {p : Path}

/-! ## The tools of a site -/

theorem pathExists_of_generate {artifact : String} {command : List String} {dir : Path}
    (hrun : (site.generate h artifact p command dir).run w = (.ok (), w')) :
    w'.files.pathExists h.cwd (site.locate p) := by
  unfold generate at hrun
  cases command with
  | nil => cases hrun
  | cons program args =>
    obtain ⟨-, w₁, -, hcheck⟩ := exists_of_bind_eq_ok hrun
    obtain ⟨now, w₂, hget, hcheck⟩ := exists_of_bind_eq_ok hcheck
    obtain ⟨hnow, rfl⟩ := Prod.mk.inj hget
    obtain rfl := Except.ok.inj hnow
    by_cases hthere : w₁.files.pathExists h.cwd (site.locate p)
    · rw [if_pos hthere] at hcheck
      cases hcheck
      exact hthere
    · rw [if_neg hthere] at hcheck
      cases hcheck

theorem pathExists_of_perform {command : List String} {dir : Path}
    (haction : node.action = .generate command dir)
    (hrun : (site.workbench h).perform node p w = (.ok (), w')) :
    w'.files.pathExists h.cwd (site.locate p) := by
  obtain ⟨es, hact⟩ := exists_perform_eq site h node p
  rw [hact] at hrun
  unfold act at hrun
  obtain ⟨-, w₁, -, hgenerate⟩ := exists_of_bind_eq_ok hrun
  rw [haction] at hgenerate
  exact pathExists_of_generate hgenerate

theorem isSome_modified? {files : FileSystem} {cwd : Location} :
    (files.modified? cwd p).isSome = files.pathExists cwd p := by
  rw [FileSystem.modified?, Option.isSome_map, FileSystem.pathExists]

/-- An execution on a site that succeeds leaves the file of everything that its target needs. -/
def InPlace (site : BuildSite) (h : Host) (g : ArtifactGraph) (target : NodeId) (w : World) :
    Prop :=
  ∀ summary, ((site.runner h g).execute g target w).1 = .ok summary →
    ∀ n p, g.Reaches target n → (g.node n).path = some p →
      ((site.runner h g).execute g target w).2.files.pathExists h.cwd (site.locate p)

/-- After an execution that succeeds, the file of everything that the target needs is there, or its
node was built, by a compiler, a linker or an archiver that succeeded and left no file. -/
theorem present_or_missed_site {plan : Plan} {f : FileNames} {policy : ArtifactGraph.LinkPolicy}
    {mode : BuildMode} {g : ArtifactGraph} {target n : NodeId}
    (hderive : (ArtifactGraph.derive plan f policy mode).result = .ok g)
    (htarget : target < g.nodes.size)
    (hspares : (site.workbench h).SparesOthers World.tell g w) {summary : BuildSummary}
    (hok : ((site.runner h g).execute g target w).1 = .ok summary)
    (hreach : g.Reaches target n) (hpath : (g.node n).path = some p) :
    ((site.runner h g).execute g target w).2.files.pathExists h.cwd (site.locate p) ∨
      (g.node n).action.assembles ∧
        (n, .built) ∈ ((site.runner h g).runLevels g (g.levels target) w).1 ∧
        ∃ t t', (site.workbench h).Visits World.tell g w t ∧
          (site.workbench h).perform (g.node n) p t = (.ok (), t') ∧
          ¬ t'.files.pathExists h.cwd (site.locate p) := by
  rw [runner_eq] at hok ⊢
  have hpresent := Workbench.present_or_missed (ArtifactGraph.wellFormed_derive hderive)
    (ArtifactGraph.ordered_derive hderive) htarget hspares (fun _ _ _ => rfl) hok hreach hpath
  rcases hpresent with hthere | ⟨hbuilt, hout, t, t', hvisited, hperform, hmissing⟩
  · left
    rwa [← isSome_modified?]
  · right
    have habsent : ¬ t'.files.pathExists h.cwd (site.locate p) := by
      rw [← isSome_modified?, show t'.files.modified? h.cwd (site.locate p) = none from hmissing]
      exact nofun
    refine ⟨?_, hbuilt, t, t', hvisited, hperform, habsent⟩
    cases haction : (g.node n).action with
    | compile lang source | archive objects | sharedLink objects
    | linkExe lang objects archives => rfl
    | generate command dir => exact absurd (pathExists_of_perform haction hperform) habsent
    | source | phony =>
      rw [ArtifactGraph.Output, haction] at hout
      cases hout.1

/-- A successful execution leaves everything in place exactly if the files are there of all nodes
that it had a compiler, a linker or an archiver build; where one of these files is missing, the tool
has succeeded and left none. Sources, fresh outputs and generated files are in place always. -/
theorem inPlace_iff {plan : Plan} {f : FileNames} {policy : ArtifactGraph.LinkPolicy}
    {mode : BuildMode} {g : ArtifactGraph} {target : NodeId}
    (hderive : (ArtifactGraph.derive plan f policy mode).result = .ok g)
    (htarget : target < g.nodes.size)
    (hspares : (site.workbench h).SparesOthers World.tell g w) :
    let final := ((site.runner h g).execute g target w)
    let built := fun n => (n, Outcome.built) ∈ ((site.runner h g).runLevels g (g.levels target) w).1
    let there := fun (t : World) p => t.files.pathExists h.cwd (site.locate p)
    (site.InPlace h g target w ↔ ∀ summary, final.1 = .ok summary → ∀ n p, built n →
      (g.node n).action.assembles → (g.node n).path = some p → there final.2 p) ∧
    ∀ summary, final.1 = .ok summary → ∀ n p, g.Reaches target n → (g.node n).path = some p →
      ¬ there final.2 p → built n ∧ (g.node n).action.assembles ∧
        ∃ t t', (site.workbench h).Visits World.tell g w t ∧
          (site.workbench h).perform (g.node n) p t = (.ok (), t') ∧ ¬ there t' p := by
  have hmissed := fun summary n p hok hreach hpath =>
    @present_or_missed_site site h w p _ _ _ _ g target n hderive htarget hspares summary hok hreach
      hpath
  have hreaches : ∀ n, (n, Outcome.built) ∈ ((site.runner h g).runLevels g (g.levels target) w).1 →
      g.Reaches target n := by
    intro n hbuilt
    have hord := ArtifactGraph.ordered_derive hderive
    rw [← ArtifactGraph.mem_flatten_levels_iff hord htarget,
      ← (site.runner h g).map_fst_runLevels (g.levels target) w]
    exact List.mem_map_of_mem hbuilt
  unfold InPlace
  dsimp only
  generalize (site.runner h g).execute g target w = final at hmissed ⊢
  refine ⟨⟨?_, ?_⟩, ?_⟩
  · intro hplace summary hok n p hbuilt _ hpath
    exact hplace summary hok n p (hreaches n hbuilt) hpath
  · intro hmade summary hok n p hreach hpath
    rcases hmissed summary n p hok hreach hpath with hthere | ⟨hassembles, hbuilt, -⟩
    · exact hthere
    · exact hmade summary hok n p hbuilt hassembles hpath
  · intro summary hok n p hreach hpath habsent
    obtain ⟨hassembles, hbuilt, hleft⟩ :=
      (hmissed summary n p hok hreach hpath).resolve_left habsent
    exact ⟨hbuilt, hassembles, hleft⟩

/-! ## A compiler that does nothing -/

/-- A host whose programs all succeed and leave the files as they are. -/
def silentHost : Host := ⟨[], ∅, fun _ files => (.ok ⟨.code 0, [], []⟩, files)⟩

/-- A host whose programs all succeed and change the files alike. -/
def uniformHost (change : FileSystem → FileSystem) : Host :=
  ⟨[], ∅, fun _ files => (.ok ⟨.code 0, [], []⟩, change files)⟩

theorem silentHost_eq : silentHost = uniformHost id := rfl

theorem run_onFiles {α : Type} {context : String} {task : FileTask α} {a : α} {files : FileSystem}
    (htask : task.exec w.files = (.ok a, files)) :
    (Operation.onFiles context task).run w = (.ok a, { w with files }) := by
  rw [Operation.run_onFiles_eq, htask]

theorem exec_ensureDirectory {fs : FileSystem} {cwd : Location} {dir : Path}
    (hdir : fs.pathExists cwd dir) : (FileTask.ensureDirectory cwd dir).exec fs = (.ok (), fs) := by
  show (if fs.pathExists cwd dir then (pure () : FileTask Unit)
    else FileTask.makeDirectoryAll cwd dir).exec fs = _
  rw [if_pos hdir]
  rfl

/-- Where the directory of a path is there, nothing has to be done to have it. -/
theorem run_ensureParent
    (hdir : ∀ dir, FileTask.directoryOf? p = some dir → w.files.pathExists h.cwd dir) :
    (Operation.ensureParent h p).run w = (.ok (), w) := by
  unfold Operation.ensureParent
  cases hparent : FileTask.directoryOf? p with
  | none => rfl
  | some dir => exact run_onFiles (exec_ensureDirectory (hdir dir hparent))

theorem run_prepare {artifact : String} {op : Operation Unit} (hop : op.run w = (.ok (), w')) :
    (prepare artifact op).run w = (.ok (), w') := by
  rw [prepare_eq, hop]
  rfl

variable (change : FileSystem → FileSystem)

theorem perform_compile {lang : Language} {source : Path}
    (haction : node.action = .compile lang source)
    (hdir : ∀ dir, FileTask.directoryOf? (site.locate p) = some dir →
      w.files.pathExists [] dir) :
    ∃ t, (site.workbench (uniformHost change)).perform node p w = (.ok (), t) ∧
      t.files = change w.files := by
  obtain ⟨es, hperform⟩ := exists_perform_eq site (uniformHost change) node p
  let t : World := { w with events := es ++ w.events }
  have hparent : (Operation.ensureParent (uniformHost change) (site.locate p)).run t = (.ok (), t) :=
    run_ensureParent hdir
  rw [hperform, act, run_bind_of_ok (run_prepare hparent), haction]
  exact ⟨_, rfl, rfl⟩

open Workspace ArtifactGraph FileSystem

/-- The site of a project whose compiler is `true`. -/
def silentSite : BuildSite :=
  { root := ⟨"/demo"⟩, toolchain := .ofConfig { cxx := some ⟨"true"⟩ }, jobs := some 1 }

/-- A project on disk with files of these names in its module. -/
def moduleOnDisk (names : List String) : World :=
  let directory : FileEntry := ⟨.directory, directoryMode, 1, true, none⟩
  let file : FileEntry := ⟨.file [], fileMode, 1, true, none⟩
  { files :=
      { entries := names.foldl (fun entries name => entries.insert ["demo", "A", name] file)
          ((SortedMap.insert ∅ ["demo"] directory).insert ["demo", "A"] directory) } }

/-- What is found of a unit on disk with or without its object. -/
theorem lookups_moduleOnDisk (names : List String)
    (hnames : names = ["foo.cpp", "foo.h"] ∨ names = ["foo.cpp", "foo.h", "foo.o"]) :
    (silentSite.workbench (uniformHost change)).modified? ⟨"A/foo.cpp"⟩ (moduleOnDisk names) = some 1 ∧
      (silentSite.workbench (uniformHost change)).modified? ⟨"A/foo.h"⟩ (moduleOnDisk names) = some 1 ∧
      (silentSite.workbench (uniformHost change)).modified? ⟨"A/foo.o"⟩ (moduleOnDisk names) =
        (if "foo.o" ∈ names then some 1 else none) ∧
      (moduleOnDisk names).files.pathExists [] ⟨"/demo/A"⟩ := by
  have hfree : LinkFree (moduleOnDisk names).files := by
    refine linkFree_of_entries ?_
    rcases hnames with rfl | rfl <;> decide
  simp only [workbench, uniformHost, modified?, pathExists, lookup?, lookup,
    resolve_eq_descend hfree]
  rcases hnames with rfl | rfl <;> decide

theorem constructs_unit : (oneModule []).Constructs (oneModuleGraph []) [(6, 7), (6, 5)] 8 :=
  constructs_of_computed (by decide)

theorem graph_unit : (oneModule []).graph.2 = .ok (oneModuleGraph []) :=
  graph_of_constructs constructs_unit (by cbv)

theorem levels_unit : (oneModuleGraph []).levels 6 = [[5, 7], [6]] :=
  constructs_unit.levels (by cbv) (by cbv) (by rfl) (by decide)

theorem nodes_unit :
    (oneModuleGraph []).node 5 =
        ⟨.artifact ⟨.source .c, ⟨"A"⟩, "foo"⟩, some ⟨"A/foo.cpp"⟩, .source⟩ ∧
      (oneModuleGraph []).node 6 =
        ⟨.artifact ⟨.object, ⟨"A"⟩, "foo"⟩, some ⟨"A/foo.o"⟩, .compile .c ⟨"A/foo.cpp"⟩⟩ ∧
      (oneModuleGraph []).node 7 =
        ⟨.artifact ⟨.header, ⟨"A"⟩, "foo"⟩, some ⟨"A/foo.h"⟩, .source⟩ ∧
      ∀ n < 8, ((oneModuleGraph []).node n).action.producesOutput → n = 6 := by decide

theorem perform_unit {w : World} (hdir : w.files.pathExists [] ⟨"/demo/A"⟩) :
    ∃ t, (silentSite.workbench (uniformHost change)).perform ((oneModuleGraph []).node 6)
      ⟨"A/foo.o"⟩ w = (.ok (), t) ∧ t.files = change w.files := by
  have haction : ((oneModuleGraph []).node 6).action = .compile .c ⟨"A/foo.cpp"⟩ := by
    rw [nodes_unit.2.1]
  refine perform_compile change haction fun dir hd => ?_
  have hdirectory : FileTask.directoryOf? (silentSite.locate ⟨"A/foo.o"⟩) = some ⟨"/demo/A"⟩ := by
    rfl
  rw [← Option.some.inj (hdirectory.symm.trans hd)]
  exact hdir

/-- The object of the unit is all there is to make. -/
theorem eq_of_perform_unit {n : NodeId} {t t' : World} (hdir : t.files.pathExists [] ⟨"/demo/A"⟩)
    (hout : (oneModuleGraph []).Output n p)
    (hperform : (silentSite.workbench (uniformHost change)).perform ((oneModuleGraph []).node n) p t
      = (.ok (), t')) :
    n = 6 ∧ p = ⟨"A/foo.o"⟩ ∧ t'.files = change t.files := by
  have hn : n = 6 := by
    have hlt := lt_size_of_path hout.2
    rw [constructs_unit.size] at hlt
    exact nodes_unit.2.2.2 n hlt hout.1
  subst hn
  have hpath : ((oneModuleGraph []).node 6).path = some ⟨"A/foo.o"⟩ := by rw [nodes_unit.2.1]
  obtain rfl := Option.some.inj (hpath.symm.trans hout.2)
  obtain ⟨t'', hrun, hfiles⟩ := perform_unit change hdir
  obtain ⟨-, rfl⟩ := Prod.mk.inj (hrun.symm.trans hperform)
  exact ⟨rfl, rfl, hfiles⟩

/-- What the compiler keeps true of files in which the module has its directory. -/
theorem files_of_visits {S : FileSystem → Prop}
    (hdir : ∀ files, S files → files.pathExists [] ⟨"/demo/A"⟩)
    (hchange : ∀ files, S files → S (change files)) {w t : World} (hw : S w.files)
    (h : (silentSite.workbench (uniformHost change)).Visits World.tell (oneModuleGraph []) w t) :
    S t.files := by
  induction h with
  | start => exact hw
  | told e _ ih => exact ih
  | acted _ hout hperform ih =>
    obtain ⟨-, -, hfiles⟩ := eq_of_perform_unit change (hdir _ ih) hout hperform
    rw [hfiles]
    exact hchange _ ih

theorem sparesOthers_unit {w : World} (hdir : w.files.pathExists [] ⟨"/demo/A"⟩) :
    (silentSite.workbench silentHost).SparesOthers World.tell (oneModuleGraph []) w := by
  have hsame : ∀ t, (silentSite.workbench silentHost).Visits World.tell (oneModuleGraph []) w t →
      t.files = w.files := fun t => by
    rw [silentHost_eq]
    exact files_of_visits id (S := (· = w.files)) (fun _ hfiles => hfiles ▸ hdir)
      (fun _ hfiles => hfiles) rfl
  intro n p t t' hvisited hout hperform m q _ _ hfile
  have hbefore := hsame t hvisited
  have hafter := hsame t' (hvisited.acted hout hperform)
  simp only [workbench] at hfile ⊢
  rwa [hafter, ← hbefore]

section Unit

variable (names : List String)
  (hnames : names = ["foo.cpp", "foo.h"] ∨ names = ["foo.cpp", "foo.h", "foo.o"])

include hnames

theorem outcomeOf_unit_source : ∀ n ∈ [5, 7],
    (silentSite.runner (uniformHost change) (oneModuleGraph [])).outcomeOf (oneModuleGraph []) []
      (moduleOnDisk names) n (moduleOnDisk names) = ((n, .fresh), moduleOnDisk names) := by
  intro n hn
  have hpoison : (oneModuleGraph []).poison? [] n = none := by
    rw [poison?, constructs_unit.dependencies]
    rcases List.mem_pair.mp hn with rfl | rfl <;> rfl
  have hnode : ∃ p, ((oneModuleGraph []).node n).path = some p ∧
      ((oneModuleGraph []).node n).action = .source ∧
      (silentSite.workbench (uniformHost change)).modified? p (moduleOnDisk names) = some 1 := by
    obtain ⟨hsource, hheader, -⟩ := lookups_moduleOnDisk change names hnames
    rcases List.mem_pair.mp hn with rfl | rfl
    · rw [nodes_unit.1]
      exact ⟨_, rfl, rfl, hsource⟩
    · rw [nodes_unit.2.2.1]
      exact ⟨_, rfl, rfl, hheader⟩
  obtain ⟨p, hpath, haction, htime⟩ := hnode
  rw [runner_eq]
  refine Workbench.outcomeOf_of_judged ?_
  simp only [ite_self, Workbench.judge?, hpoison, Workbench.verdict?, hpath, haction, htime,
    ↓reduceIte]
  rfl

theorem runLevels_unit {o : Outcome} {t : World}
    (hunit : (silentSite.runner (uniformHost change) (oneModuleGraph [])).outcomeOf (oneModuleGraph [])
      [(5, .fresh), (7, .fresh)] (moduleOnDisk names) 6 (moduleOnDisk names) = ((6, o), t))
    (hquiet : (oneModuleGraph []).outcomeEvent? (6, o) = none) :
    (silentSite.runner (uniformHost change) (oneModuleGraph [])).runLevels (oneModuleGraph [])
      ((oneModuleGraph []).levels 6) (moduleOnDisk names) =
        ([(5, .fresh), (7, .fresh), (6, o)], t) := by
  have hsource := outcomeOf_unit_source change names hnames 5 (by simp)
  have hheader := outcomeOf_unit_source change names hnames 7 (by simp)
  have hfirst : (silentSite.runner (uniformHost change) (oneModuleGraph [])).runLevel (oneModuleGraph []) []
      [5, 7] (moduleOnDisk names) = ([(5, .fresh), (7, .fresh)], moduleOnDisk names) := by
    refine Runner.runLevel_of_mapM ?_ rfl
    simp only [List.mapM_cons, List.mapM_nil, bind, StateT.bind, hsource, hheader]
    rfl
  have hsecond : (silentSite.runner (uniformHost change) (oneModuleGraph [])).runLevel (oneModuleGraph [])
      [(5, .fresh), (7, .fresh)] [6] (moduleOnDisk names) =
        ([(5, .fresh), (7, .fresh), (6, o)], t) := by
    have hsingle : [(6, o)].filterMap (oneModuleGraph []).outcomeEvent? = [] := by
      rw [List.filterMap_cons_none hquiet]
      rfl
    refine Runner.runLevel_of_mapM ?_ hsingle
    simp only [List.mapM_cons, List.mapM_nil, bind, StateT.bind, hunit]
    rfl
  simp only [levels_unit, Runner.runLevels, List.foldlM_cons, List.foldlM_nil, bind, StateT.bind,
    hfirst, hsecond]
  rfl

/-- What comes of the object is judged by its file, which is never older than the sources. -/
theorem judge?_unit :
    (silentSite.workbench (uniformHost change)).judge? (oneModuleGraph []) [(5, .fresh), (7, .fresh)]
      (moduleOnDisk names) 6 = if "foo.o" ∈ names then some .fresh else none := by
  obtain ⟨hsource, hheader, hobject, -⟩ := lookups_moduleOnDisk change names hnames
  have hpoison : (oneModuleGraph []).poison? [(5, .fresh), (7, .fresh)] 6 = none := by
    rw [poison?, constructs_unit.dependencies]
    rfl
  have hneeds : (oneModuleGraph []).dependencies 6 = [7, 5] := by
    rw [constructs_unit.dependencies]
    rfl
  simp only [Workbench.judge?, hpoison, Workbench.verdict?, nodes_unit.2.1, Workbench.isFresh,
    hobject, hneeds, Workbench.isCurrent, List.all_cons, List.all_nil, nodes_unit.1,
    nodes_unit.2.2.1, hsource, hheader]
  by_cases hmem : "foo.o" ∈ names
  · simp only [if_pos hmem]
    rfl
  · simp only [if_neg hmem]
    rfl

end Unit

/-- Where the object is not on disk, the compiler is run and succeeds. -/
theorem outcomeOf_unit_built : ∃ t,
    (silentSite.runner (uniformHost change) (oneModuleGraph [])).outcomeOf (oneModuleGraph [])
      [(5, .fresh), (7, .fresh)] (moduleOnDisk ["foo.cpp", "foo.h"]) 6
      (moduleOnDisk ["foo.cpp", "foo.h"]) = ((6, .built), t) ∧
      t.files = change (moduleOnDisk ["foo.cpp", "foo.h"]).files := by
  have hnames : ["foo.cpp", "foo.h"] = ["foo.cpp", "foo.h"] ∨
    ["foo.cpp", "foo.h"] = ["foo.cpp", "foo.h", "foo.o"] := .inl rfl
  have hjudged := judge?_unit change _ hnames
  rw [if_neg (by simp)] at hjudged
  obtain ⟨p, hpath, -, hact⟩ := Workbench.exists_of_not_judged hjudged
  obtain ⟨t, hperform, hfiles⟩ := perform_unit change (lookups_moduleOnDisk change _ hnames).2.2.2
  rw [nodes_unit.2.1] at hpath
  obtain rfl := Option.some.inj hpath
  refine ⟨t, ?_, hfiles⟩
  rw [runner_eq, hact _ _ _ _ (ite_self _), Workbench.performOrDiscard_of_ok hperform]
  rfl

theorem execute_unit {names : List String} {o : Outcome} {t : World}
    (hrun : (silentSite.runner (uniformHost change) (oneModuleGraph [])).runLevels (oneModuleGraph [])
      ((oneModuleGraph []).levels 6) (moduleOnDisk names) =
        ([(5, .fresh), (7, .fresh), (6, o)], t)) (ho : o.error? = none) :
    (silentSite.runner (uniformHost change) (oneModuleGraph [])).execute (oneModuleGraph []) 6
      (moduleOnDisk names) =
        (.ok ((oneModuleGraph []).summarize [(5, .fresh), (7, .fresh), (6, o)]), t) := by
  have hfirst : Outcomes.firstError? [(5, .fresh), (7, .fresh), (6, o)] = none := by
    simp only [Outcomes.firstError?, List.findSome?_cons, List.findSome?_nil, ho]
    rfl
  rw [Runner.execute_eq, hrun]
  simp only [hfirst]

/-- Where the unit is up to date, the compiler that does nothing is not asked, and all files are in
place. -/
theorem inPlace_iff_unit :
    (ArtifactGraph.derive (oneModule []).plan (oneModule []).fileNames .everyLibrary
        (oneModule []).mode).result = .ok (oneModuleGraph []) ∧
      6 < (oneModuleGraph []).nodes.size ∧
      (silentSite.workbench silentHost).SparesOthers World.tell (oneModuleGraph [])
        (moduleOnDisk ["foo.cpp", "foo.h", "foo.o"]) ∧
      ((silentSite.runner silentHost (oneModuleGraph [])).execute (oneModuleGraph []) 6
        (moduleOnDisk ["foo.cpp", "foo.h", "foo.o"])).1 = .ok ⟨0, 1⟩ ∧
      silentSite.InPlace silentHost (oneModuleGraph []) 6
        (moduleOnDisk ["foo.cpp", "foo.h", "foo.o"]) := by
  have hderive := graph_eq_ok_iff.mp graph_unit
  have htarget : 6 < (oneModuleGraph []).nodes.size := by
    rw [constructs_unit.size]
    decide
  have hspares := sparesOthers_unit (lookups_moduleOnDisk id _ (.inr rfl)).2.2.2
  have hjudged := judge?_unit id _ (.inr rfl)
  rw [if_pos (by simp)] at hjudged
  rw [silentHost_eq] at hspares ⊢
  have hunit : (silentSite.runner (uniformHost id) (oneModuleGraph [])).outcomeOf (oneModuleGraph [])
      [(5, .fresh), (7, .fresh)] (moduleOnDisk ["foo.cpp", "foo.h", "foo.o"]) 6
      (moduleOnDisk ["foo.cpp", "foo.h", "foo.o"]) =
        ((6, .fresh), moduleOnDisk ["foo.cpp", "foo.h", "foo.o"]) := by
    rw [runner_eq]
    refine Workbench.outcomeOf_of_judged ?_
    rwa [ite_self]
  have hrun := runLevels_unit id _ (.inr rfl) hunit rfl
  refine ⟨hderive, htarget, hspares, ?_, ?_⟩
  · rw [execute_unit id hrun rfl]
    decide
  · refine (inPlace_iff hderive htarget hspares).1.mpr fun summary _ n p hbuilt => ?_
    rw [hrun] at hbuilt
    simp at hbuilt

/-- The object of the unit is not on disk, the compiler succeeds without making it, and so does the
execution. -/
theorem not_inPlace_silent :
    (oneModule []).graph.2 = .ok (oneModuleGraph []) ∧
      (silentSite.workbench silentHost).SparesOthers World.tell (oneModuleGraph [])
        (moduleOnDisk ["foo.cpp", "foo.h"]) ∧
      ((silentSite.runner silentHost (oneModuleGraph [])).execute (oneModuleGraph []) 6
        (moduleOnDisk ["foo.cpp", "foo.h"])).1 = .ok ⟨1, 0⟩ ∧
      ¬ silentSite.InPlace silentHost (oneModuleGraph []) 6
        (moduleOnDisk ["foo.cpp", "foo.h"]) := by
  obtain ⟨-, -, hobject, hdir⟩ := lookups_moduleOnDisk id _ (.inl rfl)
  obtain ⟨t, hunit, hfiles⟩ := outcomeOf_unit_built id
  have hexecute := execute_unit id (runLevels_unit id _ (.inl rfl) hunit rfl) rfl
  refine ⟨graph_unit, sparesOthers_unit hdir, ?_, fun hplace => ?_⟩
  · rw [silentHost_eq, hexecute]
    show Except.ok ((oneModuleGraph []).summarize [(5, .fresh), (7, .fresh), (6, .built)]) = _
    rfl
  · have hpath : ((oneModuleGraph []).node 6).path = some ⟨"A/foo.o"⟩ := by rw [nodes_unit.2.1]
    rw [silentHost_eq] at hplace
    have hthere := hplace _ (congrArg Prod.fst hexecute) 6 _ .refl hpath
    rw [hexecute, hfiles, id, ← isSome_modified?] at hthere
    have habsent : (moduleOnDisk ["foo.cpp", "foo.h"]).files.modified? (uniformHost id).cwd
        (silentSite.locate ⟨"A/foo.o"⟩) = none := hobject
    rw [habsent] at hthere
    cases hthere

end BuildSite

end ModularBuild
