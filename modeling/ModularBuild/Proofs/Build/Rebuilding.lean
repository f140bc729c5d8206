import ModularBuild.Proofs.Build.Freshness
import ModularBuild.Proofs.Build.Presence

/-!
# Building again does nothing

An action is `Timely` if it leaves its own file no older than any that is there and the files of
other nodes alone. Where all are, an execution that succeeds leaves everything its target needs up to
date (`upToDate_of_execute_ok`): each file is there, and none that is made is older than what it
needs. On such files an execution performs no action, whatever the tools would do, and leaves the
world as it is (`execute_of_upToDate`).
-/

namespace ModularBuild

/-! ## Outcomes that are all fresh -/

section Fresh

open ArtifactGraph

variable {g : ArtifactGraph} {os : Outcomes} (h : ∀ o ∈ os, o.2 = .fresh)

include h

theorem Outcomes.built_of_fresh : os.built = [] := by
  have hnone : os.filter (·.2 = .built) = [] := List.filter_eq_nil_iff.mpr fun o ho => by
    rw [h o ho]
    exact nofun
  rw [Outcomes.built, hnone]
  rfl

theorem Outcomes.firstError?_of_fresh : os.firstError? = none :=
  List.findSome?_eq_none_iff.mpr fun o ho => by
    rw [h o ho]
    rfl

theorem ArtifactGraph.poison?_of_fresh (n : NodeId) : g.poison? os n = none := by
  refine List.findSome?_eq_none_iff.mpr fun d _ => ?_
  cases hlookup : os.lookup d with
  | none => rfl
  | some o =>
    obtain rfl : o = .fresh := h _ (Outcomes.mem_of_lookup_eq_some hlookup)
    rfl

theorem ArtifactGraph.summarize_of_fresh : g.summarize os =
    ⟨0, ((os.map (·.1)).filter fun n => (g.node n).action.producesOutput).length⟩ := by
  rw [summarize, Outcomes.built_of_fresh h, List.filter_map, List.length_map]
  have hsame : os.filter (fun o => o.2 = .fresh && (g.node o.1).action.producesOutput) =
      os.filter fun o => (g.node o.1).action.producesOutput :=
    List.filter_congr fun o ho => by simp [h o ho]
  rw [hsame]
  rfl

end Fresh

namespace Runner

variable {σ : Type} {g : ArtifactGraph} {r : Runner σ} {s : σ}

theorem runLevel_of_fresh {before : Outcomes} {level : List NodeId}
    (h : ∀ n ∈ level, r.outcomeOf g before s n s = ((n, .fresh), s)) :
    r.runLevel g before level s = (before ++ level.map (·, .fresh), s) := by
  have hrun : level.mapM (r.outcomeOf g before s) s = (level.map (·, .fresh), s) := by
    induction level with
    | nil => rfl
    | cons n level ih =>
      obtain ⟨hn, hlevel⟩ := List.forall_mem_cons.mp h
      simp only [List.mapM_cons, bind, StateT.bind, hn, ih hlevel]
      rfl
  refine runLevel_of_mapM hrun ?_
  simp [List.filterMap_map, ArtifactGraph.outcomeEvent?, Function.comp_def]

/-- Where every node is found fresh if all before it were, all are, and nothing is done. -/
theorem runLevels_of_fresh {levels : List (List NodeId)}
    (h : ∀ before n, (∀ o ∈ before, o.2 = .fresh) → n ∈ levels.flatten →
      r.outcomeOf g before s n s = ((n, .fresh), s)) :
    r.runLevels g levels s = (levels.flatten.map (·, .fresh), s) := by
  have hrun : ∀ before : Outcomes, (∀ o ∈ before, o.2 = .fresh) →
      levels.foldlM (r.runLevel g) before s = (before ++ levels.flatten.map (·, .fresh), s) := by
    induction levels with
    | nil =>
      intro before _
      rw [List.foldlM_nil, List.flatten_nil, List.map_nil, List.append_nil]
      rfl
    | cons level levels ih =>
      intro before hbefore
      have hlevel := runLevel_of_fresh fun n hn =>
        h before n hbefore (List.mem_flatten_of_mem List.mem_cons_self hn)
      have hafter : ∀ o ∈ before ++ level.map fun n => (n, Outcome.fresh), o.2 = .fresh := by
        intro o ho
        rcases List.mem_append.mp ho with ho | ho
        · exact hbefore o ho
        · obtain ⟨n, -, rfl⟩ := List.mem_map.mp ho
          rfl
      have hrest := ih (fun before n hbefore hn => h before n hbefore
        (List.flatten_cons ▸ List.mem_append_right _ hn)) _ hafter
      simp only [List.foldlM_cons, bind, StateT.bind, hlevel, hrest, List.flatten_cons,
        List.map_append, List.append_assoc]
  exact hrun [] nofun

end Runner

/-! ## Timely actions -/

namespace Workbench

open ArtifactGraph

variable {σ : Type} {b : Workbench σ} {announce : Event → StateM σ Unit} {g : ArtifactGraph}
  {n m target : NodeId} {p : Path} {before done os : Outcomes} {ds ds' : List NodeId}
  {s s' start t t' t'' : σ}

/-- An action leaves its file, no older than any file of a node, and leaves the files of other nodes
as they were. -/
structure Timely (b : Workbench σ) (g : ArtifactGraph) (p : Path) (t t' : σ) : Prop where
  written : ∃ time, b.modified? p t' = some time ∧ ∀ m q time', (g.node m).path = some q →
    b.modified? q t = some time' → time' ≤ time
  spared : ∀ m q, (g.node m).path = some q → ¬ p.Same q → b.modified? q t' = b.modified? q t

/-- So does every action that succeeds on the way from the state `s`. -/
def AllTimely (b : Workbench σ) (announce : Event → StateM σ Unit) (g : ArtifactGraph) (s : σ) :
    Prop :=
  ∀ n p t t', b.Visits announce g s t → g.Output n p → b.perform (g.node n) p t = (.ok (), t') →
    b.Timely g p t t'

/-- The file of a node is there and, unless it is written by hand, no older than what it needs. -/
def UpToDate (b : Workbench σ) (g : ArtifactGraph) (t : σ) (n : NodeId) : Prop :=
  ∀ p, (g.node n).path = some p → ∃ time, b.modified? p t = some time ∧
    ((g.node n).action ≠ .source → ∀ d, g.Needs n d → ∀ q, (g.node d).path = some q →
      ∃ time', b.modified? q t = some time' ∧ time' ≤ time)

/-- The files of all nodes but those in the list are as they were. -/
def Keeps (b : Workbench σ) (g : ArtifactGraph) (ds : List NodeId) (t t' : σ) : Prop :=
  ∀ m, m ∉ ds → ∀ q, (g.node m).path = some q → b.modified? q t' = b.modified? q t

theorem Keeps.refl (ds : List NodeId) (t : σ) : b.Keeps g ds t t := fun _ _ _ _ => rfl

theorem Keeps.trans (h : b.Keeps g ds t t') (h' : b.Keeps g ds t' t'') : b.Keeps g ds t t'' :=
  fun m hm q hq => (h' m hm q hq).trans (h m hm q hq)

theorem Keeps.mono (h : b.Keeps g ds t t') (hds : ds ⊆ ds') : b.Keeps g ds' t t' := fun m hm =>
  h m fun hmem => hm (hds hmem)

/-- A node stays up to date where neither its file nor one that it needs is touched. -/
theorem UpToDate.keep (h : b.UpToDate g t m) (hkeeps : b.Keeps g ds t t') (hm : m ∉ ds)
    (hneeds : ∀ d, g.Needs m d → d ∉ ds) : b.UpToDate g t' m := by
  intro p hp
  obtain ⟨time, htime, hnewer⟩ := h p hp
  refine ⟨time, (hkeeps m hm p hp).trans htime, fun hsource d hd q hq => ?_⟩
  rw [hkeeps d (hneeds d hd) q hq]
  exact hnewer hsource d hd q hq

/-! ## One node -/

theorem keeps_of_runsTo (hg : g.WellFormed) (hpaths : g.OneNodePerPath) (hn : n < g.nodes.size)
    (htimely : b.AllTimely announce g s) (hvisited : b.Visits announce g s t) {built : List NodeId}
    {seen : σ} {status : NodeStatus} (hrun : b.RunsTo g n built seen t (.ok status) t') :
    b.Visits announce g s t' ∧ b.Keeps g [n] t t' := by
  cases hrun with
  | phony | there | fresh => exact ⟨hvisited, .refl _ _⟩
  | @made p t' hpath hsource hfresh hperform =>
    have hout : g.Output n p := ⟨hg.producesOutput_of_path hn hpath hsource, hpath⟩
    refine ⟨hvisited.acted hout hperform, fun m hm q hq => ?_⟩
    exact (htimely n p t t' hvisited hout hperform).spared m q hq fun hsame =>
      hm (List.mem_singleton.mpr (hpaths n m p q hpath hq hsame).symm)

/-- A node that is brought up to date is, if what it needs is and no file concerned has changed since
the state by which it is judged. -/
theorem upToDate_of_runsTo (hg : g.WellFormed) (hord : g.Ordered) (hpaths : g.OneNodePerPath)
    (hn : n < g.nodes.size) (htimely : b.AllTimely announce g s)
    (hvisited : b.Visits announce g s t) {built : List NodeId} {seen : σ} {status : NodeStatus}
    (hseen : ∀ m, m = n ∨ g.Needs n m → ∀ q, (g.node m).path = some q →
      b.modified? q seen = b.modified? q t)
    (hneeds : ∀ d, g.Needs n d → b.UpToDate g t d)
    (hrun : b.RunsTo g n built seen t (.ok status) t') : b.UpToDate g t' n := by
  have hkeeps := (keeps_of_runsTo hg hpaths hn htimely hvisited hrun).2
  cases hrun with
  | phony hpath =>
    intro p hp
    rw [hpath] at hp
    cases hp
  | there hpath hsource hthere =>
    intro p hp
    obtain rfl := Option.some.inj (hpath.symm.trans hp)
    rw [hseen n (.inl rfl) _ hpath] at hthere
    obtain ⟨time, htime⟩ := Option.isSome_iff_exists.mp hthere
    exact ⟨time, htime, fun hmade => absurd hsource hmade⟩
  | fresh hpath hsource hfresh =>
    intro p hp
    obtain rfl := Option.some.inj (hpath.symm.trans hp)
    obtain ⟨time, htime, hnewer⟩ := isFresh_iff.mp hfresh
    rw [hseen n (.inl rfl) _ hpath] at htime
    refine ⟨time, htime, fun _ d hd q hq => ?_⟩
    rw [← hseen d (.inr hd) q hq]
    exact (hnewer d hd).2 q hq
  | made hpath hsource hfresh hperform =>
    intro p hp
    obtain rfl := Option.some.inj (hpath.symm.trans hp)
    have hout : g.Output n _ := ⟨hg.producesOutput_of_path hn hpath hsource, hpath⟩
    obtain ⟨time, htime, hlast⟩ := (htimely n _ t t' hvisited hout hperform).written
    refine ⟨time, htime, fun _ d hd q hq => ?_⟩
    -- What is needed was there, is still there, and is no newer than what was just written.
    have hdn : d ∉ [n] := fun hmem =>
      hord.not_needs_self n (List.mem_singleton.mp hmem ▸ hd)
    obtain ⟨time', htime', -⟩ := hneeds d hd q hq
    exact ⟨time', (hkeeps d hdn q hq).trans htime', hlast d q time' hq htime'⟩

/-! ## The first execution -/

/-- What has come of an execution that began in the state `s` and goes well. -/
structure Advanced (b : Workbench σ) (announce : Event → StateM σ Unit) (g : ArtifactGraph) (s : σ)
    (os : Outcomes) (t : σ) : Prop where
  visited : b.Visits announce g s t
  upToDate : ∀ n ∈ os.map (·.1), b.UpToDate g t n
  closed : ∀ n ∈ os.map (·.1), ∀ d, g.Needs n d → d ∈ os.map (·.1)

/-- One more node of a level that began in the state `start`. -/
theorem Advanced.runsTo (hg : g.WellFormed) (hord : g.Ordered) (hpaths : g.OneNodePerPath)
    (htimely : b.AllTimely announce g s) {level rest : List NodeId}
    (hready : g.Ready before level) (hlevel : level = done.map (·.1) ++ n :: rest) {late : Bool}
    {status : NodeStatus} (h : b.Advanced announce g s (before ++ done) t)
    (hstart : b.Keeps g (done.map (·.1)) start t)
    (hrun : b.RunsTo g n before.built (if late then t else start) t (.ok status) t') :
    b.Advanced announce g s (before ++ done ++ [(n, .ofResult (.ok status))]) t' ∧
      b.Keeps g (done.map (·.1) ++ [n]) start t' := by
  have hmem : n ∈ level := by simp [hlevel]
  have hn := hready.within n hmem
  have hnew := hready.not_mem_done hlevel
  obtain ⟨hvisited, hkeeps⟩ := keeps_of_runsTo hg hpaths hn htimely h.visited hrun
  have hneeds : ∀ d, g.Needs n d → d ∈ (before ++ done).map (·.1) := fun d hd => by
    rw [List.map_append]
    exact List.mem_append_left _ (hready.needs n hmem d hd)
  have hseen : ∀ m, m = n ∨ g.Needs n m → ∀ q, (g.node m).path = some q →
      b.modified? q (if late then t else start) = b.modified? q t := by
    intro m hm q hq
    split
    · rfl
    · -- Neither the node nor what it needs is among those that the level has done.
      refine (hstart m (fun hdone => ?_) q hq).symm
      rcases hm with rfl | hm
      · exact hnew (by rw [List.map_append]; exact List.mem_append_right _ hdone)
      · exact hready.not_mem_of_needs hmem hm (by rw [hlevel]; exact List.mem_append_left _ hdone)
  constructor
  · refine ⟨hvisited, fun m hm => ?_, fun m hm d hd => ?_⟩
    · rw [List.map_append, List.mem_append] at hm
      rcases hm with hold | hlast
      · refine (h.upToDate m hold).keep hkeeps (fun hmn => ?_) fun d hd hdn => ?_
        · exact hnew (List.mem_singleton.mp hmn ▸ hold)
        · exact hnew (List.mem_singleton.mp hdn ▸ h.closed m hold d hd)
      · obtain rfl : m = n := List.mem_singleton.mp hlast
        exact upToDate_of_runsTo hg hord hpaths hn htimely h.visited hseen
          (fun d hd => h.upToDate d (hneeds d hd)) hrun
    · rw [List.map_append, List.mem_append] at hm ⊢
      rcases hm with hold | hlast
      · exact .inl (h.closed m hold d hd)
      · obtain rfl : m = n := List.mem_singleton.mp hlast
        exact .inl (hneeds d hd)
  · exact (hstart.mono (List.subset_append_left _ _)).trans
      (hkeeps.mono (List.subset_append_right _ _))

theorem UpToDate.congr (h : b.UpToDate g t n)
    (hsame : ∀ m q, (g.node m).path = some q → b.modified? q t' = b.modified? q t) :
    b.UpToDate g t' n := by
  have hkeeps : b.Keeps g [] t t' := fun m _ => hsame m
  exact h.keep hkeeps List.not_mem_nil fun _ _ => List.not_mem_nil

/-- After an execution that succeeds, all that the target needs is up to date. -/
theorem upToDate_of_execute_ok (hg : g.WellFormed) (hord : g.Ordered) (hpaths : g.OneNodePerPath)
    (htarget : target < g.nodes.size) (htimely : b.AllTimely announce g s)
    (htell : ∀ e t q, b.modified? q (announce e t).2 = b.modified? q t) {late : NodeId → Bool}
    {summary : BuildSummary}
    (hok : ((b.runner g late announce).execute g target s).1 = .ok summary)
    (hreach : g.Reaches target n) :
    b.UpToDate g ((b.runner g late announce).execute g target s).2 n := by
  have hadvanced : b.Advanced announce g s
      ((b.runner g late announce).runLevels g (g.levels target) s).1
      ((b.runner g late announce).runLevels g (g.levels target) s).2 := by
    refine runLevels_induct_ok (R := b.Keeps g) hord htarget late ⟨.start, nofun, nofun⟩
      (fun t => .refl _ t) ?_ ?_ (allOk_of_execute_ok hord htarget hok)
    · intro before level done n rest start t t' status hready hlevel hadvanced hkeeps hrun
      exact hadvanced.runsTo hg hord hpaths htimely hready hlevel hkeeps hrun
    · intro os ds start e t hadvanced hkeeps
      refine ⟨⟨.told e hadvanced.visited, fun n hn => ?_, hadvanced.closed⟩, fun m hm q hq => ?_⟩
      · exact (hadvanced.upToDate n hn).congr fun _ q _ => htell e t q
      · exact (htell e t q).trans (hkeeps m hm q hq)
  rw [Runner.execute_eq]
  refine hadvanced.upToDate n ?_
  rw [Runner.map_fst_runLevels]
  exact (mem_flatten_levels_iff hord htarget).mpr hreach

/-! ## The second execution -/

theorem isFresh_of_upToDate (h : b.UpToDate g s n) (hpath : (g.node n).path = some p)
    (hsource : (g.node n).action ≠ .source) : b.isFresh g [] s n p := by
  obtain ⟨time, htime, hnewer⟩ := h p hpath
  exact isFresh_iff.mpr ⟨time, htime, fun d hd => ⟨List.not_mem_nil, hnewer hsource d hd⟩⟩

theorem verdict?_of_upToDate (h : b.UpToDate g s n) : b.verdict? g n [] s = some (.ok .fresh) := by
  unfold verdict?
  cases hpath : (g.node n).path with
  | none => rfl
  | some p =>
    by_cases hsource : (g.node n).action = .source
    · obtain ⟨time, htime, -⟩ := h p hpath
      simp only [hsource, htime, ↓reduceIte]
      rfl
    · simp only [hsource, isFresh_of_upToDate h hpath hsource, ↓reduceIte]

theorem execute_of_upToDate (hord : g.Ordered) (htarget : target < g.nodes.size)
    (h : ∀ n, g.Reaches target n → b.UpToDate g s n) (late : NodeId → Bool) :
    (b.runner g late announce).execute g target s =
      (.ok ⟨0, ((g.levels target).flatten.filter fun n => (g.node n).action.producesOutput).length⟩, s) := by
  have hrun : (b.runner g late announce).runLevels g (g.levels target) s =
      ((g.levels target).flatten.map (·, .fresh), s) := by
    refine Runner.runLevels_of_fresh fun before n hbefore hn => ?_
    refine outcomeOf_of_judged ?_
    have hdone := h n ((mem_flatten_levels_iff hord htarget).mp hn)
    rw [ite_self, judge?, poison?_of_fresh hbefore, Outcomes.built_of_fresh hbefore,
      verdict?_of_upToDate hdone]
    rfl
  have hfresh : ∀ o ∈ (g.levels target).flatten.map fun n => (n, Outcome.fresh), o.2 = .fresh :=
    fun o ho => by
      obtain ⟨n, -, rfl⟩ := List.mem_map.mp ho
      rfl
  have hnodes : ((g.levels target).flatten.map fun n => (n, Outcome.fresh)).map (·.1) =
      (g.levels target).flatten := by
    rw [List.map_map]
    exact List.map_id _
  rw [Runner.execute_eq, hrun]
  simp only [Outcomes.firstError?_of_fresh hfresh, summarize_of_fresh hfresh, hnodes]

end Workbench

/-! ## Sites -/

namespace BuildSite

open ArtifactGraph Workspace

/-- **Building again does nothing.** Let no two nodes have one file, and let every action that succeeds
leave its own file, no older than those of other nodes, which it does not touch. If an execution of a
target succeeds, another one on the files it has left succeeds as well, performs no action and leaves
everything as it is, whatever tools it has. -/
theorem execute_again {plan : Plan} {f : FileNames} {policy : LinkPolicy} {mode : BuildMode}
    {g : ArtifactGraph} (hderive : (derive plan f policy mode).result = .ok g)
    (hpaths : g.OneNodePerPath) {target : NodeId} (htarget : target < g.nodes.size)
    {site site' : BuildSite} {h h' : Host} {w w' : World}
    (htimely : (site.workbench h).AllTimely World.tell g w) {summary : BuildSummary}
    (hok : ((site.runner h g).execute g target w).1 = .ok summary)
    (hroot : site'.root = site.root) (hcwd : h'.cwd = h.cwd)
    (hfiles : w'.files = ((site.runner h g).execute g target w).2.files) :
    (site'.runner h' g).execute g target w' =
      (.ok ⟨0, ((g.levels target).flatten.filter fun n => (g.node n).action.producesOutput).length⟩,
        w') := by
  have hord := ordered_derive hderive
  rw [runner_eq] at hok hfiles ⊢
  refine Workbench.execute_of_upToDate hord htarget (fun n hreach p hp => ?_) _
  have hdone := Workbench.upToDate_of_execute_ok (wellFormed_derive hderive) hord hpaths htarget
    htimely (fun _ _ _ => rfl) hok hreach
  have hsame : ∀ q, (site'.workbench h').modified? q w' = (site.workbench h).modified? q
      (((site.workbench h).runner g (fun _ => site.jobs = some 1) World.tell).execute g target w).2 :=
    fun q => by
      show w'.files.modified? h'.cwd (site'.root / q) = _
      rw [hfiles, hcwd, hroot]
      rfl
  simpa only [hsame] using hdone p hp

/-! ## A compiler that writes its object -/

/-- The object of the unit is written, at the time of the other files. -/
def writeObject (files : FileSystem) : FileSystem :=
  files.set ["demo", "A", "foo.o"] ⟨.file [], FileSystem.fileMode, 1, true, none⟩

theorem writeObject_moduleOnDisk :
    writeObject (moduleOnDisk ["foo.cpp", "foo.h"]).files =
        (moduleOnDisk ["foo.cpp", "foo.h", "foo.o"]).files ∧
      writeObject (moduleOnDisk ["foo.cpp", "foo.h", "foo.o"]).files =
        (moduleOnDisk ["foo.cpp", "foo.h", "foo.o"]).files := by decide

theorem paths_unit : (oneModuleGraph []).OneNodePerPath ∧
    ∀ n q, ((oneModuleGraph []).node n).path = some q →
      q = ⟨"A/foo.cpp"⟩ ∨ q = ⟨"A/foo.h"⟩ ∨ q = ⟨"A/foo.o"⟩ := by
  have hall : ∀ a < 8, ∀ p ∈ ((oneModuleGraph []).node a).path,
      (p = ⟨"A/foo.cpp"⟩ ∨ p = ⟨"A/foo.h"⟩ ∨ p = ⟨"A/foo.o"⟩) ∧
        ∀ b < 8, ∀ q ∈ ((oneModuleGraph []).node b).path, p.Same q → a = b := by decide
  have hlt : ∀ n q, ((oneModuleGraph []).node n).path = some q → n < 8 := fun n q hq =>
    constructs_unit.size ▸ lt_size_of_path hq
  exact ⟨fun a b p q ha hb => (hall a (hlt a p ha) p ha).2 b (hlt b q hb) q hb,
    fun n q hq => (hall n (hlt n q hq) q hq).1⟩

theorem allTimely_unit : (silentSite.workbench (uniformHost writeObject)).AllTimely World.tell
    (oneModuleGraph []) (moduleOnDisk ["foo.cpp", "foo.h"]) := by
  have hbefore := lookups_moduleOnDisk writeObject ["foo.cpp", "foo.h"] (.inl rfl)
  have hafter := lookups_moduleOnDisk writeObject ["foo.cpp", "foo.h", "foo.o"] (.inr rfl)
  rw [if_neg (by decide)] at hbefore
  rw [if_pos (by decide)] at hafter
  let S : FileSystem → Prop := fun files => files = (moduleOnDisk ["foo.cpp", "foo.h"]).files ∨
    files = (moduleOnDisk ["foo.cpp", "foo.h", "foo.o"]).files
  have hdir : ∀ files, S files → files.pathExists [] ⟨"/demo/A"⟩ := by
    rintro files (rfl | rfl)
    · exact hbefore.2.2.2
    · exact hafter.2.2.2
  have hwritten : ∀ files, S files →
      writeObject files = (moduleOnDisk ["foo.cpp", "foo.h", "foo.o"]).files := by
    rintro files (rfl | rfl)
    · exact writeObject_moduleOnDisk.1
    · exact writeObject_moduleOnDisk.2
  have hmodified : ∀ {t : World} {names : List String}, t.files = (moduleOnDisk names).files →
      ∀ q, (silentSite.workbench (uniformHost writeObject)).modified? q t =
        (silentSite.workbench (uniformHost writeObject)).modified? q (moduleOnDisk names) :=
    fun hfiles q => by
      simp only [workbench, hfiles]
  intro n p t t' hvisited hout hperform
  have ht : S t.files := files_of_visits writeObject hdir
    (fun files hfiles => .inr (hwritten files hfiles)) (.inl rfl) hvisited
  obtain ⟨rfl, rfl, hfiles⟩ := eq_of_perform_unit writeObject (hdir _ ht) hout hperform
  have ht' := hmodified (hfiles.trans (hwritten _ ht))
  constructor
  · -- Whatever is there is as old as the object.
    refine ⟨1, (ht' _).trans hafter.2.2.1, fun m q time' hq htime' => ?_⟩
    rcases ht with ht | ht <;> rw [hmodified ht] at htime' <;>
      rcases paths_unit.2 m q hq with rfl | rfl | rfl
    · exact (Option.some.inj (hbefore.1.symm.trans htime')).ge
    · exact (Option.some.inj (hbefore.2.1.symm.trans htime')).ge
    · cases hbefore.2.2.1.symm.trans htime'
    · exact (Option.some.inj (hafter.1.symm.trans htime')).ge
    · exact (Option.some.inj (hafter.2.1.symm.trans htime')).ge
    · exact (Option.some.inj (hafter.2.2.1.symm.trans htime')).ge
  · intro m q hq hne
    rw [ht' q]
    rcases ht with ht | ht <;> rw [hmodified ht]
    rcases paths_unit.2 m q hq with rfl | rfl | rfl
    · exact hafter.1.trans hbefore.1.symm
    · exact hafter.2.1.trans hbefore.2.1.symm
    · exact absurd rfl hne

/-- The object is made by the first execution, and nothing by the second. -/
theorem execute_again_unit :
    (oneModuleGraph []).OneNodePerPath ∧
      ((silentSite.runner (uniformHost writeObject) (oneModuleGraph [])).execute (oneModuleGraph []) 6
        (moduleOnDisk ["foo.cpp", "foo.h"])).1 = .ok ⟨1, 0⟩ ∧
      ∀ w : World, w.files = (moduleOnDisk ["foo.cpp", "foo.h", "foo.o"]).files →
        (silentSite.runner (uniformHost writeObject) (oneModuleGraph [])).execute
          (oneModuleGraph []) 6 w = (.ok ⟨0, 1⟩, w) := by
  have hderive := graph_eq_ok_iff.mp graph_unit
  have htarget : 6 < (oneModuleGraph []).nodes.size := by
    rw [constructs_unit.size]
    decide
  obtain ⟨t, hunit, hfiles⟩ := outcomeOf_unit_built writeObject
  have hfirst := execute_unit writeObject (runLevels_unit writeObject _ (.inl rfl) hunit rfl) rfl
  have hok : ((silentSite.runner (uniformHost writeObject) (oneModuleGraph [])).execute
      (oneModuleGraph []) 6 (moduleOnDisk ["foo.cpp", "foo.h"])).1 = .ok ⟨1, 0⟩ := by
    rw [hfirst]
    rfl
  refine ⟨paths_unit.1, hok, fun w hw => ?_⟩
  have hleft : w.files = ((silentSite.runner (uniformHost writeObject) (oneModuleGraph [])).execute
      (oneModuleGraph []) 6 (moduleOnDisk ["foo.cpp", "foo.h"])).2.files := by
    rw [hfirst, hw, hfiles, writeObject_moduleOnDisk.1]
  refine (execute_again hderive paths_unit.1 htarget allTimely_unit hok rfl rfl hleft).trans ?_
  rw [levels_unit]
  rfl

end BuildSite

end ModularBuild
