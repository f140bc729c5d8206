import ModularBuild.Proofs.Build.Rebuilding

/-!
# What comes after a failed action

A failed action's output is removed, so that it is never taken for up to date. What is removed is a
regular file or a link; a directory that stands at the path of an output stays, and the next build
asks only for its time. So a failed action is performed again exactly if no such thing stands there
that is no older than what its node needs (`triesAgain_iff`), and a compiler that leaves a directory
before it fails is not asked again (`not_triesAgain_directory`).
-/

namespace ModularBuild

namespace BuildSite

open ArtifactGraph FileSystem Workspace

variable {site : BuildSite} {h : Host} {g : ArtifactGraph} {n : NodeId} {p : Path} {w w' t : World}
  {files : FileSystem} {e : BuildError}

/-- If the action of a node fails, the removal of what it has left reports no failure. -/
def CleansUp (site : BuildSite) (h : Host) (node : Node) (p : Path) (w : World) : Prop :=
  ∀ e t, (site.workbench h).perform node p w = (.error e, t) →
    ∃ there, (Operation.removeIfExists h (site.locate p) t).1 = .ok there

/-- Judged by these files a node is not fresh, whatever a build has built so far, and its action is
performed. -/
def TriesAgain (site : BuildSite) (h : Host) (g : ArtifactGraph) (n : NodeId) (p : Path)
    (files : FileSystem) : Prop :=
  ∀ built (seen : World), seen.files = files → ¬ (site.workbench h).isFresh g built seen n p ∧
    ∀ w, (site.workbench h).runNodeSeeing g n built seen w =
      (site.workbench h).performOrDiscard (g.node n) p w

/-- What stands at the path of an output is no regular file, and no older than the files that are
needed, which are there. -/
def Obstructs (site : BuildSite) (h : Host) (g : ArtifactGraph) (n : NodeId) (p : Path)
    (files : FileSystem) : Prop :=
  ∃ f, files.lookup? h.cwd (site.locate p) = some f ∧ ¬ f.isFile ∧
    ∀ d, g.Needs n d → ∀ q, (g.node d).path = some q →
      ∃ f', files.lookup? h.cwd (site.locate q) = some f' ∧ f'.modified ≤ f.modified

/-- What stands at the path of an output after a removal that has reported no failure is neither a
regular file nor a link, and nothing has changed. -/
theorem kept_of_discardOutput {f : FileEntry}
    (hremove : ∃ there, (Operation.removeIfExists h (site.locate p) t).1 = .ok there)
    (hf : (site.discardOutput h p t).2.files.lookup? h.cwd (site.locate p) = some f) :
    (site.discardOutput h p t).2.files = t.files ∧
      ¬ t.files.isFile h.cwd (site.locate p) ∧ ¬ t.files.isLink h.cwd (site.locate p) := by
  rw [files_discardOutput, Operation.files_removeIfExists] at hf ⊢
  obtain ⟨there, hremove⟩ := hremove
  rcases hrun : Operation.removeIfExists h (site.locate p) t with ⟨r, t'⟩
  rw [hrun] at hremove
  obtain rfl : r = .ok there := hremove
  have hexec := Operation.files_of_onFiles hrun
  exact FileSystem.kept_of_removeIfExists (congrArg Prod.fst hexec) hf

/-- A node is tried again unless it is fresh for a build that has built nothing. -/
theorem triesAgain_iff_not_isFresh (hpath : (g.node n).path = some p)
    (hsource : (g.node n).action ≠ .source) :
    site.TriesAgain h g n p files ↔
      ∀ seen : World, seen.files = files → ¬ (site.workbench h).isFresh g [] seen n p := by
  constructor
  · intro hagain seen hseen
    exact (hagain [] seen hseen).1
  · intro hstale built seen hseen
    have hnever : ¬ (site.workbench h).isFresh g built seen n p := by
      intro hfresh
      obtain ⟨time, htime, hnewer⟩ := Workbench.isFresh_iff.mp hfresh
      refine hstale seen hseen (Workbench.isFresh_iff.mpr ⟨time, htime, fun d hd => ?_⟩)
      exact ⟨List.not_mem_nil, (hnewer d hd).2⟩
    refine ⟨hnever, fun w => ?_⟩
    rw [Workbench.runNodeSeeing_of_path hpath hsource, if_neg hnever]

/-- A directory, say, that stands at the path is taken for the output by its time. -/
theorem isFresh_nil_iff {seen : World} :
    (site.workbench h).isFresh g [] seen n p ↔
      ∃ f, seen.files.lookup? h.cwd (site.locate p) = some f ∧
        ∀ d, g.Needs n d → ∀ q, (g.node d).path = some q →
          ∃ f', seen.files.lookup? h.cwd (site.locate q) = some f' ∧ f'.modified ≤ f.modified := by
  rw [Workbench.isFresh_iff]
  simp only [workbench, FileSystem.modified?, Option.map_eq_some_iff, List.not_mem_nil,
    not_false_eq_true, true_and]
  constructor
  · rintro ⟨_, ⟨f, hf, rfl⟩, hnewer⟩
    refine ⟨f, hf, fun d hd q hq => ?_⟩
    obtain ⟨_, ⟨f', hf', rfl⟩, hle⟩ := hnewer d hd q hq
    exact ⟨f', hf', hle⟩
  · rintro ⟨f, hf, hnewer⟩
    refine ⟨f.modified, ⟨f, hf, rfl⟩, fun d hd q hq => ?_⟩
    obtain ⟨f', hf', hle⟩ := hnewer d hd q hq
    exact ⟨f'.modified, ⟨f', hf', rfl⟩, hle⟩

/-- **A failed action is performed again exactly if nothing stands in the way.** Let the action of a
node with an output fail, and let the removal of what it has left report no failure. On the files that
it leaves the node is not fresh, whatever has been built, and whoever brings it up to date performs
its action, unless something that is no regular file stands at the path of the output and is no older
than what is needed. Where the action has left a regular file, a link or nothing, nothing does. -/
theorem triesAgain_iff (hout : g.Output n p) {built : List NodeId} {seen : World}
    (hfailed : (site.workbench h).runNodeSeeing g n built seen w = (.error e, w'))
    (hclean : site.CleansUp h (g.node n) p w) :
    (site.TriesAgain h g n p w'.files ↔ ¬ site.Obstructs h g n p w'.files) ∧
      ∀ t, (site.workbench h).perform (g.node n) p w = (.error e, t) →
        (t.files.isFile h.cwd (site.locate p) ∨ t.files.isLink h.cwd (site.locate p) ∨
          ¬ t.files.pathExists h.cwd (site.locate p)) →
        site.TriesAgain h g n p w'.files := by
  have hsource : (g.node n).action ≠ .source := by
    intro hsource
    have hproduces := hout.1
    rw [hsource] at hproduces
    cases hproduces
  -- The node has failed because its action has.
  obtain ⟨t, hperform, rfl⟩ : ∃ t, (site.workbench h).perform (g.node n) p w = (.error e, t) ∧
      w' = (site.discardOutput h p t).2 := by
    have hruns := (site.workbench h).runsTo g n built seen w
    rw [hfailed] at hruns
    cases hruns with
    | missing _ haction _ => exact absurd haction hsource
    | @broken q _ t hpath _ _ hperform =>
      obtain rfl := Option.some.inj (hout.2.symm.trans hpath)
      exact ⟨t, hperform, rfl⟩
  have hkept := fun f => kept_of_discardOutput (f := f) (hclean e t hperform)
  have hiff : site.TriesAgain h g n p (site.discardOutput h p t).2.files ↔
      ¬ site.Obstructs h g n p (site.discardOutput h p t).2.files := by
    rw [triesAgain_iff_not_isFresh hout.2 hsource]
    constructor
    · rintro hstale ⟨f, hf, -, hnewer⟩
      exact hstale _ rfl (isFresh_nil_iff.mpr ⟨f, hf, hnewer⟩)
    · intro hclear seen hseen hfresh
      obtain ⟨f, hf, hnewer⟩ := isFresh_nil_iff.mp hfresh
      rw [hseen] at hf hnewer
      refine hclear ⟨f, hf, fun hisFile => ?_, hnewer⟩
      obtain ⟨hsame, hnotFile, -⟩ := hkept f hf
      rw [hsame] at hf
      exact hnotFile (FileSystem.isFile_iff_lookup?.mpr ⟨f, hf, hisFile⟩)
  refine ⟨hiff, fun t' hperform' hkind => hiff.mpr ?_⟩
  obtain rfl : t' = t := congrArg Prod.snd (hperform'.symm.trans hperform)
  rintro ⟨f, hf, -, -⟩
  obtain ⟨hsame, hnotFile, hnotLink⟩ := hkept f hf
  rw [hsame] at hf
  rcases hkind with hisFile | hisLink | habsent
  · exact hnotFile hisFile
  · exact hnotLink hisLink
  · refine habsent ?_
    rw [FileSystem.pathExists, hf]
    rfl

/-! ## A compiler that fails -/

/-- A host whose programs all fail, after they have changed the files alike. -/
def brokenHost (change : FileSystem → FileSystem) : Host :=
  ⟨[], ∅, fun _ files => (.ok ⟨.code 1, [], []⟩, change files)⟩

theorem perform_compile_broken (change : FileSystem → FileSystem) {node : Node} {lang : Language}
    {source : Path} (haction : node.action = .compile lang source)
    (hdir : ∀ dir, FileTask.directoryOf? (site.locate p) = some dir →
      w.files.pathExists [] dir) :
    ∃ e t, (site.workbench (brokenHost change)).perform node p w = (.error e, t) ∧
      t.files = change w.files := by
  obtain ⟨es, hperform⟩ := exists_perform_eq site (brokenHost change) node p
  let t : World := { w with events := es ++ w.events }
  have hparent : (Operation.ensureParent (brokenHost change) (site.locate p)).run t = (.ok (), t) :=
    run_ensureParent hdir
  rw [hperform, act, run_bind_of_ok (run_prepare hparent), haction]
  exact ⟨_, _, rfl, rfl⟩

def leaveDirectory (files : FileSystem) : FileSystem :=
  files.set ["demo", "A", "foo.o"] ⟨.directory, FileSystem.directoryMode, 1, true, none⟩

/-- Where the object is not on disk, a compiler that fails is asked, and what it has left is removed
if it can be. -/
theorem runNode_unit_broken (change : FileSystem → FileSystem) {there : Bool}
    (hexec : (FileTask.removeIfExists [] ⟨"/demo/A/foo.o"⟩).exec
      (change (moduleOnDisk ["foo.cpp", "foo.h"]).files) = (.ok there, files)) :
    ∃ e t w', (silentSite.workbench (brokenHost change)).perform ((oneModuleGraph []).node 6)
        ⟨"A/foo.o"⟩ (moduleOnDisk ["foo.cpp", "foo.h"]) = (.error e, t) ∧
      t.files = change (moduleOnDisk ["foo.cpp", "foo.h"]).files ∧
      (silentSite.workbench (brokenHost change)).runNode (oneModuleGraph []) 6 []
        (moduleOnDisk ["foo.cpp", "foo.h"]) = (.error e, w') ∧
      w'.files = files ∧
      silentSite.CleansUp (brokenHost change) ((oneModuleGraph []).node 6) ⟨"A/foo.o"⟩
        (moduleOnDisk ["foo.cpp", "foo.h"]) := by
  obtain ⟨-, -, hobject, hdir⟩ := lookups_moduleOnDisk change _ (.inl rfl)
  have hpath : ((oneModuleGraph []).node 6).path = some ⟨"A/foo.o"⟩ := by rw [nodes_unit.2.1]
  have haction : ((oneModuleGraph []).node 6).action = .compile .c ⟨"A/foo.cpp"⟩ := by
    rw [nodes_unit.2.1]
  have hparent : FileTask.directoryOf? (silentSite.locate ⟨"A/foo.o"⟩) = some ⟨"/demo/A"⟩ := by
    rfl
  obtain ⟨e, t, hperform, hfiles⟩ : ∃ e t,
      (silentSite.workbench (brokenHost change)).perform ((oneModuleGraph []).node 6) ⟨"A/foo.o"⟩
        (moduleOnDisk ["foo.cpp", "foo.h"]) = (.error e, t) ∧
      t.files = change (moduleOnDisk ["foo.cpp", "foo.h"]).files := by
    refine perform_compile_broken change haction fun dir hd => ?_
    rw [← Option.some.inj (hparent.symm.trans hd)]
    exact hdir
  have hremove : Operation.removeIfExists (brokenHost change) (silentSite.locate ⟨"A/foo.o"⟩) t =
      (.ok there, { t with files }) := by
    refine run_onFiles ?_
    rw [hfiles]
    exact hexec
  refine ⟨e, t, (silentSite.discardOutput (brokenHost change) ⟨"A/foo.o"⟩ t).2, hperform, hfiles, ?_,
    ?_, ?_⟩
  · have hstale : (silentSite.workbench (brokenHost change)).isFresh (oneModuleGraph []) []
        (moduleOnDisk ["foo.cpp", "foo.h"]) 6 ⟨"A/foo.o"⟩ = false := by
      simp only [Workbench.isFresh]
      rw [show (silentSite.workbench (brokenHost change)).modified? _ _ = _ from hobject]
      rfl
    refine (Workbench.runNodeSeeing_of_path hpath (by simp [haction]) _).trans ?_
    rw [hstale, if_neg Bool.false_ne_true]
    exact Workbench.performOrDiscard_of_error hperform
  · rw [files_discardOutput, hremove]
  · intro e' t' hperform'
    obtain ⟨-, rfl⟩ := Prod.mk.inj (hperform.symm.trans hperform')
    exact ⟨there, congrArg Prod.fst hremove⟩

/-- A part of the object that a compiler leaves is removed, and the compiler is asked again. -/
theorem triesAgain_iff_partial :
    (oneModuleGraph []).Output 6 ⟨"A/foo.o"⟩ ∧
      ∃ e w', (silentSite.workbench (brokenHost writeObject)).runNode (oneModuleGraph []) 6 []
          (moduleOnDisk ["foo.cpp", "foo.h"]) = (.error e, w') ∧
        silentSite.CleansUp (brokenHost writeObject) ((oneModuleGraph []).node 6) ⟨"A/foo.o"⟩
          (moduleOnDisk ["foo.cpp", "foo.h"]) ∧
        silentSite.TriesAgain (brokenHost writeObject) (oneModuleGraph []) 6 ⟨"A/foo.o"⟩
          w'.files := by
  have hout : (oneModuleGraph []).Output 6 ⟨"A/foo.o"⟩ := by
    rw [Output, nodes_unit.2.1]
    exact ⟨rfl, rfl⟩
  have hfree : LinkFree (writeObject (moduleOnDisk ["foo.cpp", "foo.h"]).files) :=
    linkFree_of_entries (by decide)
  have hfile : (writeObject (moduleOnDisk ["foo.cpp", "foo.h"]).files).isFile []
      ⟨"/demo/A/foo.o"⟩ := by
    simp only [isFile, lookup?, lookup, resolve_eq_descend hfree]
    decide
  have hremove : (writeObject (moduleOnDisk ["foo.cpp", "foo.h"]).files).removeFile []
      ⟨"/demo/A/foo.o"⟩ =
        .ok ((writeObject (moduleOnDisk ["foo.cpp", "foo.h"]).files).delete ["demo", "A", "foo.o"]) := by
    simp only [removeFile, resolveEntry, resolve_eq_descend hfree]
    rfl
  obtain ⟨e, t, w', hperform, hfiles, hfailed, -, hclean⟩ := runNode_unit_broken writeObject
    (FileTask.exec_removeIfExists .. |>.trans (by rw [hfile, Bool.true_or, if_pos rfl, hremove]))
  refine ⟨hout, e, w', hfailed, hclean, ?_⟩
  refine (triesAgain_iff hout hfailed hclean).2 t hperform (.inl ?_)
  rw [hfiles]
  exact hfile

/-- A directory that a compiler leaves is not removed, and is taken for the object. -/
theorem not_triesAgain_directory :
    (oneModule []).graph.2 = .ok (oneModuleGraph []) ∧ (oneModuleGraph []).Output 6 ⟨"A/foo.o"⟩ ∧
      ∃ e w', (silentSite.workbench (brokenHost leaveDirectory)).runNode (oneModuleGraph []) 6 []
          (moduleOnDisk ["foo.cpp", "foo.h"]) = (.error e, w') ∧
        silentSite.CleansUp (brokenHost leaveDirectory) ((oneModuleGraph []).node 6) ⟨"A/foo.o"⟩
          (moduleOnDisk ["foo.cpp", "foo.h"]) ∧
        (silentSite.workbench (brokenHost leaveDirectory)).runNode (oneModuleGraph []) 6 [] w' =
          (.ok .fresh, w') ∧
        ¬ silentSite.TriesAgain (brokenHost leaveDirectory) (oneModuleGraph []) 6 ⟨"A/foo.o"⟩
          w'.files := by
  have hout : (oneModuleGraph []).Output 6 ⟨"A/foo.o"⟩ := by
    rw [Output, nodes_unit.2.1]
    exact ⟨rfl, rfl⟩
  have hfree : LinkFree (leaveDirectory (moduleOnDisk ["foo.cpp", "foo.h"]).files) :=
    linkFree_of_entries (by decide)
  have hnothing : ((leaveDirectory (moduleOnDisk ["foo.cpp", "foo.h"]).files).isFile []
        ⟨"/demo/A/foo.o"⟩ ||
      (leaveDirectory (moduleOnDisk ["foo.cpp", "foo.h"]).files).isLink []
        ⟨"/demo/A/foo.o"⟩) = false := by
    simp only [isFile, isLink, lookupLink, lookup?, lookup, resolve_eq_descend hfree]
    decide
  obtain ⟨e, t, w', -, -, hfailed, hfiles, hclean⟩ := runNode_unit_broken leaveDirectory
    (FileTask.exec_removeIfExists .. |>.trans (by rw [hnothing]; rfl))
  have hfresh : (silentSite.workbench (brokenHost leaveDirectory)).isFresh (oneModuleGraph []) [] w' 6
      ⟨"A/foo.o"⟩ := by
    have hneeds : (oneModuleGraph []).dependencies 6 = [7, 5] := by
      rw [constructs_unit.dependencies]
      rfl
    simp only [Workbench.isFresh, hneeds, Workbench.isCurrent, List.all_cons, List.all_nil,
      nodes_unit.1, nodes_unit.2.2.1, workbench, hfiles, modified?, lookup?, lookup,
      resolve_eq_descend hfree]
    decide
  refine ⟨graph_unit, hout, e, w', hfailed, hclean, ?_, fun hagain => (hagain [] w' rfl).1 hfresh⟩
  have hsource : ((oneModuleGraph []).node 6).action ≠ .source := by
    simp [nodes_unit.2.1]
  refine (Workbench.runNodeSeeing_of_path hout.2 hsource _).trans ?_
  rw [hfresh, if_pos rfl]

end BuildSite

end ModularBuild
