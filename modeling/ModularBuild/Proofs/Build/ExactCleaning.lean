import ModularBuild.Proofs.Build.Cleaning
import ModularBuild.Proofs.Files.Entries
import ModularBuild.Proofs.ProjectLoading

/-!
# What cleaning leaves

Cleaning goes through the outputs in their order and removes those that are regular files or links
(`Cleared`). What it reports as removed is gone, and nothing else has changed; that holds on every
file system (`Cleared.spec`). That it removes all of them takes more: no output may be reached
through a link that is one itself, and no two outputs may name one entry (`clean_exact`).
-/

namespace ModularBuild

open FileSystem

variable {cwd : Location} {root p q : Path} {ps removed all : List Path} {fs fs₁ fs' : FileSystem}
  {l : Location}

/-! ## One removal after another -/

/-- Going through paths below a root removes some of them, each when it is its turn: those that are
regular files or links by then. -/
inductive Cleared (cwd : Location) (root : Path) :
    List Path → FileSystem → List Path → FileSystem → Prop
  | nil {fs : FileSystem} : Cleared cwd root [] fs [] fs
  | removed {p : Path} {l : Location} {ps removed : List Path} {fs fs₁ fs' : FileSystem}
      (hthere : fs.Occupied cwd (root / p) l) (hremove : fs.removeFile cwd (root / p) = .ok fs₁)
      (hrest : Cleared cwd root ps fs₁ removed fs') :
      Cleared cwd root (p :: ps) fs (p :: removed) fs'
  | passed {p : Path} {ps removed : List Path} {fs fs' : FileSystem}
      (hnone : ∀ l, ¬ fs.Occupied cwd (root / p) l) (hrest : Cleared cwd root ps fs removed fs') :
      Cleared cwd root (p :: ps) fs removed fs'

namespace Cleared

theorem sublist (h : Cleared cwd root ps fs removed fs') : removed.Sublist ps := by
  induction h with
  | nil => exact .slnil
  | removed _ _ _ ih => exact ih.cons_cons _
  | passed _ _ ih => exact ih.cons _

/-- What is removed was there, has gone, and is all that has changed. -/
theorem spec (h : Cleared cwd root ps fs removed fs') (hs : Standing fs cwd) :
    (∀ p ∈ removed, ∃ l, fs.Occupied cwd (root / p) l ∧ fs'.at? l = none) ∧
      Spares (fun l => ∃ p ∈ removed, fs.Occupied cwd (root / p) l) fs fs' ∧
      Thinned (fun l => ∃ p ∈ removed, fs.Occupied cwd (root / p) l) fs fs' := by
  induction h with
  | nil => exact ⟨by simp, .refl, .refl⟩
  | passed _ _ ih => exact ih hs
  | @removed p l ps removed fs fs₁ fs' hthere hremove hrest ih =>
    obtain ⟨hnone, hspares, hthinned⟩ := hthere.of_removeFile hs hremove
    obtain ⟨hgone, hspares', hthinned'⟩ := ih (hs.of_thinned hthinned)
    have hfirst : ∀ m, m = l → ∃ q ∈ p :: removed, fs.Occupied cwd (root / q) m := by
      rintro m rfl
      exact ⟨p, List.mem_cons_self, hthere⟩
    have hothers : ∀ m, (∃ q ∈ removed, fs₁.Occupied cwd (root / q) m) →
        ∃ q ∈ p :: removed, fs.Occupied cwd (root / q) m := by
      rintro m ⟨q, hq, hm⟩
      exact ⟨q, List.mem_cons_of_mem p hq, hm.of_thinned hthinned hs⟩
    refine ⟨List.forall_mem_cons.mpr ⟨⟨l, hthere, hthinned'.absent l hnone⟩, fun q hq => ?_⟩,
      (hspares.mono hfirst).trans (hspares'.mono hothers),
      (hthinned.mono hfirst).trans (hthinned'.mono hothers)⟩
    obtain ⟨m, hm, habsent⟩ := hgone q hq
    exact ⟨m, hm.of_thinned hthinned hs, habsent⟩

theorem pairwise_not_same (h : Cleared cwd root ps fs removed fs') (hs : Standing fs cwd) :
    removed.Pairwise fun p q => ¬ p.Same q := by
  induction h with
  | nil => exact .nil
  | passed _ _ ih => exact ih hs
  | @removed p l ps removed fs fs₁ fs' hthere hremove hrest ih =>
    obtain ⟨hnone, -, hthinned⟩ := hthere.of_removeFile hs hremove
    have hs₁ := hs.of_thinned hthinned
    refine List.pairwise_cons.mpr ⟨fun q hq hsame => ?_, ih hs₁⟩
    -- Another spelling would have named what has just gone.
    obtain ⟨m, hm, -⟩ := (hrest.spec hs₁).1 q hq
    obtain rfl := hthere.eq_of_same hs hsame (hm.of_thinned hthinned hs)
    obtain ⟨e, he, -⟩ := hm.exists_at?
    rw [hnone] at he
    cases he

theorem of_absent (hnone : ∀ p ∈ ps, ∀ l, ¬ fs.Occupied cwd (root / p) l) :
    Cleared cwd root ps fs [] fs := by
  induction ps with
  | nil => exact .nil
  | cons p ps ih =>
    obtain ⟨hp, hps⟩ := List.forall_mem_cons.mp hnone
    exact .passed hp (ih hps)

/-- What a path names at the start is gone at the end, if no path is reached through a link that a
path names. -/
theorem at?_eq_none (h : Cleared cwd root ps fs₁ removed fs') (hs : Standing fs cwd)
    (hps : ps ⊆ all) (hdirect : ∀ p ∈ all, ∀ q ∈ all, ∀ l, fs.Occupied cwd (root / q) l →
      l ∉ fs.linksTo cwd (root / p))
    (hthinned : Thinned (fun l => ∃ q ∈ all, fs.Occupied cwd (root / q) l) fs fs₁) :
    ∀ p ∈ ps, ∀ l, fs.Occupied cwd (root / p) l → fs'.at? l = none := by
  -- What is gone in between has been named by a path, so the links on the way are still there.
  have hway : ∀ {fs₂}, Thinned (fun l => ∃ q ∈ all, fs.Occupied cwd (root / q) l) fs fs₂ →
      ∀ p ∈ all, ∀ k ∈ fs.linksTo cwd (root / p), (fs₂.at? k).isSome := by
    intro fs₂ hthinned p hp k hk
    obtain ⟨e, he⟩ := Option.isSome_iff_exists.mp (isSome_at?_of_mem_followed hk)
    rcases hthinned.kept k e he with ⟨t, ht⟩ | ⟨-, -, q, hq, hgone⟩
    · rw [ht]
      rfl
    · exact absurd hk (hdirect p hp q hq k hgone)
  induction h with
  | nil => simp
  | @removed p l ps removed fs₁ fs₂ fs' hthere hremove hrest ih =>
    obtain ⟨hp, hps⟩ := List.cons_subset.mp hps
    have hs₁ := hs.of_thinned hthinned
    obtain ⟨hnone, -, hthinned'⟩ := hthere.of_removeFile hs₁ hremove
    have hthere' := hthere.of_thinned hthinned hs
    have hafter := hthinned.trans (hthinned'.mono fun m hm => ⟨p, hp, hm ▸ hthere'⟩)
    refine List.forall_mem_cons.mpr ⟨fun m hm => ?_, ih hps hafter⟩
    obtain rfl := hthere'.unique hm
    exact (hrest.spec (hs₁.of_thinned hthinned')).2.2.absent l hnone
  | @passed p ps removed fs₁ fs' hnone hrest ih =>
    obtain ⟨hp, hps⟩ := List.cons_subset.mp hps
    refine List.forall_mem_cons.mpr ⟨fun m hm => ?_, ih hps hthinned⟩
    have habsent : fs₁.at? m = none := by
      by_contra hsome
      exact hnone m (hm.of_kept hthinned hs (Option.isSome_iff_ne_none.mpr hsome)
        (hway hthinned p hp))
    exact (hrest.spec (hs.of_thinned hthinned)).2.2.absent m habsent

end Cleared

/-! ## Cleaning a project -/

namespace Workspace

variable {ws : Workspace} {h : Host} {g : ArtifactGraph} {w w' : World}

/-- What cleaning does about one output. -/
def removeOutput (ws : Workspace) (h : Host) (p : Path) : Operation Bool := do
  let wasThere ← Operation.removeIfExists h (ws.locate p)
  if wasThere then World.log .debug s!"removed {p.text}"
  return wasThere

theorem run_removeOutput (ws : Workspace) (h : Host) (p : Path) (w : World) :
    (ws.removeOutput h p).run w =
      if w.files.isFile h.cwd (ws.locate p) || w.files.isLink h.cwd (ws.locate p) then
        match w.files.removeFile h.cwd (ws.locate p) with
        | .ok files => (.ok true, (World.log .debug s!"removed {p.text}" { w with files }).2)
        | .error e => (.error (.ofFile s!"failed to remove file: {(ws.locate p).text}" e), w)
      else (.ok false, w) := by
  have hremove : (Operation.removeIfExists h (ws.locate p)).run w = _ :=
    Operation.run_onFiles_eq _ _ w
  rw [FileTask.exec_removeIfExists] at hremove
  unfold removeOutput
  by_cases hthere : w.files.isFile h.cwd (ws.locate p) || w.files.isLink h.cwd (ws.locate p)
  · rw [if_pos hthere] at hremove ⊢
    cases hfiles : w.files.removeFile h.cwd (ws.locate p) with
    | error e =>
      rw [hfiles] at hremove
      exact run_bind_of_error hremove
    | ok files =>
      rw [hfiles] at hremove
      exact run_bind_of_ok hremove
  · rw [if_neg hthere] at hremove ⊢
    exact run_bind_of_ok hremove

/-- An output that cleaning is done with has been removed, or there was nothing to be removed. -/
theorem removeOutput_eq_ok {b : Bool} (hrun : (ws.removeOutput h p).run w = (.ok b, w')) :
    (b = true ∧ ∃ l, w.files.Occupied h.cwd (ws.root / p) l ∧
        w.files.removeFile h.cwd (ws.root / p) = .ok w'.files) ∨
      b = false ∧ w'.files = w.files ∧ ∀ l, ¬ w.files.Occupied h.cwd (ws.root / p) l := by
  rw [run_removeOutput] at hrun
  split at hrun
  · rename_i hthere
    rw [Bool.or_eq_true, ← exists_occupied_iff] at hthere
    obtain ⟨l, hthere⟩ := hthere
    split at hrun
    · rename_i files hfiles
      cases hrun
      exact .inl ⟨rfl, l, hthere, hfiles⟩
    · cases hrun
  · rename_i hnone
    rw [Bool.or_eq_true, ← exists_occupied_iff, not_exists] at hnone
    cases hrun
    exact .inr ⟨rfl, rfl, hnone⟩

theorem clean_eq (ws : Workspace) (h : Host) : ws.clean h = do
    let g ← ws.deriveGraph
    let removed ← g.outputs.filterM (ws.removeOutput h)
    World.log .info s!"removed {removed.length} file(s)"
    return removed := rfl

theorem cleared_of_filterAuxM {kept out : List Path}
    (hrun : (ps.filterAuxM (ws.removeOutput h) kept).run w = (.ok out, w')) :
    ∃ removed, out = removed.reverse ++ kept ∧
      Cleared h.cwd ws.root ps w.files removed w'.files := by
  induction ps generalizing kept w with
  | nil =>
    cases hrun
    exact ⟨[], rfl, .nil⟩
  | cons p ps ih =>
    obtain ⟨b, w₁, hfirst, hrest⟩ := exists_of_bind_eq_ok hrun
    obtain ⟨removed, rfl, hcleared⟩ := ih hrest
    rcases removeOutput_eq_ok hfirst with ⟨rfl, l, hthere, hremove⟩ | ⟨rfl, hsame, hnone⟩
    · exact ⟨p :: removed, by simp, .removed hthere hremove hcleared⟩
    · rw [hsame] at hcleared
      exact ⟨removed, rfl, .passed hnone hcleared⟩

theorem cleared_of_clean (hg : ws.graph.2 = .ok g) (hrun : (ws.clean h).run w = (.ok removed, w')) :
    Cleared h.cwd ws.root g.outputs w.files removed w'.files := by
  rw [clean_eq] at hrun
  obtain ⟨g', w₁, hgraph, hrun⟩ := exists_of_bind_eq_ok hrun
  rw [deriveGraph, run_telling, hg] at hgraph
  cases hgraph
  obtain ⟨found, w₂, hfilter, hrun⟩ := exists_of_bind_eq_ok hrun
  obtain ⟨_, w₃, hlog, hreturn⟩ := exists_of_bind_eq_ok hrun
  cases hreturn
  cases hlog
  obtain ⟨out, w₄, haux, hreturn⟩ := exists_of_bind_eq_ok hfilter
  cases hreturn
  obtain ⟨removed, rfl, hcleared⟩ := cleared_of_filterAuxM haux
  simpa using hcleared

theorem run_filterAuxM_of_cleared (hcleared : Cleared h.cwd ws.root ps fs removed fs')
    (kept : List Path) (hw : w.files = fs) :
    ∃ w', (ps.filterAuxM (ws.removeOutput h) kept).run w = (.ok (removed.reverse ++ kept), w') ∧
      w'.files = fs' := by
  induction hcleared generalizing w kept with
  | nil => exact ⟨w, rfl, hw⟩
  | @removed p l ps removed fs fs₁ fs' hthere hremove hrest ih =>
    subst hw
    have hfirst : (ws.removeOutput h p).run w =
        (.ok true, (World.log .debug s!"removed {p.text}" { w with files := fs₁ }).2) := by
      rw [run_removeOutput, if_pos, show ws.locate p = ws.root / p from rfl, hremove]
      exact (Bool.or_eq_true _ _).mpr (exists_occupied_iff.mp ⟨l, hthere⟩)
    obtain ⟨w', hrun, hfiles⟩ := ih (p :: kept)
      (show (World.log .debug s!"removed {p.text}" { w with files := fs₁ }).2.files = fs₁ from rfl)
    refine ⟨w', (run_bind_of_ok hfirst).trans (hrun.trans ?_), hfiles⟩
    simp
  | @passed p ps removed fs fs' hnone hrest ih =>
    subst hw
    have hfirst : (ws.removeOutput h p).run w = (.ok false, w) := by
      rw [run_removeOutput, if_neg]
      rw [Bool.or_eq_true]
      exact fun hthere => (exists_occupied_iff.mpr hthere).elim hnone
    obtain ⟨w', hrun, hfiles⟩ := ih kept rfl
    exact ⟨w', (run_bind_of_ok hfirst).trans hrun, hfiles⟩

theorem run_clean_of_cleared (hg : ws.graph.2 = .ok g)
    (hcleared : Cleared h.cwd ws.root g.outputs w.files removed fs') :
    ∃ w', (ws.clean h).run w = (.ok removed, w') ∧ w'.files = fs' := by
  let t : World := { w with events := ws.graph.1.reverse ++ w.events }
  have hgraph : (ws.deriveGraph).run w = (.ok g, t) := by
    rw [deriveGraph, run_telling, hg]
  obtain ⟨w', haux, hfiles⟩ := run_filterAuxM_of_cleared (w := t) hcleared [] rfl
  rw [List.append_nil] at haux
  have hfilter : (g.outputs.filterM (ws.removeOutput h)).run t = (.ok removed, w') := by
    refine (run_bind_of_ok haux).trans ?_
    rw [List.reverse_reverse]
    rfl
  rw [clean_eq, run_bind_of_ok hgraph, run_bind_of_ok hfilter]
  exact ⟨_, rfl, hfiles⟩

/-! ## What cleaning leaves -/

def outputsThere (ws : Workspace) (g : ArtifactGraph) (fs : FileSystem) (cwd : Location) :
    List Path :=
  g.outputs.filter fun p => fs.isFile cwd (ws.locate p) || fs.isLink cwd (ws.locate p)

theorem mem_outputsThere_iff : p ∈ ws.outputsThere g fs cwd ↔
    p ∈ g.outputs ∧ ∃ l, fs.Occupied cwd (ws.locate p) l := by
  rw [outputsThere, List.mem_filter, Bool.or_eq_true, exists_occupied_iff]

/-- Outputs that are different paths name different files and links, and none is reached through a
link that one names. -/
structure Separate (ws : Workspace) (g : ArtifactGraph) (fs : FileSystem) (cwd : Location) :
    Prop where
  distinct : ∀ p ∈ g.outputs, ∀ q ∈ g.outputs, ∀ l, fs.Occupied cwd (ws.locate p) l →
    fs.Occupied cwd (ws.locate q) l → p.Same q
  direct : ∀ p ∈ g.outputs, ∀ q ∈ g.outputs, ∀ l, fs.Occupied cwd (ws.locate q) l →
    l ∉ fs.linksTo cwd (ws.locate p)

/-- The outputs that were files or links are listed, each once and in path order; what they named is
gone, and nothing else has changed. -/
structure Cleaned (ws : Workspace) (g : ArtifactGraph) (cwd : Location) (before after : FileSystem)
    (removed : List Path) : Prop where
  listed : ListsPaths (ws.outputsThere g before cwd) removed
  gone : ∀ l e, before.at? l = some e →
    (after.at? l = none ↔ ∃ p ∈ removed, before.Occupied cwd (ws.locate p) l)
  spares : Spares (fun l => ∃ p ∈ removed, before.Occupied cwd (ws.locate p) l) before after

theorem pairwise_outputs (g : ArtifactGraph) :
    g.outputs.Pairwise fun p q => (compare p q).isLE :=
  Path.pairwise_mergeSort _

theorem mem_outputs_of_isProgram (hg : ws.graph.2 = .ok g) {kind : DeclKind} {name : QualifiedName}
    (hkind : kind.isProgram) (hname : name ∈ ws.plan.names kind) :
    ws.fileNames.path (.ofName .object name) ∈ g.outputs ∧
      ws.fileNames.path (.ofName .executable name) ∈ g.outputs := by
  obtain ⟨lang, hlang⟩ : ∃ lang, kind.language? = some lang := by
    cases kind with
    | program | testProgram | fortranProgram => exact ⟨_, rfl⟩
    | headerUnit | compiledUnit | fortranUnit | generated => cases hkind
  obtain ⟨isTest, hspec⟩ := Plan.exists_mem_programSpecs hkind hlang hname
  have hprogram : name ∈ ws.plan.programNames := List.mem_map_of_mem (f := (·.name)) hspec
  have hmade : ∀ a ∈ [Artifact.ofName .object name, .ofName .executable name],
      a ∈ ws.plan.outputArtifacts := fun a ha =>
    List.mem_append_right _ (List.mem_flatMap.mpr ⟨name, hprogram, ha⟩)
  exact ⟨(mem_outputs_iff hg).mpr ⟨_, hmade _ (by simp), rfl⟩,
    (mem_outputs_iff hg).mpr ⟨_, hmade _ (by simp), rfl⟩⟩

/-- **Cleaning is exact.** If it succeeds, and the outputs are separate, it removes those that are
regular files or links, which it lists in path order, and nothing else. A second cleaning has
nothing to do. The objects and executables of test programs are outputs. -/
theorem clean_exact (hg : ws.graph.2 = .ok g) (hs : Standing w.files h.cwd)
    (hapart : ws.Separate g w.files h.cwd) (hrun : (ws.clean h).run w = (.ok removed, w')) :
    ws.Cleaned g h.cwd w.files w'.files removed ∧
      (∃ w'', (ws.clean h).run w' = (.ok [], w'') ∧ w''.files = w'.files) ∧
      ∀ name ∈ ws.plan.names .testProgram, ws.fileNames.path (.ofName .object name) ∈ g.outputs ∧
        ws.fileNames.path (.ofName .executable name) ∈ g.outputs := by
  have hcleared := cleared_of_clean hg hrun
  obtain ⟨hgone, hspares, hthinned⟩ := hcleared.spec hs
  have habsent := hcleared.at?_eq_none hs (List.Subset.refl _) hapart.direct .refl
  have hexact : ∀ l e, w.files.at? l = some e →
      (w'.files.at? l = none ↔ ∃ p ∈ removed, w.files.Occupied h.cwd (ws.locate p) l) := by
    intro l e he
    constructor
    · intro hnone
      by_contra hother
      rcases hspares l hother with hsame | ⟨d, t, -, -, ht⟩
      · rw [hnone, he] at hsame
        cases hsame
      · rw [hnone] at ht
        cases ht
    · rintro ⟨p, hp, hl⟩
      exact habsent p (hcleared.sublist.subset hp) l hl
  refine ⟨⟨⟨?_, fun p hp => ?_, fun p hp => ?_⟩, hexact, hspares⟩, ?_,
    fun name hname => mem_outputs_of_isProgram hg rfl hname⟩
  · -- The outputs are sorted, and of two spellings of one path only one is removed.
    have hsorted := (pairwise_outputs g).sublist hcleared.sublist
    refine (hsorted.and (hcleared.pairwise_not_same hs)).imp fun {p q} ⟨hle, happart⟩ => ?_
    have hne : compare p q ≠ .eq := fun heq => happart (Path.compare_eq_iff_same.mp heq)
    cases hcompare : compare p q <;> simp_all
  · obtain ⟨l, hl, -⟩ := hgone p hp
    exact mem_outputsThere_iff.mpr ⟨hcleared.sublist.subset hp, l, hl⟩
  · obtain ⟨houtput, l, hl⟩ := mem_outputsThere_iff.mp hp
    obtain ⟨e, he, -⟩ := hl.exists_at?
    obtain ⟨q, hq, hl'⟩ := (hexact l e he).mp (habsent p houtput l hl)
    exact ⟨q, hq, hapart.distinct p houtput q (hcleared.sublist.subset hq) l hl hl'⟩
  · refine run_clean_of_cleared hg (Cleared.of_absent fun p hp l hl => ?_)
    obtain ⟨e, he, -⟩ := hl.exists_at?
    rw [habsent p hp l (hl.of_thinned hthinned hs)] at he
    cases he

/-! ## A program that has been built -/

theorem separate_of_lexical (hfree : LinkFree fs) (happart : ∀ p ∈ g.outputs, ∀ q ∈ g.outputs,
    lexical cwd (ws.locate p) = lexical cwd (ws.locate q) → p.Same q) : ws.Separate g fs cwd := by
  have hplace : ∀ {p l}, fs.Occupied cwd (ws.locate p) l → l = lexical cwd (ws.locate p) := by
    rintro p l ⟨e, he, -⟩
    exact location_of_resolve hfree he
  constructor
  · intro p hp q hq l hl hl'
    exact happart p hp q hq ((hplace hl).symm.trans (hplace hl'))
  · intro p hp q hq l hl hway
    exact absurd hway (by simp [linksTo_of_linkFree hfree])

theorem outputs_main : (oneModuleGraph ["main"]).outputs =
    [⟨"A/foo.o"⟩, ⟨"A/main"⟩, ⟨"A/main.o"⟩] := by
  have hpaths : (oneModuleGraph ["main"]).producers.filterMap (·.path) =
      [⟨"A/foo.o"⟩, ⟨"A/main.o"⟩, ⟨"A/main"⟩] := by decide +kernel
  have hle : (compare (⟨"A/foo.o"⟩ : Path) ⟨"A/main.o"⟩).isLE ∧
      (compare (⟨"A/foo.o"⟩ : Path) ⟨"A/main"⟩).isLE ∧
      ¬ (compare (⟨"A/main.o"⟩ : Path) ⟨"A/main"⟩).isLE := by decide
  rw [ArtifactGraph.outputs, hpaths]
  simp [List.mergeSort, List.MergeSort.Internal.splitInTwo, hle]

theorem cleared_main : ∃ fs', Cleared [] (oneModule ["main"]).root (oneModuleGraph ["main"]).outputs
    builtMain.files [⟨"A/main"⟩, ⟨"A/main.o"⟩] fs' := by
  let e : FileEntry := ⟨.file [], fileMode, 1, true, none⟩
  have hpaths : (oneModule ["main"]).root / ⟨"A/foo.o"⟩ = ⟨"/demo/A/foo.o"⟩ ∧
      (oneModule ["main"]).root / ⟨"A/main"⟩ = ⟨"/demo/A/main"⟩ ∧
      (oneModule ["main"]).root / ⟨"A/main.o"⟩ = ⟨"/demo/A/main.o"⟩ := by decide
  have hfree : LinkFree (builtMain.files.delete ["demo", "A", "main"]) :=
    linkFree_of_entries (by decide)
  have hobject : ∀ l, ¬ builtMain.files.Occupied [] ⟨"/demo/A/foo.o"⟩ l := by
    rintro l ⟨d, hd, -⟩
    rw [resolve_eq_descend linkFree_builtMain] at hd
    cases hd
  have hprogram : builtMain.files.Occupied [] ⟨"/demo/A/main"⟩ ["demo", "A", "main"] := by
    refine ⟨e, ?_, .inl rfl⟩
    rw [resolve_eq_descend linkFree_builtMain]
    rfl
  have hremoved : builtMain.files.removeFile [] ⟨"/demo/A/main"⟩ =
      .ok (builtMain.files.delete ["demo", "A", "main"]) := by
    simp only [removeFile, resolveEntry, resolve_eq_descend linkFree_builtMain]
    rfl
  have hother : (builtMain.files.delete ["demo", "A", "main"]).Occupied [] ⟨"/demo/A/main.o"⟩
      ["demo", "A", "main.o"] := by
    refine ⟨e, ?_, .inl rfl⟩
    rw [resolve_eq_descend hfree]
    rfl
  have hremoved' : (builtMain.files.delete ["demo", "A", "main"]).removeFile []
      ⟨"/demo/A/main.o"⟩ = .ok ((builtMain.files.delete ["demo", "A", "main"]).delete
        ["demo", "A", "main.o"]) := by
    simp only [removeFile, resolveEntry, resolve_eq_descend hfree]
    rfl
  obtain ⟨hfirst, hsecond, hthird⟩ := hpaths
  rw [← hfirst] at hobject
  rw [← hsecond] at hprogram hremoved
  rw [← hthird] at hother hremoved'
  rw [outputs_main]
  exact ⟨_, .passed hobject (.removed hprogram hremoved (.removed hother hremoved' .nil))⟩

/-- Cleaning removes the program and its object, and then has nothing to do. -/
theorem clean_exact_main :
    (oneModule ["main"]).graph.2 = .ok (oneModuleGraph ["main"]) ∧
      (oneModule ["main"]).Separate (oneModuleGraph ["main"]) builtMain.files [] ∧
      ∃ w', ((oneModule ["main"]).clean idleHost).run builtMain =
          (.ok [⟨"A/main"⟩, ⟨"A/main.o"⟩], w') ∧
        (oneModule ["main"]).Cleaned (oneModuleGraph ["main"]) [] builtMain.files w'.files
          [⟨"A/main"⟩, ⟨"A/main.o"⟩] := by
  have hseparate : (oneModule ["main"]).Separate (oneModuleGraph ["main"]) builtMain.files [] := by
    refine separate_of_lexical linkFree_builtMain ?_
    rw [outputs_main]
    decide
  obtain ⟨fs', hcleared⟩ := cleared_main
  obtain ⟨w', hrun, -⟩ := run_clean_of_cleared (h := idleHost) graph_main hcleared
  exact ⟨graph_main, hseparate, w', hrun, (clean_exact graph_main standing_nil hseparate hrun).1⟩

end Workspace

end ModularBuild
