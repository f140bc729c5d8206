import ModularBuild.Proofs.Build.Node
import ModularBuild.Proofs.Graph.Levels

/-!
# What an output's age says

`Orderly` says what is asked of a workbench from some state on: an action that succeeds reads what its
node needs and writes its own file, with a time later than those of all nodes' files; one that fails
leaves the files of other nodes alone, and its own is removed. It is asked in the states that an
execution passes through, and of the files of nodes only: the directories that an action makes or
changes on its way are nobody's concern. Then the age of an output says something about its content,
and `Sound` is what: an output that is no older than anything it is made from is made from what is
there. Every change of one node's file keeps this (`Sound.change`), and so does every run of a node
(`Sound.run`).
-/

namespace ModularBuild

/-- What the file of a path is: when it last changed, and its content. -/
abbrev Snapshot (κ : Type) := Path → Option (Time × κ)

namespace ArtifactGraph

variable {κ : Type}

/-- No node's file differs but that of one path. -/
def Untouched (g : ArtifactGraph) (w : Snapshot κ) (p : Path) (w' : Snapshot κ) : Prop :=
  ∀ n q, (g.node n).path = some q → ¬ p.Same q → w' q = w q

def Latest (g : ArtifactGraph) (w : Snapshot κ) (t : Time) : Prop :=
  ∀ n q t' c, (g.node n).path = some q → w q = some (t', c) → t' < t

/-- The file of a path is written. -/
structure Writes (g : ArtifactGraph) (w : Snapshot κ) (p : Path) (c : κ) (w' : Snapshot κ) :
    Prop where
  written : ∃ t, w' p = some (t, c) ∧ g.Latest w t
  untouched : g.Untouched w p w'

/-- The file of a path is removed. -/
structure Removes (g : ArtifactGraph) (w : Snapshot κ) (p : Path) (w' : Snapshot κ) : Prop where
  gone : w' p = none
  untouched : g.Untouched w p w'

theorem Untouched.trans {g : ArtifactGraph} {p : Path} {w w' w'' : Snapshot κ}
    (h : g.Untouched w p w') (h' : g.Untouched w' p w'') : g.Untouched w p w'' :=
  fun n q hq hne => (h' n q hq hne).trans (h n q hq hne)

/-- No two nodes have the same file. -/
def OneNodePerPath (g : ArtifactGraph) : Prop :=
  ∀ a b p q, (g.node a).path = some p → (g.node b).path = some q → p.Same q → a = b

theorem oneNodePerPath_of_size {g : ArtifactGraph} {size : Nat} (hsize : g.nodes.size = size)
    (h : ∀ a < size, ∀ b < size, ∀ p ∈ (g.node a).path, ∀ q ∈ (g.node b).path,
      p.Same q → a = b) : g.OneNodePerPath := by
  subst hsize
  exact fun a b p q ha hb => h a (lt_size_of_path ha) b (lt_size_of_path hb) p ha q hb

/-- The content of a node's file. -/
def contents (g : ArtifactGraph) (w : Snapshot κ) (n : NodeId) : Option κ :=
  (g.node n).path.bind fun p => (w p).map (·.2)

/-- The files that a node needs, with their contents as far as they are known. -/
def inputs (g : ArtifactGraph) (known : NodeId → Option κ) (n : NodeId) :
    List (Path × Option κ) :=
  (g.dependencies n).filterMap fun d => (g.node d).path.map fun q => (q, known d)

theorem inputs_congr {g : ArtifactGraph} {known known' : NodeId → Option κ} {n : NodeId}
    (h : ∀ d, g.Needs n d → ∀ q, (g.node d).path = some q → known d = known' d) :
    g.inputs known n = g.inputs known' n := by
  refine List.filterMap_congr fun d hd => ?_
  cases hpath : (g.node d).path with
  | none => rfl
  | some q => rw [Option.map_some, Option.map_some, h d hd q hpath]

theorem contents_of_path {g : ArtifactGraph} {w : Snapshot κ} {n : NodeId} {p : Path}
    (h : (g.node n).path = some p) : g.contents w n = (w p).map (·.2) := by
  rw [contents, h]
  rfl

end ArtifactGraph

/-- What is asked of a workbench from the state `s` on, in the states that an execution which begins
there passes through. `look` looks at the files of a state; `make` gives the content that an action
makes of its inputs. -/
structure Workbench.Orderly {σ κ : Type} (b : Workbench σ) (announce : Event → StateM σ Unit)
    (g : ArtifactGraph) (look : σ → Snapshot κ) (make : Action → List (Path × Option κ) → κ)
    (s : σ) : Prop where
  modified : ∀ n p t, b.Passes announce g s t → (g.node n).path = some p →
    b.modified? p t = (look t p).map (·.1)
  makes : ∀ n p t t', b.Passes announce g s t → g.Output n p →
    b.perform (g.node n) p t = (.ok (), t') →
    g.Writes (look t) p (make (g.node n).action (g.inputs (g.contents (look t)) n)) (look t')
  fails : ∀ n p t e t', b.Passes announce g s t → g.Output n p →
    b.perform (g.node n) p t = (.error e, t') →
    g.Untouched (look t) p (look t') ∧ g.Removes (look t') p (look (b.discard p t').2)
  announces : ∀ e t, b.Passes announce g s t → look (announce e t).2 = look t

namespace ArtifactGraph

variable {κ : Type} {g : ArtifactGraph} {w w' : Snapshot κ} {n m : NodeId} {p : Path}
  {make : Action → List (Path × Option κ) → κ}

/-! ## Age and content -/

/-- The files that a node needs are there and none is newer than the time. -/
def NoneNewer (g : ArtifactGraph) (w : Snapshot κ) (n : NodeId) (t : Time) : Prop :=
  ∀ d, g.Needs n d → ∀ q, (g.node d).path = some q → ∃ t' c, w q = some (t', c) ∧ t' ≤ t

/-- A node's file is there and, if it is an output, no older than what the node needs. -/
def Current (g : ArtifactGraph) (w : Snapshot κ) (n : NodeId) : Prop :=
  ∀ p, (g.node n).path = some p → ∃ t c, w p = some (t, c) ∧
    ((g.node n).action.producesOutput → g.NoneNewer w n t)

/-- An output that is no older than what its node needs is made of what is there. -/
def Sound (g : ArtifactGraph) (make : Action → List (Path × Option κ) → κ) (w : Snapshot κ) :
    Prop :=
  ∀ n p, g.Output n p → ∀ t c, w p = some (t, c) → g.NoneNewer w n t →
    c = make (g.node n).action (g.inputs (g.contents w) n)

/-- Where there are no outputs, nothing can be said of them. -/
theorem sound_of_no_outputs (h : ∀ n p, g.Output n p → w p = none) : g.Sound make w := by
  intro n p hout t c hfile
  rw [h n p hout] at hfile
  cases hfile

/-! ## A change of one file -/

section Change

variable (hpaths : g.OneNodePerPath) (hm : (g.node m).path = some p) (hchange : g.Untouched w p w')

include hpaths hm hchange

/-- A change of one node's file does not change that of another. -/
theorem OneNodePerPath.file_eq (hne : n ≠ m) {q : Path} (hn : (g.node n).path = some q) :
    w' q = w q :=
  hchange n q hn fun hsame => hne (hpaths m n p q hm hn hsame).symm

theorem OneNodePerPath.noneNewer_iff (hneeds : ¬ g.Needs n m) {t : Time} :
    g.NoneNewer w' n t ↔ g.NoneNewer w n t := by
  refine forall_congr' fun d => forall_congr' fun hd => forall_congr' fun q =>
    forall_congr' fun hq => ?_
  rw [hpaths.file_eq hm hchange (fun hdm => hneeds (hdm ▸ hd)) hq]

theorem OneNodePerPath.inputs_eq (hneeds : ¬ g.Needs n m) :
    g.inputs (g.contents w') n = g.inputs (g.contents w) n := by
  refine inputs_congr fun d hd q hq => ?_
  rw [contents_of_path hq, contents_of_path hq,
    hpaths.file_eq hm hchange (fun hdm => hneeds (hdm ▸ hd)) hq]

theorem Current.change (h : g.Current w n) (hne : n ≠ m) (hneeds : ¬ g.Needs n m) :
    g.Current w' n := by
  intro q hq
  obtain ⟨t, c, hfile, hnewer⟩ := h q hq
  refine ⟨t, c, (hpaths.file_eq hm hchange hne hq).trans hfile, fun hout => ?_⟩
  exact (hpaths.noneNewer_iff hm hchange hneeds).mpr (hnewer hout)

/-- A change of one file, which may be its removal, keeps what ages say, if what is written is later
than all else and, for an output, made of what is there. -/
theorem Sound.change (h : g.Sound make w) (hord : g.Ordered)
    (hlatest : ∀ t c, w' p = some (t, c) → g.Latest w t)
    (hmade : ∀ t c, g.Output m p → w' p = some (t, c) →
      c = make (g.node m).action (g.inputs (g.contents w) m)) : g.Sound make w' := by
  intro n q hout t c hfile hnewer
  by_cases hnm : n = m
  · subst hnm
    obtain rfl : p = q := Option.some.inj (hm.symm.trans hout.2)
    rw [hpaths.inputs_eq hm hchange (hord.not_needs_self n)]
    exact hmade t c hout hfile
  · rw [hpaths.file_eq hm hchange hnm hout.2] at hfile
    by_cases hneeds : g.Needs n m
    · -- What was changed is now newer than the output that is made of it.
      obtain ⟨t', c', hfile', hle⟩ := hnewer m hneeds p hm
      exact absurd (hlatest t' c' hfile' n q t c hout.2 hfile) (Nat.not_lt_of_le hle)
    · rw [hpaths.inputs_eq hm hchange hneeds]
      exact h n q hout t c hfile ((hpaths.noneNewer_iff hm hchange hneeds).mp hnewer)

end Change

theorem Sound.remove (h : g.Sound make w) (hord : g.Ordered) (hpaths : g.OneNodePerPath)
    (hm : (g.node m).path = some p) (hremove : g.Removes w p w') : g.Sound make w' :=
  h.change hpaths hm hremove.untouched hord
    (fun _ _ hfile => nomatch hremove.gone.symm.trans hfile)
    (fun _ _ _ hfile => nomatch hremove.gone.symm.trans hfile)

theorem Sound.edit (h : g.Sound make w) (hord : g.Ordered) (hpaths : g.OneNodePerPath)
    (hm : (g.node m).path = some p) (hsource : (g.node m).action = .source) {c : κ}
    (hwrite : g.Writes w p c w') : g.Sound make w' := by
  obtain ⟨t, hfile, hlatest⟩ := hwrite.written
  refine h.change hpaths hm hwrite.untouched hord (fun t' c' hfile' => ?_) fun t' c' hout _ => ?_
  · cases hfile.symm.trans hfile'
    exact hlatest
  · rw [Output, hsource] at hout
    cases hout.1

/-! ## A run of a node -/

/-- What a run of a node does to the files: nothing, or it changes the node's output, and what is
then there is new and made of what the node needs. -/
def Redoes (g : ArtifactGraph) (make : Action → List (Path × Option κ) → κ) (n : NodeId)
    (w w' : Snapshot κ) : Prop :=
  w' = w ∨ ∃ p, g.Output n p ∧ g.Untouched w p w' ∧ ∀ t c, w' p = some (t, c) →
    g.Latest w t ∧ c = make (g.node n).action (g.inputs (g.contents w) n)

theorem Redoes.file_eq (h : g.Redoes make n w w') (hpaths : g.OneNodePerPath) (hne : m ≠ n)
    {p : Path} (hm : (g.node m).path = some p) : w' p = w p := by
  rcases h with rfl | ⟨q, hout, hchange, -⟩
  · rfl
  · exact hpaths.file_eq hout.2 hchange hne hm

theorem Redoes.source_eq (h : g.Redoes make n w w') (hpaths : g.OneNodePerPath)
    (hm : ¬ (g.node m).action.producesOutput) : g.contents w' m = g.contents w m := by
  rcases h with rfl | ⟨q, hout, hchange, -⟩
  · rfl
  · have hne : m ≠ n := fun hmn => hm (hmn ▸ hout.1)
    unfold contents
    cases hpath : (g.node m).path with
    | none => rfl
    | some p => rw [Option.bind_some, Option.bind_some, hpaths.file_eq hout.2 hchange hne hpath]

theorem Sound.run (h : g.Sound make w) (hord : g.Ordered) (hpaths : g.OneNodePerPath)
    (hrun : g.Redoes make n w w') : g.Sound make w' := by
  rcases hrun with rfl | ⟨p, hout, hchange, hnew⟩
  · exact h
  · exact h.change hpaths hout.2 hchange hord (fun t c hfile => (hnew t c hfile).1)
      fun t c _ hfile => (hnew t c hfile).2

theorem Current.run (h : g.Current w m) (hpaths : g.OneNodePerPath) (hrun : g.Redoes make n w w')
    (hne : m ≠ n) (hneeds : ¬ g.Needs m n) : g.Current w' m := by
  rcases hrun with rfl | ⟨p, hout, hchange, -⟩
  · exact h
  · exact h.change hpaths hout.2 hchange hne hneeds

section Run

variable {σ : Type} {b : Workbench σ} {announce : Event → StateM σ Unit} {look : σ → Snapshot κ}
  {built : List NodeId} {s₀ seen s s' : σ} (hb : b.Orderly announce g look make s₀)
  (hg : g.WellFormed) (hn : n < g.nodes.size) (hs : b.Passes announce g s₀ s)

include hb hg hn hs

theorem redoes_of_runsTo {result : Except BuildError NodeStatus}
    (h : b.RunsTo g n built seen s result s') : g.Redoes make n (look s) (look s') := by
  cases h with
  | phony | there | missing | fresh => exact .inl rfl
  | made hpath hsource hfresh hperform =>
    have hout : g.Output n _ := ⟨hg.producesOutput_of_path hn hpath hsource, hpath⟩
    have hwrite := hb.makes n _ s s' hs hout hperform
    obtain ⟨t, hfile, hlatest⟩ := hwrite.written
    refine .inr ⟨_, hout, hwrite.untouched, fun t' c' hfile' => ?_⟩
    cases hfile.symm.trans hfile'
    exact ⟨hlatest, rfl⟩
  | @broken p e t hpath hsource hfresh hperform =>
    have hout : g.Output n p := ⟨hg.producesOutput_of_path hn hpath hsource, hpath⟩
    obtain ⟨hfail, hremove⟩ := hb.fails n p s e t hs hout hperform
    refine .inr ⟨_, hout, hfail.trans hremove.untouched, ?_⟩
    exact fun t c hfile => nomatch hremove.gone.symm.trans hfile

/-- A node that is brought up to date is current, if what it needs is and the state by which it is
judged does not differ in the files concerned. -/
theorem current_of_runsTo (hord : g.Ordered) (hpaths : g.OneNodePerPath)
    (hpassed : b.Passes announce g s₀ seen)
    (hseen : ∀ m, m = n ∨ g.Needs n m → ∀ p, (g.node m).path = some p → look seen p = look s p)
    (hneeds : ∀ d, g.Needs n d → g.Current (look s) d) {status : NodeStatus}
    (h : b.RunsTo g n built seen s (.ok status) s') : g.Current (look s') n := by
  have hmodified : ∀ m, m = n ∨ g.Needs n m → ∀ p, (g.node m).path = some p →
      b.modified? p seen = (look s p).map (·.1) := fun m hm p hp => by
    rw [hb.modified m p seen hpassed hp, hseen m hm p hp]
  cases h with
  | phony hpath =>
    intro p hp
    rw [hpath] at hp
    cases hp
  | there hpath hsource hthere =>
    intro p hp
    obtain rfl := Option.some.inj (hpath.symm.trans hp)
    rw [hmodified n (.inl rfl) _ hpath, Option.isSome_map] at hthere
    obtain ⟨⟨t, c⟩, hfile⟩ := Option.isSome_iff_exists.mp hthere
    refine ⟨t, c, hfile, fun hout => ?_⟩
    rw [hsource] at hout
    cases hout
  | fresh hpath hsource hfresh =>
    intro p hp
    obtain rfl := Option.some.inj (hpath.symm.trans hp)
    obtain ⟨t, htime, hnewer⟩ := Workbench.isFresh_iff.mp hfresh
    rw [hmodified n (.inl rfl) _ hpath] at htime
    obtain ⟨⟨t, c⟩, hfile, rfl⟩ := Option.map_eq_some_iff.mp htime
    refine ⟨t, c, hfile, fun _ d hd q hq => ?_⟩
    obtain ⟨t', htime', hle⟩ := (hnewer d hd).2 q hq
    rw [hmodified d (.inr hd) q hq] at htime'
    obtain ⟨⟨t', c'⟩, hfile', rfl⟩ := Option.map_eq_some_iff.mp htime'
    exact ⟨t', c', hfile', hle⟩
  | made hpath hsource hfresh hperform =>
    intro p hp
    obtain rfl := Option.some.inj (hpath.symm.trans hp)
    have hout : g.Output n _ := ⟨hg.producesOutput_of_path hn hpath hsource, hpath⟩
    have hwrite := hb.makes n _ s s' hs hout hperform
    obtain ⟨t, hfile, hlatest⟩ := hwrite.written
    refine ⟨t, _, hfile, fun _ d hd q hq => ?_⟩
    -- What is needed was there, is still there, and is older than what was just written.
    obtain ⟨t', c', hfile', -⟩ := hneeds d hd q hq
    have hdn : d ≠ n := fun hdn => hord.not_needs_self n (hdn ▸ hd)
    refine ⟨t', c', ?_, Nat.le_of_lt (hlatest d q t' c' hq hfile')⟩
    rw [hpaths.file_eq hpath hwrite.untouched hdn hq, hfile']

end Run

end ArtifactGraph

end ModularBuild
