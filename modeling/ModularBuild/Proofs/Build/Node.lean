import ModularBuild.Build.Execute
import ModularBuild.Proofs.Graph.Growth

/-!
# What bringing a node up to date can do

`RunsTo` lists the ways in which one node can be brought up to date, and `runsTo` says that there
are no others. What a run of a node keeps is shown case by case from it. `Passes` are the states in
which an execution can find itself: what is asked of a workbench is asked there, and nowhere else.
-/

namespace ModularBuild

namespace Workbench

variable {σ : Type} {b : Workbench σ} {g : ArtifactGraph} {n : NodeId} {built : List NodeId}
  {seen s s' : σ}

/-- The ways in which a node, judged by the state `seen`, is brought up to date. -/
inductive RunsTo (b : Workbench σ) (g : ArtifactGraph) (n : NodeId) (built : List NodeId)
    (seen s : σ) : Except BuildError NodeStatus → σ → Prop
  | phony : (g.node n).path = none → RunsTo b g n built seen s (.ok .fresh) s
  | there {p : Path} : (g.node n).path = some p → (g.node n).action = .source →
      (b.modified? p seen).isSome → RunsTo b g n built seen s (.ok .fresh) s
  | missing {p : Path} : (g.node n).path = some p → (g.node n).action = .source →
      b.modified? p seen = none → RunsTo b g n built seen s (.error (.missingArtifact p)) s
  | fresh {p : Path} : (g.node n).path = some p → (g.node n).action ≠ .source →
      b.isFresh g built seen n p → RunsTo b g n built seen s (.ok .fresh) s
  | made {p : Path} {s' : σ} : (g.node n).path = some p → (g.node n).action ≠ .source →
      ¬ b.isFresh g built seen n p → b.perform (g.node n) p s = (.ok (), s') →
      RunsTo b g n built seen s (.ok .built) s'
  | broken {p : Path} {e : BuildError} {s' : σ} : (g.node n).path = some p →
      (g.node n).action ≠ .source → ¬ b.isFresh g built seen n p →
      b.perform (g.node n) p s = (.error e, s') →
      RunsTo b g n built seen s (.error e) (b.discard p s').2

theorem performOrDiscard_of_ok {node : Node} {p : Path}
    (h : b.perform node p s = (.ok (), s')) :
    b.performOrDiscard node p s = (.ok .built, s') := by
  simp only [performOrDiscard, bind, StateT.bind, h]
  rfl

theorem performOrDiscard_of_error {node : Node} {p : Path} {e : BuildError}
    (h : b.perform node p s = (.error e, s')) :
    b.performOrDiscard node p s = (.error e, (b.discard p s').2) := by
  simp only [performOrDiscard, bind, StateT.bind, h]
  rfl

theorem runsTo (b : Workbench σ) (g : ArtifactGraph) (n : NodeId) (built : List NodeId)
    (seen s : σ) :
    b.RunsTo g n built seen s (b.runNodeSeeing g n built seen s).1
      (b.runNodeSeeing g n built seen s).2 := by
  unfold runNodeSeeing
  cases hpath : (g.node n).path with
  | none => exact .phony hpath
  | some p =>
    by_cases hsource : (g.node n).action = .source
    · simp only [hsource, ↓reduceIte]
      cases hmodified : b.modified? p seen with
      | none => exact .missing hpath hsource hmodified
      | some t => exact .there hpath hsource (by rw [hmodified]; rfl)
    · by_cases hfresh : b.isFresh g built seen n p
      · simp only [hsource, hfresh, ↓reduceIte]
        exact .fresh hpath hsource hfresh
      · simp only [hsource, hfresh, ↓reduceIte]
        show b.RunsTo g n built seen s (b.performOrDiscard (g.node n) p s).1
          (b.performOrDiscard (g.node n) p s).2
        rcases hperform : b.perform (g.node n) p s with ⟨e | _, s'⟩
        · rw [performOrDiscard_of_error hperform]
          exact .broken hpath hsource hfresh hperform
        · rw [performOrDiscard_of_ok hperform]
          exact .made hpath hsource hfresh hperform

/-! ## Judging and acting -/

/-- The answer for a node on which nothing has to be done. -/
def verdict? (b : Workbench σ) (g : ArtifactGraph) (n : NodeId) (built : List NodeId) (seen : σ) :
    Option (Except BuildError NodeStatus) :=
  match (g.node n).path with
  | none => some (.ok .fresh)
  | some p =>
    if (g.node n).action = .source then
      some (if (b.modified? p seen).isSome then .ok .fresh else .error (.missingArtifact p))
    else if b.isFresh g built seen n p then some (.ok .fresh)
    else none

theorem runNodeSeeing_of_verdict {result : Except BuildError NodeStatus}
    (h : b.verdict? g n built seen = some result) (s : σ) :
    b.runNodeSeeing g n built seen s = (result, s) := by
  unfold verdict? at h
  unfold runNodeSeeing
  cases hpath : (g.node n).path with
  | none =>
    rw [hpath] at h
    cases h
    rfl
  | some p =>
    simp only [hpath] at h ⊢
    split
    · rw [if_pos ‹_›] at h
      cases h
      rfl
    · rw [if_neg ‹_›] at h
      split
      · rw [if_pos ‹_›] at h
        cases h
        rfl
      · rw [if_neg ‹_›] at h
        cases h

theorem runNodeSeeing_of_no_verdict (h : b.verdict? g n built seen = none) :
    ∃ p, (g.node n).path = some p ∧ (g.node n).action ≠ .source ∧
      ∀ s, b.runNodeSeeing g n built seen s = b.performOrDiscard (g.node n) p s := by
  unfold verdict? at h
  unfold runNodeSeeing
  cases hpath : (g.node n).path with
  | none =>
    rw [hpath] at h
    cases h
  | some p =>
    simp only [hpath] at h
    by_cases hsource : (g.node n).action = .source
    · rw [if_pos hsource] at h
      cases h
    · rw [if_neg hsource] at h
      by_cases hfresh : b.isFresh g built seen n p
      · rw [if_pos hfresh] at h
        cases h
      · refine ⟨p, rfl, hsource, fun s => ?_⟩
        simp only [if_neg hsource, if_neg hfresh]

theorem runNodeSeeing_of_path {p : Path} (hpath : (g.node n).path = some p)
    (hsource : (g.node n).action ≠ .source) (s : σ) : b.runNodeSeeing g n built seen s =
      if b.isFresh g built seen n p then (.ok .fresh, s) else b.performOrDiscard (g.node n) p s := by
  simp only [runNodeSeeing, hpath, if_neg hsource]
  split <;> rfl

theorem performOrDiscard_ne_fresh (b : Workbench σ) (node : Node) (p : Path) (s : σ) :
    (b.performOrDiscard node p s).1 ≠ .ok .fresh := by
  rcases hperform : b.perform node p s with ⟨e | _, t⟩
  · rw [performOrDiscard_of_error hperform]
    exact nofun
  · rw [performOrDiscard_of_ok hperform]
    exact nofun

/-- A dependency leaves a file up to date if this run has not built it and its own file, if it has
one, is there and no newer. -/
theorem isCurrent_iff {time : Time} {d : NodeId} : b.isCurrent g built seen time d ↔ d ∉ built ∧
    ∀ q, (g.node d).path = some q → ∃ t, b.modified? q seen = some t ∧ t ≤ time := by
  unfold isCurrent
  cases hq : (g.node d).path with
  | none => simp
  | some q => cases hmodified : b.modified? q seen <;> simp [hmodified]

/-- An up to date file is there, nothing that its node needs has been built in this run, and it is no
older than any file needed. -/
theorem isFresh_iff {p : Path} : b.isFresh g built seen n p ↔ ∃ time, b.modified? p seen = some time ∧
    ∀ d, g.Needs n d → d ∉ built ∧
      ∀ q, (g.node d).path = some q → ∃ t, b.modified? q seen = some t ∧ t ≤ time := by
  unfold isFresh
  cases hmodified : b.modified? p seen with
  | none => simp
  | some time => simp [isCurrent_iff, ArtifactGraph.Needs]

end Workbench

namespace ArtifactGraph.WellFormed

variable {g : ArtifactGraph} {n : NodeId} {p : Path}

/-- A node with a file that is not written by hand has an output. -/
theorem producesOutput_of_path (hg : g.WellFormed) (hn : n < g.nodes.size)
    (hpath : (g.node n).path = some p) (hsource : (g.node n).action ≠ .source) :
    (g.node n).action.producesOutput := by
  have hfits := hg.fits n hn
  rw [Node.Fits, hpath] at hfits
  cases haction : (g.node n).action with
  | phony => exact absurd (hfits.mpr haction) nofun
  | source => exact absurd haction hsource
  | compile lang source | archive objects | sharedLink objects | linkExe lang objects archives
  | generate command dir => rfl

theorem producesOutput_of_built {σ : Type} {b : Workbench σ} (hg : g.WellFormed)
    (hn : n < g.nodes.size) {built : List NodeId} {seen s s' : σ}
    (h : b.RunsTo g n built seen s (.ok .built) s') : (g.node n).action.producesOutput := by
  cases h with
  | made hpath hsource _ _ => exact hg.producesOutput_of_path hn hpath hsource

end ArtifactGraph.WellFormed

namespace Workbench

variable {σ : Type} {b : Workbench σ} {announce : Event → StateM σ Unit} {g : ArtifactGraph}
  {n : NodeId} {s s' t t' : σ}

/-- The states that the actions of outputs, with what they have left removed where they fail, and
what is told lead to. -/
inductive Passes (b : Workbench σ) (announce : Event → StateM σ Unit) (g : ArtifactGraph) (s : σ) :
    σ → Prop
  | start : Passes b announce g s s
  | acted {n : NodeId} {p : Path} {t : σ} : Passes b announce g s t → g.Output n p →
      Passes b announce g s (b.performOrDiscard (g.node n) p t).2
  | told {t : σ} (e : Event) : Passes b announce g s t → Passes b announce g s (announce e t).2

theorem Passes.runsTo (hg : g.WellFormed) (hn : n < g.nodes.size) (h : b.Passes announce g s t)
    {built : List NodeId} {seen : σ} {result : Except BuildError NodeStatus}
    (hrun : b.RunsTo g n built seen t result t') : b.Passes announce g s t' := by
  cases hrun with
  | phony | there | missing | fresh => exact h
  | made hpath hsource hfresh hperform =>
    have hacted := h.acted ⟨hg.producesOutput_of_path hn hpath hsource, hpath⟩
    rwa [performOrDiscard_of_ok hperform] at hacted
  | broken hpath hsource hfresh hperform =>
    have hacted := h.acted ⟨hg.producesOutput_of_path hn hpath hsource, hpath⟩
    rwa [performOrDiscard_of_error hperform] at hacted

end Workbench

end ModularBuild
