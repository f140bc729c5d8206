/-!
# What a step keeps true

An invariant of the state that every part of a step keeps true, the step keeps true as well. Steps
that may fail are steps with another answer; what they have changed by the time they fail counts.
What a step fails with, one of its parts fails with.
-/

namespace ModularBuild

variable {σ ε α β : Type} {I : σ → Prop}

/-- What a step finds true of the state it leaves true. -/
def Preserves (I : σ → Prop) (x : StateM σ α) : Prop := ∀ s, I s → I (x s).2

theorem preserves_pure (a : α) : Preserves I (pure a : StateM σ α) := fun _ h => h

theorem Preserves.andThen {x : StateM σ α} {k : α → StateM σ β} (h : Preserves I x)
    (hk : ∀ a, Preserves I (k a)) : Preserves I (x >>= k) := fun s hs => hk (x s).1 _ (h s hs)

/-! ## Steps that may fail -/

theorem preserves_ok (a : α) : Preserves I (pure a : ExceptT ε (StateM σ) α).run := fun _ h => h

theorem preserves_throw (e : ε) : Preserves I (throw e : ExceptT ε (StateM σ) α).run := fun _ h => h

theorem preserves_get : Preserves I (get : ExceptT ε (StateM σ) σ).run := fun _ h => h

theorem Preserves.lift {x : StateM σ α} (h : Preserves I x) :
    Preserves I (liftM x : ExceptT ε (StateM σ) α).run := fun s hs => h s hs

/-- What comes after a step only has to keep true what it finds after an answer of the step. -/
theorem Preserves.bind {x : ExceptT ε (StateM σ) α} {k : α → ExceptT ε (StateM σ) β}
    (h : Preserves I x.run) (hk : ∀ a, (∃ s, (x.run s).1 = .ok a) → Preserves I (k a).run) :
    Preserves I (x >>= k).run := by
  intro s hs
  have hstep := h s hs
  show I (ExceptT.bindCont k (x.run s).1 (x.run s).2).2
  cases hresult : (x.run s).1 with
  | ok a => exact hk a ⟨s, hresult⟩ _ hstep
  | error e => exact hstep

theorem Preserves.tryCatch {x : ExceptT ε (StateM σ) α} {k : ε → ExceptT ε (StateM σ) α}
    (h : Preserves I x.run) (hk : ∀ e, Preserves I (k e).run) :
    Preserves I (tryCatch x k).run := by
  intro s hs
  have hstep := h s hs
  show I ((match (x.run s).1 with
    | .ok a => (pure (.ok a) : StateM σ (Except ε α))
    | .error e => (k e).run) (x.run s).2).2
  cases (x.run s).1 with
  | ok a => exact hstep
  | error e => exact hk e _ hstep

/-! ## What a step fails with -/

/-- A step fails with nothing but such errors. -/
def Raises (P : ε → Prop) (x : ExceptT ε (StateM σ) α) : Prop :=
  ∀ s e, (x.run s).1 = .error e → P e

section Raises

variable {P : ε → Prop}

theorem raises_pure (a : α) : Raises P (pure a : ExceptT ε (StateM σ) α) := fun _ _ h => nomatch h

theorem raises_throw {e : ε} (he : P e) : Raises P (throw e : ExceptT ε (StateM σ) α) :=
  fun _ _ h => Except.error.inj h ▸ he

theorem raises_lift (x : StateM σ α) : Raises P (liftM x : ExceptT ε (StateM σ) α) :=
  fun _ _ h => nomatch h

theorem raises_get : Raises P (get : ExceptT ε (StateM σ) σ) := fun _ _ h => nomatch h

theorem Raises.bind {x : ExceptT ε (StateM σ) α} {k : α → ExceptT ε (StateM σ) β}
    (h : Raises P x) (hk : ∀ a, (∃ s, (x.run s).1 = .ok a) → Raises P (k a)) :
    Raises P (x >>= k) := by
  intro s e he
  replace he : (ExceptT.bindCont k (x.run s).1 (x.run s).2).1 = .error e := he
  cases hresult : (x.run s).1 with
  | ok a =>
    rw [hresult] at he
    exact hk a ⟨s, hresult⟩ _ e he
  | error e' =>
    rw [hresult] at he
    exact Except.error.inj he ▸ h s e' hresult

theorem raises_mapM {f : α → ExceptT ε (StateM σ) β} {l : List α} (hf : ∀ a ∈ l, Raises P (f a)) :
    Raises P (l.mapM f) := by
  induction l with
  | nil => exact raises_pure _
  | cons a l ih =>
    obtain ⟨ha, hl⟩ := List.forall_mem_cons.mp hf
    rw [List.mapM_cons]
    exact ha.bind fun _ _ => (ih hl).bind fun _ _ => raises_pure _

end Raises

/-! ## Steps one after the other -/

theorem exists_of_bind_eq_ok {x : ExceptT ε (StateM σ) α} {k : α → ExceptT ε (StateM σ) β}
    {s s' : σ} {b : β} (hrun : (x >>= k).run s = (.ok b, s')) :
    ∃ a s₁, x.run s = (.ok a, s₁) ∧ (k a).run s₁ = (.ok b, s') := by
  rw [ExceptT.run_bind] at hrun
  rcases hx : x.run s with ⟨e | a, s₁⟩
  · simp only [bind, StateT.bind, hx] at hrun
    cases hrun
  · simp only [bind, StateT.bind, hx] at hrun
    exact ⟨a, s₁, rfl, hrun⟩

theorem run_bind_of_ok {x : ExceptT ε (StateM σ) α} {k : α → ExceptT ε (StateM σ) β} {s s' : σ}
    {a : α} (hx : x.run s = (.ok a, s')) : (x >>= k).run s = (k a).run s' := by
  rw [ExceptT.run_bind]
  simp only [bind, StateT.bind, hx]

theorem run_bind_of_error {x : ExceptT ε (StateM σ) α} {k : α → ExceptT ε (StateM σ) β} {s s' : σ}
    {e : ε} (hx : x.run s = (.error e, s')) : (x >>= k).run s = (.error e, s') := by
  rw [ExceptT.run_bind]
  simp only [bind, StateT.bind, hx]
  rfl

end ModularBuild
