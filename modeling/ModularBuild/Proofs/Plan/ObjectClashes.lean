import ModularBuild.Proofs.Plan.Artifacts

/-!
# Which clash is found

The names of a module that are compiled to objects are gone through kind by kind, and those of a
kind in ascending order (`pairwise_objectNames`); the clash that is found is the first name that
comes up again (`split_of_firstClash?`). So it is the least name that the first kind with a clash
shares with the kinds before it, and `IsFirstClash`, which says so without the search, leaves no
choice (`IsFirstClash.unique`). `objectClash?_exact` says that the search finds exactly this clash,
and none exactly if no two kinds share a name.
-/

namespace ModularBuild

namespace DeclKind

/-- Whether clashes are looked for in one kind before they are in another. -/
def Precedes (kind kind' : DeclKind) : Prop := all.idxOf kind < all.idxOf kind'

instance (kind kind' : DeclKind) : Decidable (kind.Precedes kind') :=
  inferInstanceAs (Decidable (_ < _))

theorem Precedes.asymm {kind kind' : DeclKind} (h : kind.Precedes kind') :
    ¬ kind'.Precedes kind := Nat.lt_asymm h

theorem Precedes.ne {kind kind' : DeclKind} (h : kind.Precedes kind') : kind ≠ kind' := by
  rintro rfl
  exact Nat.lt_irrefl _ h

theorem eq_or_precedes (kind kind' : DeclKind) :
    kind = kind' ∨ kind.Precedes kind' ∨ kind'.Precedes kind := by
  cases kind <;> cases kind' <;> decide

end DeclKind

namespace Contribution

variable {c : Contribution} {seen : SortedMap String DeclKind} {l : List (String × DeclKind)}
  {clash clash' : ObjectClash} {kind kind' : DeclKind} {name : String}

/-! ## The first clash -/

/-- No name is declared as two of these kinds. -/
def Apart (c : Contribution) (kinds : DeclKind → Prop) : Prop :=
  ∀ kind kind', kinds kind → kinds kind' → kind ≠ kind' → (c.names kind).Disjoint (c.names kind')

/-- The kinds that are compiled to objects and come before another. -/
def Earlier (second kind : DeclKind) : Prop := kind.producesObject ∧ kind.Precedes second

/-- The clash is in the first kind that shares a name with those before it, which do not clash among
themselves, and there it is the least such name. -/
structure IsFirstClash (c : Contribution) (clash : ObjectClash) : Prop where
  producesObject : clash.second.producesObject
  earlier : Earlier clash.second clash.first
  first : clash.name ∈ c.names clash.first
  second : clash.name ∈ c.names clash.second
  apart : c.Apart (Earlier clash.second)
  least : ∀ kind name, Earlier clash.second kind → name ∈ c.names kind →
    name ∈ c.names clash.second → (compare clash.name name).isLE

theorem IsFirstClash.not_precedes (h : c.IsFirstClash clash) (h' : c.IsFirstClash clash') :
    ¬ clash'.second.Precedes clash.second := by
  intro hbefore
  have hfirst : Earlier clash.second clash'.first :=
    ⟨h'.earlier.1, Nat.lt_trans h'.earlier.2 hbefore⟩
  exact h.apart _ _ hfirst ⟨h'.producesObject, hbefore⟩ h'.earlier.2.ne h'.first h'.second

theorem IsFirstClash.unique (h : c.IsFirstClash clash) (h' : c.IsFirstClash clash') :
    clash = clash' := by
  obtain ⟨name, first, second⟩ := clash
  obtain ⟨name', first', second'⟩ := clash'
  obtain rfl : second = second' := by
    rcases DeclKind.eq_or_precedes second second' with heq | hbefore | hbefore
    · exact heq
    · exact absurd hbefore (h'.not_precedes h)
    · exact absurd hbefore (h.not_precedes h')
  obtain rfl : name = name' := Std.LawfulEqCmp.eq_of_compare <|
    Std.OrientedCmp.isLE_antisymm (h.least _ _ h'.earlier h'.first h'.second)
      (h'.least _ _ h.earlier h.first h.second)
  obtain rfl : first = first' := by
    by_contra hne
    exact h.apart _ _ h.earlier h'.earlier hne h.first h'.first
  rfl

/-! ## The search -/

/-- What is found comes after names that are all new, and has come up under its first kind before. -/
theorem split_of_firstClash? (h : firstClash? seen l = some clash) : ∃ before after,
    l = before ++ (clash.name, clash.second) :: after ∧ (before.map (·.1)).Nodup ∧
      (∀ e ∈ before, seen.find? e.1 = none) ∧
      (seen.find? clash.name = some clash.first ∨ (clash.name, clash.first) ∈ before) := by
  induction l generalizing seen with
  | nil => cases h
  | cons e l ih =>
    obtain ⟨name, kind⟩ := e
    unfold firstClash? at h
    cases hseen : seen.find? name with
    | some first =>
      simp only [hseen, Option.some.injEq] at h
      subst h
      exact ⟨[], l, rfl, List.nodup_nil, List.forall_mem_nil _, .inl hseen⟩
    | none =>
      simp only [hseen] at h
      obtain ⟨before, after, rfl, hnodup, hnew, hfirst⟩ := ih h
      -- A name that is new after this one is another, and was new before it.
      have hother : ∀ e ∈ before, e.1 ≠ name ∧ seen.find? e.1 = none := fun e he => by
        have hnone := hnew e he
        rw [SortedMap.find?_insert_eq_ite] at hnone
        split at hnone
        · cases hnone
        · exact ⟨‹_›, hnone⟩
      refine ⟨(name, kind) :: before, after, rfl, ?_, ?_, ?_⟩
      · refine List.nodup_cons.mpr ⟨fun hmem => ?_, hnodup⟩
        obtain ⟨e, he, hname⟩ := List.mem_map.mp hmem
        exact (hother e he).1 hname
      · exact List.forall_mem_cons.mpr ⟨hseen, fun e he => (hother e he).2⟩
      · rcases hfirst with hfind | hmem
        · rw [SortedMap.find?_insert_eq_ite] at hfind
          split at hfind
          · cases hfind
            rename_i hname
            exact .inr (hname ▸ List.mem_cons_self)
          · exact .inl hfind
        · exact .inr (List.mem_cons_of_mem _ hmem)

/-- The order in which names are gone through: by kind, and then by name. -/
def ComesBefore (a b : String × DeclKind) : Prop :=
  a.2.Precedes b.2 ∨ a.2 = b.2 ∧ compare a.1 b.1 = .lt

theorem ComesBefore.asymm {a b : String × DeclKind} (h : ComesBefore a b) : ¬ ComesBefore b a := by
  rintro (hback | ⟨heq, hback⟩) <;> rcases h with hkind | ⟨heq', hname⟩
  · exact hback.asymm hkind
  · exact hback.ne heq'.symm
  · exact hkind.ne heq.symm
  · exact Std.OrientedCmp.not_lt_of_lt hname hback

theorem pairwise_names (c : Contribution) (kind : DeclKind) :
    (c.names kind).Pairwise fun a b => compare a b = .lt := by
  cases kind <;> exact List.pairwise_map.mpr (SortedMap.sorted _)

theorem mem_objectNames :
    (name, kind) ∈ c.objectNames ↔ kind.producesObject ∧ name ∈ c.names kind := by
  have hall : kind ∈ DeclKind.all := by cases kind <;> decide
  simp [objectNames, hall]

theorem pairwise_objectNames (c : Contribution) : c.objectNames.Pairwise ComesBefore := by
  refine List.pairwise_flatMap.mpr ⟨fun kind _ => ?_, ?_⟩
  · exact List.pairwise_map.mpr ((c.pairwise_names kind).imp fun h => .inr ⟨rfl, h⟩)
  · have hkinds : (DeclKind.all.filter (·.producesObject)).Pairwise DeclKind.Precedes := by decide
    refine hkinds.imp fun h a ha b hb => ?_
    obtain ⟨_, -, rfl⟩ := List.mem_map.mp ha
    obtain ⟨_, -, rfl⟩ := List.mem_map.mp hb
    exact .inl h

theorem isFirstClash_of_objectClash? (h : c.objectClash? = some clash) : c.IsFirstClash clash := by
  obtain ⟨before, after, hsplit, hnodup, -, hempty | hfirst⟩ := split_of_firstClash? h
  · cases hempty
  have hpairwise := hsplit ▸ c.pairwise_objectNames
  obtain ⟨-, hafter, hbefore⟩ := List.pairwise_append.mp hpairwise
  have hlater := (List.pairwise_cons.mp hafter).1
  -- All that is gone through before what is found is new, so that no name comes up twice there.
  have hmem : ∀ {name kind}, kind.producesObject → name ∈ c.names kind →
      ComesBefore (name, kind) (clash.name, clash.second) → (name, kind) ∈ before := by
    intro name kind hkind hname hcomes
    have hlisted := hsplit ▸ mem_objectNames.mpr ⟨hkind, hname⟩
    rcases List.mem_append.mp hlisted with hbefore | hrest
    · exact hbefore
    · rcases List.mem_cons.mp hrest with heq | hmem
      · rw [heq] at hcomes
        exact absurd hcomes hcomes.asymm
      · exact absurd hcomes (hlater _ hmem).asymm
  have honce : ∀ {name kind kind'}, (name, kind) ∈ before → (name, kind') ∈ before →
      kind = kind' := fun hkind hkind' =>
    (Prod.mk.inj (List.inj_on_of_nodup_map hnodup hkind hkind' rfl)).2
  have hlisted : ∀ e ∈ before ++ (clash.name, clash.second) :: after,
      e.2.producesObject ∧ e.1 ∈ c.names e.2 := fun e he => mem_objectNames.mp (hsplit ▸ he)
  obtain ⟨hproduces, hname⟩ := hlisted (clash.name, clash.second) (by simp)
  obtain ⟨hproduces', hname'⟩ := hlisted (clash.name, clash.first) (List.mem_append_left _ hfirst)
  refine ⟨hproduces, ⟨hproduces', ?_⟩, hname', hname, ?_, ?_⟩
  · rcases hbefore _ hfirst _ List.mem_cons_self with hprecedes | ⟨-, hlt⟩
    · exact hprecedes
    · exact absurd hlt (by simp)
  · intro kind kind' hkind hkind' hne name hin hin'
    exact hne (honce (hmem hkind.1 hin (.inl hkind.2)) (hmem hkind'.1 hin' (.inl hkind'.2)))
  · intro kind name hkind hin hsecond
    by_contra hle
    have hlt : compare name clash.name = .lt := Std.OrientedCmp.lt_of_not_isLE hle
    exact hkind.2.ne (honce (hmem hkind.1 hin (.inl hkind.2))
      (hmem hproduces hsecond (.inr ⟨rfl, hlt⟩)))

theorem objectClash?_eq_none_iff_apart :
    c.objectClash? = none ↔ c.Apart (·.producesObject) := by
  constructor
  · intro h kind kind' hkind hkind' hne
    exact disjoint_names h hkind hkind' hne
  · intro h
    by_contra hclash
    obtain ⟨clash, hclash⟩ := Option.ne_none_iff_exists'.mp hclash
    have hfirst := isFirstClash_of_objectClash? hclash
    exact h _ _ hfirst.earlier.1 hfirst.producesObject hfirst.earlier.2.ne hfirst.first
      hfirst.second

/-- **Clashes are found, and the least one first.** Nothing is found exactly if no name is declared
as two kinds that are compiled to objects. What is found is the one clash whose second kind is the
first that shares a name with the kinds before it, and whose name is the least that it shares. -/
theorem objectClash?_exact (c : Contribution) :
    (c.objectClash? = none ↔ c.Apart (·.producesObject)) ∧
      ∀ clash, c.objectClash? = some clash ↔ c.IsFirstClash clash := by
  refine ⟨objectClash?_eq_none_iff_apart, fun clash => ⟨isFirstClash_of_objectClash?, fun h => ?_⟩⟩
  cases hfound : c.objectClash? with
  | none =>
    have hapart := objectClash?_eq_none_iff_apart.mp hfound
    exact absurd h.second (hapart _ _ h.earlier.1 h.producesObject h.earlier.2.ne h.first)
  | some found => rw [(isFirstClash_of_objectClash? hfound).unique h]

/-- Three kinds want objects of each other's names. -/
def crowded : Contribution where
  headers := SortedSet.ofList ["alpha", "omega"]
  units := SortedMap.ofList [("alpha", true), ("solver", true)]
  programs := SortedSet.ofList ["main", "solver"]
  fortranPrograms := SortedSet.ofList ["alpha", "main"]

/-- The program is found, though a lesser name clashes in a later kind; headers do not count. -/
theorem objectClash?_exact_crowded :
    crowded.objectClash? = some ⟨"solver", .compiledUnit, .program⟩ ∧
      crowded.IsFirstClash ⟨"solver", .compiledUnit, .program⟩ := by
  have hfound : crowded.objectClash? = some ⟨"solver", .compiledUnit, .program⟩ := by decide +kernel
  exact ⟨hfound, ((objectClash?_exact crowded).2 _).mp hfound⟩

end Contribution

end ModularBuild
