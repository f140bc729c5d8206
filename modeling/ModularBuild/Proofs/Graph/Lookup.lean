import ModularBuild.Proofs.Graph.GeneratedSources
import ModularBuild.Proofs.Graph.Shorthands
import ModularBuild.Proofs.ModuleIdentity

/-!
# Looking up targets

A target name is read as a path by turning its backslashes into slashes and dropping the `./` it
begins with (`readsAs_iff`). Every node of a derived graph is an aggregate, a shorthand name, or a
file that has a path (`indexed_derive`), so each name leads to what has it, and to nothing only if
nothing has (`lookup_exact`). No aggregate and no shorthand name hides a file: with `./` before it
the spelling of a path with slashes is a path and nothing else.

The spelling is canonical, and two files go by one name in messages exactly if they are the same
(`toSlash_canonical`).
-/

namespace ModularBuild

/-! ## Names that are read as paths -/

namespace Path

variable {p q : Path}

theorem backslash_notMem_toSlash (h : '\\' ∉ p.text.toList) : '\\' ∉ p.toSlash.toList := fun hmem =>
  h ((List.mem_cons.mp ((toList_toSlash_sublist p).subset hmem)).resolve_left (by decide))

/-- A path that does not begin with a `.` is spelled without one. -/
theorem dropDotSlash_toSlash (h : p.components.head? ≠ some .current) :
    dropDotSlash p.toSlash.toList = p.toSlash.toList := by
  have hne : pieces '/' p.toSlash.toList ≠ [] := pieces_ne_nil
  obtain ⟨first, rest, hpieces⟩ := List.exists_cons_of_ne_nil hne
  refine dropDotSlash_eq_self hpieces (.inl ?_)
  rintro rfl
  rw [← components_toSlash p, components_of_pieces (p := ⟨p.toSlash⟩) hpieces] at h
  exact h rfl

end Path

namespace Aggregate

variable {name : String}

theorem ofName?_eq_some_iff {y : Aggregate} : ofName? name = some y ↔ y.name = name := by
  constructor
  · intro h
    simpa using List.find?_some h
  · rintro rfl
    cases y <;> rfl

theorem ofName?_eq_none_iff : ofName? name = none ↔ ∀ y : Aggregate, y.name ≠ name := by
  constructor
  · intro h y hy
    cases h.symm.trans (ofName?_eq_some_iff.mpr hy)
  · intro h
    by_contra hne
    obtain ⟨y, hy⟩ := Option.ne_none_iff_exists'.mp hne
    exact h y (ofName?_eq_some_iff.mp hy)

end Aggregate

namespace ArtifactGraph

open ModularBuild.Path

variable {g g' : ArtifactGraph} {f : FileNames} {plan : Plan} {policy : LinkPolicy}
  {mode : BuildMode} {m n : NodeId} {p q : Path} {name : String}

/-- With slashes for its backslashes a name is this path after every `./` that it begins with. -/
def ReadsAs (name : String) (p : Path) : Prop :=
  ∃ k, (slashed name).toList = (List.replicate k ['.', '/']).flatten ++ p.text.toList ∧
    ¬ ['.', '/'] <+: p.text.toList

theorem readsAs_iff : ReadsAs name p ↔ targetPath name = p := by
  constructor
  · rintro ⟨k, hk, hp⟩
    rw [targetPath, hk, dropDotSlash_append k hp, String.ofList_toList]
  · rintro rfl
    obtain ⟨k, hk, hrest⟩ := exists_dropDotSlash (slashed name).toList
    refine ⟨k, ?_, ?_⟩
    · rw [targetPath, String.toList_ofList]
      exact hk
    · rwa [targetPath, String.toList_ofList]

/-- What the spelling of a path is read as with `./` before it: itself, unless the path has a
backslash or begins with a `.`. -/
theorem targetPath_toSlash (hp : '\\' ∉ p.text.toList)
    (hhead : p.components.head? ≠ some .current) : targetPath ("./" ++ p.toSlash) = ⟨p.toSlash⟩ := by
  have hmem := backslash_notMem_toSlash hp
  have hslashed : slashed ("./" ++ p.toSlash) = "./" ++ p.toSlash :=
    slashed_of_notMem (by simp [hmem])
  rw [targetPath, hslashed, String.toList_append]
  show (⟨String.ofList (dropDotSlash p.toSlash.toList)⟩ : Path) = _
  rw [dropDotSlash_toSlash hhead, String.ofList_toList]

/-! ## Nodes of a derived graph -/

theorem indexed_derive (h : (derive plan f policy mode).result = .ok g) : Indexed f g := by
  obtain ⟨g₀, hwith, hnamed, -⟩ := derive_eq_ok_iff.mp h
  have hg₀ : Indexed f g₀ := (inserts_withInputs hwith).indexed indexed_initial
  split at hnamed
  · -- Shorthand names are added one by one, and each is a node of its own.
    obtain ⟨names, -, rfl⟩ := addShorthands_eq_ok hnamed
    exact List.foldlRecOn (motive := Indexed f) names _ hg₀ fun _ ih _ _ => ih.addShorthand
  · cases hnamed
    exact hg₀

theorem Indexed.displayName_eq (h : Indexed f g) (hp : (g.node n).path = some p) :
    g.displayName n = p.toSlash := by
  have hstands := h.stands n (lt_size_of_path hp)
  rw [displayName]
  generalize g.node n = node at hp hstands
  cases hstands with
  | aggregate | shorthand => cases hp
  | artifact x action =>
    cases hp
    rfl
  | file =>
    cases hp
    rfl

theorem kind_eq_aggregate_iff (h : (derive plan f policy mode).result = .ok g) (y : Aggregate) :
    (g.node n).kind = .aggregate y ↔ n = aggregate y := by
  constructor
  · intro hkind
    have hn := (indexed_derive h).aggregates n y hkind
    rw [(grows_derive h).node_eq hn] at hkind
    match n, hn with
    | 0, _ | 1, _ | 2, _ | 3, _ | 4, _ =>
      cases hkind
      rfl
  · rintro rfl
    rw [(grows_derive h).node_aggregate]
    rfl

/-- The shorthand names that lead somewhere are those of the nodes, and they are no paths. -/
theorem shorthands_derive (h : (derive plan f policy mode).result = .ok g) :
    (∀ n name, g.shorthands.find? name = some n ↔ g.IsShorthand n name) ∧
      ∀ n name, g.IsShorthand n name → '/' ∉ name.toList := by
  obtain ⟨g₀, hwith, hnamed, -⟩ := derive_eq_ok_iff.mp h
  have hg₀ := nameless_withInputs hwith
  split at hnamed
  · have hexact := shorthandsExact_of_addShorthands
      ((grows_withInputs hwith).wellFormed wellFormed_initial) hg₀ hnamed
    refine ⟨hexact.registered, fun n name hn => ?_⟩
    obtain ⟨-, a, -, rfl, -⟩ := hexact.sound n name hn
    rw [FileNames.baseName, String.toList_ofList, List.mem_reverse]
    intro hmem
    simpa using List.mem_takeWhile_imp hmem
  · cases hnamed
    refine ⟨fun n name => ⟨fun hfind => ?_, fun hn => absurd hn (hg₀.kinds n name)⟩,
      fun n name hn => absurd hn (hg₀.kinds n name)⟩
    rw [hg₀.shorthands] at hfind
    cases hfind

theorem findPath?_eq_none_iff (h : (derive plan f policy mode).result = .ok g) :
    g.findPath? p = none ↔ ∀ n, ¬ g.HasPath n p := by
  constructor
  · intro hnone n hn
    obtain ⟨m, hm, -⟩ := (grows_derive h).exists_findPath?_of_hasPath hn
    cases hnone.symm.trans hm
  · intro hnone
    by_contra hsome
    obtain ⟨n, hn⟩ := Option.ne_none_iff_exists'.mp hsome
    exact hnone n ((wellFormed_derive h).hasPath hn)

/-! ## Where names lead -/

/-- Where a name leads: to the aggregate that has it, if there is one, or else to the shorthand name
that it is, or else to a node that has the path that it is read as, if there is one. -/
inductive Denotes (g : ArtifactGraph) (name : String) : Option NodeId → Prop
  | aggregate {n : NodeId} {y : Aggregate} : y.name = name →
      (∀ m, (g.node m).kind = .aggregate y ↔ m = n) → Denotes g name (some n)
  | shorthand {n : NodeId} : (∀ y : Aggregate, y.name ≠ name) →
      (∀ m, g.IsShorthand m name ↔ m = n) → Denotes g name (some n)
  | path {n : NodeId} {p : Path} : (∀ y : Aggregate, y.name ≠ name) →
      (∀ m, ¬ g.IsShorthand m name) → ReadsAs name p → g.HasPath n p → Denotes g name (some n)
  | nothing {p : Path} : (∀ y : Aggregate, y.name ≠ name) → (∀ m, ¬ g.IsShorthand m name) →
      ReadsAs name p → (∀ m, ¬ g.HasPath m p) → Denotes g name none

theorem denotes_find? (h : (derive plan f policy mode).result = .ok g) (name : String) :
    g.Denotes name (g.find? name) := by
  obtain ⟨hregistered, -⟩ := shorthands_derive h
  unfold find?
  cases haggregate : Aggregate.ofName? name with
  | some y =>
    exact .aggregate (Aggregate.ofName?_eq_some_iff.mp haggregate) fun m =>
      kind_eq_aggregate_iff h y
  | none =>
    have hother := Aggregate.ofName?_eq_none_iff.mp haggregate
    cases hfind : g.shorthands.find? name with
    | some n =>
      refine .shorthand hother fun m => ?_
      rw [← hregistered, hfind]
      exact ⟨fun heq => (Option.some.inj heq).symm, fun heq => heq ▸ rfl⟩
    | none =>
      have hnone : ∀ m, ¬ g.IsShorthand m name := fun m hm => by
        rw [← hregistered, hfind] at hm
        cases hm
      have hreads : ReadsAs name (targetPath name) := readsAs_iff.mpr rfl
      dsimp only
      cases hpath : g.findPath? (targetPath name) with
      | some n => exact .path hother hnone hreads ((wellFormed_derive h).hasPath hpath)
      | none => exact .nothing hother hnone hreads ((findPath?_eq_none_iff h).mp hpath)

/-- A path is reached by its spelling with `./` before it, which is no aggregate and no shorthand
name. -/
theorem find?_toSlash (h : (derive plan f policy mode).result = .ok g)
    (hp : '\\' ∉ p.text.toList) (hhead : p.components.head? ≠ some .current) :
    g.find? ("./" ++ p.toSlash) = g.findPath? ⟨p.toSlash⟩ := by
  obtain ⟨hregistered, hnames⟩ := shorthands_derive h
  -- The slash keeps the name apart from all others: no aggregate and no file name has one.
  have hslash : '/' ∈ ("./" ++ p.toSlash).toList := by simp
  have haggregate : Aggregate.ofName? ("./" ++ p.toSlash) = none := by
    refine Aggregate.ofName?_eq_none_iff.mpr fun y hy => ?_
    rw [← hy] at hslash
    revert hslash
    cases y <;> decide
  have hshorthand : g.shorthands.find? ("./" ++ p.toSlash) = none := by
    by_contra hne
    obtain ⟨n, hn⟩ := Option.ne_none_iff_exists'.mp hne
    exact hnames n _ ((hregistered n _).mp hn) hslash
  rw [find?, haggregate, hshorthand, targetPath_toSlash hp hhead]

/-- **Lookup is sound, and files stay reachable.** A name leads to the aggregate that has it, to the
shorthand name, or to a file with the path that it is read as, in this order, and to nothing only if
no file has the path. The spelling of a path with `./` before it leads to a file with the path, for
every file whose path has no backslash and does not begin with a `.`. -/
theorem lookup_exact (h : (derive plan f policy mode).result = .ok g) :
    (∀ name, g.Denotes name (g.find? name)) ∧
      ∀ n p, (g.node n).path = some p → '\\' ∉ p.text.toList →
        p.components.head? ≠ some .current →
        ∃ m, g.find? ("./" ++ p.toSlash) = some m ∧ g.HasPath m p := by
  refine ⟨denotes_find? h, fun n p hpath hp hhead => ?_⟩
  have hsame : (⟨p.toSlash⟩ : Path).Same p := components_toSlash p
  obtain ⟨m, hm, -⟩ := (grows_derive h).exists_findPath?_of_hasPath (p := ⟨p.toSlash⟩)
    ⟨p, hpath, hsame⟩
  refine ⟨m, ?_, hasPath_congr hsame ((wellFormed_derive h).hasPath hm)⟩
  rw [find?_toSlash h hp hhead, hm]

/-- A program by its shorthand name, by its path in other spellings, and next to an aggregate. -/
theorem lookup_exact_main :
    main.Denotes "main" (some 9) ∧ main.Denotes ".\\./a/main" (some 8) ∧
      main.Denotes "all" (some 0) ∧
      ∃ m, main.find? "./a/main" = some m ∧ main.HasPath m "a/main" := by
  obtain ⟨hdenotes, hreached⟩ := lookup_exact derive_main
  have hpath : main.find? ".\\./a/main" = some 8 := by
    have hreads : targetPath ".\\./a/main" = "a/main" := by
      rw [targetPath, slashed, String.toList_map]
      rfl
    unfold find?
    rw [hreads]
    rfl
  refine ⟨hdenotes "main", hpath ▸ hdenotes _, hdenotes "all", ?_⟩
  exact hreached 8 "a/main" rfl (by decide) (by decide)

/-! ## Names in messages -/

/-- **The spelling with slashes is canonical.** It is the same for two paths exactly if they are the
same path, of which it is a spelling itself. So two files of a graph go by one name exactly if they
have the same path. -/
theorem toSlash_canonical :
    (∀ p q : Path, p.toSlash = q.toSlash ↔ p.Same q) ∧
      (∀ p : Path, (⟨p.toSlash⟩ : Path).Same p) ∧
      ∀ plan f policy mode g, (derive plan f policy mode).result = .ok g →
        ∀ n m p q, (g.node n).path = some p → (g.node m).path = some q →
          (g.displayName n = g.displayName m ↔ p.Same q) := by
  have hequal : ∀ p q : Path, p.toSlash = q.toSlash ↔ p.Same q := fun p q =>
    ⟨same_of_toSlash_eq, fun hsame => by rw [toSlash, hsame, ← toSlash]⟩
  refine ⟨hequal, components_toSlash, fun plan f policy mode g h n m p q hn hm => ?_⟩
  have hindexed := indexed_derive h
  rw [hindexed.displayName_eq hn, hindexed.displayName_eq hm, hequal]

/-- Other spellings of one path, and two files in one directory. -/
theorem toSlash_canonical_twoStages :
    (⟨"gen//a.txt/"⟩ : Path).toSlash = (⟨"gen/./a.txt"⟩ : Path).toSlash ∧
      twoStages.displayName 5 ≠ twoStages.displayName 6 := by
  obtain ⟨hequal, -, hnames⟩ := toSlash_canonical
  refine ⟨(hequal _ _).mpr (by decide), fun h => ?_⟩
  have hsame := (hnames _ _ _ _ _ derive_twoStages 5 6 "gen/a.txt" "gen/b.txt" rfl rfl).mp h
  exact absurd hsame (by decide)

end ArtifactGraph

end ModularBuild
