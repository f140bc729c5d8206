import ModularBuild.Proofs.Graph.Cycles
import ModularBuild.Proofs.Graph.Insertions
import ModularBuild.Proofs.Graph.RuleInputs
import Mathlib.Data.List.Nodup

/-!
# Shorthand names

Archives, shared objects, executables and generated files ask for the last part of their file name
as a shorthand (`Asks`). The names are collected in the order of the nodes, and the first that is
asked for again refuses the graph (`collectShorthands_cases`). Otherwise each name that is neither
the path itself nor that of an aggregate becomes a node that needs the artifact's and that nothing
needs (`Named`). `shorthands_exact` puts the two together.
-/

namespace ModularBuild.ArtifactGraph

variable {g g₀ g' : ArtifactGraph} {f : FileNames} {plan : Plan} {policy : LinkPolicy}
  {mode : BuildMode} {m n : NodeId} {a b : Artifact}

/-! ## Who asks for a name -/

/-- The node of an archive, a shared object, an executable or a generated file. -/
structure Asks (g : ArtifactGraph) (n : NodeId) (a : Artifact) : Prop where
  lt_size : n < g.nodes.size
  kind : (g.node n).kind = .artifact a
  hasShorthand : a.kind.hasShorthand

theorem Asks.unique (h : g.Asks n a) (h' : g.Asks n b) : a = b :=
  NodeKind.artifact.inj (h.kind.symm.trans h'.kind)

/-- What an artifact asks for. -/
def shorthandOf (f : FileNames) (n : NodeId) (a : Artifact) : Shorthand :=
  ⟨f.baseName a, n, (f.path a).toSlash⟩

theorem mem_wantedShorthands {s : Shorthand} :
    s ∈ g.wantedShorthands f ↔ ∃ n a, g.Asks n a ∧ s = shorthandOf f n a := by
  rw [wantedShorthands, List.mem_filterMap]
  constructor
  · rintro ⟨n, hn, hs⟩
    split at hs
    · split at hs
      · cases hs
        exact ⟨n, _, ⟨mem_ids.mp hn, ‹_›, ‹_›⟩, rfl⟩
      · cases hs
    · cases hs
  · rintro ⟨n, a, ⟨hn, hkind, hasShorthand⟩, rfl⟩
    refine ⟨n, mem_ids.mpr hn, ?_⟩
    simp only [hkind, hasShorthand]
    rfl

theorem pairwise_wantedShorthands :
    (g.wantedShorthands f).Pairwise fun s t => s.target < t.target := by
  have hids : ∀ want : NodeId → Option Shorthand, (∀ n s, want n = some s → s.target = n) →
      (g.ids.filterMap want).Pairwise fun s t => s.target < t.target := by
    intro want htarget
    refine List.pairwise_filterMap.mpr (List.pairwise_lt_range.imp fun hlt s hs t ht => ?_)
    rw [htarget _ _ hs, htarget _ _ ht]
    exact hlt
  refine hids _ fun n s hs => ?_
  split at hs
  · split at hs
    · cases hs
      rfl
    · cases hs
  · cases hs

/-! ## Collecting names -/

/-- The names that have been taken are those of a list that has no name twice. -/
structure Collects (taken : SortedMap String Shorthand) (seen : List Shorthand) : Prop where
  nodup : (seen.map (·.name)).Nodup
  find?_iff : ∀ name s, taken.find? name = some s ↔ s ∈ seen ∧ s.name = name

theorem collects_empty : Collects ∅ [] where
  nodup := .nil
  find?_iff _ _ := ⟨nofun, nofun⟩

theorem Collects.insert {taken : SortedMap String Shorthand} {seen : List Shorthand}
    {s : Shorthand} (h : Collects taken seen) (hs : taken.find? s.name = none) :
    Collects (taken.insert s.name s) (seen ++ [s]) where
  nodup := by
    rw [List.map_append, List.nodup_append]
    refine ⟨h.nodup, List.nodup_singleton _, fun name hname name' hname' heq => ?_⟩
    obtain ⟨t, ht, rfl⟩ := List.mem_map.mp hname
    rw [List.map_singleton, List.mem_singleton] at hname'
    rw [(h.find?_iff s.name t).mpr ⟨ht, heq.trans hname'⟩] at hs
    cases hs
  find?_iff name t := by
    rw [SortedMap.find?_insert_eq_ite, List.mem_append, List.mem_singleton]
    by_cases hname : name = s.name
    · rw [if_pos hname, Option.some.injEq]
      constructor
      · rintro rfl
        exact ⟨.inr rfl, hname.symm⟩
      · rintro ⟨ht | rfl, hnamed⟩
        · rw [(h.find?_iff s.name t).mpr ⟨ht, hnamed.trans hname⟩] at hs
          cases hs
        · rfl
    · rw [if_neg hname, h.find?_iff]
      constructor
      · exact fun ⟨ht, hnamed⟩ => ⟨.inl ht, hnamed⟩
      · rintro ⟨ht | rfl, hnamed⟩
        · exact ⟨ht, hnamed⟩
        · exact absurd hnamed.symm hname

def Ascending (first second x y : String) : Prop :=
  first ≤ second ∧ (first = x ∧ second = y ∨ first = y ∧ second = x)

theorem collectShorthands_of_taken {taken : SortedMap String Shorthand} {s other : Shorthand}
    (h : taken.find? s.name = some other) (rest : List Shorthand) :
    ∃ first second, Ascending first second other.full s.full ∧
      collectShorthands taken (s :: rest) = .error (.aliasCollision s.name first second) := by
  unfold collectShorthands
  simp only [h]
  by_cases hle : other.full ≤ s.full
  · refine ⟨other.full, s.full, ⟨hle, .inl ⟨rfl, rfl⟩⟩, ?_⟩
    rw [if_pos hle]
  · refine ⟨s.full, other.full, ⟨?_, .inr ⟨rfl, rfl⟩⟩, ?_⟩
    · exact (String.le_total other.full s.full).resolve_left hle
    · rw [if_neg hle]

/-- The names of a list are collected, or the first that repeats one before it is refused together
with that. -/
theorem collectShorthands_cases {taken : SortedMap String Shorthand} {seen : List Shorthand}
    (h : Collects taken seen) (wanted : List Shorthand) :
    match collectShorthands taken wanted with
    | .ok collected => Collects collected (seen ++ wanted)
    | .error e => ∃ before s after, seen ++ wanted = before ++ s :: after ∧
        (before.map (·.name)).Nodup ∧ ∃ other ∈ before, other.name = s.name ∧
          ∃ first second, Ascending first second other.full s.full ∧
            e = .aliasCollision s.name first second := by
  induction wanted generalizing taken seen with
  | nil =>
    rw [List.append_nil]
    exact h
  | cons s rest ih =>
    cases hfind : taken.find? s.name with
    | none =>
      have hrest := ih (h.insert hfind)
      rw [List.append_assoc, List.singleton_append] at hrest
      unfold collectShorthands
      simpa only [hfind] using hrest
    | some other =>
      obtain ⟨hother, hname⟩ := (h.find?_iff _ _).mp hfind
      obtain ⟨first, second, hascending, herror⟩ := collectShorthands_of_taken hfind rest
      rw [herror]
      exact ⟨seen, s, rest, rfl, h.nodup, other, hother, hname, first, second, hascending, rfl⟩

/-! ## Collisions -/

/-- Two artifacts ask for one name. -/
structure Collides (f : FileNames) (g : ArtifactGraph) (m n : NodeId) (a b : Artifact) : Prop where
  first : g.Asks m a
  second : g.Asks n b
  lt : m < n
  baseName : f.baseName a = f.baseName b

/-- The collision whose second artifact is the earliest. -/
structure CollidesFirst (f : FileNames) (g : ArtifactGraph) (m n : NodeId) (a b : Artifact) : Prop
    extends Collides f g m n a b where
  earliest : ∀ m' n' a' b', Collides f g m' n' a' b' → n ≤ n'

/-- Where nothing collides, a name is asked for by one node. -/
theorem Asks.eq_of_baseName (h : g.Asks m a) (h' : g.Asks n b) (hname : f.baseName a = f.baseName b)
    (hcollides : ∀ m n a b, ¬ Collides f g m n a b) : m = n := by
  rcases Nat.lt_trichotomy m n with hlt | heq | hlt
  · exact absurd ⟨h, h', hlt, hname⟩ (hcollides m n a b)
  · exact heq
  · exact absurd ⟨h', h, hlt, hname.symm⟩ (hcollides n m b a)

theorem not_nodup_of_collides {names : List Shorthand} (h : Collides f g m n a b)
    (hm : shorthandOf f m a ∈ names) (hn : shorthandOf f n b ∈ names) :
    ¬ (names.map (·.name)).Nodup := by
  intro hnodup
  have heq := List.inj_on_of_nodup_map hnodup hm hn h.baseName
  exact Nat.ne_of_lt h.lt (congrArg Shorthand.target heq)

theorem exists_collidesFirst_of_split {before after : List Shorthand} {s other : Shorthand}
    (hsplit : g.wantedShorthands f = before ++ s :: after)
    (hnodup : (before.map (·.name)).Nodup) (hother : other ∈ before) (hname : other.name = s.name) :
    ∃ m n a b, CollidesFirst f g m n a b ∧ other = shorthandOf f m a ∧ s = shorthandOf f n b := by
  have hs : s ∈ g.wantedShorthands f := by simp [hsplit]
  have hwanted : other ∈ g.wantedShorthands f := by simp [hsplit, hother]
  obtain ⟨m, a, hm, rfl⟩ := mem_wantedShorthands.mp hwanted
  obtain ⟨n, b, hn, rfl⟩ := mem_wantedShorthands.mp hs
  have hpairwise := pairwise_wantedShorthands (g := g) (f := f)
  rw [hsplit] at hpairwise
  obtain ⟨-, hrest, hbetween⟩ := List.pairwise_append.mp hpairwise
  refine ⟨m, n, a, b, ⟨⟨hm, hn, hbetween _ hother _ List.mem_cons_self, hname⟩, ?_⟩, rfl, rfl⟩
  intro m' n' a' b' h
  by_contra hlt
  -- Whoever asks before the repetition is listed before it, where no name repeats.
  have hbefore : ∀ {k : NodeId} {x : Artifact}, g.Asks k x → k < n →
      shorthandOf f k x ∈ before := by
    intro k x hk hkn
    have hmem : shorthandOf f k x ∈ g.wantedShorthands f :=
      mem_wantedShorthands.mpr ⟨k, x, hk, rfl⟩
    rw [hsplit, List.mem_append, List.mem_cons] at hmem
    rcases hmem with hmem | hmem | hmem
    · exact hmem
    · exact absurd (congrArg Shorthand.target hmem) (Nat.ne_of_lt hkn)
    · have hnk : n < k := (List.pairwise_cons.mp hrest).1 _ hmem
      exact absurd hkn (Nat.lt_asymm hnk)
  have hsecond : n' < n := Nat.lt_of_not_le hlt
  exact not_nodup_of_collides h (hbefore h.first (Nat.lt_trans h.lt hsecond))
    (hbefore h.second hsecond) hnodup

/-! ## Adding names -/

section AddShorthand

variable {name : String} {target : NodeId}

theorem node_addShorthand_self :
    (g.addShorthand name target).node g.nodes.size = .phony (.shorthand name) :=
  (node_addEdge _).trans node_addNode_self

theorem node_addShorthand_of_ne (h : n ≠ g.nodes.size) :
    (g.addShorthand name target).node n = g.node n :=
  (node_addEdge _).trans (node_addNode_of_ne h)

theorem dependencies_addShorthand_self (hg : g.EdgesWithin) :
    (g.addShorthand name target).dependencies g.nodes.size = [target] := by
  have hnone : ∀ d, ¬ g.Needs g.nodes.size d := fun d hneeds =>
    Nat.lt_irrefl _ (hg _ _ hneeds).1
  have hempty : g.dependencies g.nodes.size = [] := List.eq_nil_iff_forall_not_mem.mpr hnone
  have hedge : ¬ (g.addNode (.phony (.shorthand name))).1.hasEdge g.nodes.size target := by
    intro hedge
    exact hnone target (mem_dependencies.mpr (by simpa [hasEdge] using hedge))
  show ((g.addNode (.phony (.shorthand name))).1.addEdge g.nodes.size target).dependencies _ = _
  rw [addEdge, if_neg hedge, ← hempty]
  simp [dependencies]

theorem needs_addShorthand {c d : NodeId} :
    (g.addShorthand name target).Needs c d ↔ c = g.nodes.size ∧ d = target ∨ g.Needs c d :=
  needs_addEdge

theorem dependencies_addShorthand_of_ne (h : n ≠ g.nodes.size) :
    (g.addShorthand name target).dependencies n = g.dependencies n := by
  show ((g.addNode (.phony (.shorthand name))).1.addEdge g.nodes.size target).dependencies n = _
  unfold addEdge
  split
  · rfl
  · exact List.filterMap_cons_none (if_neg (Ne.symm h))

theorem find?_shorthands_addShorthand (other : String) :
    (g.addShorthand name target).shorthands.find? other =
      if other = name then some g.nodes.size else g.shorthands.find? other := by
  have hsame : ((g.addNode (.phony (.shorthand name))).1.addEdge g.nodes.size target).shorthands =
      g.shorthands := by
    unfold addEdge
    split <;> rfl
  show (((g.addNode (.phony (.shorthand name))).1.addEdge g.nodes.size target).shorthands.insert
    name g.nodes.size).find? other = _
  rw [hsame, SortedMap.find?_insert_eq_ite]

end AddShorthand

theorem lt_size_of_shorthand {name : String} (h : (g.node n).kind = .shorthand name) :
    n < g.nodes.size :=
  lt_size_of_ne_default fun hdefault => by rw [hdefault] at h; cases h

/-- Names have been added to a graph: one node for each, which needs what the name stands for and
nothing else, and which nothing needs. -/
structure Named (g₀ : ArtifactGraph) (names : List Shorthand) (g : ArtifactGraph) : Prop where
  grows : Grows g₀ g
  targets : ∀ c d, g.Needs c d → d < g₀.nodes.size
  registered : ∀ name n, g.shorthands.find? name = some n → (g.node n).kind = .shorthand name
  nodes : ∀ n name, (g.node n).kind = .shorthand name → g.shorthands.find? name = some n ∧
    ∃ s ∈ names, s.name = name ∧ g.dependencies n = [s.target]
  complete : ∀ s ∈ names, ∃ n, (g.node n).kind = .shorthand s.name

theorem named_nil (hg : g₀.Nameless) (hwithin : g₀.EdgesWithin) : Named g₀ [] g₀ where
  grows := .refl
  targets c d hneeds := (hwithin c d hneeds).2
  registered name n hn := by rw [hg.shorthands] at hn; cases hn
  nodes n name hkind := absurd hkind (hg.kinds n name)
  complete := nofun

theorem Named.addShorthand {names : List Shorthand} {s : Shorthand} (h : Named g₀ names g)
    (hg : g₀.WellFormed) (htarget : s.target < g₀.nodes.size) (hs : s.name ∉ names.map (·.name)) :
    Named g₀ (names ++ [s]) (g.addShorthand s.name s.target) where
  grows := h.grows.trans (grows_addShorthand s.name (Nat.lt_of_lt_of_le htarget h.grows.size_le))
  targets c d hneeds := by
    rcases needs_addShorthand.mp hneeds with ⟨-, rfl⟩ | hneeds
    · exact htarget
    · exact h.targets c d hneeds
  registered name n hn := by
    rw [find?_shorthands_addShorthand] at hn
    split at hn
    · cases hn
      rw [node_addShorthand_self, ‹name = s.name›]
      rfl
    · have hkind := h.registered name n hn
      rwa [node_addShorthand_of_ne (Nat.ne_of_lt (lt_size_of_shorthand hkind))]
  nodes n name hkind := by
    rw [find?_shorthands_addShorthand]
    by_cases hn : n = g.nodes.size
    · rw [hn, node_addShorthand_self] at hkind
      cases hkind
      rw [if_pos rfl, hn, dependencies_addShorthand_self (h.grows.wellFormed hg).edgesWithin]
      exact ⟨rfl, s, List.mem_append_right _ (List.mem_singleton_self s), rfl, rfl⟩
    · rw [node_addShorthand_of_ne hn] at hkind
      obtain ⟨hfind, t, ht, hname, hdependencies⟩ := h.nodes n name hkind
      have hne : name ≠ s.name := fun heq =>
        hs (List.mem_map.mpr ⟨t, ht, hname.trans heq⟩)
      rw [if_neg hne, dependencies_addShorthand_of_ne hn]
      exact ⟨hfind, t, List.mem_append_left _ ht, hname, hdependencies⟩
  complete t ht := by
    rcases List.mem_append.mp ht with ht | ht
    · obtain ⟨n, hn⟩ := h.complete t ht
      exact ⟨n, by rwa [node_addShorthand_of_ne (Nat.ne_of_lt (lt_size_of_shorthand hn))]⟩
    · rw [List.mem_singleton.mp ht]
      exact ⟨g.nodes.size, by rw [node_addShorthand_self]; rfl⟩

theorem Named.foldl {done names : List Shorthand} (h : Named g₀ done g) (hg : g₀.WellFormed)
    (htargets : ∀ s ∈ names, s.target < g₀.nodes.size)
    (hnodup : ((done ++ names).map (·.name)).Nodup) :
    Named g₀ (done ++ names) (names.foldl (fun g s => g.addShorthand s.name s.target) g) := by
  induction names generalizing g done with
  | nil =>
    rw [List.append_nil]
    exact h
  | cons s names ih =>
    obtain ⟨hs, htargets⟩ := List.forall_mem_cons.mp htargets
    have hnew : s.name ∉ done.map (·.name) := by
      rw [List.map_append, List.nodup_append] at hnodup
      exact fun hmem => hnodup.2.2 _ hmem _ List.mem_cons_self rfl
    have hrest : done ++ s :: names = (done ++ [s]) ++ names := by simp
    rw [hrest] at hnodup ⊢
    exact ih (h.addShorthand hg hs hnew) htargets hnodup

theorem collidesFirst_of_addShorthands {e : PlanError} (h : (addShorthands f g).result = .error e) :
    ∃ m n a b first second, CollidesFirst f g m n a b ∧
      Ascending first second (f.path a).toSlash (f.path b).toSlash ∧
      e = .aliasCollision (f.baseName b) first second := by
  have hcases := collectShorthands_cases collects_empty (g.wantedShorthands f)
  unfold addShorthands at h
  cases hcollect : collectShorthands ∅ (g.wantedShorthands f) with
  | ok taken => rw [hcollect] at h; cases h
  | error e =>
    rw [hcollect] at h hcases
    cases h
    obtain ⟨before, s, after, hsplit, hnodup, other, hother, hname, first, second, hascending, rfl⟩
      := hcases
    obtain ⟨m, n, a, b, hcollides, rfl, rfl⟩ :=
      exists_collidesFirst_of_split hsplit hnodup hother hname
    dsimp only [shorthandOf] at hascending ⊢
    exact ⟨m, n, a, b, first, second, hcollides, hascending, rfl⟩

/-- The names that are added are the useful ones among those that are asked for, as far as no
aggregate has them. -/
theorem named_of_addShorthands (hg : g₀.WellFormed) (hnameless : g₀.Nameless)
    (h : (addShorthands f g₀).result = .ok g) :
    (∀ m n a b, ¬ Collides f g₀ m n a b) ∧ ∃ names, Named g₀ names g ∧
      ∀ s, s ∈ names ↔ s ∈ g₀.wantedShorthands f ∧ s.isUseful ∧ ¬ s.isShadowed := by
  have hcases := collectShorthands_cases collects_empty (g₀.wantedShorthands f)
  unfold addShorthands at h
  cases hcollect : collectShorthands ∅ (g₀.wantedShorthands f) with
  | error e => rw [hcollect] at h; cases h
  | ok taken =>
    rw [hcollect] at h hcases
    cases h
    have hcollects : Collects taken (g₀.wantedShorthands f) := hcases
    have hvalues : ∀ s, s ∈ taken.values ↔ s ∈ g₀.wantedShorthands f := by
      intro s
      constructor
      · intro hs
        obtain ⟨e, he, rfl⟩ := List.mem_map.mp hs
        exact ((hcollects.find?_iff _ _).mp (SortedMap.mem_entries_iff.mp he)).1
      · intro hs
        exact List.mem_map.mpr
          ⟨(s.name, s), SortedMap.mem_entries_iff.mpr ((hcollects.find?_iff _ _).mpr ⟨hs, rfl⟩), rfl⟩
    -- Every name is filed under itself, so that no two entries have one name.
    have hkeys : taken.values.map (·.name) = taken.keys := by
      rw [SortedMap.values, List.map_map]
      refine List.map_congr_left fun e he => ?_
      exact ((hcollects.find?_iff _ _).mp (SortedMap.mem_entries_iff.mp he)).2
    refine ⟨fun m n a b hcollides => ?_,
      (taken.values.filter (·.isUseful)).filter (!·.isShadowed), ?_, fun s => ?_⟩
    · refine not_nodup_of_collides hcollides ?_ ?_ hcollects.nodup
      · exact mem_wantedShorthands.mpr ⟨m, a, hcollides.first, rfl⟩
      · exact mem_wantedShorthands.mpr ⟨n, b, hcollides.second, rfl⟩
    · refine (named_nil hnameless hg.edgesWithin).foldl hg (fun s hs => ?_) ?_
      · have hs := (hvalues s).mp (List.mem_filter.mp (List.mem_filter.mp hs).1).1
        exact target_lt_of_mem_wantedShorthands hs
      · have hsublist := (List.filter_sublist (p := fun s : Shorthand => !s.isShadowed)
          (l := taken.values.filter (·.isUseful))).trans List.filter_sublist
        exact (hsublist.map _).nodup (hkeys ▸ taken.nodup_keys)
    · rw [List.mem_filter, List.mem_filter, hvalues, and_assoc, Bool.not_eq_true',
        Bool.not_eq_true]

/-! ## Derived graphs -/

/-- An artifact that gets a name: one that asks for a name which is not its path already and which
no aggregate has. -/
structure Earns (f : FileNames) (g : ArtifactGraph) (n : NodeId) (a : Artifact) : Prop
    extends g.Asks n a where
  isUseful : f.baseName a ≠ (f.path a).toSlash
  notShadowed : Aggregate.ofName? (f.baseName a) = none

/-- A node is a shorthand name. -/
def IsShorthand (g : ArtifactGraph) (s : NodeId) (name : String) : Prop :=
  (g.node s).kind = .shorthand name

/-- The shorthand names of a graph are those of the artifacts that get one. -/
structure ShorthandsExact (f : FileNames) (g : ArtifactGraph) : Prop where
  /-- Each artifact that gets a name has exactly one. -/
  complete : ∀ n a, Earns f g n a → ∃! s, (∃ name, g.IsShorthand s name) ∧ g.Needs s n
  /-- Each name is that of one artifact, and needs it alone. -/
  sound : ∀ s name, g.IsShorthand s name →
    ∃ n a, Earns f g n a ∧ name = f.baseName a ∧ g.dependencies s = [n]
  unneeded : ∀ s name, g.IsShorthand s name → ∀ n, ¬ g.Needs n s
  found : ∀ s name, g.IsShorthand s name → g.find? name = some s
  registered : ∀ s name, g.shorthands.find? name = some s ↔ g.IsShorthand s name

theorem isUseful_shorthandOf :
    (shorthandOf f n a).isUseful ↔ f.baseName a ≠ (f.path a).toSlash := by
  rw [Shorthand.isUseful, decide_eq_true_iff]
  exact Iff.rfl

theorem isShadowed_shorthandOf :
    (shorthandOf f n a).isShadowed ↔ Aggregate.ofName? (f.baseName a) ≠ none := by
  simp only [Shorthand.isShadowed, shorthandOf, Option.isSome_iff_ne_none]

/-- An artifact that asks for a name gets one if the name is useful and not shadowed. -/
theorem earns_iff : Earns f g n a ↔
    g.Asks n a ∧ (shorthandOf f n a).isUseful ∧ ¬ (shorthandOf f n a).isShadowed := by
  rw [isUseful_shorthandOf, isShadowed_shorthandOf, not_not]
  constructor
  · rintro ⟨hasks, huseful, hshadowed⟩
    exact ⟨hasks, huseful, hshadowed⟩
  · rintro ⟨hasks, huseful, hshadowed⟩
    exact ⟨hasks, huseful, hshadowed⟩

theorem shorthandsExact_of_addShorthands (hg : g₀.WellFormed) (hnameless : g₀.Nameless)
    (h : (addShorthands f g₀).result = .ok g) : ShorthandsExact f g := by
  obtain ⟨hcollides, names, hnamed, hnames⟩ := named_of_addShorthands hg hnameless h
  have hsettles : Settles g₀ g := (named_addShorthands h : _ ∧ Extends default f g₀ g).1
  -- The artifacts are those from before any name was added.
  have hasks : ∀ n a, g.Asks n a ↔ g₀.Asks n a := by
    intro n a
    constructor
    · rintro ⟨hn, hkind, hshorthand⟩
      have hn₀ := hsettles.artifacts n a hn hkind
      exact ⟨hn₀, hsettles.grows.node_eq hn₀ ▸ hkind, hshorthand⟩
    · rintro ⟨hn, hkind, hshorthand⟩
      exact ⟨Nat.lt_of_lt_of_le hn hsettles.grows.size_le, by rwa [hsettles.grows.node_eq hn],
        hshorthand⟩
  have hsound : ∀ s name, g.IsShorthand s name →
      ∃ n a, Earns f g n a ∧ name = f.baseName a ∧ g.dependencies s = [n] := by
    intro s name hs
    obtain ⟨-, t, ht, rfl, hdependencies⟩ := hnamed.nodes s name hs
    obtain ⟨hwanted, huseful, hshadowed⟩ := (hnames t).mp ht
    obtain ⟨n, a, hn, rfl⟩ := mem_wantedShorthands.mp hwanted
    exact ⟨n, a, earns_iff.mpr ⟨(hasks n a).mpr hn, huseful, hshadowed⟩, rfl, hdependencies⟩
  have hregistered : ∀ s name, g.shorthands.find? name = some s ↔ g.IsShorthand s name :=
    fun s name => ⟨hnamed.registered name s, fun hs => (hnamed.nodes s name hs).1⟩
  -- A name that needs an artifact is the artifact's.
  have hname : ∀ s n a, Earns f g n a → (∃ name, g.IsShorthand s name) → g.Needs s n →
      g.IsShorthand s (f.baseName a) := by
    rintro s n a hn ⟨name, hs⟩ hneeds
    obtain ⟨n', a', hn', rfl, hdependencies⟩ := hsound s name hs
    rw [Needs, hdependencies, List.mem_singleton] at hneeds
    subst hneeds
    rwa [hn.unique hn'.toAsks]
  refine ⟨fun n a hn => ?_, hsound, fun s name hs n hneeds => ?_, fun s name hs => ?_, hregistered⟩
  · have hmem : shorthandOf f n a ∈ names := (hnames _).mpr
      ⟨mem_wantedShorthands.mpr ⟨n, a, (hasks n a).mp hn.toAsks, rfl⟩, (earns_iff.mp hn).2⟩
    obtain ⟨s, hs⟩ := hnamed.complete _ hmem
    have hneeds : g.Needs s n := by
      obtain ⟨n', a', hn', hbase, hdependencies⟩ := hsound s _ hs
      rw [Needs, hdependencies, List.mem_singleton]
      exact Asks.eq_of_baseName ((hasks n a).mp hn.toAsks) ((hasks n' a').mp hn'.toAsks) hbase
        hcollides
    refine ⟨s, ⟨⟨_, hs⟩, hneeds⟩, fun s' hs' => ?_⟩
    have hsame := (hregistered s' _).mpr (hname s' n a hn hs'.1 hs'.2)
    exact Option.some.inj (hsame.symm.trans ((hregistered s _).mpr hs))
  · have hlt := hnamed.targets n s hneeds
    refine hnameless.kinds s name ?_
    rw [← hnamed.grows.node_eq hlt]
    exact hs
  · obtain ⟨n, a, hn, rfl, -⟩ := hsound s name hs
    rw [find?, hn.notShadowed, (hregistered _ _).mpr hs]

/-- **The shorthand names of a graph are exact.** Where no input lies outside the project there is a
graph with all artifacts. A module built on its own has no shorthand names. A whole project is
refused for a shared name exactly if two artifacts ask for one, by the first that is asked for again
and the two paths it would refer to; otherwise its names are those of the artifacts that get one. -/
theorem shorthands_exact
    (hinputs : ∀ artifact input,
      (derive plan f policy mode).result ≠ .error (.inputOutsideProject artifact input)) :
    ∃ g₀, withInputs plan f policy = .ok g₀ ∧
      (mode.isStandalone → ∀ g, (derive plan f policy mode).result = .ok g → g.Nameless) ∧
      (mode = .project →
        ((∃ name first second,
            (derive plan f policy mode).result = .error (.aliasCollision name first second)) ↔
          ∃ m n a b, Collides f g₀ m n a b) ∧
        (∀ name first second,
          (derive plan f policy mode).result = .error (.aliasCollision name first second) →
          ∃ m n a b, CollidesFirst f g₀ m n a b ∧ name = f.baseName b ∧
            Ascending first second (f.path a).toSlash (f.path b).toSlash) ∧
        ∀ g, (derive plan f policy mode).result = .ok g → ShorthandsExact f g) := by
  cases hwith : withInputs plan f policy with
  | error e =>
    obtain ⟨artifact, input, rfl⟩ := withInputs_eq_error hwith
    refine absurd ?_ (hinputs artifact input)
    rw [derive, hwith]
  | ok g₀ =>
    have hnameless := nameless_withInputs hwith
    have hg := (grows_withInputs hwith).wellFormed wellFormed_initial
    refine ⟨g₀, rfl, fun hmode g hresult => ?_, ?_⟩
    · obtain ⟨g₁, hwith', hnamed, -⟩ := derive_eq_ok_iff.mp hresult
      cases hwith.symm.trans hwith'
      rw [BuildMode.hasShorthands, hmode] at hnamed
      cases hnamed
      exact hnameless
    · rintro rfl
      have hresult : (derive plan f policy .project).result =
          (addShorthands f g₀).result.bind checkAcyclic := by
        rw [result_derive, constructed, hwith]
        rfl
      rw [hresult]
      cases hnamed : (addShorthands f g₀).result with
      | error e =>
        obtain ⟨m, n, a, b, first, second, hcollides, hascending, rfl⟩ :=
          collidesFirst_of_addShorthands hnamed
        refine ⟨⟨fun _ => ⟨m, n, a, b, hcollides.toCollides⟩, fun _ => ⟨_, _, _, rfl⟩⟩,
          fun name first' second' h => ?_, fun g h => ?_⟩
        · cases h
          exact ⟨m, n, a, b, hcollides, rfl, hascending⟩
        · cases h
      | ok g =>
        have hcollides := (named_of_addShorthands hg hnameless hnamed).1
        show ((∃ name first second, checkAcyclic g = _) ↔ _) ∧ (∀ name first second,
          checkAcyclic g = _ → _) ∧ ∀ g', checkAcyclic g = .ok g' → _
        have hcycle : ∀ name first second,
            checkAcyclic g ≠ .error (.aliasCollision name first second) := by
          intro name first second h
          unfold checkAcyclic at h
          split at h <;> cases h
        refine ⟨⟨?_, ?_⟩, fun name first second h => absurd h (hcycle name first second),
          fun g' h => ?_⟩
        · rintro ⟨name, first, second, h⟩
          exact absurd h (hcycle name first second)
        · rintro ⟨m, n, a, b, h⟩
          exact absurd h (hcollides m n a b)
        · unfold checkAcyclic at h
          split at h
          · cases h
            exact shorthandsExact_of_addShorthands hg hnameless hnamed
          · cases h

/-! ## Programs of one name -/

/-- A module with a program, and a file that is generated in the project's root. -/
def mainPlan : Plan where
  project := "demo"
  modules := (SortedMap.insert ∅ ⟨"."⟩ ()).insert ⟨"a"⟩ ()
  programs := SortedMap.insert ∅ ⟨⟨"a"⟩, "main"⟩ ()
  generated := SortedMap.insert ∅ ⟨⟨"."⟩, "version.h"⟩ none

def main : ArtifactGraph := (constructed mainPlan {} .everyLibrary .project).toOption.getD {}

theorem constructs_main : Constructs mainPlan {} .everyLibrary .project main
    [(9, 8), (0, 8), (2, 8), (8, 7), (7, 6), (0, 5), (4, 5)] 10 :=
  constructs_of_computed ⟨by rfl, by rfl, by rfl⟩

theorem derive_main : (derive mainPlan {} .everyLibrary .project).result = .ok main :=
  constructs_main.derive (by cbv)

/-- The same with a second module that has a program of the same name. -/
def mainsPlan : Plan :=
  { mainPlan with
    modules := mainPlan.modules.insert ⟨"b"⟩ ()
    programs := mainPlan.programs.insert ⟨⟨"b"⟩, "main"⟩ () }

theorem derive_mains : (derive mainsPlan {} .everyLibrary .project).result =
    .error (.aliasCollision "main" "a/main" "b/main") := by
  rw [result_derive]
  rfl

/-- One program gets its name, which leads to it alone; two are refused for it. -/
theorem shorthands_exact_main :
    (derive mainPlan {} .everyLibrary .project).result = .ok main ∧
      main.find? "main" = some 9 ∧
      (∃ n a, Earns {} main n a ∧ "main" = ({} : FileNames).baseName a ∧
        main.dependencies 9 = [n]) ∧
      (derive mainsPlan {} .everyLibrary .project).result =
        .error (.aliasCollision "main" "a/main" "b/main") ∧
      ∃ g₀ m n a b, withInputs mainsPlan {} .everyLibrary = .ok g₀ ∧
        CollidesFirst {} g₀ m n a b ∧ ({} : FileNames).baseName b = "main" := by
  have hmain : ∀ artifact input, (derive mainPlan {} .everyLibrary .project).result ≠
      .error (.inputOutsideProject artifact input) := fun artifact input h => by
    rw [derive_main] at h
    cases h
  obtain ⟨g₀, -, -, hproject⟩ := shorthands_exact hmain
  have hexact := (hproject rfl).2.2 main derive_main
  have hshorthand : main.IsShorthand 9 "main" := by rfl
  have hmains : ∀ artifact input, (derive mainsPlan {} .everyLibrary .project).result ≠
      .error (.inputOutsideProject artifact input) := fun artifact input h => by
    rw [derive_mains] at h
    cases h
  obtain ⟨g₁, hwith, -, hrefused⟩ := shorthands_exact hmains
  obtain ⟨m, n, a, b, hfirst, hname, -⟩ := (hrefused rfl).2.1 _ _ _ derive_mains
  exact ⟨derive_main, hexact.found 9 "main" hshorthand, hexact.sound 9 "main" hshorthand,
    derive_mains, g₁, m, n, a, b, hwith, hfirst, hname.symm⟩

end ModularBuild.ArtifactGraph
