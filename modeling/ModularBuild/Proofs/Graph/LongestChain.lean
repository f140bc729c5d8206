import ModularBuild.Proofs.Graph.Growth
import ModularBuild.Proofs.Graph.Levels
import Mathlib.Order.Bounds.Defs

/-!
# A level is the length of a longest chain

The level of a node is one more than that of some node it needs, unless it is the lowest
(`InLevel.exists_needs`), and above that of every node it needs. Going down from a node, level by
level, is therefore a chain of needs that no other is longer than (`InLevel.isGreatest_chains`), no
level between is empty, and only the target itself is on top.
-/

namespace ModularBuild.ArtifactGraph

variable {g : ArtifactGraph} {root n d : NodeId} {j k : Nat}

/-! ## The level of a node is attained -/

theorem foldl_max_eq_or_mem (l : List Nat) (b : Nat) : l.foldl max b = b ∨ l.foldl max b ∈ l := by
  induction l generalizing b with
  | nil => exact .inl rfl
  | cons y l ih =>
    rw [List.foldl_cons]
    rcases ih (max b y) with h | h
    · rw [h]
      rcases Nat.le_total b y with hby | hyb
      · exact .inr (by rw [Nat.max_eq_right hby]; exact List.mem_cons_self)
      · exact .inl (Nat.max_eq_left hyb)
    · exact .inr (List.mem_cons_of_mem _ h)

/-- A level above the lowest is just above that of a node that is needed. -/
theorem exists_needs_of_levelFrom {known : SortedMap NodeId Nat}
    (h : g.levelFrom known n = k + 1) : ∃ d, g.Needs n d ∧ known.find? d = some k := by
  unfold levelFrom at h
  rcases foldl_max_eq_or_mem ((g.dependencies n).filterMap
    fun d => (known.find? d).map (· + 1)) 0 with hzero | hmem
  · omega
  · rw [h] at hmem
    obtain ⟨d, hd, hlevel⟩ := List.mem_filterMap.mp hmem
    obtain ⟨j, hj, heq⟩ := Option.map_eq_some_iff.mp hlevel
    exact ⟨d, hd, by rw [hj, Nat.succ.inj heq]⟩

theorem mem_of_find?_levelMap {nodes : List NodeId} (h : (g.levelMap nodes).find? n = some k) :
    n ∈ nodes := by
  by_contra hn
  have hnone : (g.levelMap ([] ++ nodes)).find? n = none := find?_levelMap_append hn
  rw [List.nil_append, h] at hnone
  cases hnone

/-- A node above the lowest level needs a node of the level below its own. -/
theorem InLevel.exists_needs (h : g.InLevel root (k + 1) n) (hg : g.Ordered)
    (hroot : root < g.nodes.size) : ∃ d, g.Needs n d ∧ g.InLevel root k d := by
  obtain ⟨hn, hlevel⟩ := h
  obtain ⟨before, after, hsplit⟩ := List.append_of_mem hn
  have hnodup := nodup_schedule root hg
  rw [hsplit] at hnodup hlevel
  rw [find?_levelMap_of_split (List.nodup_cons.mp (List.nodup_append.mp hnodup).2.1).1,
    Option.some.injEq] at hlevel
  obtain ⟨d, hneeds, hd⟩ := exists_needs_of_levelFrom hlevel
  -- The level that was looked up is the one that the dependency has kept.
  have hbefore := mem_before_of_needs hg hroot hsplit hneeds
  have hrest : d ∉ n :: after := fun hmem =>
    (List.nodup_append.mp hnodup).2.2 d hbefore d hmem rfl
  refine ⟨d, hneeds, ?_, ?_⟩
  · rw [hsplit]
    exact List.mem_append_left _ hbefore
  · rw [hsplit, find?_levelMap_append hrest, hd]

theorem InLevel.unique (h : g.InLevel root j n) (h' : g.InLevel root k n) : j = k :=
  Option.some.inj (h.2.symm.trans h'.2)

theorem InLevel.needs (h : g.InLevel root k n) (hg : g.Ordered) (hroot : root < g.nodes.size)
    (hneeds : g.Needs n d) : ∃ j < k, g.InLevel root j d := by
  have hd : d ∈ g.schedule root :=
    (mem_schedule_iff hg hroot).mpr (((mem_schedule_iff hg hroot).mp h.1).tail hneeds)
  obtain ⟨j, hj⟩ := find?_levelMap_schedule hg hd
  exact ⟨j, level_lt_of_needs hg hroot h.1 hneeds hj h.2, hd, hj⟩

theorem InLevel.reaches (h : g.InLevel root k n) (hg : g.Ordered) (hroot : root < g.nodes.size)
    (hreach : g.ReachesStrictly n d) : ∃ j < k, g.InLevel root j d := by
  induction hreach with
  | single hneeds => exact h.needs hg hroot hneeds
  | tail _ hneeds ih =>
    obtain ⟨i, hi, hmid⟩ := ih
    obtain ⟨j, hj, hlast⟩ := hmid.needs hg hroot hneeds
    exact ⟨j, Nat.lt_trans hj hi, hlast⟩

/-! ## Chains of needs -/

/-- A chain of so many needs goes down from a node. -/
inductive HasChain (g : ArtifactGraph) : NodeId → Nat → Prop
  | here (n : NodeId) : HasChain g n 0
  | down {n d : NodeId} {k : Nat} : g.Needs n d → HasChain g d k → HasChain g n (k + 1)

theorem InLevel.hasChain (h : g.InLevel root k n) (hg : g.Ordered) (hroot : root < g.nodes.size) :
    g.HasChain n k := by
  induction k generalizing n with
  | zero => exact .here n
  | succ k ih =>
    obtain ⟨d, hneeds, hd⟩ := h.exists_needs hg hroot
    exact .down hneeds (ih hd)

theorem HasChain.le_level (h : g.HasChain n j) (hg : g.Ordered) (hroot : root < g.nodes.size)
    (hlevel : g.InLevel root k n) : j ≤ k := by
  induction h generalizing k with
  | here n => exact Nat.zero_le k
  | down hneeds _ ih =>
    obtain ⟨i, hi, hd⟩ := hlevel.needs hg hroot hneeds
    exact Nat.lt_of_le_of_lt (ih hd) hi

/-- The level of a node is the length of a longest chain of needs from it. -/
theorem InLevel.isGreatest_chains (h : g.InLevel root k n) (hg : g.Ordered)
    (hroot : root < g.nodes.size) : IsGreatest {j | g.HasChain n j} k :=
  ⟨h.hasChain hg hroot, fun _ hj => HasChain.le_level hj hg hroot h⟩

/-! ## No level is empty -/

theorem InLevel.exists_below (h : g.InLevel root k n) (hg : g.Ordered)
    (hroot : root < g.nodes.size) (hj : j ≤ k) : ∃ m, g.InLevel root j m := by
  induction k generalizing n with
  | zero => exact ⟨n, Nat.le_zero.mp hj ▸ h⟩
  | succ k ih =>
    rcases Nat.lt_or_eq_of_le hj with hlt | rfl
    · obtain ⟨d, -, hd⟩ := h.exists_needs hg hroot
      exact ih hd (Nat.le_of_lt_succ hlt)
    · exact ⟨n, h⟩

theorem exists_inLevel (hg : g.Ordered) (hroot : root < g.nodes.size)
    (hk : k < (g.levels root).length) : ∃ n, g.InLevel root k n := by
  rw [levels, List.length_map, List.length_range] at hk
  -- The number of the levels is one more than the highest level that a node has.
  rcases foldl_max_eq_or_mem ((g.levelMap (g.schedule root)).values.map (· + 1)) 0
    with hzero | hmem
  · omega
  · obtain ⟨top, htop, heq⟩ := List.mem_map.mp hmem
    obtain ⟨⟨m, _⟩, hentry, rfl⟩ := List.mem_map.mp htop
    have hm := SortedMap.mem_entries_iff.mp hentry
    have hlevel : g.InLevel root _ m := ⟨mem_of_find?_levelMap hm, hm⟩
    exact hlevel.exists_below hg hroot (by omega)

/-! ## The target is on top -/

theorem exists_inLevel_root (hg : g.Ordered) (hroot : root < g.nodes.size) :
    ∃ k, g.InLevel root k root := by
  have hmem : root ∈ g.schedule root := (mem_schedule_iff hg hroot).mpr .refl
  obtain ⟨k, hk⟩ := find?_levelMap_schedule hg hmem
  exact ⟨k, hmem, hk⟩

theorem InLevel.lt_root (h : g.InLevel root k root) (hg : g.Ordered) (hroot : root < g.nodes.size)
    (hn : g.InLevel root j n) (hne : n ≠ root) : j < k := by
  have hreach := (mem_schedule_iff hg hroot).mp hn.1
  rcases Relation.reflTransGen_iff_eq_or_transGen.mp hreach with rfl | hstrict
  · exact absurd rfl hne
  · obtain ⟨i, hi, hd⟩ := h.reaches hg hroot hstrict
    exact hn.unique hd ▸ hi

theorem getLast?_levels (hg : g.Ordered) (hroot : root < g.nodes.size) :
    (g.levels root).getLast? = some [root] := by
  obtain ⟨k, hk⟩ := exists_inLevel_root hg hroot
  have hlength : (g.levels root).length = k + 1 := by
    have hlt := lt_length_levels hk
    by_contra hne
    obtain ⟨n, hn⟩ := exists_inLevel hg hroot (k := k + 1) (by omega)
    by_cases hnroot : n = root
    · have := hk.unique (hnroot ▸ hn)
      omega
    · have := hk.lt_root hg hroot hn hnroot
      omega
  have hlt : k < (g.levels root).length := by omega
  have htop : (g.levels root)[k] = [root] := by
    have hnodup := nodup_of_mem_levels hg (List.getElem_mem hlt)
    refine List.perm_singleton.mp ((List.perm_ext_iff_of_nodup hnodup
      (List.nodup_singleton root)).mpr fun n => ?_)
    rw [mem_getElem_levels_iff, List.mem_singleton]
    constructor
    · intro hn
      by_contra hne
      exact Nat.lt_irrefl k (hk.lt_root hg hroot hn hne)
    · rintro rfl
      exact hk
  rw [List.getLast?_eq_getElem?, hlength, Nat.add_sub_cancel, List.getElem?_eq_getElem hlt, htop]

/-! ## Levels are listed by name -/

theorem pairwise_of_mem_levels {level : List NodeId} (h : level ∈ g.levels root) :
    level.Pairwise fun a b => g.displayName a ≤ g.displayName b := by
  simp only [levels, List.mem_map] at h
  obtain ⟨k, -, rfl⟩ := h
  refine (List.pairwise_mergeSort (fun a b c hab hbc => ?_) (fun a b => ?_) _).imp of_decide_eq_true
  · exact decide_eq_true (String.le_trans (of_decide_eq_true hab) (of_decide_eq_true hbc))
  · rw [Bool.or_eq_true, decide_eq_true_eq, decide_eq_true_eq]
    exact String.le_total _ _

/-! ## The schedule of a target -/

/-- Whether a node is listed in the level of a number. -/
def ListedAt (g : ArtifactGraph) (root : NodeId) (k : Nat) (n : NodeId) : Prop :=
  ∃ level, (g.levels root)[k]? = some level ∧ n ∈ level

theorem listedAt_iff : g.ListedAt root k n ↔ g.InLevel root k n := by
  constructor
  · rintro ⟨level, hlevel, hn⟩
    obtain ⟨hk, rfl⟩ := List.getElem?_eq_some_iff.mp hlevel
    exact (mem_getElem_levels_iff hk).mp hn
  · intro h
    have hk := lt_length_levels h
    exact ⟨_, List.getElem?_eq_getElem hk, (mem_getElem_levels_iff hk).mpr h⟩

/-- **The levels of a target are a schedule.** They list what the target reaches, every node once;
none is empty, and each is in the order of names. What a node needs lies in lower levels, and above
the lowest level something of it in the level just below, so that a node's level is the length of a
longest chain of needs from it. The last level is the target alone. The order that all of this rests
on exists. -/
theorem levels_schedule {plan : Plan} {f : FileNames} {policy : LinkPolicy} {mode : BuildMode}
    (h : (derive plan f policy mode).result = .ok g) (hroot : root < g.nodes.size) :
    ((∀ n, n ∈ (g.levels root).flatten ↔ g.Reaches root n) ∧ (g.levels root).flatten.Nodup) ∧
      (∀ level ∈ g.levels root, level ≠ [] ∧
        level.Pairwise fun a b => g.displayName a ≤ g.displayName b) ∧
      (∀ k n, g.ListedAt root k n →
        (∀ d, g.Needs n d → ∃ j < k, g.ListedAt root j d) ∧
          (0 < k → ∃ d, g.Needs n d ∧ g.ListedAt root (k - 1) d) ∧
          IsGreatest {j | g.HasChain n j} k) ∧
      (g.levels root).getLast? = some [root] ∧ ∃ order, g.toposort = .ok order := by
  have hg := ordered_derive h
  refine ⟨⟨fun n => mem_flatten_levels_iff hg hroot, nodup_flatten_levels root hg⟩,
    fun level hlevel => ⟨?_, pairwise_of_mem_levels hlevel⟩, fun k n hn => ?_,
    getLast?_levels hg hroot, hg.order⟩
  · obtain ⟨k, hk, rfl⟩ := List.getElem_of_mem hlevel
    obtain ⟨n, hn⟩ := exists_inLevel hg hroot hk
    exact List.ne_nil_of_mem ((mem_getElem_levels_iff hk).mpr hn)
  · simp only [listedAt_iff] at hn ⊢
    refine ⟨fun d hneeds => hn.needs hg hroot hneeds, fun hpos => ?_, hn.isGreatest_chains hg hroot⟩
    obtain ⟨j, rfl⟩ := Nat.exists_eq_add_one.mpr hpos
    exact hn.exists_needs hg hroot

/-- From the group of generated files the longest chain goes down through both stages to the file
that the first is made from. -/
theorem levels_schedule_twoStages :
    (derive twoStagesPlan {} .everyLibrary (.standalone ⟨"gen"⟩)).result = .ok twoStages ∧
      4 < twoStages.nodes.size ∧ twoStages.levels 4 = [[7], [5], [6], [4]] ∧
      twoStages.ListedAt 4 2 6 ∧ IsGreatest {j | twoStages.HasChain 6 j} 2 ∧
      ∃ d, twoStages.Needs 6 d ∧ twoStages.ListedAt 4 1 d := by
  have hroot : 4 < twoStages.nodes.size := by rw [constructs_twoStages.size]; decide
  have hlisted : twoStages.ListedAt 4 2 6 := ⟨[6], by rw [levels_twoStages]; rfl, by decide⟩
  obtain ⟨-, -, hlevels, -⟩ := levels_schedule derive_twoStages hroot
  obtain ⟨-, hbelow, hgreatest⟩ := hlevels 2 6 hlisted
  exact ⟨derive_twoStages, hroot, levels_twoStages, hlisted, hgreatest, hbelow (by decide)⟩

end ModularBuild.ArtifactGraph
