import ModularBuild.Proofs.Graph.TopologicalOrder
import ModularBuild.Proofs.SortedMap
import Mathlib.Data.List.Flatten

/-!
# Levels are a schedule

The levels of a target hold what it reaches, every node once (`mem_flatten_levels_iff`,
`nodup_flatten_levels`), and everything a node needs lies in a level below its own
(`mem_lower_of_needs`).
-/

namespace ModularBuild.ArtifactGraph

variable {g : ArtifactGraph} {root n d : NodeId}

/-! ## The schedule of a target -/

theorem schedule_eq_filter (root : NodeId) (h : g.Ordered) :
    ∃ order, g.toposort = .ok order ∧
      g.schedule root = order.reverse.filter ((g.reachable root).contains ·) := by
  obtain ⟨order, horder⟩ := h.order
  refine ⟨order, horder, ?_⟩
  rw [schedule, horder]

theorem mem_schedule_iff (h : g.Ordered) (hroot : root < g.nodes.size) :
    n ∈ g.schedule root ↔ g.Reaches root n := by
  obtain ⟨order, horder, heq⟩ := schedule_eq_filter root h
  rw [heq, List.mem_filter, List.mem_reverse, (toposort_spec horder).1.mem_iff, mem_ids,
    List.contains_iff_mem, mem_reachable_iff h.within hroot]
  exact ⟨fun hn => hn.2, fun hn => ⟨hn.lt_size h.within hroot, hn⟩⟩

theorem nodup_schedule (root : NodeId) (h : g.Ordered) : (g.schedule root).Nodup := by
  obtain ⟨order, horder, heq⟩ := schedule_eq_filter root h
  rw [heq]
  exact (List.nodup_reverse.mpr ((toposort_spec horder).1.nodup_iff.mpr g.nodup_ids)).filter _

theorem pairwise_schedule (root : NodeId) (h : g.Ordered) :
    (g.schedule root).Pairwise fun a b => ¬ g.Needs a b := by
  obtain ⟨order, horder, heq⟩ := schedule_eq_filter root h
  rw [heq]
  exact (List.pairwise_reverse.mpr (toposort_spec horder).2.1).filter _

theorem Ordered.not_needs_self (h : g.Ordered) (n : NodeId) : ¬ g.Needs n n := fun hn =>
  h.not_reachesStrictly_self n (.single hn)

theorem mem_before_of_needs (h : g.Ordered) (hroot : root < g.nodes.size)
    {before after : List NodeId} (hsplit : g.schedule root = before ++ n :: after)
    (hneeds : g.Needs n d) : d ∈ before := by
  have hn : g.Reaches root n := (mem_schedule_iff h hroot).mp (by simp [hsplit])
  have hd : d ∈ g.schedule root := (mem_schedule_iff h hroot).mpr (hn.tail hneeds)
  have hpair := pairwise_schedule root h
  rw [hsplit] at hd hpair
  rcases List.mem_append.mp hd with hd | hd
  · exact hd
  · rcases List.mem_cons.mp hd with rfl | hd
    · exact absurd hneeds (h.not_needs_self d)
    · have hafter := (List.pairwise_append.mp hpair).2.1
      exact absurd hneeds ((List.pairwise_cons.mp hafter).1 d hd)

/-! ## The level of a node -/

theorem le_foldl_max (l : List Nat) (b : Nat) : b ≤ l.foldl max b ∧ ∀ x ∈ l, x ≤ l.foldl max b := by
  induction l generalizing b with
  | nil => simp
  | cons y l ih =>
    obtain ⟨hb, hl⟩ := ih (max b y)
    refine ⟨Nat.le_trans (Nat.le_max_left b y) hb, fun x hx => ?_⟩
    rcases List.mem_cons.mp hx with rfl | hx
    · exact Nat.le_trans (Nat.le_max_right b x) hb
    · exact hl x hx

theorem lt_levelFrom {known : SortedMap NodeId Nat} {k : Nat} (hneeds : g.Needs n d)
    (hd : known.find? d = some k) : k < g.levelFrom known n :=
  (le_foldl_max _ 0).2 _ (List.mem_filterMap.mpr ⟨d, hneeds, by simp [hd]⟩)

/-- Levelling more nodes does not change the level of any other. -/
theorem find?_levelMap_append {before after : List NodeId} (hd : d ∉ after) :
    (g.levelMap (before ++ after)).find? d = (g.levelMap before).find? d := by
  unfold levelMap
  rw [List.foldl_append]
  generalize before.foldl _ _ = known
  induction after generalizing known with
  | nil => rfl
  | cons m after ih =>
    rw [List.mem_cons, not_or] at hd
    rw [List.foldl_cons, ih hd.2, SortedMap.find?_insert_eq_ite, if_neg hd.1]

theorem find?_levelMap_of_split {before after : List NodeId} (hn : n ∉ after) :
    (g.levelMap (before ++ n :: after)).find? n = some (g.levelFrom (g.levelMap before) n) := by
  have hsplit : before ++ n :: after = (before ++ [n]) ++ after := by simp
  rw [hsplit, find?_levelMap_append hn]
  unfold levelMap
  rw [List.foldl_append, List.foldl_cons, List.foldl_nil, SortedMap.find?_insert_eq_ite, if_pos rfl]

theorem find?_levelMap_schedule (h : g.Ordered) (hn : n ∈ g.schedule root) :
    ∃ k, (g.levelMap (g.schedule root)).find? n = some k := by
  obtain ⟨before, after, hsplit⟩ := List.append_of_mem hn
  have hnodup := nodup_schedule root h
  rw [hsplit] at hnodup
  rw [hsplit]
  exact ⟨_, find?_levelMap_of_split
    (List.nodup_cons.mp (List.nodup_append.mp hnodup).2.1).1⟩

/-- A node's level is above the level of everything it needs. -/
theorem level_lt_of_needs (h : g.Ordered) (hroot : root < g.nodes.size)
    (hn : n ∈ g.schedule root) (hneeds : g.Needs n d) {j k : Nat}
    (hj : (g.levelMap (g.schedule root)).find? d = some j)
    (hk : (g.levelMap (g.schedule root)).find? n = some k) : j < k := by
  -- The dependency had its level when that of the node was chosen, and both have kept it since.
  obtain ⟨before, after, hsplit⟩ := List.append_of_mem hn
  have hnodup := nodup_schedule root h
  have hd := mem_before_of_needs h hroot hsplit hneeds
  rw [hsplit] at hnodup hj hk
  have hdrest : d ∉ n :: after := fun hmem =>
    (List.nodup_append.mp hnodup).2.2 d hd d hmem rfl
  have hafter := (List.nodup_cons.mp (List.nodup_append.mp hnodup).2.1).1
  rw [find?_levelMap_append hdrest] at hj
  rw [find?_levelMap_of_split hafter] at hk
  cases hk
  exact lt_levelFrom hneeds hj

/-! ## The levels -/

/-- Whether a node lies in the level of a number. -/
def InLevel (g : ArtifactGraph) (root : NodeId) (k : Nat) (n : NodeId) : Prop :=
  n ∈ g.schedule root ∧ (g.levelMap (g.schedule root)).find? n = some k

theorem mem_getElem_levels_iff {k : Nat} (hk : k < (g.levels root).length) :
    n ∈ (g.levels root)[k] ↔ g.InLevel root k n := by
  simp [levels, InLevel, List.mem_mergeSort]

theorem nodup_of_mem_levels (h : g.Ordered) {level : List NodeId} (hlevel : level ∈ g.levels root) :
    level.Nodup := by
  simp only [levels, List.mem_map, List.mem_range] at hlevel
  obtain ⟨k, -, rfl⟩ := hlevel
  exact (List.mergeSort_perm _ _).nodup_iff.mpr ((nodup_schedule root h).filter _)

theorem lt_length_levels {k : Nat} (h : g.InLevel root k n) : k < (g.levels root).length := by
  have hentry := SortedMap.mem_entries_iff.mpr h.2
  have hk : k + 1 ∈ (g.levelMap (g.schedule root)).values.map (· + 1) :=
    List.mem_map_of_mem (List.mem_map.mpr ⟨_, hentry, rfl⟩)
  have hle := (le_foldl_max _ 0).2 _ hk
  rw [levels, List.length_map, List.length_range]
  exact hle

theorem mem_flatten_levels_iff (h : g.Ordered) (hroot : root < g.nodes.size) :
    n ∈ (g.levels root).flatten ↔ g.Reaches root n := by
  rw [← mem_schedule_iff h hroot, List.mem_flatten]
  constructor
  · rintro ⟨level, hlevel, hn⟩
    obtain ⟨k, hk, rfl⟩ := List.getElem_of_mem hlevel
    exact ((mem_getElem_levels_iff hk).mp hn).1
  · intro hn
    obtain ⟨k, hk⟩ := find?_levelMap_schedule h hn
    exact ⟨_, List.getElem_mem (lt_length_levels ⟨hn, hk⟩),
      (mem_getElem_levels_iff _).mpr ⟨hn, hk⟩⟩

theorem nodup_flatten_levels (root : NodeId) (h : g.Ordered) :
    (g.levels root).flatten.Nodup := by
  refine List.nodup_flatten.mpr ⟨fun level hlevel => nodup_of_mem_levels h hlevel, ?_⟩
  refine List.pairwise_iff_getElem.mpr fun i j hi hj hij x hxi hxj => ?_
  have hi := ((mem_getElem_levels_iff hi).mp hxi).2
  rw [((mem_getElem_levels_iff hj).mp hxj).2] at hi
  cases hi
  exact Nat.lt_irrefl _ hij

theorem mem_lower_of_needs (h : g.Ordered) (hroot : root < g.nodes.size)
    {lower upper : List (List NodeId)} {level : List NodeId}
    (hlevels : g.levels root = lower ++ level :: upper) (hn : n ∈ level) (hneeds : g.Needs n d) :
    d ∈ lower.flatten := by
  -- The number of a level is how many levels are below it.
  have hlength : lower.length < (g.levels root).length := by simp [hlevels]
  have hnlevel : g.InLevel root lower.length n :=
    (mem_getElem_levels_iff hlength).mp (by simp [hlevels, hn])
  have hreach := (mem_schedule_iff h hroot).mp hnlevel.1
  have hd : d ∈ g.schedule root := (mem_schedule_iff h hroot).mpr (hreach.tail hneeds)
  obtain ⟨j, hj⟩ := find?_levelMap_schedule h hd
  have hlt := level_lt_of_needs h hroot hnlevel.1 hneeds hj hnlevel.2
  have hmem := (mem_getElem_levels_iff (lt_length_levels ⟨hd, hj⟩)).mpr ⟨hd, hj⟩
  simp only [hlevels, List.getElem_append_left hlt] at hmem
  exact List.mem_flatten.mpr ⟨_, List.getElem_mem hlt, hmem⟩

/-- In the levels, read one after the other, everything a node needs comes before it. -/
theorem mem_before_of_needs_levels (h : g.Ordered) (hroot : root < g.nodes.size)
    {before after : List NodeId} (hsplit : (g.levels root).flatten = before ++ n :: after)
    (hneeds : g.Needs n d) : d ∈ before := by
  have hn : n ∈ (g.levels root).flatten := by
    rw [hsplit]
    exact List.mem_append_right _ List.mem_cons_self
  obtain ⟨level, hlevel, hnlevel⟩ := List.mem_flatten.mp hn
  obtain ⟨lower, upper, hlevels⟩ := List.append_of_mem hlevel
  have hd := mem_lower_of_needs h hroot hlevels hnlevel hneeds
  have hnodup := nodup_flatten_levels root h
  rw [hlevels, List.flatten_append, List.flatten_cons] at hsplit hnodup
  have hnlower : n ∉ lower.flatten := fun hmem =>
    (List.nodup_append.mp hnodup).2.2 _ hmem _ (List.mem_append_left _ hnlevel) rfl
  -- The node is in its level, so the split is not among the levels below.
  rcases List.append_eq_append_iff.mp hsplit with ⟨between, hbefore, -⟩ | ⟨between, hlower, hrest⟩
  · rw [hbefore]
    exact List.mem_append_left _ hd
  · cases between with
    | nil => rwa [hlower, List.append_nil] at hd
    | cons m between =>
      cases hrest
      rw [hlower] at hnlower
      exact absurd (List.mem_append_right _ List.mem_cons_self) hnlower

/-- In the levels, read one after the other, nothing needs what comes after it. -/
theorem not_needs_of_mem_before (h : g.Ordered) (hroot : root < g.nodes.size)
    {before after : List NodeId} (hsplit : (g.levels root).flatten = before ++ n :: after)
    {m : NodeId} (hm : m ∈ before) : ¬ g.Needs m n := by
  intro hneeds
  obtain ⟨first, second, hbefore⟩ := List.append_of_mem hm
  have hsplit' : (g.levels root).flatten = first ++ m :: (second ++ n :: after) := by
    rw [hsplit, hbefore, List.append_assoc]
    rfl
  have hn : n ∈ first := mem_before_of_needs_levels h hroot hsplit' hneeds
  have hnodup := nodup_flatten_levels root h
  rw [hsplit] at hnodup
  refine (List.nodup_append.mp hnodup).2.2 n ?_ n List.mem_cons_self rfl
  rw [hbefore]
  exact List.mem_append_left _ hn

end ModularBuild.ArtifactGraph
