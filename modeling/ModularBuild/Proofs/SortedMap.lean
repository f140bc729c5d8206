import ModularBuild.SortedMap

/-!
# Lookups in sorted maps

What every write does to every lookup, and what a lookup says about the entries. Over a lawfully
ordered key `find?` is then all one has to know of a map: `find?_insert`, `find?_erase` and
`find?_insertAll` compute it, `mem_entries_iff` reads the entries off it, and `ext_find?` compares
maps by it.
-/

namespace ModularBuild.SortedMap

variable {κ ν : Type} [Ord κ]

/-! ## Keys that compare equal -/

theorem findIn?_congr [Std.TransOrd κ] {k q : κ} (h : compare k q = .eq) (l : List (κ × ν)) :
    findIn? k l = findIn? q l := by
  induction l with
  | nil => rfl
  | cons e l ih =>
    obtain ⟨k', v⟩ := e
    simp only [findIn?, ih, Std.TransCmp.congr_left h]

theorem find?_congr [Std.TransOrd κ] (m : SortedMap κ ν) {k q : κ} (h : compare k q = .eq) :
    m.find? k = m.find? q :=
  findIn?_congr h m.entries

/-! ## Lookups in lists of entries -/

theorem findIn?_eq_none_iff {k : κ} {l : List (κ × ν)} :
    findIn? k l = none ↔ ∀ e ∈ l, compare k e.1 ≠ .eq := by
  induction l with
  | nil => simp [findIn?]
  | cons e l ih =>
    obtain ⟨k', v⟩ := e
    by_cases h : compare k k' = .eq <;> simp [findIn?, h, ih]

theorem mem_of_findIn?_eq_some [Std.LawfulEqOrd κ] {k : κ} {v : ν} {l : List (κ × ν)}
    (h : findIn? k l = some v) : (k, v) ∈ l := by
  induction l with
  | nil => simp [findIn?] at h
  | cons e l ih =>
    obtain ⟨k', v'⟩ := e
    by_cases hk : compare k k' = .eq
    · simp only [findIn?, if_pos hk, Option.some.injEq] at h
      rw [Std.LawfulEqCmp.eq_of_compare hk, h]
      exact List.mem_cons_self
    · simp only [findIn?, if_neg hk] at h
      exact List.mem_cons_of_mem _ (ih h)

theorem findIn?_eq_some_of_mem [Std.TransOrd κ] {l : List (κ × ν)}
    (hl : l.Pairwise fun a b => compare a.1 b.1 ≠ .eq) {e : κ × ν} (he : e ∈ l) :
    findIn? e.1 l = some e.2 := by
  induction l with
  | nil => cases he
  | cons e' l ih =>
    obtain ⟨hhd, htl⟩ := List.pairwise_cons.mp hl
    rcases List.mem_cons.mp he with rfl | he
    · simp [findIn?, Std.ReflCmp.compare_self]
    · have hne : compare e.1 e'.1 ≠ .eq := fun h =>
        hhd e he (Std.OrientedCmp.eq_symm h)
      simp only [findIn?, if_neg hne]
      exact ih htl he

/-! ## Entries -/

theorem pairwise_entries (m : SortedMap κ ν) :
    m.entries.Pairwise fun a b => compare a.1 b.1 ≠ .eq :=
  m.sorted.imp fun h => by rw [h]; decide

theorem mem_entries_iff [Std.TransOrd κ] [Std.LawfulEqOrd κ] {m : SortedMap κ ν} {k : κ} {v : ν} :
    (k, v) ∈ m.entries ↔ m.find? k = some v :=
  ⟨fun h => findIn?_eq_some_of_mem m.pairwise_entries h, mem_of_findIn?_eq_some⟩

theorem mem_keys_iff [Std.TransOrd κ] [Std.LawfulEqOrd κ] {m : SortedMap κ ν} {k : κ} :
    k ∈ m.keys ↔ ∃ v, m.find? k = some v := by
  simp only [keys, List.mem_map, Prod.exists, mem_entries_iff]
  constructor
  · rintro ⟨k', v, h, rfl⟩
    exact ⟨v, h⟩
  · rintro ⟨v, h⟩
    exact ⟨k, v, h, rfl⟩

theorem nodup_keys [Std.TransOrd κ] (m : SortedMap κ ν) : m.keys.Nodup := by
  refine List.pairwise_map.mpr (m.pairwise_entries.imp fun h he => h ?_)
  rw [he]
  exact Std.ReflCmp.compare_self

/-! ## Lookups after writes -/

theorem find?_insert [Std.TransOrd κ] (m : SortedMap κ ν) (k q : κ) (v : ν) :
    (m.insert k v).find? q = if compare q k = .eq then some v else m.find? q := by
  split
  · rename_i h
    rw [find?_congr _ h, find?_insert_self]
  · exact find?_insert_of_ne m v ‹_›

theorem find?_erase [Std.TransOrd κ] (m : SortedMap κ ν) (k q : κ) :
    (m.erase k).find? q = if compare q k = .eq then none else m.find? q := by
  obtain ⟨l, hl⟩ := m
  show findIn? q (l.filter fun e => compare k e.1 != .eq) = if _ then _ else findIn? q l
  clear hl
  induction l with
  | nil => simp [findIn?]
  | cons e l ih =>
    obtain ⟨k', v⟩ := e
    by_cases hk : compare k k' = .eq
    · -- The entry goes, and only a key equal to the erased one could have found it.
      have hq : compare q k = compare q k' := Std.TransCmp.congr_right hk
      rw [List.filter_cons_of_neg (by simp [hk]), ih]
      by_cases hqk : compare q k = .eq
      · simp [hqk]
      · simp [findIn?, hqk, ← hq]
    · rw [List.filter_cons_of_pos (by simp [hk])]
      by_cases hqk' : compare q k' = .eq
      · have hqk : compare q k ≠ .eq := fun h =>
          hk (Std.TransCmp.eq_trans (Std.OrientedCmp.eq_symm h) hqk')
        simp [findIn?, hqk, hqk']
      · simp only [findIn?, if_neg hqk', ih]

/-! Over a lawfully ordered key, keys that compare equal are equal. -/

section Lawful

variable [Std.TransOrd κ] [Std.LawfulEqOrd κ] [DecidableEq κ]

theorem find?_insert_eq_ite (m : SortedMap κ ν) (k q : κ) (v : ν) :
    (m.insert k v).find? q = if q = k then some v else m.find? q := by
  simp only [find?_insert, Std.LawfulEqCmp.compare_eq_iff_eq]

theorem find?_erase_eq_ite (m : SortedMap κ ν) (k q : κ) :
    (m.erase k).find? q = if q = k then none else m.find? q := by
  simp only [find?_erase, Std.LawfulEqCmp.compare_eq_iff_eq]

theorem mem_keys_insert {m : SortedMap κ ν} {k q : κ} {v : ν} :
    q ∈ (m.insert k v).keys ↔ q = k ∨ q ∈ m.keys := by
  simp only [mem_keys_iff, find?_insert_eq_ite]
  by_cases hq : q = k <;> simp [hq]

theorem find?_insertIfNew (m : SortedMap κ ν) (k q : κ) (v : ν) :
    (m.insertIfNew k v).find? q = if q = k then some ((m.find? k).getD v) else m.find? q := by
  rw [insertIfNew, contains]
  by_cases hq : q = k
  · subst hq
    cases hfind : m.find? q <;> simp [hfind, find?_insert_eq_ite]
  · split <;> simp [hq, find?_insert_eq_ite]

theorem mem_keys_insertIfNew {m : SortedMap κ ν} {k q : κ} {v : ν} :
    q ∈ (m.insertIfNew k v).keys ↔ q = k ∨ q ∈ m.keys := by
  simp only [mem_keys_iff, find?_insertIfNew]
  by_cases hq : q = k <;> simp [hq]

end Lawful

/-- Of entries with pairwise different keys, inserted one after the other, every one is found. -/
theorem find?_insertAll [Std.TransOrd κ] (m : SortedMap κ ν) {es : List (κ × ν)}
    (hes : es.Pairwise fun a b => compare a.1 b.1 ≠ .eq) (q : κ) :
    (m.insertAll es).find? q = (findIn? q es).or (m.find? q) := by
  induction es generalizing m with
  | nil => rfl
  | cons e es ih =>
    obtain ⟨hhd, htl⟩ := List.pairwise_cons.mp hes
    show ((m.insert e.1 e.2).insertAll es).find? q = _
    rw [ih _ htl, find?_insert]
    by_cases hq : compare q e.1 = .eq
    · have hnone : findIn? q es = none := findIn?_eq_none_iff.mpr fun e' he' h =>
        hhd e' he' (Std.TransCmp.eq_trans (Std.OrientedCmp.eq_symm hq) h)
      simp [findIn?, hq, hnone]
    · simp [findIn?, hq]

theorem find?_filter [Std.TransOrd κ] [Std.LawfulEqOrd κ] (m : SortedMap κ ν) (p : κ → Bool)
    (k : κ) : (m.filter fun k _ => p k).find? k = if p k then m.find? k else none := by
  refine Option.ext fun v => ?_
  rw [Option.ite_none_right_eq_some, ← mem_entries_iff, ← mem_entries_iff, and_comm]
  exact List.mem_filter

theorem find?_mapValues [Std.TransOrd κ] [Std.LawfulEqOrd κ] {μ : Type} (m : SortedMap κ ν)
    (f : ν → μ) (k : κ) : (m.mapValues f).find? k = (m.find? k).map f := by
  refine Option.ext fun v => ?_
  rw [Option.map_eq_some_iff, ← mem_entries_iff]
  refine List.mem_map.trans ⟨?_, ?_⟩
  · rintro ⟨⟨k', v'⟩, he, heq⟩
    cases heq
    exact ⟨v', mem_entries_iff.mp he, rfl⟩
  · rintro ⟨v', hv', rfl⟩
    exact ⟨(k, v'), mem_entries_iff.mpr hv', rfl⟩

@[simp] theorem find?_empty (k : κ) : (∅ : SortedMap κ ν).find? k = none := rfl

end ModularBuild.SortedMap

namespace ModularBuild.SortedSet

section

variable {κ : Type} [Ord κ] {s : SortedSet κ} {k q : κ} {ks : List κ}

theorem pairwise_toList (s : SortedSet κ) : s.toList.Pairwise fun a b => compare a b = .lt :=
  List.pairwise_map.mpr s.sorted

theorem isSome_find?_iff : (s.find? k).isSome ↔ ∃ q ∈ s.toList, compare k q = .eq := by
  rw [Option.isSome_iff_ne_none, SortedMap.find?, ne_eq, SortedMap.findIn?_eq_none_iff]
  simp [toList, SortedMap.keys]

variable [Std.TransOrd κ]

theorem isSome_find?_addAll :
    ((s.addAll ks).find? k).isSome ↔ (∃ q ∈ ks, compare k q = .eq) ∨ (s.find? k).isSome := by
  induction ks generalizing s with
  | nil => simp [addAll]
  | cons first ks ih =>
    show (((s.add first).addAll ks).find? k).isSome ↔ _
    rw [ih, add, SortedMap.find?_insert]
    by_cases hfirst : compare k first = .eq <;> simp [hfirst]

theorem mem_toList_addAll (h : k ∈ (s.addAll ks).toList) : k ∈ ks ∨ k ∈ s.toList := by
  induction ks generalizing s with
  | nil => exact .inr h
  | cons first ks ih =>
    rcases ih (s := s.add first) h with hks | hs
    · exact .inl (List.mem_cons_of_mem _ hks)
    · obtain ⟨e, he, rfl⟩ := List.mem_map.mp hs
      rcases SortedMap.key_mem_insertEntry he with hfirst | ⟨e', he', hkey⟩
      · exact .inl (hfirst ▸ List.mem_cons_self)
      · exact .inr (hkey ▸ List.mem_map_of_mem he')

/-- A list's members are in its set, in one of the ways they are written. -/
theorem exists_mem_ofList (h : k ∈ ks) : ∃ q ∈ (ofList ks).toList, compare k q = .eq :=
  isSome_find?_iff.mp (isSome_find?_addAll.mpr (.inl ⟨k, h, Std.ReflCmp.compare_self⟩))

theorem mem_of_mem_ofList (h : k ∈ (ofList ks).toList) : k ∈ ks :=
  (mem_toList_addAll h).resolve_right List.not_mem_nil

end

theorem ext_contains {κ : Type} [Ord κ] [Std.TransOrd κ] [Std.LawfulEqOrd κ] {a b : SortedSet κ}
    (h : ∀ k, a.contains k = b.contains k) : a = b := by
  refine SortedMap.ext_find? fun k => ?_
  have hk : (a.find? k).isSome = (b.find? k).isSome := h k
  cases ha : a.find? k <;> cases hb : b.find? k <;> simp_all

end ModularBuild.SortedSet
