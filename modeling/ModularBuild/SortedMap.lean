/-!
# Sorted maps

A finite map kept as the list of its entries in strictly ascending key order. Two keys that compare
equal are one key: writing to it again replaces the value and keeps the key as it was first
written, which matters for keys, such as paths, that have several spellings.

`find?_insert_self` and `find?_insert_of_ne` say what an insertion does to a lookup, and `ext_find?`
that a map over a lawfully ordered key is determined by its lookups.
-/

namespace ModularBuild

/-- A finite map in ascending key order. -/
structure SortedMap (κ ν : Type) [Ord κ] where
  entries : List (κ × ν)
  sorted : entries.Pairwise fun a b => compare a.1 b.1 = .lt

/-- A finite set in ascending order. -/
abbrev SortedSet (κ : Type) [Ord κ] : Type := SortedMap κ Unit

namespace SortedMap

variable {κ ν μ : Type} [Ord κ]

instance [DecidableEq κ] [DecidableEq ν] : DecidableEq (SortedMap κ ν) := fun a b =>
  if h : a.entries = b.entries then isTrue (by cases a; cases b; cases h; rfl)
  else isFalse fun e => h (e ▸ rfl)

instance : EmptyCollection (SortedMap κ ν) := ⟨⟨[], .nil⟩⟩

instance : Inhabited (SortedMap κ ν) := ⟨∅⟩

/-! ## Looking up -/

/-- The value of the first entry whose key compares equal to `k`. -/
def findIn? (k : κ) : List (κ × ν) → Option ν
  | [] => none
  | (k', v) :: rest => if compare k k' = .eq then some v else findIn? k rest

def find? (m : SortedMap κ ν) (k : κ) : Option ν := findIn? k m.entries

def contains (m : SortedMap κ ν) (k : κ) : Bool := (m.find? k).isSome

/-- The keys, ascending. -/
def keys (m : SortedMap κ ν) : List κ := m.entries.map (·.1)

/-- The values, in ascending order of their keys. -/
def values (m : SortedMap κ ν) : List ν := m.entries.map (·.2)

def size (m : SortedMap κ ν) : Nat := m.entries.length

def isEmpty (m : SortedMap κ ν) : Bool := m.entries.isEmpty

/-! ## Writing -/

/-- Puts an entry in its place; an entry with an equal key keeps its key and takes the value. -/
def insertEntry (k : κ) (v : ν) : List (κ × ν) → List (κ × ν)
  | [] => [(k, v)]
  | (k', v') :: rest =>
    match compare k k' with
    | .lt => (k, v) :: (k', v') :: rest
    | .eq => (k', v) :: rest
    | .gt => (k', v') :: insertEntry k v rest

theorem key_mem_insertEntry {k : κ} {v : ν} {e : κ × ν} {l : List (κ × ν)}
    (h : e ∈ insertEntry k v l) : e.1 = k ∨ ∃ e' ∈ l, e'.1 = e.1 := by
  induction l with
  | nil => simp [insertEntry] at h; simp [h]
  | cons hd tl ih =>
    obtain ⟨k', v'⟩ := hd
    unfold insertEntry at h
    split at h
    · rcases List.mem_cons.mp h with rfl | h
      · exact .inl rfl
      · exact .inr ⟨e, h, rfl⟩
    · rcases List.mem_cons.mp h with rfl | h
      · exact .inr ⟨(k', v'), by simp, rfl⟩
      · exact .inr ⟨e, by simp [h], rfl⟩
    · rcases List.mem_cons.mp h with rfl | h
      · exact .inr ⟨(k', v'), by simp, rfl⟩
      · rcases ih h with h | ⟨e', he', h⟩
        · exact .inl h
        · exact .inr ⟨e', by simp [he'], h⟩

theorem sorted_insertEntry [Std.TransOrd κ] (k : κ) (v : ν) {l : List (κ × ν)}
    (h : l.Pairwise fun a b => compare a.1 b.1 = .lt) :
    (insertEntry k v l).Pairwise fun a b => compare a.1 b.1 = .lt := by
  induction l with
  | nil => simp [insertEntry]
  | cons hd tl ih =>
    obtain ⟨k', v'⟩ := hd
    obtain ⟨hhd, htl⟩ := List.pairwise_cons.mp h
    unfold insertEntry
    split
    · rename_i hlt
      refine List.pairwise_cons.mpr ⟨fun e he => ?_, h⟩
      rcases List.mem_cons.mp he with rfl | he
      · exact hlt
      · exact Std.TransCmp.lt_trans hlt (hhd e he)
    · exact List.pairwise_cons.mpr ⟨hhd, htl⟩
    · rename_i hgt
      refine List.pairwise_cons.mpr ⟨fun e he => ?_, ih htl⟩
      rcases key_mem_insertEntry he with rfl | ⟨e', he', hk⟩
      · exact Std.OrientedCmp.lt_of_gt hgt
      · exact hk ▸ hhd e' he'

def insert [Std.TransOrd κ] (m : SortedMap κ ν) (k : κ) (v : ν) : SortedMap κ ν :=
  ⟨insertEntry k v m.entries, sorted_insertEntry k v m.sorted⟩

/-- Writes `v` only where the key is not there yet. -/
def insertIfNew [Std.TransOrd κ] (m : SortedMap κ ν) (k : κ) (v : ν) : SortedMap κ ν :=
  if m.contains k then m else m.insert k v

/-- Inserts entries one after the other, later ones winning. -/
def insertAll [Std.TransOrd κ] (m : SortedMap κ ν) (es : List (κ × ν)) : SortedMap κ ν :=
  es.foldl (fun m e => m.insert e.1 e.2) m

def ofList [Std.TransOrd κ] (es : List (κ × ν)) : SortedMap κ ν := insertAll ∅ es

def erase (m : SortedMap κ ν) (k : κ) : SortedMap κ ν :=
  ⟨m.entries.filter fun e => compare k e.1 != .eq, m.sorted.filter _⟩

/-- Keeps the entries that satisfy `p`. -/
def filter (m : SortedMap κ ν) (p : κ → ν → Bool) : SortedMap κ ν :=
  ⟨m.entries.filter fun e => p e.1 e.2, m.sorted.filter _⟩

def mapValues (m : SortedMap κ ν) (f : ν → μ) : SortedMap κ μ :=
  ⟨m.entries.map fun e => (e.1, f e.2), List.pairwise_map.mpr m.sorted⟩

/-! ## Lookups after writes -/

theorem findIn?_insertEntry_self [Std.TransOrd κ] (k : κ) (v : ν) (l : List (κ × ν)) :
    findIn? k (insertEntry k v l) = some v := by
  induction l with
  | nil => simp [insertEntry, findIn?, Std.ReflCmp.compare_self]
  | cons hd tl ih =>
    obtain ⟨k', v'⟩ := hd
    unfold insertEntry
    split
    · simp [findIn?, Std.ReflCmp.compare_self]
    · rename_i h; simp [findIn?, h]
    · rename_i h; simp [findIn?, h, ih]

theorem findIn?_insertEntry_of_ne [Std.TransOrd κ] {k q : κ} (v : ν) (hne : compare q k ≠ .eq)
    (l : List (κ × ν)) : findIn? q (insertEntry k v l) = findIn? q l := by
  induction l with
  | nil => simp [insertEntry, findIn?, hne]
  | cons hd tl ih =>
    obtain ⟨k', v'⟩ := hd
    unfold insertEntry
    split
    · simp [findIn?, hne]
    · rename_i h
      have : compare q k' ≠ .eq := fun e =>
        hne (Std.TransCmp.eq_trans e (Std.OrientedCmp.eq_symm h))
      simp [findIn?, this]
    · simp [findIn?, ih]

theorem find?_insert_self [Std.TransOrd κ] (m : SortedMap κ ν) (k : κ) (v : ν) :
    (m.insert k v).find? k = some v := findIn?_insertEntry_self k v m.entries

theorem find?_insert_of_ne [Std.TransOrd κ] (m : SortedMap κ ν) {k q : κ} (v : ν)
    (h : compare q k ≠ .eq) : (m.insert k v).find? q = m.find? q :=
  findIn?_insertEntry_of_ne v h m.entries

/-! ## Extensionality -/

theorem findIn?_eq_none_of_lt [Std.TransOrd κ] {k : κ} {l : List (κ × ν)}
    (h : ∀ e ∈ l, compare k e.1 = .lt) : findIn? k l = none := by
  induction l with
  | nil => rfl
  | cons hd tl ih =>
    have hhd := h hd (by simp)
    simp [findIn?, hhd, ih fun e he => h e (by simp [he])]

theorem eq_of_findIn?_eq [Std.TransOrd κ] [Std.LawfulEqOrd κ] {l l' : List (κ × ν)}
    (hl : l.Pairwise fun a b => compare a.1 b.1 = .lt)
    (hl' : l'.Pairwise fun a b => compare a.1 b.1 = .lt)
    (h : ∀ k, findIn? k l = findIn? k l') : l = l' := by
  induction l generalizing l' with
  | nil =>
    cases l' with
    | nil => rfl
    | cons e _ => have := h e.1; simp [findIn?, Std.ReflCmp.compare_self] at this
  | cons e tl ih =>
    cases l' with
    | nil => have := h e.1; simp [findIn?, Std.ReflCmp.compare_self] at this
    | cons e' tl' =>
      obtain ⟨hhd, htl⟩ := List.pairwise_cons.mp hl
      obtain ⟨hhd', htl'⟩ := List.pairwise_cons.mp hl'
      have hself : findIn? e.1 (e' :: tl') = some e.2 := by
        rw [← h]; simp [findIn?, Std.ReflCmp.compare_self]
      have hself' : findIn? e'.1 (e :: tl) = some e'.2 := by
        rw [h]; simp [findIn?, Std.ReflCmp.compare_self]
      have hkey : compare e.1 e'.1 = .eq := by
        cases hc : compare e.1 e'.1 with
        | eq => rfl
        | lt =>
          have := findIn?_eq_none_of_lt (k := e.1) (l := e' :: tl') (by
            intro x hx
            rcases List.mem_cons.mp hx with rfl | hx
            · exact hc
            · exact Std.TransCmp.lt_trans hc (hhd' x hx))
          simp [this] at hself
        | gt =>
          have hc' := Std.OrientedCmp.lt_of_gt hc
          have := findIn?_eq_none_of_lt (k := e'.1) (l := e :: tl) (by
            intro x hx
            rcases List.mem_cons.mp hx with rfl | hx
            · exact hc'
            · exact Std.TransCmp.lt_trans hc' (hhd x hx))
          simp [this] at hself'
      have hk : e.1 = e'.1 := Std.LawfulEqCmp.eq_of_compare hkey
      have hv : e.2 = e'.2 := by simpa [findIn?, hkey] using hself.symm
      have he : e = e' := Prod.ext hk hv
      subst he
      refine congrArg (e :: ·) (ih htl htl' fun k => ?_)
      by_cases hc : compare k e.1 = .eq
      · have hke := Std.LawfulEqCmp.eq_of_compare hc
        subst hke
        rw [findIn?_eq_none_of_lt hhd, findIn?_eq_none_of_lt hhd']
      · simpa [findIn?, hc] using h k

theorem ext_find? [Std.TransOrd κ] [Std.LawfulEqOrd κ] {a b : SortedMap κ ν}
    (h : ∀ k, a.find? k = b.find? k) : a = b := by
  obtain ⟨l, hl⟩ := a
  obtain ⟨l', hl'⟩ := b
  have : l = l' := eq_of_findIn?_eq hl hl' h
  subst this
  rfl

end SortedMap

namespace SortedSet

variable {κ : Type} [Ord κ]

/-- The members, ascending. -/
def toList (s : SortedSet κ) : List κ := s.keys

/-- Adds a member; one that compares equal stays as it is. -/
def add [Std.TransOrd κ] (s : SortedSet κ) (k : κ) : SortedSet κ := s.insert k ()

/-- Adds members one after the other. -/
def addAll [Std.TransOrd κ] (s : SortedSet κ) (ks : List κ) : SortedSet κ := ks.foldl add s

def ofList [Std.TransOrd κ] (ks : List κ) : SortedSet κ := addAll ∅ ks

end SortedSet

end ModularBuild
