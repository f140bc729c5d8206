import ModularBuild.Proofs.Path.Join

/-!
# What paths resolve to

A path is inside if it never climbs above where it starts and ends below it. A file of a module is
inside exactly if the module's text leads to a directory without climbing above the root, and the
file name goes on from there to something below the root (`isInside_pathInModule_iff`). A path that
is not inside is absolute, or climbs, or ends where it starts (`isOutside_iff`).

A path has a normal form unless it is absolute or climbs, and the normal form stands for the path
wherever something is appended to it (`normalize?_exact`).
-/

namespace ModularBuild

/-- Whether a component leads further down, to something of this name. -/
def Component.isName : Component → Bool
  | .normal _ => true
  | .root | .current | .parent => false

namespace Path

variable {p q : Path} {name : String} {base names onto : List String} {cs ds : List Component}

/-! ## Paths that stay inside -/

/-- The path never climbs above where it starts, and ends below it. -/
def IsInside (p : Path) : Prop := p.normalizeInside?.isSome

instance (p : Path) : Decidable p.IsInside := inferInstanceAs (Decidable (_ = true))

/-- A normal form below the root consists of names, at least one. -/
theorem exists_names_of_normalizeInside? (h : q.normalizeInside? = some p) :
    ∃ names, names ≠ [] ∧ (∀ name ∈ names, IsName name) ∧ p = ofNames names := by
  obtain ⟨hnormal, hempty⟩ := Option.filter_eq_some_iff.mp h
  obtain ⟨names, hnames, rfl⟩ := exists_names_of_normalize? hnormal
  refine ⟨names, ?_, hnames, rfl⟩
  rintro rfl
  cases hempty

theorem isName_of_normalizeOnto (h : normalizeOnto [] p.components = some names) :
    ∀ name ∈ names, IsName name := by
  intro name hname
  rcases mem_of_normalizeOnto h hname with hnil | hmem
  · cases hnil
  · exact isName_of_mem_components hmem

theorem isInside_iff : p.IsInside ↔ ∃ names, normalizeOnto [] p.components = some names ∧
    names ≠ [] := by
  unfold IsInside normalizeInside? normalize?
  cases hnames : normalizeOnto [] p.components with
  | none => simp
  | some names =>
    have hempty : (ofNames names.reverse).isEmpty ↔ names.reverse = [] :=
      isEmpty_ofNames_iff fun name hname =>
        isName_of_normalizeOnto hnames name (List.mem_reverse.mp hname)
    simp only [List.reverse_eq_nil_iff] at hempty
    simp [Option.filter, ← hempty]

theorem IsInside.not_isAbsolute (h : p.IsInside) : ¬ p.isAbsolute := by
  intro habsolute
  obtain ⟨names, hnames, -⟩ := isInside_iff.mp h
  rw [normalizeOnto_of_isAbsolute habsolute] at hnames
  cases hnames

theorem normalizeOnto_pathInModule {module : String} :
    normalizeOnto onto (pathInModule module name).components =
      (normalizeOnto onto (Path.mk module).components).bind fun names =>
        normalizeOnto names (Path.mk name).components := by
  unfold pathInModule
  by_cases hroot : module = "" ∨ module = "."
  · rw [if_pos (by simpa using hroot)]
    rcases hroot with rfl | rfl <;> rfl
  · rw [if_neg (by simpa using hroot)]
    exact normalizeOnto_join

/-- A file of a module is inside exactly if the module's text leads to a directory without climbing
above the root, and the file name goes on from there, without climbing above the root, to something
below it. -/
theorem isInside_pathInModule_iff {module : String} : (pathInModule module name).IsInside ↔
    ∃ directory, normalizeOnto [] (Path.mk module).components = some directory ∧
      ∃ names, normalizeOnto directory (Path.mk name).components = some names ∧ names ≠ [] := by
  simp only [isInside_iff, normalizeOnto_pathInModule, Option.bind_eq_some_iff]
  constructor
  · rintro ⟨names, ⟨directory, hdirectory, hnames⟩, hne⟩
    exact ⟨directory, hdirectory, names, hnames, hne⟩
  · rintro ⟨directory, hdirectory, names, hnames, hne⟩
    exact ⟨names, ⟨directory, hdirectory, hnames⟩, hne⟩

/-! ## Paths that lead outside -/

/-- How much further below its start a path leads by one more component. -/
def step : Component → Int
  | .normal _ => 1
  | .parent => -1
  | .root | .current => 0

/-- How far below their start components lead; less than nothing is above it. -/
def depth : List Component → Int
  | [] => 0
  | c :: cs => step c + depth cs

/-- On the way the path is above where it starts. -/
def Climbs (p : Path) : Prop := ∃ way, way <+: p.components ∧ depth way < 0

/-- A path that leads to nothing below the root. -/
inductive IsOutside (p : Path) : Prop
  | absolute (h : p.isAbsolute)
  | climbs (h : p.Climbs)
  | root (h : p.normalize? = some ⟨""⟩)

/-- The components that lead on do not depend on which piece is the first. -/
theorem filter_components (p : Path) :
    p.components.filter (fun c => c ≠ .root && c ≠ .current) =
      (pieces '/' p.text.toList).filterMap component? := by
  have hinner : ∀ piece c, component? piece = some c → c ≠ .root ∧ c ≠ .current := by
    intro piece c hc
    unfold component? at hc
    split at hc <;> cases hc <;> simp
  have hrest : ∀ ps : List (List Char),
      (ps.filterMap component?).filter (fun c => c ≠ .root && c ≠ .current) =
        ps.filterMap component? := by
    intro ps
    refine List.filter_eq_self.mpr fun c hc => ?_
    obtain ⟨piece, -, hpiece⟩ := List.mem_filterMap.mp hc
    simpa using hinner piece c hpiece
  cases hpieces : pieces '/' p.text.toList with
  | nil => exact absurd hpieces pieces_ne_nil
  | cons first rest =>
    have hcomponents : p.components = (firstComponent? rest.isEmpty first).toList ++
        rest.filterMap component? := by
      rw [components_of_pieces hpieces]
    have hfirst : (firstComponent? rest.isEmpty first).toList.filter
        (fun c => c ≠ .root && c ≠ .current) = (component? first).toList := by
      unfold firstComponent?
      split
      · cases rest <;> rfl
      · rfl
      · cases hc : component? first with
        | none => rfl
        | some c => simp [hinner first c hc]
    rw [hcomponents, List.filter_append, hfirst, hrest, List.filterMap_cons]
    cases component? first <;> rfl

theorem normalizeOnto_eq_none_iff (h : .root ∉ cs) : normalizeOnto onto cs = none ↔
    ∃ way, way <+: cs ∧ (onto.length : Int) + depth way < 0 := by
  -- The first component is on every way but the empty one, and that one leads nowhere above.
  have hcons : ∀ (c : Component) (cs : List Component) (k : Int), 0 ≤ k →
      ((∃ way, way <+: c :: cs ∧ k + depth way < 0) ↔
        ∃ way, way <+: cs ∧ k + step c + depth way < 0) := by
    intro c cs k hk
    have hdepth : ∀ way, k + depth (c :: way) = k + step c + depth way := fun way => by
      rw [depth, Int.add_assoc]
    constructor
    · rintro ⟨way, hway, hlt⟩
      rcases List.prefix_cons_iff.mp hway with rfl | ⟨rest, rfl, hrest⟩
      · exact absurd hlt (Int.not_lt.mpr (by simpa [depth] using hk))
      · exact ⟨rest, hrest, hdepth rest ▸ hlt⟩
    · rintro ⟨way, hway, hlt⟩
      exact ⟨c :: way, List.cons_prefix_cons.mpr ⟨rfl, hway⟩, hdepth way ▸ hlt⟩
  induction onto, cs using normalizeOnto.induct with
  | case1 onto =>
    refine iff_of_false (Option.some_ne_none _) fun h => ?_
    obtain ⟨way, hway, hlt⟩ := h
    rw [List.prefix_nil.mp hway] at hlt
    exact absurd hlt (Int.not_lt.mpr (by simp [depth]))
  | case2 onto cs => exact absurd List.mem_cons_self h
  | case4 cs => exact ⟨fun _ => ⟨[.parent], ⟨cs, rfl⟩, by simp [depth, step]⟩, fun _ => rfl⟩
  | case3 onto cs ih | case5 top onto cs ih | case6 onto top cs ih =>
    rw [normalizeOnto, hcons _ _ _ (by omega)]
    refine (ih fun hmem => h (List.mem_cons_of_mem _ hmem)).trans ?_
    simp [step, Int.add_neg_cancel_right]

/-! ## Normal forms -/

/-- The depth is the number of names less that of the `..`. -/
theorem depth_eq (way : List Component) :
    depth way = (way.countP (·.isName) : Int) - way.count .parent := by
  induction way with
  | nil => rfl
  | cons c way ih =>
    rw [depth, ih]
    cases c <;> simp [step, Component.isName] <;> omega

/-- A path climbs if on the way there are more `..` than names. -/
theorem climbs_iff : p.Climbs ↔
    ∃ way, way <+: p.components ∧ way.countP (·.isName) < way.count .parent := by
  refine exists_congr fun way => and_congr_right fun _ => ?_
  rw [depth_eq]
  omega

theorem normalize?_eq_none_iff : p.normalize? = none ↔ p.isAbsolute ∨ p.Climbs := by
  rw [normalize?, Option.map_eq_none_iff]
  by_cases habsolute : p.isAbsolute
  · exact iff_of_true (normalizeOnto_of_isAbsolute habsolute) (.inl habsolute)
  · rw [normalizeOnto_eq_none_iff (notMem_root_components habsolute), or_iff_right habsolute]
    simp [Climbs]

theorem normalize?_eq_some_iff : p.normalize? = some q ↔
    ∃ names, normalizeOnto [] p.components = some names ∧ q = ofNames names.reverse := by
  rw [normalize?, Option.map_eq_some_iff]
  exact exists_congr fun names => and_congr_right fun _ => eq_comm

theorem normalizeOnto_normalForm (h : normalizeOnto [] p.components = some names) :
    normalizeOnto [] (ofNames names.reverse).components = some names := by
  have hnames : ∀ name ∈ names.reverse, IsName name := fun name hname =>
    isName_of_normalizeOnto h name (List.mem_reverse.mp hname)
  rw [components_ofNames hnames, normalizeOnto_map_normal, List.reverse_reverse, List.append_nil]

theorem normalize?_join (h : p.normalize? = some q) (r : Path) :
    (p / r).normalize? = (q / r).normalize? := by
  obtain ⟨names, hnames, rfl⟩ := normalize?_eq_some_iff.mp h
  rw [normalize?, normalize?, normalizeOnto_join, normalizeOnto_join, hnames,
    normalizeOnto_normalForm hnames]

theorem normalize?_join_eq_none (h : p.normalize? = none) (r : Path) :
    (p / r).normalize? = none := by
  rw [normalize?, Option.map_eq_none_iff] at h ⊢
  rw [normalizeOnto_join, h]
  rfl

/-- A path is inside unless it is absolute, climbs, or ends where it starts. -/
theorem isOutside_iff : p.IsOutside ↔ ¬ p.IsInside := by
  have hcases : p.IsOutside ↔ (p.isAbsolute ∨ p.Climbs) ∨ p.normalize? = some ⟨""⟩ := by
    constructor
    · rintro (habsolute | hclimbs | hroot)
      · exact .inl (.inl habsolute)
      · exact .inl (.inr hclimbs)
      · exact .inr hroot
    · rintro ((habsolute | hclimbs) | hroot)
      · exact .absolute habsolute
      · exact .climbs hclimbs
      · exact .root hroot
  rw [hcases, ← normalize?_eq_none_iff, IsInside, normalizeInside?]
  cases hnormal : p.normalize? with
  | none => simp
  | some q =>
    have hempty : q.isEmpty ↔ q = ⟨""⟩ := by
      cases q
      simp [isEmpty]
    simp [Option.filter, ← hempty]

instance (p : Path) : Decidable p.IsOutside := decidable_of_iff _ isOutside_iff.symm

theorem isNormal_iff :
    p.IsNormal ↔ ∃ names : List String, p.components = names.map .normal := by
  constructor
  · rintro ⟨q, hq, hsame⟩
    obtain ⟨names, hnames, rfl⟩ := exists_names_of_normalize? hq
    exact ⟨names, hsame.trans (components_ofNames hnames)⟩
  · rintro ⟨names, hcomponents⟩
    have hnames : ∀ name ∈ names, IsName name := fun name hname =>
      isName_of_mem_components (p := p) (by rw [hcomponents]; exact List.mem_map_of_mem hname)
    refine ⟨ofNames names, normalize?_eq_some_iff.mpr ⟨names.reverse, ?_, ?_⟩, ?_⟩
    · rw [hcomponents, normalizeOnto_map_normal, List.append_nil]
    · rw [List.reverse_reverse]
    · rw [Same, hcomponents, components_ofNames hnames]

/-- A path of names that stands for another: it is left as it is, and what is appended to either of
the two resolves to the same. -/
structure NormalForm (p q : Path) : Prop where
  names : ∃ names : List String, q.components = names.map .normal
  fixed : q.normalize? = some q
  join : ∀ r, (p / r).normalize? = (q / r).normalize?

/-- **Lexical normalization is exact.** It gives nothing exactly if the path is absolute or, at some
point of the way, has more `..` than names before it; then there is nothing to be had by appending
to the path either. Otherwise what it gives is a normal form of the path, which is the path itself,
up to its spelling, exactly if that consists of names. -/
theorem normalize?_exact (p : Path) :
    (p.normalize? = none ↔ p.isAbsolute ∨
      ∃ way, way <+: p.components ∧ way.countP (·.isName) < way.count .parent) ∧
    (∀ q, p.normalize? = some q → NormalForm p q) ∧
    (p.normalize? = none → ∀ r, (p / r).normalize? = none) ∧
    (p.IsNormal ↔ ∃ names : List String, p.components = names.map .normal) := by
  refine ⟨?_, fun q hq => ⟨?names, normalize?_idempotent hq, normalize?_join hq⟩,
    normalize?_join_eq_none, isNormal_iff⟩
  · rw [normalize?_eq_none_iff, climbs_iff]
  case names =>
    obtain ⟨names, hnames, rfl⟩ := exists_names_of_normalize? hq
    exact ⟨names, components_ofNames hnames⟩

/-- A detour is left out, and a path that climbs on its way stays without a normal form. -/
theorem normalize?_exact_detour :
    (⟨"./data//../B/maketable/"⟩ : Path).normalize? = some ⟨"B/maketable"⟩ ∧
      NormalForm ⟨"./data//../B/maketable/"⟩ ⟨"B/maketable"⟩ ∧
      (⟨"A/../../etc"⟩ : Path).normalize? = none ∧
      ∀ r : Path, ((⟨"A/../../etc"⟩ : Path) / r).normalize? = none := by
  have hdetour : (⟨"./data//../B/maketable/"⟩ : Path).normalize? = some ⟨"B/maketable"⟩ := by decide
  have hclimbs : (⟨"A/../../etc"⟩ : Path).normalize? = none :=
    (normalize?_exact _).1.mpr (.inr ⟨[.normal "A", .parent, .parent], by decide, by decide⟩)
  exact ⟨hdetour, (normalize?_exact _).2.1 _ hdetour, hclimbs, (normalize?_exact _).2.2.1 hclimbs⟩

end Path

end ModularBuild
