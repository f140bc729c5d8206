import ModularBuild.Module.Path
import ModularBuild.Path.Relative
import ModularBuild.Proofs.Path.Normalize

/-!
# Paths put together

The pieces of a path that is appended come after those of the path before it
(`exists_pieces_join`), so resolving the whole is resolving one after the other
(`normalizeOnto_join`). The components of a relative path that is appended are the last ones
(`components_join`), and where they are names they lead there from the path before them
(`MadeOf.relativeTo`). A path has the components of its spelling with slashes (`components_toSlash`).
-/

namespace ModularBuild

namespace Path

variable {p q : Path} {name : String} {base names onto : List String} {cs ds : List Component}

/-! ## Absolute paths -/

/-- A path is absolute if its first piece is empty and not the only one. -/
theorem isAbsolute_iff : p.isAbsolute ↔
    ∃ rest, rest ≠ [] ∧ pieces '/' p.text.toList = [] :: rest := by
  have hhead : p.isAbsolute ↔ p.text.toList.head? = some '/' := decide_eq_true_iff
  rw [hhead]
  constructor
  · intro h
    obtain ⟨cs, hcs⟩ := List.head?_eq_some_iff.mp h
    exact ⟨pieces '/' cs, pieces_ne_nil, by rw [hcs, pieces, if_pos rfl]⟩
  · rintro ⟨rest, hrest, hpieces⟩
    cases hcs : p.text.toList with
    | nil =>
      rw [hcs] at hpieces
      cases hpieces
      exact absurd rfl hrest
    | cons c cs =>
      rw [hcs, pieces] at hpieces
      split at hpieces
      · rename_i hc
        rw [hc]
        rfl
      · split at hpieces <;> cases hpieces

theorem notMem_root_components (h : ¬ p.isAbsolute) : .root ∉ p.components := by
  have hinner : ∀ piece, component? piece ≠ some .root := by
    intro piece
    unfold component?
    split <;> simp
  intro hroot
  obtain ⟨⟨piece, _⟩, hmem, hcomponent⟩ := List.mem_filterMap.mp hroot
  unfold parsed at hmem
  cases hpieces : pieces '/' p.text.toList with
  | nil => exact absurd hpieces pieces_ne_nil
  | cons first rest =>
    rw [hpieces] at hmem
    rcases List.mem_cons.mp hmem with heq | hmem
    · obtain ⟨rfl, rfl⟩ := Prod.mk.inj heq
      dsimp only at hcomponent
      unfold firstComponent? at hcomponent
      split at hcomponent
      · -- Nothing before a slash, and something after it.
        cases rest with
        | nil => cases hcomponent
        | cons piece rest => exact h (isAbsolute_iff.mpr ⟨_, List.cons_ne_nil _ _, hpieces⟩)
      · cases hcomponent
      · exact hinner _ hcomponent
    · obtain ⟨piece', -, heq⟩ := List.mem_map.mp hmem
      obtain ⟨rfl, rfl⟩ := Prod.mk.inj heq
      exact hinner _ hcomponent

theorem isAbsolute_iff_root_mem : p.isAbsolute ↔ .root ∈ p.components := by
  constructor
  · intro h
    obtain ⟨rest, hrest, hpieces⟩ := isAbsolute_iff.mp h
    rw [components_of_pieces hpieces]
    simp [firstComponent?, hrest]
  · intro hroot
    by_contra h
    exact notMem_root_components h hroot

theorem normalizeOnto_of_isAbsolute (h : p.isAbsolute) :
    normalizeOnto onto p.components = none := by
  obtain ⟨rest, hrest, hpieces⟩ := isAbsolute_iff.mp h
  have hroot : p.components.head? = some .root := by
    simp [components, parsed, hpieces, firstComponent?, hrest]
  obtain ⟨rest, hrest⟩ := List.head?_eq_some_iff.mp hroot
  rw [hrest, normalizeOnto]

/-- What the components of a relative path are resolved to does not depend on its first piece being
the first. -/
theorem normalizeOnto_components (h : ¬ p.isAbsolute) : normalizeOnto onto p.components =
    normalizeOnto onto ((pieces '/' p.text.toList).filterMap component?) := by
  cases hpieces : pieces '/' p.text.toList with
  | nil => exact absurd hpieces pieces_ne_nil
  | cons first rest =>
    rw [components_of_pieces hpieces]
    unfold firstComponent?
    split
    · cases rest with
      | nil => rfl
      | cons piece rest =>
        exact absurd (isAbsolute_iff.mpr ⟨_, List.cons_ne_nil _ _, hpieces⟩) h
    · rfl
    · rw [List.filterMap_cons]
      cases component? first <;> rfl

/-! ## Resolving one path after another -/

theorem normalizeOnto_append : normalizeOnto onto (cs ++ ds) =
    (normalizeOnto onto cs).bind fun names => normalizeOnto names ds := by
  induction onto, cs using normalizeOnto.induct with
  | case1 | case2 | case4 => rfl
  | case3 onto cs ih | case5 top onto cs ih | case6 onto top cs ih =>
    rw [List.cons_append, normalizeOnto, normalizeOnto]
    exact ih

/-- The pieces of a path and of one appended to it, a slash at the end of the first apart. -/
theorem exists_pieces_join (h : ¬ q.isAbsolute) : ∃ ps,
    (pieces '/' p.text.toList = ps ∨ pieces '/' p.text.toList = ps ++ [[]]) ∧
      pieces '/' (p / q).text.toList = ps ++ pieces '/' q.text.toList := by
  show ∃ ps, _ ∧ pieces '/' (p.join q).text.toList = _
  rw [join, if_neg h]
  by_cases hempty : p.text = ""
  · refine ⟨[], .inr (by rw [hempty]; rfl), ?_⟩
    simp [isEmpty, hempty]
  by_cases hslash : p.text.toList.getLast? = some '/'
  · obtain ⟨init, hinit⟩ := List.getLast?_eq_some_iff.mp hslash
    refine ⟨pieces '/' init, .inr ?_, ?_⟩
    · rw [hinit, pieces_append_separator]
      rfl
    · simp [hinit, pieces_append_separator]
  · refine ⟨pieces '/' p.text.toList, .inl rfl, ?_⟩
    simp [isEmpty, hempty, hslash, pieces_append_separator]

/-- The last piece of a path is not changed by what it is appended to. -/
theorem getLast?_pieces_join :
    (pieces '/' (p / q).text.toList).getLast? = (pieces '/' q.text.toList).getLast? := by
  by_cases hq : q.isAbsolute
  · show (pieces '/' (p.join q).text.toList).getLast? = _
    rw [join, if_pos hq]
  · obtain ⟨ps, -, hjoin⟩ := exists_pieces_join (p := p) hq
    rw [hjoin, List.getLast?_append_of_ne_nil _ pieces_ne_nil]

theorem isAbsolute_join (h : ¬ q.isAbsolute) : (p / q).isAbsolute = p.isAbsolute := by
  show (p.join q).isAbsolute = _
  rw [join, if_neg h]
  by_cases hempty : p.text = ""
  · have hp : p.isAbsolute = false := by simp [isAbsolute, hempty]
    rw [hp]
    simpa [isEmpty, hempty, isAbsolute] using h
  · obtain ⟨c, cs, hcs⟩ := List.exists_cons_of_ne_nil (mt String.toList_eq_nil_iff.mp hempty)
    split <;> simp [isAbsolute, hcs]

/-- Resolving a path and one appended to it is resolving one after the other. -/
theorem normalizeOnto_join : normalizeOnto onto (p / q).components =
    (normalizeOnto onto p.components).bind fun names => normalizeOnto names q.components := by
  by_cases hq : q.isAbsolute
  · have hjoin : p / q = q := by
      show p.join q = q
      rw [join, if_pos hq]
    rw [hjoin, normalizeOnto_of_isAbsolute hq]
    cases normalizeOnto onto p.components with
    | none => rfl
    | some names => exact (normalizeOnto_of_isAbsolute hq).symm
  by_cases hp : p.isAbsolute
  · rw [normalizeOnto_of_isAbsolute hp, normalizeOnto_of_isAbsolute (by rwa [isAbsolute_join hq])]
    rfl
  obtain ⟨ps, hps, hjoin⟩ := exists_pieces_join (p := p) hq
  have hsame : (pieces '/' p.text.toList).filterMap component? = ps.filterMap component? := by
    rcases hps with hps | hps
    · rw [hps]
    · rw [hps, List.filterMap_append]
      exact List.append_nil _
  rw [normalizeOnto_components (by rwa [isAbsolute_join hq]), normalizeOnto_components hp, hjoin,
    hsame, List.filterMap_append, normalizeOnto_append]
  simp only [normalizeOnto_components hq]

/-! ## Paths that are made of names -/

/-- A relative path whose components are names, however it is spelled. -/
def MadeOf (p : Path) (names : List String) : Prop := p.components = names.map .normal

theorem map_normal_injective : Function.Injective (List.map Component.normal) :=
  List.map_injective_iff.mpr fun _ _ => Component.normal.inj

theorem MadeOf.isName (h : p.MadeOf names) : ∀ name ∈ names, IsName name := fun name hname =>
  isName_of_mem_components (p := p) (by rw [h]; exact List.mem_map_of_mem hname)

theorem MadeOf.not_isAbsolute (h : p.MadeOf names) : ¬ p.isAbsolute := by
  rw [isAbsolute_iff_root_mem, h]
  simp

theorem MadeOf.head?_ne (h : p.MadeOf names) : p.components.head? ≠ some .current := by
  rw [h]
  cases names <;> simp

theorem MadeOf.not_isEmpty (h : p.MadeOf names) (hne : names ≠ []) : ¬ p.isEmpty := by
  intro hempty
  have htext : p.text = "" := by simpa [isEmpty] using hempty
  have hcomponents : p.components = [] := by
    rw [components, parsed, htext]
    rfl
  rw [h] at hcomponents
  exact hne (List.map_eq_nil_iff.mp hcomponents)

theorem madeOf_ofNames (h : ∀ name ∈ names, IsName name) : (ofNames names).MadeOf names :=
  components_ofNames h

theorem not_isAbsolute_ofNames (h : ∀ name ∈ names, IsName name) :
    ¬ (ofNames names).isAbsolute :=
  (madeOf_ofNames h).not_isAbsolute

theorem isEmpty_ofNames_iff (h : ∀ name ∈ names, IsName name) :
    (ofNames names).isEmpty ↔ names = [] := by
  constructor
  · intro hempty
    by_contra hne
    exact (madeOf_ofNames h).not_isEmpty hne hempty
  · rintro rfl
    rfl

/-! ## Names appended to a path -/

/-- A first piece counts like any other unless nothing is in it. -/
theorem firstComponent?_of_ne_nil {piece : List Char} (h : piece ≠ []) (isOnly : Bool) :
    firstComponent? isOnly piece = firstComponent? false piece := by
  unfold firstComponent?
  split
  · exact absurd rfl h
  · rfl
  · rfl

/-- What the pieces of a relative path stand for, the first one like the others, unless it counts as
the first. -/
theorem filterMap_pieces (h : ¬ p.isAbsolute) (hcurrent : p.components.head? ≠ some .current) :
    (pieces '/' p.text.toList).filterMap component? = p.components := by
  cases hpieces : pieces '/' p.text.toList with
  | nil => exact absurd hpieces pieces_ne_nil
  | cons first rest =>
    rw [components_of_pieces hpieces] at hcurrent ⊢
    unfold firstComponent? at hcurrent ⊢
    split at hcurrent
    · cases rest with
      | nil => rfl
      | cons piece rest =>
        exact absurd (isAbsolute_iff.mpr ⟨_, List.cons_ne_nil _ _, hpieces⟩) h
    · exact absurd rfl hcurrent
    · rw [List.filterMap_cons]
      cases component? first <;> rfl

/-- The components of a relative path come after those of the path it is appended to. Only a `.` that
it starts with is lost. -/
theorem components_join (hq : ¬ q.isAbsolute) (hcurrent : q.components.head? ≠ some .current) :
    (p / q).components = p.components ++ q.components := by
  obtain ⟨ps, hps, hjoin⟩ := exists_pieces_join (p := p) hq
  cases ps with
  | nil =>
    -- Nothing comes before the path that is appended: the other is empty.
    have hp : p.components = [] := by
      rcases hps with hps | hps
      · exact absurd hps pieces_ne_nil
      · rw [components_of_pieces hps]
        rfl
    rw [hp, List.nil_append, components, components, parsed, parsed, hjoin]
    rfl
  | cons first rest =>
    rw [List.cons_append] at hps hjoin
    have hwhole : (p / q).components = (firstComponent? false first).toList ++
        (rest.filterMap component? ++ q.components) := by
      have hmore : (rest ++ pieces '/' q.text.toList).isEmpty = false := by simp [pieces_ne_nil]
      rw [components_of_pieces hjoin, hmore, List.filterMap_append, filterMap_pieces hq hcurrent]
    have hstart : p.components = (firstComponent? false first).toList ++
        rest.filterMap component? := by
      rcases hps with hps | hps
      · rw [components_of_pieces hps]
        by_cases hfirst : first = []
        · -- With nothing before its first slash the whole is absolute, so the path is.
          subst hfirst
          have habsolute : (p / q).isAbsolute :=
            isAbsolute_iff.mpr ⟨_, by simp [pieces_ne_nil], hjoin⟩
          rw [isAbsolute_join hq] at habsolute
          obtain ⟨rest', hrest', hpieces⟩ := isAbsolute_iff.mp habsolute
          cases hps.symm.trans hpieces
          rw [List.isEmpty_eq_false_iff.mpr hrest']
        · rw [firstComponent?_of_ne_nil hfirst]
      · have hmore : (rest ++ [[]]).isEmpty = false := by simp
        rw [components_of_pieces hps, hmore, List.filterMap_append]
        exact congrArg _ (List.append_nil _)
    rw [hwhole, hstart, List.append_assoc]

theorem MadeOf.components_join (h : q.MadeOf names) :
    (p / q).components = p.components ++ names.map .normal := by
  rw [Path.components_join h.not_isAbsolute h.head?_ne, h]

theorem components_join_ofNames (h : ∀ name ∈ names, IsName name) :
    (p / ofNames names).components = p.components ++ names.map .normal :=
  (madeOf_ofNames h).components_join

/-- Appending is associative, but for an empty path in the middle, which puts a slash there. -/
theorem join_assoc {r : Path} (hp : ¬ p.isAbsolute) (hne : ¬ p.isEmpty) (hq : ¬ q.isAbsolute) :
    r / p / q = r / (p / q) := by
  show (r.join p).join q = r.join (p.join q)
  have hpq : ¬ (p.join q).isAbsolute := fun h => hp (by rwa [← isAbsolute_join hq])
  have hlast : ∀ before : String, (before ++ p.text).toList.getLast? = p.text.toList.getLast? := by
    intro before
    rw [String.toList_append, List.getLast?_append_of_ne_nil]
    simpa [isEmpty] using hne
  have hempty : ∀ before : String, Path.isEmpty ⟨before ++ p.text⟩ = false := by
    intro before
    simp only [isEmpty, String.isEmpty_iff] at hne
    simp [isEmpty, hne]
  have hp' : p.isEmpty = false := by simpa using hne
  rw [join.eq_def r, join.eq_def r, if_neg hp, if_neg hpq]
  by_cases hr : r.isEmpty || r.text.toList.getLast? = some '/'
  · simp only [hr, join, hq, hp', hempty, hlast, Bool.false_or, ↓reduceIte, Bool.false_eq_true]
    split <;> simp [String.append_assoc]
  · simp only [hr, join, hq, hp', hempty, hlast, Bool.false_or, ↓reduceIte, Bool.false_eq_true]
    split <;> simp [String.append_assoc]

theorem ofNames_singleton (name : String) : ofNames [name] = ⟨name⟩ := by simp [ofNames]

/-- Names that lead from one directory to one file are the same. -/
theorem eq_of_same_join {name' : String} (hname : IsName name) (hname' : IsName name')
    (hsame : (p / ⟨name⟩).Same (p / ⟨name'⟩)) : name = name' := by
  have hcomponents : ∀ name, IsName name →
      (p / ⟨name⟩).components = p.components ++ [.normal name] := fun name hname => by
    rw [← ofNames_singleton name, components_join_ofNames (by simpa using hname)]
    rfl
  rw [Same, hcomponents name hname, hcomponents name' hname', List.append_cancel_left_eq] at hsame
  simpa using hsame

theorem ofNames_cons (hname : IsName name) (h : ∀ name ∈ names, IsName name) (hne : names ≠ []) :
    ofNames (name :: names) = ⟨name⟩ / ofNames names := by
  obtain ⟨first, rest, rfl⟩ := List.exists_cons_of_ne_nil hne
  show _ = join _ _
  have hempty : (⟨name⟩ : Path).isEmpty = false := by simp [isEmpty, hname.ne_empty]
  have hslash : name.toList.getLast? ≠ some '/' := fun hlast =>
    hname.1 (List.mem_of_getLast? hlast)
  rw [join, if_neg (not_isAbsolute_ofNames h), hempty, if_neg (by simpa using hslash)]
  simp [ofNames, String.append_assoc]

/-- Names appended one after the other are appended with slashes between them. -/
theorem foldl_join (h : ∀ name ∈ names, IsName name) (hne : names ≠ []) :
    names.foldl (fun q name => q / ⟨name⟩) p = p / ofNames names := by
  induction names generalizing p with
  | nil => exact absurd rfl hne
  | cons name names ih =>
    obtain ⟨hname, hrest⟩ := List.forall_mem_cons.mp h
    rw [List.foldl_cons]
    by_cases hlast : names = []
    · rw [hlast, ofNames_singleton]
      rfl
    · have hrelative : ¬ (⟨name⟩ : Path).isAbsolute := by
        rw [← ofNames_singleton]
        exact not_isAbsolute_ofNames (by simpa using hname)
      have hname' : ¬ (⟨name⟩ : Path).isEmpty := by simp [isEmpty, hname.ne_empty]
      rw [ih hrest hlast, join_assoc hrelative hname' (not_isAbsolute_ofNames hrest),
        ← ofNames_cons hname hrest hlast]

/-! ## The way from a base -/

theorem componentsBetween_append (base : List Component) :
    componentsBetween false base (base ++ cs) = some cs := by
  induction base with
  | nil => rfl
  | cons c base ih => simp [componentsBetween, ih]

theorem components_ofComponents (h : ∀ name ∈ names, IsName name) :
    (ofComponents (names.map .normal)).components = names.map .normal := by
  have hpushed : ∀ p : Path,
      ((names.map Component.normal).foldl (fun p c => p.join ⟨c.text⟩) p).components =
        p.components ++ names.map .normal := by
    induction names with
    | nil => simp
    | cons name names ih =>
      obtain ⟨hname, hrest⟩ := List.forall_mem_cons.mp h
      intro p
      have hfirst : (p / ofNames [name]).components = p.components ++ [name].map .normal :=
        components_join_ofNames (by simpa using hname)
      rw [ofNames_singleton] at hfirst
      rw [List.map_cons, List.foldl_cons, ih hrest,
        show p.join ⟨(Component.normal name).text⟩ = p / ⟨name⟩ from rfl, hfirst, List.append_assoc]
      rfl
  exact hpushed ⟨""⟩

/-- From a base to names appended to it the names lead, whatever the base. -/
theorem MadeOf.relativeTo (h : q.MadeOf names) (base : Path) :
    (relativeTo base (base / q)).MadeOf names := by
  rw [Path.relativeTo, isAbsolute_join h.not_isAbsolute, h.components_join,
    componentsBetween_append]
  simp [MadeOf, components_ofComponents h.isName]

/-! ## Components with slashes between them -/

def Inner (c : Component) : Prop := '/' ∉ c.text.toList ∧ component? c.text.toList = some c

theorem inner_of_component? {piece : List Char} {c : Component} (hsep : '/' ∉ piece)
    (h : component? piece = some c) : Inner c := by
  cases c with
  | root | current => unfold component? at h; split at h <;> cases h
  | parent => exact ⟨by decide, rfl⟩
  | normal name => exact isName_of_component? hsep h

/-- The component stands for itself at the start of a path. -/
def Leading (c : Component) : Prop :=
  '/' ∉ c.text.toList ∧ ∀ isOnly, firstComponent? isOnly c.text.toList = some c

theorem Inner.leading {c : Component} (h : Inner c) : Leading c := by
  obtain ⟨hsep, hc⟩ := h
  refine ⟨hsep, fun isOnly => ?_⟩
  unfold firstComponent?
  split
  · rename_i hnil
    rw [hnil] at hc
    cases hc
  · rename_i hdot
    rw [hdot] at hc
    cases hc
  · exact hc

/-- A path begins with the root or with a component that stands for itself there. -/
theorem eq_root_or_leading {piece : List Char} {c : Component} {isOnly : Bool}
    (hsep : '/' ∉ piece) (h : firstComponent? isOnly piece = some c) : c = .root ∨ Leading c := by
  unfold firstComponent? at h
  split at h
  · split at h <;> cases h
    exact .inl rfl
  · cases h
    exact .inr ⟨by decide, fun _ => rfl⟩
  · exact .inr (inner_of_component? hsep h).leading

theorem pieces_intercalate_text {c : Component} (h : ∀ d ∈ c :: cs, '/' ∉ d.text.toList) :
    pieces '/' ("/".intercalate ((c :: cs).map Component.text)).toList =
      (c :: cs).map fun d => d.text.toList := by
  rw [String.toList_intercalate, List.map_map]
  refine pieces_intercalate (fun piece hpiece => ?_) (List.cons_ne_nil _ _)
  obtain ⟨d, hd, rfl⟩ := List.mem_map.mp hpiece
  exact h d hd

theorem filterMap_text (h : ∀ c ∈ cs, Inner c) :
    (cs.map fun c => c.text.toList).filterMap component? = cs := by
  rw [List.filterMap_map]
  refine (List.filterMap_eq_map_iff_forall_eq_some (g := id).mpr fun c hc => ?_).trans
    (List.map_id cs)
  exact (h c hc).2

theorem components_intercalate {c : Component} (hc : Leading c) (hcs : ∀ d ∈ cs, Inner d) :
    (⟨"/".intercalate ((c :: cs).map Component.text)⟩ : Path).components = c :: cs := by
  have hpieces := pieces_intercalate_text
    (List.forall_mem_cons.mpr ⟨hc.1, fun d hd => (hcs d hd).1⟩)
  refine (components_of_pieces hpieces).trans ?_
  rw [filterMap_text hcs, hc.2]
  rfl

/-- The components with slashes between them are a spelling of the path. -/
theorem components_toSlash (p : Path) : (⟨p.toSlash⟩ : Path).components = p.components := by
  cases hpieces : pieces '/' p.text.toList with
  | nil => exact absurd hpieces pieces_ne_nil
  | cons first rest =>
    have hsep : ∀ piece ∈ first :: rest, '/' ∉ piece := fun piece hpiece =>
      notMem_of_mem_pieces (hpieces ▸ hpiece)
    obtain ⟨hfirst, hrest⟩ := List.forall_mem_cons.mp hsep
    have hinner : ∀ c ∈ rest.filterMap component?, Inner c := by
      intro c hc
      obtain ⟨piece, hpiece, hc⟩ := List.mem_filterMap.mp hc
      exact inner_of_component? (hrest piece hpiece) hc
    rw [toSlash, components_of_pieces hpieces]
    generalize rest.filterMap component? = cs at hinner
    cases hc : firstComponent? rest.isEmpty first with
    | none =>
      cases cs with
      | nil => rfl
      | cons d cs =>
        obtain ⟨hd, hcs⟩ := List.forall_mem_cons.mp hinner
        exact components_intercalate hd.leading hcs
    | some c =>
      rcases eq_root_or_leading hfirst hc with rfl | hleading
      · cases cs with
        | nil => rfl
        | cons d cs =>
          -- The root is spelled with one slash more than any other component.
          have hpieces : pieces '/'
              ("/".intercalate ((Component.root :: d :: cs).map Component.text)).toList =
              [] :: [] :: (d :: cs).map fun d => d.text.toList := by
            rw [← pieces_intercalate_text fun d hd => (hinner d hd).1]
            simp [Component.text, pieces]
          refine (components_of_pieces hpieces).trans ?_
          rw [List.filterMap_cons, filterMap_text hinner]
          rfl
      · exact components_intercalate hleading hinner

/-- Fewer pieces make a text that is a part of that of all. -/
theorem intercalate_sublist {sep : Char} {ps qs : List (List Char)} (h : ps.Sublist qs) :
    (List.intercalate [sep] ps).Sublist (List.intercalate [sep] qs) := by
  induction h with
  | slnil => exact .slnil
  | @cons ps qs q hps ih =>
    cases qs with
    | nil =>
      rw [List.sublist_nil.mp hps]
      exact List.nil_sublist _
    | cons r qs =>
      rw [List.intercalate_cons_cons]
      exact ih.trans (List.sublist_append_right _ _)
  | @cons_cons ps qs q hps ih =>
    cases ps with
    | nil =>
      rw [List.intercalate_singleton]
      cases qs with
      | nil => rw [List.intercalate_singleton]
      | cons r qs =>
        rw [List.intercalate_cons_cons, List.append_assoc]
        exact List.sublist_append_left _ _
    | cons p ps =>
      obtain ⟨r, qs, rfl⟩ := List.exists_cons_of_ne_nil
        (show qs ≠ [] by rintro rfl; cases hps)
      rw [List.intercalate_cons_cons, List.intercalate_cons_cons]
      exact (List.Sublist.refl _).append ih

theorem map_text_sublist (pieces : List (List Char)) :
    ((pieces.filterMap component?).map fun c => c.text.toList).Sublist pieces := by
  induction pieces with
  | nil => exact .slnil
  | cons piece pieces ih =>
    cases hc : component? piece with
    | none =>
      rw [List.filterMap_cons_none hc]
      exact ih.cons _
    | some c =>
      obtain ⟨c', hc', htext, -⟩ := exists_component? (counts_of_component? hc)
      obtain rfl := Option.some.inj (hc.symm.trans hc')
      rw [List.filterMap_cons_some hc, List.map_cons, htext]
      exact ih.cons_cons piece

/-- The canonical spelling leaves out what says nothing, except that a root has a slash more. -/
theorem toList_toSlash_sublist (p : Path) : p.toSlash.toList.Sublist ('/' :: p.text.toList) := by
  have htext : p.toSlash.toList =
      List.intercalate ['/'] (p.components.map fun c => c.text.toList) := by
    rw [toSlash, String.toList_intercalate, List.map_map]
    rfl
  cases hpieces : pieces '/' p.text.toList with
  | nil => exact absurd hpieces pieces_ne_nil
  | cons first rest =>
    have hall : p.text.toList = List.intercalate ['/'] (first :: rest) := by
      rw [← hpieces, intercalate_pieces]
    have hrest := map_text_sublist rest
    rw [htext, components_of_pieces hpieces]
    by_cases hfirst : first = []
    · subst hfirst
      cases rest with
      | nil => exact List.nil_sublist _
      | cons piece rest =>
        -- The root: its slash is the one before the rest, which gets another one.
        have hroot : (List.intercalate ['/'] _).Sublist _ :=
          intercalate_sublist (hrest.cons_cons ['/'])
        rw [List.intercalate_cons_cons] at hroot
        rwa [hall, List.intercalate_cons_cons]
    · obtain ⟨c, hc, hctext⟩ := exists_firstComponent? hfirst rest.isEmpty
      rw [hc, Option.toList_some, List.singleton_append, List.map_cons, hctext, hall]
      exact (intercalate_sublist (hrest.cons_cons first)).cons _

theorem same_of_toSlash_eq (h : p.toSlash = q.toSlash) : p.Same q := by
  rw [Same, ← components_toSlash p, h, components_toSlash q]

end Path

end ModularBuild
