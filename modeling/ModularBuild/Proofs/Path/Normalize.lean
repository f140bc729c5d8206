import Mathlib.Data.List.Basic
import Mathlib.Data.List.TakeWhile
import ModularBuild.Path

/-!
# Normal forms of paths

A text is its pieces with separators between them (`intercalate_pieces`, `pieces_intercalate`). A
normal form is a list of names with slashes between them. Its components are those names
(`components_ofNames`), so a normal form is its own normal form (`normalize?_idempotent`), and two
spellings of one path have the same one.
-/

namespace ModularBuild

/-! ## Pieces -/

section Pieces

variable {sep : Char} {cs ds piece : List Char} {ps kept blanks : List (List Char)}

theorem pieces_ne_nil : pieces sep cs ≠ [] := by
  cases cs with
  | nil => exact List.cons_ne_nil _ _
  | cons c cs => unfold pieces; split <;> [skip; split] <;> exact List.cons_ne_nil _ _

theorem pieces_append_separator :
    pieces sep (cs ++ sep :: ds) = pieces sep cs ++ pieces sep ds := by
  induction cs with
  | nil => simp [pieces]
  | cons c cs ih =>
    rw [List.cons_append, pieces, pieces, ih]
    split
    · rfl
    · cases hcs : pieces sep cs with
      | nil => exact absurd hcs pieces_ne_nil
      | cons p ps => rfl

/-- Every separator at the end begins one more piece, with nothing in it. -/
theorem pieces_append_separators {seps : List Char} (h : ∀ c ∈ seps, c = sep) :
    pieces sep (cs ++ seps) = pieces sep cs ++ List.replicate seps.length [] := by
  induction cs with
  | nil =>
    induction seps with
    | nil => rfl
    | cons c seps ih =>
      obtain ⟨rfl, h⟩ := List.forall_mem_cons.mp h
      have hrest := ih h
      rw [List.nil_append] at hrest
      show pieces c (c :: seps) = [] :: List.replicate (seps.length + 1) []
      rw [pieces, if_pos rfl, hrest]
      rfl
  | cons c cs ih =>
    rw [List.cons_append, pieces, pieces, ih]
    split
    · rfl
    · cases hcs : pieces sep cs with
      | nil => exact absurd hcs pieces_ne_nil
      | cons p ps => rfl

theorem pieces_of_notMem (h : sep ∉ cs) : pieces sep cs = [cs] := by
  induction cs with
  | nil => rfl
  | cons c cs ih =>
    obtain ⟨hc, hcs⟩ := not_or.mp (List.mem_cons.not.mp h)
    simp [pieces, Ne.symm hc, ih hcs]

theorem notMem_of_mem_pieces (h : piece ∈ pieces sep cs) : sep ∉ piece := by
  induction cs generalizing piece with
  | nil => simp_all [pieces]
  | cons c cs ih =>
    unfold pieces at h
    split at h
    · rcases List.mem_cons.mp h with rfl | h
      · exact List.not_mem_nil
      · exact ih h
    · rename_i hc
      split at h
      · simp_all [Ne.symm hc]
      · rename_i p ps hcs
        rcases List.mem_cons.mp h with rfl | h
        · exact List.mem_cons.not.mpr (not_or.mpr ⟨Ne.symm hc, ih (hcs ▸ List.mem_cons_self)⟩)
        · exact ih (hcs ▸ List.mem_cons_of_mem _ h)

theorem pieces_intercalate (hps : ∀ p ∈ ps, sep ∉ p) (hne : ps ≠ []) :
    pieces sep (List.intercalate [sep] ps) = ps := by
  induction ps with
  | nil => exact absurd rfl hne
  | cons p ps ih =>
    have hp := hps p List.mem_cons_self
    cases ps with
    | nil => simpa [List.intercalate] using pieces_of_notMem hp
    | cons q qs =>
      have hrest := ih (fun r hr => hps r (List.mem_cons_of_mem _ hr)) (List.cons_ne_nil _ _)
      have hsplit : List.intercalate [sep] (p :: q :: qs) =
          p ++ sep :: List.intercalate [sep] (q :: qs) := by
        simp [List.intercalate]
      rw [hsplit, pieces_append_separator, pieces_of_notMem hp, hrest]
      rfl

theorem intercalate_pieces (sep : Char) (cs : List Char) :
    List.intercalate [sep] (pieces sep cs) = cs := by
  induction cs with
  | nil => rfl
  | cons c cs ih =>
    have hne : pieces sep cs ≠ [] := pieces_ne_nil
    obtain ⟨p, ps, hps⟩ := List.exists_cons_of_ne_nil hne
    rw [pieces]
    split
    · rename_i hc
      rw [List.intercalate_cons_of_ne_nil pieces_ne_nil, ih, hc]
      rfl
    · rw [hps] at ih ⊢
      cases ps with
      | nil => simpa [List.intercalate] using ih
      | cons q ps =>
        rw [List.intercalate_cons_cons] at ih ⊢
        rw [← ih]
        rfl

theorem eq_append_separators (h : pieces sep cs = kept ++ blanks) (hne : kept ≠ [])
    (hblanks : ∀ p ∈ blanks, p = []) :
    cs = List.intercalate [sep] kept ++ List.replicate blanks.length sep := by
  have hkept : ∀ p ∈ kept, sep ∉ p := fun p hp =>
    notMem_of_mem_pieces (h ▸ List.mem_append_left _ hp)
  have hpieces : pieces sep (List.intercalate [sep] kept ++ List.replicate blanks.length sep) =
      kept ++ blanks := by
    rw [pieces_append_separators (fun c hc => List.eq_of_mem_replicate hc),
      pieces_intercalate hkept hne, List.length_replicate, ← List.eq_replicate_of_mem hblanks]
  rw [← intercalate_pieces sep cs, h, ← hpieces, intercalate_pieces]

theorem getLast?_intercalate (hpiece : piece ≠ []) :
    (List.intercalate [sep] (ps ++ [piece])).getLast? = piece.getLast? := by
  induction ps with
  | nil => simp [List.intercalate]
  | cons q ps ih =>
    have hne : ps ++ [piece] ≠ [] := by simp
    obtain ⟨c, hc⟩ := Option.isSome_iff_exists.mp (List.getLast?_isSome.mpr hpiece)
    rw [List.cons_append, List.intercalate_cons_of_ne_nil hne, List.getLast?_append, ih, hc]
    rfl

/-- The last piece of a text is what stands after its last separator. -/
theorem getLast?_pieces :
    (pieces sep cs).getLast? = some (cs.reverse.takeWhile (· ≠ sep)).reverse := by
  by_cases hsep : sep ∈ cs
  · obtain ⟨after, before, hsplit, hafter⟩ :=
      List.eq_append_cons_of_mem (List.mem_reverse.mpr hsep)
    have hall : ∀ c ∈ after, decide (c ≠ sep) = true := fun c hc =>
      decide_eq_true fun heq => hafter (heq ▸ hc)
    have hcs : cs = before.reverse ++ sep :: after.reverse := by
      rw [← List.reverse_reverse cs, hsplit]
      simp
    rw [hsplit, List.takeWhile_append_of_pos hall, List.takeWhile_cons_of_neg (by simp),
      List.append_nil, hcs, pieces_append_separator,
      pieces_of_notMem (List.mem_reverse.not.mpr hafter), List.getLast?_concat]
  · have hall : ∀ c ∈ cs.reverse, decide (c ≠ sep) = true := fun c hc =>
      decide_eq_true fun heq => hsep (heq ▸ List.mem_reverse.mp hc)
    rw [pieces_of_notMem hsep, List.takeWhile_eq_self_iff.mpr hall, List.reverse_reverse]
    rfl

end Pieces

namespace Path

variable {p q : Path} {name : String} {names : List String} {cs : List Component}
  {piece : List Char} {c : Char}

/-! ## Names -/

/-- A text that stands for itself between slashes. -/
def IsName (name : String) : Prop :=
  '/' ∉ name.toList ∧ component? name.toList = some (.normal name)

instance (name : String) : Decidable (IsName name) := inferInstanceAs (Decidable (_ ∧ _))

theorem IsName.ne_empty (h : IsName name) : name ≠ "" := by
  rintro rfl
  cases h.2

theorem IsName.ne_parent (h : IsName name) : name ≠ ".." := by
  rintro rfl
  cases h.2

/-- The components of a path from its pieces, of which the first one may count as more. -/
theorem components_of_pieces {first : List Char} {rest : List (List Char)}
    (h : pieces '/' p.text.toList = first :: rest) :
    p.components = (firstComponent? rest.isEmpty first).toList ++ rest.filterMap component? := by
  rw [components, parsed, h]
  simp only [List.filterMap_cons, List.filterMap_map]
  cases firstComponent? rest.isEmpty first <;> rfl

theorem isName_of_component? {piece : List Char} (hsep : '/' ∉ piece)
    (h : component? piece = some (.normal name)) : IsName name := by
  have hname : piece = name.toList := by
    unfold component? at h
    split at h <;> simp_all
    rw [← h, String.toList_ofList]
  subst hname
  exact ⟨hsep, h⟩

theorem isName_of_mem_components (h : .normal name ∈ p.components) : IsName name := by
  obtain ⟨⟨piece, _⟩, hmem, hcomponent⟩ := List.mem_filterMap.mp h
  unfold parsed at hmem
  cases hpieces : pieces '/' p.text.toList with
  | nil => exact absurd hpieces pieces_ne_nil
  | cons first rest =>
    rw [hpieces] at hmem
    have hsep : ∀ piece ∈ first :: rest, '/' ∉ piece := fun piece hpiece =>
      notMem_of_mem_pieces (hpieces ▸ hpiece)
    rcases List.mem_cons.mp hmem with heq | hmem
    · obtain ⟨rfl, rfl⟩ := Prod.mk.inj heq
      refine isName_of_component? (hsep piece List.mem_cons_self) ?_
      unfold firstComponent? at hcomponent
      split at hcomponent
      · split at hcomponent <;> cases hcomponent
      · cases hcomponent
      · exact hcomponent
    · obtain ⟨_, hrest, heq⟩ := List.mem_map.mp hmem
      obtain ⟨rfl, rfl⟩ := Prod.mk.inj heq
      exact isName_of_component? (hsep _ (List.mem_cons_of_mem _ hrest)) hcomponent

/-- A piece that counts is a component that is written like it. -/
theorem exists_component? (h : piece ≠ [] ∧ piece ≠ ['.']) :
    ∃ c, component? piece = some c ∧ c.text.toList = piece ∧ c ≠ .root := by
  unfold component?
  split
  · exact absurd rfl h.1
  · exact absurd rfl h.2
  · exact ⟨.parent, rfl, rfl, by simp⟩
  · exact ⟨_, rfl, String.toList_ofList, by simp⟩

theorem counts_of_component? {c : Component} (h : component? piece = some c) :
    piece ≠ [] ∧ piece ≠ ['.'] := by
  constructor <;> rintro rfl <;> cases h

/-- At the start of a path every piece counts that is not empty. -/
theorem exists_firstComponent? (h : piece ≠ []) (isOnly : Bool) :
    ∃ c, firstComponent? isOnly piece = some c ∧ c.text.toList = piece := by
  unfold firstComponent?
  split
  · exact absurd rfl h
  · exact ⟨.current, rfl, rfl⟩
  · rename_i hdot
    obtain ⟨c, hc, htext, -⟩ := exists_component? ⟨h, hdot⟩
    exact ⟨c, hc, htext⟩

/-- A piece that does not end in a dot is a name. -/
theorem component?_of_getLast? (h : piece.getLast? = some c) (hc : c ≠ '.') :
    component? piece = some (.normal (String.ofList piece)) := by
  unfold component?
  split
  · cases h
  · cases h
    exact absurd rfl hc
  · cases h
    exact absurd rfl hc
  · rfl

/-- A path whose last piece is a name has that name. -/
theorem fileName?_of_getLast? (hlast : (pieces '/' p.text.toList).getLast? = some piece)
    (hname : component? piece = some (.normal name)) : p.fileName? = some name := by
  obtain ⟨before, hpieces⟩ := List.getLast?_eq_some_iff.mp hlast
  have hcomponents : p.components.getLast? = some (.normal name) := by
    cases before with
    | nil =>
      have hfirst : firstComponent? true piece = component? piece := by
        unfold firstComponent?
        split <;> first | rfl | cases hname
      rw [components_of_pieces hpieces, List.isEmpty_nil, hfirst, hname]
      rfl
    | cons first rest =>
      rw [List.cons_append] at hpieces
      rw [components_of_pieces hpieces, List.filterMap_append,
        List.filterMap_cons_some hname, List.filterMap_nil, ← List.append_assoc]
      exact List.getLast?_concat
  rw [fileName?, hcomponents]

theorem isName_of_fileName? (h : p.fileName? = some name) : IsName name := by
  unfold fileName? at h
  split at h
  · cases h
    exact isName_of_mem_components (List.mem_of_getLast? ‹_›)
  · cases h

/-- The pieces of names with slashes between them are the names. -/
theorem pieces_ofNames (h : ∀ name ∈ names, IsName name) (hne : names ≠ []) :
    pieces '/' (ofNames names).text.toList = names.map String.toList := by
  have htext : (ofNames names).text.toList = List.intercalate ['/'] (names.map String.toList) := by
    simp [ofNames, String.toList_intercalate]
  rw [htext]
  refine pieces_intercalate (fun piece hpiece => ?_) (by simpa using hne)
  obtain ⟨name, hname, rfl⟩ := List.mem_map.mp hpiece
  exact (h name hname).1

/-- The components of names with slashes between them are the names. -/
theorem components_ofNames (h : ∀ name ∈ names, IsName name) :
    (ofNames names).components = names.map .normal := by
  cases names with
  | nil => rfl
  | cons first rest =>
    have hpieces := pieces_ofNames h (List.cons_ne_nil _ _)
    have hfirst : firstComponent? (rest.map String.toList).isEmpty first.toList =
        some (.normal first) := by
      have hfirst := (h first List.mem_cons_self).2
      unfold firstComponent?
      split <;> simp_all [component?]
    have hrest : ((rest.map String.toList).map fun piece => (piece, component? piece)).filterMap
        (·.2) = rest.map .normal := by
      rw [List.map_map, List.filterMap_map]
      exact List.filterMap_eq_map_iff_forall_eq_some.mpr fun name hname =>
        (h name (List.mem_cons_of_mem _ hname)).2
    rw [components, parsed, hpieces]
    simp only [List.map_cons, List.filterMap_cons, hfirst, hrest]

/-! ## Resolving components -/

theorem normalizeOnto_map_normal (onto : List String) :
    normalizeOnto onto (names.map .normal) = some (names.reverse ++ onto) := by
  induction names generalizing onto with
  | nil => rfl
  | cons name names ih => simp [normalizeOnto, ih]

/-- The names that are left are among those that were there. -/
theorem mem_of_normalizeOnto {onto : List String} (h : normalizeOnto onto cs = some names)
    (hname : name ∈ names) : name ∈ onto ∨ .normal name ∈ cs := by
  induction onto, cs using normalizeOnto.induct with
  | case1 onto => cases h; exact .inl hname
  | case2 | case4 => simp [normalizeOnto] at h
  | case3 onto cs ih => exact (ih h).imp_right (List.mem_cons_of_mem _)
  | case5 top onto cs ih =>
    exact (ih h).imp (List.mem_cons_of_mem _) (List.mem_cons_of_mem _)
  | case6 onto top cs ih =>
    rcases ih h with hmem | hmem
    · rcases List.mem_cons.mp hmem with rfl | hmem
      · exact .inr List.mem_cons_self
      · exact .inl hmem
    · exact .inr (List.mem_cons_of_mem _ hmem)

/-! ## Normal forms -/

theorem Same.normalize?_eq (h : p.Same q) : p.normalize? = q.normalize? := by
  rw [normalize?, normalize?, h]

theorem normalize?_ofNames (h : ∀ name ∈ names, IsName name) :
    (ofNames names).normalize? = some (ofNames names) := by
  rw [normalize?, components_ofNames h, normalizeOnto_map_normal, List.append_nil, Option.map_some,
    List.reverse_reverse]

theorem exists_names_of_normalize? (h : q.normalize? = some p) :
    ∃ names, (∀ name ∈ names, IsName name) ∧ p = ofNames names := by
  obtain ⟨names, hnames, rfl⟩ := Option.map_eq_some_iff.mp h
  refine ⟨names.reverse, fun name hname => ?_, rfl⟩
  rcases mem_of_normalizeOnto hnames (List.mem_reverse.mp hname) with hempty | hmem
  · cases hempty
  · exact isName_of_mem_components hmem

/-- A spelling of its own normal form: nothing in the path is left to be resolved. -/
def IsNormal (p : Path) : Prop := ∃ q, p.normalize? = some q ∧ p.Same q

theorem normalize?_idempotent (h : q.normalize? = some p) : p.normalize? = some p := by
  obtain ⟨names, hnames, rfl⟩ := exists_names_of_normalize? h
  exact normalize?_ofNames hnames

end Path

end ModularBuild
