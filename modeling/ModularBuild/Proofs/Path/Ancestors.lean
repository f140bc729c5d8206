import Mathlib.Data.List.Infix
import ModularBuild.Manifest.Project
import ModularBuild.Proofs.Path.Join

/-!
# The directories above a path

The parent of a path is spelled by the pieces up to the last component but one (`parentCases`). It
has the components of the path without the last one, and no shorter beginning of the path's text has
them (`parent_spec`). So going up from parent to parent passes the directories on the way to the
path, as the path spells them, up to the root or to the empty path (`mem_ancestors_iff`).

The search for a manifest goes up until it finds one. It ends after as many steps as there are
directories, and what it finds is the manifest of the nearest directory that has one
(`locate_nearest`).
-/

namespace ModularBuild

/-! ## Texts that are cut -/

section Pieces

variable {sep : Char} {ps qs : List (List Char)}

theorem exists_pieces_append (sep : Char) (cs ds : List Char) : ∃ init piece piece' rest,
    pieces sep cs = init ++ [piece] ∧ pieces sep ds = piece' :: rest ∧
      pieces sep (cs ++ ds) = init ++ (piece ++ piece') :: rest := by
  induction cs with
  | nil =>
    have hne : pieces sep ds ≠ [] := pieces_ne_nil
    obtain ⟨piece', rest, hds⟩ := List.exists_cons_of_ne_nil hne
    exact ⟨[], [], piece', rest, rfl, hds, hds⟩
  | cons c cs ih =>
    obtain ⟨init, piece, piece', rest, hcs, hds, hboth⟩ := ih
    rw [List.cons_append, pieces, pieces, hcs, hboth]
    by_cases hc : c = sep
    · exact ⟨[] :: init, piece, piece', rest, by rw [if_pos hc]; rfl, hds, by rw [if_pos hc]; rfl⟩
    · rw [if_neg hc, if_neg hc]
      cases init with
      | nil => exact ⟨[], c :: piece, piece', rest, rfl, hds, rfl⟩
      | cons first init => exact ⟨(c :: first) :: init, piece, piece', rest, rfl, hds, rfl⟩

theorem intercalate_prefix (h : ps <+: qs) (hne : ps ≠ []) :
    List.intercalate [sep] ps <+: List.intercalate [sep] qs := by
  obtain ⟨more, rfl⟩ := h
  induction ps with
  | nil => exact absurd rfl hne
  | cons p ps ih =>
    cases ps with
    | nil =>
      cases more with
      | nil => exact List.prefix_refl _
      | cons q more =>
        rw [List.singleton_append, List.intercalate_cons_cons, List.intercalate_singleton,
          List.append_assoc]
        exact List.prefix_append _ _
    | cons q ps =>
      rw [List.cons_append, List.cons_append, List.intercalate_cons_cons,
        List.intercalate_cons_cons, List.append_assoc, List.append_assoc]
      exact (List.prefix_append_right_inj _).mpr ((List.prefix_append_right_inj _).mpr
        (ih (List.cons_ne_nil _ _)))

end Pieces

namespace Path

variable {p q d e : Path} {c : Component} {piece : List Char}
  {kept rest : List (List Char × Option Component)}

/-! ## The pieces of the parent -/

theorem map_fst_parsed (p : Path) : p.parsed.map (·.1) = pieces '/' p.text.toList := by
  unfold parsed
  cases pieces '/' p.text.toList with
  | nil => rfl
  | cons first rest => simp [Function.comp_def]

def Closed (ps : List (List Char × Option Component)) : Prop :=
  ps = [] ∨ ∃ init piece c, ps = init ++ [(piece, some c)]

/-- The path of pieces; no pieces are the empty path. -/
def ofParsed (ps : List (List Char × Option Component)) : Path :=
  match ps with
  | [] => ⟨""⟩
  | ps => ofPieces (ps.map (·.1))

theorem exists_trim (ps : List (List Char × Option Component)) : ∃ kept blanks,
    ps = kept ++ blanks ∧ blanks.filterMap (·.2) = [] ∧ Closed kept ∧
      ps.reverse.dropWhile (·.2.isNone) = kept.reverse := by
  induction ps using List.reverseRecOn with
  | nil => exact ⟨[], [], rfl, rfl, .inl rfl, rfl⟩
  | append_singleton ps last ih =>
    obtain ⟨piece, component⟩ := last
    cases component with
    | none =>
      obtain ⟨kept, blanks, rfl, hblanks, hclosed, hdrop⟩ := ih
      exact ⟨kept, blanks ++ [(piece, none)], by simp, by simp [hblanks], hclosed,
        by rw [List.reverse_concat, List.dropWhile_cons_of_pos rfl, hdrop]⟩
    | some c =>
      exact ⟨ps ++ [(piece, some c)], [], by simp, rfl, .inr ⟨ps, piece, c, rfl⟩,
        by rw [List.reverse_concat, List.dropWhile_cons_of_neg (by simp)]⟩

theorem eq_nil_of_parsed_root {init : List (List Char × Option Component)}
    (h : p.parsed = init ++ (piece, some .root) :: rest) : init = [] := by
  cases init with
  | nil => rfl
  | cons first init =>
    unfold parsed at h
    cases hpieces : pieces '/' p.text.toList with
    | nil => exact absurd hpieces pieces_ne_nil
    | cons first' others =>
      rw [hpieces, List.cons_append] at h
      have hmem : (piece, some Component.root) ∈
          others.map fun piece => (piece, component? piece) := by
        rw [(List.cons.inj h).2]
        exact List.mem_append_right _ List.mem_cons_self
      obtain ⟨piece', -, heq⟩ := List.mem_map.mp hmem
      have hroot : component? piece' = some .root := (Prod.mk.inj heq).2
      unfold component? at hroot
      split at hroot <;> cases hroot

/-- What comes of going up from a path: nothing from the root and from the empty path, and otherwise
the path of the pieces that are left without the last component. -/
inductive ParentCases (p : Path) : Option Path → Prop
  | top : p.components = [] ∨ p.components = [.root] → ParentCases p none
  | up {kept rest : List (List Char × Option Component)} {c : Component} : p.parsed = kept ++ rest →
      rest.filterMap (·.2) = [c] → c ≠ .root → Closed kept → ParentCases p (some (ofParsed kept))

theorem parentCases (p : Path) : ParentCases p p.parent? := by
  obtain ⟨all, after, hparsed, hafter, hclosed, hdrop⟩ := exists_trim p.parsed
  have hcomponents : p.components = all.filterMap (·.2) := by
    rw [components, hparsed, List.filterMap_append, hafter, List.append_nil]
  rcases hclosed with rfl | ⟨init, piece, c, rfl⟩
  · have hnone : p.parent? = none := by simp only [parent?, hdrop, List.reverse_nil]
    rw [hnone]
    exact .top (.inl hcomponents)
  obtain ⟨kept, blanks, rfl, hblanks, hclosed, hdrop'⟩ := exists_trim init
  by_cases hroot : c = .root
  · subst hroot
    rw [List.append_assoc] at hparsed
    have hnil := eq_nil_of_parsed_root hparsed
    have hnone : p.parent? = none := by simp [parent?, hdrop]
    rw [hnone]
    exact .top (.inr (by rw [hcomponents, hnil]; rfl))
  · have hsome : p.parent? = some (ofParsed kept) := by
      have hmatch : p.parent? = match kept.reverse with
          | [] => some ⟨""⟩
          | kept => some (ofPieces (kept.map (·.1)).reverse) := by
        rw [← hdrop', parent?, hdrop, List.reverse_concat]
        cases c <;> first | exact absurd rfl hroot | rfl
      rw [hmatch]
      rcases hclosed with rfl | ⟨init, piece, c, rfl⟩
      · rfl
      · simp [ofParsed]
    rw [hsome]
    have hsplit : p.parsed = kept ++ (blanks ++ (piece, some c) :: after) := by simp [hparsed]
    exact .up hsplit (by simp [hblanks, hafter]) hroot hclosed

/-! ## What the parent is made of -/

theorem pieces_ofPieces {ps : List (List Char)} (hps : ∀ piece ∈ ps, '/' ∉ piece) (hne : ps ≠ [])
    (hroot : ps ≠ [[]]) : pieces '/' (ofPieces ps).text.toList = ps := by
  unfold ofPieces
  split
  · exact absurd rfl hroot
  · rw [String.toList_ofList]
    exact pieces_intercalate hps hne

/-- Pieces that come first in a path count for the same in a path of their own. -/
theorem parsed_ofPieces (h : p.parsed = kept ++ rest) (hne : kept ≠ [])
    (hroot : kept.map (·.1) ≠ [[]]) : (ofPieces (kept.map (·.1))).parsed = kept := by
  have hpieces : pieces '/' p.text.toList = kept.map (·.1) ++ rest.map (·.1) := by
    rw [← map_fst_parsed, h, List.map_append]
  have hkept : pieces '/' (ofPieces (kept.map (·.1))).text.toList = kept.map (·.1) :=
    pieces_ofPieces (fun piece hpiece => notMem_of_mem_pieces
      (hpieces ▸ List.mem_append_left _ hpiece)) (by simpa using hne) hroot
  obtain ⟨⟨first, component⟩, others, rfl⟩ := List.exists_cons_of_ne_nil hne
  rw [List.map_cons, List.cons_append] at hpieces
  rw [parsed, hpieces, List.cons_append] at h
  dsimp only at h
  obtain ⟨hfirst, hothers⟩ := List.cons.inj h
  rw [List.map_append] at hothers
  have hothers := (List.append_inj hothers (by simp)).1
  -- Whether the first piece is the only one matters only if it is empty, and then it is the root.
  have hsame : firstComponent? (others.map (·.1)).isEmpty first = component := by
    rw [← (Prod.mk.inj hfirst).2]
    cases others with
    | nil =>
      have hne : first ≠ [] := by simpa using hroot
      exact (firstComponent?_of_ne_nil hne _).trans (firstComponent?_of_ne_nil hne _).symm
    | cons other others => rfl
  rw [parsed, hkept, List.map_cons]
  dsimp only
  rw [hsame, hothers]

theorem eq_root_of_parsed (h : p.parsed = ([], some c) :: rest) : c = .root := by
  unfold parsed at h
  cases hpieces : pieces '/' p.text.toList with
  | nil => exact absurd hpieces pieces_ne_nil
  | cons first others =>
    rw [hpieces] at h
    obtain ⟨rfl, hc⟩ := Prod.mk.inj (List.cons.inj h).1
    rw [firstComponent?] at hc
    split at hc <;> cases hc
    rfl

/-- The path of pieces that come first in another: the empty path, the root, or a path of which the
last piece counts. -/
theorem ofParsed_cases (h : p.parsed = kept ++ rest) (hclosed : Closed kept) :
    kept = [] ∧ ofParsed kept = ⟨""⟩ ∨ kept = [([], some .root)] ∧ ofParsed kept = ⟨"/"⟩ ∨
      (ofParsed kept).parsed = kept ∧ ∃ init piece c, kept = init ++ [(piece, some c)] := by
  rcases hclosed with rfl | ⟨init, piece, c, rfl⟩
  · exact .inl ⟨rfl, rfl⟩
  have hpath : ofParsed (init ++ [(piece, some c)]) =
      ofPieces ((init ++ [(piece, some c)]).map (·.1)) := by
    cases init <;> rfl
  by_cases hroot : (init ++ [(piece, some c)]).map (·.1) = [[]]
  · obtain ⟨rfl, rfl⟩ : init = [] ∧ piece = [] := by
      cases init <;> simp_all
    obtain rfl := eq_root_of_parsed h
    exact .inr (.inl ⟨rfl, rfl⟩)
  · rw [hpath]
    exact .inr (.inr ⟨parsed_ofPieces h (by simp) hroot, init, piece, c, rfl⟩)

theorem components_ofParsed (h : p.parsed = kept ++ rest) (hclosed : Closed kept) :
    (ofParsed kept).components = kept.filterMap (·.2) := by
  rcases ofParsed_cases h hclosed with ⟨rfl, -⟩ | ⟨rfl, -⟩ | ⟨hparsed, -⟩
  · rfl
  · rfl
  · rw [components, hparsed]

theorem text_ofParsed_prefix (h : p.parsed = kept ++ rest) (hclosed : Closed kept)
    (hrest : rest ≠ []) : (ofParsed kept).text.toList <+: p.text.toList := by
  have hpieces : kept.map (·.1) <+: pieces '/' p.text.toList := by
    rw [← map_fst_parsed, h, List.map_append]
    exact List.prefix_append _ _
  rcases ofParsed_cases h hclosed with ⟨-, hpath⟩ | ⟨rfl, hpath⟩ | ⟨hparsed, init, piece, c, rfl⟩
  · rw [hpath]
    exact List.nil_prefix
  · have habsolute : p.isAbsolute := isAbsolute_iff.mpr ⟨rest.map (·.1), by simpa using hrest, by
      rw [← map_fst_parsed, h]
      rfl⟩
    obtain ⟨cs, hcs⟩ := List.head?_eq_some_iff.mp (of_decide_eq_true habsolute)
    rw [hpath, hcs]
    exact ⟨cs, rfl⟩
  · rw [← intercalate_pieces '/' (ofParsed _).text.toList, ← map_fst_parsed, hparsed,
      ← intercalate_pieces '/' p.text.toList]
    exact intercalate_prefix hpieces (by simp)

/-! ## Texts a path begins with -/

/-- A component that more text makes no difference to is written with no more text. -/
theorem eq_nil_of_text_append {more : List Char} (hc : c.text.toList = piece)
    {c' : Component} (hc' : c'.text.toList = piece ++ more) (h : c' = c) : more = [] := by
  rw [h, hc] at hc'
  exact List.self_eq_append_right.mp hc'

theorem component?_append (h : component? piece = some c) (more : List Char) :
    ∃ d, component? (piece ++ more) = some d ∧ (d = c → more = []) := by
  have hcounts := counts_of_component? h
  have hmore : piece ++ more ≠ [] ∧ piece ++ more ≠ ['.'] := by
    refine ⟨by simp [hcounts.1], fun heq => ?_⟩
    rcases List.append_eq_singleton_iff.mp heq with ⟨hnil, -⟩ | ⟨hdot, -⟩
    · exact hcounts.1 hnil
    · exact hcounts.2 hdot
  obtain ⟨c', hc', htext, -⟩ := exists_component? hcounts
  obtain ⟨d, hd, htext', -⟩ := exists_component? hmore
  obtain rfl := Option.some.inj (h.symm.trans hc')
  exact ⟨d, hd, eq_nil_of_text_append htext htext'⟩

theorem firstComponent?_append (h : firstComponent? true piece = some c) (more : List Char)
    (isOnly : Bool) :
    ∃ d, firstComponent? isOnly (piece ++ more) = some d ∧ (d = c → more = []) := by
  have hne : piece ≠ [] := by
    rintro rfl
    cases h
  obtain ⟨c', hc', htext⟩ := exists_firstComponent? hne true
  obtain ⟨d, hd, htext'⟩ :=
    exists_firstComponent? (List.append_ne_nil_of_left_ne_nil hne more) isOnly
  obtain rfl := Option.some.inj (h.symm.trans hc')
  exact ⟨d, hd, eq_nil_of_text_append htext htext'⟩

/-- A text that comes first in another ends inside one of its pieces: what is there of the piece
counts for less than the piece, or for something else. -/
theorem exists_parsed_of_prefix (h : e.text.toList <+: d.text.toList) :
    ∃ kept piece component more component' rest,
      e.parsed = kept ++ [(piece, component)] ∧
      d.parsed = kept ++ (piece ++ more, component') :: rest ∧
      ∀ c, component = some c → ∃ c', component' = some c' ∧ (c' = c → more = []) := by
  obtain ⟨ds, hds⟩ := h
  obtain ⟨init, piece, more, others, he, -, hd⟩ := exists_pieces_append '/' e.text.toList ds
  rw [hds] at hd
  cases init with
  | nil =>
    refine ⟨[], piece, firstComponent? true piece, more,
      firstComponent? others.isEmpty (piece ++ more),
      others.map fun piece => (piece, component? piece), ?_, ?_, ?_⟩
    · rw [parsed, he]
      rfl
    · rw [parsed, hd]
      rfl
    · exact fun c hc => firstComponent?_append hc more _
  | cons first init =>
    refine ⟨(first, firstComponent? false first) :: init.map fun piece => (piece, component? piece),
      piece, component? piece, more, component? (piece ++ more),
      others.map fun piece => (piece, component? piece), ?_, ?_, ?_⟩
    · have hmore : (init ++ [piece]).isEmpty = false := by simp
      simp [parsed, he, hmore]
    · have hmore : (init ++ (piece ++ more) :: others).isEmpty = false := by simp
      simp [parsed, hd, hmore]
    · exact fun c hc => component?_append hc more

theorem length_components_le (h : e.text.toList <+: d.text.toList) :
    e.components.length ≤ d.components.length := by
  obtain ⟨kept, piece, component, more, component', rest, he, hd, hcounts⟩ :=
    exists_parsed_of_prefix h
  rw [components, components, he, hd, List.filterMap_append, List.filterMap_append,
    List.length_append, List.length_append, List.filterMap_cons, List.filterMap_cons]
  cases component with
  | none => simp
  | some c =>
    obtain ⟨c', rfl, -⟩ := hcounts c rfl
    simp

theorem eq_of_toList_eq (h : e.text.toList = d.text.toList) : e = d := by
  obtain ⟨text⟩ := e
  obtain ⟨text'⟩ := d
  exact congrArg _ (String.toList_inj.mp h)

theorem eq_of_parsed_eq (h : e.parsed = d.parsed) : e = d := by
  apply eq_of_toList_eq
  rw [← intercalate_pieces '/' e.text.toList, ← map_fst_parsed, h, map_fst_parsed,
    intercalate_pieces]

/-- A text of which the last piece counts cannot be shorter with the same components. -/
theorem eq_of_prefix {init : List (List Char × Option Component)}
    (h : e.text.toList <+: d.text.toList) (hsame : e.Same d)
    (hlast : d.parsed = init ++ [(piece, some c)]) : e = d := by
  obtain ⟨kept, first, component, more, component', rest, he, hd, hcounts⟩ :=
    exists_parsed_of_prefix h
  have hcomponents : component.toList = component'.toList ++ rest.filterMap (·.2) := by
    rw [Same, components, components, he, hd, List.filterMap_append, List.filterMap_append] at hsame
    have hrest := List.append_cancel_left hsame
    revert hrest
    cases component <;> cases component' <;> exact id
  rcases List.eq_nil_or_concat rest with rfl | ⟨rest, last, rfl⟩
  · have hpiece : (first ++ more, component') = (piece, some c) :=
      (List.append_inj' (hd.symm.trans hlast) rfl).2 |> List.singleton_inj.mp
    obtain ⟨-, rfl⟩ := Prod.mk.inj hpiece
    obtain rfl : component = some c := by
      cases component with
      | none => cases hcomponents
      | some c' => rw [(List.cons.inj hcomponents).1]
    obtain ⟨c', hc', hmore⟩ := hcounts c rfl
    obtain rfl := hmore (Option.some.inj hc').symm
    rw [List.append_nil] at hd
    exact eq_of_parsed_eq (he.trans hd.symm)
  · -- The last piece counts, and nothing of it is left in the shorter text.
    exfalso
    rw [List.concat_eq_append, ← List.cons_append, ← List.append_assoc] at hd
    obtain rfl : last = (piece, some c) :=
      (List.append_inj' (hd.symm.trans hlast) rfl).2 |> List.singleton_inj.mp
    cases component with
    | none => simp at hcomponents
    | some c' =>
      obtain ⟨c', rfl, -⟩ := hcounts _ rfl
      simp at hcomponents

/-- The path is spelled as the other one begins, and no shorter beginning of that one leads to the
same directory. -/
structure Begins (d p : Path) : Prop where
  pre : d.text.toList <+: p.text.toList
  shortest : ∀ e : Path, e.text.toList <+: p.text.toList → e.Same d →
    d.text.toList <+: e.text.toList

theorem eq_ofParsed (h : p.parsed = kept ++ rest) (hclosed : Closed kept)
    (hpre : e.text.toList <+: (ofParsed kept).text.toList) (hsame : e.Same (ofParsed kept)) :
    e = ofParsed kept := by
  rcases ofParsed_cases h hclosed with ⟨-, hpath⟩ | ⟨-, hpath⟩ | ⟨hparsed, init, piece, c, rfl⟩
  · rw [hpath] at hpre ⊢
    exact eq_of_toList_eq (List.prefix_nil.mp hpre)
  · rw [hpath] at hpre hsame ⊢
    rcases List.prefix_cons_iff.mp hpre with hnil | ⟨cs, hcs, hnil⟩
    · rw [show e = ⟨""⟩ from eq_of_toList_eq hnil] at hsame
      exact absurd hsame (by decide)
    · rw [List.prefix_nil.mp hnil] at hcs
      exact eq_of_toList_eq hcs
  · exact eq_of_prefix hpre hsame hparsed

theorem begins_ofParsed (h : p.parsed = kept ++ rest) (hclosed : Closed kept) (hrest : rest ≠ []) :
    Begins (ofParsed kept) p where
  pre := text_ofParsed_prefix h hclosed hrest
  shortest e he hsame := by
    have hbegins := text_ofParsed_prefix h hclosed hrest
    rcases List.prefix_or_prefix_of_prefix he hbegins with hpre | hpre
    · rw [eq_ofParsed h hclosed hpre hsame]
    · exact hpre

/-! ## Going up -/

/-- The parent has all components of the path but the last one, and is how the path begins. -/
theorem parent_spec (h : p.parent? = some q) :
    ∃ c, c ≠ .root ∧ p.components = q.components ++ [c] ∧ Begins q p := by
  have hcases := parentCases p
  rw [h] at hcases
  cases hcases with
  | @up kept rest c hparsed hrest hroot hclosed =>
    refine ⟨c, hroot, ?_, begins_ofParsed hparsed hclosed (by rintro rfl; cases hrest)⟩
    rw [components_ofParsed hparsed hclosed, components, hparsed, List.filterMap_append, hrest]

theorem parent?_eq_none_iff : p.parent? = none ↔ p.components = [] ∨ p.components = [.root] := by
  constructor
  · intro h
    have hcases := parentCases p
    rw [h] at hcases
    cases hcases with
    | top htop => exact htop
  · intro htop
    by_contra hne
    obtain ⟨q, hq⟩ := Option.ne_none_iff_exists'.mp hne
    obtain ⟨c, hroot, hcomponents, -⟩ := parent_spec hq
    rw [hcomponents] at htop
    rcases htop with hnil | hsingle
    · exact List.append_ne_nil_of_right_ne_nil _ (List.cons_ne_nil _ _) hnil
    · rcases List.append_eq_singleton_iff.mp hsingle with ⟨-, hc⟩ | ⟨-, hc⟩
      · exact hroot (List.singleton_inj.mp hc)
      · cases hc

/-- The parent of a path, unless it is empty, is made of the first pieces of the path, but not of
all. -/
theorem exists_pieces_of_parent (h : p.parent? = some q) (hne : ¬ q.isEmpty) : ∃ ps, ps ≠ [] ∧
    ps <+: pieces '/' p.text.toList ∧ ps.length < (pieces '/' p.text.toList).length ∧
      q = ofPieces ps := by
  have hcases := parentCases p
  rw [h] at hcases
  cases hcases with
  | @up kept rest c hparsed hrest hroot hclosed =>
    have hpieces : pieces '/' p.text.toList = kept.map (·.1) ++ rest.map (·.1) := by
      rw [← map_fst_parsed, hparsed, List.map_append]
    have hmore : rest ≠ [] := by
      rintro rfl
      cases hrest
    obtain ⟨first, others, rfl⟩ := List.exists_cons_of_ne_nil (l := kept) fun hnil => by
      rw [hnil] at hne
      exact hne rfl
    refine ⟨(first :: others).map (·.1), by simp, hpieces ▸ List.prefix_append _ _, ?_, rfl⟩
    rw [hpieces, List.length_append]
    exact Nat.lt_add_of_pos_right (List.length_pos_iff.mpr (by simpa using hmore))

theorem isAbsolute_of_parent (h : p.parent? = some q) : q.isAbsolute ↔ p.isAbsolute := by
  obtain ⟨c, hroot, hcomponents, -⟩ := parent_spec h
  rw [isAbsolute_iff_root_mem, isAbsolute_iff_root_mem, hcomponents]
  simp [hroot.symm]

theorem ancestors_of_top (h : p.parent? = none) : p.ancestors = [p] := by
  unfold ancestors
  cases p.components.length with
  | zero => rfl
  | succ n => simp only [ancestorsUpTo, h]

theorem ancestors_of_parent (h : p.parent? = some q) : p.ancestors = p :: q.ancestors := by
  obtain ⟨c, -, hcomponents, -⟩ := parent_spec h
  have hlength : p.components.length = q.components.length + 1 := by simp [hcomponents]
  simp only [ancestors, hlength, ancestorsUpTo, h]

theorem parent_induction {motive : Path → Prop} (top : ∀ p, p.parent? = none → motive p)
    (up : ∀ p q, p.parent? = some q → motive q → motive p) (p : Path) : motive p := by
  cases h : p.parent? with
  | none => exact top p h
  | some q => exact up p q h (parent_induction top up q)
termination_by p.components.length
decreasing_by
  obtain ⟨c, -, hcomponents, -⟩ := parent_spec h
  simp [hcomponents]

/-! ## The directories above -/

/-- The directory is the path itself, or it is above it: its components are the first ones of the
path, though not all, it is absolute if the path is, and it is spelled as the path begins. -/
inductive IsAncestor (p : Path) : Path → Prop
  | self : IsAncestor p p
  | above {d : Path} : d.components <+: p.components → d.components ≠ p.components →
      (p.isAbsolute → d.isAbsolute) → Begins d p → IsAncestor p d

theorem Begins.trans (hd : Begins d q) (hq : Begins q p) : Begins d p where
  pre := hd.pre.trans hq.pre
  shortest e he hsame := by
    rcases List.prefix_or_prefix_of_prefix he hq.pre with hpre | hpre
    · exact hd.shortest e hpre hsame
    · exact hd.pre.trans hpre

theorem Begins.eq (hd : Begins d p) (hq : Begins q p) (hsame : d.Same q) : d = q :=
  eq_of_toList_eq ((hd.shortest q hq.pre hsame.symm).eq_of_length_le
    (hq.shortest d hd.pre hsame).length_le)

theorem isAncestor_of_parent (h : p.parent? = some q) (hd : IsAncestor q d) : IsAncestor p d := by
  obtain ⟨c, hroot, hcomponents, hbegins⟩ := parent_spec h
  have habsolute := isAbsolute_of_parent h
  cases hd with
  | self =>
    refine .above ?_ ?_ habsolute.mpr hbegins
    · rw [hcomponents]
      exact List.prefix_append _ _
    · simp [hcomponents]
  | above hpre hne habs hd =>
    refine .above ?_ ?_ (fun hp => habs (habsolute.mpr hp)) (hd.trans hbegins)
    · rw [hcomponents]
      exact hpre.trans (List.prefix_append _ _)
    · intro heq
      have hle := hpre.length_le
      rw [heq, hcomponents, List.length_append, List.length_singleton] at hle
      omega

theorem isAncestor_parent (h : p.parent? = some q) (hd : IsAncestor p d) (hne : d ≠ p) :
    IsAncestor q d := by
  obtain ⟨c, hroot, hcomponents, hbegins⟩ := parent_spec h
  cases hd with
  | self => exact absurd rfl hne
  | above hpre hproper habs hd =>
    have hpre' : d.components <+: q.components := by
      rw [hcomponents] at hpre hproper
      rcases List.prefix_concat_iff.mp hpre with heq | hpre
      · exact absurd heq hproper
      · exact hpre
    -- With the components of the parent it is the parent, which is spelled as the path begins too.
    by_cases hsame : d.components = q.components
    · rw [hd.eq hbegins hsame]
      exact .self
    · refine .above hpre' hsame (fun hq => habs ((isAbsolute_of_parent h).mp hq)) ⟨?_, ?_⟩
      · -- A longer beginning of the path than the parent would have more components.
        rcases List.prefix_or_prefix_of_prefix hd.pre hbegins.pre with hpre | hpre
        · exact hpre
        · exact absurd (hpre'.eq_of_length_le (length_components_le hpre)) hsame
      · exact fun e he => hd.shortest e (he.trans hbegins.pre)

theorem eq_of_isAncestor_of_top (h : p.parent? = none) (hd : IsAncestor p d) : d = p := by
  cases hd with
  | self => rfl
  | above hpre hproper habs =>
    exfalso
    rcases parent?_eq_none_iff.mp h with hnil | hroot
    · rw [hnil] at hpre hproper
      exact hproper (List.prefix_nil.mp hpre)
    · rw [isAbsolute_iff_root_mem, isAbsolute_iff_root_mem, hroot] at habs
      rw [hroot] at hpre hproper
      rcases List.prefix_cons_iff.mp hpre with hnil | ⟨cs, hcs, hnil⟩
      · simp [hnil] at habs
      · rw [List.prefix_nil.mp hnil] at hcs
        exact hproper hcs

theorem IsAncestor.length_lt (h : IsAncestor p d) (hne : d ≠ p) :
    d.components.length < p.components.length := by
  cases h with
  | self => exact absurd rfl hne
  | above hpre hproper =>
    exact lt_of_le_of_ne hpre.length_le fun heq => hproper (hpre.eq_of_length heq)

/-- Going up passes the directories above a path, and nothing else. -/
theorem mem_ancestors_iff : d ∈ p.ancestors ↔ IsAncestor p d := by
  induction p using parent_induction with
  | top p h =>
    rw [ancestors_of_top h, List.mem_singleton]
    exact ⟨fun heq => heq ▸ .self, eq_of_isAncestor_of_top h⟩
  | up p q h ih =>
    rw [ancestors_of_parent h, List.mem_cons, ih]
    constructor
    · rintro (rfl | hd)
      · exact .self
      · exact isAncestor_of_parent h hd
    · intro hd
      by_cases heq : d = p
      · exact .inl heq
      · exact .inr (isAncestor_parent h hd heq)

end Path

/-! ## The search for a manifest -/

namespace ProjectManifest

open ModularBuild.Path

variable {isFile : Path → Bool} {cwd d : Path} {r : Option Path}

/-- A search that goes up from a directory, without a bound, and what it ends with. -/
inductive Search (isFile : Path → Bool) : Path → Option Path → Prop
  | found {d : Path} : isFile (d / ⟨fileName⟩) → Search isFile d (some (d / ⟨fileName⟩))
  | climb {d q : Path} {r : Option Path} : ¬ isFile (d / ⟨fileName⟩) → d.parent? = some q →
      Search isFile q r → Search isFile d r
  | missing {d : Path} : ¬ isFile (d / ⟨fileName⟩) → d.parent? = none → Search isFile d none

theorem search_find? (isFile : Path → Bool) (d : Path) : Search isFile d (find? isFile d) := by
  induction d using parent_induction with
  | top d h =>
    rw [find?, ancestors_of_top h, List.map_singleton, List.find?_singleton]
    split
    · exact .found ‹_›
    · exact .missing ‹_› h
  | up d q h ih =>
    by_cases hd : isFile (d / ⟨fileName⟩)
    · rw [find?, ancestors_of_parent h, List.map_cons, List.find?_cons_of_pos hd]
      exact .found hd
    · rw [find?, ancestors_of_parent h, List.map_cons, List.find?_cons_of_neg hd]
      exact .climb hd h ih

theorem Search.unique {found : Option Path} (h : Search isFile d r) (h' : Search isFile d found) :
    r = found := by
  induction h with
  | found hd =>
    cases h' with
    | found => rfl
    | climb hd' | missing hd' => exact absurd hd hd'
  | climb hd hq hr ih =>
    cases h' with
    | found hd' => exact absurd hd' hd
    | climb _ hq' hr' =>
      obtain rfl := Option.some.inj (hq.symm.trans hq')
      exact ih hr'
    | missing _ hnone => cases hq.symm.trans hnone
  | missing hd hnone =>
    cases h' with
    | found hd' => exact absurd hd' hd
    | climb _ hq => cases hq.symm.trans hnone
    | missing => rfl

/-- The directory has a manifest, and those that are nearer have none. -/
structure Nearest (isFile : Path → Bool) (cwd d : Path) : Prop where
  isAncestor : IsAncestor cwd d
  hasManifest : isFile (d / ⟨fileName⟩)
  longest : ∀ e, IsAncestor cwd e → isFile (e / ⟨fileName⟩) → e ≠ d →
    e.components.length < d.components.length

theorem Nearest.eq (h : Nearest isFile cwd d) {e : Path} (h' : Nearest isFile cwd e) : d = e := by
  by_contra hne
  have hlt := h.longest e h'.isAncestor h'.hasManifest (Ne.symm hne)
  exact lt_asymm hlt (h'.longest d h.isAncestor h.hasManifest hne)

/-- What a search from a directory may end with. -/
inductive Outcome (isFile : Path → Bool) (cwd : Path) : Option Path → Prop
  | nearest {d : Path} : Nearest isFile cwd d → Outcome isFile cwd (some (d / ⟨fileName⟩))
  | missing : (∀ d, IsAncestor cwd d → ¬ isFile (d / ⟨fileName⟩)) → Outcome isFile cwd none

theorem Search.outcome (h : Search isFile cwd r) : Outcome isFile cwd r := by
  induction h with
  | found hd => exact .nearest ⟨.self, hd, fun e he _ hne => he.length_lt hne⟩
  | @climb cwd q r hd hq hr ih =>
    have hbelow : ∀ e, IsAncestor cwd e → isFile (e / ⟨fileName⟩) → IsAncestor q e :=
      fun e he hfile => isAncestor_parent hq he fun heq => hd (heq ▸ hfile)
    cases ih with
    | nearest hnearest =>
      exact .nearest ⟨isAncestor_of_parent hq hnearest.isAncestor, hnearest.hasManifest,
        fun e he hfile hne => hnearest.longest e (hbelow e he hfile) hfile hne⟩
    | missing hnone => exact .missing fun e he hfile => hnone e (hbelow e he hfile) hfile
  | missing hd hnone =>
    exact .missing fun e he hfile => hd (eq_of_isAncestor_of_top hnone he ▸ hfile)

theorem Outcome.eq_some_iff (h : Outcome isFile cwd r) {m : Path} :
    r = some m ↔ ∃ d, Nearest isFile cwd d ∧ m = d / ⟨fileName⟩ := by
  cases h with
  | @nearest d hd =>
    constructor
    · rintro ⟨⟩
      exact ⟨d, hd, rfl⟩
    · rintro ⟨e, he, rfl⟩
      rw [hd.eq he]
  | missing hnone =>
    constructor
    · rintro ⟨⟩
    · rintro ⟨d, hd, -⟩
      exact absurd hd.hasManifest (hnone d hd.isAncestor)

theorem Outcome.eq_none_iff (h : Outcome isFile cwd r) :
    r = none ↔ ∀ d, IsAncestor cwd d → ¬ isFile (d / ⟨fileName⟩) := by
  cases h with
  | @nearest d hd =>
    constructor
    · rintro ⟨⟩
    · intro hnone
      exact absurd hd.hasManifest (hnone d hd.isAncestor)
  | missing hnone => exact ⟨fun _ => hnone, fun _ => rfl⟩

theorem toOption_locate : (locate isFile cwd).toOption = find? isFile cwd := by
  unfold locate
  cases find? isFile cwd <;> rfl

theorem locate_eq_ok_iff {m : Path} : locate isFile cwd = .ok m ↔ find? isFile cwd = some m := by
  unfold locate
  cases find? isFile cwd <;> simp

theorem exists_locate_eq_error_iff :
    (∃ failure, locate isFile cwd = .error failure) ↔ find? isFile cwd = none := by
  unfold locate
  cases find? isFile cwd <;> simp

/-- The search for a manifest ends, and with the manifest of the nearest directory that has one at
or above the working directory. It fails if there is none. -/
theorem locate_nearest (isFile : Path → Bool) (cwd : Path) :
    (∀ found, Search isFile cwd found ↔ (locate isFile cwd).toOption = found) ∧
      (∀ m, locate isFile cwd = .ok m ↔ ∃ d, Nearest isFile cwd d ∧ m = d / ⟨fileName⟩) ∧
      ((∃ failure, locate isFile cwd = .error failure) ↔
        ∀ d, IsAncestor cwd d → ¬ isFile (d / ⟨fileName⟩)) := by
  have hsearch := search_find? isFile cwd
  refine ⟨fun found => ?_, fun m => ?_, ?_⟩
  · rw [toOption_locate]
    exact ⟨hsearch.unique, fun heq => heq ▸ hsearch⟩
  · rw [locate_eq_ok_iff, hsearch.outcome.eq_some_iff]
  · rw [exists_locate_eq_error_iff, hsearch.outcome.eq_none_iff]

/-- Going up from a directory that is spelled with more than its components: the manifest above is
nearer than the one in the root. -/
theorem locate_nearest_detour : ∃ d,
    Nearest (fun p => p = "/Stratum.toml" || p = "/work//demo/Stratum.toml")
      "/work//demo/./libs/basis/" d ∧
    (⟨"/work//demo/Stratum.toml"⟩ : Path) = d / ⟨fileName⟩ :=
  ((locate_nearest _ _).2.1 _).mp (by decide)

end ProjectManifest

end ModularBuild
