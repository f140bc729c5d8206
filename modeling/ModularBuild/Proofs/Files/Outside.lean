import ModularBuild.Proofs.Files.Removal
import ModularBuild.Proofs.Path.Ancestors
import ModularBuild.Proofs.Path.Resolution
import ModularBuild.Proofs.Preservation

/-!
# What stays below a location

A path that is inside leads, appended to another, to a place below that of the other
(`below_lexical_join`). Making the directories that it lies in, and removing the file that it names,
changes nothing but what lies below (`StaysBelow`): a directory is made only where there is none,
and everything that the path of the root passes is there.
-/

namespace ModularBuild

namespace FileSystem

open ModularBuild.Path

variable {base l cwd : Location} {fs fs' fs'' : FileSystem} {p q : Path} {e : FileEntry}

/-! ## Places below a location -/

/-- The location is at the end of names that go down from another, at least one. -/
def Below (base l : Location) : Prop := base <+: l ∧ l ≠ base

instance (base l : Location) : Decidable (Below base l) :=
  inferInstanceAs (Decidable (_ ∧ _))

theorem below_append {names : List String} (h : names ≠ []) : Below base (base ++ names) :=
  ⟨List.prefix_append _ _, fun heq => h (List.append_right_eq_self.mp heq)⟩

theorem enter_ofList (here : Location) (piece : List Char) :
    enter here (String.ofList piece) = match component? piece with
      | some .parent => here.dropLast
      | some (.normal name) => here ++ [name]
      | _ => here := by
  have hofList : ∀ s : String, String.ofList piece = s ↔ piece = s.toList := by
    intro s
    constructor
    · rintro rfl
      exact String.toList_ofList.symm
    · rintro rfl
      exact String.ofList_toList
  fun_cases component? piece with
  | case1 | case2 | case3 => rfl
  | case4 _ hempty hdot hdots =>
    have hstay : ¬ isStay (String.ofList piece) := by
      simp only [isStay, hofList, Bool.or_eq_true, decide_eq_true_eq, not_or]
      exact ⟨hempty, hdot⟩
    have hup : String.ofList piece ≠ ".." := (hofList "..").not.mpr hdots
    rw [enter, if_neg hstay, if_neg hup]

theorem foldl_enter_of_normalizeOnto (base : Location) {pieces : List (List Char)}
    {onto names : List String}
    (h : normalizeOnto onto (pieces.filterMap component?) = some names) :
    (pieces.map String.ofList).foldl enter (base ++ onto.reverse) = base ++ names.reverse := by
  induction pieces generalizing onto with
  | nil =>
    cases h
    rfl
  | cons piece pieces ih =>
    rw [List.map_cons, List.foldl_cons, enter_ofList]
    rw [List.filterMap_cons] at h
    cases hpiece : component? piece with
    | none =>
      rw [hpiece] at h
      exact ih h
    | some c =>
      rw [hpiece] at h
      cases c with
      | root => cases h
      | current => exact ih h
      | parent =>
        cases onto with
        | nil => cases h
        | cons top onto =>
          simp only [List.reverse_cons, ← List.append_assoc, List.dropLast_concat]
          exact ih h
      | normal name =>
        have hnames := ih h
        rwa [List.reverse_cons, ← List.append_assoc] at hnames

/-- The steps of a path and of one appended to it, an empty one at the end of the first apart. -/
theorem exists_steps_join (h : ¬ q.isAbsolute) : ∃ names, names <+: steps p ∧
    (∀ here, names.foldl enter here = (steps p).foldl enter here) ∧
      steps (p / q) = names ++ steps q := by
  obtain ⟨ps, hps, hjoin⟩ := exists_pieces_join (p := p) h
  have hsteps : steps (p / q) = ps.map String.ofList ++ steps q := by
    rw [steps, hjoin, List.map_append]
    rfl
  refine ⟨ps.map String.ofList, ?_, fun here => ?_, hsteps⟩
  · rcases hps with hps | hps
    · have hall : steps p = ps.map String.ofList := congrArg (List.map String.ofList) hps
      exact hall ▸ List.prefix_refl _
    · rw [steps, hps, List.map_append]
      exact List.prefix_append _ _
  · rcases hps with hps | hps
    · rw [steps, hps]
    · rw [steps, hps, List.map_append, List.foldl_append]
      rfl

theorem lexical_join (h : ¬ q.isAbsolute) :
    lexical cwd (p / q) = (steps q).foldl enter (lexical cwd p) := by
  obtain ⟨names, -, hnames, hsteps⟩ := exists_steps_join (p := p) h
  rw [lexical, isAbsolute_join h, hsteps, List.foldl_append, hnames, lexical]

/-- A path that is inside leads to a place below the one to which it is appended. -/
theorem below_lexical_join (cwd : Location) (p : Path) (h : q.IsInside) :
    Below (lexical cwd p) (lexical cwd (p / q)) := by
  obtain ⟨names, hnames, hne⟩ := isInside_iff.mp h
  rw [normalizeOnto_components h.not_isAbsolute] at hnames
  have hbelow := foldl_enter_of_normalizeOnto (lexical cwd p) hnames
  rw [List.reverse_nil, List.append_nil] at hbelow
  rw [lexical_join h.not_isAbsolute, steps, hbelow]
  exact below_append (by simpa using hne)

/-! ## Places on the way -/

/-- The place is on the way that a path describes, its end included. -/
def Passes (cwd : Location) (p : Path) (l : Location) : Prop :=
  ∃ names, names <+: steps p ∧ names.foldl enter (if p.isAbsolute then [] else cwd) = l

theorem passes_lexical (cwd : Location) (p : Path) : Passes cwd p (lexical cwd p) :=
  ⟨steps p, List.prefix_refl _, rfl⟩

/-- The way to a directory is part of the way to what is in it. -/
theorem passes_of_parent (h : p.parent? = some q) (hne : ¬ q.isEmpty) (hl : Passes cwd q l) :
    Passes cwd p l := by
  obtain ⟨ps, hnil, hpre, hlength, rfl⟩ := exists_pieces_of_parent h hne
  obtain ⟨names, hnames, rfl⟩ := hl
  by_cases hroot : ps = [[]]
  · subst hroot
    -- The parent is the root: nothing is entered on the way there.
    have habsolute : p.isAbsolute := by
      obtain ⟨rest, hrest⟩ := hpre
      refine isAbsolute_iff.mpr ⟨rest, ?_, hrest.symm⟩
      rintro rfl
      rw [← hrest] at hlength
      exact absurd hlength (lt_irrefl _)
    have hblank : ∀ name ∈ names, name = "" := by
      intro name hname
      have hmem : name ∈ ["", ""] := hnames.subset hname
      simpa using hmem
    exact ⟨[], List.nil_prefix, by rw [if_pos habsolute, foldl_enter_of_blank hblank]; rfl⟩
  · have hpieces : pieces '/' (ofPieces ps).text.toList = ps :=
      pieces_ofPieces (fun piece hpiece => notMem_of_mem_pieces (hpre.subset hpiece)) hnil hroot
    have habsolute : (ofPieces ps).isAbsolute = p.isAbsolute := by
      rw [Bool.eq_iff_iff, isAbsolute_iff, isAbsolute_iff, hpieces]
      obtain ⟨more, hmore⟩ := hpre
      rw [← hmore]
      constructor
      · rintro ⟨rest, hrest, rfl⟩
        exact ⟨rest ++ more, by simp [hrest], rfl⟩
      · rintro ⟨rest, -, hrest⟩
        obtain ⟨first, others, rfl⟩ := List.exists_cons_of_ne_nil hnil
        obtain rfl : first = [] := (List.cons.inj hrest).1
        exact ⟨others, fun h => hroot (by rw [h]), rfl⟩
    refine ⟨names, hnames.trans ?_, by rw [habsolute]⟩
    rw [steps, hpieces]
    exact hpre.map String.ofList

theorem passes_of_mem_ancestors (cwd : Location) (h : q ∈ p.ancestors) :
    q.isEmpty ∨ ∀ l, Passes cwd q l → Passes cwd p l := by
  induction p using parent_induction with
  | top p htop =>
    rw [ancestors_of_top htop, List.mem_singleton] at h
    exact .inr fun _ hl => h ▸ hl
  | up p r hparent ih =>
    rw [ancestors_of_parent hparent, List.mem_cons] at h
    rcases h with rfl | h
    · exact .inr fun _ hl => hl
    by_cases hr : r.isEmpty
    · have hempty : r = ⟨""⟩ := by
        cases r
        simpa [isEmpty] using hr
      rw [hempty, ancestors_of_top rfl, List.mem_singleton] at h
      exact .inl (h ▸ rfl)
    · exact (ih h).imp_right fun hpasses l hl => passes_of_parent hparent hr (hpasses l hl)

theorem exists_foldl_enter_eq (base : Location) (hq : q.IsInside) {names : List String}
    (h : names <+: steps q) : ∃ down, names.foldl enter base = base ++ down := by
  obtain ⟨ps, ⟨more, hmore⟩, rfl⟩ := List.prefix_map_iff.mp h
  obtain ⟨all, hall, -⟩ := isInside_iff.mp hq
  rw [normalizeOnto_components hq.not_isAbsolute, ← hmore, List.filterMap_append,
    normalizeOnto_append] at hall
  obtain ⟨down, hdown, -⟩ := Option.bind_eq_some_iff.mp hall
  have hfold := foldl_enter_of_normalizeOnto base hdown
  rw [List.reverse_nil, List.append_nil] at hfold
  exact ⟨_, hfold⟩

/-- What a path that is inside passes, appended to another, is on the way to the other, or below
it. -/
theorem passes_join (hq : q.IsInside) (hl : Passes cwd (p / q) l) :
    Passes cwd p l ∨ Below (lexical cwd p) l := by
  obtain ⟨names, hnames, hl⟩ := hl
  obtain ⟨start, hstart, hfold, hsteps⟩ := exists_steps_join (p := p) hq.not_isAbsolute
  rw [isAbsolute_join hq.not_isAbsolute] at hl
  rw [hsteps] at hnames
  rcases List.prefix_or_prefix_of_prefix hnames (List.prefix_append _ _) with hwithin | ⟨t, rfl⟩
  · exact .inl ⟨names, hwithin.trans hstart, hl⟩
  · obtain ⟨down, hdown⟩ := exists_foldl_enter_eq (lexical cwd p) hq
      ((List.prefix_append_right_inj _).mp hnames)
    rw [List.foldl_append, hfold] at hl
    obtain rfl : lexical cwd p ++ down = l := hdown.symm.trans hl
    by_cases hnil : down = []
    · rw [hnil, List.append_nil]
      exact .inl (passes_lexical cwd p)
    · exact .inr (below_append hnil)

/-! ## Changes below a location -/

end FileSystem

/-- The entry, its time apart. -/
def FileEntry.untimed (e : FileEntry) : FileEntry := { e with modified := 0 }

namespace FileSystem

open ModularBuild.Path

variable {base l cwd : Location} {fs fs' fs'' : FileSystem} {p q : Path}

/-- Nothing is a link, and what does not lie below the location is as it was, its time apart. -/
structure StaysBelow (base : Location) (fs fs' : FileSystem) : Prop where
  linkFree : LinkFree fs'
  outside : ∀ l, ¬ Below base l →
    (fs'.at? l).map FileEntry.untimed = (fs.at? l).map FileEntry.untimed

theorem StaysBelow.refl (h : LinkFree fs) : StaysBelow base fs fs := ⟨h, fun _ _ => rfl⟩

theorem StaysBelow.trans (h : StaysBelow base fs fs') (h' : StaysBelow base fs' fs'') :
    StaysBelow base fs fs'' := ⟨h'.linkFree, fun l hl => (h'.outside l hl).trans (h.outside l hl)⟩

theorem StaysBelow.isSome_at? (h : StaysBelow base fs fs') (hl : ¬ Below base l) :
    (fs'.at? l).isSome = (fs.at? l).isSome := by
  simpa using congrArg Option.isSome (h.outside l hl)

theorem staysBelow_of_thinned {gone : Location → Prop} (hfree : LinkFree fs)
    (h : Thinned gone fs fs') (hgone : ∀ l, gone l → Below base l) : StaysBelow base fs fs' := by
  constructor
  · intro l e' he' target hlink
    obtain ⟨e, he, t, rfl⟩ := h.exists_at? he'
    exact hfree l e he target hlink
  · intro l hl
    cases he : fs.at? l with
    | none => rw [h.absent l he]
    | some e =>
      rcases h.kept l e he with ⟨t, ht⟩ | ⟨-, -, hmeant⟩
      · rw [ht]
        rfl
      · exact absurd (hgone l hmeant) hl

/-- A directory made below stays below; the time of the directory that it is in does not count. -/
theorem staysBelow_create (hfree : LinkFree fs) (h : Below base l) (mode : Nat) :
    StaysBelow base fs (fs.create l .directory mode) := by
  have hset : StaysBelow base fs
      (fs.tick.set l { content := .directory, mode, modified := fs.tick.clock }) := by
    constructor
    · intro k e he target
      by_cases hnil : k = []
      · subst hnil
        exact hfree [] e he target
      · rw [at?_set hnil] at he
        split at he
        · cases he
          exact nofun
        · exact hfree k e he target
    · intro k hk
      by_cases hnil : k = []
      · subst hnil
        rfl
      · rw [at?_set hnil, if_neg]
        · rfl
        · rintro rfl
          exact hk h
  have hstamp := @thinned_stamp (fun _ => False)
  exact hset.trans (staysBelow_of_thinned hset.linkFree hstamp fun _ hgone => hgone.elim)

theorem staysBelow_removeIfExists (hfree : LinkFree fs) (h : Below base (lexical cwd p)) :
    StaysBelow base fs ((FileTask.removeIfExists cwd p).exec fs).2 := by
  refine staysBelow_of_thinned hfree (thinned_removeIfExists fs cwd p) fun l hl => ?_
  rw [hl.eq_lexical hfree]
  exact h

theorem makeDirectory_eq_ok (h : fs.makeDirectory cwd p = .ok fs') : ∃ l asDirectory,
    fs.resolveEntry cwd p = .ok (.vacant l asDirectory) ∧ fs.at? l = none ∧
      fs' = fs.create l .directory directoryMode := by
  unfold makeDirectory at h
  cases hplace : fs.resolveEntry cwd p with
  | error e =>
    rw [hplace] at h
    cases h
  | ok place =>
    rw [hplace] at h
    cases place with
    | found l e => cases h
    | vacant l asDirectory =>
      replace h : fs.createAt l .directory directoryMode = .ok fs' := h
      unfold createAt at h
      split at h
      · exact ⟨l, asDirectory, rfl, at?_of_resolveEntry hplace, (Except.ok.inj h).symm⟩
      · cases h

theorem staysBelow_makeDirectory (hfree : LinkFree fs)
    (h : Below base (lexical cwd p) ∨ (fs.at? (lexical cwd p)).isSome)
    (hmade : fs.makeDirectory cwd p = .ok fs') : StaysBelow base fs fs' := by
  obtain ⟨l, asDirectory, hplace, hvacant, rfl⟩ := makeDirectory_eq_ok hmade
  have hl : l = lexical cwd p := location_of_resolveEntry hfree hplace
  rw [← hl, hvacant] at h
  exact staysBelow_create hfree (h.resolve_right nofun) _

/-- A directory can be wanted without harm where it would be below, and where something is. -/
def Harmless (base : Location) (fs : FileSystem) (cwd : Location) (p : Path) : Prop :=
  Below base (lexical cwd p) ∨ (fs.at? (lexical cwd p)).isSome

theorem StaysBelow.harmless (h : StaysBelow base fs fs') (hp : Harmless base fs cwd p) :
    Harmless base fs' cwd p := by
  by_cases hbelow : Below base (lexical cwd p)
  · exact .inl hbelow
  · rw [Harmless, h.isSome_at? hbelow]
    exact hp

theorem preserves_change {I : FileSystem → Prop} {f : FileSystem → Except FileError FileSystem}
    (h : ∀ fs fs', I fs → f fs = .ok fs' → I fs') : Preserves I (FileTask.change f).run := by
  intro fs hfs
  show I ((FileTask.change f).exec fs).2
  rw [FileTask.exec_change]
  cases hf : f fs with
  | ok fs' => exact h fs fs' hfs hf
  | error e => exact hfs

/-- What every directory that is made leaves true, all of them leave true. -/
theorem preserves_makeDirectories {I : FileSystem → Prop} {ps : List Path}
    (h : ∀ p ∈ ps, ¬ p.isEmpty → ∀ fs fs', I fs → fs.makeDirectory cwd p = .ok fs' → I fs') :
    Preserves I (FileTask.makeDirectories cwd ps).run := by
  induction ps with
  | nil => exact preserves_throw _
  | cons p above ih =>
    obtain ⟨hp, habove⟩ := List.forall_mem_cons.mp h
    unfold FileTask.makeDirectories
    by_cases hempty : p.isEmpty
    · rw [if_pos hempty]
      exact preserves_ok _
    rw [if_neg hempty]
    have hmake : Preserves I (do
        try FileTask.change (·.makeDirectory cwd p)
        catch e => if (← get).isDirectory cwd p then return () else throw e
          : FileTask Unit).run := by
      refine Preserves.bind (Preserves.tryCatch ?_ fun e => ?_) fun answer _ => ?_
      · exact Preserves.bind (preserves_change (hp hempty)) fun _ _ => preserves_ok _
      · refine preserves_get.bind fun now _ => ?_
        split
        · exact preserves_ok _
        · exact (preserves_throw e).bind fun _ _ => preserves_ok _
      · cases answer <;> exact preserves_ok _
    refine preserves_get.bind fun now _ => ?_
    split
    · exact (ih habove).bind fun _ _ => hmake
    · exact hmake

/-- Everything on the way of a path is there, and nothing of it below its end. -/
def Reached (fs : FileSystem) (cwd : Location) (p : Path) : Prop :=
  ∀ l, Passes cwd p l → (fs.at? l).isSome ∧ ¬ Below (lexical cwd p) l

/-- From a start that is reached, the directories on the way of a path that is inside are made below
the start. -/
theorem preserves_ensureDirectory {root dir : Path} (hroot : Reached fs cwd root) (hp : p.IsInside)
    (hdir : FileTask.directoryOf? (root / p) = some dir) :
    Preserves (StaysBelow (lexical cwd root) fs) (FileTask.ensureDirectory cwd dir).run := by
  obtain ⟨hparent, hne⟩ := Option.filter_eq_some_iff.mp hdir
  have hharmless : ∀ q ∈ dir.ancestors, q.isEmpty ∨ Harmless (lexical cwd root) fs cwd q := by
    intro q hq
    refine (passes_of_mem_ancestors cwd hq).imp_right fun hpasses => ?_
    have hway := passes_of_parent hparent (by simpa using hne) (hpasses _ (passes_lexical cwd q))
    rcases passes_join hp hway with hstart | hbelow
    · exact .inr (hroot _ hstart).1
    · exact .inl hbelow
  refine preserves_get.bind fun now _ => ?_
  split
  · exact preserves_ok _
  · exact preserves_makeDirectories fun q hq hempty fs₁ fs₂ h₁ hmade =>
      h₁.trans (staysBelow_makeDirectory h₁.linkFree
        (h₁.harmless ((hharmless q hq).resolve_left hempty)) hmade)

end FileSystem

end ModularBuild
