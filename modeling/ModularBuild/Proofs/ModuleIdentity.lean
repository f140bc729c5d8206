import Mathlib.Data.List.DropRight
import ModularBuild.Proofs.Path.Join
import ModularBuild.Proofs.ProjectLoading

/-!
# One directory, one module

A module is its text, and files are reached by the components of that text. The two agree as far as
a text is plain: any number of `./` or one slash, then names between single slashes, then any number
of slashes. What counts of such a text are its names (`Plain`), which are both the text of the
module (`text_ofString`) and the directory it leads to (`Plain.directoryOf_eq`). Slashes that are
doubled and a `.` after a name stay in the text of the module, though they lead nowhere else.
-/

namespace ModularBuild

/-! ## What a module's text is cut down to -/

section Text

variable {kept dots ps : List (List Char)} {p seps rest : List Char} {s t : String}

theorem stripTrailingSeparators_append {cs : List Char} (ht : t.toList = cs ++ seps)
    (hcs : ∃ c, cs.getLast? = some c ∧ ¬ isSeparator c) (hseps : ∀ c ∈ seps, isSeparator c) :
    (stripTrailingSeparators t).toList = cs := by
  have hdrop : (t.toList.reverse.dropWhile isSeparator).reverse = cs := by
    rw [ht, List.reverse_append, List.dropWhile_append_of_pos (by simpa using hseps)]
    obtain ⟨c, hc, hsep⟩ := hcs
    obtain ⟨init, rfl⟩ := List.getLast?_eq_some_iff.mp hc
    exact List.rdropWhile_concat_neg _ _ _ hsep
  rw [stripTrailingSeparators, hdrop]
  obtain ⟨c, hc, -⟩ := hcs
  cases cs with
  | nil => cases hc
  | cons c cs => exact String.toList_ofList

/-- Pieces that are a `.` are dropped with the slashes after them. -/
theorem dropDotSlash_intercalate (hdots : ∀ p ∈ dots, p = ['.']) (hne : ps ≠ []) :
    dropDotSlash (List.intercalate ['/'] (dots ++ ps)) =
      dropDotSlash (List.intercalate ['/'] ps) := by
  induction dots with
  | nil => rfl
  | cons d dots ih =>
    obtain ⟨rfl, hrest⟩ := List.forall_mem_cons.mp hdots
    rw [List.cons_append,
      List.intercalate_cons_of_ne_nil (List.append_ne_nil_of_right_ne_nil _ hne)]
    exact ih hrest

/-- Only a first piece that is a `.` is dropped, and only where a slash comes after it. -/
theorem dropDotSlash_eq_self {cs : List Char} (h : pieces '/' cs = p :: ps)
    (hp : p ≠ ['.'] ∨ ps = []) : dropDotSlash cs = cs := by
  unfold dropDotSlash
  split
  · rename_i rest
    have hpieces : pieces '/' (['.'] ++ '/' :: rest) = ['.'] :: pieces '/' rest :=
      pieces_append_separator
    obtain ⟨rfl, rfl⟩ := List.cons.inj (hpieces.symm.trans h)
    exact absurd rfl (hp.resolve_right pieces_ne_nil)
  · rfl

/-- What is left of a text is what comes after every `./` at its start. -/
theorem exists_dropDotSlash (cs : List Char) : ∃ k,
    cs = (List.replicate k ['.', '/']).flatten ++ dropDotSlash cs ∧
      ¬ ['.', '/'] <+: dropDotSlash cs := by
  induction cs using dropDotSlash.induct with
  | case1 rest ih =>
    obtain ⟨k, hk, hrest⟩ := ih
    refine ⟨k + 1, ?_, hrest⟩
    rw [List.replicate_succ, List.flatten_cons, List.append_assoc, dropDotSlash, ← hk]
    rfl
  | case2 cs hcs =>
    have hself : dropDotSlash cs = cs := by
      unfold dropDotSlash
      split
      · exact absurd rfl (hcs _)
      · rfl
    refine ⟨0, by simp [hself], ?_⟩
    rw [hself]
    rintro ⟨rest, rfl⟩
    exact hcs rest rfl

theorem dropDotSlash_append (k : Nat) (h : ¬ ['.', '/'] <+: rest) :
    dropDotSlash ((List.replicate k ['.', '/']).flatten ++ rest) = rest := by
  induction k with
  | zero =>
    show dropDotSlash rest = rest
    unfold dropDotSlash
    split
    · exact absurd ⟨_, rfl⟩ h
    · rfl
  | succ k ih =>
    rw [List.replicate_succ, List.flatten_cons, List.append_assoc]
    exact ih

theorem slashed_of_notMem (h : '\\' ∉ s.toList) : slashed s = s := by
  have hsame : ∀ c ∈ s.toList, (if c = '\\' then '/' else c) = c := fun c hc =>
    if_neg fun (heq : c = '\\') => h (heq ▸ hc)
  rw [← String.toList_inj, slashed, String.toList_map, List.map_congr_left hsame, List.map_id']

theorem backslash_notMem_slashed (s : String) : '\\' ∉ (slashed s).toList := by
  rw [slashed, String.toList_map]
  intro hmem
  obtain ⟨c, -, hc⟩ := List.mem_map.mp hmem
  split at hc
  · cases hc
  · rename_i hne
    exact hne hc

end Text

namespace ModulePath

variable {s a b : String} {dots core names blanks : List (List Char)}

/-- The text of a module is that of the text it is named by, without the pieces at its ends that are
a `.` or empty. -/
theorem toList_text_ofString {first last : List Char} {rest : List (List Char)}
    (h : pieces '/' (slashed s).toList = dots ++ core ++ blanks) (hdots : ∀ p ∈ dots, p = ['.'])
    (hblanks : ∀ p ∈ blanks, p = []) (hfirst : core = first :: rest)
    (hkept : first ≠ ['.'] ∨ rest = []) (hlast : core.getLast? = some last) (hne : last ≠ []) :
    (ofString s).text.toList = List.intercalate ['/'] core := by
  obtain ⟨init, hlast⟩ := List.getLast?_eq_some_iff.mp hlast
  have hcore : core ≠ [] := by simp [hfirst]
  have hsep : ∀ p ∈ core, '/' ∉ p := fun p hp =>
    notMem_of_mem_pieces (h ▸ List.mem_append_left _ (List.mem_append_right _ hp))
  obtain ⟨c, hc⟩ := Option.isSome_iff_exists.mp (List.getLast?_isSome.mpr hne)
  have htext := eq_append_separators h (List.append_ne_nil_of_right_ne_nil _ hcore) hblanks
  have hend : ∀ before, (List.intercalate ['/'] (before ++ core)).getLast? = some c :=
    fun before => by rw [hlast, ← List.append_assoc, getLast?_intercalate hne, hc]
  have hseparator : ¬ isSeparator c := by
    have hslash : c ≠ '/' := fun heq =>
      hsep last (by simp [hlast]) (heq ▸ List.mem_of_getLast? hc)
    have hbackslash : c ≠ '\\' := fun heq => backslash_notMem_slashed s <| by
      rw [htext]
      exact List.mem_append_left _ (heq ▸ List.mem_of_getLast? (hend dots))
    simp [isSeparator, hslash, hbackslash]
  have hstrip := stripTrailingSeparators_append htext ⟨c, hend dots, hseparator⟩ fun c hc => by
    rw [List.eq_of_mem_replicate hc]
    rfl
  have hdrop : dropDotSlash (stripTrailingSeparators (slashed s)).toList =
      List.intercalate ['/'] core := by
    rw [hstrip, dropDotSlash_intercalate hdots hcore]
    exact dropDotSlash_eq_self ((pieces_intercalate hsep hcore).trans hfirst) hkept
  unfold ofString
  split
  · rename_i hnil
    have hlost := hend []
    rw [List.nil_append, hdrop.symm.trans hnil] at hlost
    cases hlost
  · rw [hdrop, String.toList_ofList]

/-! ## Plain texts -/

/-- Pieces between slashes that are names of directories; `..` is one. -/
def Names (ps : List (List Char)) : Prop := ∀ p ∈ ps, p ≠ [] ∧ p ≠ ['.']

/-- The pieces of a plain text, and those of them that count: the names, after an empty piece if the
text begins with a slash, or a `.` if there are none. -/
inductive Plain : List (List Char) → List (List Char) → Prop
  | empty : Plain [[]] [['.']]
  | slash : Plain [[], []] [[], []]
  | here {dots blanks : List (List Char)} : (∀ p ∈ dots, p = ['.']) → (∀ p ∈ blanks, p = []) →
      Plain (dots ++ [['.']] ++ blanks) [['.']]
  | relative {dots names blanks : List (List Char)} : (∀ p ∈ dots, p = ['.']) → Names names →
      names ≠ [] → (∀ p ∈ blanks, p = []) → Plain (dots ++ names ++ blanks) names
  | absolute {names blanks : List (List Char)} : Names names → names ≠ [] →
      (∀ p ∈ blanks, p = []) → Plain ([] ++ ([] :: names) ++ blanks) ([] :: names)

/-- A text that leads to its directory without a detour: names between single slashes, after any
number of `./` or a slash, and before any number of slashes. -/
def PlainlySpelled (s : String) : Prop := ∃ core, Plain (pieces '/' (slashed s).toList) core

theorem slashed_eq (h : pieces '/' (slashed s).toList = core) :
    slashed s = String.ofList (List.intercalate ['/'] core) := by
  rw [← h, intercalate_pieces, String.ofList_toList]

theorem text_ofString (h : Plain (pieces '/' (slashed s).toList) core) :
    (ofString s).text.toList = List.intercalate ['/'] core := by
  generalize hps : pieces '/' (slashed s).toList = ps at h
  cases h with
  | empty | slash =>
    rw [ofString, slashed_eq hps]
    decide
  | here hdots hblanks => exact toList_text_ofString hps hdots hblanks rfl (.inr rfl) rfl (by simp)
  | relative hdots hnames hne hblanks =>
    obtain ⟨first, rest, hfirst⟩ := List.exists_cons_of_ne_nil hne
    exact toList_text_ofString hps hdots hblanks hfirst (.inl (hnames _ (by simp [hfirst])).2)
      (List.getLast?_eq_some_getLast hne) (hnames _ (List.getLast_mem hne)).1
  | absolute hnames hne hblanks =>
    exact toList_text_ofString hps nofun hblanks rfl (.inl (by simp))
      ((List.getLast?_cons_of_ne_nil hne).trans (List.getLast?_eq_some_getLast hne))
      (hnames _ (List.getLast_mem hne)).1

/-! ## Directories -/

/-- Where a path leads: its components, of which a `.` says nothing. -/
def directory (p : Path) : List Component := p.components.filter (· ≠ .current)

/-- Two texts lead to one directory, backslashes taken for slashes. -/
def SameDirectory (a b : String) : Prop := directory ⟨slashed a⟩ = directory ⟨slashed b⟩

/-- Where the pieces of a path lead: to the root first if nothing is before the first slash. -/
def directoryOf : List (List Char) → List Component
  | [] :: p :: ps => .root :: (p :: ps).filterMap Path.component?
  | ps => ps.filterMap Path.component?

theorem directoryOf_of_head? {ps : List (List Char)} (h : ps.head? ≠ some []) :
    directoryOf ps = ps.filterMap Path.component? := by
  unfold directoryOf
  split
  · exact absurd rfl h
  · rfl

theorem directoryOf_nil_cons {ps : List (List Char)} (h : ps ≠ []) :
    directoryOf ([] :: ps) = .root :: ps.filterMap Path.component? := by
  obtain ⟨p, ps, rfl⟩ := List.exists_cons_of_ne_nil h
  rfl

theorem component?_ne_current {p : List Char} : Path.component? p ≠ some .current := by
  unfold Path.component?
  split <;> simp

theorem directory_eq (p : Path) : directory p = directoryOf (pieces '/' p.text.toList) := by
  have hne : pieces '/' p.text.toList ≠ [] := pieces_ne_nil
  obtain ⟨first, rest, hpieces⟩ := List.exists_cons_of_ne_nil hne
  have hkept : ∀ ps : List (List Char), (ps.filterMap Path.component?).filter (· ≠ .current) =
      ps.filterMap Path.component? := fun ps => List.filter_eq_self.mpr fun c hc => by
    obtain ⟨piece, -, hpiece⟩ := List.mem_filterMap.mp hc
    exact decide_eq_true fun heq => component?_ne_current (heq ▸ hpiece)
  rw [directory, Path.components_of_pieces hpieces, List.filter_append, hkept, hpieces]
  unfold Path.firstComponent?
  split
  · cases rest <;> rfl
  · rfl
  · rename_i hempty _
    rw [directoryOf_of_head? (by simpa using hempty), ← hkept (first :: rest), ← hkept rest,
      ← List.filter_append]
    cases hc : Path.component? first <;> simp [hc]

theorem sameDirectory_iff : SameDirectory a b ↔
    directoryOf (pieces '/' (slashed a).toList) = directoryOf (pieces '/' (slashed b).toList) := by
  rw [SameDirectory, directory_eq, directory_eq]

theorem filterMap_component?_append (hdots : ∀ p ∈ dots, p = ['.'])
    (hblanks : ∀ p ∈ blanks, p = []) :
    (dots ++ core ++ blanks).filterMap Path.component? = core.filterMap Path.component? := by
  have hdots' : dots.filterMap Path.component? = [] :=
    List.filterMap_eq_nil_iff.mpr fun p hp => hdots p hp ▸ rfl
  have hblanks' : blanks.filterMap Path.component? = [] :=
    List.filterMap_eq_nil_iff.mpr fun p hp => hblanks p hp ▸ rfl
  rw [List.filterMap_append, List.filterMap_append, hdots', hblanks', List.nil_append,
    List.append_nil]

/-- Before the first piece that counts there are only `.`, so the text does not begin with a slash
if that piece is not empty. -/
theorem directoryOf_append (hdots : ∀ p ∈ dots, p = ['.']) (hblanks : ∀ p ∈ blanks, p = [])
    (hne : core ≠ []) (hhead : core.head? ≠ some []) :
    directoryOf (dots ++ core ++ blanks) = directoryOf core := by
  have hhead' : (dots ++ core ++ blanks).head? ≠ some [] := by
    cases dots with
    | nil =>
      obtain ⟨p, ps, rfl⟩ := List.exists_cons_of_ne_nil hne
      exact hhead
    | cons d dots =>
      obtain ⟨rfl, -⟩ := List.forall_mem_cons.mp hdots
      simp
  rw [directoryOf_of_head? hhead', directoryOf_of_head? hhead,
    filterMap_component?_append hdots hblanks]

theorem Names.head?_ne (hnames : Names names) : names.head? ≠ some [] :=
  fun h => (hnames _ (List.mem_of_head? h)).1 rfl

theorem Plain.directoryOf_eq {ps : List (List Char)} (h : Plain ps core) :
    directoryOf ps = directoryOf core := by
  cases h with
  | empty | slash => rfl
  | here hdots hblanks => exact directoryOf_append hdots hblanks (by simp) (by simp)
  | relative hdots hnames hne hblanks =>
    exact directoryOf_append hdots hblanks hne hnames.head?_ne
  | @absolute names blanks hnames hne hblanks =>
    have hblanks' : ([] ++ names ++ blanks).filterMap Path.component? =
        names.filterMap Path.component? := filterMap_component?_append (by simp) hblanks
    rw [List.nil_append, List.cons_append, directoryOf_nil_cons (by simp [hne]),
      directoryOf_nil_cons hne, ← hblanks', List.nil_append]

/-- The pieces that count, from where they lead. -/
def coreOf : List Component → List (List Char)
  | [] => [['.']]
  | [.root] => [[], []]
  | .root :: cs => [] :: cs.map fun c => c.text.toList
  | cs => cs.map fun c => c.text.toList

theorem Names.map_text (hnames : Names names) :
    (names.filterMap Path.component?).map (fun c => c.text.toList) = names := by
  induction names with
  | nil => rfl
  | cons name names ih =>
    obtain ⟨hname, hrest⟩ := List.forall_mem_cons.mp hnames
    obtain ⟨c, hc, htext, -⟩ := Path.exists_component? hname
    rw [List.filterMap_cons_some hc, List.map_cons, htext, ih hrest]

theorem Names.root_notMem (hnames : Names names) : .root ∉ names.filterMap Path.component? := by
  intro hroot
  obtain ⟨name, hname, hcomponent⟩ := List.mem_filterMap.mp hroot
  obtain ⟨c, hc, -, hne⟩ := Path.exists_component? (hnames name hname)
  exact hne (Option.some.inj (hc.symm.trans hcomponent))

theorem Plain.coreOf_directoryOf {ps : List (List Char)} (h : Plain ps core) :
    coreOf (directoryOf core) = core := by
  cases h with
  | empty | slash | here => rfl
  | relative hdots hnames hne hblanks =>
    have htext := hnames.map_text
    have hroot := hnames.root_notMem
    rw [directoryOf_of_head? hnames.head?_ne]
    generalize core.filterMap Path.component? = cs at htext hroot ⊢
    unfold coreOf
    split
    · exact absurd htext.symm hne
    · exact absurd List.mem_cons_self hroot
    · exact absurd List.mem_cons_self hroot
    · exact htext
  | @absolute names blanks hnames hne hblanks =>
    have htext := hnames.map_text
    rw [directoryOf_nil_cons hne]
    cases hcs : names.filterMap Path.component? with
    | nil =>
      rw [hcs] at htext
      exact absurd htext.symm hne
    | cons c cs =>
      rw [hcs] at htext
      exact congrArg _ htext

theorem Plain.pieces_intercalate {cs : List Char} (h : Plain (pieces '/' cs) core) :
    pieces '/' (List.intercalate ['/'] core) = core := by
  have hsep : ∀ p ∈ pieces '/' cs, '/' ∉ p := fun p hp => notMem_of_mem_pieces hp
  generalize pieces '/' cs = ps at h hsep
  cases h with
  | empty | slash | here => rfl
  | relative hdots hnames hne hblanks =>
    exact ModularBuild.pieces_intercalate (fun p hp => hsep p (by simp [hp])) hne
  | absolute hnames hne hblanks =>
    exact ModularBuild.pieces_intercalate
      (fun p hp => hsep p (List.mem_append_left _ (List.mem_append_right _ hp))) (by simp)

theorem ext_toList {m m' : ModulePath} (h : m.text.toList = m'.text.toList) : m = m' := by
  cases m
  cases m'
  exact congrArg mk (String.toList_inj.mp h)

theorem ofString_eq_iff (ha : PlainlySpelled a) (hb : PlainlySpelled b) :
    ofString a = ofString b ↔ SameDirectory a b := by
  obtain ⟨core, ha⟩ := ha
  obtain ⟨core', hb⟩ := hb
  rw [sameDirectory_iff, ha.directoryOf_eq, hb.directoryOf_eq]
  constructor
  · intro h
    have htext : List.intercalate ['/'] core = List.intercalate ['/'] core' := by
      rw [← text_ofString ha, h, text_ofString hb]
    rw [← ha.pieces_intercalate, htext, hb.pieces_intercalate]
  · intro h
    have hcore : core = core' := by rw [← ha.coreOf_directoryOf, h, hb.coreOf_directoryOf]
    exact ext_toList (by rw [text_ofString ha, hcore, text_ofString hb])

/-! ## Modules of a registry and of a project -/

theorem beginModule_of_begun {project : String} {calls : List (ModulePath × Registry.Call)}
    {m : ModulePath} (h : (m, .beginModule) ∈ calls) :
    ((Registry.empty project).run calls).1.beginModule m =
      (((Registry.empty project).run calls).1, .error (.duplicateModule m)) :=
  if_pos (Registry.seen_run.mpr h)

/-- **Plain texts of one directory name one module**, and no others do, so a directory that was
begun under one of them is not begun under another, and a project that loads lists it under one of
them at most. A module that is loaded on its own is the only one. -/
theorem module_of_directory :
    (∀ a b, PlainlySpelled a → PlainlySpelled b → (ofString a = ofString b ↔ SameDirectory a b)) ∧
      (∀ project calls a b, PlainlySpelled a → PlainlySpelled b → SameDirectory a b →
        (ofString a, .beginModule) ∈ calls →
        ((Registry.empty project).run calls).1.beginModule (ofString b) =
          (((Registry.empty project).run calls).1, .error (.duplicateModule (ofString b)))) ∧
      ∀ read manifestPath mode ws, (Workspace.load read manifestPath mode).2 = .ok ws →
        (mode = .project → ws.manifest.modules.Pairwise fun a b =>
          PlainlySpelled a → PlainlySpelled b → ¬ SameDirectory a b) ∧
        ∀ m, mode = .standalone m → ws.plan.modules.keys = [m] := by
  refine ⟨fun a b => ofString_eq_iff, fun project calls a b ha hb hsame hbegun => ?_,
    fun read manifestPath mode ws hws => ⟨?_, ?_⟩⟩
  · rw [← (ofString_eq_iff ha hb).mpr hsame]
    exact beginModule_of_begun hbegun
  · rintro rfl
    have hnodup := (Workspace.mem_modules_of_load hws rfl).1
    refine (List.pairwise_map.mp hnodup).imp fun hne ha hb hsame => ?_
    exact hne ((ofString_eq_iff ha hb).mpr hsame)
  · rintro m rfl
    exact Workspace.keys_modules_of_standalone hws

/-- Backslashes, a `./` and slashes at the end make no other module. -/
theorem module_of_directory_backslash :
    ofString ".\\A\\B" = ofString "A/B//" ∧
      ((Registry.empty "demo").run [(ofString ".\\A\\B", .beginModule)]).1.beginModule
          (ofString "A/B//") =
        (((Registry.empty "demo").run [(ofString ".\\A\\B", .beginModule)]).1,
          .error (.duplicateModule (ofString "A/B//"))) := by
  have hpieces : pieces '/' (slashed ".\\A\\B").toList = [['.']] ++ [['A'], ['B']] ++ [] := by
    decide +kernel
  have hpieces' : pieces '/' (slashed "A/B//").toList = [] ++ [['A'], ['B']] ++ [[], []] := by
    decide +kernel
  have ha : PlainlySpelled ".\\A\\B" := by
    refine ⟨[['A'], ['B']], ?_⟩
    rw [hpieces]
    exact .relative (by simp) (by simp [Names]) (by simp) (by simp)
  have hb : PlainlySpelled "A/B//" := by
    refine ⟨[['A'], ['B']], ?_⟩
    rw [hpieces']
    exact .relative (by simp) (by simp [Names]) (by simp) (by simp)
  have hsame : SameDirectory ".\\A\\B" "A/B//" := by
    rw [sameDirectory_iff, hpieces, hpieces']
    decide
  obtain ⟨hone, hbegun, -⟩ := module_of_directory
  exact ⟨(hone _ _ ha hb).mpr hsame,
    hbegun "demo" _ _ _ ha hb hsame List.mem_cons_self⟩

/-- A project that lists a directory with a slash and with two of them; its manifest is found under
every spelling. -/
def doubledSlashFiles : Workspace.Reader := fun p =>
  if p = ⟨"/demo/Stratum.toml"⟩ then
    .ok "[project]\nname = \"demo\"\nmodules = [\"A/B\", \"A//B\"]\n"
  else if p.Same ⟨"/demo/A/B/module.toml"⟩ then .ok "units = [\"foo\"]\n"
  else .error .noEntry

/-- A doubled slash leads nowhere else, but it makes another module: a registry begins both, and a
project loads the directory twice. -/
theorem doubledSlash_other_module :
    (SameDirectory "A//B" "A/B" ∧ ofString "A//B" ≠ ofString "A/B") ∧
      ((Registry.empty "demo").run
        [(ofString "A/B", .beginModule), (ofString "A//B", .beginModule)]).2 = [.ok (), .ok ()] ∧
      ∃ ws, (Workspace.load doubledSlashFiles ⟨"/demo/Stratum.toml"⟩ .project).2 = .ok ws ∧
        ws.plan.modules.keys = [⟨"A//B"⟩, ⟨"A/B"⟩] ∧
        ws.plan.units.keys = [⟨⟨"A//B"⟩, "foo"⟩, ⟨⟨"A/B"⟩, "foo"⟩] := by
  have hpieces : pieces '/' (slashed "A//B").toList = [['A'], [], ['B']] := by decide +kernel
  have hpieces' : pieces '/' (slashed "A/B").toList = [['A'], ['B']] := by decide +kernel
  have hsame : SameDirectory "A//B" "A/B" := by
    rw [sameDirectory_iff, hpieces, hpieces']
    decide
  refine ⟨⟨hsame, by decide +kernel⟩, by decide +kernel, ?_⟩
  have hload : (Workspace.load doubledSlashFiles ⟨"/demo/Stratum.toml"⟩ .project).2.toOption.map
      (fun ws => (ws.plan.modules.keys, ws.plan.units.keys)) =
        some ([⟨"A//B"⟩, ⟨"A/B"⟩], [⟨⟨"A//B"⟩, "foo"⟩, ⟨⟨"A/B"⟩, "foo"⟩]) := by
    decide +kernel
  obtain ⟨ws, hws, hkeys⟩ := Option.map_eq_some_iff.mp hload
  obtain ⟨hmodules, hunits⟩ := Prod.mk.inj hkeys
  exact ⟨ws, eq_ok_of_toOption hws, hmodules, hunits⟩

end ModulePath

end ModularBuild
