import ModularBuild.Proofs.Files.Outside

/-!
# What files hold

A file is known by the locations that are its names, and by what it holds. A write fills one file,
under every name that it has, and what is there besides files stays (`write_spec`); a directory that
is made changes no file (`furnished_makeDirectory`). After either, paths lead where they led before
(`Extended.locate?_eq`).
-/

namespace ModularBuild

/-- The bytes of a file. -/
def FileEntry.bytes? (e : FileEntry) : Option (List UInt8) :=
  match e.content with
  | .file bytes => some bytes
  | .directory | .link _ | .device _ => none

namespace FileEntry

variable {e e' : FileEntry} {bytes : List UInt8}

theorem bytes?_eq_some_iff : e.bytes? = some bytes ↔ e.content = .file bytes := by
  unfold bytes?
  cases e.content <;> simp

theorem isFile_iff : e.isFile ↔ e.bytes?.isSome := by
  unfold isFile bytes?
  cases e.content <;> simp

theorem content_of_untimed (h : e'.untimed = e.untimed) : e'.content = e.content :=
  show e'.untimed.content = e.untimed.content by rw [h]

theorem isFile_of_untimed (h : e'.untimed = e.untimed) : e'.isFile = e.isFile := by
  rw [isFile, isFile, content_of_untimed h]

theorem mayExecute_of_untimed (h : e'.untimed = e.untimed) : e'.mayExecute = e.mayExecute :=
  show e'.untimed.mayExecute = e.untimed.mayExecute by rw [h]

end FileEntry

namespace FileSystem

variable {fs fs' fs'' : FileSystem} {l m here cwd : Location} {e e' : FileEntry} {p q : Path}
  {bytes bytes' : List UInt8}

/-! ## The names of one file -/

/-- The bytes of the file at a location. -/
def bytesAt? (fs : FileSystem) (l : Location) : Option (List UInt8) :=
  (fs.at? l).bind FileEntry.bytes?

/-- What the names of the file at a location have in common. -/
def twinAt? (fs : FileSystem) (l : Location) : Option Nat := (fs.at? l).bind (·.twin)

/-- Two locations are names of one file. -/
def OneFile (fs : FileSystem) (l m : Location) : Prop :=
  l = m ∨ (fs.twinAt? l).isSome ∧ fs.twinAt? l = fs.twinAt? m

instance (fs : FileSystem) (l m : Location) : Decidable (fs.OneFile l m) :=
  inferInstanceAs (Decidable (_ ∨ _))

theorem OneFile.symm (h : fs.OneFile l m) : fs.OneFile m l := by
  rcases h with rfl | ⟨htwin, hsame⟩
  · exact .inl rfl
  · exact .inr ⟨hsame ▸ htwin, hsame.symm⟩

theorem OneFile.trans {k : Location} (h : fs.OneFile l m) (h' : fs.OneFile m k) :
    fs.OneFile l k := by
  rcases h with rfl | ⟨htwin, hsame⟩
  · exact h'
  · rcases h' with rfl | ⟨-, hsame'⟩
    · exact .inr ⟨htwin, hsame⟩
    · exact .inr ⟨htwin, hsame.trans hsame'⟩

theorem oneFile_of_vacant (hl : fs.at? l = none) : fs.OneFile l m ↔ l = m := by
  simp [OneFile, twinAt?, hl]

/-- All names of a file show what is in it. -/
def Coherent (fs : FileSystem) : Prop := ∀ l m, fs.OneFile l m → fs.bytesAt? l = fs.bytesAt? m

theorem coherent_of_entries (h : ∀ entry ∈ fs.entries.entries, entry.2.twin = none) :
    fs.Coherent := by
  have htwin : ∀ l, fs.twinAt? l = none := by
    intro l
    unfold twinAt?
    cases he : fs.at? l with
    | none => rfl
    | some e =>
      by_cases hnil : l = []
      · subst hnil
        cases he
        rfl
      · rw [at?_of_ne_nil hnil] at he
        exact h (l, e) (SortedMap.mem_entries_iff.mpr he)
  intro l m hlm
  rcases hlm with rfl | ⟨hsome, -⟩
  · rfl
  · rw [htwin] at hsome
    cases hsome

theorem twinAt?_of_at? (he : fs.at? l = some e) : fs.twinAt? l = e.twin := by
  rw [twinAt?, he, Option.bind_some]

theorem bytesAt?_of_at? (he : fs.at? l = some e) : fs.bytesAt? l = e.bytes? := by
  rw [bytesAt?, he, Option.bind_some]

theorem bytesAt?_of_vacant (hl : fs.at? l = none) : fs.bytesAt? l = none := by
  rw [bytesAt?, hl, Option.bind_none]

theorem isFile_of_bytesAt? (he : fs.at? l = some e) (hl : (fs.bytesAt? l).isSome) : e.isFile := by
  rwa [FileEntry.isFile_iff, ← bytesAt?_of_at? he]

/-! ## Where everything stays where it is -/

/-- What was there still is, files with any content and mode and all else as it was, times apart;
and no file has another name. -/
structure Extended (fs fs' : FileSystem) : Prop where
  kept : ∀ l e, fs.at? l = some e → ∃ e', fs'.at? l = some e' ∧
    (e.isFile ∧ e'.isFile ∨ e'.untimed = e.untimed)
  twins : ∀ l, fs'.twinAt? l = fs.twinAt? l

theorem Extended.refl : Extended fs fs := ⟨fun _ e he => ⟨e, he, .inr rfl⟩, fun _ => rfl⟩

theorem Extended.trans (h : Extended fs fs') (h' : Extended fs' fs'') : Extended fs fs'' where
  kept l e he := by
    obtain ⟨e₁, he₁, hsame⟩ := h.kept l e he
    obtain ⟨e₂, he₂, hsame'⟩ := h'.kept l e₁ he₁
    refine ⟨e₂, he₂, ?_⟩
    rcases hsame with ⟨hfile, hfile₁⟩ | hsame
    · rcases hsame' with ⟨-, hfile₂⟩ | hsame'
      · exact .inl ⟨hfile, hfile₂⟩
      · exact .inl ⟨hfile, by rw [FileEntry.isFile_of_untimed hsame', hfile₁]⟩
    · rcases hsame' with ⟨hfile₁, hfile₂⟩ | hsame'
      · exact .inl ⟨by rw [← FileEntry.isFile_of_untimed hsame, hfile₁], hfile₂⟩
      · exact .inr (hsame'.trans hsame)
  twins l := (h'.twins l).trans (h.twins l)

theorem Extended.oneFile_iff (h : Extended fs fs') : fs'.OneFile l m ↔ fs.OneFile l m := by
  rw [OneFile, OneFile, h.twins l, h.twins m]

theorem Extended.exists_of_not_isFile (h : Extended fs fs') (he : fs.at? l = some e)
    (hfile : ¬ e.isFile) : ∃ e', fs'.at? l = some e' ∧ e'.untimed = e.untimed := by
  obtain ⟨e', he', hsame⟩ := h.kept l e he
  exact ⟨e', he', hsame.resolve_left fun hfiles => hfile hfiles.1⟩

theorem Extended.exists_of_isFile (h : Extended fs fs') (he : fs.at? l = some e)
    (hfile : e.isFile) : ∃ e', fs'.at? l = some e' ∧ e'.isFile := by
  obtain ⟨e', he', hsame⟩ := h.kept l e he
  refine ⟨e', he', hsame.elim And.right fun hsame => ?_⟩
  rw [FileEntry.isFile_of_untimed hsame, hfile]

theorem Extended.standing (h : Extended fs fs') (hs : Standing fs here) : Standing fs' here :=
  fun k hk => by
    obtain ⟨e, he, hdir⟩ := hs k hk
    obtain ⟨e', he', hsame⟩ := h.exists_of_not_isFile he (by simp [FileEntry.isFile, hdir])
    exact ⟨e', he', (FileEntry.content_of_untimed hsame).trans hdir⟩

theorem Extended.maySearch_eq (h : Extended fs fs') (hs : Standing fs here) :
    fs'.maySearch here = fs.maySearch here := by
  obtain ⟨e, he, hdir⟩ := hs here (List.prefix_refl here)
  obtain ⟨e', he', hsame⟩ := h.exists_of_not_isFile he (by simp [FileEntry.isFile, hdir])
  simp only [maySearch, he, he', Option.all_some]
  exact FileEntry.mayExecute_of_untimed hsame

/-! ## Where paths lead -/

/-- Something is there, or a file has been made there. -/
def Place.Filled (fs' : FileSystem) : Place → Prop
  | .found _ _ => True
  | .vacant l asDirectory => asDirectory = false ∧ (fs'.bytesAt? l).isSome

/-- A walk comes to where it came before, and finds what has been made there. -/
theorem Extended.walk_eq (h : Extended fs fs') {follow : Bool} {links : Nat} {names : List String}
    {place : Place} (hs : Standing fs here) (hwalk : fs.walk follow links here names = .ok place)
    (hfilled : place.Filled fs') :
    ∃ e', fs'.walk follow links here names = .ok (.found place.location e') := by
  have hmay : ∀ {here : Location}, Standing fs here → ¬ (!fs.maySearch here) = true →
      fs'.maySearch here := fun hs hsearch => by
    rw [h.maySearch_eq hs]
    simpa using hsearch
  fun_induction fs.walk follow links here names with
  | case1 links here e he =>
    cases hwalk
    obtain ⟨e', he', -⟩ := h.kept here e he
    exact ⟨e', by rw [walk, he']; rfl⟩
  | case2 | case4 | case7 | case10 | case13 | case16 | case18 => cases hwalk
  | case3 links here rest ih =>
    rw [walk]
    exact ih hs hwalk
  | case5 links here name rest hname hsearch hstay ih =>
    rw [walk, if_neg hname, if_neg (h.maySearch_eq hs ▸ hsearch), if_pos hstay]
    exact ih hs hwalk
  | case6 links here rest hsearch hname hstay ih =>
    rw [walk, if_neg hname, if_neg (h.maySearch_eq hs ▸ hsearch), if_neg hstay, if_pos rfl]
    exact ih hs.dropLast hwalk
  | case8 links here name rest hname hsearch hstay hup hlimit k hnone hlast =>
    cases hwalk
    obtain ⟨-, hmade⟩ := hfilled
    cases he' : fs'.at? k with
    | none => simp [bytesAt?_of_vacant he'] at hmade
    | some e' =>
      rw [walk_cons hname (hmay hs hsearch) hstay hup hlimit he']
      obtain ⟨bytes, hbytes⟩ := Option.isSome_iff_exists.mp
        (FileEntry.isFile_iff.mp (isFile_of_bytesAt? he' hmade))
      rw [FileEntry.bytes?_eq_some_iff.mp hbytes]
      exact ⟨e', if_pos hlast⟩
  | case9 links here name rest hname hsearch hstay hup hlimit k hnone hlast hslashes =>
    cases hwalk
    cases hfilled.1
  | case11 links here name rest hname hsearch hstay hup hlimit k e he hcontent ih =>
    obtain ⟨e', he', hsame⟩ := h.exists_of_not_isFile he (by simp [FileEntry.isFile, hcontent])
    rw [walk_cons hname (hmay hs hsearch) hstay hup hlimit he',
      (FileEntry.content_of_untimed hsame).trans hcontent]
    exact ih (hs.enter he hcontent) hwalk
  | case12 links here name rest hname hsearch hstay hup hlimit k e he target hcontent hlast =>
    cases hwalk
    obtain ⟨e', he', hsame⟩ := h.exists_of_not_isFile he (by simp [FileEntry.isFile, hcontent])
    rw [walk_cons hname (hmay hs hsearch) hstay hup hlimit he',
      (FileEntry.content_of_untimed hsame).trans hcontent]
    exact ⟨e', if_pos hlast⟩
  | case14 here name rest hname hsearch hstay hup hlimit k e he target hcontent hlast links ih =>
    obtain ⟨e', he', hsame⟩ := h.exists_of_not_isFile he (by simp [FileEntry.isFile, hcontent])
    rw [walk_cons hname (hmay hs hsearch) hstay hup hlimit he',
      (FileEntry.content_of_untimed hsame).trans hcontent]
    simp only [if_neg hlast]
    exact ih (hs.start target) hwalk
  | case15 links here name rest hname hsearch hstay hup hlimit k e he bytes hcontent hlast =>
    cases hwalk
    obtain ⟨e', he', hfile'⟩ := h.exists_of_isFile he (by simp [FileEntry.isFile, hcontent])
    obtain ⟨bytes', hbytes'⟩ := Option.isSome_iff_exists.mp (FileEntry.isFile_iff.mp hfile')
    rw [walk_cons hname (hmay hs hsearch) hstay hup hlimit he',
      FileEntry.bytes?_eq_some_iff.mp hbytes']
    exact ⟨e', if_pos hlast⟩
  | case17 links here name rest hname hsearch hstay hup hlimit k e he device hcontent hlast =>
    cases hwalk
    obtain ⟨e', he', hsame⟩ := h.exists_of_not_isFile he (by simp [FileEntry.isFile, hcontent])
    rw [walk_cons hname (hmay hs hsearch) hstay hup hlimit he',
      (FileEntry.content_of_untimed hsame).trans hcontent]
    exact ⟨e', if_pos hlast⟩

/-- Where a path leads, links followed. -/
def locate? (fs : FileSystem) (cwd : Location) (p : Path) : Option Location :=
  (fs.lookup cwd p).toOption.map (·.1)

/-- The bytes of the file that a path leads to. -/
def contents? (fs : FileSystem) (cwd : Location) (p : Path) : Option (List UInt8) :=
  (fs.locate? cwd p).bind fs.bytesAt?

/-- Two paths lead to one file. -/
def SameFile (fs : FileSystem) (cwd : Location) (p q : Path) : Prop :=
  ∃ l m, fs.locate? cwd p = some l ∧ fs.locate? cwd q = some m ∧ fs.OneFile l m

theorem lookup_eq_ok_iff :
    fs.lookup cwd p = .ok (l, e) ↔ fs.resolve cwd true p = .ok (.found l e) := by
  unfold lookup
  cases fs.resolve cwd true p with
  | error err => simp [bind, Except.bind]
  | ok place => cases place <;> simp [bind, Except.bind, pure, Except.pure, throw, throwThe,
      MonadExceptOf.throw]

theorem at?_of_lookup (h : fs.lookup cwd p = .ok (l, e)) : fs.at? l = some e :=
  at?_of_resolve (lookup_eq_ok_iff.mp h)

theorem locate?_eq_some_iff :
    fs.locate? cwd p = some l ↔ ∃ e, fs.lookup cwd p = .ok (l, e) := by
  unfold locate?
  cases fs.lookup cwd p with
  | error err => simp [Except.toOption]
  | ok found => simp [Except.toOption, Prod.ext_iff]

theorem contents?_of_locate? (h : fs.locate? cwd p = some l) :
    fs.contents? cwd p = fs.bytesAt? l := by
  rw [contents?, h, Option.bind_some]

theorem contents?_eq_bind_lookup? :
    fs.contents? cwd p = (fs.lookup? cwd p).bind FileEntry.bytes? := by
  rw [contents?, locate?, lookup?]
  cases hlookup : fs.lookup cwd p with
  | error err => rfl
  | ok found => simp [Except.toOption, bytesAt?, at?_of_lookup hlookup]

/-- A path comes to what has been found or made at the end of its walk. -/
theorem Extended.exists_resolve (h : Extended fs fs') (hs : Standing fs cwd) {follow : Bool}
    {place : Place} (hplace : fs.resolve cwd follow p = .ok place) (hfilled : place.Filled fs') :
    ∃ e', fs'.resolve cwd follow p = .ok (.found place.location e') := by
  rw [resolve_eq_walk hplace fs']
  exact h.walk_eq (hs.start p) (walk_of_resolve hplace) hfilled

theorem Extended.locate?_of_resolve (h : Extended fs fs') (hs : Standing fs cwd) {place : Place}
    (hplace : fs.resolve cwd true p = .ok place) (hfilled : place.Filled fs') :
    fs'.locate? cwd p = some place.location := by
  obtain ⟨e', he'⟩ := h.exists_resolve hs hplace hfilled
  exact locate?_eq_some_iff.mpr ⟨e', lookup_eq_ok_iff.mpr he'⟩

theorem Extended.locate?_eq (h : Extended fs fs') (hs : Standing fs cwd)
    (hl : fs.locate? cwd p = some l) : fs'.locate? cwd p = some l := by
  obtain ⟨e, he⟩ := locate?_eq_some_iff.mp hl
  exact h.locate?_of_resolve hs (lookup_eq_ok_iff.mp he) trivial

/-! ## One change of one file -/

/-- Everything stays where it is, the file at the location holds the bytes under all its names, and
no other file has changed. -/
structure Fills (l : Location) (bytes : List UInt8) (fs fs' : FileSystem) : Prop
    extends Extended fs fs' where
  bytesAt?_eq : ∀ m, fs'.bytesAt? m = if fs.OneFile l m then some bytes else fs.bytesAt? m

theorem Fills.bytesAt?_self (h : Fills l bytes fs fs') : fs'.bytesAt? l = some bytes := by
  rw [h.bytesAt?_eq, if_pos (.inl rfl)]

theorem Fills.trans (h : Fills l bytes fs fs') (h' : Fills l bytes' fs' fs'') :
    Fills l bytes' fs fs'' where
  toExtended := h.toExtended.trans h'.toExtended
  bytesAt?_eq m := by
    rw [h'.bytesAt?_eq, h.bytesAt?_eq]
    by_cases hm : fs.OneFile l m
    · rw [if_pos hm, if_pos (h.oneFile_iff.mpr hm)]
      exact (if_pos hm).symm
    · rw [if_neg hm, if_neg hm, if_neg (h.oneFile_iff.not.mpr hm)]

theorem Fills.coherent (h : Fills l bytes fs fs') (hc : fs.Coherent) : fs'.Coherent := by
  intro k m hkm
  rw [h.oneFile_iff] at hkm
  rw [h.bytesAt?_eq, h.bytesAt?_eq]
  by_cases hk : fs.OneFile l k
  · rw [if_pos hk, if_pos (hk.trans hkm)]
  · rw [if_neg hk, if_neg fun hm => hk (hm.trans hkm.symm), hc k m hkm]

theorem at?_replace (hl : fs.at? l = some e) (htwin : e'.twin = e.twin)
    (hm : m ≠ []) : (fs.replace l e').at? m = if fs.OneFile l m then some e' else fs.at? m := by
  unfold replace
  have hltwin : fs.twinAt? l = e.twin := twinAt?_of_at? hl
  cases hg : e'.twin with
  | none =>
    have hiff : fs.OneFile l m ↔ m = l := by
      simp [OneFile, hltwin, ← htwin, hg, eq_comm]
    simp only [at?_set hm, hiff]
  | some g =>
    have hiff : fs.OneFile l m ↔ fs.twinAt? m = some g := by
      simp only [OneFile, hltwin, ← htwin, hg, Option.isSome_some, true_and]
      constructor
      · rintro (rfl | hsame)
        · rw [hltwin, ← htwin, hg]
        · exact hsame.symm
      · exact fun hsame => .inr hsame.symm
    simp only [hiff]
    rw [at?_of_ne_nil hm, SortedMap.find?_mapValues, twinAt?, at?_of_ne_nil hm]
    cases fs.entries.find? m with
    | none => simp
    | some d =>
      simp only [Option.map_some, Option.bind_some]
      split <;> rfl

/-- A file's entry is replaced by another entry of the same file under all its names. -/
theorem fills_replace (hc : fs.Coherent) (hl : fs.at? l = some e) (hfile : e.isFile)
    (htwin : e'.twin = e.twin) (hbytes : e'.content = .file bytes) :
    Fills l bytes fs (fs.replace l e') := by
  have hnil : l ≠ [] := by
    rintro rfl
    cases hl
    cases hfile
  have hroot : ¬ fs.OneFile l [] := by
    rintro (h | ⟨htwin, hsame⟩)
    · exact hnil h
    · rw [hsame] at htwin
      cases htwin
  have hltwin : fs.twinAt? l = e.twin := twinAt?_of_at? hl
  have hat : ∀ m, (fs.replace l e').at? m = if fs.OneFile l m then some e' else fs.at? m := by
    intro m
    by_cases hm : m = []
    · subst hm
      rw [if_neg hroot]
      rfl
    · exact at?_replace hl htwin hm
  have hfile' : e'.isFile := by simp [FileEntry.isFile, hbytes]
  refine ⟨⟨fun m d hd => ?_, fun m => ?_⟩, fun m => ?_⟩
  · rw [hat]
    by_cases hm : fs.OneFile l m
    · have hsame := hc l m hm
      have hd' : d.isFile := isFile_of_bytesAt? hd <| by
        rw [← hsame, bytesAt?_of_at? hl, ← FileEntry.isFile_iff]
        exact hfile
      exact ⟨e', if_pos hm, .inl ⟨hd', hfile'⟩⟩
    · exact ⟨d, by rw [if_neg hm, hd], .inr rfl⟩
  · rw [twinAt?, hat]
    by_cases hm : fs.OneFile l m
    · rw [if_pos hm, Option.bind_some, htwin, ← hltwin]
      rcases hm with rfl | ⟨-, hsame⟩
      · rfl
      · exact hsame
    · rw [if_neg hm]
      rfl
  · rw [bytesAt?, hat]
    by_cases hm : fs.OneFile l m
    · rw [if_pos hm, if_pos hm, Option.bind_some, FileEntry.bytes?_eq_some_iff.mpr hbytes]
    · rw [if_neg hm, if_neg hm]
      rfl

theorem fills_overwrite (hc : fs.Coherent) (hl : fs.at? l = some e) (hfile : e.isFile) :
    Fills l bytes fs (fs.overwrite l e bytes) :=
  have hticked : Fills l bytes fs.tick (fs.overwrite l e bytes) :=
    fills_replace hc hl hfile rfl rfl
  ⟨⟨hticked.kept, hticked.twins⟩, hticked.bytesAt?_eq⟩

/-! ## New entries -/

/-- Everything stays where it is, and no file changes. -/
structure Furnished (fs fs' : FileSystem) : Prop extends Extended fs fs' where
  bytesAt?_eq : ∀ m, fs'.bytesAt? m = fs.bytesAt? m

theorem Furnished.refl : Furnished fs fs := ⟨.refl, fun _ => rfl⟩

theorem Furnished.trans (h : Furnished fs fs') (h' : Furnished fs' fs'') : Furnished fs fs'' :=
  ⟨h.toExtended.trans h'.toExtended, fun m => (h'.bytesAt?_eq m).trans (h.bytesAt?_eq m)⟩

theorem Furnished.coherent (h : Furnished fs fs') (hc : fs.Coherent) : fs'.Coherent := by
  intro k m hkm
  rw [h.bytesAt?_eq, h.bytesAt?_eq, hc k m (h.oneFile_iff.mp hkm)]

theorem furnished_stamp : Furnished fs (fs.stamp l) := by
  have hstamp : Thinned (fun _ => False) fs (fs.stamp l) := thinned_stamp
  have hkept : ∀ k e, fs.at? k = some e → ∃ t, (fs.stamp l).at? k = some { e with modified := t } :=
    fun k e he => (hstamp.kept k e he).resolve_right fun h => h.2.2
  have hsame : ∀ {α : Type} (f : FileEntry → Option α), (∀ e t, f { e with modified := t } = f e) →
      ∀ k, ((fs.stamp l).at? k).bind f = (fs.at? k).bind f := by
    intro α f hf k
    cases he : fs.at? k with
    | none => rw [hstamp.absent k he]
    | some e =>
      obtain ⟨t, ht⟩ := hkept k e he
      rw [ht, Option.bind_some, Option.bind_some, hf]
  refine ⟨⟨fun k e he => ?_, hsame _ fun _ _ => rfl⟩, hsame _ fun _ _ => rfl⟩
  obtain ⟨t, ht⟩ := hkept k e he
  exact ⟨_, ht, .inr rfl⟩

theorem at?_set_of_vacant (hl : fs.at? l = none) (m : Location) :
    (fs.set l e).at? m = if l = m then some e else fs.at? m := by
  by_cases hnil : m = []
  · subst hnil
    rw [if_neg]
    · rfl
    · rintro rfl
      cases hl
  · simp only [at?_set hnil, eq_comm]

/-- A vacancy is taken by an entry that is the only name of what it names. -/
theorem extended_set (hl : fs.at? l = none) (htwin : e.twin = none) : Extended fs (fs.set l e) := by
  refine ⟨fun m d hd => ⟨d, ?_, .inr rfl⟩, fun m => ?_⟩
  · rw [at?_set_of_vacant hl, if_neg, hd]
    rintro rfl
    cases hl.symm.trans hd
  · rw [twinAt?, twinAt?, at?_set_of_vacant hl]
    by_cases hm : l = m
    · rw [if_pos hm, ← hm, hl, Option.bind_some, htwin, Option.bind_none]
    · rw [if_neg hm]

theorem bytesAt?_set (hl : fs.at? l = none) (m : Location) :
    (fs.set l e).bytesAt? m = if l = m then e.bytes? else fs.bytesAt? m := by
  rw [bytesAt?, bytesAt?, at?_set_of_vacant hl]
  split <;> rfl

theorem Fills.furnished (h : Fills l bytes fs fs') (h' : Furnished fs' fs'') :
    Fills l bytes fs fs'' :=
  ⟨h.toExtended.trans h'.toExtended, fun m => (h'.bytesAt?_eq m).trans (h.bytesAt?_eq m)⟩

theorem furnished_create_directory (hl : fs.at? l = none) (mode : Nat) :
    Furnished fs (fs.create l .directory mode) := by
  have hticked : fs.tick.at? l = none := hl
  have hset : Furnished fs
      (fs.tick.set l { content := .directory, mode, modified := fs.tick.clock }) := by
    refine ⟨⟨(extended_set hticked rfl).kept, (extended_set hticked rfl).twins⟩, fun m => ?_⟩
    rw [bytesAt?_set hticked]
    split
    · subst m
      exact (bytesAt?_of_vacant hl).symm
    · rfl
  exact hset.trans furnished_stamp

theorem fills_create_file (hl : fs.at? l = none) (mode : Nat) :
    Fills l bytes fs (fs.create l (.file bytes) mode) := by
  have hticked : fs.tick.at? l = none := hl
  have hset : Fills l bytes fs
      (fs.tick.set l { content := .file bytes, mode, modified := fs.tick.clock }) := by
    refine ⟨⟨(extended_set hticked rfl).kept, (extended_set hticked rfl).twins⟩, fun m => ?_⟩
    rw [bytesAt?_set hticked]
    simp only [oneFile_of_vacant hl]
    rfl
  exact hset.furnished furnished_stamp

theorem furnished_makeDirectory (h : fs.makeDirectory cwd p = .ok fs') : Furnished fs fs' := by
  obtain ⟨l, asDirectory, -, hvacant, rfl⟩ := makeDirectory_eq_ok h
  exact furnished_create_directory hvacant _

theorem preserves_ensureDirectory_furnished (fs : FileSystem) (cwd : Location) (p : Path) :
    Preserves (Furnished fs) (FileTask.ensureDirectory cwd p).run := by
  refine preserves_get.bind fun now _ => ?_
  split
  · exact preserves_ok _
  · exact preserves_makeDirectories fun q _ _ fs₁ fs₂ h₁ hmade =>
      h₁.trans (furnished_makeDirectory hmade)

/-! ## Writes -/

/-- What a write does: it makes a file, gives one new content, or goes to something that keeps
nothing. -/
theorem write_eq_ok {mode : Nat} (h : fs.write cwd p bytes mode = .ok fs') :
    (∃ l, fs.resolve cwd true p = .ok (.vacant l false) ∧ fs' = fs.create l (.file bytes) mode) ∨
      ∃ l e, fs.lookup cwd p = .ok (l, e) ∧
        (e.isFile ∧ fs' = fs.overwrite l e bytes ∨ e.bytes? = none ∧ fs' = fs) := by
  unfold write at h
  cases hplace : fs.resolve cwd true p with
  | error err =>
    rw [hplace] at h
    cases h
  | ok place =>
    rw [hplace] at h
    cases place with
    | vacant l asDirectory =>
      cases asDirectory with
      | true => cases h
      | false =>
        replace h : fs.createAt l (.file bytes) mode = .ok fs' := h
        unfold createAt at h
        split at h
        · exact .inl ⟨l, rfl, (Except.ok.inj h).symm⟩
        · cases h
    | found l e =>
      refine .inr ⟨l, e, lookup_eq_ok_iff.mpr hplace, ?_⟩
      by_cases hdir : e.content = .directory
      · simp only [bind, Except.bind, hdir, ↓reduceIte] at h
        cases h
      by_cases hmay : e.mayWrite
      · simp only [bind, Except.bind, hdir, hmay, ↓reduceIte, Bool.not_true] at h
        cases hcontent : e.content with
        | directory => exact absurd hcontent hdir
        | file old =>
          rw [hcontent] at h
          exact .inl ⟨by simp [FileEntry.isFile, hcontent], (Except.ok.inj h).symm⟩
        | link target | device d =>
          rw [hcontent] at h
          exact .inr ⟨by simp [FileEntry.bytes?, hcontent], (Except.ok.inj h).symm⟩
      · simp only [bind, Except.bind, hdir, hmay, ↓reduceIte, Bool.not_false] at h
        cases h

/-- A write fills the file that its path leads to from then on, or goes to something that keeps
nothing. -/
theorem write_spec {mode : Nat} (hc : fs.Coherent) (hs : Standing fs cwd)
    (h : fs.write cwd p bytes mode = .ok fs') : ∃ l, fs'.locate? cwd p = some l ∧
      (Fills l bytes fs fs' ∨ fs' = fs ∧ fs.bytesAt? l = none) := by
  rcases write_eq_ok h with ⟨l, hplace, rfl⟩ | ⟨l, e, he, hwritten⟩
  · have hfills : Fills l bytes fs (fs.create l (.file bytes) mode) :=
      fills_create_file (at?_of_resolve hplace) mode
    have hfilled : Place.Filled (fs.create l (.file bytes) mode) (.vacant l false) :=
      ⟨rfl, Option.isSome_iff_exists.mpr ⟨bytes, hfills.bytesAt?_self⟩⟩
    exact ⟨l, hfills.locate?_of_resolve hs hplace hfilled, .inl hfills⟩
  · have hl : fs.locate? cwd p = some l := locate?_eq_some_iff.mpr ⟨e, he⟩
    have hat := at?_of_lookup he
    rcases hwritten with ⟨hfile, rfl⟩ | ⟨hnone, rfl⟩
    · have hfills : Fills l bytes fs (fs.overwrite l e bytes) := fills_overwrite hc hat hfile
      exact ⟨l, hfills.locate?_eq hs hl, .inl hfills⟩
    · exact ⟨l, hl, .inr ⟨rfl, (bytesAt?_of_at? hat).trans hnone⟩⟩

/-- A change of mode leaves every file as full as it was. -/
theorem fills_setMode {mode : Nat} (hc : fs.Coherent) (hl : fs.locate? cwd p = some l)
    (hbytes : fs.bytesAt? l = some bytes) (h : fs.setMode cwd p mode = .ok fs') :
    Fills l bytes fs fs' := by
  obtain ⟨e, he⟩ := locate?_eq_some_iff.mp hl
  have hat : fs.at? l = some e := at?_of_lookup he
  have hcontent : e.content = .file bytes := by
    rw [bytesAt?_of_at? hat] at hbytes
    exact FileEntry.bytes?_eq_some_iff.mp hbytes
  unfold setMode at h
  rw [he] at h
  simp only [bind, Except.bind] at h
  split at h
  · cases h
    exact fills_replace hc hat (by simp [FileEntry.isFile, hcontent]) rfl hcontent
  · cases h

/-! ## Files that paths lead to -/

theorem Furnished.contents?_eq (h : Furnished fs fs') (hs : Standing fs cwd)
    (hl : fs.locate? cwd p = some l) : fs'.contents? cwd p = fs.contents? cwd p := by
  rw [contents?_of_locate? hl, contents?_of_locate? (h.locate?_eq hs hl), h.bytesAt?_eq]

theorem exists_of_isSome_contents? (h : (fs.contents? cwd p).isSome) :
    ∃ l, fs.locate? cwd p = some l := by
  cases hl : fs.locate? cwd p with
  | none => simp [contents?, hl] at h
  | some l => exact ⟨l, rfl⟩

theorem sameFile_iff (hp : fs.locate? cwd p = some l) (hq : fs.locate? cwd q = some m) :
    fs.SameFile cwd p q ↔ fs.OneFile l m := by
  constructor
  · rintro ⟨l', m', hl', hm', h⟩
    cases hp.symm.trans hl'
    cases hq.symm.trans hm'
    exact h
  · exact fun h => ⟨l, m, hp, hq, h⟩

theorem SameFile.symm (h : fs.SameFile cwd p q) : fs.SameFile cwd q p := by
  obtain ⟨l, m, hl, hm, hlm⟩ := h
  exact ⟨m, l, hm, hl, hlm.symm⟩

theorem Coherent.contents?_eq (hc : fs.Coherent) (h : fs.SameFile cwd p q) :
    fs.contents? cwd p = fs.contents? cwd q := by
  obtain ⟨l, m, hl, hm, hlm⟩ := h
  rw [contents?_of_locate? hl, contents?_of_locate? hm, hc l m hlm]

theorem Extended.isSome_contents? (h : Extended fs fs') (hs : Standing fs cwd)
    (hp : (fs.contents? cwd p).isSome) : (fs'.contents? cwd p).isSome := by
  obtain ⟨l, hl⟩ := exists_of_isSome_contents? hp
  obtain ⟨e, he⟩ := locate?_eq_some_iff.mp hl
  rw [contents?_of_locate? hl] at hp
  obtain ⟨e', he', hfile'⟩ := h.exists_of_isFile (at?_of_lookup he)
    (isFile_of_bytesAt? (at?_of_lookup he) hp)
  rw [contents?_of_locate? (h.locate?_eq hs hl), bytesAt?_of_at? he', ← FileEntry.isFile_iff]
  exact hfile'

theorem Extended.contents?_eq_none (h : Extended fs fs') (hs : Standing fs cwd)
    (hl : fs.locate? cwd p = some l) (hnone : fs.bytesAt? l = none) :
    fs'.contents? cwd p = none := by
  obtain ⟨e, he⟩ := locate?_eq_some_iff.mp hl
  have hat := at?_of_lookup he
  have hbytes : e.bytes? = none := (bytesAt?_of_at? hat).symm.trans hnone
  obtain ⟨e', he', hsame⟩ := h.exists_of_not_isFile hat (by simp [FileEntry.isFile_iff, hbytes])
  rw [contents?_of_locate? (h.locate?_eq hs hl), bytesAt?_of_at? he', ← hbytes,
    FileEntry.bytes?, FileEntry.bytes?, FileEntry.content_of_untimed hsame]

end FileSystem

end ModularBuild
