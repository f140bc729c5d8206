import Mathlib.Data.List.Forall2
import Mathlib.Data.List.Nodup
import Mathlib.Data.List.Perm.Subperm
import ModularBuild.Proofs.Files.Contents

/-!
# The files below a directory

A walk along one list of names after another is a walk along the second from where the first leads
(`exists_walk_of_append`). So a directory that is walked gives every path that goes on from the
directory by names and leads to a file (`mem_filesBelow`), each once (`nodup_filesBelow`), and
nothing else (`exists_names_of_mem_filesBelow`): `Finds`. Relative to a base, which may be any path,
these are the paths that go on from the directory's own: `walkFiles_exact`. A walk fails where a
directory below cannot be listed, or where a link cannot be followed or leads back to a directory on
the way (`WalkFails`), and for no other reason: it goes as deep as there are directories
(`filesBelow_eq_none_iff`).
-/

namespace ModularBuild

/-! ## Answers for every member of a list -/

theorem forall₂_of_mapM_eq_some {α β : Type} {f : α → Option β} {l : List α} {r : List β}
    (h : l.mapM f = some r) : List.Forall₂ (fun a b => f a = some b) l r := by
  induction l generalizing r with
  | nil =>
    cases h
    exact .nil
  | cons a l ih =>
    rw [List.mapM_cons] at h
    obtain ⟨b, hb, h⟩ := Option.bind_eq_some_iff.mp h
    obtain ⟨bs, hbs, h⟩ := Option.bind_eq_some_iff.mp h
    cases h
    exact .cons hb (ih hbs)

theorem exists_of_mapM_eq_none {α β : Type} {f : α → Option β} {l : List α} (h : l.mapM f = none) :
    ∃ a ∈ l, f a = none := by
  induction l with
  | nil => cases h
  | cons a l ih =>
    rw [List.mapM_cons] at h
    cases ha : f a with
    | none => exact ⟨a, List.mem_cons_self, ha⟩
    | some b =>
      cases hl : l.mapM f with
      | none =>
        obtain ⟨a', ha', hnone⟩ := ih hl
        exact ⟨a', List.mem_cons_of_mem _ ha', hnone⟩
      | some bs =>
        rw [ha, hl] at h
        cases h

theorem exists_of_mem_of_forall₂ {α β : Type} {R : α → β → Prop} {l : List α} {r : List β}
    {a : α} (h : List.Forall₂ R l r) (ha : a ∈ l) : ∃ b ∈ r, R a b := by
  induction h with
  | nil => cases ha
  | cons hab _ ih =>
    rcases List.mem_cons.mp ha with rfl | ha
    · exact ⟨_, List.mem_cons_self, hab⟩
    · obtain ⟨b, hb, hab⟩ := ih ha
      exact ⟨b, List.mem_cons_of_mem _ hb, hab⟩

theorem Path.pairwise_mergeSort (ps : List Path) :
    (ps.mergeSort fun p q => (compare p q).isLE).Pairwise fun p q => (compare p q).isLE := by
  refine List.pairwise_mergeSort (fun p q r hpq hqr => ?_) (fun p q => ?_) _
  · exact Std.TransCmp.isLE_trans hpq hqr
  · have hswap : compare q p = (compare p q).swap := Std.OrientedCmp.eq_swap
    rw [hswap]
    cases compare p q <;> rfl

namespace FileSystem

open ModularBuild.Path

variable {fs : FileSystem} {l k here cwd : Location} {e d : FileEntry} {p q : Path}
  {name : String} {names rest : List String}

/-! ## Names in a directory -/

theorem mem_childNames_iff : name ∈ fs.childNames l ↔ (fs.at? (l ++ [name])).isSome := by
  have hmem : (fs.at? (l ++ [name])).isSome ↔ l ++ [name] ∈ fs.entries.keys := by
    rw [at?_of_ne_nil (by simp), SortedMap.mem_keys_iff, Option.isSome_iff_exists]
  rw [hmem, childNames, List.mem_filterMap]
  constructor
  · rintro ⟨k, hk, hname⟩
    rw [Option.ite_none_right_eq_some] at hname
    obtain ⟨hdirectory, hlast⟩ := hname
    rwa [← hdirectory, List.dropLast_append_getLast? name hlast]
  · intro h
    exact ⟨_, h, by simp⟩

/-- Every name in the file system can stand between slashes. -/
def HasNames (fs : FileSystem) : Prop := ∀ l e, fs.at? l = some e → ∀ name ∈ l, IsName name

theorem hasNames_of_entries (h : ∀ entry ∈ fs.entries.entries, ∀ name ∈ entry.1, IsName name) :
    fs.HasNames := by
  intro l e he name hname
  have hne : l ≠ [] := List.ne_nil_of_mem hname
  rw [at?_of_ne_nil hne] at he
  exact h (l, e) (SortedMap.mem_entries_iff.mpr he) name hname

theorem HasNames.isName_of_mem_childNames (h : fs.HasNames) (hname : name ∈ fs.childNames l) :
    IsName name := by
  obtain ⟨e, he⟩ := Option.isSome_iff_exists.mp (mem_childNames_iff.mp hname)
  exact h _ e he name (by simp)

/-! ## Walks that go on -/

theorem not_isStay (h : IsName name) : ¬ isStay name := by
  rw [isStay, Bool.or_eq_true, decide_eq_true_eq, decide_eq_true_eq, not_or]
  refine ⟨h.ne_empty, ?_⟩
  rintro rfl
  cases h.2

theorem steps_ofNames (h : ∀ name ∈ names, IsName name) (hne : names ≠ []) :
    steps (ofNames names) = names := by
  rw [steps, pieces_ofNames h hne, List.map_map]
  exact List.map_id'' (fun _ => String.ofList_toList) names

/-- A walk to an entry leads to a directory first, wherever its names are divided. -/
theorem exists_walk_of_append {follow : Bool} {links : Nat} (hs : Standing fs here)
    (hrest : rest ≠ []) (h : fs.walk follow links here (names ++ rest) = .ok (.found k d)) :
    ∃ l e links', fs.walk true links here names = .ok (.found l e) ∧ e.content = .directory ∧
      fs.walk follow links' l rest = .ok (.found k d) := by
  -- The induction is on the first part of the walk; every place it comes to is a directory.
  have hmore : ∀ names : List String, ¬ ((names ++ rest).isEmpty && !follow) = true := by
    simp [hrest]
  fun_induction fs.walk true links here names with
  | case1 links here e he =>
    obtain ⟨e', he', hdir⟩ := hs here (List.prefix_refl here)
    cases he.symm.trans he'
    exact ⟨here, e, links, rfl, hdir, h⟩
  | case2 links here hnone =>
    obtain ⟨e, he, -⟩ := hs here (List.prefix_refl here)
    cases he.symm.trans hnone
  | case3 links here names ih =>
    rw [List.cons_append, walk, if_pos rfl] at h
    exact ih hs h
  | case4 links here name names hname hsearch =>
    rw [List.cons_append, walk, if_neg hname, if_pos hsearch] at h
    cases h
  | case5 links here name names hname hsearch hstay ih =>
    rw [List.cons_append, walk, if_neg hname, if_neg hsearch, if_pos hstay] at h
    exact ih hs h
  | case6 links here names hsearch hname hstay ih =>
    rw [List.cons_append, walk, if_neg hname, if_neg hsearch, if_neg hstay, if_pos rfl] at h
    exact ih hs.dropLast h
  | case7 links here name names hname hsearch hstay hup hlimit =>
    rw [List.cons_append, walk, if_neg hname, if_neg hsearch, if_neg hstay, if_neg hup,
      if_pos hlimit] at h
    cases h
  | case8 links here name names hname hsearch hstay hup hlimit l hnone
  | case9 links here name names hname hsearch hstay hup hlimit l hnone
  | case10 links here name names hname hsearch hstay hup hlimit l hnone =>
    exact absurd h (walk_of_absent hname hstay hup hnone)
  | case11 links here name names hname hsearch hstay hup hlimit l e he hcontent ih =>
    rw [List.cons_append, walk_cons hname (by simpa using hsearch) hstay hup hlimit he,
      hcontent] at h
    exact ih (hs.enter he hcontent) h
  | case12 links here name names hname hsearch hstay hup hlimit l e he target hcontent hlast =>
    simp at hlast
  | case13 here name names hname hsearch hstay hup hlimit l e he target hcontent hlast =>
    rw [List.cons_append, walk_cons hname (by simpa using hsearch) hstay hup hlimit he,
      hcontent] at h
    simp [hmore] at h
  | case14 here name names hname hsearch hstay hup hlimit l e he target hcontent hlast links ih =>
    rw [List.cons_append, walk_cons hname (by simpa using hsearch) hstay hup hlimit he,
      hcontent] at h
    simp only [if_neg (hmore names), ← List.append_assoc] at h
    exact ih (hs.start target) h
  | case15 links here name names hname hsearch hstay hup hlimit l e he _ hcontent
  | case16 links here name names hname hsearch hstay hup hlimit l e he _ hcontent
  | case17 links here name names hname hsearch hstay hup hlimit l e he _ hcontent
  | case18 links here name names hname hsearch hstay hup hlimit l e he _ hcontent =>
    -- Nothing goes on from a file.
    rw [List.cons_append, walk_cons hname (by simpa using hsearch) hstay hup hlimit he,
      hcontent] at h
    simp [hrest] at h

/-- A path that leads somewhere with names after it leads to a directory, from which the names lead
on. -/
theorem walk_of_lookup_join (hs : Standing fs cwd)
    (hnames : ∀ other ∈ name :: names, IsName other) (hp : fs.lookup cwd p = .ok (l, e))
    (h : fs.lookup cwd (p / ofNames (name :: names)) = .ok (k, d)) :
    e.content = .directory ∧ ∃ links, fs.walk true links l (name :: names) = .ok (.found k d) := by
  have hrelative := not_isAbsolute_ofNames hnames
  have hwalk := walk_of_resolve (lookup_eq_ok_iff.mp hp)
  have hwhole := walk_of_resolve (lookup_eq_ok_iff.mp h)
  have hstart := hs.start p
  obtain ⟨ps, hps, hjoin⟩ := exists_pieces_join (p := p) hrelative
  rw [isAbsolute_join hrelative, steps, hjoin, List.map_append] at hwhole
  obtain ⟨l', e', links, hl', hdir, hon⟩ := exists_walk_of_append hstart (by simp [pieces_ne_nil])
    hwhole
  -- An empty name at the end of the path leads nowhere further.
  have hsame : l' = l ∧ e' = e := by
    rcases hps with hps | hps
    · rw [steps, hps, hl'] at hwalk
      exact Place.found.inj (Except.ok.inj hwalk)
    · rw [steps, hps, List.map_append] at hwalk
      obtain ⟨m, e₁, links₁, hm, -, hempty⟩ := exists_walk_of_append hstart (by simp) hwalk
      rw [hl'] at hm
      cases hm
      have hat : fs.at? l' = some e' := at?_of_walk hl'
      rw [List.map_singleton, walk, if_pos rfl, walk, hat] at hempty
      exact Place.found.inj (Except.ok.inj hempty)
  obtain ⟨rfl, rfl⟩ := hsame
  change fs.walk true links l' (steps (ofNames (name :: names))) = _ at hon
  rw [steps_ofNames hnames (List.cons_ne_nil _ _)] at hon
  exact ⟨hdir, links, hon⟩

theorem mem_childNames_of_walk {links : Nat} (hname : IsName name)
    (h : fs.walk true links l (name :: names) = .ok (.found k d)) : name ∈ fs.childNames l := by
  rw [mem_childNames_iff, Option.isSome_iff_ne_none]
  intro habsent
  exact walk_of_absent hname.ne_empty (not_isStay hname) hname.ne_parent habsent h

theorem eq_of_walk_cons {links : Nat} (hname : IsName name)
    (h : fs.walk true links l (name :: names) = .ok (.found k d))
    (he : fs.at? (l ++ [name]) = some e) (hdir : e.content ≠ .directory)
    (hlink : ∀ target, e.content ≠ .link target) : names = [] ∧ d = e := by
  rw [walk, if_neg hname.ne_empty] at h
  split at h
  · cases h
  rw [if_neg (not_isStay hname), if_neg hname.ne_parent] at h
  split at h
  · cases h
  dsimp only at h
  rw [he] at h
  dsimp only at h
  split at h
  · exact absurd ‹_› hdir
  · exact absurd ‹_› (hlink _)
  all_goals
    split at h
    · cases h
      exact ⟨List.isEmpty_iff.mp ‹_›, rfl⟩
    · cases h

/-! ## Walking a directory -/

theorem isFile_iff_lookup : fs.isFile cwd p ↔ ∃ l e, fs.lookup cwd p = .ok (l, e) ∧ e.isFile := by
  rw [isFile_iff_lookup?, lookup?]
  cases fs.lookup cwd p with
  | error err => simp [Except.toOption]
  | ok found => simp [Except.toOption, Prod.ext_iff]

theorem isDirectory_iff_lookup :
    fs.isDirectory cwd p ↔ ∃ l e, fs.lookup cwd p = .ok (l, e) ∧ e.content = .directory := by
  rw [isDirectory, lookup?]
  cases fs.lookup cwd p with
  | error err => simp [Except.toOption]
  | ok found => simp [Except.toOption, Prod.ext_iff]

theorem not_isFile_of_isDirectory (h : fs.isDirectory cwd p) : ¬ fs.isFile cwd p := by
  rw [isFile_iff_lookup]
  rintro ⟨l, e, he, hfile⟩
  obtain ⟨l', e', he', hdir⟩ := isDirectory_iff_lookup.mp h
  cases he.symm.trans he'
  simp [FileEntry.isFile, hdir] at hfile

variable {depth : Nat} {inside : List Location} {found part : List Path}
  {walk : Path → Option (List Path)}

/-- The names lead from a path to a regular file: the path with the names does, or the directory that
the names before the last one lead to has a file by that name, though the user may not look it up. -/
def FileBelow (fs : FileSystem) (cwd : Location) (p : Path) (names : List String) : Prop :=
  fs.isFile cwd (names.foldl (fun p name => p / ⟨name⟩) p) ∨
    ∃ before name l e d, names = before ++ [name] ∧
      fs.lookup cwd (before.foldl (fun p name => p / ⟨name⟩) p) = .ok (l, e) ∧
      e.content = .directory ∧ fs.at? (l ++ [name]) = some d ∧ d.isFile

theorem fileBelow_nil : fs.FileBelow cwd p [] ↔ fs.isFile cwd p := by
  simp [FileBelow]

theorem FileBelow.cons (h : fs.FileBelow cwd (p / ⟨name⟩) names) :
    fs.FileBelow cwd p (name :: names) := by
  rcases h with hfile | ⟨before, last, l, e, d, rfl, hl⟩
  · exact .inl hfile
  · exact .inr ⟨name :: before, last, l, e, d, rfl, hl⟩

theorem entryBelow_eq_some (h : fs.entryBelow l name p walk = some part) :
    (∃ e, fs.at? (l ++ [name]) = some e ∧ e.content ≠ .directory ∧
        (∀ target, e.content ≠ .link target) ∧ (e.isFile ∧ part = [p] ∨ ¬ e.isFile ∧ part = [])) ∨
      (∀ e, fs.at? (l ++ [name]) = some e → ¬ e.isFile) ∧ walk p = some part := by
  unfold entryBelow at h
  cases he : fs.at? (l ++ [name]) with
  | none =>
    rw [he] at h
    exact .inr ⟨nofun, h⟩
  | some e =>
    rw [he, Option.map_some] at h
    cases hcontent : e.content <;> rw [hcontent] at h
    · exact .inr ⟨fun d hd => by cases hd; simp [FileEntry.isFile, hcontent], h⟩
    · exact .inl ⟨e, rfl, by simp [hcontent], by simp [hcontent],
        .inl ⟨by simp [FileEntry.isFile, hcontent], (Option.some.inj h).symm⟩⟩
    · exact .inr ⟨fun d hd => by cases hd; simp [FileEntry.isFile, hcontent], h⟩
    · exact .inl ⟨e, rfl, by simp [hcontent], by simp [hcontent],
        .inr ⟨by simp [FileEntry.isFile, hcontent], (Option.some.inj h).symm⟩⟩

/-- What a walk gives for a path: the path of a file itself, what is found for each name in a
directory, nothing for anything else. -/
theorem filesBelow_eq_some (h : fs.filesBelow cwd (depth + 1) inside p = some found) :
    ∃ l e, fs.lookup cwd p = .ok (l, e) ∧
      (e.isFile ∧ found = [p] ∨
        e.content = .directory ∧ (∃ parts, found = parts.flatten ∧
          List.Forall₂ (fun name part => fs.entryBelow l name (p / ⟨name⟩)
            (fs.filesBelow cwd depth (l :: inside)) = some part) (fs.childNames l) parts) ∨
        ¬ e.isFile ∧ e.content ≠ .directory ∧ found = []) := by
  rw [filesBelow] at h
  cases hlookup : fs.lookup cwd p with
  | error err =>
    rw [hlookup] at h
    cases h
  | ok entry =>
    obtain ⟨l, e⟩ := entry
    refine ⟨l, e, rfl, ?_⟩
    rw [hlookup] at h
    dsimp only at h
    cases hcontent : e.content with
    | file bytes =>
      rw [hcontent] at h
      exact .inl ⟨by simp [FileEntry.isFile, hcontent], (Option.some.inj h).symm⟩
    | directory =>
      rw [hcontent] at h
      dsimp only at h
      split at h
      · cases h
      · obtain ⟨parts, hparts, h⟩ := Option.bind_eq_some_iff.mp h
        exact .inr (.inl ⟨rfl, parts, (Option.some.inj h).symm, forall₂_of_mapM_eq_some hparts⟩)
    | link target | device d =>
      rw [hcontent] at h
      exact .inr (.inr ⟨by simp [FileEntry.isFile, hcontent], by simp, (Option.some.inj h).symm⟩)

theorem exists_names_of_mem_filesBelow (hnames : fs.HasNames)
    (h : fs.filesBelow cwd depth inside p = some found) (hq : q ∈ found) :
    ∃ names : List String, (∀ name ∈ names, IsName name) ∧ fs.FileBelow cwd p names ∧
      q = names.foldl (fun p name => p / ⟨name⟩) p := by
  induction depth generalizing inside p found with
  | zero => cases h
  | succ depth ih =>
    obtain ⟨l, e, he, ⟨hfile, rfl⟩ | ⟨hdir, parts, rfl, hparts⟩ | ⟨-, -, rfl⟩⟩ :=
      filesBelow_eq_some h
    · obtain rfl := List.mem_singleton.mp hq
      exact ⟨[], by simp, fileBelow_nil.mpr (isFile_iff_lookup.mpr ⟨l, e, he, hfile⟩), rfl⟩
    · obtain ⟨part, hpart, hq⟩ := List.mem_flatten.mp hq
      obtain ⟨name, hname, hfound⟩ := exists_of_mem_of_forall₂ hparts.flip hpart
      have hisName := hnames.isName_of_mem_childNames hname
      rcases entryBelow_eq_some hfound with ⟨d, hd, -, -, ⟨hfile, rfl⟩ | ⟨-, rfl⟩⟩ | ⟨-, hbelow⟩
      · obtain rfl := List.mem_singleton.mp hq
        exact ⟨[name], by simpa using hisName, .inr ⟨[], name, l, e, d, rfl, he, hdir, hd, hfile⟩,
          rfl⟩
      · cases hq
      · obtain ⟨names, hrest, hfile, rfl⟩ := ih hbelow hq
        exact ⟨name :: names, List.forall_mem_cons.mpr ⟨hisName, hrest⟩, hfile.cons, rfl⟩
    · cases hq

/-- Where names lead from a path to a regular file, the first of them is in the directory that the path
leads to; the others lead from there to the file, and nowhere if the first is a file or a device. -/
theorem FileBelow.exists_child (hs : Standing fs cwd) (hnames : ∀ other ∈ name :: names, IsName other)
    (hp : fs.lookup cwd p = .ok (l, e)) (h : fs.FileBelow cwd p (name :: names)) :
    e.content = .directory ∧ name ∈ fs.childNames l ∧
      ((∃ d, fs.at? (l ++ [name]) = some d ∧ d.isFile ∧ names = []) ∨
        (∀ d, fs.at? (l ++ [name]) = some d →
          d.content = .directory ∨ ∃ target, d.content = .link target) ∧
        fs.FileBelow cwd (p / ⟨name⟩) names) := by
  have hname := hnames name List.mem_cons_self
  -- The names up to some point lead to an entry.
  have hlead : ∀ {others k d}, (∀ other ∈ name :: others, IsName other) →
      fs.lookup cwd ((name :: others).foldl (fun p name => p / ⟨name⟩) p) = .ok (k, d) →
      e.content = .directory ∧ name ∈ fs.childNames l ∧
        ((∃ d', fs.at? (l ++ [name]) = some d' ∧ others = [] ∧ d = d' ∧ d'.content ≠ .directory) ∨
          ∀ d', fs.at? (l ++ [name]) = some d' →
            d'.content = .directory ∨ ∃ target, d'.content = .link target) := by
    intro others k d hothers hd
    rw [foldl_join hothers (List.cons_ne_nil _ _)] at hd
    obtain ⟨hdir, links, hwalk⟩ := walk_of_lookup_join hs hothers hp hd
    have hmem := mem_childNames_of_walk hname hwalk
    refine ⟨hdir, hmem, ?_⟩
    by_cases hon : ∀ d', fs.at? (l ++ [name]) = some d' →
        d'.content = .directory ∨ ∃ target, d'.content = .link target
    · exact .inr hon
    · push Not at hon
      obtain ⟨d', hd', hother, hlink⟩ := hon
      obtain ⟨rfl, rfl⟩ := eq_of_walk_cons hname hwalk hd' hother hlink
      exact .inl ⟨d, hd', rfl, rfl, hother⟩
  rcases h with hfile | ⟨before, last, k, d, d', hsplit, hk, hdir, hd', hfile⟩
  · obtain ⟨k, d, hd, hisFile⟩ := isFile_iff_lookup.mp hfile
    obtain ⟨hdir, hmem, ⟨d', hd', rfl, rfl, -⟩ | hon⟩ := hlead hnames hd
    · exact ⟨hdir, hmem, .inl ⟨d, hd', hisFile, rfl⟩⟩
    · exact ⟨hdir, hmem, .inr ⟨hon, .inl hfile⟩⟩
  · cases before with
    | nil =>
      obtain ⟨rfl, rfl⟩ := List.cons.inj hsplit
      cases hp.symm.trans hk
      exact ⟨hdir, mem_childNames_iff.mpr (by rw [hd']; rfl), .inl ⟨d', hd', hfile, rfl⟩⟩
    | cons first before =>
      obtain ⟨rfl, rfl⟩ := List.cons.inj hsplit
      have hbefore : ∀ other ∈ name :: before, IsName other := fun other hother =>
        hnames other (by rw [hsplit]; exact List.mem_append_left _ hother)
      obtain ⟨hdirectory, hmem, ⟨d₁, -, -, rfl, hother⟩ | hon⟩ := hlead hbefore hk
      · exact absurd hdir hother
      · exact ⟨hdirectory, hmem, .inr ⟨hon, .inr ⟨before, last, k, d, d', rfl, hk, hdir, hd', hfile⟩⟩⟩

theorem mem_filesBelow (hs : Standing fs cwd) (hnames : ∀ name ∈ names, IsName name)
    (h : fs.filesBelow cwd depth inside p = some found) (hfile : fs.FileBelow cwd p names) :
    names.foldl (fun p name => p / ⟨name⟩) p ∈ found := by
  induction names generalizing depth inside p found with
  | nil =>
    obtain ⟨l, e, he, hfile⟩ := isFile_iff_lookup.mp (fileBelow_nil.mp hfile)
    cases depth with
    | zero => cases h
    | succ depth =>
      obtain ⟨l', e', he', hcases⟩ := filesBelow_eq_some h
      cases he.symm.trans he'
      rcases hcases with ⟨-, rfl⟩ | ⟨hdir, -⟩ | ⟨hnone, -⟩
      · exact List.mem_singleton_self p
      · simp [FileEntry.isFile, hdir] at hfile
      · exact absurd hfile hnone
  | cons name names ih =>
    cases depth with
    | zero => cases h
    | succ depth =>
      obtain ⟨l, e, he, hcases⟩ := filesBelow_eq_some h
      obtain ⟨hdir, hname, hchild⟩ := hfile.exists_child hs hnames he
      rcases hcases with ⟨hfile, -⟩ | ⟨-, parts, rfl, hparts⟩ | ⟨-, hother, -⟩
      · simp [FileEntry.isFile, hdir] at hfile
      · obtain ⟨part, hpart, hfound⟩ := exists_of_mem_of_forall₂ hparts hname
        refine List.mem_flatten.mpr ⟨part, hpart, ?_⟩
        rcases entryBelow_eq_some hfound with ⟨d, hd, hnot, hlink, hd'⟩ | ⟨hnone, hbelow⟩
        · rcases hchild with ⟨d', hd₁, hisFile, rfl⟩ | ⟨hon, -⟩
          · cases hd.symm.trans hd₁
            obtain ⟨-, rfl⟩ := hd'.resolve_right fun hd' => hd'.1 hisFile
            exact List.mem_singleton_self _
          · obtain hdirectory | ⟨target, htarget⟩ := hon d hd
            · exact absurd hdirectory hnot
            · exact absurd htarget (hlink target)
        · rcases hchild with ⟨d', hd₁, hisFile, -⟩ | ⟨-, hrest⟩
          · exact absurd hisFile (hnone d' hd₁)
          · exact ih (List.forall_mem_cons.mp hnames).2 hbelow hrest
      · exact absurd hdir hother

/-! ## Every file once -/

theorem nodup_childNames (fs : FileSystem) (l : Location) : (fs.childNames l).Nodup := by
  refine List.Nodup.filterMap (fun k k' name hk hk' => ?_) (SortedMap.nodup_keys _)
  rw [Option.mem_def, Option.ite_none_right_eq_some] at hk hk'
  rw [← List.dropLast_append_getLast? name hk.2, ← List.dropLast_append_getLast? name hk'.2, hk.1,
    hk'.1]

/-- What is found for a name in a directory goes on from the directory by that name. -/
theorem exists_components_of_mem_entryBelow (hnames : fs.HasNames) (hname : IsName name)
    (h : fs.entryBelow l name (p / ⟨name⟩) (fs.filesBelow cwd depth inside) = some part)
    (hq : q ∈ part) : ∃ rest, q.components = p.components ++ .normal name :: rest := by
  obtain ⟨rest, hrest, rfl⟩ : ∃ rest : List String, (∀ other ∈ rest, IsName other) ∧
      q = rest.foldl (fun p name => p / ⟨name⟩) (p / ⟨name⟩) := by
    rcases entryBelow_eq_some h with ⟨d, -, -, -, ⟨-, rfl⟩ | ⟨-, rfl⟩⟩ | ⟨-, hbelow⟩
    · exact ⟨[], by simp, List.mem_singleton.mp hq⟩
    · cases hq
    · obtain ⟨rest, hrest, -, heq⟩ := exists_names_of_mem_filesBelow hnames hbelow hq
      exact ⟨rest, hrest, heq⟩
  have hall : ∀ other ∈ name :: rest, IsName other := List.forall_mem_cons.mpr ⟨hname, hrest⟩
  refine ⟨rest.map .normal, ?_⟩
  rw [← List.foldl_cons (f := fun p name => p / (⟨name⟩ : Path)),
    foldl_join hall (List.cons_ne_nil _ _), components_join_ofNames hall]
  rfl

theorem nodup_flatten_of_forall₂ {children : List String} {parts : List (List Path)}
    (h : List.Forall₂ (fun name part => (part.map components).Nodup ∧
      ∀ q ∈ part, ∃ rest, q.components = p.components ++ .normal name :: rest) children parts)
    (hdistinct : children.Nodup) : (parts.flatten.map components).Nodup := by
  induction h with
  | nil => exact List.nodup_nil
  | @cons name part children parts hpart hparts ih =>
    obtain ⟨hnew, hdistinct⟩ := List.nodup_cons.mp hdistinct
    rw [List.flatten_cons, List.map_append, List.nodup_append]
    refine ⟨hpart.1, ih hdistinct, fun cs hcs cs' hcs' heq => ?_⟩
    obtain ⟨q, hq, rfl⟩ := List.mem_map.mp hcs
    obtain ⟨q', hq', rfl⟩ := List.mem_map.mp hcs'
    obtain ⟨part', hpart', hq'⟩ := List.mem_flatten.mp hq'
    obtain ⟨name', hname', -, hrest'⟩ := exists_of_mem_of_forall₂ hparts.flip hpart'
    obtain ⟨rest, hrest⟩ := hpart.2 q hq
    obtain ⟨rest', hrest'⟩ := hrest' q' hq'
    rw [hrest, hrest'] at heq
    obtain ⟨hsame, -⟩ := List.cons.inj (List.append_cancel_left heq)
    cases hsame
    exact hnew hname'

theorem nodup_filesBelow (hnames : fs.HasNames)
    (h : fs.filesBelow cwd depth inside p = some found) : (found.map components).Nodup := by
  induction depth generalizing inside p found with
  | zero => cases h
  | succ depth ih =>
    obtain ⟨l, e, -, ⟨-, rfl⟩ | ⟨-, parts, rfl, hparts⟩ | ⟨-, -, rfl⟩⟩ := filesBelow_eq_some h
    · exact List.nodup_singleton _
    · have hchildren : ∀ name ∈ fs.childNames l, IsName name := fun name =>
        hnames.isName_of_mem_childNames
      have hboth := (List.forall₂_and_left _ _).mpr ⟨hchildren, hparts⟩
      refine nodup_flatten_of_forall₂ (p := p) (hboth.imp fun name part hpart => ⟨?_, fun q =>
        exists_components_of_mem_entryBelow hnames hpart.1 hpart.2⟩) (nodup_childNames fs l)
      rcases entryBelow_eq_some hpart.2 with ⟨d, -, -, -, ⟨-, rfl⟩ | ⟨-, rfl⟩⟩ | ⟨-, hbelow⟩
      · exact List.nodup_singleton _
      · exact List.nodup_nil
      · exact ih hbelow
    · exact List.nodup_nil

/-! ## Walks that fail -/

/-- A walk of a path fails: the path leads nowhere, or to a directory that is being walked or that may
not be read, or the walk of a name in it fails. -/
inductive WalkFails (fs : FileSystem) (cwd : Location) : List Location → Path → Prop
  | lost {inside : List Location} {p : Path} {err : FileError} :
      fs.lookup cwd p = .error err → fs.WalkFails cwd inside p
  | again {inside : List Location} {p : Path} {l : Location} {e : FileEntry} :
      fs.lookup cwd p = .ok (l, e) → e.content = .directory → l ∈ inside → fs.WalkFails cwd inside p
  | locked {inside : List Location} {p : Path} {l : Location} {e : FileEntry} :
      fs.lookup cwd p = .ok (l, e) → e.content = .directory → ¬ e.mayRead → fs.WalkFails cwd inside p
  | inner {inside : List Location} {p : Path} {l : Location} {e d : FileEntry} {name : String} :
      fs.lookup cwd p = .ok (l, e) → e.content = .directory → fs.at? (l ++ [name]) = some d →
      (d.content = .directory ∨ ∃ target, d.content = .link target) →
      fs.WalkFails cwd (l :: inside) (p / ⟨name⟩) → fs.WalkFails cwd inside p

theorem WalkFails.filesBelow (h : fs.WalkFails cwd inside p) (depth : Nat) :
    fs.filesBelow cwd depth inside p = none := by
  induction h generalizing depth with
  | lost hlookup =>
    cases depth with
    | zero => rfl
    | succ depth => rw [FileSystem.filesBelow, hlookup]
  | again hlookup hdir hinside =>
    cases depth with
    | zero => rfl
    | succ depth => simp [FileSystem.filesBelow, hlookup, hdir, hinside]
  | locked hlookup hdir hread =>
    cases depth with
    | zero => rfl
    | succ depth => simp [FileSystem.filesBelow, hlookup, hdir, hread]
  | @inner inside p l e d name hlookup hdir hd hon _ ih =>
    cases depth with
    | zero => rfl
    | succ depth =>
      rw [Option.eq_none_iff_forall_ne_some]
      intro found hfound
      obtain ⟨l', e', he', hcases⟩ := filesBelow_eq_some hfound
      cases hlookup.symm.trans he'
      rcases hcases with ⟨hfile, -⟩ | ⟨-, parts, -, hparts⟩ | ⟨-, hother, -⟩
      · simp [FileEntry.isFile, hdir] at hfile
      · have hname : name ∈ fs.childNames l := mem_childNames_iff.mpr (by rw [hd]; rfl)
        obtain ⟨part, -, hpart⟩ := exists_of_mem_of_forall₂ hparts hname
        obtain ⟨d', hd', hnot, hlink, -⟩ | ⟨-, hbelow⟩ := entryBelow_eq_some hpart
        · cases hd.symm.trans hd'
          obtain hdirectory | ⟨target, htarget⟩ := hon
          · exact hnot hdirectory
          · exact hlink target htarget
        · cases (ih depth).symm.trans hbelow
      · exact hother hdir

/-- There are no more different places than the root and what has an entry. -/
theorem length_le_of_places (hinside : inside.Nodup) (hplaces : ∀ l ∈ inside, (fs.at? l).isSome) :
    inside.length ≤ fs.entries.size + 1 := by
  have hsubset : inside ⊆ [] :: fs.entries.keys := fun l hl => by
    by_cases hnil : l = []
    · exact hnil ▸ List.mem_cons_self
    · obtain ⟨e, he⟩ := Option.isSome_iff_exists.mp (hplaces l hl)
      rw [at?_of_ne_nil hnil] at he
      exact List.mem_cons_of_mem _ (SortedMap.mem_keys_iff.mpr ⟨e, he⟩)
  have hle := (List.subperm_of_subset hinside hsubset).length_le
  rwa [List.length_cons, show fs.entries.keys.length = fs.entries.size from List.length_map _] at hle

/-- The directories that are being walked are different, so the depth is enough. -/
theorem walkFails_of_filesBelow (hinside : inside.Nodup) (hplaces : ∀ l ∈ inside, (fs.at? l).isSome)
    (hdepth : fs.entries.size + 2 ≤ depth + inside.length)
    (h : fs.filesBelow cwd depth inside p = none) : fs.WalkFails cwd inside p := by
  induction depth generalizing inside p with
  | zero =>
    have hle := length_le_of_places hinside hplaces
    omega
  | succ depth ih =>
    rw [FileSystem.filesBelow] at h
    cases hlookup : fs.lookup cwd p with
    | error err => exact .lost hlookup
    | ok place =>
      obtain ⟨l, e⟩ := place
      rw [hlookup] at h
      dsimp only at h
      cases hcontent : e.content with
      | file | link | device =>
        rw [hcontent] at h
        cases h
      | directory =>
        rw [hcontent] at h
        dsimp only at h
        by_cases hagain : l ∈ inside
        · exact .again hlookup hcontent hagain
        by_cases hread : e.mayRead
        · rw [if_neg (by simp [hagain, hread])] at h
          have hparts : (fs.childNames l).mapM (fun name => fs.entryBelow l name (p / ⟨name⟩)
              (fs.filesBelow cwd depth (l :: inside))) = none := by
            rw [Option.eq_none_iff_forall_ne_some]
            intro parts hparts
            rw [hparts] at h
            cases h
          obtain ⟨name, hname, hnone⟩ := exists_of_mapM_eq_none hparts
          obtain ⟨d, hd⟩ := Option.isSome_iff_exists.mp (mem_childNames_iff.mp hname)
          have hbelow : fs.filesBelow cwd depth (l :: inside) (p / ⟨name⟩) = none →
              fs.WalkFails cwd (l :: inside) (p / ⟨name⟩) :=
            ih (List.nodup_cons.mpr ⟨hagain, hinside⟩)
              (List.forall_mem_cons.mpr ⟨by rw [at?_of_lookup hlookup]; rfl, hplaces⟩)
              (by rw [List.length_cons]; omega)
          rw [entryBelow, hd, Option.map_some] at hnone
          cases hd' : d.content <;> rw [hd'] at hnone
          · exact .inner hlookup hcontent hd (.inl hd') (hbelow hnone)
          · cases hnone
          · exact .inner hlookup hcontent hd (.inr ⟨_, hd'⟩) (hbelow hnone)
          · cases hnone
        · exact .locked hlookup hcontent hread

/-- A walk gives nothing only where it fails, however many directories there are inside each other. -/
theorem filesBelow_eq_none_iff :
    fs.filesBelow cwd (fs.entries.size + 2) [] p = none ↔ fs.WalkFails cwd [] p :=
  ⟨walkFails_of_filesBelow List.nodup_nil nofun (Nat.le_refl _), fun h => h.filesBelow _⟩

/-! ## The files that a walk of a directory finds -/

/-- A walk of a directory finds these regular files, each told by the names that lead there. -/
structure Finds (fs : FileSystem) (cwd : Location) (dir : Path) (xs : List (List String)) :
    Prop where
  walked : fs.filesBelow cwd (fs.entries.size + 2) [] dir = some (xs.map fun x => dir / ofNames x)
  nodup : xs.Nodup
  names : ∀ x ∈ xs, x ≠ [] ∧ ∀ name ∈ x, IsName name
  mem_iff : ∀ x, x ≠ [] → (∀ name ∈ x, IsName name) →
    (x ∈ xs ↔ fs.FileBelow cwd dir x)

variable {base dir : Path} {below : List Path} {xs : List (List String)}

theorem exists_finds (hs : Standing fs cwd) (hnames : fs.HasNames) (hdir : fs.isDirectory cwd dir)
    (h : fs.filesBelow cwd (fs.entries.size + 2) [] dir = some below) :
    ∃ xs, fs.Finds cwd dir xs := by
  have hlead : ∀ q ∈ below, ∃ x : List String, (x ≠ [] ∧ ∀ name ∈ x, IsName name) ∧
      q = dir / ofNames x ∧ fs.FileBelow cwd dir x := fun q hq => by
    obtain ⟨x, hx, hfile, rfl⟩ := exists_names_of_mem_filesBelow hnames h hq
    -- The directory itself is no file, so a name follows.
    have hne : x ≠ [] := by
      rintro rfl
      exact not_isFile_of_isDirectory hdir (fileBelow_nil.mp hfile)
    exact ⟨x, ⟨hne, hx⟩, foldl_join hx hne, hfile⟩
  choose! way hway hto hfile using hlead
  have hbelow : below = (below.map way).map fun x => dir / ofNames x := by
    rw [List.map_map]
    exact (List.map_id below).symm.trans (List.map_congr_left hto)
  refine ⟨below.map way, hbelow ▸ h, ?_, List.forall_mem_map.mpr hway, fun x hne hx => ?_⟩
  · have hdistinct := nodup_filesBelow hnames h
    rw [hbelow, List.map_map] at hdistinct
    exact hdistinct.of_map
  · rw [List.mem_map]
    constructor
    · rintro ⟨q, hq, rfl⟩
      exact hfile q hq
    · intro hfound
      have hq := mem_filesBelow hs hx h hfound
      rw [foldl_join hx hne] at hq
      refine ⟨_, hq, ?_⟩
      have hsame := congrArg components (hto _ hq)
      rw [components_join_ofNames hx, components_join_ofNames (hway _ hq).2] at hsame
      exact (map_normal_injective (List.append_cancel_left hsame)).symm

/-- What is found below a directory is given relative to the base, in path order. -/
theorem Finds.walkFiles (h : fs.Finds cwd (base / p) xs) (hp : p.MadeOf names) (hne : names ≠ []) :
    ∃ found, fs.walkFiles cwd base (base / p) = some found ∧
      (found.Pairwise fun q r => compare q r = .lt) ∧
      (found.map components).Perm (xs.map fun x => (p / ofNames x).components) := by
  have hjoin : ∀ x ∈ xs, (p / ofNames x).components = (names ++ x).map .normal := fun x hx => by
    rw [components_join_ofNames (h.names x hx).2, hp, List.map_append]
  have hrelative : ∀ x ∈ xs, (relativeTo base (base / p / ofNames x)).components =
      (p / ofNames x).components := fun x hx => by
    rw [join_assoc hp.not_isAbsolute (hp.not_isEmpty hne)
      (not_isAbsolute_ofNames (h.names x hx).2)]
    exact (MadeOf.relativeTo (hjoin x hx) base).trans (hjoin x hx).symm
  have hperm : ((((xs.map fun x => base / p / ofNames x).map (relativeTo base)).mergeSort
      fun a b => (compare a b).isLE).map components).Perm
        (xs.map fun x => (p / ofNames x).components) := by
    refine ((List.mergeSort_perm _ _).map _).trans ?_
    rw [List.map_map, List.map_map]
    exact .of_eq (List.map_congr_left hrelative)
  have hdistinct : (xs.map fun x => (p / ofNames x).components).Nodup := by
    refine List.Nodup.map_on (fun x hx y hy hsame => ?_) h.nodup
    rw [hjoin x hx, hjoin y hy] at hsame
    exact List.append_cancel_left (map_normal_injective hsame)
  refine ⟨_, by rw [FileSystem.walkFiles, h.walked]; rfl, ?_, hperm⟩
  refine ((Path.pairwise_mergeSort _).and
    (List.pairwise_map.mp (hperm.nodup_iff.mpr hdistinct))).imp fun {q r} hqr => ?_
  cases hcompare : compare q r with
  | lt => rfl
  | eq => exact absurd (compare_eq_iff_same.mp hcompare) hqr.2
  | gt => rw [hcompare] at hqr; cases hqr.1

/-- **A walk of a directory gives its files.** Up to how they are spelled, the paths it gives are
those that go on from the directory's, without the base, by names and lead to a file. -/
theorem mem_walkFiles_iff (hs : Standing fs cwd) (hnames : fs.HasNames)
    (hp : ∀ name ∈ names, IsName name) (hne : names ≠ [])
    (hdir : fs.isDirectory cwd (base / ofNames names))
    (h : fs.walkFiles cwd base (base / ofNames names) = some found) :
    (∃ r ∈ found, r.Same q) ↔ ∃ rest : List String, rest ≠ [] ∧ (∀ name ∈ rest, IsName name) ∧
      fs.FileBelow cwd (base / ofNames names) rest ∧
      q.components = (names ++ rest).map .normal := by
  obtain ⟨below, hbelow, -⟩ := Option.bind_eq_some_iff.mp h
  obtain ⟨xs, hfinds⟩ := exists_finds hs hnames hdir hbelow
  obtain ⟨found', hfound, -, hperm⟩ := hfinds.walkFiles (madeOf_ofNames hp) hne
  cases h.symm.trans hfound
  have hcomponents : ∀ rest : List String, (∀ name ∈ rest, IsName name) →
      (ofNames names / ofNames rest).components = (names ++ rest).map .normal := fun rest hall => by
    rw [components_join_ofNames hall, components_ofNames hp, List.map_append]
  have hsame : (∃ r ∈ found, r.Same q) ↔ q.components ∈ found.map components := by
    simp [Same]
  rw [hsame, hperm.mem_iff, List.mem_map]
  constructor
  · rintro ⟨rest, hrest, hq⟩
    obtain ⟨hne', hall⟩ := hfinds.names rest hrest
    exact ⟨rest, hne', hall, (hfinds.mem_iff rest hne' hall).mp hrest,
      hq.symm.trans (hcomponents rest hall)⟩
  · rintro ⟨rest, hrest, hall, hfile, hq⟩
    exact ⟨rest, (hfinds.mem_iff rest hrest hall).mpr hfile,
      (hcomponents rest hall).trans hq.symm⟩

/-- **Walked files come back relative to their base.** From a base to a path of names that is appended
to it that path leads, whatever the base is made of. So a walk of a directory below a root gives the
directory's own path with what it finds there, each file once and in path order, unless it fails. -/
theorem walkFiles_exact :
    (∀ (base r : Path) (names : List String), r.MadeOf names →
        (relativeTo base (base / r)).Same r) ∧
      ∀ (fs : FileSystem) (cwd : Location) (root d : Path) (names : List String),
        Standing fs cwd → fs.HasNames → d.MadeOf names → names ≠ [] →
        fs.isDirectory cwd (root / d) →
        fs.WalkFails cwd [] (root / d) ∧ fs.walkFiles cwd root (root / d) = none ∨
          ¬ fs.WalkFails cwd [] (root / d) ∧
            ∃ xs found, fs.Finds cwd (root / d) xs ∧ fs.walkFiles cwd root (root / d) = some found ∧
              (found.Pairwise fun p q => compare p q = .lt) ∧
              (found.map components).Perm (xs.map fun x => (d / ofNames x).components) := by
  refine ⟨fun base r names hr => (hr.relativeTo base).trans hr.symm,
    fun fs cwd root d names hs hnames hd hne hdir => ?_⟩
  rw [← filesBelow_eq_none_iff]
  cases hbelow : fs.filesBelow cwd (fs.entries.size + 2) [] (root / d) with
  | none => exact .inl ⟨rfl, by rw [FileSystem.walkFiles, hbelow]; rfl⟩
  | some below =>
    obtain ⟨xs, hfinds⟩ := exists_finds hs hnames hdir hbelow
    obtain ⟨found, hfound⟩ := hfinds.walkFiles hd hne
    exact .inr ⟨nofun, xs, found, hfinds, hfound⟩

/-! ### A root that goes up first -/

/-- A directory of notes, one of which is in a directory of its own, and a directory to work in. -/
def notes : FileSystem :=
  let directory : FileEntry := ⟨.directory, directoryMode, 1, true, none⟩
  let file : FileEntry := ⟨.file [], fileMode, 1, true, none⟩
  let entries : List (Location × FileEntry) :=
    [(["demo"], directory), (["demo", "doc"], directory), (["demo", "doc", "a"], directory),
      (["demo", "doc", "a", "x"], file), (["demo", "doc", "a.txt"], file), (["work"], directory)]
  { entries := SortedMap.insertAll ∅ entries }

theorem linkFree_notes : LinkFree notes := linkFree_of_entries (by decide)

theorem lookups_notes :
    notes.lookup ["work"] ⟨"../demo/doc/."⟩ =
        .ok (["demo", "doc"], ⟨.directory, directoryMode, 1, true, none⟩) ∧
      notes.lookup ["work"] ⟨"../demo/doc/./a"⟩ =
        .ok (["demo", "doc", "a"], ⟨.directory, directoryMode, 1, true, none⟩) := by
  simp only [lookup, resolve_eq_descend linkFree_notes]
  decide

theorem filesBelow_notes : notes.filesBelow ["work"] (notes.entries.size + 2) [] ⟨"../demo/doc/."⟩ =
    some [⟨"../demo/doc/./a/x"⟩, ⟨"../demo/doc/./a.txt"⟩] := by
  obtain ⟨hdoc, ha⟩ := lookups_notes
  have hsize : notes.entries.size + 2 = 7 + 1 := by rfl
  have hchildren : notes.childNames ["demo", "doc"] = ["a", "a.txt"] ∧
      notes.childNames ["demo", "doc", "a"] = ["x"] := by decide
  have hentries : ∀ p walk, notes.entryBelow ["demo", "doc"] "a" p walk = walk p ∧
      notes.entryBelow ["demo", "doc"] "a.txt" p walk = some [p] ∧
      notes.entryBelow ["demo", "doc", "a"] "x" p walk = some [p] := fun _ _ => ⟨rfl, rfl, rfl⟩
  have hjoin : (⟨"../demo/doc/."⟩ / ⟨"a"⟩ : Path) = ⟨"../demo/doc/./a"⟩ ∧
      (⟨"../demo/doc/./a"⟩ / ⟨"x"⟩ : Path) = ⟨"../demo/doc/./a/x"⟩ ∧
      (⟨"../demo/doc/."⟩ / ⟨"a.txt"⟩ : Path) = ⟨"../demo/doc/./a.txt"⟩ := by decide
  have hread : FileEntry.mayRead ⟨.directory, directoryMode, 1, true, none⟩ := by decide
  have hinner : notes.filesBelow ["work"] 7 [["demo", "doc"]] ⟨"../demo/doc/./a"⟩ =
      some [⟨"../demo/doc/./a/x"⟩] := by
    rw [filesBelow, ha]
    simp [hchildren, hjoin, hread, hentries]
  rw [hsize, filesBelow, hdoc]
  simp [hchildren, hjoin, hread, hentries, hinner]

theorem standing_notes : Standing notes ["work"] := by
  have hwork : notes.at? ([] ++ ["work"]) = some ⟨.directory, directoryMode, 1, true, none⟩ := by
    decide
  exact standing_nil.enter hwork rfl

/-- The notes come back below the directory's own path, though that is spelled with a dot and the
root goes up first; a directory comes before a file that is called like it and more. -/
theorem walkFiles_exact_notes :
    (∃ found, notes.walkFiles ["work"] ⟨"../demo"⟩ ⟨"../demo/doc/."⟩ = some found ∧
        (found.Pairwise fun p q => compare p q = .lt) ∧
        (found.map components).Perm
          [[.normal "doc", .normal "a", .normal "x"], [.normal "doc", .normal "a.txt"]]) ∧
      (relativeTo ⟨"../demo"⟩ ⟨"../demo/doc/."⟩).Same ⟨"doc/."⟩ := by
  obtain ⟨hrelative, hwalk⟩ := walkFiles_exact
  have hmade : MadeOf ⟨"doc/."⟩ ["doc"] := show components _ = _ by decide
  have hjoin : (⟨"../demo"⟩ / ⟨"doc/."⟩ : Path) = ⟨"../demo/doc/."⟩ := by decide
  have hdir : notes.isDirectory ["work"] (⟨"../demo"⟩ / ⟨"doc/."⟩) := by
    rw [hjoin]
    exact isDirectory_iff_lookup.mpr ⟨_, _, lookups_notes.1, rfl⟩
  have hnames : notes.HasNames := hasNames_of_entries (by decide)
  have hcomponents : Path.components ⟨"../demo/doc/."⟩ =
      [.parent, .normal "demo", .normal "doc"] := by decide
  refine ⟨?_, hjoin ▸ hrelative _ _ _ hmade⟩
  rw [← hjoin]
  obtain ⟨hfail, -⟩ | ⟨-, xs, found, hfinds, hfound, hsorted, hperm⟩ :=
    hwalk notes ["work"] ⟨"../demo"⟩ ⟨"doc/."⟩ ["doc"] standing_notes hnames hmade (by simp) hdir
  · rw [← filesBelow_eq_none_iff, hjoin, filesBelow_notes] at hfail
    cases hfail
  · refine ⟨found, hfound, hsorted, hperm.trans (.of_eq ?_)⟩
    -- What is found goes on from the root by two components more.
    have hdrop : ∀ x ∈ xs, (⟨"doc/."⟩ / ofNames x : Path).components =
        (⟨"../demo/doc/."⟩ / ofNames x : Path).components.drop 2 := fun x hx => by
      obtain ⟨-, hx⟩ := hfinds.names x hx
      rw [components_join_ofNames hx, components_join_ofNames hx, hcomponents, hmade]
      rfl
    have hbelow := Option.some.inj ((hjoin ▸ hfinds.walked).symm.trans filesBelow_notes)
    have hpaths := congrArg (List.map fun p => p.components.drop 2) hbelow
    rw [List.map_map] at hpaths
    rw [List.map_congr_left hdrop]
    exact hpaths.trans (by decide)

end FileSystem

end ModularBuild
