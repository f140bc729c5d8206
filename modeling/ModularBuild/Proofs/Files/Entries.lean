import ModularBuild.Proofs.Files.Walking

/-!
# What a path names

A path names an entry, which it leads to unless the entry is a link (`resolve_eq_or_link`). A change
of one entry spares the others (`Spares`): of what it does not own it changes nothing but the times
of directories. So does a write, which owns the file that it fills under all its names
(`spares_write`); and if the file is removed right after, nothing of it is left
(`withdrawn_of_write`).

A path still names what has been kept of a file system if the links that it leads through have been
kept as well (`resolve_of_kept`). Two spellings of one path do not name two things, unless one of
them is a directory (`location_eq_of_same`). What a path names is `Occupied` if it is a regular file
or a link.
-/

namespace ModularBuild

namespace FileSystem

open ModularBuild.Path

variable {own own' gone : Location → Prop} {fs fs' fs'' : FileSystem} {l k here cwd : Location}
  {e d : FileEntry} {p q : Path} {names : List String} {place : Place}

/-! ## Links at the end of a path -/

theorem walk_cons_of_vacant {follow : Bool} {links : Nat} {name : String} {rest : List String}
    (hname : name ≠ "") (hsearch : fs.maySearch here) (hstay : ¬ isStay name) (hup : name ≠ "..")
    (hlimit : ¬ nameLimit < name.utf8ByteSize) (hnone : fs.at? (here ++ [name]) = none) :
    fs.walk follow links here (name :: rest) =
      if rest.isEmpty then .ok (.vacant (here ++ [name]) false)
      else if rest.all (· = "") then .ok (.vacant (here ++ [name]) true)
      else .error .noEntry := by
  rw [walk, if_neg hname, if_neg (by simp [hsearch]), if_neg hstay, if_neg hup, if_neg hlimit]
  simp only [hnone]

/-- A walk that follows a link at its end comes to where one comes that does not, unless that is a
link. -/
theorem walk_eq_or_link (fs : FileSystem) (links : Nat) (here : Location) (names : List String) :
    fs.walk true links here names = fs.walk false links here names ∨
      ∃ l e target, fs.walk false links here names = .ok (.found l e) ∧
        e.content = .link target := by
  -- Both walks go the same way, and only a link at the very end parts them.
  fun_induction fs.walk false links here names with
  | case1 links here e he =>
    exact .inl (by rw [walk, he])
  | case2 links here hnone =>
    exact .inl (by rw [walk, hnone])
  | case3 links here rest ih =>
    rw [walk, if_pos rfl]
    exact ih
  | case4 links here name rest hname hsearch =>
    exact .inl (by rw [walk, if_neg hname, if_pos hsearch])
  | case5 links here name rest hname hsearch hstay ih =>
    rw [walk, if_neg hname, if_neg hsearch, if_pos hstay]
    exact ih
  | case6 links here rest hsearch hname hstay ih =>
    rw [walk, if_neg hname, if_neg hsearch, if_neg hstay, if_pos rfl]
    exact ih
  | case7 links here name rest hname hsearch hstay hup hlimit =>
    exact .inl (by
      rw [walk, if_neg hname, if_neg hsearch, if_neg hstay, if_neg hup, if_pos hlimit])
  | case8 links here name rest hname hsearch hstay hup hlimit l hnone hlast
  | case9 links here name rest hname hsearch hstay hup hlimit l hnone hlast hblank
  | case10 links here name rest hname hsearch hstay hup hlimit l hnone hlast hblank =>
    refine .inl ?_
    rw [walk_cons_of_vacant hname (by simpa using hsearch) hstay hup hlimit hnone]
    simp [*, l]
  | case11 links here name rest hname hsearch hstay hup hlimit l e he hcontent ih =>
    rw [walk_cons hname (by simpa using hsearch) hstay hup hlimit he, hcontent]
    exact ih
  | case12 links here name rest hname hsearch hstay hup hlimit l e he target hcontent hlast =>
    exact .inr ⟨l, e, target, rfl, hcontent⟩
  | case13 here name rest hname hsearch hstay hup hlimit l e he target hcontent hlast =>
    refine .inl ?_
    rw [walk_cons hname (by simpa using hsearch) hstay hup hlimit he, hcontent]
    simp
  | case14 here name rest hname hsearch hstay hup hlimit l e he target hcontent hlast links ih =>
    rw [walk_cons hname (by simpa using hsearch) hstay hup hlimit he, hcontent]
    simpa using ih
  | case15 links here name rest hname hsearch hstay hup hlimit l e he _ hcontent hlast
  | case16 links here name rest hname hsearch hstay hup hlimit l e he _ hcontent hlast
  | case17 links here name rest hname hsearch hstay hup hlimit l e he _ hcontent hlast
  | case18 links here name rest hname hsearch hstay hup hlimit l e he _ hcontent hlast =>
    refine .inl ?_
    rw [walk_cons hname (by simpa using hsearch) hstay hup hlimit he, hcontent]
    simp [hlast, l]

theorem resolve_eq_or_link (fs : FileSystem) (cwd : Location) (p : Path) :
    fs.resolve cwd true p = fs.resolve cwd false p ∨
      ∃ l e target, fs.resolve cwd false p = .ok (.found l e) ∧ e.content = .link target := by
  unfold resolve
  split
  · exact .inl rfl
  split
  · exact .inl rfl
  split
  · exact .inl rfl
  exact walk_eq_or_link fs _ _ _

theorem lookupLink_eq_ok_iff :
    fs.lookupLink cwd p = .ok (l, e) ↔ fs.resolve cwd false p = .ok (.found l e) := by
  unfold lookupLink
  cases fs.resolve cwd false p with
  | error err => simp [bind, Except.bind]
  | ok place => cases place <;> simp [bind, Except.bind, pure, Except.pure, throw, throwThe,
      MonadExceptOf.throw]

theorem isLink_iff : fs.isLink cwd p ↔
    ∃ l e target, fs.resolve cwd false p = .ok (.found l e) ∧ e.content = .link target := by
  simp only [← lookupLink_eq_ok_iff]
  unfold isLink
  rcases fs.lookupLink cwd p with err | ⟨l, content, mode, modified, own, twin⟩
  · simp
  · cases content <;> simp

theorem resolve_of_not_isLink (h : ¬ fs.isLink cwd p) :
    fs.resolve cwd false p = fs.resolve cwd true p :=
  ((resolve_eq_or_link fs cwd p).resolve_right (isLink_iff.not.mp h)).symm

/-! ## The directory that a path ends in -/

theorem standing_of_walk {follow : Bool} {links : Nat} (hs : Standing fs here)
    (h : fs.walk follow links here names = .ok place) : Standing fs place.location.dropLast := by
  fun_induction fs.walk follow links here names with
  | case1 links here e he =>
    cases h
    exact hs.dropLast
  | case2 | case4 | case7 | case10 | case13 | case16 | case18 => cases h
  | case3 links here rest ih | case5 links here name rest hname hsearch hstay ih => exact ih hs h
  | case6 links here rest hsearch hname hstay ih => exact ih hs.dropLast h
  | case11 links here name rest hname hsearch hstay hup hlimit l e he hcontent ih =>
    exact ih (hs.enter he hcontent) h
  | case14 here name rest hname hsearch hstay hup hlimit l e he target hcontent hlast links ih =>
    exact ih (hs.start target) h
  | case8 links here name rest hname hsearch hstay hup hlimit
  | case9 links here name rest hname hsearch hstay hup hlimit
  | case12 links here name rest hname hsearch hstay hup hlimit
  | case15 links here name rest hname hsearch hstay hup hlimit
  | case17 links here name rest hname hsearch hstay hup hlimit =>
    cases h
    have hlast : (here ++ [name]).dropLast = here := List.dropLast_concat
    exact hlast.symm ▸ hs

theorem standing_of_resolve {follow : Bool} (hs : Standing fs cwd)
    (h : fs.resolve cwd follow p = .ok place) : Standing fs place.location.dropLast :=
  standing_of_walk (hs.start p) (walk_of_resolve h)

/-! ## Changes of one entry -/

/-- Outside these locations nothing has changed but the times of directories. -/
def Spares (own : Location → Prop) (fs fs' : FileSystem) : Prop :=
  ∀ m, ¬ own m → fs'.at? m = fs.at? m ∨ ∃ e t, fs.at? m = some e ∧ e.content = .directory ∧
    fs'.at? m = some { e with modified := t }

theorem Spares.refl : Spares own fs fs := fun _ _ => .inl rfl

theorem Spares.mono (h : Spares own fs fs') (hown : ∀ m, own m → own' m) : Spares own' fs fs' :=
  fun m hm => h m fun hown' => hm (hown m hown')

theorem Spares.trans (h : Spares own fs fs') (h' : Spares own fs' fs'') : Spares own fs fs'' := by
  intro m hm
  rcases h m hm with hsame | ⟨e, t, he, hdir, ht⟩
  · rw [← hsame]
    exact h' m hm
  · refine .inr ⟨e, ?_⟩
    rcases h' m hm with hsame | ⟨e', t', he', -, ht'⟩
    · exact ⟨t, he, hdir, hsame.trans ht⟩
    · cases ht.symm.trans he'
      exact ⟨t', he, hdir, ht'⟩

theorem spares_stamp (hdir : ∀ e, fs.at? l = some e → e.content = .directory) :
    Spares own fs (fs.stamp l) := by
  intro m _
  unfold stamp
  cases hl : fs.entries.find? l with
  | none => exact .inl rfl
  | some e =>
    by_cases hnil : m = []
    · subst hnil
      exact .inl rfl
    by_cases hm : m = l
    · subst hm
      have he : fs.at? m = some e := by rw [at?_of_ne_nil hnil, hl]
      exact .inr ⟨e, fs.clock, he, hdir e he, by rw [at?_set hnil, if_pos rfl]⟩
    · exact .inl (by rw [at?_set hnil, if_neg hm])

theorem Standing.isDirectory (hs : Standing fs l) (he : fs.at? l = some e) :
    e.content = .directory := by
  obtain ⟨e', he', hdir⟩ := hs l (List.prefix_refl l)
  cases he.symm.trans he'
  exact hdir

theorem spares_delete (hs : Standing fs l.dropLast) : Spares (· = l) fs (fs.delete l) := by
  have herase : ∀ m, m ≠ [] → ({ fs.tick with entries := fs.entries.erase l } : FileSystem).at? m =
      if m = l then none else fs.at? m := fun m hm => by
    rw [at?_of_ne_nil hm, at?_of_ne_nil hm, SortedMap.find?_erase_eq_ite]
  have hthere : ∀ m e, ({ fs.tick with entries := fs.entries.erase l } : FileSystem).at? m =
      some e → fs.at? m = some e := by
    intro m e he
    by_cases hnil : m = []
    · subst hnil
      exact he
    · rw [herase m hnil] at he
      exact (Option.ite_none_left_eq_some.mp he).2
  have herased : Spares (· = l) fs { fs.tick with entries := fs.entries.erase l } := by
    intro m hm
    by_cases hnil : m = []
    · subst hnil
      exact .inl rfl
    · exact .inl (by rw [herase m hnil, if_neg hm])
  exact herased.trans (spares_stamp fun e he => hs.isDirectory (hthere _ e he))

theorem removeFile_spec (hs : Standing fs cwd) (h : fs.removeFile cwd p = .ok fs') :
    ∃ l e, fs.resolve cwd false p = .ok (.found l e) ∧ fs'.at? l = none ∧ Spares (· = l) fs fs' ∧
      Thinned (· = l) fs fs' ∧ ¬ fs'.pathExists cwd p := by
  have habsent : ¬ fs'.pathExists cwd p := by
    rw [pathExists, lookup?_of_removeFile h]
    exact Bool.false_ne_true
  obtain ⟨l, e, hplace, hfile, hslash, rfl⟩ := removeFile_eq_ok h
  have hresolve := resolve_of_resolveEntry hslash hplace
  have hat := at?_of_resolve hresolve
  have hnil : l ≠ [] := by
    rintro rfl
    cases hat
    exact hfile rfl
  exact ⟨l, e, hresolve, at?_delete_self hnil, spares_delete (standing_of_resolve hs hresolve),
    thinned_delete hat hfile, habsent⟩

/-- Where the links are that a walk follows. -/
def followed (fs : FileSystem) (follow : Bool) (links : Nat) (here : Location) :
    List String → List Location
  | [] => []
  | name :: rest =>
    if isStay name then fs.followed follow links here rest
    else if name = ".." then fs.followed follow links here.dropLast rest
    else match fs.at? (here ++ [name]) with
      | none => []
      | some e =>
        match e.content with
        | .directory => fs.followed follow links (here ++ [name]) rest
        | .link target =>
          if rest.isEmpty && !follow then []
          else match links with
            | 0 => []
            | links + 1 => (here ++ [name]) ::
              fs.followed follow links (if target.isAbsolute then [] else here)
                (steps target ++ rest)
        | .file _ | .device _ => []
termination_by names => (links, names.length)

/-- The links on the way of a path, one at its end left out. -/
def linksTo (fs : FileSystem) (cwd : Location) (p : Path) : List Location :=
  fs.followed false linkLimit (if p.isAbsolute then [] else cwd) (steps p)

theorem followed_cons {follow : Bool} {links : Nat} {name : String} {rest : List String}
    (hstay : ¬ isStay name) (hup : name ≠ "..") (he : fs.at? (here ++ [name]) = some e) :
    fs.followed follow links here (name :: rest) =
      match e.content with
      | .directory => fs.followed follow links (here ++ [name]) rest
      | .link target =>
        if rest.isEmpty && !follow then []
        else match links with
          | 0 => []
          | links + 1 => (here ++ [name]) ::
            fs.followed follow links (if target.isAbsolute then [] else here) (steps target ++ rest)
      | .file _ | .device _ => [] := by
  rw [followed, if_neg hstay, if_neg hup]
  cases hcontent : e.content <;> cases links <;> simp only [he, hcontent]

theorem isSome_at?_of_mem_followed {follow : Bool} {links : Nat}
    (h : k ∈ fs.followed follow links here names) : (fs.at? k).isSome := by
  fun_induction fs.followed follow links here names with
  | case1 | case4 | case6 | case7 | case9 | case10 => cases h
  | case2 links here name rest hstay ih => exact ih h
  | case3 links here rest hstay ih => exact ih h
  | case5 links here name rest hstay hup e he hcontent ih => exact ih h
  | case8 here name rest hstay hup e he target hcontent hlast links ih =>
    rcases List.mem_cons.mp h with rfl | h
    · rw [he]
      rfl
    · exact ih h

theorem linksTo_of_linkFree (hfree : LinkFree fs) : fs.linksTo cwd p = [] := by
  rw [linksTo]
  generalize (if p.isAbsolute then [] else cwd) = here
  fun_induction fs.followed false linkLimit here (steps p) with
  | case1 | case4 | case6 | case7 | case9 | case10 => rfl
  | case2 links here name rest hstay ih => exact ih
  | case3 links here rest hstay ih => exact ih
  | case5 links here name rest hstay hup e he hcontent ih => exact ih
  | case8 here name rest hstay hup e he target hcontent =>
    exact absurd hcontent (hfree _ e he target)

/-- A walk still finds what it found if that, and the links that it follows, have been kept. -/
theorem walk_of_kept {follow : Bool} {links : Nat} (ht : Thinned gone fs fs')
    (hs : Standing fs here) (h : fs.walk follow links here names = .ok (.found l e))
    (hl : (fs'.at? l).isSome)
    (hway : ∀ k ∈ fs.followed follow links here names, (fs'.at? k).isSome) :
    ∃ e', fs'.walk follow links here names = .ok (.found l e') := by
  have hkept : ∀ k d, fs.at? k = some d → (fs'.at? k).isSome →
      ∃ t, fs'.at? k = some { d with modified := t } := by
    intro k d hd hk
    refine (ht.kept k d hd).resolve_right ?_
    rintro ⟨hnone, -⟩
    rw [hnone] at hk
    cases hk
  -- The walk meets directories, which no removal takes out, links, which have been kept, and its end.
  fun_induction fs.walk follow links here names with
  | case1 links here e₁ he₁ =>
    cases h
    obtain ⟨t, ht⟩ := hkept _ _ he₁ hl
    exact ⟨_, by rw [walk, ht]⟩
  | case2 | case4 | case7 | case8 | case9 | case10 | case13 | case16 | case18 => cases h
  | case3 links here rest ih =>
    rw [followed, if_pos (by decide)] at hway
    rw [walk, if_pos rfl]
    exact ih hs h hway
  | case5 links here name rest hname hsearch hstay ih =>
    rw [followed, if_pos hstay] at hway
    rw [walk, if_neg hname, if_neg (by rwa [hs.maySearch_eq ht]), if_pos hstay]
    exact ih hs h hway
  | case6 links here rest hsearch hname hstay ih =>
    rw [followed, if_neg hstay, if_pos rfl] at hway
    rw [walk, if_neg hname, if_neg (by rwa [hs.maySearch_eq ht]), if_neg hstay, if_pos rfl]
    exact ih hs.dropLast h hway
  | case11 links here name rest hname hsearch hstay hup hlimit next e₁ he₁ hcontent ih =>
    rw [followed_cons hstay hup he₁, hcontent] at hway
    obtain ⟨t, hnext⟩ := (ht.kept _ _ he₁).resolve_right fun hgone => hgone.2.1 hcontent
    rw [walk_cons hname (by simpa [hs.maySearch_eq ht] using hsearch) hstay hup hlimit hnext,
      show e₁.content = _ from hcontent]
    exact ih (hs.enter he₁ hcontent) h hway
  | case14 here name rest hname hsearch hstay hup hlimit next e₁ he₁ target hcontent hlast links
      ih =>
    rw [followed_cons hstay hup he₁, hcontent] at hway
    simp only [if_neg hlast, List.forall_mem_cons] at hway
    obtain ⟨t, hnext⟩ := hkept _ _ he₁ hway.1
    rw [walk_cons hname (by simpa [hs.maySearch_eq ht] using hsearch) hstay hup hlimit hnext,
      show e₁.content = _ from hcontent]
    simp only [if_neg hlast]
    exact ih (hs.start target) h hway.2
  | case12 links here name rest hname hsearch hstay hup hlimit next e₁ he₁ _ hcontent hlast
  | case15 links here name rest hname hsearch hstay hup hlimit next e₁ he₁ _ hcontent hlast
  | case17 links here name rest hname hsearch hstay hup hlimit next e₁ he₁ _ hcontent hlast =>
    have hend : here ++ [name] = l := (Place.found.inj (Except.ok.inj h)).1
    subst hend
    obtain ⟨t, hnext⟩ := hkept _ _ he₁ hl
    rw [walk_cons hname (by simpa [hs.maySearch_eq ht] using hsearch) hstay hup hlimit hnext,
      show e₁.content = _ from hcontent]
    exact ⟨_, if_pos hlast⟩

theorem resolve_of_kept (ht : Thinned gone fs fs') (hs : Standing fs cwd)
    (h : fs.resolve cwd false p = .ok (.found l e)) (hl : (fs'.at? l).isSome)
    (hway : ∀ k ∈ fs.linksTo cwd p, (fs'.at? k).isSome) :
    ∃ e', fs'.resolve cwd false p = .ok (.found l e') := by
  rw [resolve_eq_walk h fs']
  exact walk_of_kept ht (hs.start p) (walk_of_resolve h) hl hway

/-! ## Spellings of one path -/

/-- A list of names without some that stay where they are. -/
inductive Trimmed : List String → List String → Prop
  | nil : Trimmed [] []
  | keep {name : String} {a b : List String} (h : Trimmed a b) : Trimmed (name :: a) (name :: b)
  | drop {name : String} {a b : List String} (hstay : isStay name) (h : Trimmed a b) :
    Trimmed (name :: a) b

theorem Trimmed.append_left {a b : List String} (names : List String) (h : Trimmed a b) :
    Trimmed (names ++ a) (names ++ b) := by
  induction names with
  | nil => exact h
  | cons name names ih => exact .keep ih

theorem trimmed_filter (names : List String) : Trimmed names (names.filter (!isStay ·)) := by
  induction names with
  | nil => exact .nil
  | cons name names ih =>
    by_cases hstay : isStay name
    · rw [List.filter_cons_of_neg (by simp [hstay])]
      exact .drop hstay ih
    · rw [List.filter_cons_of_pos (by simp [hstay])]
      exact .keep ih

theorem Trimmed.isStay_of_nil {a : List String} (h : Trimmed a []) : ∀ name ∈ a, isStay name := by
  generalize hb : [] = b at h
  induction h with
  | nil => simp
  | keep => cases hb
  | drop hstay _ ih => exact List.forall_mem_cons.mpr ⟨hstay, ih hb⟩

theorem walk_of_stays {follow : Bool} {links : Nat} (hstays : ∀ name ∈ names, isStay name)
    (h : fs.walk follow links here names = .ok (.found l e)) : l = here ∧ fs.at? here = some e := by
  induction names with
  | nil =>
    have hat := at?_of_walk h
    rw [walk] at h
    split at h
    · cases h
      exact ⟨rfl, hat⟩
    · cases h
  | cons name names ih =>
    obtain ⟨hstay, hstays⟩ := List.forall_mem_cons.mp hstays
    rw [walk] at h
    split at h
    · exact ih hstays h
    split at h
    · cases h
    · exact ih hstays h

/-- A walk comes to the same file or link without the names that stay where they are. -/
theorem walk_of_trimmed {links : Nat} {a : List String} (hs : Standing fs here)
    (hfile : e.content ≠ .directory) (h : fs.walk false links here a = .ok (.found l e)) :
    ∀ b, Trimmed a b → fs.walk false links here b = .ok (.found l e) := by
  -- The induction is on the longer walk. A link that has only such names after it is the one place
  -- where the two could part: the longer walk goes through it, the shorter one ends there.
  fun_induction fs.walk false links here a with
  | case1 links here e₁ he₁ =>
    intro b hab
    cases hab
    cases h
    rw [walk, he₁]
  | case2 | case4 | case7 | case8 | case9 | case10 | case13 | case16 | case18 => cases h
  | case3 links here rest ih =>
    intro b hab
    cases hab with
    | keep hab =>
      rw [walk, if_pos rfl]
      exact ih hs h _ hab
    | drop _ hab => exact ih hs h _ hab
  | case5 links here name rest hname hsearch hstay ih =>
    intro b hab
    cases hab with
    | keep hab =>
      rw [walk, if_neg hname, if_neg hsearch, if_pos hstay]
      exact ih hs h _ hab
    | drop _ hab => exact ih hs h _ hab
  | case6 links here rest hsearch hname hstay ih =>
    intro b hab
    cases hab with
    | keep hab =>
      rw [walk, if_neg hname, if_neg hsearch, if_neg hstay, if_pos rfl]
      exact ih hs.dropLast h _ hab
    | drop hdrop => exact absurd hdrop hstay
  | case11 links here name rest hname hsearch hstay hup hlimit next e₁ he₁ hcontent ih =>
    intro b hab
    cases hab with
    | keep hab =>
      rw [walk_cons hname (by simpa using hsearch) hstay hup hlimit he₁, hcontent]
      exact ih (hs.enter he₁ hcontent) h _ hab
    | drop hdrop => exact absurd hdrop hstay
  | case14 here name rest hname hsearch hstay hup hlimit next e₁ he₁ target hcontent hlast links
      ih =>
    intro b hab
    cases hab with
    | drop hdrop => exact absurd hdrop hstay
    | @keep _ _ b hab =>
      have hstart := hs.start target
      rw [walk_cons hname (by simpa using hsearch) hstay hup hlimit he₁, hcontent]
      by_cases hb : b = []
      · -- Only names that stay come after the link, so it is a directory's.
        subst hb
        have hrest : rest ≠ [] := by simpa using hlast
        obtain ⟨k, d, links', hk, hdir, hon⟩ := exists_walk_of_append hstart hrest h
        obtain ⟨rfl, hat⟩ := walk_of_stays hab.isStay_of_nil hon
        cases hat.symm.trans (at?_of_walk hk)
        exact absurd hdir hfile
      · have hmore : ¬ (b.isEmpty && !false) = true := by simpa using hb
        simp only [if_neg hmore]
        exact ih hstart h _ (hab.append_left (steps target))
  | case12 links here name rest hname hsearch hstay hup hlimit next e₁ he₁ _ hcontent hlast
  | case15 links here name rest hname hsearch hstay hup hlimit next e₁ he₁ _ hcontent hlast
  | case17 links here name rest hname hsearch hstay hup hlimit next e₁ he₁ _ hcontent hlast =>
    intro b hab
    cases hab with
    | drop hdrop => exact absurd hdrop hstay
    | keep hab =>
      obtain rfl : rest = [] := by simpa using hlast
      cases hab
      rw [walk_cons hname (by simpa using hsearch) hstay hup hlimit he₁, hcontent, ← h]
      rfl

theorem filter_steps (p : Path) : (steps p).filter (!isStay ·) =
    ((pieces '/' p.text.toList).filterMap component?).map Component.text := by
  rw [steps]
  induction pieces '/' p.text.toList with
  | nil => rfl
  | cons piece ps ih =>
    rw [List.map_cons, List.filter_cons, List.filterMap_cons]
    fun_cases component? piece with
    | case1 | case2 => exact ih
    | case3 => rw [if_pos (by decide), ih]; rfl
    | case4 _ hempty hdot hdots =>
      have hofList : ∀ s : String, String.ofList piece = s → piece = s.toList := by
        rintro s rfl
        exact String.toList_ofList.symm
      have hstay : isStay (String.ofList piece) = false := by
        rw [isStay, Bool.or_eq_false_iff, decide_eq_false_iff_not, decide_eq_false_iff_not]
        exact ⟨fun h => hempty (hofList _ h), fun h => hdot (hofList _ h)⟩
      rw [if_pos (by rw [hstay]; rfl), ih]
      rfl

/-- Two spellings of one path, below any other, are absolute or not, and lead on by the same
names. -/
theorem join_of_same {root : Path} (h : p.Same q) :
    (root / p).isAbsolute = (root / q).isAbsolute ∧
      (steps (root / p)).filter (!isStay ·) = (steps (root / q)).filter (!isStay ·) := by
  have hpieces : (pieces '/' p.text.toList).filterMap component? =
      (pieces '/' q.text.toList).filterMap component? := by
    rw [← filter_components, ← filter_components, show p.components = q.components from h]
  have habsolute : p.isAbsolute ↔ q.isAbsolute := by
    rw [isAbsolute_iff_root_mem, isAbsolute_iff_root_mem, show p.components = q.components from h]
  by_cases hp : p.isAbsolute
  · have hq := habsolute.mp hp
    have hjoin : ∀ r : Path, r.isAbsolute → root / r = r := fun r hr => if_pos hr
    rw [hjoin p hp, hjoin q hq, filter_steps, filter_steps, hpieces, hp, hq]
    exact ⟨rfl, rfl⟩
  · have hq := habsolute.not.mp hp
    -- The pieces before are those of the root.
    have hbefore : ∀ r : Path, ¬ r.isAbsolute →
        (pieces '/' (root / r).text.toList).filterMap component? =
          (pieces '/' root.text.toList).filterMap component? ++
            (pieces '/' r.text.toList).filterMap component? := by
      intro r hr
      obtain ⟨ps, hps, hjoin⟩ := exists_pieces_join (p := root) hr
      rw [hjoin, List.filterMap_append]
      rcases hps with hps | hps
      · rw [hps]
      · rw [hps, List.filterMap_append]
        simp [component?]
    rw [isAbsolute_join hp, isAbsolute_join hq, filter_steps, filter_steps, hbefore p hp,
      hbefore q hq, hpieces]
    exact ⟨rfl, rfl⟩

theorem location_eq_of_same {root : Path} (hs : Standing fs cwd) (h : p.Same q)
    (hp : fs.resolve cwd false (root / p) = .ok (.found l e)) (hfile : e.content ≠ .directory)
    (hq : fs.resolve cwd false (root / q) = .ok (.found k d)) (hother : d.content ≠ .directory) :
    l = k := by
  obtain ⟨habsolute, hnames⟩ := @join_of_same p q root h
  have hstart := hs.start (root / q)
  have hp' := walk_of_resolve hp
  rw [habsolute] at hp'
  have hfound := walk_of_trimmed hstart hfile hp' _ (trimmed_filter _)
  have hfound' := walk_of_trimmed hstart hother (walk_of_resolve hq) _ (trimmed_filter _)
  rw [hnames, hfound'] at hfound
  exact (Place.found.inj (Except.ok.inj hfound)).1.symm

/-! ## Files and links that paths name -/

/-- The path names a regular file or a link, which is here. -/
def Occupied (fs : FileSystem) (cwd : Location) (p : Path) (l : Location) : Prop :=
  ∃ e, fs.resolve cwd false p = .ok (.found l e) ∧ (e.isFile ∨ ∃ target, e.content = .link target)

/-- A path leads to a regular file, or names a link. -/
theorem exists_occupied_iff :
    (∃ l, fs.Occupied cwd p l) ↔ fs.isFile cwd p ∨ fs.isLink cwd p := by
  constructor
  · rintro ⟨l, e, he, hfile | hlink⟩
    · have hnone : ¬ fs.isLink cwd p := by
        rw [isLink_iff]
        rintro ⟨l', e', target, he', hcontent⟩
        cases he.symm.trans he'
        simp [FileEntry.isFile, hcontent] at hfile
      rw [resolve_of_not_isLink hnone] at he
      exact .inl (isFile_iff_lookup.mpr ⟨l, e, lookup_eq_ok_iff.mpr he, hfile⟩)
    · obtain ⟨target, hcontent⟩ := hlink
      exact .inr (isLink_iff.mpr ⟨l, e, target, he, hcontent⟩)
  · intro h
    by_cases hlink : fs.isLink cwd p
    · obtain ⟨l, e, target, he, hcontent⟩ := isLink_iff.mp hlink
      exact ⟨l, e, he, .inr ⟨target, hcontent⟩⟩
    · obtain ⟨l, e, he, hfile⟩ := isFile_iff_lookup.mp (h.resolve_right hlink)
      exact ⟨l, e, (resolve_of_not_isLink hlink).trans (lookup_eq_ok_iff.mp he), .inl hfile⟩

theorem Occupied.unique (h : fs.Occupied cwd p l) (h' : fs.Occupied cwd p k) : l = k := by
  obtain ⟨e, he, -⟩ := h
  obtain ⟨e', he', -⟩ := h'
  exact (Place.found.inj (Except.ok.inj (he.symm.trans he'))).1

theorem Occupied.exists_at? (h : fs.Occupied cwd p l) :
    ∃ e, fs.at? l = some e ∧ e.content ≠ .directory := by
  obtain ⟨e, he, hkind⟩ := h
  refine ⟨e, at?_of_resolve he, fun hdir => ?_⟩
  rcases hkind with hfile | ⟨target, hlink⟩
  · simp [FileEntry.isFile, hdir] at hfile
  · cases hdir.symm.trans hlink

theorem Occupied.of_thinned (ht : Thinned gone fs fs') (hs : Standing fs cwd)
    (h : fs'.Occupied cwd p l) : fs.Occupied cwd p l := by
  obtain ⟨e', he', hkind⟩ := h
  obtain ⟨e, he, hat⟩ := resolve_of_thinned ht hs he'
  obtain ⟨d, hd, t, rfl⟩ := ht.exists_at? (at?_of_resolve he')
  cases hat.symm.trans hd
  exact ⟨e, he, hkind⟩

/-- What a path names it still names if that has been kept, with the links on the way. -/
theorem Occupied.of_kept (ht : Thinned gone fs fs') (hs : Standing fs cwd)
    (h : fs.Occupied cwd p l) (hl : (fs'.at? l).isSome)
    (hway : ∀ k ∈ fs.linksTo cwd p, (fs'.at? k).isSome) : fs'.Occupied cwd p l := by
  obtain ⟨e, he, hkind⟩ := h
  obtain ⟨e', he'⟩ := resolve_of_kept ht hs he hl hway
  obtain ⟨d, hd, t, rfl⟩ := ht.exists_at? (at?_of_resolve he')
  cases (at?_of_resolve he).symm.trans hd
  exact ⟨_, he', hkind⟩

/-- Two spellings of one path do not name two files or links. -/
theorem Occupied.eq_of_same {root : Path} (hs : Standing fs cwd) (hsame : p.Same q)
    (h : fs.Occupied cwd (root / p) l) (h' : fs.Occupied cwd (root / q) k) : l = k := by
  obtain ⟨e, hat, hfile⟩ := h.exists_at?
  obtain ⟨d, hat', hother⟩ := h'.exists_at?
  obtain ⟨e₁, he, -⟩ := h
  obtain ⟨d₁, hd, -⟩ := h'
  cases hat.symm.trans (at?_of_resolve he)
  cases hat'.symm.trans (at?_of_resolve hd)
  exact location_eq_of_same hs hsame he hfile hd hother

theorem Occupied.of_removeFile (h : fs.Occupied cwd p l) (hs : Standing fs cwd)
    (hremove : fs.removeFile cwd p = .ok fs') :
    fs'.at? l = none ∧ Spares (· = l) fs fs' ∧ Thinned (· = l) fs fs' := by
  obtain ⟨e, he, -⟩ := h
  obtain ⟨l', e', he', hnone, hspares, hthinned, -⟩ := removeFile_spec hs hremove
  cases he.symm.trans he'
  exact ⟨hnone, hspares, hthinned⟩

theorem Standing.of_thinned (hs : Standing fs here) (ht : Thinned gone fs fs') :
    Standing fs' here := by
  intro k hk
  obtain ⟨e, he, hdir⟩ := hs k hk
  obtain ⟨t, ht⟩ := (ht.kept k e he).resolve_right fun hgone => hgone.2.1 hdir
  exact ⟨_, ht, hdir⟩

end FileSystem

end ModularBuild
