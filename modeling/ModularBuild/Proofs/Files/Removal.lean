import Mathlib.Data.List.TakeWhile
import ModularBuild.Files.Task
import ModularBuild.Proofs.Path.Normalize
import ModularBuild.Proofs.SortedMap

/-!
# What a removal leaves

Removing a file takes out the one entry that its path names and stamps the directory the entry was
in; `Thinned` says so of any number of removals. A walk that finds something after removals would
have found it before (`walk_of_thinned`): a removal may end a path's walk, but it never leads it to
another file. So whatever a run of removals takes out was named, from the start, by a path that the
run was given. The path of a file that has been removed leads to nothing (`lookup?_of_removeFile`).
Where no entry is a link, the names of a path alone say what it names (`lexical`), and a walk goes
down them one by one (`walk_eq_descend`).
-/

namespace ModularBuild

namespace FileSystem

variable {gone gone' : Location → Prop} {fs fs' fs'' : FileSystem} {l k here cwd : Location}
  {e e' : FileEntry} {p : Path}

/-- What is left is as it was, its time apart; what is not was no directory and is meant to be gone;
and nothing has been added. -/
structure Thinned (gone : Location → Prop) (fs fs' : FileSystem) : Prop where
  kept : ∀ l e, fs.at? l = some e → (∃ t, fs'.at? l = some { e with modified := t }) ∨
    fs'.at? l = none ∧ e.content ≠ .directory ∧ gone l
  absent : ∀ l, fs.at? l = none → fs'.at? l = none

theorem Thinned.refl : Thinned gone fs fs where
  kept _ e h := .inl ⟨e.modified, h⟩
  absent _ h := h

theorem Thinned.mono (h : Thinned gone fs fs') (hgone : ∀ l, gone l → gone' l) :
    Thinned gone' fs fs' where
  kept l e he := (h.kept l e he).imp_right fun ⟨hnone, hfile, hl⟩ => ⟨hnone, hfile, hgone l hl⟩
  absent := h.absent

theorem Thinned.trans (h : Thinned gone fs fs') (h' : Thinned gone fs' fs'') :
    Thinned gone fs fs'' where
  kept l e he := by
    rcases h.kept l e he with ⟨t, ht⟩ | ⟨hnone, hfile, hl⟩
    · rcases h'.kept l _ ht with hkept | ⟨hnone, hfile, hl⟩
      · exact .inl hkept
      · exact .inr ⟨hnone, hfile, hl⟩
    · exact .inr ⟨h'.absent l hnone, hfile, hl⟩
  absent l he := h'.absent l (h.absent l he)

theorem Thinned.exists_at? (h : Thinned gone fs fs') (he : fs'.at? l = some e') :
    ∃ e, fs.at? l = some e ∧ ∃ t, e' = { e with modified := t } := by
  cases hl : fs.at? l with
  | none =>
    rw [h.absent l hl] at he
    cases he
  | some e =>
    rcases h.kept l e hl with ⟨t, ht⟩ | ⟨hnone, -⟩
    · rw [ht] at he
      exact ⟨e, rfl, t, (Option.some.inj he).symm⟩
    · rw [hnone] at he
      cases he

/-! ## One removal -/

theorem at?_of_ne_nil (h : l ≠ []) : fs.at? l = fs.entries.find? l := by
  cases l with
  | nil => exact absurd rfl h
  | cons name l => rfl

theorem at?_set (hk : k ≠ []) :
    (fs.set l e).at? k = if k = l then some e else fs.at? k := by
  rw [at?_of_ne_nil hk, at?_of_ne_nil hk, set, SortedMap.find?_insert_eq_ite]

theorem thinned_stamp : Thinned gone fs (fs.stamp l) := by
  unfold stamp
  cases hl : fs.entries.find? l with
  | none => exact .refl
  | some d =>
    refine ⟨fun k e he => .inl ?_, fun k hk => ?_⟩
    · by_cases hnil : k = []
      · subst hnil
        exact ⟨e.modified, he⟩
      · rw [at?_set hnil]
        by_cases hkl : k = l
        · subst hkl
          rw [at?_of_ne_nil hnil, hl] at he
          cases he
          exact ⟨fs.clock, if_pos rfl⟩
        · exact ⟨e.modified, by rw [if_neg hkl, he]⟩
    · by_cases hnil : k = []
      · subst hnil
        cases hk
      · rw [at?_set hnil, if_neg, hk]
        rintro rfl
        rw [at?_of_ne_nil hnil, hl] at hk
        cases hk

theorem thinned_delete (he : fs.at? l = some e) (hfile : e.content ≠ .directory) :
    Thinned (· = l) fs (fs.delete l) := by
  have herase : ∀ k, k ≠ [] → ({ fs.tick with entries := fs.entries.erase l } : FileSystem).at? k =
      if k = l then none else fs.at? k := fun k hk => by
    rw [at?_of_ne_nil hk, at?_of_ne_nil hk, SortedMap.find?_erase_eq_ite]
  have hthinned : Thinned (· = l) fs { fs.tick with entries := fs.entries.erase l } := by
    refine ⟨fun k d hd => ?_, fun k hk => ?_⟩
    · by_cases hnil : k = []
      · subst hnil
        exact .inl ⟨d.modified, hd⟩
      · rw [herase k hnil]
        by_cases hkl : k = l
        · subst hkl
          cases he.symm.trans hd
          exact .inr ⟨if_pos rfl, hfile, rfl⟩
        · exact .inl ⟨d.modified, by rw [if_neg hkl, hd]⟩
    · by_cases hnil : k = []
      · subst hnil
        cases hk
      · rw [herase k hnil, hk, ite_self]
  exact hthinned.trans thinned_stamp

theorem at?_delete_self (hl : l ≠ []) : (fs.delete l).at? l = none := by
  have herase : ({ fs.tick with entries := fs.entries.erase l } : FileSystem).at? l = none := by
    rw [at?_of_ne_nil hl, SortedMap.find?_erase_eq_ite, if_pos rfl]
  exact (@thinned_stamp (· = l) _ _).absent l herase

/-! ## Walks after removals -/

/-- A directory all of whose parents are directories. -/
def Standing (fs : FileSystem) (here : Location) : Prop :=
  ∀ k, k <+: here → ∃ e, fs.at? k = some e ∧ e.content = .directory

theorem standing_nil : Standing fs [] := fun k hk => by
  rw [List.prefix_nil.mp hk]
  exact ⟨rootEntry, rfl, rfl⟩

theorem Standing.dropLast (h : Standing fs here) : Standing fs here.dropLast := fun k hk =>
  h k (hk.trans (List.dropLast_prefix here))

theorem Standing.enter (h : Standing fs here) {name : String}
    (he : fs.at? (here ++ [name]) = some e) (hdir : e.content = .directory) :
    Standing fs (here ++ [name]) := fun k hk => by
  rcases List.prefix_concat_iff.mp hk with rfl | hk
  · exact ⟨e, he, hdir⟩
  · exact h k hk

theorem Standing.maySearch_eq (h : Standing fs here) (ht : Thinned gone fs fs') :
    fs'.maySearch here = fs.maySearch here := by
  obtain ⟨e, he, hdir⟩ := h here (List.prefix_refl here)
  rcases ht.kept here e he with ⟨t, ht⟩ | ⟨-, hfile, -⟩
  · simp only [maySearch, ht, he, Option.all_some]
    rfl
  · exact absurd hdir hfile

theorem Standing.start (h : Standing fs cwd) (p : Path) :
    Standing fs (if p.isAbsolute then [] else cwd) := by
  split
  · exact standing_nil
  · exact h

/-- How a walk goes on from a name that is there. -/
theorem walk_cons {follow : Bool} {links : Nat} {name : String} {rest : List String}
    (hname : name ≠ "") (hsearch : fs.maySearch here) (hstay : ¬ isStay name) (hup : name ≠ "..")
    (hlimit : ¬ nameLimit < name.utf8ByteSize) (he : fs.at? (here ++ [name]) = some e) :
    fs.walk follow links here (name :: rest) =
      match e.content with
      | .directory => fs.walk follow links (here ++ [name]) rest
      | .link target =>
        if rest.isEmpty && !follow then .ok (.found (here ++ [name]) e)
        else match links with
          | 0 => .error .tooManyLinks
          | links + 1 =>
            fs.walk follow links (if target.isAbsolute then [] else here) (steps target ++ rest)
      | .file _ | .device _ =>
        if rest.isEmpty then .ok (.found (here ++ [name]) e) else .error .notDirectory := by
  rw [walk, if_neg hname, if_neg (by simp [hsearch]), if_neg hstay, if_neg hup, if_neg hlimit]
  cases hcontent : e.content <;> cases links <;> simp only [he, hcontent]

/-- A walk that finds an entry after removals finds it before. -/
theorem walk_of_thinned (ht : Thinned gone fs fs') {follow : Bool} {links : Nat}
    {names : List String} (hs : Standing fs here)
    (h : fs'.walk follow links here names = .ok (.found l e')) :
    ∃ e, fs.walk follow links here names = .ok (.found l e) ∧ fs.at? l = some e := by
  -- Every entry that the walk meets was there before, with the same content.
  have hmay : ∀ {here : Location}, Standing fs here → ¬ (!fs'.maySearch here) = true →
      fs.maySearch here := fun hs hsearch => by
    rw [← hs.maySearch_eq ht]
    simpa using hsearch
  fun_induction fs'.walk follow links here names with
  | case1 links here e₁ he₁ =>
    cases h
    obtain ⟨e, he, -⟩ := ht.exists_at? he₁
    exact ⟨e, by rw [walk, he], he⟩
  | case2 | case4 | case7 | case8 | case9 | case10 => cases h
  | case3 links here rest ih =>
    rw [walk]
    exact ih hs h
  | case5 links here name rest hname hsearch hstay ih =>
    rw [hs.maySearch_eq ht] at hsearch
    rw [walk, if_neg hname, if_neg hsearch, if_pos hstay]
    exact ih hs h
  | case6 links here rest hsearch hname hstay ih =>
    rw [hs.maySearch_eq ht] at hsearch
    rw [walk, if_neg hname, if_neg hsearch, if_neg hstay, if_pos rfl]
    exact ih hs.dropLast h
  | case11 links here name rest hname hsearch hstay hup hlimit k e₁ he₁ hcontent ih =>
    obtain ⟨e, he, t, rfl⟩ := ht.exists_at? he₁
    rw [walk_cons hname (hmay hs hsearch) hstay hup hlimit he, show e.content = _ from hcontent]
    exact ih (hs.enter he hcontent) h
  | case14 here name rest hname hsearch hstay hup hlimit k e₁ he₁ target hcontent hlast links ih =>
    obtain ⟨e, he, t, rfl⟩ := ht.exists_at? he₁
    rw [walk_cons hname (hmay hs hsearch) hstay hup hlimit he, show e.content = _ from hcontent]
    simp only [if_neg hlast]
    exact ih (hs.start target) h
  | case12 links here name rest hname hsearch hstay hup hlimit k e₁ he₁ _ hcontent hlast
  | case15 links here name rest hname hsearch hstay hup hlimit k e₁ he₁ _ hcontent hlast
  | case17 links here name rest hname hsearch hstay hup hlimit k e₁ he₁ _ hcontent hlast =>
    have hl : here ++ [name] = l := (Place.found.inj (Except.ok.inj h)).1
    subst hl
    obtain ⟨e, he, t, rfl⟩ := ht.exists_at? he₁
    rw [walk_cons hname (hmay hs hsearch) hstay hup hlimit he, show e.content = _ from hcontent]
    exact ⟨e, if_pos hlast, he⟩
  | case13 | case16 | case18 => cases h

/-- A walk does not end at a name that is not there. -/
theorem walk_of_absent {follow : Bool} {links : Nat} {name : String} {rest : List String}
    (hname : name ≠ "") (hstay : ¬ isStay name) (hup : name ≠ "..")
    (habsent : fs.at? (here ++ [name]) = none) :
    fs.walk follow links here (name :: rest) ≠ .ok (.found l e) := by
  intro h
  rw [walk, if_neg hname, if_neg hstay, if_neg hup] at h
  simp only [habsent] at h
  repeat' split at h
  all_goals cases h

/-- A walk that found an entry finds nothing once the entry has gone, even if it now follows a link
at its end. -/
theorem walk_of_gone (ht : Thinned gone fs fs') (habsent : fs'.at? l = none) {links : Nat}
    {names : List String} (h : fs.walk false links here names = .ok (.found l e)) :
    fs'.walk true links here names ≠ .ok (.found k e') := by
  have hmay : ∀ {here : Location} {name : String} {rest : List String} {links : Nat},
      fs'.walk true links here (name :: rest) = .ok (.found k e') → name ≠ "" →
        fs'.maySearch here := by
    intro here name rest links hfound hname
    by_contra hsearch
    rw [walk, if_neg hname, if_pos (by simpa using hsearch)] at hfound
    cases hfound
  intro hfound
  fun_induction fs.walk false links here names with
  | case1 links here e₁ he₁ =>
    obtain ⟨rfl, -⟩ := Place.found.inj (Except.ok.inj h)
    rw [walk, habsent] at hfound
    cases hfound
  | case2 | case4 | case7 | case8 | case9 | case10 | case13 | case16 | case18 => cases h
  | case3 links here rest ih =>
    rw [walk, if_pos rfl] at hfound
    exact ih h hfound
  | case5 links here name rest hname hsearch hstay ih =>
    have hsearch' := hmay hfound hname
    rw [walk, if_neg hname, if_neg (by simp [hsearch']), if_pos hstay] at hfound
    exact ih h hfound
  | case6 links here rest hsearch hname hstay ih =>
    have hsearch' := hmay hfound hname
    rw [walk, if_neg hname, if_neg (by simp [hsearch']), if_neg hstay, if_pos rfl] at hfound
    exact ih h hfound
  | case11 links here name rest hname hsearch hstay hup hlimit next e₁ he₁ hcontent ih =>
    rcases ht.kept _ _ he₁ with ⟨t, he₁'⟩ | ⟨hnone, -⟩
    · rw [walk_cons hname (hmay hfound hname) hstay hup hlimit he₁',
        show e₁.content = _ from hcontent] at hfound
      exact ih h hfound
    · exact walk_of_absent hname hstay hup hnone hfound
  | case14 here name rest hname hsearch hstay hup hlimit next e₁ he₁ target hcontent hlast links ih =>
    rcases ht.kept _ _ he₁ with ⟨t, he₁'⟩ | ⟨hnone, -⟩
    · rw [walk_cons hname (hmay hfound hname) hstay hup hlimit he₁',
        show e₁.content = _ from hcontent] at hfound
      simp only [Bool.not_true, Bool.and_false, Bool.false_eq_true, ↓reduceIte] at hfound
      exact ih h hfound
    · exact walk_of_absent hname hstay hup hnone hfound
  | case12 links here name rest hname hsearch hstay hup hlimit next e₁ he₁ _ hcontent hlast
  | case15 links here name rest hname hsearch hstay hup hlimit next e₁ he₁ _ hcontent hlast
  | case17 links here name rest hname hsearch hstay hup hlimit next e₁ he₁ _ hcontent hlast =>
    -- The walk ended here, at the entry that has gone.
    obtain ⟨rfl, -⟩ := Place.found.inj (Except.ok.inj h)
    exact walk_of_absent hname hstay hup habsent hfound

/-- A path that leads anywhere is followed, on all file systems, by the walk along its steps. -/
theorem resolve_eq_walk {follow : Bool} {place : Place} (h : fs.resolve cwd follow p = .ok place)
    (fs' : FileSystem) (follow' : Bool) : fs'.resolve cwd follow' p =
      fs'.walk follow' linkLimit (if p.isAbsolute then [] else cwd) (steps p) := by
  unfold resolve at h ⊢
  split at h
  · cases h
  split at h
  · cases h
  split at h
  · cases h
  rw [if_neg ‹_›, if_neg ‹_›, if_neg ‹_›]

theorem walk_of_resolve {follow : Bool} {place : Place} (h : fs.resolve cwd follow p = .ok place) :
    fs.walk follow linkLimit (if p.isAbsolute then [] else cwd) (steps p) = .ok place :=
  (resolve_eq_walk h fs follow).symm.trans h

theorem resolve_of_thinned (ht : Thinned gone fs fs') (hs : Standing fs cwd) {follow : Bool}
    (h : fs'.resolve cwd follow p = .ok (.found l e')) :
    ∃ e, fs.resolve cwd follow p = .ok (.found l e) ∧ fs.at? l = some e := by
  rw [resolve_eq_walk h fs]
  exact walk_of_thinned ht (hs.start p) (walk_of_resolve h)

theorem resolveEntry_of_thinned (ht : Thinned gone fs fs') (hs : Standing fs cwd)
    (h : fs'.resolveEntry cwd p = .ok (.found l e')) :
    ∃ e, fs.resolveEntry cwd p = .ok (.found l e) ∧ fs.at? l = some e := by
  unfold resolveEntry at h ⊢
  dsimp only at h ⊢
  generalize (p.text.toList.reverse.dropWhile (· = '/')).reverse = trimmed at h ⊢
  by_cases hempty : trimmed.isEmpty
  · rw [if_pos hempty] at h ⊢
    exact resolve_of_thinned ht hs h
  · rw [if_neg hempty] at h ⊢
    cases hplace : fs'.resolve cwd false ⟨String.ofList trimmed⟩ with
    | error err => rw [hplace] at h; cases h
    | ok place =>
      rw [hplace] at h
      cases place with
      | vacant => cases h
      | found =>
        cases h
        obtain ⟨e, he, hat⟩ := resolve_of_thinned ht hs hplace
        exact ⟨e, by rw [he]; rfl, hat⟩

/-! ## Ends of walks -/

/-- Where a walk has come to. -/
def Place.location : Place → Location
  | found l _ | vacant l _ => l

def Place.entry? : Place → Option FileEntry
  | found _ e => some e
  | vacant _ _ => none

theorem at?_of_walk {follow : Bool} {links : Nat} {names : List String} {place : Place}
    (h : fs.walk follow links here names = .ok place) : fs.at? place.location = place.entry? := by
  fun_induction fs.walk follow links here names with
  | case1 links here e he =>
    cases h
    exact he
  | case2 | case4 | case7 | case10 | case13 | case16 | case18 => cases h
  | case3 links here rest ih | case5 links here name rest hname hsearch hstay ih
  | case6 links here rest hsearch hname hstay ih
  | case11 links here name rest hname hsearch hstay hup hlimit k e he hcontent ih
  | case14 here name rest hname hsearch hstay hup hlimit k e he target hcontent hlast links ih =>
    exact ih h
  | case8 links here name rest hname hsearch hstay hup hlimit k hnone
  | case9 links here name rest hname hsearch hstay hup hlimit k hnone =>
    cases h
    exact hnone
  | case12 links here name rest hname hsearch hstay hup hlimit k e he
  | case15 links here name rest hname hsearch hstay hup hlimit k e he
  | case17 links here name rest hname hsearch hstay hup hlimit k e he =>
    cases h
    exact he

theorem at?_of_resolve {follow : Bool} {place : Place}
    (h : fs.resolve cwd follow p = .ok place) : fs.at? place.location = place.entry? :=
  at?_of_walk (walk_of_resolve h)

theorem at?_of_resolveEntry {place : Place} (h : fs.resolveEntry cwd p = .ok place) :
    fs.at? place.location = place.entry? := by
  unfold resolveEntry at h
  dsimp only at h
  generalize (p.text.toList.reverse.dropWhile (· = '/')).reverse = trimmed at h
  by_cases hempty : trimmed.isEmpty
  · rw [if_pos hempty] at h
    exact at?_of_resolve h
  · rw [if_neg hempty] at h
    cases hplace : fs.resolve cwd false ⟨String.ofList trimmed⟩ with
    | error err => rw [hplace] at h; cases h
    | ok trimmedPlace =>
      rw [hplace] at h
      have hat := at?_of_resolve hplace
      cases trimmedPlace with
      | vacant | found =>
        cases h
        exact hat

/-! ## Runs of removals -/

end FileSystem

namespace FileTask

theorem exec_bind {α β : Type} (task : FileTask α) (k : α → FileTask β) (fs : FileSystem) :
    (task >>= k).exec fs = match task.exec fs with
      | (.ok a, fs') => (k a).exec fs'
      | (.error e, fs') => (.error e, fs') := by
  show ExceptT.bindCont k (task fs).1 (task fs).2 = match task fs with
    | (.ok a, fs') => (k a).exec fs'
    | (.error e, fs') => (.error e, fs')
  obtain ⟨_ | _, fs'⟩ := task fs <;> rfl

theorem exec_change (f : FileSystem → Except FileError FileSystem) (fs : FileSystem) :
    (change f).exec fs = match f fs with
      | .ok fs' => (.ok (), fs')
      | .error e => (.error e, fs) := by
  show (match f fs with
    | .ok fs' => (MonadStateOf.set fs' : FileTask Unit)
    | .error e => throw e) fs = _
  cases f fs <;> rfl

theorem exec_removeIfExists (cwd : Location) (p : Path) (fs : FileSystem) :
    (removeIfExists cwd p).exec fs =
      if fs.isFile cwd p || fs.isLink cwd p then
        match fs.removeFile cwd p with
        | .ok fs' => (.ok true, fs')
        | .error e => (.error e, fs)
      else (.ok false, fs) := by
  show (if _ then (change (·.removeFile cwd p) >>= fun _ => pure true) else pure false :
    FileTask Bool).exec fs = _
  split
  · rw [exec_bind, exec_change]
    cases fs.removeFile cwd p <;> rfl
  · rfl

end FileTask

namespace FileSystem

variable {gone gone' : Location → Prop} {fs fs' fs'' : FileSystem} {l k here cwd : Location}
  {e e' : FileEntry} {p : Path}

/-- The path names the entry at this location. -/
def Names (fs : FileSystem) (cwd : Location) (p : Path) (l : Location) : Prop :=
  ∃ e, fs.resolveEntry cwd p = .ok (.found l e)

theorem removeFile_eq_ok (h : fs.removeFile cwd p = .ok fs') :
    ∃ l e, fs.resolveEntry cwd p = .ok (.found l e) ∧ e.content ≠ .directory ∧ ¬ endsInSlash p ∧
      fs' = fs.delete l := by
  unfold removeFile at h
  cases hplace : fs.resolveEntry cwd p with
  | error err => rw [hplace] at h; cases h
  | ok place =>
    rw [hplace] at h
    cases place with
    | vacant => cases h
    | found l e =>
      replace h : (if e.content = .directory then .error .isDirectory
        else if endsInSlash p then .error .notDirectory else fs.deleteAt l) = .ok fs' := h
      split at h
      · cases h
      rename_i hfile
      split at h
      · cases h
      rename_i hslash
      unfold deleteAt at h
      split at h
      · exact ⟨l, e, rfl, hfile, hslash, (Except.ok.inj h).symm⟩
      · cases h

/-- A removal, whether it fails or not, takes out nothing but what its path names. -/
theorem thinned_removeIfExists (fs : FileSystem) (cwd : Location) (p : Path) :
    Thinned (Names fs cwd p) fs ((FileTask.removeIfExists cwd p).exec fs).2 := by
  rw [FileTask.exec_removeIfExists]
  split
  · cases hremove : fs.removeFile cwd p with
    | error err => exact .refl
    | ok fs' =>
      obtain ⟨l, e, hplace, hfile, -, rfl⟩ := removeFile_eq_ok hremove
      exact (thinned_delete (at?_of_resolveEntry hplace) hfile).mono fun k hk => hk ▸ ⟨e, hplace⟩
  · exact .refl

/-- Of a run of removals, too, every path takes out only what it named at the start. -/
theorem Thinned.removeIfExists (h : Thinned gone fs fs') (hs : Standing fs cwd)
    (hgone : ∀ l, Names fs cwd p l → gone l) :
    Thinned gone fs ((FileTask.removeIfExists cwd p).exec fs').2 := by
  refine h.trans ((thinned_removeIfExists fs' cwd p).mono fun l hl => hgone l ?_)
  obtain ⟨e', he'⟩ := hl
  obtain ⟨e, he, -⟩ := resolveEntry_of_thinned h hs he'
  exact ⟨e, he⟩

/-! ## The path of a file that has been removed -/

/-- A path without slashes at its end names what it leads to, a link at its end not followed. -/
theorem resolveEntry_eq_resolve (hslash : ¬ endsInSlash p) :
    fs.resolveEntry cwd p = (fs.resolve cwd false p).map fun place =>
      match place with
      | .vacant l _ => .vacant l false
      | .found l e => .found l e := by
  have htrimmed : p.text.toList.reverse.dropWhile (· = '/') = p.text.toList.reverse := by
    rw [List.dropWhile_eq_self_iff]
    intro hlen hfirst
    refine hslash ?_
    rw [endsInSlash, decide_eq_true_eq, ← List.head?_reverse, List.head?_eq_getElem?,
      List.getElem?_eq_getElem hlen, of_decide_eq_true hfirst]
  unfold resolveEntry
  dsimp only
  rw [htrimmed, List.reverse_reverse, String.ofList_toList]
  have hend : endsInSlash p = false := by simpa using hslash
  split
  · -- Nothing is left of the path, which then leads nowhere.
    rename_i hempty
    rw [List.isEmpty_iff, String.toList_eq_nil_iff] at hempty
    rw [resolve, if_pos (by rw [Path.isEmpty, hempty]; rfl)]
    rfl
  · rw [hend]
    cases fs.resolve cwd false p with
    | error err => rfl
    | ok place => cases place <;> rfl

theorem resolve_of_resolveEntry (hslash : ¬ endsInSlash p)
    (h : fs.resolveEntry cwd p = .ok (.found l e)) :
    fs.resolve cwd false p = .ok (.found l e) := by
  rw [resolveEntry_eq_resolve hslash] at h
  cases hplace : fs.resolve cwd false p with
  | error err => rw [hplace] at h; cases h
  | ok place =>
    rw [hplace] at h
    cases place with
    | vacant => cases h
    | found => exact h

theorem lookup?_eq_none (h : ∀ l e, fs.resolve cwd true p ≠ .ok (.found l e)) :
    fs.lookup? cwd p = none := by
  unfold lookup? lookup
  cases hplace : fs.resolve cwd true p with
  | error err => rfl
  | ok place =>
    cases place with
    | vacant => rfl
    | found l e => exact absurd hplace (h l e)

/-- The path of a file that has been removed leads to nothing. -/
theorem lookup?_of_removeFile (h : fs.removeFile cwd p = .ok fs') : fs'.lookup? cwd p = none := by
  obtain ⟨l, e, hplace, hfile, hslash, rfl⟩ := removeFile_eq_ok h
  have hat := at?_of_resolveEntry hplace
  have habsent : (fs.delete l).at? l = none := by
    refine at?_delete_self ?_
    rintro rfl
    cases hat
    exact hfile rfl
  have hfound := resolve_of_resolveEntry hslash hplace
  refine lookup?_eq_none fun k e' hafter => ?_
  exact walk_of_gone (thinned_delete hat hfile) habsent (walk_of_resolve hfound)
    (walk_of_resolve hafter)

theorem isFile_iff_lookup? : fs.isFile cwd p ↔ ∃ e, fs.lookup? cwd p = some e ∧ e.isFile := by
  unfold isFile
  cases hlookup : fs.lookup? cwd p with
  | none => simp
  | some e =>
    obtain ⟨content, mode, modified, own, twin⟩ := e
    cases content <;> simp [FileEntry.isFile]

/-- What a path still leads to after a removal that has reported no failure is neither a regular file
nor a link, and nothing has changed. -/
theorem kept_of_removeIfExists {there : Bool}
    (h : ((FileTask.removeIfExists cwd p).exec fs).1 = .ok there)
    (he : ((FileTask.removeIfExists cwd p).exec fs).2.lookup? cwd p = some e) :
    ((FileTask.removeIfExists cwd p).exec fs).2 = fs ∧ ¬ fs.isFile cwd p ∧ ¬ fs.isLink cwd p := by
  rw [FileTask.exec_removeIfExists] at h he ⊢
  by_cases hthere : fs.isFile cwd p || fs.isLink cwd p
  · rw [if_pos hthere] at h he
    cases hremove : fs.removeFile cwd p with
    | error err => rw [hremove] at h; cases h
    | ok fs' =>
      rw [hremove, lookup?_of_removeFile hremove] at he
      cases he
  · rw [if_neg hthere]
    rw [Bool.or_eq_true, not_or] at hthere
    exact ⟨rfl, hthere⟩

/-! ## Where a path leads without links -/

def LinkFree (fs : FileSystem) : Prop :=
  ∀ l e, fs.at? l = some e → ∀ target, e.content ≠ .link target

theorem linkFree_of_entries
    (h : ∀ entry ∈ fs.entries.entries, entry.2.content = .directory ∨ entry.2.isFile) :
    LinkFree fs := by
  intro l e he target hlink
  by_cases hnil : l = []
  · subst hnil
    cases he
    cases hlink
  · rw [at?_of_ne_nil hnil] at he
    rcases h (l, e) (SortedMap.mem_entries_iff.mpr he) with hdir | hfile
    · cases hdir.symm.trans hlink
    · simp [FileEntry.isFile, hlink] at hfile

/-- Where a name leads that is no link. -/
def enter (here : Location) (name : String) : Location :=
  if isStay name then here else if name = ".." then here.dropLast else here ++ [name]

/-- Where a path leads if nothing is a link. -/
def lexical (cwd : Location) (p : Path) : Location :=
  (steps p).foldl enter (if p.isAbsolute then [] else cwd)

theorem foldl_enter_of_blank {names : List String} (h : ∀ name ∈ names, name = "") :
    names.foldl enter here = here := by
  induction names with
  | nil => rfl
  | cons name names ih =>
    obtain ⟨rfl, hnames⟩ := List.forall_mem_cons.mp h
    exact ih hnames

theorem location_of_walk (hfree : LinkFree fs) {follow : Bool} {links : Nat} {names : List String}
    {place : Place} (h : fs.walk follow links here names = .ok place) :
    place.location = names.foldl enter here := by
  fun_induction fs.walk follow links here names with
  | case1 links here e₁ he₁ =>
    cases h
    rfl
  | case2 | case4 | case7 | case10 => cases h
  | case3 links here rest ih =>
    exact ih h
  | case5 links here name rest hname hsearch hstay ih =>
    rw [List.foldl_cons, enter, if_pos hstay]
    exact ih h
  | case6 links here rest hsearch hname hstay ih =>
    exact ih h
  | case8 links here name rest hname hsearch hstay hup hlimit k he₁ hlast =>
    obtain rfl : rest = [] := List.isEmpty_iff.mp hlast
    rw [← Except.ok.inj h, List.foldl_cons, enter, if_neg hstay, if_neg hup]
    rfl
  | case9 links here name rest hname hsearch hstay hup hlimit k he₁ hlast hblank =>
    have hrest : ∀ name ∈ rest, name = "" := by simpa using hblank
    rw [← Except.ok.inj h, List.foldl_cons, enter, if_neg hstay, if_neg hup,
      foldl_enter_of_blank hrest]
    rfl
  | case11 links here name rest hname hsearch hstay hup hlimit k e₁ he₁ hcontent ih =>
    rw [List.foldl_cons, enter, if_neg hstay, if_neg hup]
    exact ih h
  | case12 links here name rest hname hsearch hstay hup hlimit k e₁ he₁ target hcontent hlast
  | case14 here name rest hname hsearch hstay hup hlimit k e₁ he₁ target hcontent hlast links ih =>
    exact absurd hcontent (hfree k e₁ he₁ target)
  | case15 links here name rest hname hsearch hstay hup hlimit k e₁ he₁ _ hcontent hlast
  | case17 links here name rest hname hsearch hstay hup hlimit k e₁ he₁ _ hcontent hlast =>
    obtain rfl : rest = [] := List.isEmpty_iff.mp hlast
    rw [← Except.ok.inj h, List.foldl_cons, enter, if_neg hstay, if_neg hup]
    rfl
  | case13 | case16 | case18 => cases h

theorem location_of_resolve (hfree : LinkFree fs) {follow : Bool} {place : Place}
    (h : fs.resolve cwd follow p = .ok place) : place.location = lexical cwd p :=
  location_of_walk hfree (walk_of_resolve h)

theorem lexical_append_slashes {cs slashes : List Char} (hne : cs ≠ [])
    (h : ∀ c ∈ slashes, c = '/') :
    lexical cwd ⟨String.ofList (cs ++ slashes)⟩ = lexical cwd ⟨String.ofList cs⟩ := by
  have habsolute : Path.isAbsolute ⟨String.ofList (cs ++ slashes)⟩ =
      Path.isAbsolute ⟨String.ofList cs⟩ := by
    obtain ⟨c, cs, rfl⟩ := List.exists_cons_of_ne_nil hne
    simp [Path.isAbsolute]
  simp only [lexical, steps, habsolute, String.toList_ofList, pieces_append_separators h,
    List.map_append, List.map_replicate, List.foldl_append]
  exact foldl_enter_of_blank fun name hname => List.eq_of_mem_replicate hname

theorem exists_slashes (cs : List Char) : ∃ slashes,
    cs = (cs.reverse.dropWhile (· = '/')).reverse ++ slashes ∧ ∀ c ∈ slashes, c = '/' := by
  refine ⟨(cs.reverse.takeWhile (· = '/')).reverse, ?_, fun c hc => ?_⟩
  · rw [← List.reverse_append, List.takeWhile_append_dropWhile, List.reverse_reverse]
  · have hslash := List.mem_takeWhile_imp (List.mem_reverse.mp hc)
    simpa using hslash

/-- Without links a path leads to one place only, and slashes at its end do not matter. -/
theorem location_of_resolveEntry (hfree : LinkFree fs) {place : Place}
    (h : fs.resolveEntry cwd p = .ok place) : place.location = lexical cwd p := by
  unfold resolveEntry at h
  dsimp only at h
  obtain ⟨slashes, hsplit, hslashes⟩ := exists_slashes p.text.toList
  generalize (p.text.toList.reverse.dropWhile (· = '/')).reverse = trimmed at h hsplit
  by_cases hempty : trimmed.isEmpty
  · rw [if_pos hempty] at h
    exact location_of_resolve hfree h
  · rw [if_neg hempty] at h
    have hp : p = ⟨String.ofList (trimmed ++ slashes)⟩ := by
      rw [← hsplit, String.ofList_toList]
    rw [hp, lexical_append_slashes (fun e => hempty (by simp [e])) hslashes]
    cases hplace : fs.resolve cwd false ⟨String.ofList trimmed⟩ with
    | error err => rw [hplace] at h; cases h
    | ok trimmedPlace =>
      rw [hplace] at h
      have hlocation := location_of_resolve hfree hplace
      cases trimmedPlace with
      | vacant | found =>
        cases h
        exact hlocation

theorem Names.eq_lexical (hfree : LinkFree fs) (h : Names fs cwd p l) : l = lexical cwd p := by
  obtain ⟨e, h⟩ := h
  exact location_of_resolveEntry hfree h

/-- Without links, what no path of a run of removals leads to stays. -/
theorem Thinned.at?_of_lexical {ps : List Path}
    (h : Thinned (fun l => ∃ p ∈ ps, Names fs cwd p l) fs fs') (hfree : LinkFree fs)
    (he : fs.at? l = some e) (hother : ∀ p ∈ ps, lexical cwd p ≠ l) :
    ∃ t, fs'.at? l = some { e with modified := t } := by
  refine (h.kept l e he).resolve_right ?_
  rintro ⟨-, -, p, hp, hnamed⟩
  exact hother p hp (hnamed.eq_lexical hfree).symm

/-! ## Walks without links

Where nothing is a link, a walk goes down the names of its path one by one, so what a path leads to
on a given file system can be computed. -/

/-- Where names lead from a directory, all links being taken for files. -/
def descend (fs : FileSystem) (here : Location) : List String → Except FileError Place
  | [] =>
    match fs.at? here with
    | some e => .ok (.found here e)
    | none => .error .noEntry
  | name :: rest =>
    if name = "" then fs.descend here rest
    else if !fs.maySearch here then .error .permission
    else if isStay name then fs.descend here rest
    else if name = ".." then fs.descend here.dropLast rest
    else if nameLimit < name.utf8ByteSize then .error .nameTooLong
    else
      match fs.at? (here ++ [name]) with
      | none =>
        if rest.isEmpty then .ok (.vacant (here ++ [name]) false)
        else if rest.all (· = "") then .ok (.vacant (here ++ [name]) true)
        else .error .noEntry
      | some e =>
        if e.content = .directory then fs.descend (here ++ [name]) rest
        else if rest.isEmpty then .ok (.found (here ++ [name]) e)
        else .error .notDirectory

theorem walk_eq_descend (hfree : LinkFree fs) (follow : Bool) (links : Nat) (here : Location)
    (names : List String) : fs.walk follow links here names = fs.descend here names := by
  induction names generalizing here with
  | nil =>
    unfold walk descend
    rfl
  | cons name rest ih =>
    rw [walk, descend]
    simp only [ih]
    cases he : fs.at? (here ++ [name]) with
    | none => rfl
    | some e =>
      obtain ⟨content, mode, modified, own, twin⟩ := e
      cases content with
      | directory | file bytes | device d => rfl
      | link target => exact absurd rfl (hfree _ _ he target)

theorem resolve_eq_descend (hfree : LinkFree fs) (cwd : Location) (follow : Bool) (p : Path) :
    fs.resolve cwd follow p =
      if p.isEmpty then .error .noEntry
      else if p.text.toList.contains '\x00' then .error .nulInPath
      else if pathLimit < p.text.utf8ByteSize then .error .nameTooLong
      else fs.descend (if p.isAbsolute then [] else cwd) (steps p) := by
  rw [resolve, walk_eq_descend hfree]

end FileSystem

end ModularBuild
