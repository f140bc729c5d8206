import ModularBuild.Proofs.Build.Freshness
import ModularBuild.Proofs.Build.Presence
import ModularBuild.Proofs.Files.Contents

/-!
# A workshop

A project of generated files on disk, whose programs read files of the project and write one. A
directory that holds nothing but files of the user (`Workroom`) stays one under every write and every
removal of a file in it, and these do to it what their names say (`Changes`). A program that follows
a `Recipe` therefore makes of a workroom what the recipe says, which is all that is asked of the tools
of a build (`Supplied.orderly`).
-/

namespace ModularBuild

namespace FileSystem

variable {fs fs' : FileSystem} {cwd dir l k : Location} {name : String} {p q : Path} {e : FileEntry}
  {bytes : List UInt8} {t : Time}

/-! ## Plain paths -/

/-- An absolute path that names a location in the plainest way. -/
def Leads (p : Path) (l : Location) : Prop :=
  p.isAbsolute ∧ ¬ p.isEmpty ∧ ¬ p.text.toList.contains '\x00' ∧ p.text.utf8ByteSize ≤ pathLimit ∧
    ¬ endsInSlash p ∧ steps p = "" :: l ∧
      ∀ name ∈ l, ¬ isStay name ∧ name ≠ ".." ∧ name.utf8ByteSize ≤ nameLimit

instance : Decidable (Leads p l) := by unfold Leads; infer_instance

theorem descend_append {names rest : List String}
    (hnames : ∀ name ∈ names, ¬ isStay name ∧ name ≠ ".." ∧ name.utf8ByteSize ≤ nameLimit)
    (hopen : ∀ k, k <+: l ++ names → ∃ e, fs.at? k = some e ∧ e.content = .directory ∧ e.mayExecute) :
    fs.descend l (names ++ rest) = fs.descend (l ++ names) rest := by
  induction names generalizing l with
  | nil => rw [List.nil_append, List.append_nil]
  | cons name names ih =>
    obtain ⟨⟨hstay, hup, hlimit⟩, hnames⟩ := List.forall_mem_cons.mp hnames
    obtain ⟨here, hhere, -, hsearch⟩ := hopen l (List.prefix_append _ _)
    have hsplit : l ++ name :: names = (l ++ [name]) ++ names := by simp
    obtain ⟨there, hthere, hdir, -⟩ := hopen (l ++ [name]) (hsplit ▸ List.prefix_append _ _)
    have hblank : name ≠ "" := fun hblank => hstay (by simp [isStay, hblank])
    have hmay : fs.maySearch l := by rw [maySearch, hhere]; exact hsearch
    rw [List.cons_append, descend, if_neg hblank, if_neg (by simp [hmay]), if_neg hstay, if_neg hup,
      if_neg (Nat.not_lt.mpr hlimit), hthere]
    simp only [hdir, ↓reduceIte]
    rw [ih hnames (hsplit ▸ hopen), hsplit]

/-! ## Workrooms -/

def plainFile (bytes : List UInt8) (t : Time) : FileEntry := ⟨.file bytes, fileMode, t, true, none⟩

theorem mayRead_plainFile : (plainFile bytes t).mayRead :=
  decide_eq_true (show fileMode / 64 % 8 &&& 4 ≠ 0 by decide)

theorem mayWrite_plainFile : (plainFile bytes t).mayWrite :=
  decide_eq_true (show fileMode / 64 % 8 &&& 2 ≠ 0 by decide)

theorem overwrite_plainFile (fs : FileSystem) (l : Location) (old bytes : List UInt8) (t : Time) :
    fs.overwrite l (plainFile old t) bytes = fs.tick.set l (plainFile bytes fs.tick.clock) := by
  have hmode : writtenMode fileMode = fileMode := by decide
  simp only [overwrite, replace, plainFile, hmode]

/-- A directory that the user may change and that holds nothing but plain files, on a disk without
links. Nothing is from the future. -/
structure Workroom (fs : FileSystem) (dir : Location) : Prop where
  linkFree : LinkFree fs
  above : ∀ k, k <+: dir → ∃ e, fs.at? k = some e ∧ e.content = .directory ∧ e.mayExecute
  changeable : fs.mayChange dir
  plain : ∀ name e, fs.at? (dir ++ [name]) = some e → ∃ bytes t, e = plainFile bytes t
  past : ∀ l e, fs.at? l = some e → e.modified ≤ fs.clock

theorem workroom_of_entries
    (habove : ∀ k ∈ dir.inits, ((fs.at? k).any fun e => e.content = .directory && e.mayExecute) = true)
    (hchange : fs.mayChange dir)
    (h : ∀ entry ∈ fs.entries.entries,
      (entry.2.content = .directory ∨ entry.2.isFile) ∧ entry.2.modified ≤ fs.clock ∧
        (entry.1.dropLast = dir →
          entry.2 = plainFile (entry.2.bytes?.getD []) entry.2.modified)) : Workroom fs dir := by
  have hentry : ∀ l e, l ≠ [] → fs.at? l = some e → (l, e) ∈ fs.entries.entries :=
    fun l e hl he => SortedMap.mem_entries_iff.mpr (at?_of_ne_nil hl ▸ he)
  refine ⟨linkFree_of_entries fun entry hmem => (h entry hmem).1, fun k hk => ?_, hchange,
    fun name e he => ?_, fun l e he => ?_⟩
  · have hopen := habove k ((List.mem_inits _ _).mpr hk)
    cases he : fs.at? k with
    | none => rw [he] at hopen; cases hopen
    | some e =>
      rw [he, Option.any_some, Bool.and_eq_true, decide_eq_true_eq] at hopen
      exact ⟨e, rfl, hopen⟩
  · have hplain := (h _ (hentry _ e (by simp) he)).2.2 List.dropLast_concat
    exact ⟨_, _, hplain⟩
  · by_cases hl : l = []
    · subst hl
      cases he
      exact Nat.zero_le _
    · exact (h _ (hentry l e hl he)).2.1

/-- One file has got new content or has been removed, which shows in the time of its directory. -/
structure Changes (fs : FileSystem) (l : Location) (bytes? : Option (List UInt8))
    (fs' : FileSystem) : Prop where
  file : fs'.at? l = bytes?.map (plainFile · fs'.clock)
  others : ∀ k, k ≠ l → fs'.at? k = fs.at? k ∨
    k = l.dropLast ∧ ∃ e, fs.at? k = some e ∧ fs'.at? k = some { e with modified := fs'.clock }
  clock : fs'.clock = fs.clock + 1

theorem Changes.at?_eq {bytes? : Option (List UInt8)} (h : Changes fs l bytes? fs') (hk : k ≠ l)
    (hdir : k ≠ l.dropLast) : fs'.at? k = fs.at? k :=
  (h.others k hk).resolve_right fun hk => hdir hk.1

/-- What is there beside the file is the same but for times. -/
theorem Changes.exists_at? {bytes? : Option (List UInt8)} (h : Changes fs l bytes? fs') (hk : k ≠ l)
    (he : fs.at? k = some e) : ∃ t, fs'.at? k = some { e with modified := t } ∧
      (t = e.modified ∨ t = fs'.clock) := by
  rcases h.others k hk with hsame | ⟨-, d, hd, hstamped⟩
  · exact ⟨e.modified, hsame.trans he, .inl rfl⟩
  · obtain rfl := Option.some.inj (hd.symm.trans he)
    exact ⟨fs'.clock, hstamped, .inr rfl⟩

theorem Workroom.changes (h : Workroom fs dir) {bytes? : Option (List UInt8)}
    (hchange : Changes fs (dir ++ [name]) bytes? fs') : Workroom fs' dir := by
  have hout : ∀ k, k <+: dir → k ≠ dir ++ [name] := by
    rintro k hk rfl
    simpa using hk.length_le
  have hbefore : ∀ k e', k ≠ dir ++ [name] → fs'.at? k = some e' →
      ∃ e, fs.at? k = some e ∧ e'.content = e.content ∧
        (e'.modified = e.modified ∨ e'.modified = fs'.clock) := fun k e' hk he' => by
    rcases hchange.others k hk with hsame | ⟨-, d, hd, hstamped⟩
    · exact ⟨e', hsame.symm.trans he', rfl, .inl rfl⟩
    · obtain rfl := Option.some.inj (hstamped.symm.trans he')
      exact ⟨d, hd, rfl, .inr rfl⟩
  have hfile : ∀ e', fs'.at? (dir ++ [name]) = some e' → ∃ bytes, e' = plainFile bytes fs'.clock :=
    fun e' he' => by
      obtain ⟨bytes, -, rfl⟩ := Option.map_eq_some_iff.mp (hchange.file.symm.trans he')
      exact ⟨bytes, rfl⟩
  refine ⟨fun k e' he' target hlink => ?_, fun k hk => ?_, ?_, fun other e' he' => ?_,
    fun k e' he' => ?_⟩
  · by_cases hk : k = dir ++ [name]
    · obtain ⟨bytes, rfl⟩ := hfile e' (hk ▸ he')
      cases hlink
    · obtain ⟨e, he, hcontent, -⟩ := hbefore k e' hk he'
      exact h.linkFree k e he target (hcontent ▸ hlink)
  · obtain ⟨e, he, hdir, hsearch⟩ := h.above k hk
    obtain ⟨t, he', -⟩ := hchange.exists_at? (hout k hk) he
    exact ⟨_, he', hdir, hsearch⟩
  · obtain ⟨e, he, -⟩ := h.above dir (List.prefix_refl _)
    obtain ⟨t, he', -⟩ := hchange.exists_at? (hout dir (List.prefix_refl _)) he
    have hmay := h.changeable
    rw [mayChange, he] at hmay
    rw [mayChange, he']
    exact hmay
  · by_cases hother : other = name
    · obtain ⟨bytes, rfl⟩ := hfile e' (hother ▸ he')
      exact ⟨bytes, _, rfl⟩
    · have hne : dir ++ [other] ≠ dir ++ [name] := by simpa using hother
      rw [hchange.at?_eq hne (by simp)] at he'
      exact h.plain other e' he'
  · by_cases hk : k = dir ++ [name]
    · obtain ⟨bytes, rfl⟩ := hfile e' (hk ▸ he')
      exact le_rfl
    · obtain ⟨e, he, -, htime | htime⟩ := hbefore k e' hk he'
      · rw [htime, hchange.clock]
        exact (h.past k e he).trans (Nat.le_succ _)
      · exact htime.le

/-! ## Where paths lead in a workroom -/

section Paths

variable (h : Workroom fs dir)

include h

theorem Workroom.resolve_eq (hp : Leads p l) (cwd : Location) (follow : Bool) :
    fs.resolve cwd follow p = fs.descend [] l := by
  obtain ⟨habs, hempty, hnul, hlimit, -, hsteps, -⟩ := hp
  rw [resolve_eq_descend h.linkFree, if_neg hempty, if_neg hnul, if_neg (Nat.not_lt.mpr hlimit),
    if_pos habs, hsteps]
  rfl

theorem Workroom.resolve_file (hp : Leads p (dir ++ [name])) (cwd : Location) (follow : Bool) :
    fs.resolve cwd follow p = .ok (match fs.at? (dir ++ [name]) with
      | some e => .found (dir ++ [name]) e
      | none => .vacant (dir ++ [name]) false) := by
  have hnames := hp.2.2.2.2.2.2
  have hdescend := @descend_append fs [] dir [name]
    (fun n hn => hnames n (List.mem_append_left _ hn)) h.above
  rw [h.resolve_eq hp, hdescend]
  obtain ⟨hstay, hup, hlimit⟩ := hnames name (by simp)
  have hblank : name ≠ "" := fun hblank => hstay (by simp [isStay, hblank])
  obtain ⟨d, hd, -, hsearch⟩ := h.above dir (List.prefix_refl _)
  have hmay : fs.maySearch dir := by rw [maySearch, hd]; exact hsearch
  rw [List.nil_append, descend, if_neg hblank, if_neg (by simp [hmay]), if_neg hstay, if_neg hup,
    if_neg (Nat.not_lt.mpr hlimit)]
  cases he : fs.at? (dir ++ [name]) with
  | none => rfl
  | some e =>
    obtain ⟨bytes, t, rfl⟩ := h.plain name e he
    rfl

theorem Workroom.lookup?_file (hp : Leads p (dir ++ [name])) (cwd : Location) :
    fs.lookup? cwd p = fs.at? (dir ++ [name]) := by
  rw [lookup?, lookup, h.resolve_file hp]
  cases fs.at? (dir ++ [name]) <;> rfl

theorem Workroom.pathExists_dir (hp : Leads p dir) (cwd : Location) : fs.pathExists cwd p := by
  obtain ⟨d, hd, -⟩ := h.above dir (List.prefix_refl _)
  have hnames := hp.2.2.2.2.2.2
  have hdescend := @descend_append fs [] dir [] hnames h.above
  rw [List.append_nil, List.nil_append] at hdescend
  rw [pathExists, lookup?, lookup, h.resolve_eq hp, hdescend, descend, hd]
  rfl

theorem Workroom.read_eq (hp : Leads p (dir ++ [name])) (cwd : Location) :
    (fs.read cwd p).toOption = (fs.at? (dir ++ [name])).bind FileEntry.bytes? := by
  rw [read, lookup, h.resolve_file hp]
  cases he : fs.at? (dir ++ [name]) with
  | none => rfl
  | some e =>
    obtain ⟨bytes, t, rfl⟩ := h.plain name e he
    simp only [bind, Except.bind, pure, Except.pure, mayRead_plainFile]
    rfl

end Paths

/-! ## Changes of a workroom -/

theorem at?_stamp (hl : l ≠ []) : (fs.stamp l).at? k =
    if k = l then (fs.at? k).map fun e => { e with modified := fs.clock } else fs.at? k := by
  unfold stamp
  cases he : fs.entries.find? l with
  | none =>
    by_cases hk : k = l
    · rw [if_pos hk, hk, at?_of_ne_nil hl, he]
      rfl
    · rw [if_neg hk]
  | some e =>
    by_cases hk : k = l
    · rw [if_pos hk, hk, at?_set hl, if_pos rfl, at?_of_ne_nil hl, he]
      rfl
    · rw [if_neg hk]
      by_cases hnil : k = []
      · subst hnil
        rfl
      · rw [at?_set hnil, if_neg hk]

theorem clock_stamp : (fs.stamp l).clock = fs.clock := by
  unfold stamp
  cases fs.entries.find? l <;> rfl

/-- What is done to one name of a directory, the directory being stamped in the end. -/
theorem Workroom.changes_stamp (h : Workroom fs dir) (hne : dir ≠ []) {fs₁ : FileSystem}
    {bytes? : Option (List UInt8)}
    (hfile : fs₁.at? (dir ++ [name]) = bytes?.map (plainFile · fs₁.clock))
    (hothers : ∀ k, k ≠ dir ++ [name] → fs₁.at? k = fs.at? k) (hclock : fs₁.clock = fs.clock + 1) :
    Changes fs (dir ++ [name]) bytes? (fs₁.stamp dir) := by
  refine ⟨?_, fun k hk => ?_, clock_stamp.trans hclock⟩
  · rw [at?_stamp hne, if_neg (by simp), hfile, clock_stamp]
  · rw [at?_stamp hne, hothers k hk, List.dropLast_concat, clock_stamp]
    by_cases hkdir : k = dir
    · right
      obtain ⟨d, hd, -⟩ := h.above dir (List.prefix_refl _)
      rw [if_pos hkdir, hkdir, hd]
      exact ⟨rfl, d, rfl, rfl⟩
    · left
      rw [if_neg hkdir]

theorem at?_congr (h : k ≠ [] → fs'.entries.find? k = fs.entries.find? k) :
    fs'.at? k = fs.at? k := by
  by_cases hroot : k = []
  · rw [hroot]
    rfl
  · rw [at?_of_ne_nil hroot, at?_of_ne_nil hroot, h hroot]

theorem Workroom.write (h : Workroom fs dir) (hne : dir ≠ []) (hp : Leads p (dir ++ [name]))
    (cwd : Location) (bytes : List UInt8) : ∃ fs', fs.write cwd p bytes = .ok fs' ∧
      Changes fs (dir ++ [name]) (some bytes) fs' := by
  have hnil : dir ++ [name] ≠ [] := by simp
  unfold FileSystem.write
  rw [h.resolve_file hp]
  cases he : fs.at? (dir ++ [name]) with
  | none =>
    refine ⟨fs.create (dir ++ [name]) (.file bytes) fileMode, ?_, ?_⟩
    · show fs.createAt _ _ _ = _
      rw [createAt, List.dropLast_concat, if_pos h.changeable]
    · unfold create
      rw [List.dropLast_concat]
      refine h.changes_stamp hne ?_ (fun k hk => at?_congr fun _ => ?_) rfl
      · rw [at?_set hnil, if_pos rfl]
        rfl
      · rw [FileSystem.set, SortedMap.find?_insert_eq_ite, if_neg hk]
        rfl
  | some e =>
    obtain ⟨old, t, rfl⟩ := h.plain name e he
    refine ⟨fs.overwrite (dir ++ [name]) (plainFile old t) bytes, ?_, ?_⟩
    · simp only [bind, Except.bind, pure, Except.pure, mayWrite_plainFile]
      rfl
    · rw [overwrite_plainFile]
      refine ⟨?_, fun k hk => .inl (at?_congr fun _ => ?_), rfl⟩
      · rw [at?_set hnil, if_pos rfl]
        rfl
      · rw [FileSystem.set, SortedMap.find?_insert_eq_ite, if_neg hk]
        rfl

theorem Workroom.removeFile (h : Workroom fs dir) (hp : Leads p (dir ++ [name])) (cwd : Location)
    (he : fs.at? (dir ++ [name]) = some e) :
    fs.removeFile cwd p = .ok (fs.delete (dir ++ [name])) := by
  obtain ⟨old, t, rfl⟩ := h.plain name e he
  have hslash := hp.2.2.2.2.1
  rw [FileSystem.removeFile, resolveEntry_eq_resolve hslash, h.resolve_file hp, he]
  have hfile : (plainFile old t).content ≠ .directory := nofun
  simp only [Except.map, bind, Except.bind, hfile, hslash, ↓reduceIte]
  rw [deleteAt, List.dropLast_concat, if_pos h.changeable]
  rfl

theorem Workroom.removeIfExists (h : Workroom fs dir) (hne : dir ≠ [])
    (hp : Leads p (dir ++ [name])) (cwd : Location) :
    ∃ there fs', (FileTask.removeIfExists cwd p).exec fs = (.ok there, fs') ∧
      (fs' = fs ∧ fs.at? (dir ++ [name]) = none ∨ Changes fs (dir ++ [name]) none fs') := by
  have hlookup := h.lookup?_file hp cwd
  rw [FileTask.exec_removeIfExists]
  cases he : fs.at? (dir ++ [name]) with
  | none =>
    have hlink : fs.isLink cwd p = false := by
      rw [isLink, lookupLink, h.resolve_file hp, he]
      rfl
    rw [isFile, hlookup, he, hlink]
    exact ⟨_, fs, rfl, .inl ⟨rfl, rfl⟩⟩
  | some e =>
    have hremove := h.removeFile hp cwd he
    obtain ⟨old, t, rfl⟩ := h.plain name e he
    rw [isFile, hlookup, he, hremove]
    refine ⟨_, _, rfl, .inr ?_⟩
    unfold delete
    rw [List.dropLast_concat]
    refine h.changes_stamp hne ?_ (fun k hk => at?_congr fun _ => ?_) rfl
    · rw [at?_of_ne_nil (by simp)]
      exact SortedMap.find?_erase_eq_ite .. |>.trans (if_pos rfl)
    · exact SortedMap.find?_erase_eq_ite .. |>.trans (if_neg hk)

end FileSystem

/-- The bytes of a file. -/
def Content.bytes? : Content → Option (List UInt8)
  | .file bytes => some bytes
  | .directory | .link _ | .device _ => none

/-! ## Programs that follow recipes -/

/-- What a program reads and writes, by paths of the project, and what it makes of what it has read.
If it fails it leaves a part of its file. -/
structure Recipe where
  reads : List Path
  writes : Path
  make : List (List UInt8) → Except (List UInt8) (List UInt8)

/-- How a program follows its recipe. It says nothing. -/
def Recipe.follow (r : Recipe) (site : BuildSite) (files : FileSystem) :
    Except FileError ProcessOutput × FileSystem :=
  let failed : ProcessOutput := ⟨.code 1, [], []⟩
  match r.reads.mapM fun p => (files.read [] (site.locate p)).toOption with
  | none => (.ok failed, files)
  | some contents =>
    let (output, bytes) : ProcessOutput × List UInt8 := match r.make contents with
      | .ok bytes => (⟨.code 0, [], []⟩, bytes)
      | .error bytes => (failed, bytes)
    match files.write [] (site.locate r.writes) bytes with
    | .ok files => (.ok output, files)
    | .error _ => (.ok failed, files)

/-- A host whose programs follow the recipes of their names. -/
def recipeHost (site : BuildSite) (recipes : String → Option Recipe) : Host where
  cwd := []
  env := ∅
  spawn i files :=
    match recipes i.program.text with
    | some r => r.follow site files
    | none => (.error .noEntry, files)

namespace BuildSite

open FileSystem ArtifactGraph

variable {site : BuildSite} {h : Host} {g : ArtifactGraph} {recipes : String → Option Recipe}
  {dir : Location} {n m : NodeId} {node : Node} {p q : Path} {w w' t t' : World} {name : String}

/-- The files of a site that has this world: their times and contents. -/
def look (site : BuildSite) (h : Host) (w : World) : Snapshot Content := fun p =>
  (w.files.lookup? h.cwd (site.locate p)).map fun e => (e.modified, e.content)

theorem modified?_eq_look (site : BuildSite) (h : Host) (p : Path) (w : World) :
    (site.workbench h).modified? p w = (site.look h w p).map (·.1) := by
  rw [look, Option.map_map]
  rfl

theorem exists_run_runIn (artifact : String) {c : Command} {place : Path} {output : ProcessOutput}
    {files : FileSystem}
    (hspawn : h.spawn { c with cwd := some place } t.files = (.ok output, files)) :
    ∃ t', t'.files = files ∧ (runIn h artifact c place).run t =
      (if output.status.success then .ok ()
        else .error (.actionFailed artifact c.display output.toolOutput), t') := by
  unfold runIn
  have hlog : (liftM (World.log .debug s!"running `{c.display}`") : Work Unit).run t =
      (.ok (), (World.log .debug s!"running `{c.display}`" t).2) := rfl
  have hrun : ∀ u, (liftM (World.spawn h { c with cwd := some place }) : Work _).run u =
      (.ok (World.spawn h { c with cwd := some place } u).1,
        (World.spawn h { c with cwd := some place } u).2) := fun _ => rfl
  have hfiles : (World.log .debug s!"running `{c.display}`" t).2.files = t.files := rfl
  rw [run_bind_of_ok hlog, run_bind_of_ok (hrun _), World.spawn, hfiles, hspawn]
  dsimp only
  split <;> exact ⟨_, rfl, rfl⟩

theorem exists_perform_generate {program : String} {args : List String} {place : Path}
    (haction : node.action = .generate (program :: args) place)
    (hdir : ∀ d, FileTask.directoryOf? (site.locate p) = some d → t.files.pathExists h.cwd d)
    {output : ProcessOutput} {files : FileSystem}
    (hspawn : h.spawn { (⟨⟨program⟩, args⟩ : Command) with cwd := some (site.locate place) } t.files =
      (.ok output, files)) :
    ∃ t', t'.files = files ∧ (site.workbench h).perform node p t =
      (if output.status.success then
          if files.pathExists h.cwd (site.locate p) then .ok ()
          else .error (.actionFailed node.displayName (Command.mk ⟨program⟩ args).display
            "command succeeded but did not create the file")
        else .error (.actionFailed node.displayName (Command.mk ⟨program⟩ args).display
          output.toolOutput), t') := by
  obtain ⟨es, hperform⟩ := exists_perform_eq site h node p
  let told : World := { t with events := es ++ t.events }
  have hparent : (Operation.ensureParent h (site.locate p)).run told = (.ok (), told) :=
    run_ensureParent hdir
  rw [hperform, act, run_bind_of_ok (run_prepare hparent), haction]
  obtain ⟨t', hfiles, hrun⟩ := exists_run_runIn (t := told) node.displayName hspawn
  refine ⟨t', hfiles, ?_⟩
  unfold generate
  by_cases hsuccess : output.status.success
  · rw [if_pos hsuccess] at hrun ⊢
    have hget : (MonadState.get : Work World).run t' = (.ok t', t') := rfl
    rw [run_bind_of_ok hrun, run_bind_of_ok hget, hfiles]
    split <;> rfl
  · rw [if_neg hsuccess] at hrun ⊢
    rw [run_bind_of_error hrun]

/-! ## Workshops -/

/-- What the recipe of an action makes of what the node needs, if all of this is there and it does
not fail. -/
def product? (recipes : String → Option Recipe) (action : Action)
    (inputs : List (Path × Option Content)) : Option (List UInt8) :=
  match action with
  | .generate (program :: _) _ => do
    let r ← recipes program
    let contents ← inputs.mapM fun input => input.2.bind Content.bytes?
    (r.make contents).toOption
  | _ => none

/-- How an action fails whose program says nothing. -/
def failure (node : Node) : BuildError :=
  .actionFailed node.displayName
    (match node.action with
      | .generate command _ => " ".intercalate command
      | _ => "") ""

/-- Everything a graph is about lies in one directory, and every output has a recipe, which reads
what its node needs. -/
structure Supplied (site : BuildSite) (g : ArtifactGraph) (recipes : String → Option Recipe)
    (dir : Location) : Prop where
  below : dir ≠ []
  within : ∀ n p, (g.node n).path = some p → ∃ name, Leads (site.locate p) (dir ++ [name])
  apart : ∀ n m p q l, (g.node n).path = some p → (g.node m).path = some q →
    Leads (site.locate p) l → Leads (site.locate q) l → p.Same q
  parent : ∀ n p d, g.Output n p → FileTask.directoryOf? (site.locate p) = some d → Leads d dir
  recipe : ∀ n p, g.Output n p → ∃ program args place make,
    (g.node n).action = .generate (program :: args) place ∧
      recipes program = some ⟨(g.dependencies n).filterMap fun d => (g.node d).path, p, make⟩

/-- Only the nodes that there are have to be looked at. -/
theorem supplied_of_size {size : Nat} (hsize : g.nodes.size = size) (hbelow : dir ≠ [])
    (hfiles : ∀ n < size, ∀ p ∈ (g.node n).path,
      Leads (site.locate p) (dir ++ [p.fileName?.getD ""]) ∧
        ∀ d ∈ FileTask.directoryOf? (site.locate p), Leads d dir)
    (hapart : ∀ n < size, ∀ m < size, ∀ p ∈ (g.node n).path, ∀ q ∈ (g.node m).path,
      steps (site.locate p) = steps (site.locate q) → p.Same q)
    (hrecipe : ∀ n p, g.Output n p → ∃ program args place make,
      (g.node n).action = .generate (program :: args) place ∧
        recipes program = some ⟨(g.dependencies n).filterMap fun d => (g.node d).path, p, make⟩) :
    site.Supplied g recipes dir := by
  subst hsize
  refine ⟨hbelow, fun n p hp => ⟨_, (hfiles n (lt_size_of_path hp) p hp).1⟩, ?_, ?_, hrecipe⟩
  · intro n m p q l hp hq hpl hql
    refine hapart n (lt_size_of_path hp) m (lt_size_of_path hq) p hp q hq ?_
    exact hpl.2.2.2.2.2.1.trans hql.2.2.2.2.2.1.symm
  · exact fun n p d hout hd => (hfiles n (lt_size_of_path hout.2) p hout.2).2 d hd

section Look

variable (hsup : site.Supplied g recipes dir) (hroom : Workroom t.files dir)

include hroom

theorem look_eq (hname : Leads (site.locate p) (dir ++ [name])) :
    site.look h t p = (t.files.at? (dir ++ [name])).map fun e => (e.modified, e.content) := by
  rw [look, hroom.lookup?_file hname]

/-- Whether a path can be read and what is read is as what is looked at. -/
theorem read_eq_look (hname : Leads (site.locate p) (dir ++ [name])) :
    (t.files.read [] (site.locate p)).toOption =
      ((site.look h t p).map (·.2)).bind Content.bytes? := by
  rw [hroom.read_eq hname, look_eq hroom hname]
  cases t.files.at? (dir ++ [name]) <;> rfl

include hsup

/-- Where one file of the directory has changed, those of all other nodes are as they were. -/
theorem Supplied.untouched (hname : Leads (site.locate p) (dir ++ [name]))
    (hp : (g.node n).path = some p) (hroom' : Workroom t'.files dir)
    {bytes? : Option (List UInt8)} (hchange : Changes t.files (dir ++ [name]) bytes? t'.files) :
    g.Untouched (site.look h t) p (site.look h t') := by
  intro m q hq hne
  obtain ⟨other, hother⟩ := hsup.within m q hq
  have hdiffer : dir ++ [other] ≠ dir ++ [name] := fun heq =>
    hne (hsup.apart n m p q _ hp hq hname (heq ▸ hother))
  rw [look_eq hroom' hother, look_eq hroom hother, hchange.at?_eq hdiffer (by simp)]

theorem Supplied.writes (hname : Leads (site.locate p) (dir ++ [name]))
    (hp : (g.node n).path = some p) {bytes : List UInt8}
    (hchange : Changes t.files (dir ++ [name]) (some bytes) t'.files) :
    g.Writes (site.look h t) p (.file bytes) (site.look h t') := by
  have hroom' := hroom.changes hchange
  refine ⟨⟨t'.files.clock, ?_, fun m q time c hq hfile => ?_⟩,
    hsup.untouched hroom hname hp hroom' hchange⟩
  · rw [look_eq hroom' hname, hchange.file]
    rfl
  · obtain ⟨other, hother⟩ := hsup.within m q hq
    rw [look_eq hroom hother] at hfile
    obtain ⟨e, he, heq⟩ := Option.map_eq_some_iff.mp hfile
    obtain ⟨rfl, -⟩ := Prod.mk.inj heq
    rw [hchange.clock]
    exact Nat.lt_succ_of_le (hroom.past _ e he)

theorem Supplied.removes (hname : Leads (site.locate p) (dir ++ [name]))
    (hp : (g.node n).path = some p)
    (hchange : t'.files = t.files ∧ t.files.at? (dir ++ [name]) = none ∨
      Changes t.files (dir ++ [name]) none t'.files) :
    Workroom t'.files dir ∧ g.Removes (site.look h t) p (site.look h t') := by
  rcases hchange with ⟨hsame, hgone⟩ | hchange
  · have hlook : ∀ q, site.look h t' q = site.look h t q := fun q => by rw [look, look, hsame]
    refine ⟨hsame ▸ hroom, ?_, fun m q _ _ => hlook q⟩
    rw [hlook, look_eq hroom hname, hgone]
    rfl
  · have hroom' := hroom.changes hchange
    refine ⟨hroom', ?_, hsup.untouched hroom hname hp hroom' hchange⟩
    rw [look_eq hroom' hname, hchange.file]
    rfl

/-- What a recipe reads is what is known of the files that its node needs. -/
theorem Supplied.mapM_reads (ds : List NodeId) :
    (ds.filterMap fun d => (g.node d).path).mapM (fun q =>
        (t.files.read [] (site.locate q)).toOption) =
      (ds.filterMap fun d => (g.node d).path.map fun q =>
        (q, g.contents (site.look h t) d)).mapM fun input => input.2.bind Content.bytes? := by
  induction ds with
  | nil => rfl
  | cons d ds ih =>
    cases hq : (g.node d).path with
    | none => simpa only [List.filterMap_cons, hq, Option.map_none] using ih
    | some q =>
      obtain ⟨name, hname⟩ := hsup.within d q hq
      simp only [List.filterMap_cons, hq, Option.map_some, List.mapM_cons, ih,
        read_eq_look (h := h) hroom hname, contents_of_path hq]

/-- How a program ends that follows its recipe, and what it leaves. -/
theorem Supplied.exists_follow (hname : Leads (site.locate p) (dir ++ [name]))
    {make : List (List UInt8) → Except (List UInt8) (List UInt8)} {product : Option (List UInt8)}
    (hproduct : product = ((g.inputs (g.contents (site.look h t)) n).mapM
      fun input : Path × Option Content => input.2.bind Content.bytes?).bind
        fun contents => (make contents).toOption) :
    ∃ files, Recipe.follow ⟨(g.dependencies n).filterMap fun d => (g.node d).path, p, make⟩ site
        t.files = (.ok ⟨.code (if product.isSome then 0 else 1), [], []⟩, files) ∧
      (files = t.files ∧ product = none ∨ ∃ bytes,
        Changes t.files (dir ++ [name]) (some bytes) files ∧ ∀ b, product = some b → b = bytes) := by
  have hreads := hsup.mapM_reads (h := h) hroom (g.dependencies n)
  subst hproduct
  unfold Recipe.follow inputs
  dsimp only
  rw [hreads]
  generalize ((g.dependencies n).filterMap fun d => (g.node d).path.map fun q =>
    (q, g.contents (site.look h t) d)).mapM (fun input : Path × Option Content =>
      input.2.bind Content.bytes?) = contents?
  cases contents? with
  | none => exact ⟨t.files, rfl, .inl ⟨rfl, rfl⟩⟩
  | some contents =>
    rw [Option.bind_some]
    cases hmake : make contents with
    | ok bytes =>
      obtain ⟨files, hwrite, hchange⟩ := hroom.write hsup.below hname [] bytes
      simp only [hmake, hwrite]
      exact ⟨files, rfl, .inr ⟨bytes, hchange, fun b hb => (Option.some.inj hb).symm⟩⟩
    | error bytes =>
      obtain ⟨files, hwrite, hchange⟩ := hroom.write hsup.below hname [] bytes
      simp only [hmake, hwrite]
      refine ⟨files, rfl, .inr ⟨bytes, hchange, fun b hb => ?_⟩⟩
      cases hb

/-- **What an action of a workshop does**: it makes what its recipe makes, or fails and leaves at most
a part of its file. -/
theorem Supplied.perform (hout : g.Output n p) (hname : Leads (site.locate p) (dir ++ [name])) :
    let h := recipeHost site recipes
    let product := product? recipes (g.node n).action (g.inputs (g.contents (site.look h t)) n)
    ∃ t', (site.workbench h).perform (g.node n) p t =
        (if product.isSome then .ok () else .error (failure (g.node n)), t') ∧
      (t'.files = t.files ∧ product = none ∨ ∃ bytes,
        Changes t.files (dir ++ [name]) (some bytes) t'.files ∧ ∀ b, product = some b → b = bytes) := by
  intro h product
  obtain ⟨program, args, place, make, haction, hrecipe⟩ := hsup.recipe n p hout
  have hdir : ∀ d, FileTask.directoryOf? (site.locate p) = some d → t.files.pathExists h.cwd d :=
    fun d hd => hroom.pathExists_dir (hsup.parent n p d hout hd) _
  have hproduct : product = ((g.inputs (g.contents (site.look h t)) n).mapM
      fun input : Path × Option Content => input.2.bind Content.bytes?).bind
        fun contents => (make contents).toOption := by
    show product? recipes (g.node n).action _ = _
    rw [haction, product?, hrecipe]
    rfl
  have hfailure : failure (g.node n) = .actionFailed (g.node n).displayName
      (Command.mk ⟨program⟩ args).display (ProcessOutput.toolOutput ⟨.code 1, [], []⟩) := by
    rw [failure, haction]
    rfl
  obtain ⟨files, hfollow, hleft⟩ := hsup.exists_follow hroom hname hproduct
  have hspawn : ∀ i : Invocation, i.program = ⟨program⟩ → h.spawn i t.files =
      (.ok ⟨.code (if product.isSome then 0 else 1), [], []⟩, files) := fun i hi => by
    show (match recipes i.program.text with
      | some r => r.follow site t.files
      | none => (.error .noEntry, t.files)) = _
    rw [hi, hrecipe]
    exact hfollow
  obtain ⟨t', hfiles, hrun⟩ := exists_perform_generate haction hdir (hspawn _ rfl)
  refine ⟨t', ?_, hfiles ▸ hleft⟩
  rw [hrun]
  cases hmade : product with
  | none =>
    rw [hfailure]
    rfl
  | some made =>
    obtain ⟨-, hnone⟩ | ⟨bytes, hchange, -⟩ := hleft
    · cases hmade.symm.trans hnone
    · have hthere : files.pathExists h.cwd (site.locate p) := by
        rw [pathExists, (hroom.changes hchange).lookup?_file hname, hchange.file]
        rfl
      rw [if_pos hthere]
      rfl

theorem Supplied.discard (hp : (g.node n).path = some p) :
    Workroom ((site.workbench (recipeHost site recipes)).discard p t).2.files dir ∧
      g.Removes (site.look (recipeHost site recipes) t) p (site.look (recipeHost site recipes)
        ((site.workbench (recipeHost site recipes)).discard p t).2) := by
  obtain ⟨name, hname⟩ := hsup.within n p hp
  obtain ⟨there, files, hexec, hchange⟩ :=
    hroom.removeIfExists hsup.below hname (recipeHost site recipes).cwd
  have hfiles : ((site.workbench (recipeHost site recipes)).discard p t).2.files = files := by
    show (site.discardOutput _ p t).2.files = files
    rw [files_discardOutput, Operation.files_removeIfExists, hexec]
  rw [← hfiles] at hchange
  exact hsup.removes hroom hname hp hchange

/-- What comes of an output: what its recipe makes, or no file. -/
theorem Supplied.performOrDiscard (hout : g.Output n p) :
    let h := recipeHost site recipes
    let product := product? recipes (g.node n).action (g.inputs (g.contents (site.look h t)) n)
    ∃ t', (site.workbench h).performOrDiscard (g.node n) p t =
        (if product.isSome then .ok .built else .error (failure (g.node n)), t') ∧
      Workroom t'.files dir ∧ g.Untouched (site.look h t) p (site.look h t') ∧
      (site.look h t' p).map (·.2) = product.map .file := by
  intro h product
  obtain ⟨name, hname⟩ := hsup.within n p hout.2
  obtain ⟨t', hperform, hchange⟩ := hsup.perform hroom hout hname
  change _ = (if product.isSome then _ else _, t') at hperform
  change _ ∧ product = none ∨ ∃ bytes, _ ∧ ∀ b, product = some b → b = bytes at hchange
  have hmiddle : Workroom t'.files dir ∧ g.Untouched (site.look h t) p (site.look h t') := by
    rcases hchange with ⟨hsame, -⟩ | ⟨bytes, hchange, -⟩
    · exact ⟨hsame ▸ hroom, fun _ q _ _ => by rw [look, look, hsame]⟩
    · have hroom' := hroom.changes hchange
      exact ⟨hroom', hsup.untouched hroom hname hout.2 hroom' hchange⟩
  cases hmade : product with
  | none =>
    rw [hmade] at hperform
    obtain ⟨hroom', hremoves⟩ := hsup.discard hmiddle.1 hout.2
    refine ⟨_, Workbench.performOrDiscard_of_error hperform, hroom',
      hmiddle.2.trans hremoves.untouched, ?_⟩
    rw [hremoves.gone]
    rfl
  | some b =>
    rw [hmade] at hperform hchange
    refine ⟨t', Workbench.performOrDiscard_of_ok hperform, hmiddle.1, hmiddle.2, ?_⟩
    rcases hchange with ⟨-, hnone⟩ | ⟨bytes, hchange, hsame⟩
    · cases hnone
    · obtain ⟨t, hfile, -⟩ := (hsup.writes (h := h) hroom hname hout.2 hchange).written
      rw [hfile, hsame b rfl]
      rfl

end Look

section Tools

variable (hsup : site.Supplied g recipes dir) (hroom : Workroom w.files dir)

include hsup hroom

/-- Whatever the tools of a workshop do, it remains one. -/
theorem Supplied.workroom_of_passes {announce : Event → StateM World Unit}
    (htell : ∀ e t, (announce e t).2.files = t.files)
    (h : (site.workbench (recipeHost site recipes)).Passes announce g w t) :
    Workroom t.files dir := by
  induction h with
  | start => exact hroom
  | told e _ ih => rwa [htell]
  | acted _ hout ih =>
    obtain ⟨t', hrun, hroom', -⟩ := hsup.performOrDiscard ih hout
    rwa [hrun]

/-- **The tools of a workshop are orderly.** -/
theorem Supplied.orderly : (site.workbench (recipeHost site recipes)).Orderly World.tell g
    (site.look (recipeHost site recipes))
    (fun action inputs => .file ((product? recipes action inputs).getD [])) w where
  modified n p t _ _ := modified?_eq_look site _ p t
  announces _ _ _ := rfl
  makes n p t t' hpassed hout hok := by
    obtain ⟨name, hname⟩ := hsup.within n p hout.2
    have hroom' := hsup.workroom_of_passes hroom (fun _ _ => rfl) hpassed
    obtain ⟨t'', hperform, hchange⟩ := hsup.perform hroom' hout hname
    obtain ⟨hresult, rfl⟩ := Prod.mk.inj (hperform.symm.trans hok)
    generalize hproduct : product? recipes (g.node n).action
      (g.inputs (g.contents (site.look (recipeHost site recipes) t)) n) = product
      at hresult hchange
    cases product with
    | none => cases hresult
    | some b =>
      rcases hchange with ⟨-, hnone⟩ | ⟨bytes, hchange, hsame⟩
      · cases hnone
      · rw [Option.getD_some, hsame b rfl]
        exact hsup.writes hroom' hname hout.2 hchange
  fails n p t e t' hpassed hout herror := by
    obtain ⟨name, hname⟩ := hsup.within n p hout.2
    have hroom' := hsup.workroom_of_passes hroom (fun _ _ => rfl) hpassed
    obtain ⟨t'', hperform, hchange⟩ := hsup.perform hroom' hout hname
    obtain ⟨-, rfl⟩ := Prod.mk.inj (hperform.symm.trans herror)
    rcases hchange with ⟨hsame, -⟩ | ⟨bytes, hchange, -⟩
    · have hlook : ∀ q, site.look (recipeHost site recipes) t'' q =
          site.look (recipeHost site recipes) t q := fun q => by rw [look, look, hsame]
      exact ⟨fun _ q _ _ => hlook q, (hsup.discard (hsame ▸ hroom') hout.2).2⟩
    · have hroom'' := hroom'.changes hchange
      exact ⟨hsup.untouched hroom' hname hout.2 hroom'' hchange,
        (hsup.discard hroom'' hout.2).2⟩

end Tools

/-! ## Runs in a workshop -/

/-- What is known of a workshop: its directory is in order, and this is what the files of its nodes
hold. -/
structure Holds (site : BuildSite) (g : ArtifactGraph) (recipes : String → Option Recipe)
    (dir : Location) (t : World) (known : NodeId → Option Content) : Prop where
  room : Workroom t.files dir
  contents : g.contents (site.look (recipeHost site recipes) t) = known

section Runs

variable {known : NodeId → Option Content}

theorem Holds.of_files (h : site.Holds g recipes dir t known) (hfiles : t'.files = t.files) :
    site.Holds g recipes dir t' known := by
  refine ⟨hfiles ▸ h.room, Eq.trans ?_ h.contents⟩
  have hlook : site.look (recipeHost site recipes) t' = site.look (recipeHost site recipes) t := by
    funext q
    rw [look, look, hfiles]
  rw [hlook]

theorem Holds.told (h : site.Holds g recipes dir t known) (events : List Event) :
    site.Holds g recipes dir (events.forM World.tell t).2 known :=
  h.of_files (show (World.tellAll events t).2.files = t.files by rw [Workspace.tellAll_eq])

theorem Holds.update (h : site.Holds g recipes dir t known) (hpaths : g.OneNodePerPath)
    (hp : (g.node n).path = some p) (hroom : Workroom t'.files dir)
    (huntouched : g.Untouched (site.look (recipeHost site recipes) t) p
      (site.look (recipeHost site recipes) t')) {content? : Option Content}
    (hcontent : (site.look (recipeHost site recipes) t' p).map (·.2) = content?) :
    site.Holds g recipes dir t' (Function.update known n content?) := by
  refine ⟨hroom, funext fun m => ?_⟩
  by_cases hm : m = n
  · rw [hm, Function.update_self, contents_of_path hp, hcontent]
  · rw [Function.update_of_ne hm, ← h.contents, ArtifactGraph.contents, ArtifactGraph.contents]
    cases hq : (g.node m).path with
    | none => rfl
    | some q =>
      have hsame := huntouched m q hq fun hsame => hm (hpaths n m p q hp hq hsame).symm
      rw [Option.bind_some, Option.bind_some, hsame]

theorem Holds.write (hsup : site.Supplied g recipes dir) (hpaths : g.OneNodePerPath)
    (h : site.Holds g recipes dir t known) (hp : (g.node n).path = some p) (bytes : List UInt8) :
    ∃ files, t.files.write [] (site.locate p) bytes = .ok files ∧
      g.Writes (site.look (recipeHost site recipes) t) p (.file bytes)
        (site.look (recipeHost site recipes) { t with files }) ∧
      site.Holds g recipes dir { t with files } (Function.update known n (some (.file bytes))) := by
  obtain ⟨name, hname⟩ := hsup.within n p hp
  obtain ⟨files, hwrite, hchange⟩ := h.room.write hsup.below hname [] bytes
  have hwrites : g.Writes (site.look (recipeHost site recipes) t) p (.file bytes)
      (site.look (recipeHost site recipes) { t with files }) :=
    hsup.writes h.room hname hp hchange
  refine ⟨files, hwrite, hwrites, h.update hpaths hp (h.room.changes hchange) hwrites.untouched ?_⟩
  obtain ⟨time, hfile, -⟩ := hwrites.written
  rw [hfile]
  rfl

/-- A file that is not there, or of which something it needs has been built, is not up to date. -/
theorem isFresh_eq_false {b : Workbench World} {built : List NodeId} {seen : World}
    (h : b.modified? p seen = none ∨ ∃ d ∈ built, g.Needs n d) :
    b.isFresh g built seen n p = false := by
  rw [Bool.eq_false_iff]
  intro hfresh
  obtain ⟨time, htime, hneeds⟩ := Workbench.isFresh_iff.mp hfresh
  rcases h with hnone | ⟨d, hd, hdn⟩
  · rw [hnone] at htime
    cases htime
  · exact (hneeds d hdn).1 hd

theorem Holds.modified?_eq_none (h : site.Holds g recipes dir t known)
    (hp : (g.node n).path = some p) (hknown : known n = none) :
    (site.workbench (recipeHost site recipes)).modified? p t = none := by
  have hcontents := congrFun h.contents n
  rw [contents_of_path hp, hknown, Option.map_eq_none_iff] at hcontents
  rw [modified?_eq_look, hcontents]
  rfl

section Tools

variable (late : NodeId → Bool) (before : Outcomes)

theorem Holds.runLevel_source (h : site.Holds g recipes dir t known)
    (hp : (g.node n).path = some p) (hsource : (g.node n).action = .source)
    (hpoison : g.poison? before n = none) (hknown : (known n).isSome) :
    ((site.workbench (recipeHost site recipes)).runner g late World.tell).runLevel g before [n] t =
      (before ++ [(n, .fresh)], t) := by
  have hcontents := congrFun h.contents n
  rw [contents_of_path hp] at hcontents
  rw [← hcontents, Option.isSome_map] at hknown
  refine Runner.runLevel_singleton (Workbench.outcomeOf_of_judged ?_)
  simp only [ite_self, Workbench.judge?, hpoison, Workbench.verdict?, hp, hsource, ↓reduceIte,
    modified?_eq_look, Option.isSome_map, hknown]
  rfl

theorem runLevel_phony {b : Workbench World} (hp : (g.node n).path = none)
    (hpoison : g.poison? before n = none) :
    (b.runner g late World.tell).runLevel g before [n] t = (before ++ [(n, .fresh)], t) := by
  refine Runner.runLevel_singleton (Workbench.outcomeOf_of_judged ?_)
  simp only [Workbench.judge?, hpoison, Workbench.verdict?, hp]
  rfl

theorem Holds.runLevel_skipped (h : site.Holds g recipes dir t known) {because : String}
    (hpoison : g.poison? before n = some because) :
    ∃ t', ((site.workbench (recipeHost site recipes)).runner g late World.tell).runLevel g before [n]
        t = (before ++ [(n, .skipped because)], t') ∧ site.Holds g recipes dir t' known :=
  ⟨_, Runner.runLevel_singleton (Runner.outcomeOf_skipped _ hpoison), h.told _⟩

variable (hsup : site.Supplied g recipes dir) (hpaths : g.OneNodePerPath)

include hsup hpaths

/-- An output that is not up to date: it comes to what its recipe makes of what is known. -/
theorem Holds.outcomeOf_output (h : site.Holds g recipes dir t known) (hout : g.Output n p)
    (hpoison : g.poison? before n = none) {start : World}
    (hstale : (site.workbench (recipeHost site recipes)).isFresh g before.built
      (if late n then t else start) n p = false) :
    let product := product? recipes (g.node n).action (g.inputs known n)
    ∃ t', ((site.workbench (recipeHost site recipes)).runner g late World.tell).outcomeOf g before
        start n t = ((n, if product.isSome then .built else .failed (failure (g.node n))), t') ∧
      site.Holds g recipes dir t' (Function.update known n (product.map .file)) := by
  intro product
  obtain ⟨t', hrun, hroom, huntouched, hcontents⟩ := hsup.performOrDiscard h.room hout
  rw [h.contents] at hrun hcontents
  change _ = (if product.isSome then _ else _, t') at hrun
  have hsource : (g.node n).action ≠ .source := fun hsource => by
    rw [ArtifactGraph.Output, hsource] at hout
    cases hout.1
  refine ⟨t', ?_, h.update hpaths hout.2 hroom huntouched hcontents⟩
  rw [Runner.outcomeOf_run _ hpoison]
  show ((n, Outcome.ofResult (Workbench.runNodeSeeing _ g n before.built _ t).1),
    (Workbench.runNodeSeeing _ g n before.built _ t).2) = _
  rw [Workbench.runNodeSeeing_of_path hout.2 hsource, hstale, if_neg Bool.false_ne_true, hrun]
  cases product <;> rfl

section Output

variable (ht : site.Holds g recipes dir t known) (hout : g.Output n p)
  (hpoison : g.poison? before n = none)
  (hstale : known n = none ∨ ∃ d ∈ before.built, g.Needs n d)

include ht hout hpoison hstale

theorem Holds.runLevel_output :
    let product := product? recipes (g.node n).action (g.inputs known n)
    ∃ t', ((site.workbench (recipeHost site recipes)).runner g late World.tell).runLevel g before [n]
        t = (before ++ [(n, if product.isSome then .built else .failed (failure (g.node n)))], t') ∧
      site.Holds g recipes dir t' (Function.update known n (product.map .file)) := by
  intro product
  obtain ⟨t', hrun, h'⟩ := ht.outcomeOf_output late before hsup hpaths hout hpoison
    (isFresh_eq_false (hstale.imp_left fun hnone => by
      rw [ite_self]
      exact ht.modified?_eq_none hout.2 hnone))
  exact ⟨_, Runner.runLevel_singleton hrun, h'.told _⟩

theorem Holds.runLevel_made {bytes : List UInt8}
    (hproduct : product? recipes (g.node n).action (g.inputs known n) = some bytes) :
    ∃ t', ((site.workbench (recipeHost site recipes)).runner g late World.tell).runLevel g before [n]
        t = (before ++ [(n, .built)], t') ∧
      site.Holds g recipes dir t' (Function.update known n (some (.file bytes))) := by
  have hlevel := ht.runLevel_output late before hsup hpaths hout hpoison hstale
  rwa [hproduct] at hlevel

theorem Holds.runLevel_failed
    (hproduct : product? recipes (g.node n).action (g.inputs known n) = none) :
    ∃ t', ((site.workbench (recipeHost site recipes)).runner g late World.tell).runLevel g before [n]
        t = (before ++ [(n, .failed (failure (g.node n)))], t') ∧
      site.Holds g recipes dir t' (Function.update known n none) := by
  have hlevel := ht.runLevel_output late before hsup hpaths hout hpoison hstale
  rwa [hproduct] at hlevel

end Output

end Tools

end Runs

/-! ## A workshop on disk -/

/-- The site of a project that lies in `/demo`. -/
def demoSite : BuildSite := .ofConfig ⟨"/demo"⟩ {} none

/-- Its module, with nothing in it. -/
def bareModule : World :=
  let directory : FileEntry := ⟨.directory, directoryMode, 0, true, none⟩
  { files := { entries := (SortedMap.insert ∅ ["demo"] directory).insert ["demo", "gen"] directory } }

theorem workroom_bareModule : Workroom bareModule.files ["demo", "gen"] :=
  workroom_of_entries (by decide) (by decide) (by decide)

theorem holds_bareModule (hsup : demoSite.Supplied g recipes ["demo", "gen"]) :
    demoSite.Holds g recipes ["demo", "gen"] bareModule fun _ => none := by
  refine ⟨workroom_bareModule, funext fun n => ?_⟩
  unfold ArtifactGraph.contents
  cases hp : (g.node n).path with
  | none => rfl
  | some p =>
    obtain ⟨name, hname⟩ := hsup.within n p hp
    have hkeys : ∀ entry ∈ bareModule.files.entries.entries, entry.1.dropLast ≠ ["demo", "gen"] := by
      decide
    have hnone : bareModule.files.at? (["demo", "gen"] ++ [name]) = none := by
      refine Option.eq_none_iff_forall_ne_some.mpr fun e he => ?_
      exact hkeys _ (SortedMap.mem_entries_iff.mpr he) rfl
    rw [Option.bind_some, look_eq workroom_bareModule hname, hnone]
    rfl

end BuildSite

end ModularBuild
