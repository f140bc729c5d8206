import Mathlib.Data.List.Induction
import ModularBuild.Proofs.Files.Removal
import ModularBuild.Toolchain.Config

/-!
# Precedence of toolchain settings

Merging is associative, so layers of configurations can be grouped at will, and a setting has the
value of the last layer that sets it. The specification asks which layer that is and does not merge
anything. The environment stands above all layers, for the three programs only.

A broken file of the user's is no layer at all; a broken file of the project's is the one way to
fail.
-/

namespace ModularBuild

namespace ToolchainConfig

/-! ## Laws of merging -/

theorem overlay_assoc (a b c : List String) :
    overlay (overlay a b) c = overlay a (overlay b c) := by
  cases c <;> rfl

theorem overlay_self (a : List String) : overlay a a = a := by
  cases a <;> rfl

theorem overlay_nil_left (a : List String) : overlay [] a = a := by
  cases a <;> rfl

theorem merge_assoc (a b c : ToolchainConfig) : merge (merge a b) c = merge a (merge b c) := by
  simp only [merge, overlay_assoc, Option.orElse_eq_orElse, Option.orElse_eq_or, Option.or_assoc]

theorem merge_self (c : ToolchainConfig) : merge c c = c := by
  simp only [merge, overlay_self, Option.orElse_eq_orElse, Option.orElse_eq_or, Option.or_self]

theorem default_merge (c : ToolchainConfig) : merge {} c = c := by
  simp only [merge, overlay_nil_left, Option.orElse_eq_orElse, Option.orElse_eq_or, Option.or_none]

theorem merge_default (c : ToolchainConfig) : merge c {} = c := by
  simp only [merge, overlay, Option.orElse_eq_orElse, Option.orElse_eq_or, Option.none_or,
    List.isEmpty_nil, if_true]

/-! ## The last layer that has a setting -/

variable {α : Type} {setting : ToolchainConfig → Option α} {cs : List ToolchainConfig}
  {v v' : Option α}

/-- The value a setting gets from layers, each over those before it. -/
inductive LastSet (setting : ToolchainConfig → Option α) : List ToolchainConfig → Option α → Prop
  | unset {cs : List ToolchainConfig} : (∀ c ∈ cs, setting c = none) → LastSet setting cs none
  | set {v : α} (before : List ToolchainConfig) (c : ToolchainConfig)
      (after : List ToolchainConfig) : setting c = some v → (∀ d ∈ after, setting d = none) →
      LastSet setting (before ++ c :: after) (some v)

namespace LastSet

theorem append_singleton (h : LastSet setting cs v) (c : ToolchainConfig) :
    LastSet setting (cs ++ [c]) (setting c <|> v) := by
  cases hc : setting c with
  | some w => exact .set cs c [] hc (by simp)
  | none =>
    cases h with
    | unset hunset =>
      exact .unset fun d hd => (List.mem_append.mp hd).elim (hunset d)
        fun hd => List.mem_singleton.mp hd ▸ hc
    | set before d after hset hafter =>
      rw [List.append_assoc, List.cons_append]
      exact .set before d (after ++ [c]) hset fun e he => (List.mem_append.mp he).elim (hafter e)
        fun he => List.mem_singleton.mp he ▸ hc

theorem findSome? (h : LastSet setting cs v) : cs.reverse.findSome? setting = v := by
  cases h with
  | unset hunset => exact List.findSome?_eq_none_iff.mpr fun c hc => hunset c (by simpa using hc)
  | set before c after hset hafter =>
    exact List.findSome?_eq_some_iff.mpr ⟨after.reverse, c, before.reverse, by simp, hset,
      fun d hd => hafter d (List.mem_reverse.mp hd)⟩

theorem unique (h : LastSet setting cs v) (h' : LastSet setting cs v') : v = v' :=
  h.findSome?.symm.trans h'.findSome?

end LastSet

/-- A setting that a merge takes from above where it is there, and else from below. -/
structure Layered (setting : ToolchainConfig → Option α) : Prop where
  unset : setting {} = none
  merge (below above : ToolchainConfig) :
    setting (merge below above) = (setting above <|> setting below)

/-- A list of flags sets something if it has an element. -/
def given (flags : List String) : Option (List String) :=
  if flags.isEmpty then none else some flags

theorem given_injective {a b : List String} (h : given a = given b) : a = b := by
  cases a <;> cases b <;> simp_all [given]

theorem given_overlay (below above : List String) :
    given (overlay below above) = (given above <|> given below) := by
  cases above <;> rfl

theorem Layered.lastSet (hlayered : Layered setting) (cs : List ToolchainConfig) :
    LastSet setting cs (setting (cs.foldl ToolchainConfig.merge {})) := by
  induction cs using List.reverseRecOn with
  | nil => exact hlayered.unset ▸ .unset nofun
  | append_singleton cs c ih =>
    rw [List.foldl_append, List.foldl_cons, List.foldl_nil, hlayered.merge]
    exact ih.append_singleton c

theorem layered_given {flags : ToolchainConfig → List String} (hunset : flags {} = [])
    (hmerge : ∀ below above, flags (merge below above) = overlay (flags below) (flags above)) :
    Layered fun c => given (flags c) where
  unset := congrArg given hunset
  merge below above := (congrArg given (hmerge below above)).trans (given_overlay _ _)

/-! ## Layers under an environment -/

variable {env : String → Option String} {name : String} {c c' : ToolchainConfig}

/-- The program that an environment names, else the one of the last layer that has one. -/
inductive ProgramFrom (env : String → Option String) (name : String)
    (setting : ToolchainConfig → Option Path) (cs : List ToolchainConfig) : Option Path → Prop
  | environment {value : String} : env name = some value → value ≠ "" →
      ProgramFrom env name setting cs (some ⟨value⟩)
  | layers {v : Option Path} : (∀ value, env name = some value → value = "") →
      LastSet setting cs v → ProgramFrom env name setting cs v

theorem ProgramFrom.unique {setting : ToolchainConfig → Option Path} {v v' : Option Path}
    (h : ProgramFrom env name setting cs v) (h' : ProgramFrom env name setting cs v') : v = v' := by
  cases h with
  | environment henv hne =>
    cases h' with
    | environment henv' =>
      cases henv.symm.trans henv'
      rfl
    | layers hempty => exact absurd (hempty _ henv) hne
  | layers hempty hlast =>
    cases h' with
    | environment henv' hne => exact absurd (hempty _ henv') hne
    | layers _ hlast' => exact hlast.unique hlast'

theorem programFrom_of_lastSet {setting : ToolchainConfig → Option Path} {v : Option Path}
    (h : LastSet setting cs v) (env : String → Option String) (name : String) :
    ProgramFrom env name setting cs (environmentTool env name <|> v) := by
  unfold environmentTool
  cases henv : env name with
  | none => exact .layers (fun value hvalue => by simp [henv] at hvalue) h
  | some value =>
    by_cases hempty : value = ""
    · subst hempty
      exact .layers (fun value hvalue => (Option.some.inj (henv.symm.trans hvalue)).symm) h
    · rw [Option.filter_some, if_pos (decide_eq_true hempty)]
      exact .environment henv hempty

/-- What a configuration says, setting by setting, where layers are put over each other and an
environment over them. -/
structure Resolves (env : String → Option String) (cs : List ToolchainConfig)
    (c : ToolchainConfig) : Prop where
  cxx : ProgramFrom env "CXX" ToolchainConfig.cxx cs c.cxx
  fc : ProgramFrom env "FC" ToolchainConfig.fc cs c.fc
  ar : ProgramFrom env "AR" ToolchainConfig.ar cs c.ar
  cflags : LastSet (fun d => given d.cflags) cs (given c.cflags)
  fflags : LastSet (fun d => given d.fflags) cs (given c.fflags)
  ldflags : LastSet (fun d => given d.ldflags) cs (given c.ldflags)
  sharedFlags : LastSet (fun d => given d.sharedFlags) cs (given c.sharedFlags)
  arFlags : LastSet (fun d => given d.arFlags) cs (given c.arFlags)
  libs : LastSet (fun d => given d.libs) cs (given c.libs)
  groupArchives : LastSet ToolchainConfig.groupArchives cs c.groupArchives
  jobs : LastSet ToolchainConfig.jobs cs c.jobs

theorem Resolves.unique (h : Resolves env cs c) (h' : Resolves env cs c') : c = c' := by
  cases c
  cases c'
  rw [mk.injEq]
  exact ⟨h.cxx.unique h'.cxx, h.fc.unique h'.fc, h.ar.unique h'.ar,
    given_injective (h.cflags.unique h'.cflags), given_injective (h.fflags.unique h'.fflags),
    given_injective (h.ldflags.unique h'.ldflags),
    given_injective (h.sharedFlags.unique h'.sharedFlags),
    given_injective (h.arFlags.unique h'.arFlags), given_injective (h.libs.unique h'.libs),
    h.groupArchives.unique h'.groupArchives, h.jobs.unique h'.jobs⟩

theorem resolves_merged (env : String → Option String) (cs : List ToolchainConfig) :
    Resolves env cs (applyEnv env (cs.foldl merge {})) where
  cxx := programFrom_of_lastSet (Layered.lastSet ⟨rfl, fun _ _ => rfl⟩ cs) env "CXX"
  fc := programFrom_of_lastSet (Layered.lastSet ⟨rfl, fun _ _ => rfl⟩ cs) env "FC"
  ar := programFrom_of_lastSet (Layered.lastSet ⟨rfl, fun _ _ => rfl⟩ cs) env "AR"
  cflags := (layered_given rfl fun _ _ => rfl).lastSet cs
  fflags := (layered_given rfl fun _ _ => rfl).lastSet cs
  ldflags := (layered_given rfl fun _ _ => rfl).lastSet cs
  sharedFlags := (layered_given rfl fun _ _ => rfl).lastSet cs
  arFlags := (layered_given rfl fun _ _ => rfl).lastSet cs
  libs := (layered_given rfl fun _ _ => rfl).lastSet cs
  groupArchives := Layered.lastSet ⟨rfl, fun _ _ => rfl⟩ cs
  jobs := Layered.lastSet ⟨rfl, fun _ _ => rfl⟩ cs

theorem resolves_iff : Resolves env cs c ↔ applyEnv env (cs.foldl merge {}) = c :=
  ⟨(resolves_merged env cs).unique, fun h => h ▸ resolves_merged env cs⟩

theorem applyEnv_applyEnv (env : String → Option String) (c : ToolchainConfig) :
    applyEnv env (applyEnv env c) = applyEnv env c := by
  simp only [applyEnv, Option.orElse_eq_orElse, Option.orElse_eq_or, ← Option.or_assoc,
    Option.or_self]

/-! ## Loading -/

section Loading

variable {h : Host} {files files' : FileSystem} {p project : Path} {user : Option Path}
  {e : Failure}

/-- There is a file that cannot be read, or that does not hold a configuration. -/
def Broken (h : Host) (files : FileSystem) (p : Path) : Prop :=
  files.pathExists h.cwd p ∧ ∀ text, files.readText h.cwd p = .ok text → parse? text = none

theorem broken_iff :
    Broken h files p ↔ files.pathExists h.cwd p ∧ ∃ e, load h files p = .error e := by
  refine and_congr_right fun _ => ?_
  unfold load
  cases files.readText h.cwd p with
  | error e => simp
  | ok text => cases hparse : parse? text <;> simp [hparse]

/-- The user's layer; there is none where there is no file. -/
def userLayer (h : Host) (files : FileSystem) (user : Option Path) : ToolchainConfig :=
  user.elim {} fun p => (loadLenient h files p).2

theorem userLayer_of_broken (hbroken : Broken h files p) : userLayer h files (some p) = {} := by
  obtain ⟨hexists, e, hload⟩ := broken_iff.mp hbroken
  simp only [userLayer, Option.elim_some, loadLenient, if_pos hexists, hload]

theorem userLayer_of_absent (habsent : ∀ p ∈ user, files.pathExists h.cwd p = false) :
    userLayer h files user = {} := by
  cases user with
  | none => rfl
  | some p =>
    have hnone : ¬ files.pathExists h.cwd p := by simpa using habsent p
    simp only [userLayer, Option.elim_some, loadLenient, if_neg hnone]

/-- The project's own layer; a file that is there must be intact. -/
def projectLayer (h : Host) (files : FileSystem) (project : Path) :
    Except Failure ToolchainConfig :=
  if files.pathExists h.cwd project then load h files project else .ok {}

theorem projectLayer_eq_error_iff : projectLayer h files project = .error e ↔
    files.pathExists h.cwd project ∧ load h files project = .error e := by
  unfold projectLayer
  split <;> simp_all

theorem loadMerged_snd : (loadMerged h files user project).2 =
    (projectLayer h files project).map fun own =>
      applyEnv h.getEnv? ([userLayer h files user, own].foldl merge {}) := by
  have hsplit : loadMerged h files user project =
      ((user.elim ([], {}) (loadLenient h files)).1,
        (if files.pathExists h.cwd project then
            (load h files project).map (merge {} (userLayer h files user)).merge
          else .ok (merge {} (userLayer h files user))).map (applyEnv h.getEnv?)) := by
    cases user <;> rfl
  rw [hsplit, projectLayer]
  split
  · cases load h files project <;> rfl
  · rw [Except.map, Except.map, List.foldl_cons, List.foldl_cons, List.foldl_nil, merge_default]

theorem loadMerged_eq_error_iff : (loadMerged h files user project).2 = .error e ↔
    files.pathExists h.cwd project ∧ load h files project = .error e := by
  rw [← projectLayer_eq_error_iff, loadMerged_snd]
  cases projectLayer h files project <;> simp [Except.map]

theorem projectLayer_congr
    (hexists : files'.pathExists h.cwd project = files.pathExists h.cwd project)
    (hread : files'.readText h.cwd project = files.readText h.cwd project) :
    projectLayer h files' project = projectLayer h files project := by
  unfold projectLayer load
  rw [hexists, hread]

theorem loadMerged_eq_ok_iff {c : ToolchainConfig} :
    (loadMerged h files user project).2 = .ok c ↔ ∃ own, projectLayer h files project = .ok own ∧
      Resolves h.getEnv? [userLayer h files user, own] c := by
  rw [loadMerged_snd]
  cases projectLayer h files project <;> simp [Except.map, resolves_iff]

end Loading

/-- Merging is associative and idempotent over the default, so that a setting comes from the
environment or else from the last layer that has it, however the layers are grouped; the environment
may be applied again. A broken file of the user's loads like an absent one, and loading fails
exactly if the project's file is broken. -/
theorem settings_resolve_by_precedence :
    (∀ a b c, merge (merge a b) c = merge a (merge b c)) ∧ (∀ c, merge c c = c) ∧
      (∀ c, merge {} c = c) ∧ (∀ c, merge c {} = c) ∧
      (∀ env cs c, Resolves env cs c ↔ applyEnv env (cs.foldl merge {}) = c) ∧
      (∀ env c, applyEnv env (applyEnv env c) = applyEnv env c) ∧
      (∀ (h : Host) (files files' : FileSystem) (p : Path) (user' : Option Path) (project : Path),
        Broken h files p → (∀ q ∈ user', files'.pathExists h.cwd q = false) →
        files'.pathExists h.cwd project = files.pathExists h.cwd project →
        files'.readText h.cwd project = files.readText h.cwd project →
        (loadMerged h files (some p) project).2 = (loadMerged h files' user' project).2) ∧
      ∀ (h : Host) (files : FileSystem) (user : Option Path) (project : Path),
        (∃ e, (loadMerged h files user project).2 = .error e) ↔ Broken h files project := by
  refine ⟨merge_assoc, merge_self, default_merge, merge_default, fun _ _ _ => resolves_iff,
    applyEnv_applyEnv, ?_, ?_⟩
  · intro h files files' p user' project hbroken habsent hexists hread
    rw [loadMerged_snd, loadMerged_snd, userLayer_of_broken hbroken, userLayer_of_absent habsent,
      projectLayer_congr hexists hread]
  · intro h files user project
    simp only [loadMerged_eq_error_iff, exists_and_left, broken_iff]

/-! ## A broken file of the user's -/

/-- The user's file is a directory, and the project has a file of flags. -/
def brokenUserFile : FileSystem :=
  { entries := SortedMap.insertAll ∅
      [(["user"], ⟨.directory, FileSystem.directoryMode, 1, true, none⟩),
        (["project"], ⟨.file (Text.toBytes "[toolchain]\ncflags = [\"-g\"]\n"), 0o644, 1, true,
          none⟩)] }

def compilerHost : Host :=
  ⟨[], SortedMap.insert ∅ "CXX" "/cxx", fun _ files => (.error .noEntry, files)⟩

theorem lookups_brokenUserFile :
    (brokenUserFile.pathExists [] ⟨"/user"⟩ ∧
        brokenUserFile.readText [] ⟨"/user"⟩ = .error .isDirectory) ∧
      brokenUserFile.pathExists [] ⟨"/project"⟩ ∧
      brokenUserFile.readText [] ⟨"/project"⟩ = .ok "[toolchain]\ncflags = [\"-g\"]\n" := by
  have hfree : FileSystem.LinkFree brokenUserFile := FileSystem.linkFree_of_entries (by decide)
  simp only [FileSystem.readText, FileSystem.read, FileSystem.pathExists,
    FileSystem.lookup?, FileSystem.lookup, FileSystem.resolve_eq_descend hfree]
  decide +kernel

theorem loadMerged_brokenUserFile :
    Broken compilerHost brokenUserFile ⟨"/user"⟩ ∧
      (loadMerged compilerHost brokenUserFile (some ⟨"/user"⟩) ⟨"/project"⟩).2 =
        .ok { cxx := some ⟨"/cxx"⟩, cflags := ["-g"] } := by
  obtain ⟨⟨huser, hdirectory⟩, hproject, htext⟩ := lookups_brokenUserFile
  obtain ⟨-, -, -, -, -, -, habsent, -⟩ := settings_resolve_by_precedence
  have hbroken : Broken compilerHost brokenUserFile ⟨"/user"⟩ :=
    ⟨huser, fun text h => by cases hdirectory.symm.trans h⟩
  refine ⟨hbroken, ?_⟩
  rw [habsent _ _ brokenUserFile _ none _ hbroken (by simp) rfl rfl]
  have hload : load compilerHost brokenUserFile ⟨"/project"⟩ = .ok { cflags := ["-g"] } := by
    unfold load
    rw [show compilerHost.cwd = [] from rfl, htext]
    decide +kernel
  rw [loadMerged, show compilerHost.cwd = [] from rfl, if_pos hproject, hload]
  rfl

end ToolchainConfig

end ModularBuild
