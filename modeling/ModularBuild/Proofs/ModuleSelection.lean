import ModularBuild.CommandLine
import ModularBuild.Proofs.ModuleIdentity
import ModularBuild.Proofs.Plan.FailedCalls

/-!
# A module is selected by its text

Naming a module by a text cuts the text down once and for all: what is left has nothing more to be
cut down (`Settled`), and such texts are exactly those that name the module of themselves
(`settled_iff`). Every module that a run can tell of was named by some text, be it one of a report
(`Workspace.mem_of_tells`) or one that loading fails with (`Workspace.exists_ofString_of_load_error`).
So its text, given to `--module`, selects it again: `text_selects_module`.
-/

namespace ModularBuild

/-! ## Texts with nothing to cut down -/

/-- The separators at the end of a text are dropped, unless it has nothing else. -/
theorem stripTrailingSeparators_cases (t : String) :
    (∀ c ∈ t.toList, isSeparator c) ∧ stripTrailingSeparators t = t ∨
      ∃ init last seps, t.toList = init ++ [last] ++ seps ∧ ¬ isSeparator last ∧
        (∀ c ∈ seps, isSeparator c) ∧ (stripTrailingSeparators t).toList = init ++ [last] := by
  have hsplit := List.rdropWhile_append_rtakeWhile (p := isSeparator) (l := t.toList)
  have hseps : ∀ c ∈ t.toList.rtakeWhile isSeparator, isSeparator c := fun c =>
    List.mem_rtakeWhile_imp
  rcases hkept : t.toList.rdropWhile isSeparator with _ | ⟨c, cs⟩
  · left
    refine ⟨List.rdropWhile_eq_nil_iff.mp hkept, ?_⟩
    have hempty : (t.toList.reverse.dropWhile isSeparator).reverse = [] := hkept
    rw [stripTrailingSeparators, hempty]
  · right
    have hne : t.toList.rdropWhile isSeparator ≠ [] := by simp [hkept]
    have hlast := List.rdropWhile_last_not _ _ hne
    have hinit := List.dropLast_append_getLast hne
    rw [← hinit] at hsplit
    refine ⟨_, _, _, hsplit.symm, hlast, hseps, ?_⟩
    exact stripTrailingSeparators_append (hsplit.symm) ⟨_, List.getLast?_concat, hlast⟩ hseps

theorem isPrefix_stripTrailingSeparators (t : String) :
    (stripTrailingSeparators t).toList <+: t.toList := by
  rcases stripTrailingSeparators_cases t with ⟨-, hsame⟩ | ⟨init, last, seps, ht, -, -, htext⟩
  · exact ⟨[], by rw [hsame, List.append_nil]⟩
  · rw [ht, htext]
    exact List.prefix_append _ _

theorem eq_slash_of_isSeparator {c : Char} {cs : List Char} (h : '\\' ∉ cs) (hc : c ∈ cs)
    (hsep : isSeparator c) : c = '/' := by
  have hne : c ≠ '\\' := fun heq => h (heq ▸ hc)
  simpa [isSeparator, hne] using hsep

/-- A text of which nothing is cut down: it is not empty and has no backslash, it does not start
with `./`, and it ends in a slash only if it is made of slashes. -/
structure Settled (s : String) : Prop where
  ne_empty : s ≠ ""
  backslash : '\\' ∉ s.toList
  dotSlash : ¬ ['.', '/'] <+: s.toList
  slashes : s.toList.getLast? = some '/' → ∀ c ∈ s.toList, c = '/'

namespace ModulePath

variable {s : String} {m : ModulePath}

/-- The text of a module has nothing to cut down. The separators at the end go first, and what is
dropped at the start after them leaves the end as it was. -/
theorem settled_ofString (s : String) : Settled (ofString s).text := by
  obtain ⟨k, hk, hdot⟩ := exists_dropDotSlash (stripTrailingSeparators (slashed s)).toList
  unfold ofString
  split
  · exact ⟨by decide, by decide, by decide, by decide⟩
  · rename_i hne
    generalize dropDotSlash (stripTrailingSeparators (slashed s)).toList = cs at hk hdot hne
    have hmem : ∀ c ∈ cs, c ∈ (stripTrailingSeparators (slashed s)).toList := fun c hc => by
      rw [hk]
      exact List.mem_append_right _ hc
    have hend : cs.getLast? = (stripTrailingSeparators (slashed s)).toList.getLast? := by
      rw [hk, List.getLast?_append_of_ne_nil _ hne]
    have hback := backslash_notMem_slashed s
    refine ⟨by simpa [← String.toList_inj] using hne, ?_, ?_, ?_⟩ <;> rw [String.toList_ofList]
    · intro hc
      exact hback ((isPrefix_stripTrailingSeparators _).subset (hmem _ hc))
    · exact hdot
    · intro hlast c hc
      rw [hend] at hlast
      rcases stripTrailingSeparators_cases (slashed s) with ⟨hall, hsame⟩ |
        ⟨init, last, seps, -, hkept, -, htext⟩
      · have hc := hmem c hc
        rw [hsame] at hc
        exact eq_slash_of_isSeparator hback hc (hall c hc)
      · rw [htext, List.getLast?_concat] at hlast
        cases hlast
        exact absurd rfl hkept

/-- A text with nothing to cut down is the text of the module it names. -/
theorem ofString_of_settled (h : Settled s) : ofString s = ⟨s⟩ := by
  have hstrip : stripTrailingSeparators s = s := by
    rcases stripTrailingSeparators_cases s with ⟨-, hsame⟩ |
      ⟨init, last, seps, hs, hlast, hseps, htext⟩
    · exact hsame
    · rcases List.eq_nil_or_concat' seps with rfl | ⟨before, sep, rfl⟩
      · rw [List.append_nil] at hs
        rw [← String.toList_inj, htext, hs]
      · have hsep : sep = '/' :=
          eq_slash_of_isSeparator h.backslash (by simp [hs]) (hseps sep (by simp))
        have hall := h.slashes (by rw [hs, ← List.append_assoc, List.getLast?_concat, hsep])
        exact absurd (hall last (by simp [hs])) fun heq => hlast (heq ▸ rfl)
  have hdrop : dropDotSlash s.toList = s.toList := dropDotSlash_append 0 h.dotSlash
  have hne : s.toList ≠ [] := by simpa using h.ne_empty
  rw [ofString, slashed_of_notMem h.backslash, hstrip, hdrop]
  split
  · exact absurd ‹_› hne
  · rw [String.ofList_toList]

/-- The texts of modules are those with nothing to cut down. -/
theorem settled_iff : Settled s ↔ ∃ t, (ofString t).text = s := by
  constructor
  · intro h
    exact ⟨s, congrArg text (ofString_of_settled h)⟩
  · rintro ⟨t, rfl⟩
    exact settled_ofString t

/-- A module is the one that its text names. -/
theorem ofString_text_ofString (s : String) : ofString (ofString s).text = ofString s :=
  ofString_of_settled (settled_ofString s)

end ModulePath

/-! ## The option that selects a module -/

theorem Subcommand.ofName?_name (c : Subcommand) : ofName? c.name = some c := by
  rcases c with (_ | _ | _ | _ | _) | _ | (_ | _ | _ | _) | _ | _ | _ <;> decide +kernel

namespace Arguments

variable {c : Subcommand} {target text : String}

theorem word_name (c : Subcommand) : Word.ofString c.name = .plain ∧ c.name ≠ "help" := by
  rcases c with (_ | _ | _ | _ | _) | _ | (_ | _ | _ | _) | _ | _ | _ <;> decide +kernel

theorem word_module (text : String) :
    Word.ofString ("--module=" ++ text) = .long "module" (some text) := by
  unfold Word.ofString
  rw [String.toList_append]
  show Word.long "module" (some (String.ofList text.toList)) = _
  rw [String.ofList_toList]

/-- A command line about one module; a target stands at its end where one has to. -/
def aboutModule (c : Subcommand) (text target : String) : List String :=
  ["--module=" ++ text, c.name] ++ c.operand?.toList.map fun _ => target

/-- The text after `--module` is what selects the module. -/
theorem read_aboutModule (htarget : Word.ofString target = .plain) :
    read none (aboutModule c text target) =
      .ok ⟨c, { module := some text, target := c.operand?.map fun _ => target }⟩ := by
  obtain ⟨hplain, hhelp⟩ := word_name c
  have houter : ∀ words, readOuter {} none (("--module=" ++ text) :: c.name :: words) =
      .ok ({ module := some text }, c, words) := fun words => by
    rw [readOuter, word_module]
    show readOuter { module := some text } none (c.name :: words) = _
    rw [readOuter, hplain]
    simp only [if_neg hhelp, Subcommand.ofName?_name]
    rfl
  have hinner : readInner c {} none (c.operand?.toList.map fun _ => target) =
      .ok { target := c.operand?.map fun _ => target } := by
    cases hoperand : c.operand? with
    | none => rfl
    | some name =>
      rw [Option.toList_some, List.map_singleton, readInner, htarget]
      simp only [giveOperand, hoperand]
      rfl
  rw [Arguments.read, aboutModule, List.cons_append, List.cons_append, List.nil_append, houter]
  show (readInner c {} none (c.operand?.toList.map fun _ => target) >>= _) = _
  rw [hinner]
  cases c.operand? <;> rfl

end Arguments

theorem CommandLine.exists_ofString_of_mode {settings : Settings} {m : ModulePath}
    (h : mode settings = .standalone m) : ∃ s, .ofString s = m := by
  unfold mode at h
  split at h
  · cases h
    exact ⟨_, rfl⟩
  · cases h

/-! ## What a run tells of -/

/-- The module that something is wrong with. -/
def PlanError.module? : PlanError → Option ModulePath
  | duplicateModule m | unopenedModule m | unclosedModule m | unknownModule m => some m
  | objectNameClash m _ => some m
  | aliasCollision _ _ _ | inputOutsideProject _ _ | dependencyCycle _ => none

/-- A failure tells of a module: that it could not be loaded, or what is wrong with it. -/
def Failure.Tells (f : Failure) (m : ModulePath) : Prop :=
  f.contexts.head? = some s!"failed to load module `{m}`" ∨
    ∃ e, f.cause = .plan e ∧ e.module? = some m

/-- Where nothing is said of what was being done, the cause tells of the module. -/
theorem Failure.Tells.of_contexts_eq_nil {f : Failure} {m : ModulePath} (h : f.Tells m)
    (hcontexts : f.contexts = []) : ∃ e, f.cause = .plan e ∧ e.module? = some m := by
  rcases h with hcontext | hcause
  · rw [hcontexts] at hcontext
    cases hcontext
  · exact hcause

/-- A report tells of a module: as one of the project, as what a library is made from, or as the one
that was selected. -/
def Workspace.Tells (ws : Workspace) (m : ModulePath) : Prop :=
  m ∈ ws.plan.modules.keys ∨ (∃ library ∈ ws.plan.libraries.values, library.module = m) ∨
    ws.mode = .standalone m

/-! ### What is told is shown -/

def Shows (text part : String) : Prop := part.toList <:+: text.toList

section Shows

variable {text part sep : String} {texts : List String}

theorem shows_self (text : String) : Shows text text := List.infix_rfl

theorem Shows.append_left (h : Shows text part) (before : String) : Shows (before ++ text) part := by
  rw [Shows, String.toList_append]
  exact h.trans (List.suffix_append _ _).isInfix

theorem Shows.append_right (h : Shows text part) (after : String) : Shows (text ++ after) part := by
  rw [Shows, String.toList_append]
  exact h.trans (List.prefix_append _ _).isInfix

theorem Shows.join (h : Shows text part) (hmem : text ∈ texts) : Shows (String.join texts) part := by
  rw [Shows, String.toList_join, List.flatMap_def]
  exact h.trans (List.infix_of_mem_flatten (List.mem_map_of_mem hmem))

theorem infix_intercalate {cs sep : List Char} {css : List (List Char)} (h : cs ∈ css) :
    cs <:+: List.intercalate sep css := by
  induction css with
  | nil => cases h
  | cons first css ih =>
    by_cases hcss : css = []
    · rw [hcss, List.mem_singleton] at h
      exact ⟨[], [], by rw [hcss, h, List.intercalate_singleton, List.nil_append, List.append_nil]⟩
    · rw [List.intercalate_cons_of_ne_nil hcss]
      rcases List.mem_cons.mp h with rfl | hrest
      · exact ⟨[], _, (List.append_assoc _ _ _).symm⟩
      · exact (ih hrest).trans (List.suffix_append _ _).isInfix

theorem Shows.intercalate (h : Shows text part) (hmem : text ∈ texts) (sep : String) :
    Shows (sep.intercalate texts) part := by
  rw [Shows, String.toList_intercalate]
  exact h.trans (infix_intercalate (List.mem_map_of_mem hmem))

end Shows

theorem PlanError.shows_message {e : PlanError} {m : ModulePath} (h : e.module? = some m) :
    Shows e.message m.text := by
  have hshown := shows_self m.text
  cases e with
  | duplicateModule | unopenedModule | unclosedModule | unknownModule =>
    cases h
    exact (hshown.append_left _).append_right _
  | objectNameClash _ clash =>
    cases h
    have hclash := (((hshown.append_left
      ("`" ++ clash.name ++ "` in module `")).append_right "` is declared as both ").append_right
      clash.first.description).append_right " and "
    exact hclash.append_right clash.second.description
  | aliasCollision | inputOutsideProject | dependencyCycle => cases h

theorem Failure.Tells.shows {f : Failure} {m : ModulePath} (h : f.Tells m) :
    Shows f.message m.text := by
  rcases h with hcontext | ⟨e, he, hmodule⟩
  · obtain ⟨rest, hrest⟩ := List.head?_eq_some_iff.mp hcontext
    have hloading := ((shows_self m.text).append_left "failed to load module `").append_right "`"
    exact hloading.intercalate (List.mem_append_left _ (hrest ▸ List.mem_cons_self)) _
  · have hcause : f.cause.message = e.message := by rw [he, Cause.message]
    have hmem : e.message ∈ f.contexts ++ [f.cause.message] := by simp [hcause]
    exact (PlanError.shows_message hmodule).intercalate hmem _

theorem Plan.shows_report {plan : Plan} {m : ModulePath} (h : m ∈ plan.modules.keys) :
    Shows plan.report m.text := by
  have hline : Shows (reportSection "modules" (plan.modules.keys.map (·.text))) m.text :=
    ((((shows_self m.text).append_left "  ").append_right "\n").join
      (by simpa [lines] using ⟨m, h, rfl⟩)).append_left _
  -- After the modules come the libraries, the programs of three kinds, the generated files, and
  -- what the libraries are made of.
  exact (((((((hline.append_left _).append_right _).append_right _).append_right _).append_right
    _).append_right _).append_right _).append_right _

theorem Registry.module?_of_stepAll_eq_error {r : Registry} {m : ModulePath} {calls : List Call}
    {e : PlanError} (h : (r.stepAll m calls).2 = .error e) : e.module? = some m := by
  induction calls generalizing r with
  | nil => cases h
  | cons call calls ih =>
    rw [stepAll] at h
    rcases hstep : r.step m call with ⟨r', e' | u⟩ <;> rw [hstep] at h
    · cases h
      have herror : (r.step m call).2 = .error e := congrArg Prod.snd hstep
      rcases step_eq_error herror with ⟨-, rfl | rfl⟩ | ⟨-, c, clash, -, -, rfl, -⟩ <;> rfl
    · exact ih h

namespace Workspace

variable {read : Reader} {root manifestPath : Path} {r : Registry} {modules : List ModulePath}
  {mode : BuildMode} {m module : ModulePath} {f : Failure} {ws : Workspace}

theorem eq_of_context (h : s!"failed to load module `{module}`" = s!"failed to load module `{m}`") :
    m = module := by
  have htext := congrArg String.toList h
  simp only [String.toList_append] at htext
  have hinit := List.append_cancel_right htext
  have hmodule := List.append_cancel_left hinit
  exact ModulePath.ext_toList hmodule.symm

theorem cause_ne_plan_of_loadModuleManifest {p : Path} (h : loadModuleManifest read p = .error f)
    (e : PlanError) : f.cause ≠ .plan e := by
  unfold loadModuleManifest at h
  split at h
  · cases h
    exact nofun
  · split at h
    · cases h
    · cases h
      exact nofun

theorem mem_of_declareModules_tells (h : (declareModules read root r modules).2 = .error f)
    (htells : f.Tells m) : m ∈ modules := by
  induction modules generalizing r with
  | nil => cases h
  | cons module modules ih =>
    rw [declareModules] at h
    cases hread : loadModuleManifest read (root / moduleManifestPath module) with
    | error f' =>
      rw [hread] at h
      cases h
      rcases htells with hcontext | ⟨e, he, -⟩
      · rw [eq_of_context (Option.some.inj hcontext)]
        exact List.mem_cons_self
      · exact absurd he (cause_ne_plan_of_loadModuleManifest hread e)
    | ok manifest =>
      simp only [hread] at h
      rcases hdeclare : manifest.declareInto r module with ⟨r', e | u⟩ <;> rw [hdeclare] at h
      · cases h
        obtain ⟨e', he', hmodule⟩ := htells.of_contexts_eq_nil rfl
        cases he'
        have hself := Registry.module?_of_stepAll_eq_error (congrArg Prod.snd hdeclare)
        rw [Option.some.inj (hmodule.symm.trans hself)]
        exact List.mem_cons_self
      · exact List.mem_cons_of_mem _ (ih h)

theorem not_tells_of_loadProjectManifest (h : loadProjectManifest read manifestPath = .error f) :
    ¬ f.Tells m := by
  -- What was being done begins otherwise.
  have hother : ∀ (doing : String) {c : Char} {rest : List Char} {path : String} {cause : Cause},
      doing.toList = "failed to ".toList ++ c :: rest → c ≠ 'l' → (∀ e, cause ≠ .plan e) →
      ¬ Failure.Tells ⟨[doing ++ path], cause⟩ m := by
    rintro doing c rest path cause hdoing hc hcause (hcontext | ⟨e, he, -⟩)
    · have htext := congrArg String.toList (Option.some.inj hcontext)
      have hloading : (s!"failed to load module `{m}`").toList =
          "failed to ".toList ++ 'l' :: ("oad module `".toList ++ m.text.toList ++ ['`']) := by
        simp only [String.toList_append]
        rfl
      rw [String.toList_append, hdoing, List.append_assoc, hloading] at htext
      exact hc (List.cons.inj (List.append_cancel_left htext)).1
    · exact hcause e he
  unfold loadProjectManifest at h
  split at h
  · cases h
    exact hother "failed to read manifest: " rfl (by decide) nofun
  · split at h <;> cases h <;> exact hother "failed to parse manifest: " rfl (by decide) nofun

/-- A module that is selected is one of the project, or the one that was asked for. -/
theorem exists_ofString_of_selectModules {manifest : ProjectManifest}
    (h : selectModules manifest mode = .ok modules) (hm : m ∈ modules) :
    (∃ s, .ofString s = m) ∨ mode = .standalone m := by
  cases mode with
  | project =>
    cases h
    obtain ⟨s, -, hs⟩ := List.mem_map.mp hm
    exact .inl ⟨s, hs⟩
  | standalone module =>
    rw [eq_singleton_of_selectModules h, List.mem_singleton] at hm
    exact .inr (congrArg _ hm.symm)

theorem eq_standalone_of_selectModules {manifest : ProjectManifest}
    (h : selectModules manifest mode = .error f) (htells : f.Tells m) : mode = .standalone m := by
  cases mode with
  | project => cases h
  | standalone module =>
    rw [selectModules] at h
    split at h
    · cases h
    · cases h
      obtain ⟨e, he, hmodule⟩ := htells.of_contexts_eq_nil rfl
      cases he
      exact congrArg _ (Option.some.inj hmodule)

/-- Where loading fails, it tells of a module of the project or of the one that was asked for. -/
theorem exists_ofString_of_load_error (h : (load read manifestPath mode).2 = .error f)
    (htells : f.Tells m) : (∃ s, .ofString s = m) ∨ mode = .standalone m := by
  rw [load] at h
  cases hmanifest : loadProjectManifest read manifestPath with
  | error e =>
    rw [hmanifest] at h
    cases h
    exact absurd htells (not_tells_of_loadProjectManifest hmanifest)
  | ok manifest =>
    simp only [hmanifest] at h
    cases hname : manifestPath.fileName? with
    | none =>
      simp only [hname] at h
      cases h
      obtain ⟨e, he, -⟩ := htells.of_contexts_eq_nil rfl
      cases he
    | some name =>
      cases hselect : selectModules manifest mode with
      | error e =>
        simp only [hname, hselect] at h
        cases h
        exact .inr (eq_standalone_of_selectModules hselect htells)
      | ok modules =>
        simp only [hname, hselect] at h
        cases hdeclare :
          (declareModules read (rootOf manifestPath) (.empty manifest.name) modules).2 with
        | error e =>
          simp only [hdeclare] at h
          cases h
          exact exists_ofString_of_selectModules hselect
            (mem_of_declareModules_tells hdeclare htells)
        | ok r =>
          obtain ⟨σ, htracks, hclosed, -⟩ := merged?_eq_manifestsOf hdeclare
          obtain ⟨libraries, hfinalize, -⟩ :=
            htracks.finalize_eq_ok hclosed (mode.naming manifest.name)
          simp only [hdeclare, hfinalize] at h
          cases h

theorem mem_of_tells (hws : (load read manifestPath mode).2 = .ok ws)
    (hselect : selectModules ws.manifest mode = .ok modules) (htells : ws.Tells m) :
    m ∈ modules := by
  rcases htells with hmodule | ⟨library, hlibrary, rfl⟩ | hmode
  · exact ((mem_modules_of_load hws hselect).2 m).mp hmodule
  · obtain ⟨⟨m', library⟩, hentry, rfl⟩ := List.mem_map.mp hlibrary
    have hfind := SortedMap.mem_entries_iff.mp hentry
    rw [(distinct_of_load hws).libraries m' library hfind]
    exact mem_of_library hws hselect hfind
  · obtain ⟨_, _, _, -, -, hsame, -⟩ := tracks_of_load hws
    rw [← hsame, hmode] at hselect
    rw [eq_singleton_of_selectModules hselect]
    exact List.mem_singleton_self m

theorem exists_load_standalone (hws : (load read manifestPath mode).2 = .ok ws)
    (htells : ws.Tells m) :
    ∃ ws', (load read manifestPath (.standalone m)).2 = .ok ws' ∧ ws'.plan.modules.keys = [m] := by
  obtain ⟨manifest, name, modules, r, plan, hmanifest, hname, hselect, hdeclare, -, rfl⟩ :=
    load_eq_ok_iff.mp hws
  have hm := mem_of_tells hws hselect htells
  have hlisted : m ∈ manifest.modulePaths := by
    cases mode with
    | project =>
      cases hselect
      exact hm
    | standalone module =>
      have hmodule := List.mem_singleton.mp (eq_singleton_of_selectModules hselect ▸ hm)
      rw [selectModules] at hselect
      split at hselect
      · exact hmodule ▸ List.contains_iff_mem.mp ‹_›
      · cases hselect
  have hloads := (exists_declareModules_iff (Registry.Tracks.empty manifest.name)).mp ⟨r, hdeclare⟩
  obtain ⟨c, hc⟩ := (hloads.2 m hm).2
  obtain ⟨r', libraries, -, -, hload⟩ := load_standalone hmanifest hname hlisted hc
  exact ⟨_, hload, keys_modules_of_standalone hload⟩

end Workspace

namespace ModulePath

/-- The text of a module selects the module, whatever is done with it. -/
def SelectsItself (m : ModulePath) : Prop :=
  ∀ (c : Subcommand) (target : String), Arguments.Word.ofString target = .plain →
    ∃ line, Arguments.read none (Arguments.aboutModule c m.text target) = .ok line ∧
      line.subcommand = c ∧ CommandLine.mode line.settings = .standalone m

theorem selectsItself_ofString (s : String) : (ofString s).SelectsItself := fun _ _ htarget =>
  ⟨_, Arguments.read_aboutModule htarget, rfl, congrArg _ (ofString_text_ofString s)⟩

/-- **A module is selected by its text.** Whatever text a module is named by, nothing is left in it
to be cut down, and it names the module again; given to `--module` it selects the module. So every
module that is told of in a report is shown by the text that selects it, and loads on its own then,
and so is every module that a failure to load tells of. -/
theorem text_selects_module :
    (∀ s, Settled (ofString s).text ∧ ofString (ofString s).text = ofString s ∧
        (ofString s).SelectsItself) ∧
      ∀ read manifestPath settings,
        (∀ ws, (Workspace.load read manifestPath (CommandLine.mode settings)).2 = .ok ws →
          ∀ m, ws.Tells m → Shows ws.report m.text ∧ m.SelectsItself ∧
            ∃ ws', (Workspace.load read manifestPath (.standalone m)).2 = .ok ws' ∧
              ws'.plan.modules.keys = [m]) ∧
          ∀ f, (Workspace.load read manifestPath (CommandLine.mode settings)).2 = .error f →
            ∀ m, f.Tells m → Shows f.message m.text ∧ m.SelectsItself := by
  refine ⟨fun s => ⟨settled_ofString s, ofString_text_ofString s, selectsItself_ofString s⟩,
    fun read manifestPath settings => ?_⟩
  have hnamed : ∀ m, (∃ s, ofString s = m) ∨ CommandLine.mode settings = .standalone m →
      m.SelectsItself := by
    rintro m (⟨s, rfl⟩ | hmode)
    · exact selectsItself_ofString s
    · obtain ⟨s, rfl⟩ := CommandLine.exists_ofString_of_mode hmode
      exact selectsItself_ofString s
  constructor
  · intro ws hws m htells
    obtain ⟨modules, _, _, hselect, -⟩ := Workspace.tracks_of_load hws
    have hm := Workspace.mem_of_tells hws hselect htells
    exact ⟨Plan.shows_report (((Workspace.mem_modules_of_load hws hselect).2 m).mpr hm),
      hnamed m (Workspace.exists_ofString_of_selectModules hselect hm),
      Workspace.exists_load_standalone hws htells⟩
  · intro f hf m htells
    exact ⟨htells.shows, hnamed m (Workspace.exists_ofString_of_load_error hf htells)⟩

theorem load_missing : (Workspace.load (Workspace.twoModuleFiles (.ok "programs = [\"main\"]\n"))
    ⟨"/demo/Stratum.toml"⟩ (CommandLine.mode { module := some "./C/" })).2 =
      .error (.ofPlan (.unknownModule ⟨"C"⟩)) := by
  obtain ⟨manifest, name, _, _, _, hmanifest, hname, -, -, -, hws⟩ :=
    Workspace.load_eq_ok_iff.mp Workspace.load_twoModules
  have hlisted : manifest = Workspace.twoModules.manifest := (congrArg Workspace.manifest hws).symm
  have hmode : CommandLine.mode { module := some "./C/" } = .standalone ⟨"C"⟩ := by decide +kernel
  have hselect : Workspace.selectModules Workspace.twoModules.manifest (.standalone ⟨"C"⟩) =
      .error (.ofPlan (.unknownModule ⟨"C"⟩)) := if_neg (by decide +kernel)
  rw [hlisted] at hmanifest
  simp only [Workspace.load, hmode, hmanifest, hname, hselect]

/-- A module that is named in another way is selected by the text it is shown by, and so is one that
is missing; a target may come after. -/
theorem text_selects_module_missing :
    ofString (ofString ".\\./B/\\").text = ⟨"B"⟩ ∧
      (∃ ws, (Workspace.load (Workspace.twoModuleFiles (.ok "programs = [\"main\"]\n"))
          ⟨"/demo/Stratum.toml"⟩ (.standalone ⟨"B"⟩)).2 = .ok ws ∧
        ws.plan.modules.keys = [⟨"B"⟩]) ∧
      Shows "module `C` is not listed in the project" "C" ∧
      ∃ line, Arguments.read none ["--module=C", "build", "all"] = .ok line ∧
        CommandLine.mode line.settings = .standalone ⟨"C"⟩ := by
  obtain ⟨hfixed, hload⟩ := text_selects_module
  obtain ⟨-, hagain, -⟩ := hfixed ".\\./B/\\"
  obtain ⟨hreport, -⟩ := hload (Workspace.twoModuleFiles (.ok "programs = [\"main\"]\n"))
    ⟨"/demo/Stratum.toml"⟩ {}
  obtain ⟨-, herror⟩ := hload (Workspace.twoModuleFiles (.ok "programs = [\"main\"]\n"))
    ⟨"/demo/Stratum.toml"⟩ { module := some "./C/" }
  obtain ⟨-, -, hB⟩ := hreport Workspace.twoModules Workspace.load_twoModules ⟨"B"⟩
    (.inl (by decide))
  obtain ⟨hshown, hC⟩ := herror (.ofPlan (.unknownModule ⟨"C"⟩))
    load_missing ⟨"C"⟩ (.inr ⟨_, rfl, rfl⟩)
  obtain ⟨line, hread, -, hmode⟩ := hC .target "all" (by decide)
  exact ⟨hagain.trans (by decide +kernel), hB, hshown, line, hread, hmode⟩

end ModulePath

end ModularBuild
