import ModularBuild.Graph.Derive
import ModularBuild.Proofs.Plan.Interleaving
import Mathlib.Data.List.Nodup
import Mathlib.Data.List.Pairwise
import Mathlib.Data.List.Perm.Basic

/-!
# The outputs that a plan declares

`Plan.outputArtifacts` lists what a build makes of a plan: generated files that have a rule, an
object for every unit and program, libraries and executables. A module is merged only if no two of
its declarations want the object of one name (`objectClash?_eq_none_iff`), so a finished plan
declares every output once (`nodup_outputArtifacts`).
-/

namespace ModularBuild

/-! ## Clashes -/

namespace Contribution

theorem firstClash?_eq_none_iff {seen : SortedMap String DeclKind} {l : List (String × DeclKind)} :
    firstClash? seen l = none ↔ (∀ e ∈ l, seen.find? e.1 = none) ∧ (l.map (·.1)).Nodup := by
  induction l generalizing seen with
  | nil => simp [firstClash?]
  | cons e l ih =>
    obtain ⟨name, kind⟩ := e
    unfold firstClash?
    cases hseen : seen.find? name with
    | some first => simp [hseen]
    | none =>
      simp only [ih, List.map_cons, List.nodup_cons, List.forall_mem_cons, hseen, true_and]
      constructor
      · rintro ⟨hnone, hnodup⟩
        have hname : ∀ e ∈ l, e.1 ≠ name ∧ seen.find? e.1 = none := fun e he => by
          have h := hnone e he
          rw [SortedMap.find?_insert_eq_ite] at h
          split at h
          · cases h
          · exact ⟨‹_›, h⟩
        refine ⟨fun e he => (hname e he).2, fun hmem => ?_, hnodup⟩
        obtain ⟨e, he, hen⟩ := List.mem_map.mp hmem
        exact (hname e he).1 hen
      · rintro ⟨hnone, hname, hnodup⟩
        refine ⟨fun e he => ?_, hnodup⟩
        have hne : e.1 ≠ name := fun hen => hname (List.mem_map.mpr ⟨e, he, hen⟩)
        rw [SortedMap.find?_insert_eq_ite, if_neg hne]
        exact hnone e he

theorem objectClash?_eq_none_iff (c : Contribution) :
    c.objectClash? = none ↔ ((DeclKind.all.filter (·.producesObject)).flatMap c.names).Nodup := by
  have hnames : c.objectNames.map (·.1) =
      (DeclKind.all.filter (·.producesObject)).flatMap c.names := by
    simp [objectNames, List.map_flatMap, Function.comp_def]
  rw [objectClash?, firstClash?_eq_none_iff, hnames]
  exact ⟨fun h => h.2, fun h => ⟨fun _ _ => rfl, h⟩⟩

/-- Where nothing clashes, no name is declared as two kinds that are compiled to objects. -/
theorem disjoint_names {c : Contribution} (h : c.objectClash? = none) {kind kind' : DeclKind}
    (hkind : kind.producesObject) (hkind' : kind'.producesObject) (hne : kind ≠ kind') :
    (c.names kind).Disjoint (c.names kind') := by
  have hpairwise := (List.nodup_flatMap.mp (c.objectClash?_eq_none_iff.mp h)).2
  have hsymm : Std.Symm (Function.onFun List.Disjoint c.names) :=
    ⟨fun _ _ h _ hname hname' => h hname' hname⟩
  have hall : ∀ kind : DeclKind, kind.producesObject →
      kind ∈ DeclKind.all.filter (·.producesObject) := fun kind hkind => by
    cases kind <;> first | decide | cases hkind
  exact hpairwise.forall (hall kind hkind) (hall kind' hkind') hne

end Contribution

/-! ## What a run merges -/

namespace ModuleState

def Accepted (s : ModuleState) : Prop := ∀ c, s.merged? = some c → c.objectClash? = none

theorem Accepted.step {m : ModulePath} {s : ModuleState} (h : s.Accepted) (call : Registry.Call) :
    (s.step m call).1.Accepted := by
  cases call with
  | beginModule => cases s <;> exact h
  | declare kind names | declareUnit name header | declareRule file rule | requestLibrary shared =>
    cases s <;> exact h
  | endModule =>
    cases s with
    | opened c =>
      unfold ModuleState.step
      cases hclash : c.objectClash? with
      | some clash =>
        simp only [hclash]
        exact nofun
      | none =>
        simp only [hclash]
        intro c' hc'
        cases hc'
        exact hclash
    | unseen | rejected | merged c => exact h

theorem Accepted.run {m : ModulePath} {s : ModuleState} (h : s.Accepted)
    (calls : List Registry.Call) : (s.run m calls).1.Accepted := by
  induction calls generalizing s with
  | nil => exact h
  | cons call calls ih => exact ih (h.step call)

end ModuleState

/-! ## Declared outputs -/

namespace DeclKind

/-- The language of the names of a kind, of those that are compiled to objects. -/
def language? : DeclKind → Option Language
  | compiledUnit | program | testProgram => some .c
  | fortranUnit | fortranProgram => some .fortran
  | headerUnit | generated => none

/-- Whether names of this kind are linked to executables. -/
def isProgram : DeclKind → Bool
  | program | testProgram | fortranProgram => true
  | headerUnit | compiledUnit | fortranUnit | generated => false

end DeclKind

namespace Plan

/-- The names of a kind. -/
def names (plan : Plan) : DeclKind → List QualifiedName
  | .headerUnit => plan.headers.keys
  | .compiledUnit => plan.units.keys
  | .fortranUnit => plan.fortranUnits.keys
  | .program => plan.programs.keys
  | .testProgram => plan.testPrograms.keys
  | .fortranProgram => plan.fortranPrograms.keys
  | .generated => plan.generated.keys

/-- The sources and headers that a plan declares. -/
inductive Writes (plan : Plan) : Artifact → Prop
  | source {kind : DeclKind} {lang : Language} {q : QualifiedName}
      (hlang : kind.language? = some lang) (hq : q ∈ plan.names kind) :
      plan.Writes (.ofName (.source lang) q)
  | unitHeader {q : QualifiedName} (hq : plan.units.find? q = some true) :
      plan.Writes (.ofName .header q)
  | header {q : QualifiedName} (hq : q ∈ plan.names .headerUnit) : plan.Writes (.ofName .header q)

/-- The programs of a plan, in the order they are added. -/
def programNames (plan : Plan) : List QualifiedName :=
  (ArtifactGraph.programSpecs plan).map (·.name)

/-- The names that are compiled to objects. -/
def objectNames (plan : Plan) : List QualifiedName :=
  plan.units.keys ++ plan.fortranUnits.keys ++ plan.programNames

/-- The generated files that have a rule. -/
def ruledFiles (plan : Plan) : List QualifiedName :=
  (plan.generated.entries.filter (·.2.isSome)).map (·.1)

/-- What is made of the objects of a library. -/
def libraryArtifacts (library : Library) : List Artifact :=
  ArtifactGraph.archiveOf library ::
    if library.shared then [ArtifactGraph.sharedObjectOf library] else []

/-- The outputs of a plan, in the order they are added. -/
def outputArtifacts (plan : Plan) : List Artifact :=
  plan.ruledFiles.map (.ofName .generated) ++ plan.units.keys.map (.ofName .object) ++
    plan.fortranUnits.keys.map (.ofName .object) ++
    plan.libraries.values.flatMap libraryArtifacts ++
    plan.programNames.flatMap fun p => [.ofName .object p, .ofName .executable p]

/-- A plan that declares every object once, and every library in its own module. -/
structure Distinct (plan : Plan) : Prop where
  objects : plan.objectNames.Nodup
  libraries : ∀ m l, plan.libraries.find? m = some l → l.module = m

theorem ofName_injective (kind : ArtifactKind) : Function.Injective (Artifact.ofName kind) := by
  rintro ⟨m, n⟩ ⟨m', n'⟩ h
  cases h
  rfl

theorem module_of_mem_libraryArtifacts {l : Library} {a : Artifact} (h : a ∈ libraryArtifacts l) :
    a.module = l.module := by
  unfold libraryArtifacts at h
  split at h
  · rcases List.mem_pair.mp h with rfl | rfl <;> rfl
  · rw [List.mem_singleton.mp h]
    rfl

theorem kind_of_mem_libraryArtifacts {l : Library} {a : Artifact} (h : a ∈ libraryArtifacts l) :
    a.kind = .archive ∨ a.kind = .sharedObject := by
  unfold libraryArtifacts at h
  split at h
  · rcases List.mem_pair.mp h with rfl | rfl
    · exact .inl rfl
    · exact .inr rfl
  · rw [List.mem_singleton.mp h]
    exact .inl rfl

theorem Distinct.pairwise_libraries {plan : Plan} (h : plan.Distinct) :
    plan.libraries.values.Pairwise fun l l' => l.module ≠ l'.module := by
  refine List.pairwise_map.mpr (plan.libraries.pairwise_entries.imp_of_mem ?_)
  intro e e' he he' hne heq
  have hkey := h.libraries e.1 e.2 (SortedMap.mem_entries_iff.mp he)
  have hkey' := h.libraries e'.1 e'.2 (SortedMap.mem_entries_iff.mp he')
  rw [hkey, hkey'] at heq
  exact hne (heq ▸ Std.ReflCmp.compare_self)

theorem nodup_libraryArtifacts {plan : Plan} (h : plan.Distinct) :
    (plan.libraries.values.flatMap libraryArtifacts).Nodup := by
  refine List.nodup_flatMap.mpr ⟨fun l _ => ?_, ?_⟩
  · unfold libraryArtifacts
    split <;> simp [ArtifactGraph.archiveOf, ArtifactGraph.sharedObjectOf]
  · refine h.pairwise_libraries.imp fun hne a ha ha' => hne ?_
    rw [← module_of_mem_libraryArtifacts ha, module_of_mem_libraryArtifacts ha']

theorem perm_outputArtifacts (plan : Plan) :
    plan.outputArtifacts.Perm (plan.ruledFiles.map (.ofName .generated) ++
      (plan.libraries.values.flatMap libraryArtifacts ++
        (plan.objectNames.map (.ofName .object) ++
          plan.programNames.map (.ofName .executable)))) := by
  have hprograms : (plan.programNames.flatMap fun p =>
      [.ofName .object p, .ofName .executable p]).Perm
      (plan.programNames.map (Artifact.ofName .object) ++
        plan.programNames.map (.ofName .executable)) := by
    have h := List.map_append_flatMap_perm plan.programNames (Artifact.ofName .object)
      fun p => [Artifact.ofName .executable p]
    rw [← List.map_eq_flatMap] at h
    exact h.symm
  unfold outputArtifacts objectNames
  rw [List.map_append, List.map_append]
  simp only [List.append_assoc]
  exact ((((hprograms.append_left _).append_left _).append_left _).trans
    (((List.perm_append_comm_assoc _ _ _).append_left _).trans
      (List.perm_append_comm_assoc _ _ _))).append_left _

theorem mem_outputArtifacts {plan : Plan} {a : Artifact} : a ∈ plan.outputArtifacts ↔
    a ∈ plan.ruledFiles.map (.ofName .generated) ∨
      a ∈ plan.libraries.values.flatMap libraryArtifacts ∨
      a ∈ plan.objectNames.map (.ofName .object) ∨
      a ∈ plan.programNames.map (.ofName .executable) := by
  rw [(perm_outputArtifacts plan).mem_iff, List.mem_append, List.mem_append, List.mem_append]

theorem exists_rule_of_mem_outputArtifacts {plan : Plan} {a : Artifact}
    (h : a ∈ plan.outputArtifacts) (hkind : a.kind = .generated) :
    ∃ file rule, plan.generated.find? file = some (some rule) ∧ a = .ofName .generated file := by
  rcases mem_outputArtifacts.mp h with h | h | h | h
  · obtain ⟨file, hfile, rfl⟩ := List.mem_map.mp h
    obtain ⟨⟨file, rule⟩, hmem, rfl⟩ := List.mem_map.mp hfile
    obtain ⟨hentry, hrule⟩ := List.mem_filter.mp hmem
    obtain ⟨rule, rfl⟩ := Option.isSome_iff_exists.mp hrule
    exact ⟨file, rule, SortedMap.mem_entries_iff.mp hentry, rfl⟩
  · obtain ⟨l, -, hl⟩ := List.mem_flatMap.mp h
    rcases kind_of_mem_libraryArtifacts hl with hlibrary | hlibrary <;>
      exact nomatch hlibrary.symm.trans hkind
  · obtain ⟨q, -, rfl⟩ := List.mem_map.mp h
    cases hkind
  · obtain ⟨q, -, rfl⟩ := List.mem_map.mp h
    cases hkind

theorem Distinct.nodup_outputArtifacts {plan : Plan} (h : plan.Distinct) :
    plan.outputArtifacts.Nodup := by
  have hruled : plan.ruledFiles.Nodup :=
    (List.filter_sublist.map _).nodup plan.generated.nodup_keys
  have hnames : plan.programNames.Nodup := (List.nodup_append.mp h.objects).2.1
  rw [(perm_outputArtifacts plan).nodup_iff]
  -- The four parts are of different kinds, so that it is enough that each lists nothing twice.
  refine List.nodup_append.mpr ⟨hruled.map (ofName_injective _), List.nodup_append.mpr
    ⟨nodup_libraryArtifacts h, List.nodup_append.mpr ⟨h.objects.map (ofName_injective _),
      hnames.map (ofName_injective _), ?_⟩, ?_⟩, ?_⟩
  · intro a ha b hb hab
    obtain ⟨q, -, rfl⟩ := List.mem_map.mp ha
    obtain ⟨q', -, rfl⟩ := List.mem_map.mp hb
    exact nomatch congrArg Artifact.kind hab
  · intro a ha b hb hab
    obtain ⟨l, -, ha⟩ := List.mem_flatMap.mp ha
    rcases kind_of_mem_libraryArtifacts ha with hkind | hkind <;>
      rcases List.mem_append.mp hb with hb | hb <;> obtain ⟨q, -, rfl⟩ := List.mem_map.mp hb <;>
      exact nomatch hkind.symm.trans (congrArg Artifact.kind hab)
  · intro a ha b hb hab
    obtain ⟨q, -, rfl⟩ := List.mem_map.mp ha
    rcases List.mem_append.mp hb with hb | hb
    · obtain ⟨l, -, hb⟩ := List.mem_flatMap.mp hb
      rcases kind_of_mem_libraryArtifacts hb with hkind | hkind <;>
        exact nomatch (congrArg Artifact.kind hab).trans hkind
    · rcases List.mem_append.mp hb with hb | hb <;> obtain ⟨q, -, rfl⟩ := List.mem_map.mp hb <;>
        exact nomatch congrArg Artifact.kind hab

theorem exists_mem_programSpecs {plan : Plan} {kind : DeclKind} {lang : Language}
    {q : QualifiedName} (hprogram : kind.isProgram) (hlang : kind.language? = some lang)
    (hq : q ∈ plan.names kind) :
    ∃ isTest, ⟨q, lang, isTest⟩ ∈ ArtifactGraph.programSpecs plan := by
  unfold ArtifactGraph.programSpecs
  cases kind with
  | program =>
    cases hlang
    exact ⟨false, List.mem_append_left _ (List.mem_append_left _ (List.mem_map_of_mem hq))⟩
  | fortranProgram =>
    cases hlang
    exact ⟨false, List.mem_append_left _ (List.mem_append_right _ (List.mem_map_of_mem hq))⟩
  | testProgram =>
    cases hlang
    exact ⟨true, List.mem_append_right _ (List.mem_map_of_mem hq)⟩
  | headerUnit | compiledUnit | fortranUnit | generated => cases hprogram

/-- What is added as a program is declared as one, in its language. -/
theorem exists_kind_of_mem_programSpecs {plan : Plan} {program : ArtifactGraph.ProgramSpec}
    (h : program ∈ ArtifactGraph.programSpecs plan) : ∃ kind : DeclKind,
      kind.language? = some program.lang ∧ program.name ∈ plan.names kind := by
  rcases List.mem_append.mp h with h | h
  · rcases List.mem_append.mp h with h | h <;> obtain ⟨q, hq, rfl⟩ := List.mem_map.mp h
    · exact ⟨.program, rfl, hq⟩
    · exact ⟨.fortranProgram, rfl, hq⟩
  · obtain ⟨q, hq, rfl⟩ := List.mem_map.mp h
    exact ⟨.testProgram, rfl, hq⟩

theorem names_libraries (plan : Plan) (libraries : SortedMap ModulePath Library) :
    names { plan with libraries } = plan.names := by
  funext kind
  cases kind <;> rfl

theorem nodup_names (plan : Plan) (kind : DeclKind) : (plan.names kind).Nodup := by
  cases kind <;> exact SortedMap.nodup_keys _

theorem objectNames_eq_flatMap (plan : Plan) : plan.objectNames =
    [.compiledUnit, .fortranUnit, .program, .fortranProgram, .testProgram].flatMap plan.names := by
  simp [objectNames, programNames, ArtifactGraph.programSpecs, names, Function.comp_def]

theorem Distinct.disjoint_names {plan : Plan} (h : plan.Distinct) {kind kind' : DeclKind}
    (hkind : kind.producesObject) (hkind' : kind'.producesObject) (hne : kind ≠ kind') :
    (plan.names kind).Disjoint (plan.names kind') := by
  have hnodup := h.objects
  rw [objectNames_eq_flatMap] at hnodup
  have hsymm : Std.Symm (Function.onFun List.Disjoint plan.names) :=
    ⟨fun _ _ h _ hname hname' => h hname' hname⟩
  have hall : ∀ kind : DeclKind, kind.producesObject →
      kind ∈ [DeclKind.compiledUnit, .fortranUnit, .program, .fortranProgram, .testProgram] :=
    fun kind hkind => by cases kind <;> first | decide | cases hkind
  exact (List.nodup_flatMap.mp hnodup).2.forall (hall kind hkind) (hall kind' hkind') hne

end Plan

/-! ## Finished plans -/

namespace Registry

theorem Tracks.mem_names_iff {r : Registry} {project : String} {σ : ModulePath → ModuleState}
    (h : r.Tracks project σ) {kind : DeclKind} {q : QualifiedName} :
    q ∈ r.plan.names kind ↔ ∃ c, (σ q.module).merged? = some c ∧ q.name ∈ c.names kind := by
  have hpart : ∀ {ν : Type} {collection : SortedMap QualifiedName ν}
      {part : Contribution → SortedMap String ν},
      (∀ q, collection.find? q = Plan.contributed (fun m => (σ m).merged?) part q) →
      (q ∈ collection.keys ↔ ∃ c, (σ q.module).merged? = some c ∧ q.name ∈ (part c).keys) := by
    intro ν collection part hcollection
    simp only [SortedMap.mem_keys_iff, hcollection q, Plan.contributed, Option.bind_eq_some_iff]
    constructor
    · rintro ⟨v, c, hc, hv⟩
      exact ⟨c, hc, v, hv⟩
    · rintro ⟨c, hc, v, hv⟩
      exact ⟨v, c, hc, hv⟩
  cases kind with
  | headerUnit => exact hpart h.headers
  | compiledUnit => exact hpart h.units
  | fortranUnit => exact hpart h.fortranUnits
  | program => exact hpart h.programs
  | testProgram => exact hpart h.testPrograms
  | fortranProgram => exact hpart h.fortranPrograms
  | generated => exact hpart h.generated

/-- A plan of modules that were merged without a clash declares every output once. -/
theorem Tracks.distinct {r : Registry} {project : String} {σ : ModulePath → ModuleState}
    (h : r.Tracks project σ) (haccepted : ∀ m, (σ m).Accepted) {naming : LibraryNaming} {plan : Plan}
    (hplan : r.finalize naming = .ok plan) : plan.Distinct := by
  obtain ⟨-, libraries, rfl, hlibraries⟩ := h.eq_of_finalize hplan
  refine ⟨?objects, fun m l hl => ?libraries⟩
  case libraries =>
    rw [hlibraries m] at hl
    obtain ⟨shared, -, rfl⟩ := Option.map_eq_some_iff.mp hl
    rfl
  case objects =>
    rw [Plan.objectNames_eq_flatMap, Plan.names_libraries]
    refine List.nodup_flatMap.mpr ⟨fun kind _ => r.plan.nodup_names kind, ?_⟩
    have hall : ∀ kind ∈ [DeclKind.compiledUnit, .fortranUnit, .program, .fortranProgram,
        .testProgram], kind.producesObject := by decide
    -- A name of two kinds would be declared twice in its module, which was merged without a clash.
    refine List.Nodup.pairwise_of_forall_ne (by decide)
      fun kind hkind kind' hkind' hne q hq hq' => ?_
    obtain ⟨c, hc, hname⟩ := h.mem_names_iff.mp hq
    obtain ⟨c', hc', hname'⟩ := h.mem_names_iff.mp hq'
    cases hc.symm.trans hc'
    exact Contribution.disjoint_names (haccepted _ c hc) (hall kind hkind) (hall kind' hkind') hne
      hname hname'

theorem distinct_of_finalize {project : String} {calls : List (ModulePath × Call)}
    {naming : LibraryNaming} {plan : Plan}
    (h : ((empty project).run calls).1.finalize naming = .ok plan) : plan.Distinct := by
  have haccepted : ModuleState.Accepted .unseen := nofun
  exact (tracks_run (Tracks.empty project) calls).1.distinct (fun _ => haccepted.run _) h

end Registry

end ModularBuild
