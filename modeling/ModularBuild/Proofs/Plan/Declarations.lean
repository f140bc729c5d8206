import ModularBuild.Plan.Registry
import ModularBuild.Proofs.SortedMap
import Mathlib.Data.List.Induction

/-!
# What a module's calls declare

The calls about an open module make up a contribution, one after the other (`Contribution.ofCalls`).
Here its parts are read off the calls directly: a name is declared if some call declares it, the
header flag and the rule of a name are those of the newest call that gives one, and a library is
shared if some request was for a shared one.
-/

namespace ModularBuild

/-! ## Calls -/

namespace Registry.Call

/-- What a call makes of the declarations of an open module. Opening and closing declare nothing. -/
def change (c : Contribution) : Call → Contribution
  | .beginModule | .endModule => c
  | .declare kind names => c.declareAll kind names
  | .declareUnit name header => c.declareUnit name header
  | .declareRule file rule => c.declareRule file rule
  | .requestLibrary shared => c.requestLibrary shared

/-- A call declares a name under a kind. -/
def Declares (kind : DeclKind) (name : String) : Call → Prop
  | .declare kind' names => kind = kind' ∧ name ∈ names
  | .declareUnit unit _ => kind = .compiledUnit ∧ name = unit
  | .declareRule file _ => kind = .generated ∧ name = file
  | .beginModule | .requestLibrary _ | .endModule => False

instance (kind : DeclKind) (name : String) : DecidablePred (Declares kind name)
  | .declare _ _ | .declareUnit _ _ | .declareRule _ _ => inferInstanceAs (Decidable (_ ∧ _))
  | .beginModule | .requestLibrary _ | .endModule => inferInstanceAs (Decidable False)

/-- Whether a unit has a header, where a call says so. -/
def header? (unit : String) : Call → Option Bool
  | .declare .compiledUnit names => if unit ∈ names then some true else none
  | .declareUnit name header => if unit = name then some header else none
  | _ => none

/-- The rule of a file, where a call gives one. -/
def rule? (file : String) : Call → Option GeneratedRule
  | .declareRule name rule => if file = name then some rule else none
  | _ => none

theorem rule?_eq_none {file : String} {call : Call} (h : ¬ call.Declares .generated file) :
    call.rule? file = none := by
  cases call with
  | declareRule name rule => exact if_neg fun hname => h ⟨rfl, hname⟩
  | beginModule | endModule | declare | declareUnit | requestLibrary => rfl

/-- What the newest call says that says anything. -/
def newest? {α : Type} (said? : Call → Option α) (calls : List Call) : Option α :=
  calls.reverse.findSome? said?

theorem newest?_append_singleton {α : Type} (said? : Call → Option α) (calls : List Call)
    (call : Call) : newest? said? (calls ++ [call]) = (said? call).or (newest? said? calls) := by
  rw [newest?, List.reverse_append, List.reverse_singleton, List.singleton_append,
    List.findSome?_cons]
  cases said? call <;> rfl

end Registry.Call

/-! ## Contributions -/

namespace Contribution

open Registry (Call)
open Registry.Call (newest?)

variable {c : Contribution} {kind kind' : DeclKind} {name : String}

theorem mem_names_declare {name' : String} :
    name' ∈ (c.declare kind name).names kind' ↔
      kind' = kind ∧ name' = name ∨ name' ∈ c.names kind' := by
  cases kind <;> cases kind' <;>
    simp [declare, names, SortedMap.mem_keys_insert, SortedMap.mem_keys_insertIfNew]

theorem mem_names_declareAll {names : List String} :
    name ∈ (c.declareAll kind names).names kind' ↔
      kind' = kind ∧ name ∈ names ∨ name ∈ c.names kind' := by
  induction names generalizing c with
  | nil => simp [declareAll]
  | cons first names ih =>
    show name ∈ ((c.declare kind first).declareAll kind names).names kind' ↔ _
    rw [ih, mem_names_declare, List.mem_cons, and_or_left, or_assoc, or_left_comm]

theorem mem_names_change {call : Call} :
    name ∈ (call.change c).names kind ↔ call.Declares kind name ∨ name ∈ c.names kind := by
  cases call with
  | beginModule | endModule => simp [Call.change, Call.Declares]
  | declare kind' names => exact mem_names_declareAll
  | declareUnit unit header =>
    cases kind <;> simp [Call.change, Call.Declares, declareUnit, names, SortedMap.mem_keys_insert]
  | declareRule file rule =>
    cases kind <;> simp [Call.change, Call.Declares, declareRule, names, SortedMap.mem_keys_insert]
  | requestLibrary shared =>
    cases kind <;> simp [Call.change, Call.Declares, requestLibrary, names]

theorem library_declareAll {names : List String} :
    (c.declareAll kind names).library = c.library ∧
      (c.declareAll kind names).sharedLibrary = c.sharedLibrary := by
  induction names generalizing c with
  | nil => exact ⟨rfl, rfl⟩
  | cons first names ih =>
    obtain ⟨hlibrary, hshared⟩ := ih (c := c.declare kind first)
    constructor
    · exact hlibrary.trans (by cases kind <;> rfl)
    · exact hshared.trans (by cases kind <;> rfl)

theorem find?_units_declareAll {names : List String} :
    (c.declareAll kind names).units.find? name =
      if kind = .compiledUnit ∧ name ∈ names then some true else c.units.find? name := by
  induction names generalizing c with
  | nil => simp [declareAll]
  | cons first names ih =>
    show ((c.declare kind first).declareAll kind names).units.find? name = _
    rw [ih]
    cases kind <;> simp only [declare, SortedMap.find?_insert_eq_ite, List.mem_cons] <;> grind

theorem find?_units_change {call : Call} :
    (call.change c).units.find? name = (call.header? name).or (c.units.find? name) := by
  cases call with
  | beginModule | endModule | declareRule | requestLibrary => rfl
  | declare kind names =>
    rw [Call.change, find?_units_declareAll]
    cases kind <;> simp [Call.header?]
    split <;> simp
  | declareUnit unit header =>
    rw [Call.change, declareUnit, SortedMap.find?_insert_eq_ite, Call.header?]
    split <;> rfl

theorem find?_generated_declareAll {names : List String} :
    (c.declareAll kind names).generated.find? name =
      if kind = .generated ∧ name ∈ names then some (c.generated.find? name).join
      else c.generated.find? name := by
  induction names generalizing c with
  | nil => simp [declareAll]
  | cons first names ih =>
    show ((c.declare kind first).declareAll kind names).generated.find? name = _
    rw [ih]
    by_cases hkind : kind = .generated
    · subst hkind
      show (if _ then some ((c.generated.insertIfNew first none).find? name).join
        else (c.generated.insertIfNew first none).find? name) = _
      rw [SortedMap.find?_insertIfNew]
      by_cases hname : name = first
      · subst hname
        cases c.generated.find? name <;> simp
      · simp [hname]
    · have hsame : (c.declare kind first).generated = c.generated := by
        cases kind <;> first | rfl | exact absurd rfl hkind
      simp [hkind, hsame]

theorem find?_generated_change {call : Call} :
    (call.change c).generated.find? name =
      if call.Declares .generated name then some ((call.rule? name).or (c.generated.find? name).join)
      else c.generated.find? name := by
  cases call with
  | beginModule | endModule | requestLibrary => rfl
  | declare kind names =>
    rw [Call.change, find?_generated_declareAll]
    simp only [Call.Declares, Call.rule?, Option.none_or, eq_comm]
  | declareUnit unit header => simp [Call.change, Call.Declares, declareUnit]
  | declareRule file rule =>
    rw [Call.change, declareRule, SortedMap.find?_insert_eq_ite]
    by_cases hname : name = file <;> simp [Call.Declares, Call.rule?, hname]

/-! ## Runs of calls -/

/-- What calls declare, one after the other. -/
def ofCalls (calls : List Call) : Contribution := calls.foldl Call.change {}

variable {calls : List Call}

theorem ofCalls_append_singleton (call : Call) :
    ofCalls (calls ++ [call]) = call.change (ofCalls calls) := by
  rw [ofCalls, List.foldl_append]
  rfl

theorem mem_names_ofCalls :
    name ∈ (ofCalls calls).names kind ↔ ∃ call ∈ calls, call.Declares kind name := by
  induction calls using List.reverseRecOn with
  | nil => cases kind <;> exact ⟨nofun, nofun⟩
  | append_singleton calls call ih =>
    rw [ofCalls_append_singleton, mem_names_change, ih]
    simp only [List.mem_append, List.mem_singleton, or_and_right, exists_or, exists_eq_left]
    exact or_comm

theorem find?_units_ofCalls :
    (ofCalls calls).units.find? name = newest? (·.header? name) calls := by
  induction calls using List.reverseRecOn with
  | nil => rfl
  | append_singleton calls call ih =>
    rw [ofCalls_append_singleton, find?_units_change, ih, Call.newest?_append_singleton]

theorem find?_generated_ofCalls :
    (ofCalls calls).generated.find? name =
      if ∃ call ∈ calls, call.Declares .generated name then some (newest? (·.rule? name) calls)
      else none := by
  induction calls using List.reverseRecOn with
  | nil => rfl
  | append_singleton calls call ih =>
    have hdeclared : (∃ x ∈ calls ++ [call], x.Declares .generated name) ↔
        (∃ x ∈ calls, x.Declares .generated name) ∨ call.Declares .generated name := by
      simp only [List.mem_append, List.mem_singleton, or_and_right, exists_or, exists_eq_left]
    rw [ofCalls_append_singleton, find?_generated_change, ih, Call.newest?_append_singleton]
    by_cases hcall : call.Declares .generated name
    · rw [if_pos hcall, if_pos (hdeclared.mpr (.inr hcall))]
      by_cases hcalls : ∃ x ∈ calls, x.Declares .generated name
      · rw [if_pos hcalls, Option.join_some]
      · -- Whatever gives a rule declares the file.
        have hnone : newest? (·.rule? name) calls = none :=
          List.findSome?_eq_none_iff.mpr fun x hx =>
            Call.rule?_eq_none fun hdeclares => hcalls ⟨x, List.mem_reverse.mp hx, hdeclares⟩
        rw [if_neg hcalls, hnone, Option.join_none]
    · rw [if_neg hcall, Call.rule?_eq_none hcall, Option.none_or]
      simp only [hdeclared, hcall, or_false]

theorem library_ofCalls :
    (ofCalls calls).library ↔ ∃ shared, .requestLibrary shared ∈ calls := by
  induction calls using List.reverseRecOn with
  | nil => exact ⟨nofun, nofun⟩
  | append_singleton calls call ih =>
    rw [ofCalls_append_singleton]
    simp only [List.mem_append, List.mem_singleton, exists_or, ← ih]
    cases call with
    | requestLibrary shared => simp [Call.change, requestLibrary]
    | beginModule | endModule | declareUnit | declareRule =>
      simp [Call.change, declareUnit, declareRule]
    | declare kind names => simp [Call.change, library_declareAll]

theorem sharedLibrary_ofCalls :
    (ofCalls calls).sharedLibrary ↔ .requestLibrary true ∈ calls := by
  induction calls using List.reverseRecOn with
  | nil => exact ⟨nofun, nofun⟩
  | append_singleton calls call ih =>
    rw [ofCalls_append_singleton]
    simp only [List.mem_append, List.mem_singleton, ← ih]
    cases call with
    | requestLibrary shared => simp [Call.change, requestLibrary]
    | beginModule | endModule | declareUnit | declareRule =>
      simp [Call.change, declareUnit, declareRule]
    | declare kind names => simp [Call.change, library_declareAll]

end Contribution

end ModularBuild
