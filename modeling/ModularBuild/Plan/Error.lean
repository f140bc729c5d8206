import ModularBuild.Module.Contribution
import ModularBuild.Module.Path

/-!
# What can be wrong with a plan

Everything here is found before any action of a build runs.
-/

namespace ModularBuild

inductive PlanError where
  | duplicateModule (path : ModulePath)
  | unopenedModule (path : ModulePath)
  | unclosedModule (path : ModulePath)
  | unknownModule (path : ModulePath)
  | objectNameClash (module : ModulePath) (clash : Contribution.ObjectClash)
  | aliasCollision (shorthand first second : String)
  | inputOutsideProject (artifact input : String)
  | dependencyCycle (artifact : String)
deriving DecidableEq, Repr

namespace PlanError

def message : PlanError → String
  | duplicateModule path => s!"module `{path}` is declared more than once"
  | unopenedModule path => s!"module `{path}` was never opened"
  | unclosedModule path => s!"module `{path}` was opened but never closed"
  | unknownModule path => s!"module `{path}` is not listed in the project"
  | objectNameClash module clash =>
    s!"`{clash.name}` in module `{module}` is declared as both {clash.first.description} and "
      ++ clash.second.description
  | aliasCollision shorthand first second =>
    s!"shorthand `{shorthand}` would refer to both `{first}` and `{second}`"
  | inputOutsideProject artifact input =>
    s!"input `{input}` of `{artifact}` is outside the project"
  | dependencyCycle artifact => s!"generated-file rules form a cycle through `{artifact}`"

/-- The stable identifier of the kind of error. -/
def code : PlanError → String
  | duplicateModule _ => "stratum::plan::duplicate_module"
  | unopenedModule _ => "stratum::plan::unopened_module"
  | unclosedModule _ => "stratum::plan::unclosed_module"
  | unknownModule _ => "stratum::plan::unknown_module"
  | objectNameClash _ _ => "stratum::plan::object_name_clash"
  | aliasCollision _ _ _ => "stratum::plan::alias_collision"
  | inputOutsideProject _ _ => "stratum::plan::input_outside_project"
  | dependencyCycle _ => "stratum::plan::dependency_cycle"

/-- Advice on how to mend it. -/
def help? : PlanError → Option String
  | duplicateModule _ => some "remove the repeated entry from `modules` in Stratum.toml"
  | unknownModule _ => some "run `stratum report` to list the project's modules"
  | objectNameClash _ _ =>
    some "units and programs of one module share `<name>.o`; rename one of them"
  | aliasCollision _ _ _ => some "rename one of the artifacts, or build it by its full path"
  | inputOutsideProject _ _ =>
    some "rule inputs are relative to their module and may not climb above the project root"
  | unopenedModule _ | unclosedModule _ | dependencyCycle _ => none

end PlanError

end ModularBuild
