import ModularBuild.Files.Error
import ModularBuild.Plan.Error

/-!
# Failures

What can go wrong in a build, an installation or a package, and why an operation failed: a cause, and
what was being done when it arose, outermost first. The message joins all of it with colons.
-/

namespace ModularBuild

/-! ## Errors of builds, installations and packages -/

inductive BuildError where
  | missingArtifact (path : Path)
  /-- A command failed, or could not be started; `output` is what it printed. -/
  | actionFailed (artifact command output : String)
  | dependencyFailed (artifact dependency : String)
  | unknownTarget (name : String)
  | installTarget (path : Path) (reason : String)
  | packaging (path : Path) (reason : String)
deriving DecidableEq, Repr

namespace BuildError

def message : BuildError → String
  | missingArtifact path => s!"`{path.text}` does not exist"
  | actionFailed artifact command output =>
    s!"failed to build `{artifact}`\n  command: {command}\n{output}"
  | dependencyFailed artifact dependency =>
    s!"skipped `{artifact}` because `{dependency}` failed"
  | unknownTarget name => s!"no target named `{name}`"
  | installTarget path reason => s!"cannot install into `{path.text}`: {reason}"
  | packaging path reason => s!"cannot package `{path.text}`: {reason}"

/-- The stable identifier of the kind of error. -/
def code : BuildError → String
  | missingArtifact _ => "stratum::build::missing_artifact"
  | actionFailed _ _ _ => "stratum::build::action_failed"
  | dependencyFailed _ _ => "stratum::build::dependency_failed"
  | unknownTarget _ => "stratum::build::unknown_target"
  | installTarget _ _ => "stratum::install::target"
  | packaging _ _ => "stratum::package::constituent"

/-- Advice on how to mend it. -/
def help? : BuildError → Option String
  | missingArtifact _ => some "check the declarations in the owning module.toml"
  | unknownTarget _ =>
    some ("use an aggregate (all, libraries, programs, programs-test, generated), a shorthand "
      ++ "name, or a project-relative path")
  | actionFailed _ _ _ | dependencyFailed _ _ | installTarget _ _ | packaging _ _ => none

/-- The artifact, target or path the error is about. -/
def artifact : BuildError → String
  | missingArtifact path | installTarget path _ | packaging path _ => path.text
  | actionFailed artifact _ _ | dependencyFailed artifact _ => artifact
  | unknownTarget name => name

end BuildError

/-! ## Causes and contexts -/

inductive Cause where
  | plan (e : PlanError)
  | build (e : BuildError)
  /-- A text that is no TOML, or does not say what was expected. -/
  | toml
  | file (e : FileError)
  /-- A directory that could not be walked. -/
  | walk
  | other (message : String)
deriving DecidableEq, Repr

namespace Cause

def message : Cause → String
  | plan e => e.message
  | build e => e.message
  | toml => "TOML parse error"
  | file e => e.message
  | walk => "a link leads nowhere or in a circle"
  | other message => message

/-- Advice on how to mend it. -/
def help? : Cause → Option String
  | plan e => e.help?
  | build e => e.help?
  | toml | file _ | walk | other _ => none

end Cause

structure Failure where
  contexts : List String := []
  cause : Cause
deriving DecidableEq, Repr

namespace Failure

def message (f : Failure) : String := ": ".intercalate (f.contexts ++ [f.cause.message])

/-- Says what was being done. -/
def within (context : String) (f : Failure) : Failure :=
  { f with contexts := context :: f.contexts }

def ofPlan (e : PlanError) : Failure := { cause := .plan e }

def ofBuild (e : BuildError) : Failure := { cause := .build e }

def ofWalk (dir : Path) : Failure := ⟨[s!"failed to walk directory: {dir.text}"], .walk⟩

def ofFile (context : String) (e : FileError) : Failure :=
  { contexts := [context], cause := .file e }

end Failure

end ModularBuild
