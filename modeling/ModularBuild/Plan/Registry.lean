import ModularBuild.Naming
import ModularBuild.Plan.Basic
import ModularBuild.Plan.Error

/-!
# The registry of modules

Modules are opened, declare what they have, and are closed; closing a module merges its declarations
into the plan. A registry is driven by calls, and a call that fails still yields the registry after
it, so a run of calls is a fold of `step`.
-/

namespace ModularBuild

structure Registry where
  plan : Plan
  /-- Modules that are open, with what they have declared so far. -/
  opened : SortedMap ModulePath Contribution := ∅
  /-- Every module ever opened. -/
  seen : SortedSet ModulePath := ∅
  /-- Closed modules that asked for a library, with whether it is shared. -/
  libraryRequests : SortedMap ModulePath Bool := ∅
deriving DecidableEq, Inhabited

namespace Registry

/-- One thing to ask of a registry, about one module. -/
inductive Call where
  | beginModule
  | declare (kind : DeclKind) (names : List String)
  | declareUnit (name : String) (header : Bool)
  | declareRule (file : String) (rule : GeneratedRule)
  | requestLibrary (shared : Bool)
  | endModule
deriving DecidableEq, Repr

/-- A registry after a call, and how the call ended. -/
abbrev Step := Registry × Except PlanError Unit

def empty (project : String) : Registry := { plan := { project } }

def beginModule (r : Registry) (module : ModulePath) : Step :=
  if r.seen.contains module then (r, .error (.duplicateModule module))
  else
    ({ r with seen := r.seen.insert module (), opened := r.opened.insert module {} }, .ok ())

def modifyOpened (r : Registry) (module : ModulePath) (f : Contribution → Contribution) : Step :=
  match r.opened.find? module with
  | some c => ({ r with opened := r.opened.insert module (f c) }, .ok ())
  | none => (r, .error (.unopenedModule module))

/-- Closes a module. It is open no longer even if two of its declarations clash. -/
def endModule (r : Registry) (module : ModulePath) : Step :=
  match r.opened.find? module with
  | none => (r, .error (.unopenedModule module))
  | some c =>
    let closed := { r with opened := r.opened.erase module }
    match c.objectClash? with
    | some clash => (closed, .error (.objectNameClash module clash))
    | none =>
      let requests :=
        if c.library then closed.libraryRequests.insert module c.sharedLibrary
        else closed.libraryRequests
      ({ closed with libraryRequests := requests, plan := closed.plan.merge module c }, .ok ())

def step (r : Registry) (module : ModulePath) : Call → Step
  | .beginModule => r.beginModule module
  | .declare kind names => r.modifyOpened module (·.declareAll kind names)
  | .declareUnit name header => r.modifyOpened module (·.declareUnit name header)
  | .declareRule file rule => r.modifyOpened module (·.declareRule file rule)
  | .requestLibrary shared => r.modifyOpened module (·.requestLibrary shared)
  | .endModule => r.endModule module

/-- Makes calls about one module until one fails. -/
def stepAll (r : Registry) (module : ModulePath) : List Call → Step
  | [] => (r, .ok ())
  | call :: calls =>
    match r.step module call with
    | (r', .ok ()) => stepAll r' module calls
    | failed => failed

/-- Makes calls about any modules, going on after a failure, and collects how each ended. -/
def run (r : Registry) : List (ModulePath × Call) → Registry × List (Except PlanError Unit)
  | [] => (r, [])
  | (module, call) :: calls =>
    let (r', result) := r.step module call
    let (r'', results) := run r' calls
    (r'', result :: results)

/-- The finished plan, unless a module is still open. Libraries are named here. -/
def finalize (r : Registry) (naming : LibraryNaming) : Except PlanError Plan :=
  match r.opened.keys with
  | module :: _ => .error (.unclosedModule module)
  | [] =>
    .ok (r.libraryRequests.entries.foldl
      (fun plan (module, shared) => plan.addLibrary ⟨module, naming.libraryName module, shared⟩)
      r.plan)

end Registry

end ModularBuild
