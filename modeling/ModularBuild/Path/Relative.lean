import ModularBuild.Path

/-!
# Paths relative to a base

`relativeTo base path` leads from `base` to `path` lexically: the components they share at the front
are dropped, and every component the base has left is appended out of with `..`. A base that goes up
with `..` where the two part cannot be appended out of; then, and when only one of the two is
absolute, the answer is the path itself.
-/

namespace ModularBuild.Path

/-- The components that lead from one list of components to another once the two have parted:
`appended` says that the answer already has a component. -/
def componentsBetween (appended : Bool) : List Component → List Component → Option (List Component)
  | [], target => some target
  | _ :: base, [] => some (.parent :: base.map fun _ => .parent)
  | b :: base, t :: target =>
    if !appended && b == t then componentsBetween false base target
    else if b = .current then (componentsBetween true base target).map (t :: ·)
    else if b = .parent then none
    else some (.parent :: base.map (fun _ => .parent) ++ t :: target)

def relativeTo (base path : Path) : Path :=
  if base.isAbsolute != path.isAbsolute then path
  else match componentsBetween false base.components path.components with
    | some cs => ofComponents cs
    | none => path

end ModularBuild.Path
