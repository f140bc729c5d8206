import ModularBuild.Module.Path
import ModularBuild.Path
import ModularBuild.Text.Json

/-!
# Artifacts and their files

An artifact is a kind of file, the module it belongs to and its declared name; the name is not yet a
file name. `FileNames` turns an artifact into its file name, its project-relative path and the
shorthand it can be built by.
-/

namespace ModularBuild

inductive Language where
  /-- C or C++. -/
  | c
  | fortran
deriving DecidableEq, Repr, Inhabited

def Language.name : Language → String
  | c => "c"
  | fortran => "fortran"

inductive ArtifactKind where
  | source (lang : Language)
  | header
  | object
  | archive
  | sharedObject
  | executable
  | generated
deriving DecidableEq, Repr, Inhabited

namespace ArtifactKind

def title : ArtifactKind → String
  | source .c => "Source(C)"
  | source .fortran => "Source(Fortran)"
  | header => "Header"
  | object => "Object"
  | archive => "Archive"
  | sharedObject => "SharedObject"
  | executable => "Executable"
  | generated => "Generated"

def toJson : ArtifactKind → Json
  | source lang => .obj [("source", .str lang.name)]
  | header => .str "header"
  | object => .str "object"
  | archive => .str "archive"
  | sharedObject => .str "shared_object"
  | executable => .str "executable"
  | generated => .str "generated"

/-- Whether files of this kind are made by the build rather than written by hand. -/
def isOutput : ArtifactKind → Bool
  | source _ | header => false
  | object | archive | sharedObject | executable | generated => true

def hasShorthand : ArtifactKind → Bool
  | archive | sharedObject | executable | generated => true
  | source _ | header | object => false

end ArtifactKind

structure Artifact where
  kind : ArtifactKind
  module : ModulePath
  name : String
deriving DecidableEq, Repr, Inhabited

namespace Artifact

def ofName (kind : ArtifactKind) (q : QualifiedName) : Artifact := ⟨kind, q.module, q.name⟩

def toString (a : Artifact) : String :=
  a.kind.title ++ " " ++ QualifiedName.toString ⟨a.module, a.name⟩

instance : ToString Artifact := ⟨toString⟩

def toJson (a : Artifact) : Json :=
  .obj [("kind", a.kind.toJson), ("module", .str a.module.text), ("name", .str a.name)]

end Artifact

/-- A base name between what comes before and after it. -/
def affixed (before base after : String) : String := before ++ base ++ after

/-- What an executable's name ends in on the host. -/
def hostExeSuffix : String := ""

/-- Extensions of the files that are written by hand. -/
structure SourceExtensions where
  c : String := "cpp"
  header : String := "h"
  fortran : String := "f90"
deriving DecidableEq, Repr, Inhabited

/-- How artifacts are named on disk. -/
structure FileNames where
  extensions : SourceExtensions := {}
  exeSuffix : String := hostExeSuffix
deriving DecidableEq, Repr, Inhabited

namespace FileNames

/-- A dot and the extension; an empty extension adds nothing. -/
def dotted (extension : String) : String := if extension = "" then "" else "." ++ extension

/-- The file name of an artifact, without its module's directory. -/
def fileName (f : FileNames) (a : Artifact) : String :=
  match a.kind with
  | .source .c => affixed "" a.name (dotted f.extensions.c)
  | .source .fortran => affixed "" a.name (dotted f.extensions.fortran)
  | .header => affixed "" a.name (dotted f.extensions.header)
  | .object => affixed "" a.name ".o"
  | .archive => affixed "lib" a.name ".a"
  | .sharedObject => affixed "lib" a.name ".so"
  | .executable => affixed "" a.name f.exeSuffix
  | .generated => a.name

def path (f : FileNames) (a : Artifact) : Path := a.module.pathOf (f.fileName a)

/-- What stands after the last slash of the file name. -/
def baseName (f : FileNames) (a : Artifact) : String :=
  String.ofList ((f.fileName a).toList.reverse.takeWhile (· ≠ '/')).reverse

end FileNames

end ModularBuild
