import ModularBuild.Artifact
import ModularBuild.Failure
import ModularBuild.Text.CharClass
import ModularBuild.Toml.Document
import ModularBuild.Toml.Value

/-!
# The project manifest

`Stratum.toml` names the project and its modules, and may say which extensions sources have, where
to install, and what else to ship. The manifest of a project is the nearest one at or above the
working directory.
-/

namespace ModularBuild

structure ProjectManifest where
  name : String
  /-- Module directories, relative to the project root. -/
  modules : List String := []
  extensions : SourceExtensions := {}
  /-- Where to install; a relative path is taken from the project root. -/
  installPrefix : Option Path := none
  /-- A command that is run in the project root after an installation. -/
  postInstallHook : List String := []
  /-- More files and directories to ship, relative to the project root. -/
  extra : List String := []
deriving DecidableEq, Inhabited

namespace ProjectManifest

open Toml

def fileName : String := "Stratum.toml"

/-- Why a text is no project manifest. -/
inductive ParseError where
  | malformed
  | blankName
deriving DecidableEq, Repr

structure ProjectSection where
  name : String
  modules : List String

def projectSection : Decoder ProjectSection := fun v => do
  let r ← Record.ofValue? .strict ["name", "modules"] v
  return ⟨← r.required "name" .string, ← r.get "modules" .strings []⟩

def sourcesSection : Decoder SourceExtensions := fun v => do
  let r ← Record.ofValue? .lenient ["c", "header", "fortran"] v
  let standard : SourceExtensions := {}
  return ⟨← r.get "c" .string standard.c, ← r.get "header" .string standard.header,
    ← r.get "fortran" .string standard.fortran⟩

structure InstallSection where
  destination : Option Path := none
  hook : List String := []

def installSection : Decoder InstallSection := fun v => do
  let r ← Record.ofValue? .strict ["prefix", "post_install_hook"] v
  return ⟨← r.get "prefix" (fun v => (Decoder.string v).map fun s => some ⟨s⟩) none,
    ← r.get "post_install_hook" .strings []⟩

def distSection : Decoder (List String) := fun v => do
  let r ← Record.ofValue? .strict ["extra"] v
  r.get "extra" .strings []

def decode : Decoder ProjectManifest := fun v => do
  let r ← Record.ofValue? .strict ["project", "sources", "install", "dist"] v
  let project ← r.required "project" projectSection
  let install ← r.get "install" installSection {}
  return {
    name := project.name
    modules := project.modules
    extensions := ← r.get "sources" sourcesSection {}
    installPrefix := install.destination
    postInstallHook := install.hook
    extra := ← r.get "dist" distSection [] }

def parse (text : String) : Except ParseError ProjectManifest :=
  match (Toml.parse? text).bind decode with
  | none => .error .malformed
  | some m => if Text.isBlank m.name then .error .blankName else .ok m

def modulePaths (m : ProjectManifest) : List ModulePath := m.modules.map .ofString

/-! ## Finding the manifest -/

/-- The manifest nearest to a directory, going up; `isFile` says which paths are files. -/
def find? (isFile : Path → Bool) (cwd : Path) : Option Path :=
  (cwd.ancestors.map (· / ⟨fileName⟩)).find? isFile

/-- The manifest nearest to a directory, or why there is none. -/
def locate (isFile : Path → Bool) (cwd : Path) : Except Failure Path :=
  match find? isFile cwd with
  | some p => .ok p
  | none =>
    let message := s!"could not find `{fileName}` in `{cwd.text}` or any parent directory"
    .error { cause := .other message }

end ProjectManifest

end ModularBuild
