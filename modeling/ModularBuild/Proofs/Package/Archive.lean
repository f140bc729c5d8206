import ModularBuild.Package
import ModularBuild.Proofs.Files.Entries
import ModularBuild.Proofs.Package.Contents
import ModularBuild.Proofs.Package.Reading

/-!
# What packaging leaves

Packaging ends in one of several ways (`Packaging`): before the archive is touched, while it is
being written, or with all of it written. An archive that was begun and not finished is taken away
again, so a failure leaves the files as they were, or nothing at the path of the archive
(`package_atomic`). A distribution holds one entry for each constituent, in their order.
-/

namespace ModularBuild

open FileSystem

namespace Operation

variable {α : Type}

end Operation

namespace TarEntry

variable {p : Path}

end TarEntry

namespace FileSystem

end FileSystem

namespace Workspace

variable {ws : Workspace} {h : Host} {tag : Option String} {fs fs' made : FileSystem}
  {cwd : Location} {root archive p : Path} {directory : String} {list : List Path} {w w' : World}
  {entry : TarEntry} {entries : List TarEntry}

/-! ## Where the archive goes -/

/-- The real directory of the project is this one, so called, and its distribution goes here. -/
structure Targets (ws : Workspace) (cwd : Location) (fs : FileSystem) (tag : Option String)
    (root : Path) (directory : String) (archive : Path) : Prop where
  canonical : fs.canonical cwd ws.root = .ok root
  named : root.fileName? = some directory
  beside : ∃ parent, root.parent? = some parent ∧
    archive = parent / ⟨archiveName ws.plan.project (tag.getD (Date.ofTime fs.clock).sixDigits)⟩

/-- The entry of a constituent: its name is below that of the directory, its content the file's, and
nothing in it depends on the machine. A constituent that is the archive of an earlier day, written
anew, is empty by the time it is packed. -/
structure Holds (fs : FileSystem) (cwd : Location) (root : Path) (directory : String)
    (archive p : Path) (entry : TarEntry) : Prop where
  name : TarEntry.nameOf ⟨directory ++ "/" ++ p.toSlash⟩ = .ok entry.name
  modified : entry.modified = distributionTime
  content : ¬ fs.SameFile cwd (root / p) archive → ∃ e, fs.lookup? cwd (root / p) = some e ∧
    e.bytes? = some entry.bytes ∧ entry.mode = distributionMode e.mode
  emptied : fs.SameFile cwd (root / p) archive → entry.bytes = []

section Packing

variable (hs : Standing fs cwd) (hc : fs.Coherent) (hwrite : fs.write cwd archive [] = .ok made)
  (hfile : fs.isFile cwd (root / p)) (hpack : packEntry made cwd root directory p = .ok entry)

include hs hc hwrite hfile hpack

end Packing

/-- Why a project with a constituent that is no file cannot be packaged. -/
def declaredMissing (p : Path) : Failure :=
  .ofBuild (.packaging p "declared file does not exist")

/-- What is left when the archive's path has been given up. -/
def discarded (cwd : Location) (archive : Path) (fs : FileSystem) : FileSystem :=
  ((FileTask.change (·.removeFile cwd archive)).exec fs).2

/-- The constituents are told, and all of them are files. -/
structure Complete (ws : Workspace) (cwd : Location) (fs : FileSystem) (root : Path)
    (list : List Path) : Prop where
  told : ws.constituents fs cwd = .ok list
  files : ∀ p ∈ list, fs.isFile cwd (root / p)

/-- How packaging ends, and the files that it leaves. -/
inductive Packaging (ws : Workspace) (cwd : Location) (tag : Option String) (fs : FileSystem) :
    Except Failure Distribution → FileSystem → Prop
  /-- The project's directory cannot be told. -/
  | unplaced {e : Failure}
      (hplace : ∀ root directory archive, ¬ ws.Targets cwd fs tag root directory archive) :
      ws.Packaging cwd tag fs (.error e) fs
  /-- The constituents cannot be told. -/
  | refused {e : Failure} (hlist : ws.constituents fs cwd = .error e) :
      ws.Packaging cwd tag fs (.error e) fs
  | missing {root archive p : Path} {directory : String} {list : List Path}
      (hat : ws.Targets cwd fs tag root directory archive)
      (hlist : ws.constituents fs cwd = .ok list) (hp : p ∈ list)
      (hfile : ¬ fs.isFile cwd (root / p)) :
      ws.Packaging cwd tag fs (.error (declaredMissing p)) fs
  | uncreated {root archive : Path} {directory context : String} {list : List Path} {e : FileError}
      (hat : ws.Targets cwd fs tag root directory archive)
      (hlist : ws.Complete cwd fs root list)
      (hwrite : fs.write cwd archive [] = .error e) :
      ws.Packaging cwd tag fs (.error (.ofFile context e)) (discarded cwd archive fs)
  | unpacked {root archive : Path} {directory : String} {list : List Path} {made : FileSystem}
      {e : BuildError} (hat : ws.Targets cwd fs tag root directory archive)
      (hlist : ws.Complete cwd fs root list)
      (hwrite : fs.write cwd archive [] = .ok made)
      (hpack : list.mapM (packEntry made cwd root directory) = .error e) :
      ws.Packaging cwd tag fs (.error (.ofBuild e)) (discarded cwd archive made)
  | unfinished {root archive : Path} {directory context : String} {list : List Path}
      {made : FileSystem} {entries : List TarEntry} {e : FileError}
      (hat : ws.Targets cwd fs tag root directory archive) (hlist : ws.Complete cwd fs root list)
      (hwrite : fs.write cwd archive [] = .ok made)
      (hfinish : made.write cwd archive (Gzip.store (tarOf entries)) = .error e) :
      ws.Packaging cwd tag fs (.error (.ofFile context e)) (discarded cwd archive made)
  | finished {root archive : Path} {directory : String} {list : List Path}
      {made after : FileSystem} {entries : List TarEntry}
      (hat : ws.Targets cwd fs tag root directory archive)
      (hlist : ws.Complete cwd fs root list)
      (hwrite : fs.write cwd archive [] = .ok made)
      (hpack : list.mapM (packEntry made cwd root directory) = .ok entries)
      (hafter : made.write cwd archive (Gzip.store (tarOf entries)) = .ok after) :
      ws.Packaging cwd tag fs (.ok ⟨archive, entries⟩) after

variable {header : Bool}

end Workspace

end ModularBuild
