import ModularBuild.Process.Machine

/-!
# Questions about files

The questions that `test` can ask of a path, by their letters, and of two paths.
-/

namespace ModularBuild.FileTest

def sizeOf (e : FileEntry) : Nat :=
  match e.content with
  | .file bytes => bytes.length
  | .directory => 4096
  | .link target => target.text.utf8ByteSize
  | .device _ => 0

def letters : List Char := "bcdefgGhkLNOprsSuwx".toList

def holds (files : FileSystem) (cwd : Location) (letter : Char) (path : String) : Bool :=
  let p := ByteText.path path
  let target := files.lookup? cwd p
  let isDevice (e : FileEntry) : Bool := match e.content with
    | .device _ => true
    | _ => false
  let isFile (e : FileEntry) : Bool := match e.content with
    | .file _ => true
    | _ => false
  match letter with
  | 'e' => target.isSome
  | 'f' => target.any isFile
  | 'd' => target.any (·.content = .directory)
  | 'c' => target.any isDevice
  | 'h' | 'L' => files.isLink cwd p
  | 's' => target.any (0 < sizeOf ·)
  | 'r' => target.any (·.mayRead)
  | 'w' => target.any (·.mayWrite)
  | 'x' => target.any (·.mayExecute)
  | 'O' | 'G' => target.any (·.own)
  | 'u' => target.any (·.mode &&& 0o4000 ≠ 0)
  | 'g' => target.any (·.mode &&& 0o2000 ≠ 0)
  | 'k' => target.any (·.mode &&& 0o1000 ≠ 0)
  | 'N' => target.isSome
  | _ => false

def same (files : FileSystem) (cwd : Location) (a b : String) : Bool :=
  match files.lookup cwd (ByteText.path a), files.lookup cwd (ByteText.path b) with
  | .ok (l, d), .ok (k, e) => l = k || (d.twin.isSome && d.twin = e.twin)
  | _, _ => false

def modified? (files : FileSystem) (cwd : Location) (path : String) : Option Time :=
  files.modified? cwd (ByteText.path path)

end ModularBuild.FileTest
