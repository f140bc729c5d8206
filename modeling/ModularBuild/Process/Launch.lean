import ModularBuild.Process.Command
import ModularBuild.Process.Machine

/-!
# Starting programs

A file that begins with `#!` is a script: the rest of its first line names the program that runs it,
with at most one argument. A program is looked for by name in the directories of the search path.
-/

namespace ModularBuild

structure Interpreter where
  program : String
  argument : Option String
deriving DecidableEq, Repr

namespace Interpreter

def headSize : Nat := 256

def isBlank (c : Char) : Bool := c = ' ' || c = '\t'

def isEnd (c : Char) : Bool := isBlank c || c = '\x00'

/-- The line that names the program, without `#!`. A line that does not end within the head of the
script counts as far as the head goes, if the name of the program does end there. -/
def line? (head : List Char) : Option (List Char) :=
  if head.contains '\n' then some (head.takeWhile (· ≠ '\n'))
  else
    let padded := (head ++ List.replicate headSize '\x00').take (headSize - 3)
    let named := padded.dropWhile isBlank
    if named.isEmpty || !named.any isEnd then none else some padded

/-- Reads the head of a file; none if it is no script. -/
def ofBytes? (bytes : List UInt8) : Option Interpreter := do
  match ((ByteText.ofBytes (bytes.take headSize))).toList with
  | '#' :: '!' :: rest =>
    let line ← line? rest
    let line := ((line.reverse.dropWhile isBlank).reverse).dropWhile isBlank
    if line.isEmpty then none
    else
      let program := line.takeWhile (!isEnd ·)
      let rest := line.drop program.length
      let argument := match rest with
        | c :: _ => if c = '\x00' then [] else (rest.dropWhile isBlank).takeWhile (· ≠ '\x00')
        | [] => []
      return ⟨String.ofList program,
        if argument.isEmpty then none else some (String.ofList argument)⟩
  | _ => none

end Interpreter

namespace Launcher

def programAt (files : FileSystem) (cwd : Location) (path : String) :
    Except FileError (List UInt8) := do
  let (_, e) ← files.lookup cwd (ByteText.path path)
  match e.content with
  | .file bytes => if e.mayExecute then return bytes else throw .permission
  | _ => throw .permission

/-- How often the program that runs a script can be a script itself. -/
def scriptDepth : Nat := 6

/-- Starts the program at a path: one that `run?` knows by its file, or the one that a script names;
`depth` bounds the scripts on the way. -/
def startAt (run? : List UInt8 → Option (ProcessContext → MachineM ExitStatus)) :
    Nat → String → ProcessContext → MachineM (Except FileError ExitStatus)
  | 0, _, _ => return .error .tooManyLinks
  | depth + 1, path, c => do
    match programAt (← get).files c.cwd path with
    | .error e => return .error e
    | .ok bytes =>
      match run? bytes, Interpreter.ofBytes? bytes with
      | some run, _ => return .ok (← run c)
      | none, some i =>
        startAt run? depth i.program
          { c with args := i.program :: i.argument.toList ++ path :: c.args.drop 1 }
      | none, none => return .error .notExecutableFormat

/-- The path of a program in a directory of the search path. -/
def pathIn (directory name : String) : String :=
  if directory = "" then name else directory ++ "/" ++ name

/-- Tries directories one after the other; that a file may not be executed is remembered. -/
def startFrom (l : Launcher) (name : String) (c : ProcessContext) :
    List String → FileError → Bool → MachineM (Except FileError ExitStatus)
  | [], e, refused => return .error (if refused then .permission else e)
  | directory :: rest, _, refused => do
    match ← l.start (pathIn directory name) c with
    | .error .permission => startFrom l name c rest .permission true
    | .error .noEntry => startFrom l name c rest .noEntry refused
    | .error .notDirectory => startFrom l name c rest .notDirectory refused
    | result => return result

def usualSearchPath : String := "/bin:/usr/bin"

/-- Starts a program by its name, which is a path if there is a slash in it. -/
def startNamed (l : Launcher) (name : String) (c : ProcessContext) :
    MachineM (Except FileError ExitStatus) :=
  if name = "" then return .error .noEntry
  else if name.toList.contains '/' then l.start name c
  else if FileSystem.nameLimit < name.length then return .error .nameTooLong
  else
    let searchPath := (c.getEnv? "PATH").getD usualSearchPath
    startFrom l name c ((pieces ':' searchPath.toList).map String.ofList) .noEntry false

end Launcher

end ModularBuild
