import ModularBuild.Host
import ModularBuild.Shell.Program
import ModularBuild.Utility.Table

/-!
# The standard host

A host whose programs are the shell, the utilities, and scripts, which is what the commands of a
configuration commonly are. A process reads nothing and both its streams are caught. Operations are
defined for every host, and so is all that is proved of them; this one is there to run them.
-/

namespace ModularBuild

/-! ## Files -/

def bootTime : Time := 1790000000 * 1000000000

/-- The name of the shell's program file, which `sh` leads to. -/
def shellName : String := "dash"

def systemDirectories : List Location :=
  [["dev"], ["etc"], ["home"], ["proc"], ["root"], ["usr"], ["usr", "bin"], ["usr", "lib"],
    ["usr", "local"], ["usr", "local", "bin"], ["usr", "share"], ["var"], ["var", "tmp"]]

def systemLinks : List (Location × String) :=
  [(["bin"], "usr/bin"), (["lib"], "usr/lib"), (["sbin"], "usr/bin"),
    (["usr", "bin", "sh"], shellName)]

def systemDevices : List (String × Device) :=
  [("null", .null), ("zero", .zero), ("full", .full), ("stdin", .descriptor 0),
    ("stdout", .descriptor 1), ("stderr", .descriptor 2)]

def passwords : String :=
  "root:x:0:0:root:/root:/bin/bash\nnobody:x:65534:65534:nobody:/nonexistent:/usr/sbin/nologin\n"

def FileSystem.bare : FileSystem :=
  let entry (content : Content) (mode : Nat) : FileEntry :=
    { content, mode, modified := 0, own := false }
  let programs := shellName :: Utility.installed.map (·.name)
  { clock := bootTime
    entries := SortedMap.ofList (
      systemDirectories.map (·, entry .directory FileSystem.directoryMode)
        ++ systemLinks.map (fun (l, p) => (l, entry (.link ⟨p⟩) 0o777))
        ++ [(["tmp"], entry .directory 0o1777),
          (["dev", "fd"], entry .directory FileSystem.directoryMode),
          (["etc", "passwd"], entry (.file (ByteText.bytes passwords)) FileSystem.fileMode)]
        ++ systemDevices.map (fun (name, d) => (["dev", name], entry (.device d) 0o666))
        ++ (List.range 10).map (fun n =>
          (["dev", "fd", toString n], entry (.device (.descriptor n)) 0o666))
        ++ programs.map fun name =>
          (["usr", "bin", name], entry (.file (Utility.image name)) 0o755)) }

/-! ## Programs -/

def programOfImage? (launcher : Launcher) (bytes : List UInt8) :
    Option (ProcessContext → MachineM ExitStatus) := do
  let name ← Utility.nameOfImage? bytes
  if name = shellName then return Shell.program launcher
  else
    let u ← Utility.installed.find? (·.name = name)
    return Utility.run u.utility u.failure launcher

/-- A launcher of programs that start each other at most `depth` deep. -/
def Launcher.upTo : Nat → Launcher
  | 0 => { start := fun _ _ => return .ok (.signal .kill) }
  | depth + 1 => {
    start := fun path c =>
      Launcher.startAt (programOfImage? (Launcher.upTo depth)) Launcher.scriptDepth path c }

def launchDepth : Nat := 1000

def Launcher.standard : Launcher := Launcher.upTo launchDepth

/-! ## Processes -/

def startDirectory (files : FileSystem) (cwd : Location) (dir : Option Path) :
    Except FileError Location :=
  match dir with
  | none => .ok cwd
  | some p => do
    match ← files.lookup cwd p with
    | (l, { content := .directory, .. }) => return l
    | _ => throw .notDirectory

def handsOverNul (i : Invocation) : Bool :=
  (i.program.text :: (i.cwd.map (·.text)).toList ++ i.args ++
    i.env.flatMap fun (k, v) => [k, v]).any (·.toList.contains '\x00')

def runProcess (cwd : Location) (env : SortedMap String String) (i : Invocation)
    (files : FileSystem) : Except FileError ProcessOutput × FileSystem :=
  if handsOverNul i then (.error .nulInArgument, files)
  else match startDirectory files cwd i.cwd with
  | .error e => (.error e, files)
  | .ok cwd =>
    let environment := (env.insertIfNew "PATH" standardSearchPath).insertAll i.env
    let start : MachineM (Except FileError ProcessOutput) := do
      let nothing ← Machine.hold { target := .device .null, reads := true }
      let out ← Machine.newChannel none
      let err ← Machine.newChannel none
      let outFile ← Machine.hold { target := .channel out, writes := true }
      let errFile ← Machine.hold { target := .channel err, writes := true }
      let context : ProcessContext := {
        args := (i.program.text :: i.args).map ByteText.ofText
        cwd
        env := environment.entries.map fun (k, v) => ByteText.ofText s!"{k}={v}"
        descriptors := .ofList [(0, nothing), (1, outFile), (2, errFile)]
        process := ← Machine.newProcess }
      let result ← Launcher.standard.startNamed (ByteText.ofText i.program.text) context
      let m ← get
      return result.map fun status =>
        ⟨status, m.content (.channel out), m.content (.channel err)⟩
    let (result, machine) := start.run { files }
    (result, machine.files)

def Host.standard (cwd : Location) (env : SortedMap String String) : Host :=
  { cwd, env, spawn := runProcess cwd env }

end ModularBuild
