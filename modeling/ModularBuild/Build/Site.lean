import ModularBuild.Build.Execute
import ModularBuild.Host
import ModularBuild.Toolchain.Config

/-!
# Building in a project directory

A build site is a project's root with a toolchain. Commands run in the root; a generated file's
command runs in the directory of its module. The assemblers of libraries remove the previous library
first, so that objects which have left a library do not linger in it.
-/

namespace ModularBuild

structure BuildSite where
  /-- The project root. -/
  root : Path
  toolchain : Toolchain
  /-- How many actions may run at once; none for one per processor. -/
  jobs : Option Nat := none
  /-- Whether the user is told of every action. -/
  verbose : Bool := false

namespace BuildSite

def ofConfig (root : Path) (config : ToolchainConfig) (jobs : Option Nat) : BuildSite :=
  { root, toolchain := .ofConfig config, jobs := jobs <|> config.jobs }

/-- A project-relative path as one that can be opened. -/
def locate (site : BuildSite) (p : Path) : Path := site.root / p

/-! ## Actions -/

/-- An action that may fail to make its artifact. -/
abbrev Work := ExceptT BuildError WorldM

/-- Turns the failure of an operation before any command into the failure of an action. -/
def prepare (artifact : String) (op : Operation Unit) : Work Unit := do
  match ← (op.run : WorldM (Except Failure Unit)) with
  | .ok () => return ()
  | .error e => throw (.actionFailed artifact "" e.message)

/-- Runs a command in a directory to make an artifact. -/
def runIn (h : Host) (artifact : String) (c : Command) (dir : Path) : Work Unit := do
  World.log .debug s!"running `{c.display}`"
  match ← World.spawn h { c with cwd := some dir } with
  | .error e =>
    throw (.actionFailed artifact c.display
      (Failure.ofFile s!"failed to spawn `{c.program.text}`" e).message)
  | .ok output =>
    unless output.status.success do
      throw (.actionFailed artifact c.display output.toolOutput)

/-- Runs a command in the root to make an artifact. -/
def run (site : BuildSite) (h : Host) (artifact : String) (c : Command) : Work Unit :=
  runIn h artifact c site.root

/-- The two kinds of library. -/
inductive LibraryForm where
  | archive
  | shared
deriving DecidableEq

def LibraryForm.name : LibraryForm → String
  | archive => "static"
  | shared => "shared"

def libraryCommand (site : BuildSite) (form : LibraryForm) (objects : List Path) (output : Path) :
    Command :=
  match form with
  | .archive => site.toolchain.archive objects output
  | .shared => site.toolchain.sharedLink objects output

/-- Assembles objects into a library, in their order. -/
def assemble (site : BuildSite) (h : Host) (form : LibraryForm) (objects : List Path)
    (output : Path) : Work Unit := do
  let file := site.locate output
  prepare output.toSlash do
    Operation.ensureParent h file
    discard <| Operation.removeIfExists h file
  World.log .debug s!"creating {form.name} library {output.text}"
  site.run h output.toSlash (site.libraryCommand form objects output)

/-- Runs the command of a generated file, which has to be there afterwards. -/
def generate (site : BuildSite) (h : Host) (artifact : String) (output : Path)
    (command : List String) (dir : Path) : Work Unit := do
  match command with
  | [] => throw (.actionFailed artifact "" "generated file has an empty command")
  | program :: args =>
    let c : Command := ⟨⟨program⟩, args⟩
    runIn h artifact c (site.locate dir)
    unless (← get).files.pathExists h.cwd (site.locate output) do
      throw (.actionFailed artifact c.display "command succeeded but did not create the file")

/-- Performs the action of a node that has this path. -/
def act (site : BuildSite) (h : Host) (node : Node) (output : Path) : Work Unit := do
  let artifact := node.displayName
  prepare artifact (Operation.ensureParent h (site.locate output))
  match node.action with
  | .source | .phony => return ()
  | .compile lang source => site.run h artifact (site.toolchain.compile lang source output)
  | .archive objects => site.assemble h .archive objects output
  | .sharedLink objects => site.assemble h .shared objects output
  | .linkExe lang objects archives =>
    site.run h artifact (site.toolchain.linkExe lang objects archives output)
  | .generate command dir => site.generate h artifact output command dir

/-! ## The workbench -/

/-- What an action does, in a word. -/
def verb : Action → String
  | .compile _ _ => "Compiling"
  | .archive _ => "Archiving"
  | .sharedLink _ | .linkExe _ _ _ => "Linking"
  | .generate _ _ => "Generating"
  | .source | .phony => "Checking"

/-- Text filled with blanks on the left up to a width. -/
def alignRight (width : Nat) (s : String) : String :=
  String.ofList (List.replicate (width - s.length) ' ') ++ s

/-- Removes what a failed action may have left; a failure to do so is only told. -/
def discardOutput (site : BuildSite) (h : Host) (output : Path) : WorldM Unit := do
  match ← (Operation.removeIfExists h (site.locate output)).run with
  | .ok _ => return ()
  | .error e => World.log .warn e.message

def workbench (site : BuildSite) (h : Host) : Workbench World where
  modified? p w := w.files.modified? h.cwd (site.locate p)
  perform node p := do
    if site.verbose then
      World.tell (.line (alignRight 12 (verb node.action) ++ " " ++ node.displayName))
    (site.act h node p).run
  discard := site.discardOutput h

/-- The runner of a site on a graph. Where only one action runs at a time, a node finds what those
before it in its level have left. -/
def runner (site : BuildSite) (h : Host) (g : ArtifactGraph) : Runner World where
  run n built start := do
    let now ← get
    let seen := if site.jobs = some 1 then now else start
    (site.workbench h).runNodeSeeing g n built seen
  announce := World.tell

/-! ## Required tools -/

/-- The program that an action needs, commands of generated files apart. -/
def tool? (t : Toolchain) : Action → Option Path
  | .compile lang _ | .linkExe lang _ _ => some (t.driver lang)
  | .archive _ => some t.ar
  | .sharedLink _ => some (t.driver .c)
  | .source | .phony | .generate _ _ => none

/-- The programs that bringing a target up to date may need, in path order. -/
def requiredTools (t : Toolchain) (g : ArtifactGraph) (target : NodeId) : List Path :=
  (SortedSet.ofList ((g.reachable target).filterMap fun n => tool? t (g.node n).action)).toList

end BuildSite

end ModularBuild
