import ModularBuild.Artifact
import ModularBuild.Host
import ModularBuild.Process.Command
import ModularBuild.Toml.Document
import ModularBuild.Toml.Value

/-!
# Toolchains

Which programs compile, archive and link, and with which flags. Configurations are merged, later
ones over earlier ones, and the environment has the last word on the programs. A setting that is
absent, or an empty list, leaves what is below it.

A toolchain, which is a configuration with its gaps filled, decides the order of arguments and nothing
else; the programs are used as they are named. Every command runs in the project root, so the paths in
it are project-relative.
-/

namespace ModularBuild

structure ToolchainConfig where
  /-- The C-family compiler, which also links C-family programs and shared objects. -/
  cxx : Option Path := none
  /-- The Fortran compiler, which also links Fortran programs. -/
  fc : Option Path := none
  /-- The archiver. -/
  ar : Option Path := none
  cflags : List String := []
  fflags : List String := []
  ldflags : List String := []
  sharedFlags : List String := []
  arFlags : List String := []
  libs : List String := []
  groupArchives : Option Bool := none
  jobs : Option Nat := none
deriving DecidableEq, Repr, Inhabited

namespace ToolchainConfig

open Toml

/-! ## Reading -/

def path : Decoder Path := fun v => (Decoder.string v).map Path.mk

/-- The settings of the one section of a configuration file. -/
def settings : Decoder ToolchainConfig := fun v => do
  let r ← Record.ofValue? .lenient
    ["cxx", "fc", "ar", "cflags", "fflags", "ldflags", "shared_flags", "ar_flags", "libs",
      "group_archives", "jobs"] v
  return {
    cxx := ← r.get "cxx" (.present path) none
    fc := ← r.get "fc" (.present path) none
    ar := ← r.get "ar" (.present path) none
    cflags := ← r.get "cflags" .strings []
    fflags := ← r.get "fflags" .strings []
    ldflags := ← r.get "ldflags" .strings []
    sharedFlags := ← r.get "shared_flags" .strings []
    arFlags := ← r.get "ar_flags" .strings []
    libs := ← r.get "libs" .strings []
    groupArchives := ← r.get "group_archives" (.present .bool) none
    jobs := ← r.get "jobs" (.present .natural) none }

def decode : Decoder ToolchainConfig := fun v => do
  let r ← Record.ofValue? .lenient ["toolchain"] v
  r.get "toolchain" settings {}

/-- The configuration a text holds; none if it holds none. -/
def parse? (text : String) : Option ToolchainConfig := (Toml.parse? text).bind decode

/-! ## Merging -/

/-- A list of flags, or what is below it if it is empty. -/
def overlay (below above : List String) : List String := if above.isEmpty then below else above

/-- The settings of `above` where it has them, else those of `below`. -/
def merge (below above : ToolchainConfig) : ToolchainConfig where
  cxx := above.cxx <|> below.cxx
  fc := above.fc <|> below.fc
  ar := above.ar <|> below.ar
  cflags := overlay below.cflags above.cflags
  fflags := overlay below.fflags above.fflags
  ldflags := overlay below.ldflags above.ldflags
  sharedFlags := overlay below.sharedFlags above.sharedFlags
  arFlags := overlay below.arFlags above.arFlags
  libs := overlay below.libs above.libs
  groupArchives := above.groupArchives <|> below.groupArchives
  jobs := above.jobs <|> below.jobs

/-- A program the environment names; an empty name says nothing. -/
def environmentTool (env : String → Option String) (name : String) : Option Path :=
  ((env name).filter (· ≠ "")).map Path.mk

/-- Takes the programs that the environment names. -/
def applyEnv (env : String → Option String) (c : ToolchainConfig) : ToolchainConfig :=
  { c with
    cxx := environmentTool env "CXX" <|> c.cxx
    fc := environmentTool env "FC" <|> c.fc
    ar := environmentTool env "AR" <|> c.ar }

def projectFile (root : Path) : Path := root / ".stratum" / "toolchain.toml"

/-! ## Loading

The user's file is below the project's, and the environment above both. A broken file of the user's
is passed over with a warning; a broken file of the project's is an error. -/

/-- The configuration in a file. -/
def load (h : Host) (files : FileSystem) (p : Path) : Except Failure ToolchainConfig :=
  match files.readText h.cwd p with
  | .error e => .error (.ofFile s!"failed to read toolchain config: {p.text}" e)
  | .ok text =>
    match parse? text with
    | some c => .ok c
    | none =>
      .error { contexts := [s!"failed to parse toolchain config: {p.text}"], cause := .toml }

/-- The configuration in the user's file, with a warning if it is broken. -/
def loadLenient (h : Host) (files : FileSystem) (p : Path) : List Event × ToolchainConfig :=
  if files.pathExists h.cwd p then
    match load h files p with
    | .ok c => ([], c)
    | .error e =>
      ([.log .warn s!"Failed to load toolchain config from {p.text}: {e.message}"], {})
  else ([], {})

/-- The merged configuration of the user's file, the project's file and the environment. -/
def loadMerged (h : Host) (files : FileSystem) (user : Option Path) (project : Path) :
    List Event × Except Failure ToolchainConfig :=
  let (events, below) := match user with
    | some p => loadLenient h files p
    | none => ([], {})
  let below := ToolchainConfig.merge {} below
  let own :=
    if files.pathExists h.cwd project then (load h files project).map below.merge
    else .ok below
  (events, own.map (applyEnv h.getEnv?))

def userFile? (h : Host) : Option Path := h.settingsDirectory?.map (· / "toolchain.toml")

end ToolchainConfig

/-! ## Command lines -/

structure Toolchain where
  cxx : Path
  fc : Path
  ar : Path
  cflags : List String
  fflags : List String
  ldflags : List String
  sharedFlags : List String
  arFlags : List String
  libs : List String
  groupArchives : Bool
deriving DecidableEq, Repr, Inhabited

namespace Toolchain

def ofConfig (c : ToolchainConfig) : Toolchain where
  cxx := c.cxx.getD ⟨"c++"⟩
  fc := c.fc.getD ⟨"gfortran"⟩
  ar := c.ar.getD ⟨"ar"⟩
  cflags := c.cflags
  fflags := c.fflags
  ldflags := c.ldflags
  sharedFlags := ToolchainConfig.overlay ["-shared"] c.sharedFlags
  arFlags := ToolchainConfig.overlay ["rcsD"] c.arFlags
  libs := c.libs
  groupArchives := c.groupArchives.getD true

/-- The compiler of a language, which also links its programs. -/
def driver (t : Toolchain) : Language → Path
  | .c => t.cxx
  | .fortran => t.fc

def compileFlags (t : Toolchain) : Language → List String
  | .c => t.cflags
  | .fortran => t.fflags

def compile (t : Toolchain) (lang : Language) (source output : Path) : Command :=
  ⟨t.driver lang, t.compileFlags lang ++ ["-I.", "-c", source.text, "-o", output.text]⟩

def archive (t : Toolchain) (objects : List Path) (output : Path) : Command :=
  ⟨t.ar, t.arFlags ++ output.text :: objects.map (·.text)⟩

def sharedLink (t : Toolchain) (objects : List Path) (output : Path) : Command :=
  ⟨t.cxx, t.sharedFlags ++ ["-o", output.text] ++ objects.map (·.text) ++ t.ldflags⟩

/-- Archives as arguments; several are grouped, where grouping is on, so that they may need each
other in any order. -/
def archiveArgs (t : Toolchain) (archives : List Path) : List String :=
  let paths := archives.map (·.text)
  if t.groupArchives && 1 < archives.length then
    ["-Wl,--start-group"] ++ paths ++ ["-Wl,--end-group"]
  else paths

def linkExe (t : Toolchain) (lang : Language) (objects archives : List Path) (output : Path) :
    Command :=
  ⟨t.driver lang,
    t.ldflags ++ ["-o", output.text] ++ objects.map (·.text) ++ t.archiveArgs archives ++ t.libs⟩

end Toolchain

end ModularBuild
