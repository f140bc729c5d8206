import ModularBuild.Graph.Basic

/-!
# Subcommands and options

The names a command line can use. Every subcommand takes the four options about the project and the
build; some have one of their own.
-/

namespace ModularBuild

/-- What is installed. -/
inductive InstallPart where
  /-- The programs, and then the hook is run. -/
  | everything
  | programs
  | libraries
  | headers
deriving DecidableEq, Repr

inductive Subcommand where
  | aggregate (a : Aggregate)
  | target
  | install (part : InstallPart)
  | package
  | clean
  | report
deriving DecidableEq, Repr

namespace Subcommand

def name : Subcommand → String
  | aggregate .all => "build-all"
  | aggregate .libraries => "build-libraries"
  | aggregate .programs => "build-programs"
  | aggregate .testPrograms => "build-tests"
  | aggregate .generated => "build-generated"
  | target => "build"
  | install .everything => "install"
  | install .programs => "install-bin"
  | install .libraries => "install-lib"
  | install .headers => "install-include"
  | package => "package"
  | clean => "clean"
  | report => "report"

def about : Subcommand → String
  | aggregate .all => "Build libraries, programs and generated files"
  | aggregate .libraries => "Build every library"
  | aggregate .programs => "Build every non-test program"
  | aggregate .testPrograms => "Build every test program"
  | aggregate .generated => "Build every generated file"
  | target => "Build one target: an aggregate, a shorthand name, or a path"
  | install .everything => "Install programs, then run the post-install hook"
  | install .programs => "Install programs into <prefix>/bin"
  | install .libraries => "Install static libraries into <prefix>/lib"
  | install .headers => "Install headers into <prefix>/include (not provided)"
  | package => "Create a source distribution archive next to the project"
  | clean => "Remove build outputs"
  | report => "Describe the project plan"

/-- Every subcommand, in the order the help lists them. -/
def list : List Subcommand :=
  [aggregate .all, aggregate .libraries, aggregate .programs, aggregate .testPrograms,
    aggregate .generated, target, install .everything, install .programs, install .libraries,
    install .headers, package, clean, report]

def ofName? (name : String) : Option Subcommand := list.find? (·.name = name)

/-- The name of what stands after the subcommand, if anything does. -/
def operand? : Subcommand → Option String
  | target => some "TARGET"
  | _ => none

end Subcommand

inductive OptionName where
  | verbose
  | jobs
  | manifestPath
  | module
  | destination
  | tag
  | json
  | help
  | version
deriving DecidableEq, Repr

namespace OptionName

def long : OptionName → String
  | verbose => "verbose"
  | jobs => "jobs"
  | manifestPath => "manifest-path"
  | module => "module"
  | destination => "prefix"
  | tag => "tag"
  | json => "json"
  | help => "help"
  | version => "version"

def short? : OptionName → Option Char
  | verbose => some 'v'
  | jobs => some 'j'
  | help => some 'h'
  | version => some 'V'
  | manifestPath | module | destination | tag | json => none

/-- The name of the value an option takes, if it takes one. -/
def value? : OptionName → Option String
  | jobs => some "JOBS"
  | manifestPath => some "MANIFEST_PATH"
  | module => some "MODULE"
  | destination => some "PREFIX"
  | tag => some "TAG"
  | verbose | json | help | version => none

def about : OptionName → String
  | verbose => "Enable verbose output"
  | jobs => "Number of parallel jobs [env: STRATUM_JOBS]"
  | manifestPath => "Path to Stratum.toml (defaults to searching upward from the current directory)"
  | module => "Build a single module on its own"
  | destination => "Install prefix (defaults to [install].prefix, then <root>/install)"
  | tag => "Archive tag (defaults to today's date as YYMMDD)"
  | json => "Emit JSON instead of text"
  | help => "Print help"
  | version => "Print version"

/-- The options every subcommand takes, and that may also stand before it. -/
def shared : List OptionName := [verbose, jobs, manifestPath, module]

/-- The options of a subcommand alone. -/
def own : Subcommand → List OptionName
  | .install _ => [destination]
  | .package => [tag]
  | .report => [json]
  | .aggregate _ | .target | .clean => []

/-- The options that can stand before the subcommand, or after it. -/
def allowed : Option Subcommand → List OptionName
  | none => shared ++ [help, version]
  | some c => own c ++ shared ++ [help]

end OptionName

/-! ## Help -/

def programName : String := "stratum"

def programVersion : String := "0.1.0"

namespace Help

/-- Texts in two columns. -/
def table (rows : List (String × String)) : List String :=
  let width := (rows.map (·.1.length)).foldl max 0
  rows.map fun (left, right) =>
    "  " ++ left ++ String.ofList (List.replicate (width - left.length + 2) ' ') ++ right

def optionRow (o : OptionName) : String × String :=
  let short := match o.short? with
    | some c => s!"-{c}, "
    | none => "    "
  let value := match o.value? with
    | some name => s!" <{name}>"
    | none => ""
  (short ++ "--" ++ o.long ++ value, o.about)

def usage : Option Subcommand → String
  | none => s!"Usage: {programName} [OPTIONS] <COMMAND>"
  | some c =>
    let operand := match c.operand? with
      | some name => s!" <{name}>"
      | none => ""
    s!"Usage: {programName} {c.name} [OPTIONS]{operand}"

/-- Help on a subcommand, or on the program. -/
def text (topic : Option Subcommand) : String :=
  let about := match topic with
    | none => "Build orchestration for multi-module C-family and Fortran projects"
    | some c => c.about
  let commands := match topic with
    | none =>
      "Commands:" :: table (Subcommand.list.map (fun c => (c.name, c.about))
        ++ [("help", "Print this message or the help of the given subcommand")]) ++ [""]
    | some _ => []
  let options := "Options:" :: table ((OptionName.allowed topic).map optionRow)
  String.join (([about, "", usage topic, ""] ++ commands ++ options).map (· ++ "\n"))

end Help

end ModularBuild
