import ModularBuild.Utility.Edit.Reader
import ModularBuild.Utility.Edit.Run

/-!
# Editing lines

`sed` runs a script on each line of its input and prints what becomes of it, or puts it in the place
of the files.
-/

namespace ModularBuild.Utility

open Edit

namespace Edit

/-- What the editor says of itself when it does not know what to do. -/
def usage (name : String) : String :=
  s!"Usage: {name} [OPTION]... \x7bscript-only-if-no-other-script\x7d [input-file]...\n\n" ++
  "  -n, --quiet, --silent\n" ++
  "                 suppress automatic printing of pattern space\n" ++
  "      --debug\n" ++
  "                 annotate program execution\n" ++
  "  -e script, --expression=script\n" ++
  "                 add the script to the commands to be executed\n" ++
  "  -f script-file, --file=script-file\n" ++
  "                 add the contents of script-file to the commands to be executed\n" ++
  "  --follow-symlinks\n" ++
  "                 follow symlinks when processing in place\n" ++
  "  -i[SUFFIX], --in-place[=SUFFIX]\n" ++
  "                 edit files in place (makes backup if SUFFIX supplied)\n" ++
  "  -l N, --line-length=N\n" ++
  "                 specify the desired line-wrap length for the \x60l' command\n" ++
  "  --posix\n" ++
  "                 disable all GNU extensions.\n" ++
  "  -E, -r, --regexp-extended\n" ++
  "                 use extended regular expressions in the script\n" ++
  "                 (for portability use POSIX -E).\n" ++
  "  -s, --separate\n" ++
  "                 consider files as separate rather than as a single,\n" ++
  "                 continuous long stream.\n" ++
  "      --sandbox\n" ++
  "                 operate in sandbox mode (disable e/r/w commands).\n" ++
  "  -u, --unbuffered\n" ++
  "                 load minimal amounts of data from the input files and flush\n" ++
  "                 the output buffers more often\n" ++
  "  -z, --null-data\n" ++
  "                 separate lines by NUL characters\n" ++
  "      --help     display this help and exit\n" ++
  "      --version  output version information and exit\n\n" ++
  "If no -e, --expression, -f, or --file option is given, then the first\n" ++
  "non-option argument is taken as the sed script to interpret.  All\n" ++
  "remaining arguments are names of input files; if no input files are\n" ++
  "specified, then the standard input is read.\n\n" ++
  "GNU sed home page: <https://www.gnu.org/software/sed/>.\n" ++
  "General help using GNU software: <https://www.gnu.org/gethelp/>.\n"

def refuseUsage {α : Type} (message : Option String) : UtilityM α := do
  let name ← programName
  if let some m := message then writeError s!"{name}: {m}\n"
  writeError (usage name)
  quit 1

def refuseScript {α : Type} (code : Nat) (message : String) : UtilityM α := do
  writeError s!"{← programName}: {message}\n"
  quit code

def addPart (d : Draft) (origin : Origin) (text : String) : UtilityM Draft := do
  match d.add origin text with
  | .ok d => return d
  | .error (place, mistake) => refuseScript 1 s!"{place.text}: {mistake.message}"

/-- Goes through the options; parts of the script are read as they come, with their number. -/
def takeOptions (options : List GivenOption) : UtilityM (Draft × Nat) := do
  let step (state : Draft × Nat) (o : GivenOption) : UtilityM (Draft × Nat) := do
    let (d, n) := state
    let value := o.value.getD ""
    match o.key with
    | "regexp-extended" | "r" => return ({ d with extended := true }, n)
    | "posix" => return ({ d with plain := true }, n)
    | "sandbox" => return ({ d with confined := true }, n)
    | "expression" => return (← addPart d (.argument (n + 1)) value, n + 1)
    | "file" =>
      match ← readNamed (if value = "/dev/stdin" then "-" else value) with
      | .ok text => return (← addPart d (.file value) text, n)
      | .error .isDirectory => return (d, n)
      | .error e => refuseScript 4 s!"couldn't open file {value}: {e.name}"
    | _ => return (d, n)
  options.foldlM step ({}, 0)

def openSinks (s : Script) : UtilityM (List (String × Nat)) :=
  s.files.mapM fun name => do
    match ← openNamed name { writes := true, creates := true, truncates := true } with
    | .ok i => return (name, i)
    | .error e => refuseScript 4 s!"couldn't open file {name}: {e.name}"

def options : List OptionSpec := [
  option 'n' "quiet", word "silent", word "debug", option 'e' "expression" .required,
  option 'f' "file" .required, word "follow-symlinks", option 'i' "in-place" .optional,
  option 'l' "line-length" .required, word "posix", option 'E' "regexp-extended", letter 'r',
  option 's' "separate", word "sandbox", option 'u' "unbuffered", option 'z' "null-data",
  option 'b' "binary", letter 'h', word "zero-terminated"]

end Edit

def sed : Utility := fun args => do
  let a ← match takeArguments (Edit.options ++ usualOptions) false (args.length + 1) args with
    | .error message => refuseUsage (some message)
    | .ok a => pure a
  if a.has "help" || a.has "version" then quit 0
  if a.has "h" then refuseUsage none
  let given := a.has "expression" || a.has "file"
  let (draft, _) ← takeOptions a.options
  let (draft, names) ← match given, a.operands with
    | true, names => pure (draft, names)
    | false, script :: names => pure (← addPart draft (.argument 1) script, names)
    | false, [] => refuseUsage none
  let script ← match draft.finish with
    | .ok s => pure s
    | .error (.openBlock p) => refuseScript 1 s!"{p.text}: {Mistake.unmatchedOpen.message}"
    | .error (.missingLabel l) => refuseScript 4 s!"can't find label for jump to \x60{l}'"
  let inPlace := a.has "in-place"
  if inPlace && names.isEmpty then refuseScript 4 "no input files"
  let mode : Mode := {
    script, inPlace
    quiet := a.has "quiet" || a.has "silent" || script.quiet
    ending := if a.has "null-data" || a.has "zero-terminated" then '\x00' else '\n'
    separate := inPlace || a.has "separate"
    backup := (a.value? "in-place").filter fun s => s ≠ "" && s ≠ "*"
    followsLinks := a.has "follow-symlinks"
    lineLength := ((a.value? "line-length").map fun s => (s.toNat?.getD 0)).getD 70
    plain := a.has "posix" }
  let start : Edit.State := {
    files := if names.isEmpty then ["-"] else names
    ranges := EditM.freshRanges script
    sinks := ← openSinks script }
  let (code, _) ← (EditM.edit.run mode).run start
  return code

end ModularBuild.Utility
