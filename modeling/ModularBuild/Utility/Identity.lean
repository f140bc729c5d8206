import ModularBuild.Utility.Permissions

/-!
# Who and where

The utilities that tell about the machine, the user and the programs.
-/

namespace ModularBuild.Utility

open Text

def userName : String := "user"

def withoutOperands (specs : List OptionSpec) (args : List String) : UtilityM Arguments := do
  let a ← arguments specs args
  if let extra :: _ := a.operands then refuse s!"extra operand {inSingleQuotes extra}"
  return a

def uname : Utility := fun args => do
  let a ← withoutOperands [option 'a' "all", option 's' "kernel-name", option 'n' "nodename",
    option 'r' "kernel-release", option 'v' "kernel-version", option 'm' "machine",
    option 'p' "processor", option 'i' "hardware-platform", option 'o' "operating-system"] args
  let parts := [("kernel-name", "Linux"), ("nodename", "localhost"),
    ("kernel-release", "6.8.0"), ("kernel-version", "#1 SMP"), ("machine", "x86_64"),
    ("processor", "x86_64"), ("hardware-platform", "x86_64"), ("operating-system", "GNU/Linux")]
  let chosen := if a.options.isEmpty then parts.take 1
    else parts.filter fun (key, _) => a.has "all" || a.has key
  sayLine (" ".intercalate (chosen.map (·.2)))
  return 0

def arch : Utility := fun args => do
  discard <| withoutOperands [] args
  sayLine "x86_64"
  return 0

def nproc : Utility := fun args => do
  discard <| withoutOperands [word "all", word "ignore" .required] args
  sayLine "1"
  return 0

def hostname : Utility := fun _ => do
  sayLine "localhost"
  return 0

def whoami : Utility := fun args => do
  discard <| withoutOperands [] args
  sayLine userName
  return 0

def logname : Utility := fun args => do
  discard <| withoutOperands [] args
  fail "no login name"

def users : Utility := fun args => do
  discard <| arguments [] args
  return 0

def groups : Utility := fun args => do
  let a ← arguments [] args
  if a.operands.isEmpty then
    sayLine userName
    return 0
  forEach a.operands fun name => do
    if name = "root" || name = userName then
      sayLine s!"{name} : {name}"
      return 0
    complain s!"{inSingleQuotes name}: no such user"
    return 1

def id : Utility := fun args => do
  let a ← arguments [option 'u' "user", option 'g' "group", option 'G' "groups",
    option 'n' "name", option 'r' "real", option 'z' "zero", option 'Z' "context", letter 'a'] args
  let one := a.last? ["user", "group", "groups"]
  if (["user", "group", "groups"].filter a.has).length > 1 then
    fail "cannot print \"only\" of more than one choice"
  if one.isNone && (a.has "name" || a.has "real") then
    fail "printing only names or real IDs requires default format"
  let names := if a.operands.isEmpty then [userName] else a.operands
  forEach names fun name => do
    let number? := if name = userName then some userNumber else accountNumber? name
    match number? with
    | none =>
      complain s!"{inSingleQuotes name}: no such user"
      return 1
    | some n =>
      match one with
      | some _ => sayLine (if a.has "name" then name else toString n)
      | none => sayLine s!"uid={n}({name}) gid={n}({name}) groups={n}({name})"
      return 0

def tty : Utility := fun args => do
  let a ← withoutOperands [option 's' "silent", word "quiet"] args
  unless a.has "silent" || a.has "quiet" do sayLine "not a tty"
  return 1

/-! ## Programs -/

def which : Utility := fun args => do
  match takeArguments [letter 'a', letter 's'] true (args.length + 1) args with
  | .error message =>
    let shown := (message.splitOn "'").getD 1 ""
    writeError s!"Illegal option -{shown}\nUsage: {← programName} [-a] args\n"
    return 2
  | .ok a =>
    if a.operands.isEmpty then return 1
    let c ← context
    let searchPath := (c.getEnv? "PATH").getD ""
    let directories := (pieces ':' searchPath.toList).map String.ofList
    forEach a.operands fun name => do
      let fs ← files
      let isProgram (path : String) : Bool := fs.isExecutable c.cwd (ByteText.path path)
      let candidates := if name.toList.contains '/' then [name]
        else directories.map fun d => (if d.isEmpty then "." else d) ++ "/" ++ name
      let found := if name.isEmpty then [] else candidates.filter isProgram
      for path in if a.has "a" then found else found.take 1 do
        unless a.has "s" do sayLine path
      return if found.isEmpty then 1 else 0

end ModularBuild.Utility
