import ModularBuild.Files.Mode
import ModularBuild.Utility.PathNames

/-!
# Changing permissions

`chmod` changes the permission bits of files, and of all that lies below directories if it is told
to. `chown` and `chgrp` may only leave things as they are.
-/

namespace ModularBuild.Utility

open Text

/-! ## Bits -/

/-- How `chmod` works. -/
structure ModeChanging where
  changes : List FileMode.Change
  recursive : Bool
  quiet : Bool
  /-- Whether each change is told of. -/
  tellsChanges : Bool
  /-- Whether it is told what stays the same. -/
  tellsAll : Bool
  /-- Whether the mask must not get in the way. -/
  strict : Bool

namespace ModeChanging

def complainUnless (quiet : Bool) (s : String) : UtilityM Unit :=
  if quiet then return () else complain s

def shownMode (mode : Nat) : String :=
  s!"{numeral 8 4 mode} ({FileMode.letters mode})"

/-- Changes the bits of one entry; `path` leads to it. -/
def changeOne (m : ModeChanging) (path : String) (e : FileEntry) : UtilityM Nat := do
  let c ← context
  let isDirectory := e.content = .directory
  let mode := FileMode.apply m.changes c.umask isDirectory e.mode
  match ← change (·.setMode c.cwd (ByteText.path path) mode) with
  | .error error =>
    complainUnless m.quiet s!"changing permissions of {shellQuoted path}: {error.name}"
    if m.tellsAll then
      sayLine (s!"failed to change mode of {shellQuoted path} from " ++
        s!"{shownMode e.mode} to {shownMode mode}")
    return 1
  | .ok () =>
    if mode ≠ e.mode && (m.tellsChanges || m.tellsAll) then
      sayLine (s!"mode of {shellQuoted path} changed from {shownMode e.mode} to " ++
        shownMode mode)
    if mode = e.mode && m.tellsAll then
      sayLine s!"mode of {shellQuoted path} retained as {shownMode mode}"
    let plain := FileMode.apply m.changes 0 isDirectory e.mode
    if m.strict && mode &&& (0o7777 ^^^ plain) ≠ 0 then
      complain (s!"{nameInMessage path}: new permissions are {FileMode.letters mode}, not " ++
        FileMode.letters plain)
      return 1
    return 0

/-- Changes an entry and what lies below it; `depth` bounds the directories inside each other. -/
def changeTree (m : ModeChanging) (top : Bool) : Nat → String → UtilityM Nat
  | 0, _ => return 1
  | depth + 1, path => do
    let isLink := (← files).isLink (← context).cwd (ByteText.path path)
    if isLink && !top then return 0
    match ← lookup path with
    | .error e =>
      if isLink && e = .noEntry then
        complainUnless m.quiet s!"cannot operate on dangling symlink {shellQuoted path}"
      else complainUnless m.quiet s!"cannot access {shellQuoted path}: {e.name}"
      return 1
    | .ok (l, e) =>
      let code ← m.changeOne path e
      if !m.recursive || e.content ≠ .directory || isLink then return code
      let after ← lookup path
      if after.toOption.any fun (_, e) => !e.mayRead || !e.mayExecute then
        complainUnless m.quiet
          s!"cannot read directory {shellQuoted path}: {FileError.permission.name}"
        return 1
      let below := ((← files).childNames l).map ByteText.ofText
      return max code (← forEach below fun name => m.changeTree false depth (pathIn path name))

end ModeChanging

def isModeOption (s : String) : Bool :=
  match s.toList with
  | '-' :: c :: _ => "rwxXstugoa,+=01234567".toList.contains c
  | _ => false

def chmod : Utility := fun args => do
  let before := args.takeWhile (· ≠ "--")
  let given := before.filter isModeOption
  let others := before.filter (!isModeOption ·) ++ args.drop before.length
  let a ← arguments [option 'R' "recursive", option 'c' "changes", option 'f' "silent",
    word "quiet", option 'v' "verbose", word "reference" .required, word "preserve-root",
    word "no-preserve-root"] others
  let mode? := if given.isEmpty then none else some (",".intercalate given)
  let (mode?, operands) := if mode?.isSome || a.has "reference" then (mode?, a.operands)
    else (a.operands.head?, a.operands.drop 1)
  if operands.isEmpty then
    match mode? with
    | some mode =>
      if given.isEmpty then refuse s!"missing operand after {inSingleQuotes mode}"
      else refuse "missing operand"
    | none => refuse "missing operand"
  let changes ← match a.value? "reference" with
    | some name =>
      match ← lookup name with
      | .ok (_, e) => pure [⟨some 0o7777, .set, { bits := e.mode }, true⟩]
      | .error e => fail s!"failed to get attributes of {shellQuoted name}: {e.name}"
    | none =>
      let mode := mode?.getD ""
      match FileMode.ofText? mode with
      | some changes => pure changes
      | none => refuse s!"invalid mode: {inSingleQuotes mode}"
  let changing : ModeChanging := {
    changes, recursive := a.has "recursive", quiet := a.has "silent" || a.has "quiet"
    tellsChanges := a.has "changes", tellsAll := a.has "verbose", strict := !given.isEmpty }
  forEach operands (changing.changeTree true ((← files).entries.size + 2))

/-! ## Owners -/

def accountNumbers : List (String × Nat) :=
  [("root", 0), ("daemon", 1), ("bin", 2), ("sys", 3), ("nobody", 65534), ("nogroup", 65534)]

def accountNumber? (s : String) : Option Nat :=
  match accountNumbers.find? (·.1 = s) with
  | some (_, n) => some n
  | none => s.toNat?

def userNumber : Nat := 1000

/-- Changes owners, as far as that changes nothing; `what` names the kind of owner. -/
def giveAway (what : String) (wanted : List Nat) (operands : List String) : UtilityM Nat :=
  forEach operands fun path => do
    match ← lookup path with
    | .error e =>
      complain s!"cannot access {shellQuoted path}: {e.name}"
      return 1
    | .ok (_, e) =>
      if e.own && wanted.all (· = userNumber) then return 0
      complain s!"changing {what} of {shellQuoted path}: {FileError.notPermitted.name}"
      return 1

def ownerOptions : List OptionSpec :=
  [option 'R' "recursive", option 'f' "silent", option 'v' "verbose", option 'c' "changes",
    option 'h' "no-dereference"]

/-- The operands of a utility that changes owners: the new owner and the files. -/
def ownerOperands (args : List String) : UtilityM (String × List String) := do
  let a ← arguments ownerOptions args
  match a.operands with
  | [] => refuse "missing operand"
  | [owner] => refuse s!"missing operand after {inSingleQuotes owner}"
  | owner :: rest => return (owner, rest)

def chown : Utility := fun args => do
  let (owner, operands) ← ownerOperands args
  let parts := (pieces ':' owner.toList).map String.ofList
  let wanted ← (parts.filter (!·.isEmpty)).mapM fun part => do
    match accountNumber? part with
    | some n => pure n
    | none => fail s!"invalid user: {inSingleQuotes owner}"
  giveAway (if parts.head? = some "" then "group" else "ownership") wanted operands

def chgrp : Utility := fun args => do
  let (owner, operands) ← ownerOperands args
  match accountNumber? owner with
  | some n => giveAway "group" [n] operands
  | none => fail s!"invalid group: {inSingleQuotes owner}"

end ModularBuild.Utility
