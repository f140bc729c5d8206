import ModularBuild.Checksum
import ModularBuild.Number.Layout
import ModularBuild.Utility.Input

/-!
# Checksums of files

`md5sum` and its like write the checksums of files, or read them and tell which files have them.
`cksum` and `sum` write short checksums with the sizes.
-/

namespace ModularBuild.Utility

open Text

structure Digest where
  /-- What the kind is called in lists. -/
  label : String
  compute : List UInt8 → List UInt8
  /-- The number of its bytes. -/
  size : Nat

namespace Digest

def md5 : Digest := ⟨"MD5", Checksum.Md5.checksum, 16⟩
def sha1 : Digest := ⟨"SHA1", Checksum.Sha1.checksum, 20⟩
def sha224 : Digest := ⟨"SHA224", Checksum.Sha2.sha224, 28⟩
def sha256 : Digest := ⟨"SHA256", Checksum.Sha2.sha256, 32⟩
def sha384 : Digest := ⟨"SHA384", Checksum.Sha2.sha384, 48⟩
def sha512 : Digest := ⟨"SHA512", Checksum.Sha2.sha512, 64⟩

def ofText (d : Digest) (text : String) : String :=
  String.join ((d.compute (ByteText.bytes text)).map fun b => numeral 16 2 b.toNat)

end Digest

/-! ## Writing -/

def isTroublesome (name : String) : Bool :=
  name.toList.any fun c => c = '\\' || c = '\n' || c = '\r'

def escapedName (name : String) : String :=
  String.ofList (name.toList.flatMap fun c =>
    if c = '\\' then ['\\', '\\'] else if c = '\n' then ['\\', 'n']
    else if c = '\r' then ['\\', 'r'] else [c])

def digestLine (label : String) (tagged binary zero : Bool) (name sum : String) : String :=
  let troubled := !zero && isTroublesome name
  let shown := if troubled then escapedName name else name
  (if troubled then "\\" else "") ++
    (if tagged then s!"{label} ({shown}) = {sum}"
      else sum ++ (if binary then " *" else "  ") ++ shown) ++ if zero then "\x00" else "\n"

/-! ## Checking -/

structure DigestEntry where
  sum : String
  name : String

def plainName : List Char → List Char
  | '\\' :: 'n' :: cs => '\n' :: plainName cs
  | '\\' :: 'r' :: cs => '\r' :: plainName cs
  | '\\' :: '\\' :: cs => '\\' :: plainName cs
  | c :: cs => c :: plainName cs
  | [] => []

def digestEntry? (d : Digest) (line : String) : Option DigestEntry :=
  let (escaped, cs) := match line.toList with
    | '\\' :: cs => (true, cs)
    | cs => (false, cs)
  let cs := cs.dropWhile fun c => c = ' ' || c = '\t'
  let nameOf (cs : List Char) : String := String.ofList (if escaped then plainName cs else cs)
  let isDigit (c : Char) : Bool := c.isDigit || "abcdefABCDEF".toList.contains c
  let fits (ds : List Char) : Bool := ds.length = 2 * d.size && ds.all isDigit
  let tag := (d.label ++ " (").toList
  if tag.isPrefixOf cs then
    let rest := cs.drop tag.length
    let sum := (rest.reverse.takeWhile (· ≠ ' ')).reverse
    let before := rest.take (rest.length - sum.length)
    let ending := ") = ".toList
    if fits sum && ending.reverse.isPrefixOf before.reverse then
      some ⟨(String.ofList sum).toLower, nameOf (before.take (before.length - ending.length))⟩
    else none
  else
    let sum := cs.takeWhile isDigit
    if !fits sum then none
    else match cs.drop sum.length with
      | ' ' :: c :: name =>
        if name.isEmpty then none
        else if c = ' ' || c = '*' then some ⟨(String.ofList sum).toLower, nameOf name⟩
        else some ⟨(String.ofList sum).toLower, nameOf (c :: name)⟩
      | _ => none

structure DigestTally where
  read : Nat := 0
  malformed : Nat := 0
  unread : Nat := 0
  different : Nat := 0
  matching : Nat := 0

def counted (n : Nat) (one several : String) : String :=
  if n = 1 then s!"1 {one}" else s!"{n} {several}"

def checkLine (d : Digest) (a : Arguments) (list : String) (t : DigestTally)
    (numbered : String × Nat) : UtilityM DigestTally := do
  let (line, number) := numbered
  if line.startsWith "#" then return t
  let status := a.has "status"
  match digestEntry? d line with
  | none =>
    if a.has "warn" then
      complain s!"{nameInMessage list}: {number}: improperly formatted {d.label} checksum line"
    return { t with malformed := t.malformed + 1 }
  | some entry =>
    let t := { t with read := t.read + 1 }
    let shown := if isTroublesome entry.name then "\\" ++ escapedName entry.name else entry.name
    match ← readNamed entry.name with
    | .error e =>
      if e = .noEntry && a.has "ignore-missing" then return t
      complain s!"{nameInMessage entry.name}: {e.name}"
      if !status then sayLine s!"{shown}: FAILED open or read"
      return { t with unread := t.unread + 1 }
    | .ok text =>
      if d.ofText text = entry.sum then
        if !status && !a.has "quiet" then sayLine s!"{shown}: OK"
        return { t with matching := t.matching + 1 }
      else
        if !status then sayLine s!"{shown}: FAILED"
        return { t with different := t.different + 1 }

def checkList (d : Digest) (a : Arguments) (list : String) : UtilityM Nat := do
  match ← readNamed list with
  | .error e =>
    complain s!"{nameInMessage list}: {e.name}"
    return 1
  | .ok text =>
    let title := if list = "-" then "'standard input'" else nameInMessage list
    let t ← ((linesOf text).zipIdx 1).foldlM (checkLine d a list) {}
    if t.read = 0 then
      complain s!"{title}: no properly formatted checksum lines found"
      return 1
    if !a.has "status" then
      if 0 < t.malformed then
        let count := counted t.malformed "line is" "lines are"
        complain s!"WARNING: {count} improperly formatted"
      if 0 < t.unread then
        let count := counted t.unread "listed file" "listed files"
        complain s!"WARNING: {count} could not be read"
      if 0 < t.different then
        let count := counted t.different "computed checksum" "computed checksums"
        complain s!"WARNING: {count} did NOT match"
    if a.has "ignore-missing" && t.matching = 0 then
      complain s!"{title}: no file was verified"
      return 1
    let strict := a.has "strict" && 0 < t.malformed
    return if 0 < t.unread + t.different || strict then 1 else 0

def digestOptions : List OptionSpec :=
  [option 'b' "binary", option 'c' "check", word "ignore-missing", word "quiet", word "status",
    word "strict", word "tag", option 't' "text", option 'w' "warn", option 'z' "zero"]

def digestSum (d : Digest) : Utility := fun args => do
  let a ← arguments digestOptions args
  if a.has "check" then
    if a.has "tag" then refuse "the --tag option is meaningless when verifying checksums"
    return ← forEach a.inputs (checkList d a)
  for key in ["ignore-missing", "status", "warn", "quiet", "strict"] do
    if a.has key then
      refuse s!"the --{key} option is meaningful only when verifying checksums"
  let binary := a.last? ["binary", "text"] = some "binary"
  eachInput a.inputs fun name text => do
    say (digestLine d.label (a.has "tag") binary (a.has "zero") name (d.ofText text))
    return 0

def md5sum : Utility := digestSum .md5
def sha1sum : Utility := digestSum .sha1
def sha224sum : Utility := digestSum .sha224
def sha256sum : Utility := digestSum .sha256
def sha384sum : Utility := digestSum .sha384
def sha512sum : Utility := digestSum .sha512

/-! ## Short checksums -/

/-- Writes a line with the sum of a file and its blocks, as `sum` does. -/
def sumLine (plain several : Bool) (name text : String) : String :=
  let bytes := ByteText.bytes text
  if plain then
    let blocks := (bytes.length + 511) / 512
    s!"{Checksum.plainSum bytes} {blocks}" ++ if name = "-" then "" else s!" {name}"
  else
    let blocks := padLeft 5 (toString ((bytes.length + 1023) / 1024))
    numeral 10 5 (Checksum.turningSum bytes) ++ s!" {blocks}" ++
      if several && name ≠ "-" then s!" {name}" else ""

def sum : Utility := fun args => do
  let a ← arguments [letter 'r', option 's' "sysv"] args
  let plain := a.last? ["r", "sysv"] = some "sysv"
  eachInput a.inputs fun name text => do
    sayLine (sumLine plain (!a.operands.isEmpty) name text)
    return 0

def cksum : Utility := fun args => do
  let a ← arguments ([option 'a' "algorithm" .required, option 'l' "length" .required,
    word "untagged", word "raw", word "base64"] ++ digestOptions) args
  let kind ← match a.value? "algorithm" with
    | none => pure "crc"
    | some s =>
      choiceOf "algorithm" s ["bsd", "sysv", "crc", "md5", "sha1", "sha224", "sha256", "sha384",
        "sha512", "blake2b", "sm3"]
  let digests := [("md5", Digest.md5), ("sha1", .sha1), ("sha224", .sha224), ("sha256", .sha256),
    ("sha384", .sha384), ("sha512", .sha512)]
  match digests.lookup kind with
  | some d =>
    if a.has "check" then forEach a.inputs (checkList d a)
    else eachInput a.inputs fun name text => do
      say (digestLine d.label (!a.has "untagged") false (a.has "zero") name (d.ofText text))
      return 0
  | none =>
    eachInput a.inputs fun name text => do
      if kind = "bsd" || kind = "sysv" then
        sayLine (sumLine (kind = "sysv") (!a.operands.isEmpty) name text)
      else
        let crc := (Checksum.cyclic (ByteText.bytes text)).toNat
        sayLine (s!"{crc} {text.length}" ++ if a.operands.isEmpty then "" else s!" {name}")
      return 0

end ModularBuild.Utility
