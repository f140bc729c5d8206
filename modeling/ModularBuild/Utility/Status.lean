import ModularBuild.Text.Escape
import ModularBuild.Utility.Listing

/-!
# The status of files

`stat` shows what is known about a file, in a format if one is given: a percent sign and a letter
stand for a part of it, with flags, a width and a precision between them.
-/

namespace ModularBuild.Utility

open Text

structure StatusOf where
  name : String
  location : Location
  entry : FileEntry

namespace StatusOf

def kindBits (e : FileEntry) : Nat :=
  match e.content with
  | .directory => 0o040000
  | .file _ => 0o100000
  | .link _ => 0o120000
  | .device _ => 0o020000

def deviceNumbers (e : FileEntry) : Nat × Nat :=
  match e.content with
  | .device .null => (1, 3)
  | .device .zero => (1, 5)
  | .device .full => (1, 7)
  | _ => (0, 0)

def hex (n : Nat) : String := numeral 16 1 n

/-- A part of the status as a number in a base that `#` marks, or as a text. -/
def part? (s : StatusOf) (fs : FileSystem) (c : Char) : Option (Bool × String) :=
  let e := s.entry
  let moment := Moment.ofTime e.modified
  let number (n : Nat) : Option (Bool × String) := some (true, toString n)
  let text (t : String) : Option (Bool × String) := some (false, t)
  match c with
  | 'a' => some (true, numeral 8 1 e.mode)
  | 'A' => text s!"{kindLetter e}{FileMode.letters e.mode}"
  | 'b' => number (blocksOf e * 2)
  | 'B' => number 512
  | 'd' => number 1
  | 'D' => some (true, "1")
  | 'f' => some (true, hex (kindBits e + e.mode))
  | 'F' => text (match e.content with
      | .file [] => "regular empty file"
      | .file _ => "regular file"
      | .directory => "directory"
      | .link _ => "symbolic link"
      | .device _ => "character special file")
  | 'g' | 'u' => number (ownerNumber e)
  | 'G' | 'U' => text (ownerName e)
  | 'h' => number (linkCount fs s.location e)
  | 'i' => number (fs.entries.keys.findIdx (· = s.location) + 1)
  | 'm' => text "/"
  | 'n' => text s.name
  | 'N' => text (match e.content with
      | .link target => shellQuoted s.name ++ " -> " ++ shellQuoted (ByteText.ofText target.text)
      | _ => shellQuoted s.name)
  | 'o' => number 4096
  | 's' => number (FileTest.sizeOf e)
  | 't' => some (true, hex (deviceNumbers e).1)
  | 'T' => some (true, hex (deviceNumbers e).2)
  | 'w' => text "-"
  | 'W' => number 0
  | 'x' | 'y' | 'z' => text (moment.format "%Y-%m-%d %H:%M:%S.%N %z")
  | 'X' | 'Y' | 'Z' => number moment.seconds
  | _ => none

/-- What is written for a letter with flags, a width and a precision. -/
def field (s : StatusOf) (fs : FileSystem) (flags : List Char) (width : Nat)
    (precision : Option Nat) (c : Char) : String :=
  match s.part? fs c with
  | none => "?"
  | some (isNumber, t) =>
    let t := match isNumber, precision with
      | true, some p =>
        if c = 'X' || c = 'Y' || c = 'Z' then
          let nanoseconds := numeral 10 9 (s.entry.modified % Moment.secondLength)
          if p = 0 then t else t ++ "." ++ (nanoseconds.take p).toString
        else t
      | false, some p => (t.take p).toString
      | _, none => t
    let t := if flags.contains '#' && isNumber then
        (if c = 'a' then "0" ++ t else if "DftT".toList.contains c then "0x" ++ t else t)
      else t
    let missing := width - t.length
    if flags.contains '-' then t ++ String.ofList (List.replicate missing ' ')
    else
      let fill := if flags.contains '0' && isNumber then '0' else ' '
      String.ofList (List.replicate missing fill) ++ t

/-- Fits the status into a format; `fuel` bounds its length. -/
def format (s : StatusOf) (fs : FileSystem) : Nat → List Char → String
  | 0, _ | _, [] => ""
  | fuel + 1, '%' :: cs =>
    let flags := cs.takeWhile ("-0+ #'I".toList.contains ·)
    let rest := cs.drop flags.length
    let width := rest.takeWhile Char.isDigit
    let rest := rest.drop width.length
    let (precision, rest) := match rest with
      | '.' :: more =>
        let digits := more.takeWhile Char.isDigit
        (some (if digits.isEmpty then 9 else (String.ofList digits).toNat?.getD 0),
          more.drop digits.length)
      | _ => (none, rest)
    match rest with
    | [] => "%"
    | '%' :: more => "%" ++ s.format fs fuel more
    | 'H' :: c :: more | 'L' :: c :: more =>
      (if c = 'd' || c = 'r' then "0" else "?") ++ s.format fs fuel more
    | c :: more =>
      s.field fs flags ((String.ofList width).toNat?.getD 0) precision c ++ s.format fs fuel more
  | fuel + 1, c :: cs => String.singleton c ++ s.format fs fuel cs

def usualFormat (e : FileEntry) : String :=
  "  File: %N\n  Size: %-10s\tBlocks: %-10b IO Block: %-6o %F\nDevice: %Hd,%Ld\tInode: %-11i " ++
  " Links: %-5h" ++ (match e.content with
    | .device _ => " Device type: %Hr,%Lr"
    | _ => "") ++
  "\nAccess: (%04a/%10.10A)  Uid: (%5u/%8U)   Gid: (%5g/%8G)\n" ++
  "Access: %x\nModify: %y\nChange: %z\n Birth: %w\n"

def terseFormat : String := "%n %s %b %f %u %g %D %i %h %t %T %X %Y %Z %W %o\n"

end StatusOf

def stat : Utility := fun args => do
  let a ← arguments [option 'c' "format" .required, option 'f' "file-system",
    option 'L' "dereference", word "printf" .required, option 't' "terse",
    word "cached" .required] args
  if a.operands.isEmpty then refuse "missing operand"
  let escapes : EscapeStyle :=
    { longOctal := false, hexadecimal := true, stops := false, quote := true }
  forEach a.operands fun name => do
    let standing : FileEntry :=
      { content := .device .null, mode := 0o666, modified := 0, own := false }
    let found ← if name = "-" then pure (.ok ([], standing))
      else if a.has "dereference" then lookup name else lookupLink name
    match found with
    | .error e =>
      complain s!"cannot statx {shellQuoted name}: {e.name}"
      return 1
    | .ok (location, entry) =>
      let s : StatusOf := { name, location, entry }
      let fs ← files
      let write (format : String) : UtilityM Unit :=
        say (s.format fs (format.length + 1) format.toList)
      match a.last? ["format", "printf"] with
      | some "format" => write ((a.value? "format").getD "" ++ "\n")
      | some _ => write (escapes.expand ((a.value? "printf").getD "")).1
      | none => write (if a.has "terse" then StatusOf.terseFormat else StatusOf.usualFormat entry)
      return 0

end ModularBuild.Utility
