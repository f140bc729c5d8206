import ModularBuild.Number.Layout
import ModularBuild.Text.CharClass

/-!
# Escapes and quotes

Characters written as a backslash and a letter, or as a backslash and a number. A text can be shown as
a word of the shell that stands for it, or between single quotes with backslashes; the characters are
bytes then, and those that cannot be shown are written as escapes.
-/

namespace ModularBuild.Text

/-! ## Reading escapes -/

def escapeLetters : List (Char × Char) := [
  ('a', '\x07'), ('b', '\x08'), ('e', '\x1b'), ('f', '\x0c'), ('n', '\n'), ('r', '\r'),
  ('t', '\t'), ('v', '\x0b'), ('\\', '\\')]

def isOctal (c : Char) : Bool := '0' ≤ c && c ≤ '7'

def isHexadecimal (c : Char) : Bool :=
  c.isDigit || ('a' ≤ c && c ≤ 'f') || ('A' ≤ c && c ≤ 'F')

def hexadecimalValue (c : Char) : Nat :=
  if c.isDigit then c.toNat - '0'.toNat else c.toLower.toNat - 'a'.toNat + 10

/-- The byte that at most `most` digits of a base at the front of a text stand for, and what follows
them. -/
def takeCode (base most : Nat) (isDigit : Char → Bool) (cs : List Char) : Char × List Char :=
  let ds := (cs.take most).takeWhile isDigit
  let n := ds.foldl (fun n c => n * base + hexadecimalValue c) 0
  (Char.ofNat (n % 256), cs.drop ds.length)

structure EscapeStyle where
  /-- Whether an octal number may have a zero in front of its three digits. -/
  longOctal : Bool
  /-- Whether there are octal numbers without a zero in front. -/
  bareOctal : Bool := true
  hexadecimal : Bool
  /-- Whether `\c` ends all output. -/
  stops : Bool
  /-- Whether a double quote may be escaped. -/
  quote : Bool

inductive Escaped where
  | char (c : Char) (rest : List Char)
  | stop
  /-- A backslash that stands for itself. -/
  | plain

def EscapeStyle.read (style : EscapeStyle) (cs : List Char) : Escaped :=
  match cs with
  | [] => .plain
  | c :: rest =>
    if c = 'c' && style.stops then .stop
    else if c = '"' && style.quote then .char c rest
    else if c = '0' && style.longOctal then
      let (d, rest) := takeCode 8 3 isOctal rest
      .char d rest
    else if isOctal c && style.bareOctal then
      let (d, rest) := takeCode 8 3 isOctal cs
      .char d rest
    else if c = 'x' && style.hexadecimal && rest.head?.any isHexadecimal then
      let (d, rest) := takeCode 16 2 isHexadecimal rest
      .char d rest
    else match escapeLetters.lookup c with
      | some d => .char d rest
      | none => .plain

/-- A text with its escapes read, and whether output ends with it; `fuel` is its length. -/
def EscapeStyle.expandFor (style : EscapeStyle) : Nat → List Char → List Char × Bool
  | 0, _ => ([], false)
  | _, [] => ([], false)
  | fuel + 1, '\\' :: cs =>
    match style.read cs with
    | .stop => ([], true)
    | .char c rest =>
      let (more, stop) := style.expandFor fuel rest
      (c :: more, stop)
    | .plain =>
      let (more, stop) := style.expandFor fuel cs
      ('\\' :: more, stop)
  | fuel + 1, c :: cs =>
    let (more, stop) := style.expandFor fuel cs
    (c :: more, stop)

def EscapeStyle.expand (style : EscapeStyle) (s : String) : String × Bool :=
  let (cs, stop) := style.expandFor s.length s.toList
  (String.ofList cs, stop)

/-! ## Writing escapes -/

def escapeLetter? (c : Char) : Option Char :=
  match c.toNat with
  | 7 => some 'a'
  | 8 => some 'b'
  | 9 => some 't'
  | 10 => some 'n'
  | 11 => some 'v'
  | 12 => some 'f'
  | 13 => some 'r'
  | _ => none

def isShown (c : Char) : Bool := 0x20 ≤ c.toNat && c.toNat < 0x7F

def escapeOf (c : Char) : List Char :=
  match escapeLetter? c with
  | some e => ['\\', e]
  | none => '\\' :: (numeral 8 3 c.toNat).toList

/-! ## For the shell -/

def shellSigns : List Char := " !\"$&()*;<=>[^`|'\\?".toList

def needsQuotes (cs : List Char) : Bool :=
  match cs with
  | [] => true
  | ['{'] | ['}'] => true
  | '#' :: _ | '~' :: _ => true
  | cs => cs.any fun c => !isShown c || shellSigns.contains c

def fitsDoubleQuotes (cs : List Char) : Bool :=
  cs.all fun c => isShown c && !"!\"$&()*;<=>[^`|\\?".toList.contains c

/-- The inside of a text in single quotes; `escaped` says whether an escape has just been written,
which stands in quotes of its own. -/
def insideQuotes (escaped : Bool) : List Char → List Char
  | [] => []
  | c :: cs =>
    if isShown c then
      (if escaped then "''".toList else []) ++
        (if c = '\'' then "'\\''".toList else [c]) ++ insideQuotes false cs
    else (if escaped then [] else "'$'".toList) ++ escapeOf c ++ insideQuotes true cs

def shellQuoted (s : String) : String :=
  let cs := s.toList
  if cs.contains '\'' && fitsDoubleQuotes cs then String.ofList ('"' :: cs ++ ['"'])
  else String.ofList ('\'' :: insideQuotes false cs ++ ['\''])

/-- A text as a word of the shell, in quotes only if it has to be. -/
def shellWord (s : String) : String := if needsQuotes s.toList then shellQuoted s else s

/-- The name of a file in front of a message, which a colon ends. -/
def nameInMessage (s : String) : String :=
  if needsQuotes s.toList || s.toList.contains ':' then shellQuoted s else s

/-! ## Between single quotes -/

/-- A text between single quotes, with a backslash before quotes and backslashes. -/
def inSingleQuotes (s : String) : String :=
  let shown (c : Char) : List Char :=
    if c = '\'' || c = '\\' then ['\\', c] else if isShown c then [c] else escapeOf c
  String.ofList ('\'' :: s.toList.flatMap shown ++ ['\''])

end ModularBuild.Text
