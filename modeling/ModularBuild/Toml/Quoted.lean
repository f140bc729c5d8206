import ModularBuild.Text.Reader

/-!
# Blanks and quoted strings

Spaces and tabs are blanks, a line ends in a line feed or in a carriage return and a line feed, and
a comment runs to the end of its line and holds no control character but the tab.

A string stands in double quotes, where a backslash begins an escape, or in single quotes, where it
does not; each on one line, or on several between triple quotes. A run of quotes at the end of a
string of several lines may hold up to two that belong to the string.
-/

namespace ModularBuild.Toml

open Text Text.Reader

/-! ## Blanks, comments and line ends -/

def isBlank (c : Char) : Bool := c = ' ' || c = '\t'

/-- A character that may stand in a text of one line: no control character but the tab. -/
def isLineChar (c : Char) : Bool := c = '\t' || (0x20 ≤ c.toNat && c.toNat ≠ 0x7F)

def blanks : Reader Unit := do discard <| takeWhile isBlank

def newline : Reader Unit := char '\n' <|> text "\r\n"

def comment : Reader Unit := do
  char '#'
  discard <| takeWhile isLineChar

def lineEnd : Reader Unit := do
  match ← peek? with
  | none => return ()
  | some _ => newline

def statementEnd : Reader Unit := do
  blanks
  discard <| attempt comment
  lineEnd

/-- Blanks, line ends and whole comments, as they may stand between the items of an array. -/
def blankLines : Reader Unit := do
  discard <| many (do
    match ← peek? with
    | some '#' => comment; newline; return some ()
    | some '\n' | some '\r' => newline; return some ()
    | some ' ' | some '\t' => blanks; return some ()
    | _ => return none)

/-! ## Escapes -/

def hexValue? (c : Char) : Option Nat :=
  if c.isDigit then some (c.toNat - '0'.toNat)
  else if 'a' ≤ c && c ≤ 'f' then some (c.toNat - 'a'.toNat + 10)
  else if 'A' ≤ c && c ≤ 'F' then some (c.toNat - 'A'.toNat + 10)
  else none

/-- The character of a code point, unless it is a surrogate or out of range. -/
def charOfCode? (n : Nat) : Option Char := if n.isValidChar then some (Char.ofNat n) else none

/-- A character by its code point in so many hexadecimal digits. -/
def codePoint (digits : Nat) : Reader Char := do
  let ds := (← get).take digits
  skip digits
  let values ← (ds.mapM hexValue? : Option (List Nat))
  if values.length = digits then charOfCode? (values.foldl (fun n d => n * 16 + d) 0) else failure

def escape : Reader Char := do
  match ← satisfy fun _ => true with
  | 'b' => return '\x08'
  | 't' => return '\t'
  | 'n' => return '\n'
  | 'f' => return '\x0c'
  | 'r' => return '\r'
  | '"' => return '"'
  | '\\' => return '\\'
  | 'u' => codePoint 4
  | 'U' => codePoint 8
  | _ => failure

/-! ## On one line -/

/-- The quote that opened a string. -/
inductive QuoteMark where
  | double
  | single
deriving DecidableEq

def QuoteMark.char : QuoteMark → Char
  | double => '"'
  | single => '\''

def QuoteMark.hasEscapes (q : QuoteMark) : Bool := q = .double

/-- One character of a string on one line, or none at its end. -/
def lineChar (q : QuoteMark) : Reader (Option Char) := do
  match ← peek? with
  | none => failure
  | some c =>
    if c = q.char then return none
    else if c = '\\' && q.hasEscapes then skip 1; some <$> escape
    else some <$> satisfy isLineChar

def lineString (q : QuoteMark) : Reader String := do
  char q.char
  let cs ← many (lineChar q)
  char q.char
  return String.ofList cs

/-! ## On several lines -/

/-- A backslash at the end of a line takes the line end and all blanks and line ends after it. -/
def lineContinuation : Reader Unit := do
  char '\\'
  blanks
  newline
  discard <| many (attempt (newline <|> discard (satisfy isBlank)))

/-- A piece of a string on several lines, or none before the quotes that close it. Every line end
reads as a line feed. -/
def blockPiece (q : QuoteMark) : Reader (Option (List Char)) := do
  if 3 ≤ (← countRun q.char) then return none
  match ← peek? with
  | none => failure
  | some '\n' | some '\r' => newline; return some ['\n']
  | some '\\' =>
    if q.hasEscapes then
      (do lineContinuation; return some []) <|> (do skip 1; return some [← escape])
    else skip 1; return some ['\\']
  | some _ => return some [← satisfy isLineChar]

def blockString (q : QuoteMark) : Reader String := do
  skip 3
  discard <| attempt newline
  let pieces ← many (blockPiece q)
  let run ← countRun q.char
  if 5 < run then failure
  skip run
  return String.ofList (pieces.flatten ++ List.replicate (run - 3) q.char)

/-- A string that begins with the quote `q`. -/
def quotedString (q : QuoteMark) : Reader String := do
  if 3 ≤ (← countRun q.char) then blockString q else lineString q

end ModularBuild.Toml
