import ModularBuild.Text.Escape
import ModularBuild.Utility.Rules.Pattern
import ModularBuild.Utility.Rules.Value

/-!
# Tokens of programs of rules

A program is cut into tokens. A slash begins a pattern where no operand stands before it, and a division
elsewhere. Line ends are left out where the program cannot end a statement.
-/

namespace ModularBuild.Utility.Rules

open Text

inductive Token where
  | newline
  | semicolon
  | number (x : Float)
  | text (s : String)
  | pattern (s : String)
  | name (s : String)
  /-- A name with an opening bracket right behind it. -/
  | called (s : String)
  /-- A word with a meaning, or signs. -/
  | sign (s : String)
  | unexpected (c : Char)
  /-- A mistake that ends the reading. -/
  | mistake (message : String)
  | ending
deriving Inhabited

structure Located where
  token : Token
  line : Nat
  /-- What it is called in messages. -/
  shown : String
deriving Inhabited

namespace Token

def keywords : List String :=
  ["BEGIN", "END", "function", "if", "else", "while", "for", "do", "break", "continue", "delete", "in",
    "next", "nextfile", "exit", "return", "print", "printf", "getline"]

/-- The functions that every program has, with the least and the greatest number of arguments. -/
def builtins : List (String × Builtin × Nat × Nat) := [
  ("length", .length, 0, 1), ("index", .index, 2, 2), ("substr", .substring, 2, 3),
  ("toupper", .toUpper, 1, 1), ("tolower", .toLower, 1, 1), ("int", .integer, 1, 1),
  ("sqrt", .squareRoot, 1, 1), ("exp", .exponential, 1, 1), ("log", .logarithm, 1, 1),
  ("sin", .sine, 1, 1), ("cos", .cosine, 1, 1), ("atan2", .arcTangent, 2, 2),
  ("rand", .random, 0, 0), ("srand", .seed, 0, 1), ("sprintf", .format, 1, 255),
  ("close", .close, 1, 1), ("fflush", .flush, 0, 1), ("system", .system, 1, 1),
  ("systime", .time, 0, 0), ("strftime", .date, 0, 3)]

/-- The functions that have an array or a pattern among their arguments. -/
def specialFunctions : List String := ["split", "match", "sub", "gsub"]

def isReserved (w : String) : Bool :=
  keywords.contains w || specialFunctions.contains w || (builtins.lookup w).isSome

def signs : List String :=
  ["&&", "||", "==", "!=", "<=", ">=", ">>", "!~", "++", "--", "+=", "-=", "*=", "/=", "%=", "^=",
    "\x7b", "\x7d", "(", ")", "[", "]", ",", "<", ">", "=", "+", "-", "*", "/", "%", "^", "!", "~", "?",
    ":", "$", "|"]

/-- Whether an operand can end with a token, so that a slash behind it divides. -/
def endsOperand : Token → Bool
  | number _ | text _ | pattern _ | name _ => true
  | sign s => [")", "]", "++", "--", "getline", "length"].contains s
  | _ => false

def joinsLines : Token → Bool
  | newline | semicolon => true
  | sign s => ["\x7b", "\x7d", "&&", "||", ",", "do", "else"].contains s
  | _ => false

def takeTextEscape (cs : List Char) : List Char × List Char :=
  match cs with
  | [] => (['\\'], [])
  | c :: rest =>
    if c = '\n' then ([], rest)
    else if c = '"' then (['"'], rest)
    else match patternEscapes.lookup c with
      | some d => ([d], rest)
      | none =>
        if isOctal c then
          let (d, rest) := takeCode 8 3 isOctal cs
          ([d], rest)
        else if c = 'x' && rest.head?.any isHexadecimal then
          let (d, rest) := takeCode 16 2 isHexadecimal rest
          ([d], rest)
        else (['\\', c], rest)

/-- A text between quotation marks, after the first one: the text, and what follows it. -/
def takeText : Nat → List Char → Option (List Char × List Char)
  | 0, _ => none
  | _, [] => none
  | _, '\n' :: _ => none
  | _, '"' :: cs => some ([], cs)
  | fuel + 1, '\\' :: cs =>
    let (taken, rest) := takeTextEscape cs
    (takeText fuel rest).map fun (more, after) => (taken ++ more, after)
  | fuel + 1, c :: cs => (takeText fuel cs).map fun (more, after) => (c :: more, after)

/-- A text with its escapes read; `fuel` is its length. -/
def unescapedFrom : Nat → List Char → List Char
  | 0, _ => []
  | _, [] => []
  | fuel + 1, '\\' :: cs =>
    let (taken, rest) := takeTextEscape cs
    taken ++ unescapedFrom fuel rest
  | fuel + 1, c :: cs => c :: unescapedFrom fuel cs

def unescaped (s : String) : String := String.ofList (unescapedFrom s.length s.toList)

/-- A pattern after its first slash: the pattern, and what follows it. Slashes in brackets belong to
it. -/
def takePattern : Nat → Bool → List Char → Option (List Char × List Char)
  | 0, _, _ => none
  | _, _, [] => none
  | _, _, '\n' :: _ => none
  | _, false, '/' :: cs => some ([], cs)
  | fuel + 1, inside, '\\' :: '/' :: cs =>
    (takePattern fuel inside cs).map fun (more, after) => ('/' :: more, after)
  | fuel + 1, inside, '\\' :: c :: cs =>
    (takePattern fuel inside cs).map fun (more, after) => ('\\' :: c :: more, after)
  | fuel + 1, false, '[' :: cs =>
    let start := match cs with
      | '^' :: ']' :: _ => ['^', ']']
      | '^' :: _ => ['^']
      | ']' :: _ => [']']
      | _ => []
    (takePattern fuel true (cs.drop start.length)).map fun (more, after) =>
      ('[' :: start ++ more, after)
  | fuel + 1, true, '[' :: ':' :: cs =>
    match className? ('[' :: ':' :: cs) with
    | some (w, rest) => (takePattern fuel true rest).map fun (more, after) =>
        (s!"[:{w}:]".toList ++ more, after)
    | none => (takePattern fuel true (':' :: cs)).map fun (more, after) => ('[' :: more, after)
  | fuel + 1, true, ']' :: cs => (takePattern fuel false cs).map fun (more, after) =>
      (']' :: more, after)
  | fuel + 1, inside, c :: cs => (takePattern fuel inside cs).map fun (more, after) =>
      (c :: more, after)

def takeNumber (cs : List Char) : List Char :=
  let whole := cs.takeWhile Char.isDigit
  let rest := cs.drop whole.length
  let places := match rest with
    | '.' :: more => '.' :: more.takeWhile Char.isDigit
    | _ => []
  let rest := rest.drop places.length
  let exponent := match rest with
    | e :: more =>
      if e = 'e' || e = 'E' then
        let signed := more.takeWhile fun c => c = '+' || c = '-'
        let digits := (more.drop signed.length).takeWhile Char.isDigit
        if signed.length ≤ 1 && !digits.isEmpty then e :: signed ++ digits else []
      else []
    | [] => []
  whole ++ places ++ exponent

def isNameStart (c : Char) : Bool := c.isAlpha || c = '_'

def isNamePart (c : Char) : Bool := c.isAlphanum || c = '_'

def lineEnds (cs : List Char) : Nat := cs.count '\n'

/-- How a message begins that tells of a line of a program. -/
def lineName (source : String) (line : Nat) : String :=
  if source = "" then s!"line {line}" else s!"{source}: line {line}"

def runaway (cs : List Char) : String := String.ofList ((cs.takeWhile (· ≠ '\n')).take 10)

/-- Cuts a program into tokens; `last` is the token before, and `fuel` is the number of characters. -/
def tokensFrom (source : String) : Nat → Token → Nat → List Char → List Located
  | 0, _, line, _ => [⟨.ending, line, "end of file"⟩]
  | _, _, line, [] => [⟨.ending, line, "end of file"⟩]
  | fuel + 1, last, line, c :: cs =>
    let add (t : Token) (shown : String) (line' : Nat) (rest : List Char) : List Located :=
      ⟨t, line, shown⟩ :: tokensFrom source fuel t line' rest
    if c = '\n' then
      if joinsLines last then tokensFrom source fuel last (line + 1) cs
      else add .newline "end of line" (line + 1) cs
    else if isSpace c then tokensFrom source fuel last line cs
    else if c = '#' then tokensFrom source fuel last line (cs.dropWhile (· ≠ '\n'))
    else if c = '\\' && cs.head? = some '\n' then
      tokensFrom source fuel last (line + 1) (cs.drop 1)
    else if c = '\\' && cs.take 2 = ['\r', '\n'] then
      tokensFrom source fuel last (line + 1) (cs.drop 2)
    else if c = ';' then add .semicolon ";" line cs
    else if c = '"' then
      match takeText (cs.length + 1) cs with
      | some (taken, rest) =>
        let text := String.ofList taken
        add (.text text) text (line + (lineEnds cs - lineEnds rest)) rest
      | none =>
        let message := s!"{lineName source line}: runaway string constant \"{runaway cs} ..."
        [⟨.mistake message, line, ""⟩]
    else if c = '/' && !endsOperand last then
      match takePattern (cs.length + 1) false cs with
      | some (taken, rest) =>
        let text := String.ofList taken
        add (.pattern text) s!"/{text}/" line rest
      | none =>
        let message := s!"{lineName source line}: runaway regular expression /{runaway cs} ..."
        [⟨.mistake message, line, ""⟩]
    else if c.isDigit || (c = '.' && cs.head?.any Char.isDigit) then
      let taken := takeNumber (c :: cs)
      let text := String.ofList taken
      add (.number (numberOf text)) text line ((c :: cs).drop taken.length)
    else if isNameStart c then
      let taken := (c :: cs).takeWhile isNamePart
      let rest := (c :: cs).drop taken.length
      let w := String.ofList taken
      if isReserved w then add (.sign w) w line rest
      else if rest.head? = some '(' then add (.called w) w line rest
      else add (.name w) w line rest
    else match signs.find? fun s => s.toList.isPrefixOf (c :: cs) with
      | some s => add (.sign s) s line ((c :: cs).drop s.length)
      | none => add (.unexpected c) (String.singleton c) line cs

/-- The tokens of a program; its last line has an end in any case. -/
def tokensOf (source : String) (program : String) : List Located :=
  let cs := program.toList ++ ['\n']
  tokensFrom source (cs.length + 1) .newline 1 cs

end Token

end ModularBuild.Utility.Rules
