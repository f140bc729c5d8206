import ModularBuild.Toml.Number

/-!
# The statements of a text

Reads a text into its statements. Arrays and inline tables nest up to a limit, and so do the parts
of a dotted key.
-/

namespace ModularBuild.Toml

open Text Text.Reader

/-- Arrays and inline tables inside each other, and the parts of a key, stay below this. -/
def nestingLimit : Nat := 80

/-! ## Keys -/

def isBareKeyChar (c : Char) : Bool := c.isAlphanum || c = '_' || c = '-'

def simpleKey : Reader String := do
  match ← peek? with
  | some '"' => lineString .double
  | some '\'' => lineString .single
  | _ =>
    match ← takeWhile isBareKeyChar with
    | [] => failure
    | cs => return String.ofList cs

/-- A key's parts, with dots between them and blanks around each. -/
def key : Reader (List String) := do
  let part : Reader String := do
    blanks
    let k ← simpleKey
    blanks
    return k
  let first ← part
  let rest ← many (do
    if (← peek?) = some '.' then skip 1; some <$> part else return none)
  let parts := first :: rest
  if parts.length < nestingLimit then return parts else failure

/-! ## Values -/

/-- Items with commas between them up to, and without, the closing bracket. -/
def commaSeparated {α : Type} (item : Reader α) (closing : Char) (trailingComma : Bool) :
    Reader (List α) := do
  if (← peek?) = some closing then return []
  let first ← item
  let rest ← many (do
    if (← peek?) = some ',' then
      skip 1
      if trailingComma then
        blankLines
        if (← peek?) = some closing then return none
      some <$> item
    else return none)
  return first :: rest

def scalar : Reader Literal := do
  match ← peek? with
  | some '"' => .str <$> quotedString .double
  | some '\'' => .str <$> quotedString .single
  | some 't' => text "true"; return .bool true
  | some 'f' => text "false"; return .bool false
  | some 'i' | some 'n' => .float <$> float
  | _ => number

/-- A value with arrays and inline tables nested at most `depth` deep. -/
def literal : Nat → Reader Literal
  | 0 => scalar
  | depth + 1 => do
    match ← peek? with
    | some '[' =>
      skip 1
      blankLines
      let item := do
        blankLines
        let v ← literal depth
        blankLines
        return v
      let items ← commaSeparated item ']' true
      char ']'
      return .arr items
    | some '\x7b' =>
      skip 1
      blanks
      let assignment := do
        let k ← key
        char '='
        blanks
        let v ← literal depth
        blanks
        return (k, v)
      let assignments ← commaSeparated assignment '\x7d' false
      char '\x7d'
      return .table assignments
    | _ => scalar

/-! ## Statements -/

/-- A whole statement with the end of its line; none at the end of the text. Lines that say nothing
give no statement. -/
def statementLine : Reader (Option (Option Statement)) := do
  match ← peek? with
  | none => return none
  | some '#' => comment; lineEnd; return some none
  | some '\n' | some '\r' => newline; return some none
  | some ' ' | some '\t' => blanks; return some none
  | some '[' =>
    if ← startsWith "[[" then
      skip 2
      let k ← key
      text "]]"
      statementEnd
      return some (some (.arrayHeader k))
    else
      skip 1
      let k ← key
      char ']'
      statementEnd
      return some (some (.header k))
  | some _ =>
    let k ← key
    char '='
    blanks
    let v ← literal (nestingLimit - 1)
    statementEnd
    return some (some (.assign k v))

/-- The mark that may stand before a text to tell its encoding. -/
def byteOrderMark : Char := '\uFEFF'

/-- The statements of a text; none if it is not well formed. -/
def statements? (s : String) : Option (List Statement) :=
  let cs := match s.toList with
    | c :: cs => if c = byteOrderMark then cs else c :: cs
    | [] => []
  (readAll? (many statementLine) cs).map (·.filterMap id)

end ModularBuild.Toml
