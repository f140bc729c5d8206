import ModularBuild.Toml.Statement

/-!
# From statements to tables

A document is put together one statement at a time. What a table still accepts depends on how it
came about: by a header, by being named on the way to something else, or by a dotted key. A table
may be given a header once, dotted keys extend only the tables that dotted keys made, and no key is
written twice. Inline tables follow the rules of dotted keys and are closed at the end.
-/

namespace ModularBuild.Toml

/-- How a table came about. -/
inductive Origin where
  /-- By its header, or as the top level. -/
  | header
  /-- As a stage on the way to another table's header. -/
  | stage
  /-- By a dotted key. -/
  | dotted
deriving DecidableEq

/-- A part of a document in the making. -/
inductive Part where
  | value (v : Value)
  | table (origin : Origin) (entries : List (String × Part))
  /-- The tables of an array, the newest first. -/
  | tables (newest : List Part)
deriving Inhabited

/-- The entries of a table in the making, in the order of their keys' first mention. -/
abbrev Entries := List (String × Part)

namespace Entries

def find? (es : Entries) (key : String) : Option Part := es.lookup key

/-- Puts a part in the place of its key, or behind all others. -/
def put (key : String) (p : Part) : Entries → Entries
  | [] => [(key, p)]
  | (k, q) :: es => if k = key then (k, p) :: es else (k, q) :: put key p es

end Entries

/-- A table in the making. -/
structure OpenTable where
  origin : Origin
  entries : Entries

namespace OpenTable

def toPart (t : OpenTable) : Part := .table t.origin t.entries

/-- Changes the table a path of keys leads to. Missing tables on the way are made with the origin
`made`; of an array of tables the newest one is meant; a value is in the way. Dotted keys pass only
through tables that have no header. -/
def descend (made : Origin) (change : OpenTable → Option OpenTable) :
    List String → OpenTable → Option OpenTable
  | [], t => change t
  | key :: keys, t => do
    let put (p : Part) : OpenTable := { t with entries := t.entries.put key p }
    match t.entries.find? key with
    | none => return put (← descend made change keys ⟨made, []⟩).toPart
    | some (.table origin entries) =>
      if made = .dotted && origin = .header then failure
      return put (← descend made change keys ⟨origin, entries⟩).toPart
    | some (.tables (.table origin entries :: older)) =>
      return put (.tables ((← descend made change keys ⟨origin, entries⟩).toPart :: older))
    | some _ => failure

/-- Writes a value under a key. A plain key belongs into a table that is no dotted key's, and the
last part of a dotted key into one that is. -/
def assign (key : List String) (v : Value) (t : OpenTable) : Option OpenTable := do
  let last ← key.getLast?
  let path := key.dropLast
  descend .dotted (fun inner =>
    if path.isEmpty == decide (inner.origin = .dotted)
        || (inner.entries.find? last).isSome then none
    else some { inner with entries := inner.entries.put last (.value v) }) path t

def openTable (key : List String) (t : OpenTable) : Option OpenTable := do
  let last ← key.getLast?
  descend .stage (fun inner =>
    match inner.entries.find? last with
    | none => some { inner with entries := inner.entries.put last (.table .header []) }
    | some (.table .stage entries) =>
      some { inner with entries := inner.entries.put last (.table .header entries) }
    | some _ => none) key.dropLast t

def openArrayTable (key : List String) (t : OpenTable) : Option OpenTable := do
  let last ← key.getLast?
  let new : Part := .table .header []
  descend .stage (fun inner =>
    match inner.entries.find? last with
    | none => some { inner with entries := inner.entries.put last (.tables [new]) }
    | some (.tables newest) =>
      some { inner with entries := inner.entries.put last (.tables (new :: newest)) }
    | some _ => none) key.dropLast t

end OpenTable

/-! ## Closing -/

mutual

def Part.toValue : Part → Value
  | .value v => v
  | .table _ entries => .table (entryValues entries)
  | .tables newest => .arr (partValues newest).reverse

def entryValues : List (String × Part) → List (String × Value)
  | [] => []
  | (key, p) :: es => (key, p.toValue) :: entryValues es

def partValues : List Part → List Value
  | [] => []
  | p :: ps => p.toValue :: partValues ps

end

def OpenTable.toValue (t : OpenTable) : Value := t.toPart.toValue

mutual

/-- The value of a literal; none if an inline table writes a key twice. -/
def Literal.toValue? : Literal → Option Value
  | .str s => some (.str s)
  | .int n => some (.int n)
  | .float w => some (.float w)
  | .bool b => some (.bool b)
  | .moment w => some (.moment w)
  | .arr items => (literalValues? items).map .arr
  | .table assignments => (inlineTable? ⟨.header, []⟩ assignments).map (·.toValue)

def literalValues? : List Literal → Option (List Value)
  | [] => some []
  | l :: ls => do return (← l.toValue?) :: (← literalValues? ls)

/-- Writes the assignments of an inline table into a table. -/
def inlineTable? (t : OpenTable) : List (List String × Literal) → Option OpenTable
  | [] => some t
  | (key, l) :: rest => do inlineTable? (← t.assign key (← l.toValue?)) rest

end

/-! ## The whole document -/

/-- A document in the making: its top level and the key of the header statements stand below. -/
structure Document where
  top : OpenTable := ⟨.header, []⟩
  current : List String := []

/-- Takes a statement; none if the rules forbid it. -/
def Document.take? (d : Document) : Statement → Option Document
  | .header key => do return ⟨← d.top.openTable key, key⟩
  | .arrayHeader key => do return ⟨← d.top.openArrayTable key, key⟩
  | .assign key l => do
    let v ← l.toValue?
    return { d with top := ← d.top.descend .stage (OpenTable.assign key v) d.current }

/-- The table that a text says; none if it is no TOML. -/
def parse? (s : String) : Option Value := do
  let d ← (← statements? s).foldlM Document.take? {}
  return d.top.toValue

end ModularBuild.Toml
