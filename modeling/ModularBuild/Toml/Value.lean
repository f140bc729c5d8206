/-!
# TOML values

What a TOML document says, without how it was written: the keys of a table differ from each other,
and the header lines and dotted keys of the text have become nested tables. Numbers with a fraction
or an exponent, dates and times are kept as they were written.

A record may be given as a table, or as an array of its fields in order. Fields may be left out
where they have a default. A strict record refuses keys that are no fields of it; any other passes
over them.
-/

namespace ModularBuild.Toml

inductive Value where
  | str (s : String)
  | int (n : Int)
  | float (written : String)
  | bool (b : Bool)
  /-- A date, a time, or both. -/
  | moment (written : String)
  | arr (items : List Value)
  | table (entries : List (String × Value))
deriving Inhabited

/-- A value as it stands in the text: the keys of an inline table may be dotted and may repeat. -/
inductive Literal where
  | str (s : String)
  | int (n : Int)
  | float (written : String)
  | bool (b : Bool)
  | moment (written : String)
  | arr (items : List Literal)
  | table (assignments : List (List String × Literal))
deriving Inhabited

/-- A line of a document that says something. -/
inductive Statement where
  /-- `a.b = value`, below the header before it. -/
  | assign (key : List String) (value : Literal)
  /-- `[a.b]` -/
  | header (key : List String)
  /-- `[[a.b]]`, which begins another table of an array. -/
  | arrayHeader (key : List String)
deriving Inhabited

/-! ## Reading records out of values -/

/-- Reads a value of one form; none if it has another. -/
abbrev Decoder (α : Type) := Value → Option α

namespace Decoder

def string : Decoder String
  | .str s => some s
  | _ => none

def bool : Decoder Bool
  | .bool b => some b
  | _ => none

/-- A whole number that is not negative. -/
def natural : Decoder Nat
  | .int n => if 0 ≤ n then some n.toNat else none
  | _ => none

def list {α : Type} (item : Decoder α) : Decoder (List α)
  | .arr items => items.mapM item
  | _ => none

def strings : Decoder (List String) := list string

/-- A value that has to be there in one form, as an optional setting. -/
def present {α : Type} (d : Decoder α) : Decoder (Option α) := fun v => (d v).map some

end Decoder

/-- The fields a record is given. -/
abbrev Record := List (String × Value)

namespace Record

/-- Whether keys that are no fields are refused. -/
inductive Strictness where
  | strict
  | lenient
deriving DecidableEq

/-- The fields of a value that stands for a record with these fields, in their order. A date or time
counts as a record whose one key is no field. -/
def ofValue? (strictness : Strictness) (fields : List String) : Value → Option Record
  | .table entries =>
    if strictness = .strict && entries.any (fun e => !fields.contains e.1) then none
    else some entries
  | .arr items => some (fields.zip items)
  | .moment _ => if strictness = .strict then none else some []
  | _ => none

variable {α : Type}

/-- A field that has to be given. -/
def required (r : Record) (field : String) (d : Decoder α) : Option α :=
  (r.lookup field).bind d

/-- A field, or its default if it is not given. -/
def get (r : Record) (field : String) (d : Decoder α) (default : α) : Option α :=
  match r.lookup field with
  | some v => d v
  | none => some default

end Record

end ModularBuild.Toml
