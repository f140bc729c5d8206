import ModularBuild.Path

/-!
# Module paths

A module is named by its directory relative to the project root: forward slashes, no trailing
separator, no leading `./`. The project root itself is `.`.
-/

namespace ModularBuild

/-- Both slashes separate directories in the text of a module. -/
def isSeparator (c : Char) : Bool := c = '/' || c = '\\'

/-- The text without separators at its end; a text of nothing but separators stays as it is. -/
def stripTrailingSeparators (s : String) : String :=
  match (s.toList.reverse.dropWhile isSeparator).reverse with
  | [] => s
  | kept => String.ofList kept

def slashed (s : String) : String := s.map fun c => if c = '\\' then '/' else c

/-- The text without the `./` it starts with, however often. -/
def dropDotSlash : List Char → List Char
  | '.' :: '/' :: rest => dropDotSlash rest
  | cs => cs

/-- The last component of a module's text; the root, and an empty text, have none. -/
def directoryName? (module : String) : Option String :=
  let trimmed := (stripTrailingSeparators module).toList
  let name := String.ofList (trimmed.reverse.takeWhile (!isSeparator ·)).reverse
  if name = "" || name = "." then none else some name

def pathInModule (module name : String) : Path :=
  if module = "" || module = "." then ⟨name⟩ else Path.join ⟨module⟩ ⟨name⟩

structure ModulePath where
  text : String
deriving DecidableEq, Repr, Inhabited

namespace ModulePath

instance : Ord ModulePath := ⟨compareOn text⟩

instance : Std.TransOrd ModulePath := inferInstanceAs (Std.TransCmp (compareOn text))

instance : Std.LawfulEqOrd ModulePath where
  eq_of_compare {a b} h := by
    have h : compare a.text b.text = .eq := h
    have := Std.LawfulEqCmp.eq_of_compare h
    cases a; cases b; simp_all

instance : ToString ModulePath := ⟨text⟩

/-- The module a text names. -/
def ofString (s : String) : ModulePath :=
  match dropDotSlash (stripTrailingSeparators (slashed s)).toList with
  | [] => ⟨"."⟩
  | cs => ⟨String.ofList cs⟩

def isRoot (m : ModulePath) : Bool := m.text = "."

/-- The name of the module's directory; the root has none. -/
def directoryName? (m : ModulePath) : Option String := ModularBuild.directoryName? m.text

def pathOf (m : ModulePath) (name : String) : Path := pathInModule m.text name

end ModulePath

/-- A name together with the module that owns it. -/
structure QualifiedName where
  module : ModulePath
  name : String
deriving DecidableEq, Repr, Inhabited

namespace QualifiedName

instance : Ord QualifiedName := ⟨compareLex (compareOn module) (compareOn name)⟩

instance : Std.TransOrd QualifiedName :=
  inferInstanceAs (Std.TransCmp (compareLex (compareOn module) (compareOn name)))

instance : Std.LawfulEqOrd QualifiedName where
  eq_of_compare {a b} h := by
    have h : (compare a.module b.module).then (compare a.name b.name) = .eq := h
    obtain ⟨hm, hn⟩ := Ordering.then_eq_eq.mp h
    cases a; cases b
    simp only [mk.injEq]
    exact ⟨Std.LawfulEqCmp.eq_of_compare hm, Std.LawfulEqCmp.eq_of_compare hn⟩

/-- The module and the name with a slash between; the root module is left out. -/
def toString (q : QualifiedName) : String :=
  if q.module.isRoot then q.name else q.module.text ++ "/" ++ q.name

instance : ToString QualifiedName := ⟨toString⟩

def path (q : QualifiedName) : Path := q.module.pathOf q.name

end QualifiedName

end ModularBuild
