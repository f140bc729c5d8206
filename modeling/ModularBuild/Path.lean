/-!
# Paths

A path is its text; nothing is normalized when it is written down, so `a//b` stays `a//b` when it is
shown. Its meaning is the list of its components: repeated and trailing slashes say nothing, neither
does a `.` inside, and `..` is a component like any other. Paths are ordered, and looked up, by
component.

`normalize?` resolves `.` and `..` of a path that is relative to the project root without looking at
the file system. Absolute paths, and paths that climb above the root at any point, have no normal
form. `toSlash` is the canonical spelling of a path as a string.
-/

namespace ModularBuild

/-- One step of a path, in the order steps sort by. -/
inductive Component where
  | root
  | current
  | parent
  | normal (name : String)
deriving DecidableEq, Repr

namespace Component

def rank : Component → Nat
  | root => 0
  | current => 1
  | parent => 2
  | normal _ => 3

def text : Component → String
  | root => "/"
  | current => "."
  | parent => ".."
  | normal name => name

def name : Component → String
  | normal name => name
  | _ => ""

instance : Ord Component := ⟨compareLex (compareOn rank) (compareOn name)⟩

instance : Std.TransOrd Component :=
  inferInstanceAs (Std.TransCmp (compareLex (compareOn rank) (compareOn name)))

instance : Std.LawfulEqOrd Component where
  eq_of_compare {a b} h := by
    have h : (compare a.rank b.rank).then (compare a.name b.name) = .eq := h
    obtain ⟨hr, hn⟩ := Ordering.then_eq_eq.mp h
    have hr := Std.LawfulEqCmp.eq_of_compare hr
    have hn := Std.LawfulEqCmp.eq_of_compare hn
    cases a <;> cases b <;> simp_all [rank, name]

end Component

/-- The pieces of a text between separators; a text without one is a single piece. -/
def pieces (sep : Char) : List Char → List (List Char)
  | [] => [[]]
  | c :: cs =>
    if c = sep then [] :: pieces sep cs
    else match pieces sep cs with
      | [] => [[c]]
      | p :: ps => (c :: p) :: ps

structure Path where
  text : String
deriving DecidableEq, Repr, Inhabited

namespace Path

instance : Coe String Path := ⟨Path.mk⟩

/-! ## Components -/

/-- What a piece between slashes stands for where it is not the first one. -/
def component? : List Char → Option Component
  | [] => none
  | ['.'] => none
  | ['.', '.'] => some .parent
  | name => some (.normal (String.ofList name))

/-- What the first piece stands for: nothing before a slash is the root, and `.` counts. -/
def firstComponent? (isOnly : Bool) : List Char → Option Component
  | [] => if isOnly then none else some .root
  | ['.'] => some .current
  | piece => component? piece

/-- A path's pieces, each with the component it stands for, if any. -/
def parsed (p : Path) : List (List Char × Option Component) :=
  match pieces '/' p.text.toList with
  | [] => []
  | first :: rest =>
    (first, firstComponent? rest.isEmpty first) :: rest.map fun piece => (piece, component? piece)

def components (p : Path) : List Component := p.parsed.filterMap (·.2)

instance : Ord Path := ⟨compareOn components⟩

instance : Std.TransOrd Path := inferInstanceAs (Std.TransCmp (compareOn components))

/-- Two spellings of one path. -/
def Same (p q : Path) : Prop := p.components = q.components

instance (p q : Path) : Decidable (Same p q) := inferInstanceAs (Decidable (_ = _))

theorem compare_eq_iff_same {p q : Path} : compare p q = .eq ↔ p.Same q :=
  show compare p.components q.components = .eq ↔ _ from Std.LawfulEqCmp.compare_eq_iff_eq

def isEmpty (p : Path) : Bool := p.text.isEmpty

def isAbsolute (p : Path) : Bool := p.text.toList.head? = some '/'

/-! ## Taking apart -/

/-- The last component, if it is a name. -/
def fileName? (p : Path) : Option String :=
  match p.components.getLast? with
  | some (.normal name) => some name
  | _ => none

def ofPieces (ps : List (List Char)) : Path :=
  match ps with
  | [[]] => ⟨"/"⟩
  | ps => ⟨String.ofList (List.intercalate ['/'] ps)⟩

/-- The path without its last component: the text up to the component before. The root and the
empty path have none. -/
def parent? (p : Path) : Option Path :=
  let trim := List.dropWhile fun (piece : List Char × Option Component) => piece.2.isNone
  match trim p.parsed.reverse with
  | [] => none
  | (_, some .root) :: _ => none
  | _ :: before =>
    match trim before with
    | [] => some ⟨""⟩
    | kept => some (ofPieces (kept.map (·.1)).reverse)

/-- A path and the paths above it, nearest first; `n` is at least the number of its components. -/
def ancestorsUpTo (p : Path) : Nat → List Path
  | 0 => [p]
  | n + 1 => p :: match p.parent? with
    | some q => q.ancestorsUpTo n
    | none => []

/-- A path and the paths above it, nearest first. -/
def ancestors (p : Path) : List Path := p.ancestorsUpTo p.components.length

/-! ## Putting together -/

/-- Appends a path; an absolute one replaces what is there. -/
def join (p q : Path) : Path :=
  if q.isAbsolute then q
  else if p.isEmpty || p.text.toList.getLast? = some '/' then ⟨p.text ++ q.text⟩
  else ⟨p.text ++ "/" ++ q.text⟩

instance : Div Path := ⟨join⟩

/-- Components pushed one after the other onto the empty path. -/
def ofComponents (cs : List Component) : Path := cs.foldl (fun p c => p.join ⟨c.text⟩) ⟨""⟩

/-! ## Lexical normalization -/

/-- Resolves components against the names collected so far, innermost first. -/
def normalizeOnto : List String → List Component → Option (List String)
  | names, [] => some names
  | _, .root :: _ => none
  | names, .current :: cs => normalizeOnto names cs
  | [], .parent :: _ => none
  | _ :: names, .parent :: cs => normalizeOnto names cs
  | names, .normal name :: cs => normalizeOnto (name :: names) cs

def ofNames (names : List String) : Path := ⟨String.intercalate "/" names⟩

/-- The project-relative path without `.` and `..`; `none` if it is absolute or climbs above the
root. -/
def normalize? (p : Path) : Option Path :=
  (normalizeOnto [] p.components).map fun names => ofNames names.reverse

/-- A normal form that names something below the root, and not the root itself. -/
def normalizeInside? (p : Path) : Option Path := p.normalize?.filter (!·.isEmpty)

def toSlash (p : Path) : String := String.intercalate "/" (p.components.map Component.text)

end Path

end ModularBuild
