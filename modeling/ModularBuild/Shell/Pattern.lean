import ModularBuild.Files.Operations
import ModularBuild.Text.CharClass
import ModularBuild.Text.Utf8

/-!
# Shell patterns

`*` matches any text, `?` and bracket expressions one character; quoted characters match themselves.
Patterns choose the arms of a `case`, cut values of parameters, and stand for the paths they match.
-/

namespace ModularBuild.Shell

open Text

abbrev MarkedChar := Char × Bool

inductive Glob where
  | one (k : CharClass)
  | anyText
deriving Repr

def isGlobChar : MarkedChar → Bool
  | (c, quoted) => !quoted && (c = '*' || c = '?' || c = '[')

/-- A class by its name at the front of marked characters, and what follows it. -/
def classItem? (cs : List MarkedChar) : Option (ClassItem × List MarkedChar) :=
  match className? (cs.map (·.1)) with
  | some (name, rest) =>
    if (namedClasses.lookup name).isSome && (cs.head?.map (·.2)) = some false then
      some (.named name, cs.drop (cs.length - rest.length))
    else none
  | none => none

/-- The members of a bracket expression up to its closing bracket, and what follows it. The first
character is a member, whatever it is; `fuel` is the number of characters. -/
def bracketItems : Nat → Bool → List MarkedChar → Option (List ClassItem × List MarkedChar)
  | 0, _, _ => none
  | _, _, [] => none
  | fuel + 1, first, (c, quoted) :: cs =>
    if c = ']' && !quoted && !first then some ([], cs)
    else
      match classItem? ((c, quoted) :: cs) with
      | some (item, rest) => (bracketItems fuel false rest).map fun (is, r) => (item :: is, r)
      | none =>
        match (if c = '\\' && !quoted then cs else (c, true) :: cs) with
        | [] => none
        | (a, _) :: ('-', _) :: (b, bq) :: rest =>
          if b = ']' && !bq then
            (bracketItems fuel false (('-', true) :: (b, bq) :: rest)).map fun (is, r) =>
              (.range a a :: is, r)
          else (bracketItems fuel false rest).map fun (is, r) => (.range a b :: is, r)
        | (a, _) :: rest => (bracketItems fuel false rest).map fun (is, r) => (.range a a :: is, r)

/-- Reads a pattern; `fuel` is its length. -/
def globs : Nat → List MarkedChar → List Glob
  | 0, _ => []
  | _, [] => []
  | fuel + 1, (c, true) :: cs => .one (.only c) :: globs fuel cs
  | fuel + 1, ('*', false) :: cs => .anyText :: globs fuel cs
  | fuel + 1, ('?', false) :: cs => .one .any :: globs fuel cs
  | fuel + 1, ('\\', false) :: (c, _) :: cs => .one (.only c) :: globs fuel cs
  | fuel + 1, ('[', false) :: cs =>
    let (negated, inner) := match cs with
      | ('!', false) :: rest => (true, rest)
      | cs => (false, cs)
    match bracketItems (inner.length + 1) true inner with
    | some (items, rest) => .one (.oneOf negated items) :: globs fuel rest
    | none => .one (.only '[') :: globs fuel cs
  | fuel + 1, (c, false) :: cs => .one (.only c) :: globs fuel cs

def globMatches : List Glob → List Char → Bool
  | [], cs => cs.isEmpty
  | .one k :: gs, c :: cs => k.holds c && globMatches gs cs
  | .one _ :: _, [] => false
  | .anyText :: gs, c :: cs => globMatches gs (c :: cs) || globMatches (.anyText :: gs) cs
  | .anyText :: gs, [] => globMatches gs []
termination_by gs cs => (gs.length, cs.length)

def patternMatches (pattern : List MarkedChar) (s : List Char) : Bool :=
  globMatches (globs pattern.length pattern) s

def textMatches (folds : Bool) (pattern text : String) : Bool :=
  let marked (c : Char) (rest : List MarkedChar) : List MarkedChar := (c, false) :: rest
  let rec marks : List Char → List MarkedChar
    | [] => []
    | '\\' :: c :: cs => (c, true) :: marks cs
    | '[' :: '^' :: cs => marked '[' (marked '!' (marks cs))
    | c :: cs => marked c (marks cs)
  if folds then patternMatches (marks pattern.toLower.toList) text.toLower.toList
  else patternMatches (marks pattern.toList) text.toList

/-! ## Cutting -/

/-- The lengths of the fronts of a text that a pattern matches, ascending. -/
def frontMatches (pattern : List MarkedChar) (s : List Char) : List Nat :=
  (List.range (s.length + 1)).filter fun n => patternMatches pattern (s.take n)

/-- The lengths of the ends of a text that a pattern matches, ascending. -/
def backMatches (pattern : List MarkedChar) (s : List Char) : List Nat :=
  (List.range (s.length + 1)).filter fun n => patternMatches pattern (s.drop (s.length - n))

/-! ## Paths -/

def splitSlashes (cs : List MarkedChar) : List (List MarkedChar) :=
  cs.foldr (fun m acc =>
    if m.1 = '/' then [] :: acc
    else match acc with
      | p :: ps => (m :: p) :: ps
      | [] => [[m]]) [[]]

/-- The text of marked characters; a backslash that is not quoted quotes what follows it. -/
def unmarked : List MarkedChar → String
  | [] => ""
  | cs => String.ofList (go cs)
where
  go : List MarkedChar → List Char
    | ('\\', false) :: (c, _) :: cs => c :: go cs
    | (c, _) :: cs => c :: go cs
    | [] => []

/-- The paths that begin with a text and go on as the parts of a pattern say. -/
def expandFrom (fs : FileSystem) (cwd : Location) (start : String) :
    List (List MarkedChar) → List String
  | [] => [start]
  | part :: parts =>
    let onward (name : String) : List String :=
      if parts.isEmpty then [start ++ name]
      else expandFrom fs cwd (start ++ name ++ "/") parts
    if part.any isGlobChar then
      match fs.list cwd (ByteText.path (if start = "" then "." else start)) with
      | .ok names =>
        let hidden := (unmarked (part.take 2)).startsWith "."
        let found := ("." :: ".." :: names.map ByteText.ofText).filter fun n =>
          (hidden || !n.startsWith ".") && patternMatches part n.toList
        found.flatMap onward
      | .error _ => []
    else
      (onward (unmarked part)).filter fun p =>
        (fs.lookupLink cwd (ByteText.path p)).toOption.isSome

/-- The paths a field stands for, in order; none if it matches none. -/
def expandPaths (fs : FileSystem) (cwd : Location) (field : List MarkedChar) : List String :=
  if field.any isGlobChar then
    (expandFrom fs cwd "" (splitSlashes field)).mergeSort fun a b => !(b < a)
  else []

end ModularBuild.Shell
