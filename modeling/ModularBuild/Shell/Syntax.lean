/-!
# Commands of the shell

What a script is read as. A word is a list of parts: characters, each quoted or not, and
substitutions, whose own words and commands are read along with the word. Commands know the line
they began on.
-/

namespace ModularBuild.Shell

/-- What is done with the value of a parameter. -/
inductive ParameterUse where
  | value
  /-- The number of its characters. -/
  | length
  /-- The value, or a word instead. -/
  | orElse
  /-- A word instead of the value. -/
  | ifSet
  /-- The value, or a word that is assigned. -/
  | orAssign
  /-- The value, or the end of the shell. -/
  | orComplain
  /-- The value without a match of a pattern, the shortest or the longest, at its front. -/
  | trimFront (longest : Bool)
  | trimBack (longest : Bool)
  /-- Nothing that there is a meaning for. -/
  | unknown
deriving DecidableEq, Repr, Inhabited

inductive RedirectKind where
  | input
  | output
  /-- To a file, even where files are not to be overwritten. -/
  | forcedOutput
  | append
  | inputOutput
  /-- To what another descriptor leads to. -/
  | duplicate
  /-- From a text of the script, by its number. -/
  | document (id : Nat)
deriving DecidableEq, Repr, Inhabited

mutual

inductive Part where
  | char (c : Char) (quoted : Bool)
  /-- A place where a quotation begins or ends. -/
  | quoteMark
  /-- A parameter; `colon` asks for a value that is not empty. -/
  | parameter (name : String) (use : ParameterUse) (colon : Bool) (word : List Part)
      (quoted : Bool)
  | commands (body : Option Script) (quoted : Bool)
  | arithmetic (expression : List Part) (quoted : Bool)

inductive Redirect where
  | mk (kind : RedirectKind) (descriptor : Nat) (target : List Part)

inductive Script where
  | simple (line : Nat) (assignments words : List (List Part)) (redirects : List Redirect)
  | pipeline (parts : List Script) (background : Bool)
  | redirected (line : Nat) (body : Script) (redirects : List Redirect)
  | subshell (line : Nat) (body : Script) (redirects : List Redirect)
  | background (line : Nat) (body : Script) (redirects : List Redirect)
  | both (a b : Script)
  | either (a b : Script)
  | sequence (a b : Script)
  | negation (body : Script)
  | choice (test yes : Script) (no : Option Script)
  /-- A loop that runs while its test succeeds, or until it does. -/
  | loop (untilTrue : Bool) (test body : Script)
  | each (line : Nat) (name : String) (words : List (List Part)) (body : Script)
  | cases (line : Nat) (word : List Part) (arms : List (List (List Part) × Option Script))
  | define (line : Nat) (name : String) (body : Script)

end

instance : Inhabited Script := ⟨.simple 0 [] [] []⟩

instance : Inhabited Part := ⟨.quoteMark⟩

abbrev Word := List Part

def Script.steps : Script → List Script
  | .sequence a b => a.steps ++ b.steps
  | c => [c]

namespace Redirect

def kind : Redirect → RedirectKind
  | mk k _ _ => k

def descriptor : Redirect → Nat
  | mk _ d _ => d

def target : Redirect → Word
  | mk _ _ w => w

end Redirect

/-! ## Names -/

def isNameStart (c : Char) : Bool := c.isAlpha || c = '_'

def isNameChar (c : Char) : Bool := c.isAlphanum || c = '_'

def isName (s : String) : Bool :=
  match s.toList with
  | [] => false
  | c :: cs => isNameStart c && cs.all isNameChar

def isSpecialParameter (c : Char) : Bool := "!#$*-?@".toList.contains c || c.isDigit

def plainText? (w : Word) : Option String :=
  String.ofList <$> w.mapM fun
    | .char c _ => some c
    | _ => none

def isAssignment (w : Word) : Bool :=
  let name := w.takeWhile fun
    | .char c false => c ≠ '='
    | _ => false
  match plainText? name, w.drop name.length with
  | some n, .char '=' _ :: _ => isName n
  | _, _ => false

/-- Takes the quotes off arguments that stand between quotes alone, so that they leave nothing if
there are none. -/
def joinArguments : Word → Word
  | .quoteMark :: .parameter "@" .value false [] true :: .quoteMark :: rest =>
    .parameter "@" .value false [] true :: joinArguments rest
  | p :: rest => p :: joinArguments rest
  | [] => []

end ModularBuild.Shell
