/-!
# Readers

A reader takes characters from the front of a text and fails if they are not what it wants. `<|>`
tries a second reader where the first one failed, from where the first one began.
-/

namespace ModularBuild.Text

abbrev Reader := StateT (List Char) Option

namespace Reader

variable {α : Type}

/-- The next character, which stays where it is; `none` at the end of the text. -/
def peek? : Reader (Option Char) := do return (← get).head?

def skip (n : Nat) : Reader Unit := modify (·.drop n)

/-- Takes one character that satisfies `p`. -/
def satisfy (p : Char → Bool) : Reader Char := do
  match ← get with
  | c :: cs => if p c then set cs; return c else failure
  | [] => failure

def char (c : Char) : Reader Unit := do discard <| satisfy (· = c)

/-- Whether the rest of the text begins with `s`. -/
def startsWith (s : String) : Reader Bool := do return s.toList.isPrefixOf (← get)

/-- Takes `s`. -/
def text (s : String) : Reader Unit := do
  if ← startsWith s then skip s.length else failure

/-- Takes all characters up to the first that does not satisfy `p`. -/
def takeWhile (p : Char → Bool) : Reader (List Char) := do
  let cs ← get
  set (cs.dropWhile p)
  return cs.takeWhile p

/-- The number of times `c` stands at the front. -/
def countRun (c : Char) : Reader Nat := do return ((← get).takeWhile (· = c)).length

/-- What `r` reads, or nothing where it fails. -/
def attempt (r : Reader α) : Reader (Option α) := some <$> r <|> pure none

def manyFuel (item : Reader (Option α)) : Nat → Reader (List α)
  | 0 => failure
  | fuel + 1 => do
    match ← item with
    | none => return []
    | some a => return a :: (← manyFuel item fuel)

/-- Reads items up to the first time that `item` answers with none. An item takes at least one
character, so the length of the rest bounds their number. -/
def many (item : Reader (Option α)) : Reader (List α) := do
  manyFuel item ((← get).length + 1)

/-- The text that `r` takes. -/
def taken (r : Reader α) : Reader (List Char) := do
  let before ← get
  discard r
  return before.take (before.length - (← get).length)

def readAll? (r : Reader α) (s : List Char) : Option α :=
  match r s with
  | some (a, []) => some a
  | _ => none

end Reader

end ModularBuild.Text
