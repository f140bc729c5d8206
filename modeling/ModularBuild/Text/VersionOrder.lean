/-!
# The order of versions

Texts with numbers in them in the order that people expect: parts that are numbers are compared as
numbers. A tilde comes before everything, even the end; the endings of file names count only where
the rest is the same.
-/

namespace ModularBuild.Text.VersionOrder

/-- The rank of the next character among those that are not digits. -/
def rank : List Char → Int
  | [] => -1
  | c :: _ =>
    if c.isDigit then 0
    else if c.isAlpha then c.toNat
    else if c = '~' then -2
    else c.toNat + 256

def startsWithDigit (cs : List Char) : Bool := cs.head?.any Char.isDigit

/-- Compares the parts that are no numbers; `fuel` is more than the length of both. What is left
follows if they are the same. -/
def compareNames : Nat → List Char → List Char → Except Ordering (List Char × List Char)
  | 0, as, bs => .ok (as, bs)
  | fuel + 1, as, bs =>
    let goesOn (cs : List Char) : Bool := !cs.isEmpty && !startsWithDigit cs
    if goesOn as || goesOn bs then
      if rank as ≠ rank bs then .error (compare (rank as) (rank bs))
      else compareNames fuel (as.drop 1) (bs.drop 1)
    else .ok (as, bs)

def compareParts : Nat → List Char → List Char → Ordering
  | 0, _, _ => .eq
  | fuel + 1, as, bs =>
    if as.isEmpty && bs.isEmpty then .eq
    else match compareNames (fuel + 1) as bs with
    | .error o => o
    | .ok (as, bs) =>
      let as := as.dropWhile (· = '0')
      let bs := bs.dropWhile (· = '0')
      let ds := as.takeWhile Char.isDigit
      let es := bs.takeWhile Char.isDigit
      if ds.length ≠ es.length then compare ds.length es.length
      else if ds ≠ es then compare (String.ofList ds) (String.ofList es)
      else compareParts fuel (as.drop ds.length) (bs.drop es.length)

/-- Leaves out the endings of a file name, which are not its first character. -/
def stem (cs : List Char) : List Char :=
  let isMark (c : Char) : Bool := c.isAlpha || c = '~'
  let ending (part : List Char) : Bool := match part with
    | c :: rest => isMark c && rest.all fun c => c.isAlphanum || c = '~'
    | [] => false
  let parts := (cs.drop 1).splitBy fun _ d => d ≠ '.'
  let isEnding (part : List Char) : Bool := match part with
    | '.' :: rest => ending rest
    | _ => false
  let kept := (parts.reverse.dropWhile isEnding).reverse
  cs.take 1 ++ kept.flatten

end ModularBuild.Text.VersionOrder

namespace ModularBuild.Text

def compareVersions (a b : String) : Ordering :=
  let as := a.toList
  let bs := b.toList
  let fuel := as.length + bs.length + 2
  let whole := VersionOrder.compareParts fuel as bs
  if as.isEmpty || bs.isEmpty then compare as.length bs.length
  else match as, bs with
  | '.' :: _, '.' :: _ =>
    let special (cs : List Char) : Nat := if cs = ['.'] then 0 else if cs = ['.', '.'] then 1 else 2
    if special as < 2 || special bs < 2 then compare (special as) (special bs)
    else (VersionOrder.compareParts fuel (VersionOrder.stem as) (VersionOrder.stem bs)).then whole
  | '.' :: _, _ => .lt
  | _, '.' :: _ => .gt
  | _, _ => (VersionOrder.compareParts fuel (VersionOrder.stem as) (VersionOrder.stem bs)).then whole

end ModularBuild.Text
