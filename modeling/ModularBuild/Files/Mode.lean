import ModularBuild.Path

/-!
# Changes of permissions

A change of permissions says whose rights are meant, `u`, `g`, `o` or `a`, what is done with them,
`+`, `-` or `=`, and which rights they are, `r`, `w`, `x`, `X`, `s`, `t`, or those of `u`, `g` or
`o`. Several are joined by commas. If nobody is named, all are meant, but the rights that new files
go without are left alone. All bits can also be given as an octal number.
-/

namespace ModularBuild.FileMode

inductive Action where
  | add
  | remove
  | set
deriving DecidableEq, Repr

structure Rights where
  /-- Bits for everyone, before they are narrowed to those who are meant. -/
  bits : Nat := 0
  /-- Whether everyone may execute directories, and files that someone may execute. -/
  conditional : Bool := false
  /-- The one whose rights are taken over. -/
  like? : Option Char := none
deriving Repr

structure Change where
  /-- The bits of those who are meant; none if nobody was named. -/
  who : Option Nat
  action : Action
  rights : Rights
  /-- Whether even the bits are taken away that directories keep otherwise. -/
  exact : Bool := false
deriving Repr

def bitsOf (who : Char) : Option Nat :=
  match who with
  | 'u' => some 0o4700
  | 'g' => some 0o2070
  | 'o' => some 0o1007
  | 'a' => some 0o7777
  | _ => none

def rightBits? (c : Char) : Option Nat :=
  match c with
  | 'r' => some 0o444
  | 'w' => some 0o222
  | 'x' => some 0o111
  | 's' => some 0o6000
  | 't' => some 0o1000
  | _ => none

def takeRights (r : Rights) : List Char → Rights × List Char
  | [] => (r, [])
  | c :: cs =>
    match rightBits? c with
    | some bits => takeRights { r with bits := r.bits ||| bits } cs
    | none => if c = 'X' then takeRights { r with conditional := true } cs else (r, c :: cs)

/-- The changes that those who are meant share, from an action on; `fuel` is the length. -/
def takeActions (who : Option Nat) : Nat → List Char → Option (List Change)
  | 0, _ => none
  | fuel + 1, cs =>
    match cs with
    | [] => some []
    | c :: cs =>
      let action? := match c with
        | '+' => some Action.add
        | '-' => some .remove
        | '=' => some .set
        | _ => none
      action?.bind fun action =>
        let (rights, rest) := match cs with
          | d :: rest =>
            if d = 'u' || d = 'g' || d = 'o' then ({ like? := some d : Rights }, rest)
            else takeRights {} cs
          | [] => ({}, [])
        (takeActions who fuel rest).map ({ who, action, rights } :: ·)

def part? (cs : List Char) : Option (List Change) :=
  let named := cs.takeWhile fun c => (bitsOf c).isSome
  let who := if named.isEmpty then none
    else some (named.foldl (fun n c => n ||| (bitsOf c).getD 0) 0)
  match cs.drop named.length with
  | [] => none
  | rest => takeActions who (rest.length + 1) rest

def changes? (s : String) : Option (List Change) :=
  List.flatten <$> (pieces ',' s.toList).mapM part?

def ofOctal? (s : String) : Option Nat :=
  let n := s.toList.foldl (fun n c => n * 8 + (c.toNat - '0'.toNat)) 0
  if !s.isEmpty && s.toList.all (fun c => '0' ≤ c && c < '8') && n ≤ 0o7777 then some n else none

def ofText? (s : String) : Option (List Change) :=
  match ofOctal? s with
  | some bits => some [⟨some 0o7777, .set, { bits }, 4 < s.length⟩]
  | none => changes? s

def letters (mode : Nat) : String :=
  let right (bit : Nat) (c : Char) : Char := if mode &&& bit ≠ 0 then c else '-'
  let special (bit run : Nat) (small large : Char) : Char :=
    if mode &&& bit = 0 then right run 'x' else if mode &&& run ≠ 0 then small else large
  String.ofList [right 0o400 'r', right 0o200 'w', special 0o4000 0o100 's' 'S',
    right 0o040 'r', right 0o020 'w', special 0o2000 0o010 's' 'S',
    right 0o004 'r', right 0o002 'w', special 0o1000 0o001 't' 'T']

example : letters 0o4755 = "rwsr-xr-x" := by decide

def spread (mode : Nat) (who : Char) : Nat :=
  let rights := (match who with
    | 'u' => mode >>> 6
    | 'g' => mode >>> 3
    | _ => mode) &&& 7
  rights * 0o111

def Change.apply (umask : Nat) (isDirectory : Bool) (mode : Nat) (c : Change) : Nat :=
  let executable := isDirectory || mode &&& 0o111 ≠ 0
  let bits := c.rights.bits ||| (if c.rights.conditional && executable then 0o111 else 0) |||
    (c.rights.like?.map (spread mode)).getD 0
  let affected := c.who.getD (0o7777 ^^^ umask)
  let bits := bits &&& affected
  match c.action with
  | .add => mode ||| bits
  | .remove => mode &&& (0o7777 ^^^ bits)
  | .set =>
    let kept := if isDirectory && !c.exact then 0o6000 else 0
    (mode &&& ((0o7777 ^^^ c.who.getD 0o7777) ||| kept)) ||| bits

def apply (changes : List Change) (umask : Nat) (isDirectory : Bool) (mode : Nat) : Nat :=
  changes.foldl (Change.apply umask isDirectory) mode

end ModularBuild.FileMode
