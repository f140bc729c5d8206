import ModularBuild.Utility.Rules.Value

/-!
# Arrays

An array has members by key, a text or a whole number, which is the same as its text. As long as all
keys are asked for as numbers, members are kept in chains by number; after that they are kept in chains
by a hash of the text, and in that order they are gone through. In a chain the member that was looked
for last comes first. An array that a text was cut into is a list of values at first.
-/

namespace ModularBuild.Utility.Rules

structure Member where
  key : String
  hash : UInt32
  value : Value
  /-- Whether it has been found by number. -/
  numbered : Bool
deriving Inhabited

inductive Key where
  | whole (n : Int)
  | text (s : String)

def Key.toText : Key → String
  | whole n => toString n
  | text s => s

def Key.ofValue (format : String) (v : Value) : Key :=
  match v with
  | .number x =>
    match wholeOf? x with
    | some n => if n < 9223372036854775808 then .whole n else .text (toString n)
    | none => .text (textOfNumber format x)
  | v => .text (v.toText format)

/-- The hash of a text: its bytes are taken in one by one, each followed by a multiplication. -/
def hashOf (s : String) : UInt32 :=
  s.toList.foldl (fun h c => (h ^^^ UInt32.ofNat c.toNat) * 16777619) 2166136261

abbrev Chains := Array (List Member)

abbrev NumberChains := Array (List (Int × Value))

inductive Association where
  | empty
  /-- The values of the keys 1, 2, and so on. -/
  | listed (values : Array Value)
  | numbered (chains : NumberChains) (size : Nat)
  | chained (chains : Chains) (size : Nat)
deriving Inhabited

namespace Association

def firstWidth : Nat := 64

def chainLength : Nat := 12

/-- The number of chains for a number of members; `fuel` bounds the doublings. -/
def widthFor (size : Nat) : Nat → Nat → Nat
  | 0, width => width
  | fuel + 1, width => if width * chainLength < size then widthFor size fuel (2 * width) else width

/-- Doubles the number of chains; `place` is that of an entry among so many, and the order in each
chain stays. -/
def widened {α : Type} (place : Nat → α → Nat) (chains : Array (List α)) : Array (List α) :=
  let width := chains.size
  let kept := chains.mapIdx fun i es => es.filter fun e => place (2 * width) e = i
  let moved := chains.mapIdx fun i es => es.filter fun e => place (2 * width) e ≠ i
  kept ++ moved

def chainOf (width : Nat) (h : UInt32) : Nat := h.toNat % width

def numberChain (width : Nat) (n : Int) : Nat := (n % width).toNat

def push (chains : Chains) (m : Member) : Chains :=
  chains.modify (chainOf chains.size m.hash) (m :: ·)

def numbersOf (values : Array Value) : NumberChains :=
  let width := widthFor values.size 64 firstWidth
  let empty : NumberChains := Array.replicate width []
  (values.toList.zipIdx 1).foldl (fun chains (v, i) =>
    chains.modify (i % width) (((i : Int), v) :: ·)) empty

def hashed (numbers : NumberChains) : Chains :=
  let empty : Chains := Array.replicate numbers.size []
  numbers.toList.flatten.foldl (fun chains (n, value) =>
    let key := toString n
    push chains { key, hash := hashOf key, value, numbered := true }) empty

def size : Association → Nat
  | empty => 0
  | listed values => values.size
  | numbered _ size | chained _ size => size

def chains : Association → Chains
  | empty => Array.replicate firstWidth []
  | listed values => hashed (numbersOf values)
  | numbered numbers _ => hashed numbers
  | chained cs _ => cs

def keys (a : Association) : List String × Association :=
  match a with
  | empty => ([], empty)
  | a =>
    let chains := a.chains
    (chains.toList.flatten.map (·.key), chained chains a.size)

def ofList (values : List Value) : Association :=
  if values.isEmpty then empty else listed values.toArray

/-! ## Looking for members -/

/-- Looks for a member in chains by hash: what it is now, and the chains afterwards. -/
def lookIn (chains : Chains) (k : Key) : Option Member × Chains :=
  let key := k.toText
  let i := chainOf chains.size (hashOf key)
  let chain := chains[i]?.getD []
  let toFront (m : Member) : Option Member × Chains :=
    (some m, chains.setIfInBounds i (m :: chain.filter (·.key ≠ key)))
  match chain.find? (·.key = key), k with
  | none, _ => (none, chains)
  | some m, .whole _ => if m.numbered then (some m, chains) else toFront { m with numbered := true }
  | some m, .text _ => toFront m

def lookInNumbers (chains : NumberChains) (n : Int) : Option Value × NumberChains :=
  let i := numberChain chains.size n
  let chain := chains[i]?.getD []
  match chain.lookup n with
  | none => (none, chains)
  | some v => (some v, chains.setIfInBounds i ((n, v) :: chain.filter (·.1 ≠ n)))

def listedAt? (values : Array Value) (k : Key) : Option Value :=
  match k with
  | .whole n => if 1 ≤ n then values[n.toNat - 1]? else none
  | .text _ => none

/-- Looks for a member; looking moves it within its chain. -/
def find? (a : Association) (k : Key) : Option Value × Association :=
  let inChains (a : Association) : Option Value × Association :=
    let size := a.size
    let (found, chains) := lookIn a.chains k
    (found.map (·.value), chained chains size)
  match a, k with
  | empty, _ => (none, empty)
  | listed values, .whole n =>
    match listedAt? values k with
    | some v => (some v, listed values)
    | none =>
      let (found, numbers) := lookInNumbers (numbersOf values) n
      (found, numbered numbers values.size)
  | numbered numbers size, .whole n =>
    let (found, numbers) := lookInNumbers numbers n
    (found, numbered numbers size)
  | a, _ => inChains a

/-! ## Changing members -/

def insertNumber (numbers : NumberChains) (size : Nat) (n : Int) (value : Value) : Association :=
  match lookInNumbers numbers n with
  | (some _, numbers) =>
    let i := numberChain numbers.size n
    let renew (e : Int × Value) : Int × Value := if e.1 = n then (n, value) else e
    numbered (numbers.modify i (·.map renew)) size
  | (none, numbers) =>
    let numbers :=
      if numbers.size * chainLength < size + 1 then
        widened (fun width (e : Int × Value) => numberChain width e.1) numbers
      else numbers
    numbered (numbers.modify (numberChain numbers.size n) ((n, value) :: ·)) (size + 1)

def insertHashed (chains : Chains) (size : Nat) (k : Key) (value : Value) : Association :=
  let key := k.toText
  match lookIn chains k with
  | (some m, chains) =>
    let i := chainOf chains.size m.hash
    let renew (e : Member) : Member := if e.key = key then { e with value } else e
    chained (chains.modify i (·.map renew)) size
  | (none, chains) =>
    let isNumber := match k with
      | .whole _ => true
      | .text _ => false
    let chains :=
      if chains.size * chainLength < size + 1 then
        widened (fun width (m : Member) => chainOf width m.hash) chains
      else chains
    chained (push chains { key, hash := hashOf key, value, numbered := isNumber }) (size + 1)

def insert (a : Association) (k : Key) (value : Value) : Association :=
  match a, k with
  | empty, .whole n => insertNumber (Array.replicate firstWidth []) 0 n value
  | listed values, .whole n =>
    if 1 ≤ n && n ≤ values.size then listed (values.setIfInBounds (n.toNat - 1) value)
    else insertNumber (numbersOf values) values.size n value
  | numbered numbers size, .whole n => insertNumber numbers size n value
  | chained chains size, k => insertHashed chains size k value
  | a, k => insertHashed a.chains a.size k value

/-- The value of a member, which is made if there is none. -/
def get (a : Association) (k : Key) : Value × Association :=
  match a.find? k with
  | (some v, a) => (v, a)
  | (none, a) => (.unset, a.insert k .unset)

def erase (a : Association) (k : Key) : Association :=
  let (found, b) := a.find? k
  if found.isNone then b
  else if b.size ≤ 1 then empty
  else match b, k with
    | numbered numbers size, .whole n =>
      numbered (numbers.modify (numberChain numbers.size n) (·.filter (·.1 ≠ n))) (size - 1)
    | listed values, .whole n =>
      let numbers := numbersOf values
      numbered (numbers.modify (numberChain numbers.size n) (·.filter (·.1 ≠ n))) (values.size - 1)
    | b, k =>
      let key := k.toText
      let chains := b.chains
      let i := chainOf chains.size (hashOf key)
      chained (chains.modify i (·.filter (·.key ≠ key))) (b.size - 1)

end Association

end ModularBuild.Utility.Rules
