import ModularBuild.Utility.Rules.Builtin

/-!
# Working on records by rules

`awk` runs a program of rules on the records of files. Expressions have values and statements have
effects. For each record the rules are tried one after the other; the actions before the first
record come first, those after the last record come last. The program is the first operand, or
stands in files of its own; variables can be given values before it begins.
-/

namespace ModularBuild.Utility.Rules

inductive Target where
  | variable (i : Nat)
  | parameter (i : Nat)
  | field (n : Nat)
  | element (array : Nat) (k : Key)

def stackSize : Nat := 1024

def callLimit : Nat := 20000

namespace RulesM

/-- The array that a variable is; none if it is none. -/
def arrayOf? (v : Variable) : RulesM (Option Nat) := do
  match v with
  | .global i => return if (← read).arrays[i]?.getD false then some i else none
  | .parameter i =>
    match (← get).parameters[i]? with
    | some (.array id) => return some id
    | _ => return none

def arrayOf (v : Variable) : RulesM Nat := return (← arrayOf? v).getD 0

def readTarget (t : Target) : RulesM Value := do
  match t with
  | .variable i => getVariable i
  | .parameter i =>
    match (← get).parameters[i]? with
    | some (.value v) => return v
    | _ => return .unset
  | .field n => fieldAt n
  | .element array k => onArray array (·.get k)

def writeTarget (t : Target) (v : Value) : RulesM Unit := do
  match t with
  | .variable i => setVariable i v
  | .parameter i =>
    modify fun st => { st with parameters := st.parameters.setIfInBounds i (.value v) }
  | .field n => setField n v
  | .element array k => setElement array k v

def keyOf (vs : List Value) : RulesM Key := do
  let conversion ← conversion
  match vs with
  | [v] => return .ofValue conversion v
  | vs =>
    let separator ← textOf (← variableAt subscriptSeparator)
    return .text (separator.intercalate (vs.map (·.toText conversion)))

/-- Puts a record that has been read where it belongs; the value is that of the reading. -/
def storeRecord (found : Option (Option String)) (target : Option Target) : RulesM Value := do
  match found with
  | none => return .number (-1)
  | some none => return .number 0
  | some (some s) =>
    match target with
    | none => setRecord s
    | some t => writeTarget t (.input s)
    return .number 1

def printed (v : Value) : RulesM String := do
  match v with
  | .number x => return textOfNumber (← formatAt outputFormat) x
  | v => textOf v

mutual

def eval : Nat → Expr → RulesM Value
  | 0, _ => fail "program limit exceeded"
  | fuel + 1, e => do
    match e with
    | .number x => return .number x
    | .text s => return .text s
    | .fits r => return .ofBool (r.matches? (.ofList (← recordText).toList))
    | .group e => eval fuel e
    | .place p => readTarget (← resolve fuel p)
    | .assign p operation e =>
      let t ← resolve fuel p
      let v ← eval fuel e
      let v ← match operation with
        | none => pure v
        | some o => pure (.number (calculate o (← readTarget t).toNumber v.toNumber))
      writeTarget t v
      return v
    | .step p amount after =>
      let t ← resolve fuel p
      let old := (← readTarget t).toNumber
      writeTarget t (.number (old + amount))
      return .number (if after then old + amount else old)
    | .negative e => return .number (-(← eval fuel e).toNumber)
    | .positive e => return .number (← eval fuel e).toNumber
    | .not e => return .ofBool (!(← eval fuel e).holds)
    | .arithmetic o a b =>
      let x ← eval fuel a
      let y ← eval fuel b
      return .number (calculate o x.toNumber y.toNumber)
    | .compare o a b =>
      let x ← eval fuel a
      let y ← eval fuel b
      return .ofBool (x.compare (← conversion) o y)
    | .join a b =>
      let s ← textOf (← eval fuel a)
      let t ← textOf (← eval fuel b)
      return .text (s ++ t)
    | .both a b =>
      if (← eval fuel a).holds then return .ofBool (← eval fuel b).holds
      else return .ofBool false
    | .either a b =>
      if (← eval fuel a).holds then return .ofBool true
      else return .ofBool (← eval fuel b).holds
    | .choice c a b =>
      if (← eval fuel c).holds then eval fuel a else eval fuel b
    | .matching negated a p =>
      let s ← textOf (← eval fuel a)
      let r ← patternOf fuel p
      return .ofBool (negated != r.matches? (.ofList s.toList))
    | .member subscripts v =>
      let k ← keyOf (← evalAll fuel subscripts)
      let found ← onArray (← arrayOf v) (·.find? k)
      return .ofBool found.isSome
    | .call f args => call fuel f args
    | .builtin f args =>
      match f, args with
      | .length, [.place (.variable v)] =>
        match ← arrayOf? v with
        | some id => return .ofNat (((← get).arrays[id]?).getD .empty).size
        | none => callBuiltin f (← evalAll fuel args)
      | f, args => callBuiltin f (← evalAll fuel args)
    | .split e v separator =>
      let s ← textOf (← eval fuel e)
      let separator ← match separator with
        | none => pure (← get).separator
        | some (.fixed r) => pure (.fitting r)
        | some (.computed e) => separatorFor (← textOf (← eval fuel e))
      let parts := separator.cut s
      let id ← arrayOf v
      onArray id fun _ => ((), .ofList (parts.map .input))
      return .ofNat parts.length
    | .search e p =>
      let s ← textOf (← eval fuel e)
      let r ← patternOf fuel p
      let (start, length) : Float × Float := match r.find? (.ofList s.toList) with
        | some m => (Float.ofNat (m.start + 1), Float.ofNat (m.stop - m.start))
        | none => (0, -1)
      setVariable matchStart (.number start)
      setVariable matchLength (.number length)
      return .number start
    | .replace all p replacement target =>
      let r ← patternOf fuel p
      let s ← textOf (← eval fuel replacement)
      let t ← resolve fuel target
      let (n, text) := replaced r s all (← textOf (← readTarget t))
      if 0 < n then writeTarget t (.text text)
      return .ofNat n
    | .readNext target =>
      let t ← resolveTarget fuel target
      let found ← nextRecord
      storeRecord (some found) t
    | .readFile name target =>
      let t ← resolveTarget fuel target
      let name ← textOf (← eval fuel name)
      storeRecord (← nextOfFile name) t
    | .readCommand command target =>
      let command ← textOf (← eval fuel command)
      let t ← resolveTarget fuel target
      storeRecord (← nextOfCommand command) t

def evalAll : Nat → List Expr → RulesM (List Value)
  | 0, _ => fail "program limit exceeded"
  | _, [] => return []
  | fuel + 1, e :: es => do
    let v ← eval fuel e
    return v :: (← evalAll fuel es)

def resolve : Nat → Place → RulesM Target
  | 0, _ => fail "program limit exceeded"
  | fuel + 1, p => do
    match p with
    | .variable (.global i) => return .variable i
    | .variable (.parameter i) => return .parameter i
    | .field e => return .field (← fieldIndex (← eval fuel e))
    | .element v subscripts =>
      let k ← keyOf (← evalAll fuel subscripts)
      return .element (← arrayOf v) k

def resolveTarget : Nat → Option Place → RulesM (Option Target)
  | 0, _ => fail "program limit exceeded"
  | _, none => return none
  | fuel + 1, some p => return some (← resolve fuel p)

def patternOf : Nat → Pattern → RulesM Regex
  | 0, _ => fail "program limit exceeded"
  | fuel + 1, p => do
    match p with
    | .fixed r => return r
    | .computed e => patternFor (← textOf (← eval fuel e))

/-- What arguments are given for parameters; `arrays` says which of them are arrays. -/
def slots : Nat → List Bool → List Expr → RulesM (List Slot)
  | 0, _, _ => fail "program limit exceeded"
  | _, [], _ => return []
  | fuel + 1, isArray :: arrays, [] => do
    let slot ← if isArray then
        modifyGet fun (st : State) =>
          (Slot.array st.arrays.size, { st with arrays := st.arrays.push .empty })
      else pure (Slot.value .unset)
    return slot :: (← slots fuel arrays [])
  | fuel + 1, _ :: arrays, e :: es => do
    let array? ← match e with
      | .place (.variable v) => arrayOf? v
      | _ => pure none
    let slot ← match array? with
      | some id => pure (Slot.array id)
      | none => pure (Slot.value (← eval fuel e))
    return slot :: (← slots fuel arrays es)

def call : Nat → Nat → List Expr → RulesM Value
  | 0, _, _ => fail "program limit exceeded"
  | fuel + 1, i, args => do
    let some f := (← read).functions[i]? | return .unset
    let size := (← get).arrays.size
    let given ← slots fuel f.arrays.toList args
    let before := (← get).parameters
    let waiting := (← get).waiting
    let calls := (← get).calls
    if callLimit ≤ calls then inUtility (throw (.signal .segmentation))
    if stackSize ≤ waiting + given.length then
      fail s!"program limit exceeded: eval stack size={stackSize}"
    modify fun st => { st with
      parameters := given.toArray, waiting := waiting + given.length, calls := calls + 1 }
    let result ← try
        exec fuel f.body
        pure Value.unset
      catch
        | .leaveFunction v => pure v
        | j => throw j
    modify fun st => { st with
      parameters := before, waiting, calls, arrays := st.arrays.extract 0 size }
    return result

def exec : Nat → Statement → RulesM Unit
  | 0, _ => fail "program limit exceeded"
  | fuel + 1, s => do
    match s with
    | .empty => return ()
    | .value e => discard (eval fuel e)
    | .print es redirection =>
      let text ← if es.isEmpty then recordText
        else
          let texts ← (← evalAll fuel es).mapM printed
          let separator ← textOf (← variableAt outputFieldSeparator)
          pure (separator.intercalate texts)
      emit fuel redirection (text ++ (← textOf (← variableAt outputRecordSeparator)))
    | .printFormat es redirection =>
      let vs ← evalAll fuel es
      let (text, error) ← formatted "printf" vs
      emit fuel redirection text
      if let some e := error then failInRecord e
    | .block ss => execAll fuel ss
    | .cond c a b =>
      if (← eval fuel c).holds then exec fuel a else exec fuel b
    | .whileLoop c body => repeatWhile fuel (some c) none body
    | .doLoop body c =>
      if ← round fuel body then repeatWhile fuel (some c) none body
    | .forLoop start c step body =>
      if let some e := start then discard (eval fuel e)
      repeatWhile fuel c step body
    | .forEach v array body =>
      let keys ← onArray (← arrayOf array) (·.keys)
      let t ← resolve fuel (.variable v)
      repeatFor fuel t keys body
    | .leaveLoop => throw .leaveLoop
    | .nextRound => throw .nextRound
    | .nextRecord => throw .nextRecord
    | .nextFile => throw .nextFile
    | .exit e =>
      if let some e := e then
        let n := truncated (← eval fuel e).toNumber
        modify fun st => { st with code := (n % 256).toNat }
      throw .exit
    | .leaveFunction e =>
      let v ← match e with
        | some e => eval fuel e
        | none => pure .unset
      throw (.leaveFunction v)
    | .deleteElement array subscripts =>
      let k ← keyOf (← evalAll fuel subscripts)
      onArray (← arrayOf array) fun a => ((), a.erase k)
    | .deleteArray array => onArray (← arrayOf array) fun _ => ((), .empty)

def execAll : Nat → List Statement → RulesM Unit
  | 0, _ => fail "program limit exceeded"
  | _, [] => return ()
  | fuel + 1, s :: ss => do
    exec fuel s
    execAll fuel ss

def emit : Nat → Option Redirection → String → RulesM Unit
  | 0, _, _ => fail "program limit exceeded"
  | _, none, text => print text
  | fuel + 1, some r, text => do
    let name ← textOf (← eval fuel r.target)
    emitTo r.kind name text

/-- One round of a loop; the answer says whether the loop goes on. -/
def round : Nat → Statement → RulesM Bool
  | 0, _ => fail "program limit exceeded"
  | fuel + 1, body => do
    try
      exec fuel body
      return true
    catch
      | .leaveLoop => return false
      | .nextRound => return true
      | j => throw j

def repeatWhile : Nat → Option Expr → Option Expr → Statement → RulesM Unit
  | 0, _, _, _ => fail "program limit exceeded"
  | fuel + 1, c, step, body => do
    let holds ← match c with
      | some e => pure (← eval fuel e).holds
      | none => pure true
    if holds then
      if ← round fuel body then
        if let some e := step then discard (eval fuel e)
        repeatWhile fuel c step body

def repeatFor : Nat → Target → List String → Statement → RulesM Unit
  | 0, _, _, _ => fail "program limit exceeded"
  | _, _, [], _ => return ()
  | fuel + 1, t, key :: keys, body => do
    writeTarget t (.text key)
    if ← round fuel body then repeatFor fuel t keys body

end

/-! ## Rules -/

def stepLimit : Nat := 1000000000000

/-- Whether a rule is for the record in hand; `i` is its number. -/
def selects (i : Nat) (s : Selection) : RulesM Bool := do
  match s with
  | .every => return true
  | .only e => return (← eval stepLimit e).holds
  | .range start stop =>
    let inside ← if (← get).ranges[i]?.getD false then pure true
      else pure (← eval stepLimit start).holds
    if inside then
      let ends := (← eval stepLimit stop).holds
      modify fun st => { st with ranges := st.ranges.setIfInBounds i (!ends) }
    return inside

def applyRule (i : Nat) (r : Rule) : RulesM Unit := do
  if ← selects i r.selection then
    match r.action with
    | some s => exec stepLimit s
    | none =>
      let text ← recordText
      let ending ← textOf (← variableAt outputRecordSeparator)
      print (text ++ ending)

/-- Works on all records; `fuel` bounds their number. -/
def eachRecord : Nat → RulesM Unit
  | 0 => return ()
  | fuel + 1 => do
    match ← nextRecord with
    | none => return ()
    | some s =>
      setRecord s
      try
        let rules := (← read).rules
        for h : i in [0:rules.size] do applyRule i rules[i]
      catch
        | .nextRecord => pure ()
        | .nextFile => modify fun st => { st with input := none }
        | j => throw j
      eachRecord fuel

def runProgram : RulesM Unit := do
  let program ← read
  try
    for s in program.starts do exec stepLimit s
    unless program.rules.isEmpty && program.stops.isEmpty do eachRecord stepLimit
  catch
    | .exit => pure ()
    | j => throw j
  for s in program.stops do exec stepLimit s

/-- Runs a program and ends what it has begun; the answer is the exit code. -/
def runWhole : RulesM Nat := do
  try runProgram catch
    | _ => pure ()
  try
    closeCommands
    flushFiles
  catch
    | _ => pure ()
  return (← get).code

end RulesM

end ModularBuild.Utility.Rules

namespace ModularBuild.Utility

open Text

namespace Rules

structure Setup where
  /-- The files that the program stands in. -/
  sources : List String := []
  assignments : List (String × String) := []
  separator : Option String := none
  operands : List String := []

def refuseArguments {α : Type} (s : String) : UtilityM α := do
  complainShortly s
  quit (← read).failure

/-- Takes the arguments apart; `fuel` is their number. -/
def takeSetup : Nat → List String → UtilityM Setup
  | 0, rest => return { operands := rest }
  | _, [] => return {}
  | fuel + 1, a :: rest => do
    match a.toList with
    | ['-', '-'] => return { operands := rest }
    | ['-'] => return { operands := a :: rest }
    | '-' :: c :: cs =>
      if a = "--version" || a = "--help" || a = "--usage" then quit 0
      if c = '-' || !(['f', 'v', 'F', 'W'].contains c) then refuseArguments s!"not an option: {a}"
      let (value, rest) ← match cs, rest with
        | [], [] => refuseArguments s!"option {a} lacks argument"
        | [], value :: rest => pure (value, rest)
        | cs, rest => pure (String.ofList cs, rest)
      if c = 'W' then
        if ["version", "help", "usage"].contains value then quit 0
        unless ["interactive", "posix", "compat"].contains value do
          complainShortly s!"vacuous option: -W \"{value}\""
        takeSetup fuel rest
      else if c = 'v' then
        let some given := RulesM.assignment? value
          | refuseArguments s!"improper assignment: -v {value}"
        let more ← takeSetup fuel rest
        return { more with assignments := given :: more.assignments }
      else
        let more ← takeSetup fuel rest
        if c = 'f' then return { more with sources := value :: more.sources }
        else return { more with separator := more.separator <|> some value }
    | _ => return { operands := a :: rest }

def programTexts (setup : Setup) : UtilityM (List (String × String)) :=
  setup.sources.mapM fun name => do
    match ← readNamed name with
    | .ok text => return (name, text)
    | .error e => refuseArguments s!"cannot open \"{name}\" ({e.name})"

def knownValues (arguments : Nat) : List (Nat × Value) := [
  (recordNumber, .number 0), (fileRecordNumber, .number 0), (fieldSeparator, .text " "),
  (outputFieldSeparator, .text " "), (outputRecordSeparator, .text "\n"),
  (recordSeparator, .text "\n"), (matchStart, .number 0), (matchLength, .number (-1)),
  (subscriptSeparator, .text "\x1c"), (conversionFormat, .text "%.6g"),
  (outputFormat, .text "%.6g"), (argumentCount, .ofNat arguments)]

def environmentOf (entries : List String) : Association :=
  entries.foldl (fun a s =>
    let name := entryName s
    a.insert (.text name) (.input (s.drop (name.length + 1)).toString)) .empty

def startState (p : Program) (args env : List String) : State :=
  let globals := (knownValues args.length).foldl (fun (vs : Array Value) (i, v) =>
    vs.setIfInBounds i v) (Array.replicate p.names.size Value.unset)
  let arguments := args.zipIdx.foldl (fun (a : Association) (s, i) =>
    a.insert (.whole i) (.input s)) .empty
  let arrays := ((Array.replicate p.names.size Association.empty).setIfInBounds argumentArray
    arguments).setIfInBounds environmentArray (environmentOf env)
  { globals, arrays, ranges := Array.replicate p.rules.size false }

end Rules

open Rules in
def awk : Utility := fun args => do
  let setup ← takeSetup (args.length + 1) args
  let (texts, operands) ← match setup.sources, setup.operands with
    | [], [] => quit 0
    | [], "-" :: operands => pure (← programTexts { sources := ["-"] }, operands)
    | [], text :: operands => pure ([("", text)], operands)
    | _, operands => pure (← programTexts setup, operands)
  let names := setup.assignments.map (·.1)
  match Program.read names texts with
  | .error messages =>
    for m in messages do complainShortly m
    quit (← read).failure
  | .ok p =>
    let name := ((← programName).splitOn "/").getLast?.getD ""
    let start := startState p (name :: operands) (← context).env
    let whole : RulesM Nat := do
      for (name, value) in setup.assignments do RulesM.assignNamed name value
      if let some s := setup.separator then
        RulesM.setVariable Rules.fieldSeparator (.text (Token.unescaped s))
      RulesM.runWhole
    let (result, _) ← (whole.run p).run start
    let code := match result with
      | .ok code => code
      | .error _ => 2
    checkOutput fun e =>
      s!"{name}: close failed on file \"/dev/stdout\" ({e.name})\n"
    return code

end ModularBuild.Utility
