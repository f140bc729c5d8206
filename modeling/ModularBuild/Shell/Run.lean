import ModularBuild.Shell.Simple

/-!
# Running commands

What each kind of command does, and how a text is run: one line after the other, each read when the
one before has been run. Commands contain others, so that running them goes only so deep; a shell
that goes deeper runs out of memory.
-/

namespace ModularBuild.Shell

/-! ## Subshells -/

def Memory.forked (m : Memory) (process : Nat) : Memory :=
  { m with
    context := { m.context with process, parent := m.context.process }
    traps := m.traps.filter fun _ action => action = ""
    caught := [] }

def endStatus (engine : Engine) : ShellM ExitStatus := do
  let m ← memory
  match m.traps.find? 0 with
  | none => return .code m.status
  | some action =>
    modifyMemory fun m => { m with
      traps := m.traps.erase 0, skip := none, loops := 0, trapStatus := some m.status }
    try
      discard <| engine.runText action false
      return .code m.status
    catch
      | .failure => return .code (← memory).status
      | .leave => return .code ((← memory).trapStatus.getD m.status)
      | .ended s => return s

def untilEnd (engine : Engine) (action : ShellM Nat) : ShellM ExitStatus := do
  let status ← try
      setStatus (← action)
      endStatus engine
    catch
      | .ended s => pure s
      | .failure => endStatus engine
      | .leave =>
        modifyMemory fun m => { m with status := m.trapStatus.getD m.status, trapStatus := none }
        endStatus engine
  try engine.settle catch _ => pure ()
  match status with
  | .code n => return .code (n % 256)
  | s => return s

def runForked (engine : Engine) (m : Memory) (action : ShellM Nat) : ShellM ExitStatus := do
  let outer ← get
  set { outer with memory := m, jobs := [], output := [] }
  let status ← untilEnd engine action
  modify fun inner => { outer with machine := inner.machine }
  return status

/-! ## Jobs -/

def freeNumber (jobs : List Job) : Nat :=
  ((List.range (jobs.length + 1)).map (· + 1)).find? (fun n => jobs.all (·.number ≠ n)) |>.getD 1

def startJob (c : Script) (ds : List (Nat × Destination)) : ShellM Unit := do
  let process ← onMachine Machine.newProcess
  let outer ← memory
  let nothing ← onMachine (Machine.hold { target := .device .null, reads := true })
  let m := outer.forked process
  modifyMemory fun _ => { m with
    context := { m.context with
      descriptors := m.context.descriptors.insert 0 nothing
      ignored := m.context.ignored ++ [.interrupt, .quit] } }
  let status ← redirectSafely ds
  let inner ← memory
  modify fun s => { s with
    memory := { outer with lastBackground := some process }
    jobs := {
      number := freeNumber s.jobs, process
      waiting := if status = 0 then some (c, inner) else none
      status := .code status } :: s.jobs }

def stoppedEarly (m : Memory) (process : Nat) : ShellM (Option Signal) := do
  let signals ← onMachine (Machine.takeSignals process)
  return signals.find? fun s => s.isForced || !(s.isHarmless || s.isStop || m.ignores s)

def runJob (engine : Engine) (j : Job) : ShellM Unit := do
  match j.waiting with
  | none => return ()
  | some (c, m) =>
    let replace (j : Job) : ShellM Unit := modify fun s => { s with
      jobs := s.jobs.map fun k => if k.process = j.process then j else k }
    replace { j with waiting := none }
    let status ← match ← stoppedEarly m j.process with
      | some s => pure (ExitStatus.signal s)
      | none => runForked engine m (engine.run c false true)
    replace { j with waiting := none, status }

/-! ## Commands -/

/-- Runs the parts of a pipeline, each in a subshell; what one writes the next one reads. -/
def runPipeline (engine : Engine) (tested quiet : Bool) :
    Option Nat → List Script → ShellM ExitStatus
  | _, [] => return .code 0
  | input, c :: rest => do
    let pipe ← if rest.isEmpty then pure none else some <$> onMachine Machine.newPipe
    let status ← engine.subshell do
      let ds := (← memory).context.descriptors
      let ds := match input with
        | some i => ds.insert 0 i
        | none => ds
      setDescriptors (match pipe with
        | some (_, writer) => ds.insert 1 writer
        | none => ds)
      engine.run c tested true
    unless quiet do tellSignal status
    if rest.isEmpty then return status
    runPipeline engine tested quiet (pipe.map (·.1)) rest

/-- What is left of a wish to leave loops at the end of a round of one. -/
def endRound : ShellM (Option Skip) := do
  let m ← memory
  match m.skip with
  | none => return none
  | some .returning => return some .returning
  | some skip =>
    if m.skipCount ≤ 1 then
      modifyMemory fun m => { m with skip := none, skipCount := 0 }
      return some skip
    else
      modifyMemory fun m => { m with skipCount := m.skipCount - 1 }
      return some .breaking

def inLoop {α : Type} (action : ShellM α) : ShellM α := do
  modifyMemory fun m => { m with loops := m.loops + 1 }
  let a ← action
  modifyMemory fun m => { m with loops := m.loops - 1 }
  return a

def runEach (engine : Engine) (name : String) (body : Script) (tested : Bool) :
    Nat → List String → ShellM Nat
  | status, [] => return status
  | _, v :: vs => do
    assign name v
    let status ← engine.run body tested false
    match ← endRound with
    | none | some .continuing => runEach engine name body tested status vs
    | some _ => return status

def loopLimit : Nat := 1 <<< 24

def runLoop (engine : Engine) (untilTrue : Bool) (test body : Script) (tested : Bool) :
    Nat → Nat → ShellM Nat
  | 0, status => return status
  | fuel + 1, status => do
    let found ← engine.run test true false
    match ← endRound with
    | some .returning => return found
    | some .continuing => runLoop engine untilTrue test body tested fuel status
    | some .breaking => return status
    | none =>
      if (found = 0) = untilTrue then return status
      let status ← engine.run body tested false
      match ← endRound with
      | none | some .continuing => runLoop engine untilTrue test body tested fuel status
      | some _ => return status

def findArm (engine : Engine) (text : List Char) :
    List (List Word × Option Script) → ShellM (Option Script)
  | [] => return none
  | (patterns, body) :: rest => do
    let matched ← patterns.foldlM (fun found w => do
      if found then return true
      return patternMatches (← expandPattern engine w) text) false
    if matched then return body else findArm engine text rest

def runSteps (engine : Engine) (tested last : Bool) : Nat → List Script → ShellM Nat
  | status, [] => return status
  | _, c :: rest => do
    let status ← engine.run c tested (last && rest.isEmpty)
    if (← memory).skip.isSome then return status
    runSteps engine tested last status rest

def runKind (engine : Engine) (c : Script) (tested last : Bool) : ShellM Nat := do
  match c with
  | .simple line assignments words redirects =>
    runSimple engine line assignments words redirects tested last
  | .pipeline parts false =>
    return statusNumber (← runPipeline engine tested false none parts)
  | .pipeline parts true =>
    startJob (.pipeline parts false) []
    return 0
  | .redirected line body redirects =>
    setLine line
    let ds ← destinations engine redirects
    keepingDescriptors do
      let status ← redirectSafely ds
      if status ≠ 0 then return status
      engine.run body tested false
  | .subshell line body redirects =>
    setLine line
    let ds ← destinations engine redirects
    let action : ShellM Nat := do
      ds.forM redirect
      engine.run body tested true
    let status ← engine.subshell action
    tellSignal status
    return statusNumber status
  | .background line body redirects =>
    setLine line
    startJob body (← destinations engine redirects)
    return 0
  | .both a b =>
    let status ← engine.run a true false
    if status ≠ 0 || (← memory).skip.isSome then return status
    engine.run b tested last
  | .either a b =>
    let status ← engine.run a true false
    if status = 0 || (← memory).skip.isSome then return status
    engine.run b tested last
  | .sequence a b => runSteps engine tested last 0 (Script.steps (.sequence a b))
  | .negation body => return if (← engine.run body true false) = 0 then 1 else 0
  | .choice test yes no =>
    let status ← engine.run test true false
    if (← memory).skip.isSome then return status
    if status = 0 then engine.run yes tested last
    else match no with
      | some no => engine.run no tested last
      | none => return 0
  | .loop untilTrue test body =>
    inLoop (runLoop engine untilTrue test body tested loopLimit 0)
  | .each line name words body =>
    setLine line
    let values ← expandAll engine words
    inLoop (runEach engine name body tested 0 values)
  | .cases line word arms =>
    setLine line
    let text ← expandText engine word
    match ← findArm engine text.toList arms with
    | some body => engine.run body tested last
    | none => return 0
  | .define line name body =>
    modifyMemory fun m => { m with functions := m.functions.insert name ⟨line, body⟩ }
    return 0

def mayFail : Script → Bool
  | .simple .. | .pipeline .. | .subshell .. | .background .. => true
  | _ => false

def runScript (engine : Engine) (c : Script) (tested last : Bool) : ShellM Nat := do
  if (← memory).has 'n' then return 0
  runTraps engine
  let status ← runKind engine c tested last
  setStatus status
  if status ≠ 0 && !tested && mayFail c && (← memory).has 'e' then throw .leave
  runTraps engine
  return (← memory).status

/-! ## Texts -/

/-- Reads and runs the lines of a text; `fuel` bounds their number. -/
def runLines (engine : Engine) (tested : Bool) : Nat → ParseState → Nat → ShellM Nat
  | 0, _, status => return status
  | fuel + 1, p, status => do
    let m ← memory
    match Parser.nextLineOfCommands.run
        { p with aliases := m.aliases, nextDocument := m.nextDocument } with
    | .error e =>
      setLine e.line
      fail e.message
    | .ok (none, _) => return status
    | .ok (some c, p) =>
      modifyMemory fun m => { m with
        nextDocument := p.nextDocument
        documents := p.documents.foldl (fun ds (id, w) => ds.insert id w) m.documents }
      let p := { p with documents := [] }
      match c with
      | none => runLines engine tested fuel p status
      | some c =>
        let status ← engine.run c tested false
        if (← memory).skip.isSome then return status
        runLines engine tested fuel p status

def runWhole (engine : Engine) (text : String) (tested : Bool) : ShellM Nat :=
  let chars := text.toList.filter (· ≠ '\x00')
  runLines engine tested (chars.length + 2) (.start (String.ofList chars) 0) 0

/-- The engine that runs commands inside each other at most `depth` deep. -/
def Engine.upTo (launcher : Launcher) : Nat → Engine
  | 0 => {
    launcher
    run := fun _ _ _ => throw (.ended (.signal .segmentation))
    runText := fun _ _ => throw (.ended (.signal .segmentation))
    subshell := fun _ => return .signal .segmentation
    settle := return () }
  | depth + 1 => {
    launcher
    run := fun c tested last => runScript (Engine.upTo launcher depth) c tested last
    runText := fun text tested => runWhole (Engine.upTo launcher depth) text tested
    subshell := fun action => do
      let process ← onMachine Machine.newProcess
      runForked (Engine.upTo launcher depth) ((← memory).forked process) action
    settle := do
      for j in (← get).jobs.reverse do runJob (Engine.upTo launcher depth) j }

end ModularBuild.Shell
