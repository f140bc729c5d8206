import ModularBuild.Shell.Builtin.Basic
import ModularBuild.Shell.Expansion

/-!
# Traps, and builtins for jobs and signals

A shell notices the signals that were sent to it between two commands. A signal that is neither
ignored nor trapped ends the shell; a trapped one makes it run a text.
-/

namespace ModularBuild.Shell

/-! ## Traps -/

/-- The name of a signal in the shell; the end of the shell counts as one. -/
def signalName (n : Nat) : String :=
  if n = 0 then "EXIT" else if n = 16 then "16" else Signal.name ⟨n⟩

/-- The signal that a text names, by number or by name, from the least one that counts. -/
def signalNumber? (least : Nat) (s : String) : Option Nat :=
  if !s.isEmpty && s.toList.all Char.isDigit then s.toNat?.filter (· ≤ Signal.last)
  else (List.range (Signal.last + 1)).find? fun n =>
    least ≤ n && (signalName n).toList = s.toList.map Char.toUpper

def noticeSignals : ShellM Unit := do
  let m ← memory
  for s in ← onMachine (Machine.takeSignals m.context.process) do
    match if s.isForced then none else m.traps.find? s.number with
    | some action =>
      if action ≠ "" && !m.context.ignored.contains s then
        modifyMemory fun m => { m with caught := m.caught ++ [s.number] }
    | none =>
      let passes := s.isHarmless || s.isStop || (!s.isForced && m.context.ignored.contains s)
      unless passes do throw (.ended (.signal s))

/-- Runs the trap of a signal; the status stays what it was unless the trap leaves a function. -/
def runTrap (engine : Engine) (signal : Nat) : ShellM Unit := do
  let m ← memory
  match m.traps.find? signal with
  | none => return ()
  | some action =>
    let status := m.trapStatus.getD m.status
    modifyMemory fun m => { m with trapStatus := some status }
    let left ← engine.runText action false
    if (← memory).skip = some .returning then setStatus left else setStatus status
    modifyMemory fun k => { k with trapStatus := m.trapStatus }

def runTraps (engine : Engine) : ShellM Unit := do
  noticeSignals
  let m ← memory
  unless m.caught.isEmpty || m.skip.isSome do
    modifyMemory fun m => { m with caught := [] }
    for n in m.caught do runTrap engine n

def Memory.hasTraps (m : Memory) : Bool := m.traps.values.any (· ≠ "")

/-- The builtin `trap`. -/
def trap (args : List String) : ShellM Nat := do
  let (_, args) ← takeOptions "" args
  match args with
  | [] =>
    for (n, action) in (← memory).traps.entries do
      print s!"trap -- {inQuotes action} {signalName n}\n"
    return 0
  | first :: rest =>
    let isNumber := (signalNumber? 0 first).isSome && first.toList.all Char.isDigit
    let (action, signals) := if rest.isEmpty || isNumber then (none, args)
      else (if first = "-" then none else some first, rest)
    for s in signals do
      match signalNumber? 0 s with
      | none =>
        writeError s!"trap: {s}: bad trap\n"
        return 1
      | some n =>
        modifyMemory fun m => { m with
          traps := match action with
            | some a => m.traps.insert n a
            | none => m.traps.erase n }
    return 0

/-! ## Jobs -/

/-- Tells that a signal has ended a command, unless that is nothing unusual. -/
def tellSignal : ExitStatus → ShellM Unit
  | .code _ => return ()
  | .signal s => unless s = .interrupt || s = .pipe do writeError (s.description ++ "\n")

def statusNumber : ExitStatus → Nat
  | .code n => n
  | .signal s => 128 + s.number

def jobNamed (s : String) : ShellM Job := do
  let jobs := (← get).jobs
  let found? := match s.toList with
    | ['%'] | ['%', '%'] | ['%', '+'] => jobs.head?
    | ['%', '-'] => jobs[1]?
    | '%' :: ds => (String.ofList ds).toNat?.bind fun n => jobs.find? (·.number = n)
    | _ => none
  match found? with
  | some j => return j
  | none => fail s!"No such job: {s}"

/-- Waits for one job; an unknown process has a status of its own. -/
def waitFor (s : String) : ShellM Nat := do
  let job? ← if s.startsWith "%" then some <$> jobNamed s
    else do
      let n ← wholeNumber s
      pure ((← get).jobs.find? (·.process = n))
  match job? with
  | none => return 127
  | some j =>
    tellSignal j.status
    return statusNumber j.status

def wait (engine : Engine) (args : List String) : ShellM Nat := do
  let (_, args) ← takeOptions "" args
  engine.settle
  args.foldlM (fun _ a => waitFor a) 0

/-- What a job is shown as, with a mark for the current one and the one before. -/
def jobLine (place : Nat) (j : Job) (process : Bool) : String :=
  let mark := match place with
    | 0 => '+'
    | 1 => '-'
    | _ => ' '
  let number := if process then s!"{j.process} " else ""
  let state := if j.waiting.isSome then "Running"
    else match j.status with
      | .code 0 => "Done"
      | .code n => s!"Done({n})"
      | .signal s => s.description
  let start := s!"[{j.number}] {mark} {number}{state}"
  start ++ String.ofList (List.replicate (max 1 (33 - start.length)) ' ') ++ "\n"

def jobs (args : List String) : ShellM Nat := do
  let (given, _) ← takeOptions "lp" args
  let shown (js : List Job) : List String :=
    js.zipIdx.map fun (j, i) =>
      if given.getLast? = some ('p', "") then s!"{j.process}\n"
      else jobLine i j (given.getLast? = some ('l', ""))
  let js := (← get).jobs
  let done := js.filter (·.waiting.isNone)
  if js.length = done.length then
    for j in js do
      for line in shown [j] do print line
  else
    for line in shown js do print line
  modify fun s => { s with jobs := s.jobs.filter (·.waiting.isSome) }
  return 0

/-- The builtins that bring a job to the front or put it to the back, which only an interactive
shell can do. -/
def moveJob (args : List String) : ShellM Nat := do
  let (_, args) ← takeOptions "" args
  let j? ← match args with
    | [] => pure (← get).jobs.head?
    | a :: _ => some <$> jobNamed a
  match j? with
  | some _ => fail "job (null) not created under job control"
  | none => fail "No current job"

/-! ## Signals -/

def killUsage : String :=
  "Usage: kill [-s sigspec | -signum | -sigspec] [pid | job]... or\nkill -l [exitstatus]"

def listSignals (args : List String) : ShellM Nat := do
  match args with
  | [] =>
    print "0\n"
    for s in Signal.all do print (signalName s.number ++ "\n")
    return 0
  | a :: _ =>
    let n ← wholeNumber a
    let n := if 128 < n then n - 128 else n
    if 0 < n && n ≤ Signal.last then
      print (signalName n ++ "\n")
      return 0
    else fail s!"invalid signal number or exit status: {a}"

/-- Sends a signal to a process, if there is one; 0 is no signal. -/
def signalProcess (signal process : Nat) : ShellM Bool := do
  let s ← get
  let c := s.memory.context
  let target := if process = 0 then c.process else process
  let isAlive := [c.process, c.parent, s.memory.mainProcess].contains target ||
    s.jobs.any fun j => j.process = target && j.waiting.isSome
  if isAlive && signal ≠ 0 then onMachine (Machine.sendSignal target ⟨signal⟩)
  return isAlive

def sendAll (signal : Nat) : List String → ShellM Nat
  | [] => return 0
  | a :: rest => do
    let process ← if a.startsWith "%" then pure (← jobNamed a).process
      else match a.toList with
        | '-' :: ds => wholeNumber (String.ofList ds)
        | _ => wholeNumber a
    let sent ← signalProcess signal process
    unless sent do complain (FileError.noSuchProcess.name ++ "\n")
    return max (if sent then 0 else 1) (← sendAll signal rest)

def kill (args : List String) : ShellM Nat := do
  let usage : ShellM Nat := fail killUsage
  let send (signal : Nat) (args : List String) : ShellM Nat :=
    if args.isEmpty then usage else sendAll signal args
  match args with
  | [] => usage
  | first :: rest =>
    match first.toList with
    | '-' :: name =>
      match signalNumber? 1 (String.ofList name) with
      | some n => send n rest
      | none =>
        let (given, args) ← takeOptions "ls:" args
        let named (before : Option Nat) (g : GivenOption) : ShellM (Option Nat) := do
          if g.1 ≠ 's' then return before
          match signalNumber? 1 g.2 with
          | some n => return some n
          | none => fail s!"invalid signal number or name: {g.2}"
        match given.any (·.1 = 'l'), ← given.foldlM named none with
        | true, none => listSignals args
        | true, some _ => usage
        | false, signal => send (signal.getD Signal.terminate.number) args
    | _ => send Signal.terminate.number args

end ModularBuild.Shell
