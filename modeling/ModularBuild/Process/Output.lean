import ModularBuild.Text.CharClass
import ModularBuild.Text.Utf8

/-!
# How a process ends

A process leaves its exit status and what it wrote, or it is ended by a signal. A signal is a number;
the standard ones have a name and are described when they end a program. `toolOutput` is what a user
is shown of a failed tool: standard error, then standard output unless it is blank.
-/

namespace ModularBuild

/-! ## Signals -/

structure Signal where
  number : Nat
deriving DecidableEq, Repr, Inhabited

namespace Signal

/-- The standard signals from number 1 on, each with its name and its description. -/
def table : List (String × String) := [
  ("HUP", "Hangup"), ("INT", "Interrupt"), ("QUIT", "Quit"), ("ILL", "Illegal instruction"),
  ("TRAP", "Trace/breakpoint trap"), ("ABRT", "Aborted"), ("BUS", "Bus error"),
  ("FPE", "Floating point exception"), ("KILL", "Killed"), ("USR1", "User defined signal 1"),
  ("SEGV", "Segmentation fault"), ("USR2", "User defined signal 2"), ("PIPE", "Broken pipe"),
  ("ALRM", "Alarm clock"), ("TERM", "Terminated"), ("STKFLT", "Stack fault"),
  ("CHLD", "Child exited"), ("CONT", "Continued"), ("STOP", "Stopped (signal)"),
  ("TSTP", "Stopped"), ("TTIN", "Stopped (tty input)"), ("TTOU", "Stopped (tty output)"),
  ("URG", "Urgent I/O condition"), ("XCPU", "CPU time limit exceeded"),
  ("XFSZ", "File size limit exceeded"), ("VTALRM", "Virtual timer expired"),
  ("PROF", "Profiling timer expired"), ("WINCH", "Window changed"), ("IO", "I/O possible"),
  ("PWR", "Power failure"), ("SYS", "Bad system call")]

def last : Nat := 64

def firstRealTime : Nat := 34

/-- The name of a signal; those without a meaning are counted from the first and from the last. -/
def name (s : Signal) : String :=
  match table[s.number - 1]? with
  | some (name, _) => name
  | none =>
    if s.number = firstRealTime then "RTMIN"
    else if s.number = last then "RTMAX"
    else if s.number < firstRealTime then toString s.number
    else if s.number ≤ 49 then s!"RTMIN+{s.number - firstRealTime}"
    else s!"RTMAX-{last - s.number}"

def description (s : Signal) : String :=
  match table[s.number - 1]? with
  | some (_, text) => text
  | none => if s.number < firstRealTime then s!"Unknown signal {s.number}"
    else s!"Real-time signal {s.number - firstRealTime}"

def hangup : Signal := ⟨1⟩
def interrupt : Signal := ⟨2⟩
def quit : Signal := ⟨3⟩
def kill : Signal := ⟨9⟩
def segmentation : Signal := ⟨11⟩
def pipe : Signal := ⟨13⟩
def terminate : Signal := ⟨15⟩

/-- The signals that a program lives on after unless it says otherwise, and those that stop it. -/
def isHarmless (s : Signal) : Bool := [17, 18, 23, 28].contains s.number

/-- The signals that stop a program until it is told to go on. -/
def isStop (s : Signal) : Bool := [19, 20, 21, 22].contains s.number

def isForced (s : Signal) : Bool := s.number = 9 || s.number = 19

def all : List Signal := (List.range last).map fun n => ⟨n + 1⟩

def ofName? (name : String) : Option Signal := all.find? (·.name = name)

end Signal

/-! ## Status and output -/

inductive ExitStatus where
  | code (n : Nat)
  | signal (s : Signal)
deriving DecidableEq, Repr

namespace ExitStatus

def success : ExitStatus → Bool
  | code n => n = 0
  | signal _ => false

def code? : ExitStatus → Option Nat
  | code n => some n
  | signal _ => none

def message : ExitStatus → String
  | code n => s!"exit status: {n}"
  | signal s => s!"signal: {s.number} (SIG{s.name})"

end ExitStatus

structure ProcessOutput where
  status : ExitStatus
  stdout : List UInt8
  stderr : List UInt8
deriving DecidableEq, Repr

def toolOutput (stdout stderr : List UInt8) : String :=
  let out := Text.ofBytes stdout
  let err := Text.ofBytes stderr
  if Text.isBlank out then err
  else if err = "" || err.toList.getLast? = some '\n' then err ++ out
  else err ++ "\n" ++ out

namespace ProcessOutput

def stdoutText (o : ProcessOutput) : String := Text.ofBytes o.stdout

def stderrText (o : ProcessOutput) : String := Text.ofBytes o.stderr

def toolOutput (o : ProcessOutput) : String := ModularBuild.toolOutput o.stdout o.stderr

end ProcessOutput

end ModularBuild
