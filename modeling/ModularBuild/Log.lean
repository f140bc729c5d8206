/-!
# What a run tells its user

A run reports events in order: log messages of four levels, and lines for the terminal that are no
log messages.
-/

namespace ModularBuild

inductive LogLevel where
  | debug
  | info
  | warn
  | error
deriving DecidableEq, Repr

def LogLevel.name : LogLevel → String
  | debug => "DEBUG"
  | info => "INFO"
  | warn => "WARN"
  | error => "ERROR"

inductive Event where
  | log (level : LogLevel) (message : String)
  /-- A line on standard error. -/
  | line (text : String)
deriving DecidableEq, Repr

end ModularBuild
