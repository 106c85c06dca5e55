/-!
# Logs

An event has a level, a message and named values, and is written as one line.  A program has at most
one log.  The first call to open one succeeds and fixes its format and level; later calls find it
open and change nothing.
-/

namespace LedgerKit

/-! ### Lines -/

/-- How much an event matters, the most first. -/
inductive LogLevel where
  | warn
  | debug
  | trace
deriving DecidableEq, Repr

/-- The name of a level. -/
def LogLevel.name : LogLevel → String
  | .warn => "WARN"
  | .debug => "DEBUG"
  | .trace => "TRACE"

/-- An event as it is logged. -/
structure LogLine where
  /-- How much it matters. -/
  level : LogLevel
  /-- What happened. -/
  message : String
  /-- To what it happened: names and values. -/
  fields : List (String × String)
deriving DecidableEq, Repr

/-- The line as a text. -/
def LogLine.toString (l : LogLine) : String :=
  " ".intercalate (l.level.name :: l.message :: l.fields.map fun f => f.1 ++ "=" ++ f.2)

instance : ToString LogLine := ⟨LogLine.toString⟩

/-! ### The log of a program -/

/-- How log lines are written. -/
inductive LogFormat where
  /-- For people. -/
  | human
  /-- As one object on each line. -/
  | json
deriving DecidableEq, Repr

namespace LogFormat

/-- The name of a format. -/
def name : LogFormat → String
  | human => "human"
  | json => "json"

/-- The format of a name. -/
def ofName? (text : String) : Option LogFormat := [human, json].find? fun f => f.name == text

/-- The form shown in diagnostics. -/
def inspect : LogFormat → String
  | human => "Human"
  | json => "Json"

end LogFormat

/-- The log of a program, once it is open: its format and its level. -/
abbrev ProgramLog := Option (LogFormat × String)

namespace ProgramLog

/-- Opens the log if it is not open yet, and tells whether it was opened. -/
def init (log : ProgramLog) (format : LogFormat) (level : String) : Bool × ProgramLog :=
  match log with
  | none => (true, some (format, level))
  | some _ => (false, log)

/-- Tries to open the log several times, and tells of each whether it was opened. -/
def initEach : ProgramLog → List (LogFormat × String) → List Bool
  | _, [] => []
  | log, call :: calls =>
    let r := log.init call.1 call.2
    r.1 :: initEach r.2 calls

end ProgramLog

end LedgerKit
