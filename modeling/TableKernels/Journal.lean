/-!
# Journals

What an instance reports while it runs: leveled records in the order in which they were made. A
journal is part of the state of an instance and nothing reads it but the host.
-/

namespace TableKernels

/-- How much a record matters. -/
inductive Level
  | debug
  | info
  | warn
  | error
deriving DecidableEq

/-- The name of a level. -/
def Level.name : Level → String
  | .debug => "DEBUG"
  | .info => "INFO"
  | .warn => "WARN"
  | .error => "ERROR"

/-- One record of a journal. -/
structure Record where
  level : Level
  text : String
deriving DecidableEq

/-- The line that a record prints as. -/
def Record.line (record : Record) : String :=
  record.level.name ++ " " ++ record.text

/-- The records of an instance, oldest first. -/
abbrev Journal := Array Record

end TableKernels
