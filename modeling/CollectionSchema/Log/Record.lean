/-!
# Log records

What the compiler tells about its work, in order. A record has a severity, the part of the compiler
that wrote it, and a message. A record is visible if its severity reaches the level in force.
-/

namespace CollectionSchema.Log

/-- The severities that the compiler uses. -/
inductive Severity where
  | debug
  | info
  | warning
deriving Repr, DecidableEq

def Severity.level : Severity → Nat
  | .debug => 10
  | .info => 20
  | .warning => 30

def Severity.name : Severity → String
  | .debug => "DEBUG"
  | .info => "INFO"
  | .warning => "WARNING"

/-- The parts of the compiler that write records. -/
inductive Channel where
  | diagnostics
  | codecs
  | injections
  | queryFields
  | graph
  | dispatch
deriving Repr, DecidableEq

structure Record where
  severity : Severity
  channel : Channel
  message : String
deriving Repr, DecidableEq

/-- The records that are visible at a level. -/
def visible (level : Nat) (records : List Record) : List Record :=
  records.filter fun r => level ≤ r.severity.level

end CollectionSchema.Log
