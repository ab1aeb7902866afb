import CollectionSchema.Failure

/-!
# Log levels

The levels that can be set by name, and the two loggers that they are set on: the logger of the
compiler and the root logger above it. A logger without a level of its own takes that of the root.
-/

namespace CollectionSchema.Log

inductive Level where
  | critical
  | fatal
  | error
  | warn
  | warning
  | info
  | debug
  | notSet
deriving Repr, DecidableEq

instance : Vocabulary Level where
  members := [.critical, .fatal, .error, .warn, .warning, .info, .debug, .notSet]
  word
    | .critical => "CRITICAL"
    | .fatal => "FATAL"
    | .error => "ERROR"
    | .warn => "WARN"
    | .warning => "WARNING"
    | .info => "INFO"
    | .debug => "DEBUG"
    | .notSet => "NOTSET"

/-- The number of a level; zero means that no level is set. -/
def Level.number : Level → Nat
  | .critical | .fatal => 50
  | .error => 40
  | .warn | .warning => 30
  | .info => 20
  | .debug => 10
  | .notSet => 0

/-- The number of the level with a name, which must be written in capitals. -/
def levelNumber (name : String) : Except Failure Nat :=
  match (Vocabulary.ofWord? name : Option Level) with
  | some level => .ok level.number
  | none => .error (.unknownLevel name)

/-- The level of the root logger before anything is set. -/
def initialRootLevel : Nat := 30

/-- The format of the records that the root handler writes. -/
def recordFormat : String := "%(asctime)s - %(name)s - %(levelname)s - %(message)s"

/-- The levels of the compiler's logger and of the root, and the formats of the root's handlers. -/
structure Loggers where
  packageLevel : Nat := 0
  rootLevel : Nat := initialRootLevel
  rootFormats : List String := []
deriving Repr

namespace Loggers

def effectiveLevel (l : Loggers) : Nat :=
  if l.packageLevel = 0 then l.rootLevel else l.packageLevel

def isEnabled (l : Loggers) (level : Nat) : Bool :=
  l.effectiveLevel ≤ level

def applyLevel (l : Loggers) (name : String) : Except Failure Loggers :=
  (levelNumber name).map fun n => { l with packageLevel := n }

/-- Sets both levels and gives the root a handler, unless it has one; then only the compiler's level
is set. -/
def configure (l : Loggers) (name : String) : Except Failure Loggers := do
  let n ← levelNumber name
  let l := if l.rootFormats.isEmpty then { l with rootLevel := n, rootFormats := [recordFormat] }
    else l
  l.applyLevel name

end Loggers

end CollectionSchema.Log
