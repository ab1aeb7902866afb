import CollectionSchema.Context
import CollectionSchema.Settings.Environment
import CollectionSchema.Text.Blank
import CollectionSchema.Text.Pieces
import CollectionSchema.Text.Uppercase

/-!
# Settings

The settings of a compilation: the level of the log, whether to stop at the first problem, and which
artifacts to generate. They can be taken from environment variables, to which an environment file
may add.
-/

namespace CollectionSchema

open Text

/-- The settings of a compilation. Without names of artifacts all are generated. -/
structure Settings where
  logLevel : String := "INFO"
  failFast : Bool := false
  artifacts : Option (List String) := none
deriving Repr, DecidableEq

namespace Settings

/-- The words that turn a setting on, in small letters. No letter outside ASCII has one of their
letters as its small form. -/
def affirmations : List String := ["1", "true", "yes", "on"]

/-- Whether a value turns a setting on; blanks around it and its case do not matter. -/
def parseFlag (value : Option String) : Bool :=
  value.any fun s => affirmations.contains ((trim s).map Char.toLower)

/-- The names in a value, separated by commas and without the blanks around them. Blank pieces are
left out, and where only such are left, there are no names. -/
def parseNames (value : String) : Option (List String) :=
  let names := ((pieces (· == ',') value.toList).map (trimBy isBlank)).filter (!·.isEmpty)
  if names.isEmpty then none else some (names.map String.ofList)

def mode (s : Settings) : Mode :=
  if s.failFast then .failFast else .collecting

def ofEnvironment (e : Environment) : Settings where
  logLevel := uppercase ((e.find? "ODM_COMPILER_LOG_LEVEL").getD "INFO")
  failFast := parseFlag (e.find? "ODM_COMPILER_FAIL_FAST")
  artifacts := (e.find? "ODM_COMPILER_EMITTERS").bind parseNames

/-- The settings in an environment into which an environment file is loaded first, if there is one.
What loading makes of the environment is up to `load`. -/
def read (load : String → Environment → Except Failure Environment) (e : Environment)
    (file : Option String) : Except Failure Settings :=
  match file with
  | some file => (load file e).map ofEnvironment
  | none => .ok (ofEnvironment e)

end Settings

end CollectionSchema
