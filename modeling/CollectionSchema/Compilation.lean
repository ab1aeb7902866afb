import CollectionSchema.Builder
import CollectionSchema.Fragment
import CollectionSchema.Log.Level
import CollectionSchema.Settings.Basic

/-!
# Compilations

A compiler is set up once from settings and then compiles units of declarations into generated code.
Setting up fails for an unknown log level, and then for an unknown artifact. Compiling a unit fails
with all its diagnostics, or in fail-fast mode with the first one.
-/

namespace CollectionSchema

/-- The graph of a unit of declarations and the fragments generated from it. -/
structure Output where
  graph : Graph
  fragments : List Fragment
deriving Repr

/-- A compiler that is set up: what happens at problems, what is generated, and the level of the
log. -/
structure Compiler where
  mode : Mode
  selection : Selection
  logLevel : Nat
deriving Repr

namespace Compiler

/-- Sets up a compiler. Artifacts that are given come before those of the settings, which are then
not looked at. -/
def create (settings : Settings) (artifacts : Option (List Artifact)) :
    Except Failure Compiler := do
  let logLevel ← Log.levelNumber settings.logLevel
  let artifacts ← match artifacts with
    | some given => .ok given
    | none => Artifact.resolve settings.artifacts
  return ⟨settings.mode, ⟨artifacts, true⟩, logLevel⟩

/-- Compiles a unit of declarations. -/
def process (c : Compiler) (ds : List Declaration) : Report Log.Record Output := do
  let result ← buildGraph c.mode ds
  let graph ← .lift result.graphOrFail
  let fragments ← graph.generate c.selection
  return ⟨graph, fragments⟩

end Compiler

def compileSchema (ds : List Declaration) (artifacts : Option (List Artifact))
    (settings : Settings) : Report Log.Record Output := do
  let compiler ← .lift (Compiler.create settings artifacts)
  compiler.process ds

end CollectionSchema
