import CollectionSchema.Survey

/-!
# Builders

A builder compiles the declarations it was made for, any number of times. Its memory is written step
by step: to the context every diagnostic goes when it is found, the path of a declaration with
diagnostics is noted once it was compiled, and then the diagnostics that were added are noted for
the position of the declaration (`noting`). Where a diagnostic is raised instead, the steps behind
it are not taken.

A build goes over the declarations in three passes. The first compiles each declaration and drops
those with diagnostics and those whose path was taken before (`screenFrom`). The second attaches
each nested collection to its parent (`linkFrom`). The third gives the collections that share a
record type class names from their paths, and looks for class names that still coincide
(`qualifyFrom`, `conflictsFrom`). The result is a graph if no diagnostic was ever met, and otherwise
the diagnostics of the declarations, one declaration after the other (`conclude`).
-/

namespace CollectionSchema

/-- A graph, or the diagnostics that stand against one. -/
structure BuildResult where
  graph : Option Graph := none
  errors : List Diagnostic := []
deriving Repr

namespace BuildResult

def isValid (r : BuildResult) : Bool :=
  r.errors.isEmpty

/-- The graph, or the failure with all diagnostics. -/
def graphOrFail (r : BuildResult) : Except Failure Graph :=
  match r.errors, r.graph with
  | [], some g => .ok g
  | errors, _ => .error (.aggregate errors)

end BuildResult

/-- Declarations and what was met while they were compiled. -/
structure Builder where
  declarations : List Declaration
  context : Context := {}
  failedPaths : List String := []
  /-- Diagnostics with the positions of the declarations that they are about. -/
  indexed : List (Nat × Diagnostic) := []
deriving Repr

namespace Builder

open Survey

/-- A builder that has not compiled anything yet. -/
def new (declarations : List Declaration) (mode : Mode) : Builder :=
  { declarations := declarations, context := { mode := mode } }

/-- The declaration at a position; negative positions count from the end. -/
def declaration (b : Builder) (i : Int) : Except Failure Declaration :=
  let position := if i < 0 then i + b.declarations.length else i
  match position with
  | .ofNat n => match b.declarations[n]? with
    | some d => .ok d
    | none => .error .noSuchMember
  | .negSucc _ => .error .noSuchMember

/-! ## Steps -/

/-- Work on the context of a builder. -/
def onContext {α : Type} (w : Work Context α) : Work Builder α :=
  Work.within (·.context) (fun b c => { b with context := c }) w

def addError (d : Diagnostic) : Work Builder Unit :=
  onContext (Context.addError d)

/-- Compiles one declaration, and notes its path if that gives no collection. -/
def compileOne (d : Declaration) : Work Builder (Option Collection) := do
  let found ← onContext d.compile
  if found.isNone then .modify fun b => { b with failedPaths := b.failedPaths ++ [d.path] }
  return found

/-- Work on the declaration at a position; the diagnostics that it has added to the context are
noted for this position when it is done. -/
def noting {α : Type} (i : Nat) (w : Work Builder α) : Work Builder α := do
  let before ← .get
  let a ← w
  .modify fun b => { b with
    indexed := b.indexed ++ (b.context.errors.drop before.context.errors.length).map (i, ·) }
  return a

/-! ## The first pass: each declaration on its own -/

/-- The collections that are kept when the declaration at position `i` has been compiled. -/
def screen (kept : List Kept) (i : Nat) (d : Declaration) : Work Builder (List Kept) := do
  match ← compileOne d with
  | none => return kept
  | some c =>
    match kept.find? (·.collection.pathText = c.pathText) with
    | some first => do
      addError (duplicatePath first.collection.site c)
      return kept
    | none => return kept ++ [⟨i, c⟩]

/-- Screens declarations from position `i` on. -/
def screenFrom (kept : List Kept) : Nat → List Declaration → Work Builder (List Kept)
  | _, [] => return kept
  | i, d :: ds => do
    let kept ← noting i (screen kept i d)
    screenFrom kept (i + 1) ds

/-! ## The second pass: links -/

/-- Attaches a nested collection to its parent, which is looked up by path. Where the parent failed
to compile, its absence is no further problem. -/
def link (h : Hierarchy) (byPath : Table String Nat) (i : Nat) (c : Collection) :
    Work Builder Hierarchy :=
  match c.path.parent? with
  | none => do
    addError (danglingWildcard c)
    return h
  | some parentPath =>
    match byPath.find? parentPath with
    | some p => .ofReport ((Hierarchy.attach p i).exec h)
    | none => do
      if (← .get).failedPaths.contains parentPath then
        .ofReport (.debug .graph ("Skipping " ++ c.pathText ++ ": parent " ++ parentPath
          ++ " failed to compile"))
        return h
      else
        addError (orphan c parentPath)
        return h

/-- Links the nested ones among the collections from number `i` on. -/
def linkFrom (byPath : Table String Nat) (h : Hierarchy) :
    Nat → List Kept → Work Builder Hierarchy
  | _, [] => return h
  | i, k :: ks => do
    let linked ← if k.collection.isRoot then pure h
      else noting k.index (link h byPath i k.collection)
    linkFrom byPath linked (i + 1) ks

/-! ## The third pass: class names -/

/-- Qualifies the class names of the collections from number `i` on that share a record type with
another of `all`. -/
def qualifyFrom (all : List Kept) (h : Hierarchy) :
    Nat → List Kept → Report Log.Record Hierarchy
  | _, [] => return h
  | i, k :: ks =>
    if sharesRecordType all k.collection then do
      .debug .graph (k.collection.pathText ++ " generates classes as "
        ++ k.collection.className true)
      qualifyFrom all (h.qualify i) (i + 1) ks
    else qualifyFrom all h (i + 1) ks

/-- Looks for collections whose class name is that of an earlier one; the first keeps it. -/
def conflictsFrom (owners : List NamedCollection) :
    List (Nat × NamedCollection) → Work Builder Unit
  | [] => return
  | (i, c) :: rest =>
    match owners.find? (·.className = c.className) with
    | some owner => do
      noting i (addError (conflictingClassName owner c))
      conflictsFrom owners rest
    | none => conflictsFrom (owners ++ [c]) rest

/-! ## Builds -/

/-- The hierarchy of the collections that are kept of some declarations. -/
def arrange (ds : List Declaration) : Work Builder Hierarchy := do
  let kept ← screenFrom [] 0 ds
  let collections := kept.map (·.collection)
  let byPath := Table.ofList (collections.map Collection.pathText).zipIdx
  let linked ← linkFrom byPath (.ofCollections collections) 0 kept
  let hierarchy ← .ofReport (qualifyFrom kept linked 0 kept)
  conflictsFrom [] ((kept.map (·.index)).zip (hierarchy.entries.map Entry.named))
  return hierarchy

/-- The remembered diagnostics of the declarations, one declaration after the other. -/
def orderedErrors (b : Builder) : List Diagnostic :=
  (List.range b.declarations.length).flatMap fun i =>
    (b.indexed.filter (·.1 = i)).map (·.2)

def inform (message : String) : Report Log.Record Unit :=
  .emit ⟨.info, .graph, message⟩

/-- The result of a build that ended with a hierarchy. -/
def conclude (b : Builder) (h : Hierarchy) : Report Log.Record BuildResult :=
  if b.context.isValid then do
    let g := Graph.ofMembers h (List.range h.entries.length)
    inform ("Built collection graph: " ++ toString g.roots.length ++ " root(s), "
      ++ toString g.subcollections.length ++ " sub-collection(s)")
    return { graph := some g }
  else do
    inform ("Collection graph has " ++ toString b.context.errors.length ++ " error(s)")
    return { errors := b.orderedErrors }

/-- Compiles one declaration, which need not be one of the builder's; none if it has problems. -/
def compile (b : Builder) (d : Declaration) : Builder × Report Log.Record (Option Collection) :=
  compileOne d b

def build (b : Builder) : Builder × Report Log.Record BuildResult :=
  (arrange b.declarations >>= fun h b => (b, b.conclude h)) b

end Builder

def buildGraph (mode : Mode) (ds : List Declaration) : Report Log.Record BuildResult :=
  (Builder.new ds mode).build.2

end CollectionSchema
