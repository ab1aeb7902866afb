/-!
# Layout of generated text

Generated text is described by a script of steps: lines, and moves of the margin by one level to the
right or to the left. `Script.render` lays a script out. A line is written at the margin, an empty
line has no margin, and the margin never moves left of column zero.
-/

namespace CollectionSchema.Layout

inductive Step where
  | line (text : String)
  | indent
  | dedent
deriving Repr, DecidableEq

/-- A description of a generated text. -/
abbrev Script := List Step

/-- A header line and a body one level to the right of it. -/
def block (header : String) (body : Script) : Script :=
  .line header :: .indent :: body ++ [.dedent]

def blank : Step :=
  .line ""

/-- The unit of indentation of generated code. -/
def standardIndent : String := "    "

/-- A text at the margin of a level. -/
def atLevel (unit : String) (level : Nat) (text : String) : String :=
  if text.isEmpty then "" else String.join (List.replicate level unit) ++ text

/-- The lines of a script that starts at a level. -/
def linesFrom (unit : String) : Nat → Script → List String
  | _, [] => []
  | level, .line text :: rest => atLevel unit level text :: linesFrom unit level rest
  | level, .indent :: rest => linesFrom unit (level + 1) rest
  | level, .dedent :: rest => linesFrom unit (level - 1) rest

/-- The text of a script; its last line ends with a newline too. -/
def Script.render (s : Script) (unit : String := standardIndent) : String :=
  "\n".intercalate (linesFrom unit 0 s) ++ "\n"

/-- The level after a script that starts at a level. -/
def levelAfter : Nat → Script → Nat
  | level, [] => level
  | level, .line _ :: rest => levelAfter level rest
  | level, .indent :: rest => levelAfter (level + 1) rest
  | level, .dedent :: rest => levelAfter (level - 1) rest

theorem levelAfter_append (level : Nat) (s t : Script) :
    levelAfter level (s ++ t) = levelAfter (levelAfter level s) t := by
  induction s generalizing level with
  | nil => rfl
  | cons step s ih => cases step <;> exact ih _

theorem linesFrom_append (unit : String) (level : Nat) (s t : Script) :
    linesFrom unit level (s ++ t) = linesFrom unit level s ++ linesFrom unit (levelAfter level s) t
      := by
  induction s generalizing level with
  | nil => rfl
  | cons step s ih =>
    cases step with
    | line text => exact congrArg _ (ih level)
    | indent => exact ih _
    | dedent => exact ih _

end CollectionSchema.Layout
