import CollectionSchema.Settings.Environment
import CollectionSchema.Text.Blank

/-!
# Environment files

A stand-in for the library that reads environment files, so that the compiler can be run; nothing in
the compiler rests on it. An environment file is a row of bindings `KEY=value`, each on a line of
its own, with blank lines and lines that start with `#` between them. A key may follow the word
`export` and may stand between single quotes. A value between quotes is taken as it stands and may
go over several lines; any other value ends with the line, or at blanks that `#` follows, without
the blanks at its end. A key without `=` is bound to nothing. The rest of a line that cannot be read
is skipped. A file adds to an environment what is not defined there (`load`): each key has its last
binding, and a key that is bound to nothing last is not added.
-/

namespace CollectionSchema.EnvFile

open Text

/-- A key and its value; a key that stands alone has none. -/
abbrev Binding := String × Option String

/-- The characters with each line end written as a newline. -/
def unifyNewlines : List Char → List Char
  | [] => []
  | '\r' :: '\n' :: cs => '\n' :: unifyNewlines cs
  | '\r' :: cs => '\n' :: unifyNewlines cs
  | c :: cs => c :: unifyNewlines cs

def isInlineBlank (c : Char) : Bool :=
  isBlank c && c != '\n'

/-- The characters without blanks at the start of the line. -/
def skipInline (cs : List Char) : List Char :=
  cs.dropWhile isInlineBlank

def nextLine (cs : List Char) : List Char :=
  (cs.dropWhile (· != '\n')).drop 1

/-- The characters after the word `export` and the blanks behind it, if they come first. -/
def skipExport (cs : List Char) : List Char :=
  match cs with
  | 'e' :: 'x' :: 'p' :: 'o' :: 'r' :: 't' :: rest =>
    if (rest.head?.any isInlineBlank) then skipInline rest else cs
  | _ => cs

/-- A text between quotes `q`, of which the first has been read, and what follows it. -/
def takeQuoted? (q : Char) (cs : List Char) : Option (List Char × List Char) :=
  match cs.dropWhile (· != q) with
  | _ :: rest => some (cs.takeWhile (· != q), rest)
  | [] => none

def takeKey? (cs : List Char) : Option (List Char × List Char) :=
  let ends (c : Char) : Bool := c == '=' || c == '#' || isBlank c
  let found? := match cs with
    | '\'' :: rest => takeQuoted? '\'' rest
    | _ => some (cs.takeWhile (!ends ·), cs.dropWhile (!ends ·))
  found?.filter (!·.1.isEmpty)

/-- The characters of a line in front of the first blanks that `#` follows. -/
def beforeComment : List Char → List Char
  | [] => []
  | c :: cs =>
    if isBlank c && (cs.dropWhile isBlank).head? == some '#' then [] else c :: beforeComment cs

def takeValue? (cs : List Char) : Option (List Char × List Char) :=
  match cs with
  | '\'' :: rest => takeQuoted? '\'' rest
  | '"' :: rest => takeQuoted? '"' rest
  | _ =>
    some (dropRight isBlank (beforeComment (cs.takeWhile (· != '\n'))), cs.dropWhile (· != '\n'))

/-- Whether only blanks and a comment are left of the line. -/
def endsLine (cs : List Char) : Bool :=
  match skipInline cs with
  | [] => true
  | c :: _ => c == '\n' || c == '#'

/-- The value behind a key, if `=` follows the key, and what follows the value; none if the value
cannot be read. -/
def takeAssigned? (cs : List Char) : Option (Option (List Char) × List Char) :=
  match skipInline cs with
  | '=' :: rest => (takeValue? (skipInline rest)).map fun (value, rest) => (some value, rest)
  | rest => some (none, rest)

/-- The binding of a line that is not blank; none if there is none or it cannot be read. -/
def takeBinding (cs : List Char) : Option Binding × List Char :=
  let start := skipExport cs
  match takeKey? start with
  | none => (none, nextLine start)
  | some (key, afterKey) =>
    match takeAssigned? afterKey with
    | none => (none, nextLine afterKey)
    | some (value, rest) =>
      if endsLine rest then (some (.ofList key, value.map String.ofList), nextLine rest)
      else (none, nextLine rest)

/-- The bindings of at most `fuel` lines. -/
def bindingsFrom : Nat → List Char → List Binding
  | 0, _ => []
  | fuel + 1, cs =>
    match cs.dropWhile isBlank with
    | [] => []
    | line =>
      let (binding, rest) := takeBinding line
      binding.toList ++ bindingsFrom fuel rest

def parse (text : String) : List Binding :=
  let cs := unifyNewlines text.toList
  bindingsFrom cs.length cs

/-- The environment with the key of an environment file, unless it is set already. -/
def loadOne (e : Environment) (binding : Binding) : Except Failure Environment :=
  match binding.2 with
  | some value => if e.contains binding.1 then .ok e else e.define binding.1 value
  | none => .ok e

/-- The environment with the keys of an environment file that are not set already. -/
def load (file : String) (e : Environment) : Except Failure Environment :=
  (Table.ofList (parse file)).pairs.foldlM loadOne e

end CollectionSchema.EnvFile
