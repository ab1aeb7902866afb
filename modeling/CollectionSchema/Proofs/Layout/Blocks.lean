import CollectionSchema.Layout
import CollectionSchema.Proofs.Text.Cuts
import CollectionSchema.Text.Blank
import Mathlib.Data.List.Chain

/-!
# Block structure

Python code is structured by its margin: a line that ends with a colon opens a block, and so does a
bracket that stays open at the end of a line. `BlockStructured` says of a text that its margin goes
one unit to the right behind such lines, and nowhere else. `Suite` is a grammar of scripts: rows of
statements, and of headers with suites below them. Laying out a suite gives a text that is block
structured (`Suite.blockStructured`), and the margin never has to be kept from moving left of column
zero (`Suite.neverClamps`).
-/

namespace CollectionSchema.Layout

open Text

/-! ## Texts -/

/-- The lines of a text. The last one is empty if the text ends with a newline. -/
def textLines (text : String) : List (List Char) :=
  pieces (· == '\n') text.toList

def isBlankLine (line : List Char) : Bool :=
  line.all isBlank

/-- The lines of a text that are not blank. -/
def shownLines (text : String) : List (List Char) :=
  (textLines text).filter (!isBlankLine ·)

/-- The blanks in front of a line. -/
def margin (line : List Char) : List Char :=
  line.takeWhile isBlank

def indentation (line : List Char) : Nat :=
  (margin line).length

theorem indentation_of_margin {line : List Char} {n : Nat}
    (h : margin line = List.replicate n ' ') : indentation line = n := by
  rw [indentation, h, List.length_replicate]

/-- Whether a line ends with a colon or with a bracket that it leaves open. -/
def opensBlock (line : List Char) : Bool :=
  line.getLast?.any fun c => c == ':' || c == '['

/-- The second line is deeper than the first one just when that one opens a block, and then by one
unit. -/
structure Follows (line next : List Char) : Prop where
  deeper_iff : indentation line < indentation next ↔ opensBlock line = true
  deeper : opensBlock line = true → indentation next = indentation line + 4

/-- Lines go one unit to the right behind those that open a block, and nowhere else. Blank lines do
not count. -/
structure BlockStructured (text : String) : Prop where
  first : ∃ line, (textLines text).head? = some line ∧ isBlankLine line = false ∧ margin line = []
  units : ∀ line ∈ shownLines text, ∃ n, margin line = List.replicate (4 * n) ' '
  follows : (shownLines text).IsChain Follows
  last : ∀ line, (shownLines text).getLast? = some line → opensBlock line = false

/-- No step of a script that starts at a level moves the margin to the left at level zero. -/
def NeverClamps : Nat → Script → Prop
  | _, [] => True
  | level, .line _ :: rest => NeverClamps level rest
  | level, .indent :: rest => NeverClamps (level + 1) rest
  | level, .dedent :: rest => 0 < level ∧ NeverClamps (level - 1) rest

/-! ## Lines by their parts -/

/-- A text without newlines. -/
structure Plain (text : String) : Prop where
  newline : '\n' ∉ text.toList

/-- The begin of a line: a text without newlines and without a blank in front. -/
structure IsLine (text : String) : Prop where
  plain : Plain text
  begins : text.toList.head?.any (!isBlank ·) = true

/-- The end of a line that opens no block. -/
structure Closing (text : String) : Prop where
  plain : Plain text
  ne_empty : text ≠ ""
  closed : opensBlock text.toList = false

/-- The end of a line that opens a block. -/
structure Opening (text : String) : Prop where
  plain : Plain text
  opens : opensBlock text.toList = true

structure IsStatement (text : String) : Prop extends IsLine text, Closing text

structure IsHeader (text : String) : Prop extends IsLine text, Opening text

section

variable {text start rest : String}

instance : Decidable (Plain text) :=
  decidable_of_iff ('\n' ∉ text.toList) ⟨fun h => ⟨h⟩, fun h => h.newline⟩

/-- Whether there is no newline among the characters. -/
def isPlain (cs : List Char) : Bool :=
  !cs.contains '\n'

section

variable {cs : List Char}

theorem Plain.ofList (h : isPlain cs = true) : Plain (.ofList cs) := by
  refine ⟨?_⟩
  rw [String.toList_ofList]
  simpa [isPlain] using h

theorem IsLine.ofList (h : (isPlain cs && cs.head?.any (!isBlank ·)) = true) :
    IsLine (.ofList cs) := by
  rw [Bool.and_eq_true] at h
  refine ⟨.ofList h.1, ?_⟩
  rw [String.toList_ofList]
  exact h.2

theorem Closing.ofList (h : (isPlain cs && !cs.isEmpty && !opensBlock cs) = true) :
    Closing (.ofList cs) := by
  simp only [Bool.and_eq_true, Bool.not_eq_true', List.isEmpty_eq_false_iff] at h
  obtain ⟨⟨hplain, hne⟩, hcloses⟩ := h
  refine ⟨.ofList hplain, ?_, ?_⟩
  · rwa [ne_eq, ← String.toList_eq_nil_iff, String.toList_ofList]
  · rwa [String.toList_ofList]

theorem Opening.ofList (h : (isPlain cs && opensBlock cs) = true) : Opening (.ofList cs) := by
  rw [Bool.and_eq_true] at h
  refine ⟨.ofList h.1, ?_⟩
  rw [String.toList_ofList]
  exact h.2

theorem IsStatement.ofList
    (h : (isPlain cs && cs.head?.any (!isBlank ·) && !opensBlock cs) = true) :
    IsStatement (.ofList cs) := by
  rw [Bool.and_eq_true] at h
  have hline : IsLine (.ofList cs) := .ofList h.1
  have hplain : isPlain cs = true := (Bool.and_eq_true_iff.1 h.1).1
  have hne : cs.isEmpty = false := by
    cases cs with
    | nil => cases h.1
    | cons c cs => rfl
  have hclosing : Closing (.ofList cs) := .ofList (by rw [hplain, hne]; exact h.2)
  exact ⟨hline, hclosing.ne_empty, hclosing.closed⟩

theorem IsHeader.ofList
    (h : (isPlain cs && cs.head?.any (!isBlank ·) && opensBlock cs) = true) :
    IsHeader (.ofList cs) := by
  rw [Bool.and_eq_true] at h
  refine ⟨.ofList h.1, ?_⟩
  rw [String.toList_ofList]
  exact h.2

end

theorem Plain.append (hstart : Plain start) (hrest : Plain rest) : Plain (start ++ rest) := by
  refine ⟨?_⟩
  rw [String.toList_append, List.mem_append, not_or]
  exact ⟨hstart.newline, hrest.newline⟩

theorem Plain.intercalate {sep : String} (hsep : Plain sep) {texts : List String}
    (h : ∀ text ∈ texts, Plain text) : Plain (sep.intercalate texts) := by
  induction texts with
  | nil => exact @Plain.ofList [] rfl
  | cons text texts ih =>
    rw [List.forall_mem_cons] at h
    cases texts with
    | nil => exact h.1
    | cons next texts =>
      rw [String.intercalate_cons_cons]
      exact (h.1.append hsep).append (ih h.2)

theorem IsLine.append (hstart : IsLine start) (hrest : Plain rest) : IsLine (start ++ rest) := by
  refine ⟨hstart.plain.append hrest, ?_⟩
  have hbegins := hstart.begins
  cases htext : start.toList with
  | nil =>
    rw [htext] at hbegins
    cases hbegins
  | cons c chars =>
    rw [htext] at hbegins
    rwa [String.toList_append, htext]

theorem opensBlock_append (start : String) (hrest : rest ≠ "") :
    opensBlock (start ++ rest).toList = opensBlock rest.toList := by
  have hne : rest.toList ≠ [] := mt String.toList_eq_nil_iff.1 hrest
  rw [opensBlock, opensBlock, String.toList_append, List.getLast?_append_of_ne_nil _ hne]

theorem Opening.ne_empty (h : Opening text) : text ≠ "" := by
  rintro rfl
  exact absurd h.opens (by decide)

theorem Closing.append (hstart : Plain start) (hrest : Closing rest) : Closing (start ++ rest) where
  plain := hstart.append hrest.plain
  ne_empty := by simp [hrest.ne_empty]
  closed := (opensBlock_append start hrest.ne_empty).trans hrest.closed

/-- A line ends as its last part does. -/
theorem IsLine.statement (hstart : IsLine start) (hrest : Closing rest) :
    IsStatement (start ++ rest) :=
  ⟨hstart.append hrest.plain, (hrest.append hstart.plain).ne_empty,
    (hrest.append hstart.plain).closed⟩

theorem IsLine.header (hstart : IsLine start) (hrest : Opening rest) : IsHeader (start ++ rest) :=
  ⟨hstart.append hrest.plain, (opensBlock_append start hrest.ne_empty).trans hrest.opens⟩

end

/-! ## Suites -/

/-- The script begins with a line that is not empty. -/
def Begun (s : Script) : Prop :=
  ∃ text rest, s = .line text :: rest ∧ IsLine text

/-- A script of statements and of headers with indented suites below them. -/
inductive Suite : Script → Prop
  | nil : Suite []
  | blank {s} (hs : Suite s) : Suite (blank :: s)
  | line {text s} (htext : IsStatement text) (hs : Suite s) : Suite (.line text :: s)
  | block {header body} (hheader : IsHeader header) (hbody : Suite body) (hbegun : Begun body) :
    Suite (block header body)
  | append {s t} (hs : Suite s) (ht : Suite t) : Suite (s ++ t)

/-! ## Levels -/

theorem levelAfter_block (level : Nat) (header : String) (body : Script) :
    levelAfter level (block header body) = levelAfter (level + 1) body - 1 :=
  levelAfter_append (level + 1) body [.dedent]

theorem neverClamps_append {level : Nat} {s t : Script} :
    NeverClamps level (s ++ t) ↔ NeverClamps level s ∧ NeverClamps (levelAfter level s) t := by
  induction s generalizing level with
  | nil => simp [NeverClamps, levelAfter]
  | cons step s ih => cases step <;> simp [NeverClamps, levelAfter, ih, and_assoc]

theorem linesFrom_block (level : Nat) (header : String) (body : Script) :
    linesFrom standardIndent level (block header body) =
      atLevel standardIndent level header :: linesFrom standardIndent (level + 1) body := by
  have hlines := linesFrom_append standardIndent (level + 1) body [.dedent]
  rw [linesFrom, linesFrom, List.append_nil] at hlines
  exact congrArg _ hlines

namespace Suite

variable {s : Script}

theorem levelAfter_eq (h : Suite s) (level : Nat) : levelAfter level s = level := by
  induction h generalizing level with
  | nil => rfl
  | blank _ ih => exact ih level
  | line _ _ ih => exact ih level
  | block _ _ _ ih => rw [levelAfter_block, ih, Nat.add_sub_cancel]
  | append _ _ hs ht => rw [levelAfter_append, hs, ht]

theorem neverClamps (h : Suite s) (level : Nat) : NeverClamps level s := by
  induction h generalizing level with
  | nil => trivial
  | blank _ ih => exact ih level
  | line _ _ ih => exact ih level
  | block _ hbody _ ih =>
    -- Behind the header the level is one more, and the body comes back to it.
    refine neverClamps_append.2 ⟨ih (level + 1), ?_⟩
    rw [show levelAfter level _ = levelAfter (level + 1) _ from rfl, hbody.levelAfter_eq]
    exact ⟨Nat.succ_pos level, trivial⟩
  | append hs _ ihs iht =>
    refine neverClamps_append.2 ⟨ihs level, ?_⟩
    rw [hs.levelAfter_eq]
    exact iht level

end Suite

/-! ## Lines at a level -/

/-- The line that a text gives at a level. -/
def lineAt (level : Nat) (text : String) : List Char :=
  List.replicate (4 * level) ' ' ++ text.toList

namespace IsLine

variable {text : String} (h : IsLine text)

include h

theorem exists_cons : ∃ c rest, text.toList = c :: rest ∧ isBlank c = false := by
  have hbegins := h.begins
  cases htext : text.toList with
  | nil =>
    rw [htext] at hbegins
    cases hbegins
  | cons c rest =>
    rw [htext] at hbegins
    exact ⟨c, rest, rfl, by simpa using hbegins⟩

theorem ne_empty : text ≠ "" := by
  obtain ⟨c, rest, htext, -⟩ := h.exists_cons
  rintro rfl
  cases htext

theorem toList_atLevel (level : Nat) :
    (atLevel standardIndent level text).toList = lineAt level text := by
  have hunit : standardIndent.toList = List.replicate 4 ' ' := by decide
  rw [atLevel, if_neg (by simpa using h.ne_empty), String.toList_append, String.toList_join,
    List.flatMap_replicate, hunit, List.flatten_replicate_replicate, Nat.mul_comm, lineAt]

theorem isBlankLine_lineAt (level : Nat) : isBlankLine (lineAt level text) = false := by
  obtain ⟨c, rest, htext, hc⟩ := h.exists_cons
  rw [isBlankLine, lineAt, htext, List.all_eq_false]
  exact ⟨c, by simp, by simp [hc]⟩

theorem margin_lineAt (level : Nat) :
    margin (lineAt level text) = List.replicate (4 * level) ' ' := by
  obtain ⟨c, rest, htext, hc⟩ := h.exists_cons
  have hmargin : ∀ b ∈ List.replicate (4 * level) ' ', isBlank b = true := by
    intro b hb
    rw [List.eq_of_mem_replicate hb]
    rfl
  rw [margin, lineAt, htext, List.takeWhile_append_of_pos hmargin, List.takeWhile_cons, hc]
  simp

theorem indentation_lineAt (level : Nat) : indentation (lineAt level text) = 4 * level :=
  indentation_of_margin (h.margin_lineAt level)

theorem opensBlock_lineAt (level : Nat) :
    opensBlock (lineAt level text) = opensBlock text.toList := by
  obtain ⟨c, rest, htext, -⟩ := h.exists_cons
  rw [opensBlock, opensBlock, lineAt, List.getLast?_append_of_ne_nil _ (by simp [htext])]

theorem plain_atLevel (level : Nat) : Plain (atLevel standardIndent level text) := by
  refine ⟨?_⟩
  rw [h.toList_atLevel, lineAt, List.mem_append, not_or]
  refine ⟨fun hmargin => ?_, h.plain.newline⟩
  exact absurd (List.eq_of_mem_replicate hmargin) (by decide)

end IsLine

/-! ## Laying out suites -/

/-- The lines of a script from a level on that are not blank. -/
def shownFrom (level : Nat) (s : Script) : List (List Char) :=
  ((linesFrom standardIndent level s).map String.toList).filter (!isBlankLine ·)

theorem shownFrom_line {text : String} (h : IsLine text) (level : Nat) (s : Script) :
    shownFrom level (.line text :: s) = lineAt level text :: shownFrom level s := by
  rw [shownFrom, linesFrom, List.map_cons, h.toList_atLevel,
    List.filter_cons_of_pos (by rw [h.isBlankLine_lineAt]; rfl), shownFrom]

theorem shownFrom_block {header : String} (h : IsLine header) (level : Nat) (body : Script) :
    shownFrom level (block header body) = lineAt level header :: shownFrom (level + 1) body := by
  rw [shownFrom, linesFrom_block, List.map_cons, h.toList_atLevel,
    List.filter_cons_of_pos (by rw [h.isBlankLine_lineAt]; rfl), shownFrom]

theorem shownFrom_append (level : Nat) (s t : Script) :
    shownFrom level (s ++ t) = shownFrom level s ++ shownFrom (levelAfter level s) t := by
  rw [shownFrom, linesFrom_append, List.map_append, List.filter_append, shownFrom, shownFrom]

/-- What holds of the lines of a suite at a level. -/
structure Laid (level : Nat) (lines : List (List Char)) : Prop where
  head : ∀ line, lines.head? = some line → indentation line = 4 * level
  deep : ∀ line ∈ lines, ∃ n, level ≤ n ∧ margin line = List.replicate (4 * n) ' '
  follows : lines.IsChain Follows
  last : ∀ line, lines.getLast? = some line → opensBlock line = false

namespace Laid

variable {level : Nat} {lines more : List (List Char)}

theorem nil : Laid level [] := by
  constructor <;> simp

theorem statement {text : String} (h : IsStatement text) : Laid level [lineAt level text] := by
  constructor
  case head => simpa using h.indentation_lineAt level
  case deep => simpa using ⟨level, Nat.le_refl level, h.margin_lineAt level⟩
  case follows => exact .singleton _
  case last => simpa using (h.opensBlock_lineAt level).trans h.closed

/-- What follows a suite at the same level goes back to the level, or stays there. -/
theorem append (h : Laid level lines) (hmore : Laid level more) : Laid level (lines ++ more) := by
  constructor
  case head =>
    intro line hline
    rw [List.head?_append] at hline
    rcases Option.or_eq_some_iff.1 hline with hline | ⟨-, hline⟩
    · exact h.head line hline
    · exact hmore.head line hline
  case deep =>
    intro line hline
    exact (List.mem_append.1 hline).elim (h.deep line) (hmore.deep line)
  case follows =>
    refine h.follows.append hmore.follows fun line hline next hnext => ?_
    obtain ⟨n, hle, hdeep⟩ := h.deep line (List.mem_of_getLast? hline)
    have hdepth := indentation_of_margin hdeep
    have hlevel := hmore.head next hnext
    have hclosed := h.last line hline
    constructor
    · rw [hclosed]
      simp only [Bool.false_eq_true, iff_false]
      omega
    · rw [hclosed]
      intro hopens
      cases hopens
  case last =>
    intro line hline
    rw [List.getLast?_append] at hline
    rcases Option.or_eq_some_iff.1 hline with hline | ⟨-, hline⟩
    · exact hmore.last line hline
    · exact h.last line hline

/-- A suite goes below a header at the next level. -/
theorem block {header : String} (hheader : IsHeader header) (h : Laid (level + 1) lines)
    (hne : lines ≠ []) : Laid level (lineAt level header :: lines) := by
  have hindentation := hheader.indentation_lineAt level
  have hopens := (hheader.opensBlock_lineAt level).trans hheader.opens
  constructor
  case head => simpa using hindentation
  case deep =>
    intro line hline
    rcases List.mem_cons.1 hline with rfl | hline
    · exact ⟨level, Nat.le_refl level, hheader.margin_lineAt level⟩
    · obtain ⟨n, hle, hdeep⟩ := h.deep line hline
      exact ⟨n, Nat.le_of_succ_le hle, hdeep⟩
  case follows =>
    refine h.follows.cons fun next hnext => ?_
    have hlevel := h.head next hnext
    constructor
    · simp only [hopens, iff_true]
      omega
    · intro _
      omega
  case last =>
    intro line hline
    rw [List.getLast?_cons_of_ne_nil hne] at hline
    exact h.last line hline

end Laid

namespace Suite

variable {s : Script}

theorem laid (h : Suite s) (level : Nat) : Laid level (shownFrom level s) := by
  induction h generalizing level with
  | nil => exact .nil
  | blank _ ih => exact ih level
  | line htext _ ih =>
    rw [shownFrom_line htext.toIsLine]
    exact (Laid.statement htext).append (ih level)
  | block hheader _ hbegun ih =>
    obtain ⟨text, rest, rfl, htext⟩ := hbegun
    rw [shownFrom_block hheader.toIsLine]
    refine (ih (level + 1)).block hheader ?_
    rw [shownFrom_line htext]
    exact List.cons_ne_nil _ _
  | append hs _ ihs iht =>
    rw [shownFrom_append, hs.levelAfter_eq]
    exact (ihs level).append (iht level)

theorem plain (h : Suite s) (level : Nat) :
    ∀ line ∈ linesFrom standardIndent level s, Plain line := by
  induction h generalizing level with
  | nil => simp [linesFrom]
  | blank _ ih =>
    rw [Layout.blank, linesFrom, List.forall_mem_cons]
    exact ⟨⟨by simp [atLevel]⟩, ih level⟩
  | line htext _ ih =>
    rw [linesFrom, List.forall_mem_cons]
    exact ⟨htext.plain_atLevel level, ih level⟩
  | block hheader _ _ ih =>
    rw [linesFrom_block, List.forall_mem_cons]
    exact ⟨hheader.plain_atLevel level, ih (level + 1)⟩
  | append _ _ ihs iht =>
    rw [linesFrom_append, List.forall_mem_append]
    exact ⟨ihs level, iht _⟩

end Suite

/-! ## Texts of scripts -/

/-- Lines that each end with a newline are read back, with an empty one behind them. -/
theorem textLines_intercalate {lines : List String} (hne : lines ≠ [])
    (h : ∀ line ∈ lines, Plain line) :
    textLines ("\n".intercalate lines ++ "\n") = lines.map String.toList ++ [[]] := by
  have hcut : CutAt '\n' ("\n".intercalate lines ++ "\n") (lines ++ [""]) := by
    constructor
    case text_eq =>
      have hjoined := String.intercalate_append_of_ne_nil (m := [""]) (s := "\n") hne (by simp)
      rw [String.intercalate_singleton, String.append_empty] at hjoined
      exact hjoined.symm
    case ne_nil => exact List.append_ne_nil_of_left_ne_nil hne _
    case not_mem =>
      rw [List.forall_mem_append]
      exact ⟨fun line hline => (h line hline).newline, by simp⟩
  rw [textLines, hcut.pieces_eq, List.map_append]
  rfl

/-- A suite that begins with a line has a block-structured text. -/
theorem Suite.blockStructured {s : Script} (h : Suite s) (hbegun : Begun s) :
    BlockStructured s.render := by
  obtain ⟨text, rest, hs, htext⟩ := hbegun
  have hlines : linesFrom standardIndent 0 s =
      atLevel standardIndent 0 text :: linesFrom standardIndent 0 rest := by
    rw [hs, linesFrom]
  have hne : linesFrom standardIndent 0 s ≠ [] := by
    rw [hlines]
    exact List.cons_ne_nil _ _
  have htexts := textLines_intercalate hne (h.plain 0)
  rw [← Script.render] at htexts
  have hshown : shownLines s.render = shownFrom 0 s := by
    rw [shownLines, htexts, List.filter_append]
    exact List.append_nil _
  have hlaid := h.laid 0
  constructor
  case first =>
    refine ⟨lineAt 0 text, ?_, htext.isBlankLine_lineAt 0, htext.margin_lineAt 0⟩
    rw [htexts, hlines, List.map_cons, htext.toList_atLevel]
    rfl
  case units =>
    intro line hline
    rw [hshown] at hline
    obtain ⟨n, -, hdeep⟩ := hlaid.deep line hline
    exact ⟨n, hdeep⟩
  case follows =>
    rw [hshown]
    exact hlaid.follows
  case last =>
    rw [hshown]
    exact hlaid.last

end CollectionSchema.Layout
