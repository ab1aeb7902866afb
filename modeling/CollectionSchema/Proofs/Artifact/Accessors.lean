import CollectionSchema.Proofs.Artifact.Reordering
import CollectionSchema.Proofs.Declaration.Names

/-!
# Accessors on document references

The accessors to the children of a collection are assigned to its document reference class, each
under the name of the child. `Layout.statements` reads the assignments off the generated text and
`Layout.members` reads the members that the class has already. Nothing compares these names, so an
accessor may take the place of another one or of a member; `accessors_of_builds` says for which
declarations this does not happen.
-/

namespace CollectionSchema

open Layout Survey

/-! ## Reading scripts -/

namespace Layout

/-- The lines of a script at the left margin, without the empty ones. -/
def marginLines : Nat → Script → List String
  | _, [] => []
  | level, .line text :: rest =>
    if level = 0 ∧ text ≠ "" then text :: marginLines level rest else marginLines level rest
  | level, .indent :: rest => marginLines (level + 1) rest
  | level, .dedent :: rest => marginLines (level - 1) rest

/-- Whether a block follows a line. -/
def isHeader (text : String) : Bool :=
  text.toList.getLast? = some ':'

/-- The statements of a script at the left margin. -/
def statements (s : Script) : List String :=
  (marginLines 0 s).filter (!isHeader ·)

/-- The member that a line of a class gives to its objects: a method or a property by its header, or
an attribute by its assignment. -/
def member? (line : String) : Option String :=
  match line.toList.dropPrefix? "def ".toList, line.toList.dropPrefix? "self.".toList with
  | some cs, _ => some (.ofList (cs.takeWhile (· ≠ '(')))
  | none, some cs =>
    if " = ".toList.isPrefixOf (cs.dropWhile (· ≠ ' ')) then
      some (.ofList (cs.takeWhile (· ≠ ' ')))
    else none
  | none, none => none

/-- The members that a script of a class gives to its objects. -/
def members (s : Script) : List String :=
  s.filterMap fun
    | .line text => member? text
    | .indent | .dedent => none

theorem marginLines_append (level : Nat) (s t : Script) :
    marginLines level (s ++ t) = marginLines level s ++ marginLines (levelAfter level s) t := by
  induction s generalizing level with
  | nil => rfl
  | cons step s ih =>
    cases step with
    | line text =>
      simp only [List.cons_append, marginLines, levelAfter, ih]
      split <;> rfl
    | indent => exact ih _
    | dedent => exact ih _

theorem Script.Piece.statements_append {s : Script} (hs : s.Piece) (t : Script) :
    statements (s ++ t) = statements s ++ statements t := by
  rw [statements, marginLines_append, hs.level, List.filter_append]
  rfl

/-- Whether a line is a header is seen from its last character. -/
theorem isHeader_append (start : String) {c : Char} {cs : List Char} :
    isHeader (start ++ .ofList (c :: cs)) = decide ((c :: cs).getLast? = some ':') := by
  rw [isHeader, String.toList_append, String.toList_ofList,
    List.getLast?_append_of_ne_nil _ (List.cons_ne_nil c cs)]

theorem members_append (s t : Script) : members (s ++ t) = members s ++ members t :=
  List.filterMap_append

theorem members_line (text : String) (s : Script) :
    members (.line text :: s) = (member? text).toList ++ members s := by
  cases h : member? text <;> simp [members, h]

theorem members_block (header : String) (body : Script) :
    members (block header body) = (member? header).toList ++ members body := by
  have hbody : members (.indent :: body ++ [.dedent]) = members body := by
    rw [List.cons_append]
    exact (members_append body [.dedent]).trans (List.append_nil _)
  rw [block, List.cons_append, members_line, hbody]

end Layout

/-! ## The generated statements and members -/

namespace Artifact

/-- The function behind the accessor to a child. -/
def getter (owner : String) (child : NamedCollection) : String :=
  "_" ++ Text.camelCase owner ++ "_" ++ child.collection.name

/-- The statement that assigns the accessor to a child. -/
def assignment (owner : String) (child : NamedCollection) : String :=
  owner ++ "." ++ child.collection.name ++ " = property(" ++ getter owner child ++ ")"

theorem statements_accessor (owner : String) (child : NamedCollection) :
    statements (accessor owner child) = [assignment owner child] := by
  have hassignment : isHeader (assignment owner child) = false :=
    (isHeader_append _).trans rfl
  have hheader : ∀ start : String, isHeader (start ++ ":") = true := fun start =>
    (isHeader_append start).trans rfl
  have hlines : ∃ start : String, marginLines 0 (accessor owner child) =
      [start ++ ":", assignment owner child] := by
    refine ⟨"def " ++ getter owner child ++ "(self) -> " ++ child.collectionReferenceName, ?_⟩
    simp [accessor, block, blank, marginLines, assignment, getter]
  obtain ⟨start, hlines⟩ := hlines
  simp [statements, hlines, hheader, hassignment]

theorem statements_spaced {ss : List Script} (h : ∀ s ∈ ss, s.Piece) :
    statements (spaced ss) = ss.flatMap statements := by
  induction ss with
  | nil => rfl
  | cons s ss ih =>
    rw [List.forall_mem_cons] at h
    cases ss with
    | nil => simp [spaced]
    | cons t ss =>
      have hblank : statements ([blank, blank] ++ spaced (t :: ss)) =
          statements (spaced (t :: ss)) := rfl
      rw [spaced, List.append_assoc, h.1.statements_append, hblank, ih h.2]
      rfl

/-- The only statements of the accessors are the assignments, one for each child. -/
theorem statements_accessors (p : Placement) :
    statements (accessors p) = p.children.map (assignment p.documentReferenceName) := by
  have hpieces : ∀ s ∈ p.children.map (accessor p.documentReferenceName), s.Piece := by
    rw [List.forall_mem_map]
    exact fun child _ => accessor_piece _ child
  rw [accessors, statements_spaced hpieces, List.flatMap_map, List.map_eq_flatMap]
  simp only [statements_accessor]

/-- The members of document references, of which only the last one needs query fields. -/
def documentReferenceMembers (p : Placement) : List String :=
  ["__init__", "reference", "collection", "id", "get", "set", "delete"]
    ++ if p.collection.queryFields.isEmpty then [] else ["update"]

theorem members_updateMethod (fields : List QueryField) :
    members (updateMethod fields) = if fields.isEmpty then [] else ["update"] := by
  have hsteps : members (fields.flatMap fun f => block ("if " ++ f.name ++ " is not _sentinel:")
      [.line ("data[\"" ++ f.name ++ "\"] = " ++ f.name)]) = [] := by
    induction fields with
    | nil => rfl
    | cons f fields ih =>
      rw [List.flatMap_cons, members_append, ih, members_block, members_line]
      simp [members, member?, List.dropPrefix?]
  cases fields with
  | nil => rfl
  | cons f fields =>
    rw [updateMethod, List.isEmpty_cons, if_neg Bool.false_ne_true, blank, members_line,
      members_block, members_append, members_line, hsteps]
    simp [members, member?, List.dropPrefix?]

theorem members_documentReferenceClass (p : Placement) :
    members (documentReferenceClass p) = documentReferenceMembers p := by
  simp only [documentReferenceClass, members_block, members_append, members_updateMethod]
  simp [members, member?, List.dropPrefix?, blank, documentReferenceMembers]

end Artifact

/-! ## Accessors in a graph -/

/-- The accessors to the children overwrite nothing: they have different names, and none has the
name of a member of the class that they are assigned to. -/
structure Placement.AccessorsApart (p : Placement) : Prop where
  nodup : (p.children.map (·.collection.name)).Nodup
  not_member : ∀ child ∈ p.children,
    child.collection.name ∉ members (Artifact.documentReferenceClass p)

namespace Sound

variable {ds : List Declaration} {p : Placement}

theorem names_children_of_mem (h : Sound ds) (hp : p ∈ (graphOf ds).placements) :
    p.children.map (·.collection.name) = (declaredBelow ds p.pathText).map (·.shownName) := by
  obtain ⟨k, -, rfl⟩ := mem_placements.1 hp
  exact h.names_children k

theorem accessorsApart_iff (h : Sound ds) (hp : p ∈ (graphOf ds).placements) :
    p.AccessorsApart ↔ ((declaredBelow ds p.pathText).map (·.shownName)).Nodup ∧
      ∀ d ∈ declaredBelow ds p.pathText, d.shownName ∉ Artifact.documentReferenceMembers p := by
  have hnames := h.names_children_of_mem hp
  have hmembers : (∀ child ∈ p.children,
      child.collection.name ∉ members (Artifact.documentReferenceClass p)) ↔
        ∀ d ∈ declaredBelow ds p.pathText, d.shownName ∉ Artifact.documentReferenceMembers p := by
    rw [← List.forall_mem_map (P := (· ∉ members (Artifact.documentReferenceClass p))), hnames,
      List.forall_mem_map, Artifact.members_documentReferenceClass]
  constructor
  · intro hapart
    exact ⟨hnames ▸ hapart.nodup, hmembers.1 hapart.not_member⟩
  · rintro ⟨hnodup, hnot⟩
    exact ⟨hnames ▸ hnodup, hmembers.2 hnot⟩

/-- A path that ends in the name of its collection is known by this name among the paths below its
parent path. -/
theorem nodup_shownName (h : Sound ds) {path : String}
    (hpaths : ∀ d ∈ declaredBelow ds path, d.path = path ++ "/*/" ++ d.shownName) :
    ((declaredBelow ds path).map (·.shownName)).Nodup := by
  have hnodup : ((declaredBelow ds path).map (·.path)).Nodup :=
    h.nodup.sublist (List.filter_sublist.map _)
  have hmap : (declaredBelow ds path).map (·.path) =
      ((declaredBelow ds path).map (·.shownName)).map (path ++ "/*/" ++ ·) := by
    rw [List.map_map]
    exact List.map_congr_left hpaths
  exact (hmap ▸ hnodup).of_map _

end Sound

/-- The accessors to the children of a collection are assigned one after the other to the document
reference class, which has seven members and, for a collection with query fields, one for updates.
Nothing is overwritten just when the collections below are declared under different names, which are
different from those of the members. The names are different if every path ends in its name. -/
theorem accessors_of_builds {mode : Mode} {ds : List Declaration} {g : Graph}
    (h : Builds mode ds g) : ∀ p ∈ g.placements,
      statements (Artifact.accessors p) =
        p.children.map (Artifact.assignment p.documentReferenceName) ∧
      members (Artifact.documentReferenceClass p) = Artifact.documentReferenceMembers p ∧
      (p.AccessorsApart ↔ ((declaredBelow ds p.pathText).map (·.shownName)).Nodup ∧
        ∀ d ∈ declaredBelow ds p.pathText, d.shownName ∉ Artifact.documentReferenceMembers p) ∧
      ((∀ d ∈ declaredBelow ds p.pathText, d.path = p.pathText ++ "/*/" ++ d.shownName) →
        ((declaredBelow ds p.pathText).map (·.shownName)).Nodup) := by
  obtain rfl := h.eq_graphOf
  exact fun p hp => ⟨Artifact.statements_accessors p, Artifact.members_documentReferenceClass p,
    h.sound.accessorsApart_iff hp, h.sound.nodup_shownName⟩

/-- Two collections below another one whose names differ in a separator only, and one that is called
like a method. -/
def namesakes : List Declaration :=
  [.plain "a" "Top", .plain "a/*/b-c" "Left", .plain "a/*/b_c" "Right", .plain "a/*/get" "Lookup"]

theorem builds_namesakes : Builds .collecting namesakes (graphOf namesakes) :=
  builds_iff.2 ⟨by decide +kernel, rfl⟩

theorem accessors_namesakes :
    Builds .collecting namesakes (graphOf namesakes) ∧ ∀ p ∈ (graphOf namesakes).placements,
      (p.AccessorsApart ↔ ((declaredBelow namesakes p.pathText).map (·.shownName)).Nodup ∧
        ∀ d ∈ declaredBelow namesakes p.pathText,
          d.shownName ∉ Artifact.documentReferenceMembers p) :=
  ⟨builds_namesakes, fun p hp => (accessors_of_builds builds_namesakes p hp).2.2.1⟩

/-- Both collections have one name, so the second accessor replaces the first one, and the third one
replaces the method. -/
theorem namesakes_not_apart :
    Builds .collecting namesakes (graphOf namesakes) ∧
      ∃ p ∈ (graphOf namesakes).placements, p.pathText = "a" ∧
        p.children.map (·.collection.name) = ["bC", "bC", "get"] ∧
        "get" ∈ members (Artifact.documentReferenceClass p) ∧ ¬p.AccessorsApart := by
  have hnames : (graphOf namesakes).placements.map (fun p =>
      (p.pathText, p.children.map (·.collection.name))) =
        [("a", ["bC", "bC", "get"]), ("a/*/b-c", []), ("a/*/b_c", []), ("a/*/get", [])] := by
    decide +kernel
  obtain ⟨p, hp, hplace⟩ := List.mem_map.1 (hnames ▸ List.mem_cons_self)
  rw [Prod.mk.injEq] at hplace
  refine ⟨builds_namesakes, p, hp, hplace.1, hplace.2, ?_, fun hapart => ?_⟩
  · rw [Artifact.members_documentReferenceClass, Artifact.documentReferenceMembers]
    simp
  · have hnodup := hapart.nodup
    rw [hplace.2] at hnodup
    simp at hnodup

end CollectionSchema
