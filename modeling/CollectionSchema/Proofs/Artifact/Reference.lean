import CollectionSchema.Artifact.Basic
import CollectionSchema.Proofs.Graph.Tree
import CollectionSchema.Proofs.Layout.Definitions

/-!
# What generated references reach

The generated reference to a collection opens it from the store, by the whole path, or from a
document of the parent, by the last segment. `Graph.Reaches` follows these openings up to the store
and puts together the pattern of the collection that is really opened. It is the declared path just
when no fixed document stands behind a wildcard (`reaches_of_builds`).
-/

namespace CollectionSchema

open Layout Survey

/-! ## Openings -/

/-- How a generated constructor opens its collection. -/
inductive Opening where
  /-- From the store, by a path. -/
  | fromStore (path : String)
  /-- From a document of the parent, by a path below it. -/
  | fromParent (path : String)
deriving DecidableEq

namespace Opening

/-- The line of the constructor. -/
def line : Opening → String
  | fromStore path => "super().__init__(firestore.collection(\"" ++ path ++ "\"))"
  | fromParent path => "super().__init__(parent.reference.collection(\"" ++ path ++ "\"))"

theorem line_fromStore (path : String) : (fromStore path).line =
    "super().__init__(firestore.collection(\"" ++ (path ++ "\"))") :=
  String.append_assoc

theorem line_fromParent (path : String) : (fromParent path).line =
    "super().__init__(parent.reference.collection(\"" ++ (path ++ "\"))") :=
  String.append_assoc

theorem line_fromStore_ne (path other : String) :
    (fromStore path).line ≠ (fromParent other).line := by
  have hapart : Apart "super().__init__(firestore.collection(\"" (fromParent other).line :=
    .append (.append (.ofList rfl) _) _
  intro h
  rw [← h, line_fromStore] at hapart
  refine hapart.left ?_
  rw [String.toList_append]
  exact List.prefix_append _ _

theorem line_injective {a b : Opening} (h : a.line = b.line) : a = b := by
  cases a with
  | fromStore path =>
    cases b with
    | fromStore other =>
      rw [line_fromStore, line_fromStore, String.append_right_inj, String.append_left_inj] at h
      rw [h]
    | fromParent other => exact absurd h (line_fromStore_ne path other)
  | fromParent path =>
    cases b with
    | fromStore other => exact absurd h.symm (line_fromStore_ne other path)
    | fromParent other =>
      rw [line_fromParent, line_fromParent, String.append_right_inj, String.append_left_inj] at h
      rw [h]

end Opening

/-- Whether a line calls the constructor of the base class. -/
def isBaseCall (text : String) : Bool :=
  "super".toList.isPrefixOf text.toList

/-- The first line of a script that calls the constructor of the base class. -/
def baseCall? (s : Script) : Option String :=
  s.findSome? fun
    | .line text => if isBaseCall text then some text else none
    | .indent | .dedent => none

/-- The generated reference to a collection opens it in this way. -/
def Placement.Opens (p : Placement) (o : Opening) : Prop :=
  ∃ script, Artifact.collectionReference.script p = .ok script ∧ baseCall? script = some o.line

/-! ### Reading the generated class -/

theorem baseCall?_append (s t : Script) : baseCall? (s ++ t) = (baseCall? s).or (baseCall? t) :=
  List.findSome?_append

theorem baseCall?_line {text : String} (h : Apart "super" text) (s : Script) :
    baseCall? (.line text :: s) = baseCall? s := by
  have hcall : isBaseCall text = false := h.begins_eq_false
  simp [baseCall?, hcall]

theorem baseCall?_blank (s : Script) : baseCall? (blank :: s) = baseCall? s := by
  simp [blank, baseCall?, isBaseCall]

theorem baseCall?_line_of_isBaseCall {text : String} (h : isBaseCall text = true) (s : Script) :
    baseCall? (.line text :: s) = some text := by
  simp [baseCall?, h]

theorem baseCall?_block {header : String} (h : Apart "super" header) (body : Script) :
    baseCall? (block header body) = baseCall? body := by
  have hbody : baseCall? (.indent :: body ++ [.dedent]) = baseCall? body := by
    rw [List.cons_append]
    exact (baseCall?_append body [.dedent]).trans Option.or_none
  rw [block, List.cons_append, baseCall?_line h, hbody]

theorem Opening.isBaseCall_line (o : Opening) : isBaseCall o.line = true := by
  cases o <;> exact begins_append (begins_append (begins_ofList rfl) _) _

namespace Placement

/-- The opening of a collection: without a parent by its path, otherwise by its last segment. -/
def opening? (p : Placement) : Option Opening :=
  match p.parent with
  | none => some (.fromStore p.pathText)
  | some _ => p.collection.path.last?.map .fromParent

theorem baseCall?_referenceConstructor {p : Placement} {o : Opening} (h : p.opening? = some o) :
    ∃ s, Artifact.referenceConstructor p = .ok s ∧ baseCall? s = some o.line := by
  unfold opening? at h
  unfold Artifact.referenceConstructor
  cases hparent : p.parent with
  | none =>
    rw [hparent] at h
    cases h
    refine ⟨_, rfl, ?_⟩
    rw [baseCall?_block (.ofList rfl)]
    exact baseCall?_line_of_isBaseCall (Opening.isBaseCall_line (.fromStore p.pathText)) []
  | some parent =>
    rw [hparent] at h
    obtain ⟨last, hlast, rfl⟩ := Option.map_eq_some_iff.1 h
    simp only [hlast]
    refine ⟨_, rfl, ?_⟩
    have hheader : Apart "super" ("def __init__(self, parent: " ++ parent.documentReferenceName ++
        ") -> None:") := .append (.append (.ofList rfl) _) _
    rw [baseCall?_block hheader, baseCall?_line (.ofList rfl)]
    exact baseCall?_line_of_isBaseCall (Opening.isBaseCall_line (.fromParent last)) []

theorem opens_of_opening? {p : Placement} {o : Opening} (h : p.opening? = some o) : p.Opens o := by
  obtain ⟨constructor, hconstructor, hcall⟩ := baseCall?_referenceConstructor h
  rw [Opens, Artifact.script, Artifact.collectionReferenceClass, hconstructor]
  refine ⟨_, rfl, ?_⟩
  have hheader : Apart "super"
      ("class " ++ p.collectionReferenceName ++ "(" ++ p.queryName ++ "):") :=
    .append (.append (.append (.append (.ofList rfl) _) _) _) _
  have hdoc : Apart "super" ("\"\"\"Reference to the \"" ++ p.pathText ++ "\" collection.\"\"\"") :=
    .append (.append (.ofList rfl) _) _
  have hpath : Apart "super" ("path = \"" ++ p.pathText ++ "\"") :=
    .append (.append (.ofList rfl) _) _
  -- No line in front of the constructor is a call, so the first call is that of the constructor.
  rw [baseCall?_block hheader]
  simp only [baseCall?_append, hcall, baseCall?_blank, baseCall?_line hdoc, baseCall?_line hpath]
  rfl

theorem opens_iff {p : Placement} {o : Opening} : p.Opens o ↔ p.opening? = some o := by
  refine ⟨fun h => ?_, opens_of_opening?⟩
  obtain ⟨script, hscript, hcall⟩ := h
  cases hopening : p.opening? with
  | some other =>
    obtain ⟨_, hsame, hother⟩ := opens_of_opening? hopening
    rw [hscript] at hsame
    cases hsame
    rw [hcall] at hother
    rw [Opening.line_injective (Option.some.inj hother)]
  | none =>
    unfold opening? at hopening
    unfold Artifact.script Artifact.collectionReferenceClass at hscript
    unfold Artifact.referenceConstructor at hscript
    cases hparent : p.parent with
    | none =>
      rw [hparent] at hopening
      cases hopening
    | some parent =>
      rw [hparent] at hopening
      rw [hparent, Option.map_eq_none_iff.1 hopening] at hscript
      cases hscript

end Placement

/-! ## Patterns that are reached -/

/-- The pattern of the collection that a generated reference stands for: the path by which it is
opened from the store, or the pattern of the parent and, behind any of its documents, the path by
which it is opened from there. -/
inductive Graph.Reaches (g : Graph) : Placement → String → Prop
  | fromStore {p : Placement} {path : String} (opens : p.Opens (.fromStore path)) : g.Reaches p path
  | fromParent {p q : Placement} {owner : NamedCollection} {path pattern : String}
    (opens : p.Opens (.fromParent path)) (parent : p.parent = some owner)
    (place : g.get? owner.pathText = some q) (above : g.Reaches q pattern) :
    g.Reaches p (pattern ++ "/*/" ++ path)

theorem Graph.reaches_of_parent_eq_none {g : Graph} {p : Placement} (h : p.parent = none)
    (pattern : String) : g.Reaches p pattern ↔ pattern = p.pathText := by
  have hopening : p.opening? = some (.fromStore p.pathText) := by
    rw [Placement.opening?, h]
  constructor
  · rintro (⟨opens⟩ | ⟨-, parent, -, -⟩)
    · rw [Placement.opens_iff, hopening] at opens
      cases opens
      rfl
    · rw [h] at parent
      cases parent
  · rintro rfl
    exact .fromStore (Placement.opens_iff.2 hopening)

theorem Graph.reaches_of_parent_eq_some {g : Graph} {p q : Placement} {last : String}
    (hparent : p.parent = some q.toNamedCollection) (hget : g.get? q.pathText = some q)
    (hlast : p.collection.path.last? = some last) {above : String}
    (habove : ∀ pattern, g.Reaches q pattern ↔ pattern = above) (pattern : String) :
    g.Reaches p pattern ↔ pattern = above ++ "/*/" ++ last := by
  have hopening : p.opening? = some (.fromParent last) := by
    rw [Placement.opening?, hparent, hlast, Option.map_some]
  constructor
  · rintro (⟨opens⟩ | ⟨opens, parent, place, reaches⟩)
    · rw [Placement.opens_iff, hopening] at opens
      cases opens
    · rw [Placement.opens_iff, hopening] at opens
      cases opens
      rw [hparent] at parent
      cases parent
      rw [hget] at place
      cases place
      rw [(habove _).1 reaches]
  · rintro rfl
    exact .fromParent (Placement.opens_iff.2 hopening) hparent hget ((habove _).2 rfl)

namespace Sound

variable {ds : List Declaration}

/-- Each collection reaches one pattern, by induction on the number of collections above it. The
pattern is never longer than the path, so that what was left out above is not made up for below. -/
theorem exists_reached (h : Sound ds) (n : Nat) {k : Kept} (hk : k ∈ kept ds)
    (hn : k.collection.path.depth = n) :
    ∃ pattern, (∀ text, (graphOf ds).Reaches (placedAmong (kept ds) k) text ↔ text = pattern) ∧
      pattern.toList.length ≤ k.collection.path.raw.toList.length ∧
      (pattern = k.collection.path.raw ↔ k.collection.path.AlternatesBelow) := by
  have hwell := wellFormed_of_mem_kept hk
  -- The induction is on the depth, and the bound on the length carries it: a pattern that is too
  -- short for its path stays too short below, so a name left out above is never made up for.
  induction n generalizing k with
  | zero =>
    have hnested := Path.depth_eq_zero.1 hn
    refine ⟨k.collection.path.raw, fun text => ?_, Nat.le_refl _,
      iff_of_true rfl (Path.alternatesBelow_of_not_nested hnested)⟩
    exact Graph.reaches_of_parent_eq_none ((h.parent_placedAmong_eq_none hk).2 hnested) text
  | succ n ih =>
    have hnested : k.collection.path.isNested = true := by
      rw [← Bool.not_eq_false, ← Path.depth_eq_zero, hn]
      exact Nat.succ_ne_zero n
    obtain ⟨path, q, hmem, -, hget, hparent, rest, howned⟩ := h.exists_parent hk hnested
    have hdepth := howned.depth
    have hbelow : q.collection.path.depth = n := by omega
    obtain ⟨above, habove, hlength, halt⟩ := ih hmem hbelow (wellFormed_of_mem_kept hmem)
    obtain ⟨last, hlast⟩ := hwell.exists_last?
    have hpath : (placedAmong (kept ds) q).pathText = path := (get?_graphOf_eq_some.1 hget).2
    obtain ⟨hshort, hraw⟩ := howned.append_last_eq_raw_iff hwell hlast hlength
    refine ⟨above ++ "/*/" ++ last, fun text => ?_, hshort, ?_⟩
    · exact Graph.reaches_of_parent_eq_some hparent (hpath ▸ hget) hlast habove text
    · rw [hraw, halt, howned.alternatesBelow_iff hwell]

theorem reaches_pathText_iff (h : Sound ds) {k : Kept} (hk : k ∈ kept ds) :
    (graphOf ds).Reaches (placedAmong (kept ds) k) (placedAmong (kept ds) k).pathText ↔
      k.collection.path.AlternatesBelow := by
  obtain ⟨pattern, hpattern, -, hraw⟩ := h.exists_reached _ hk rfl
  rw [hpattern, ← hraw, eq_comm]
  rfl

theorem pathText_eq_iff {k q : Kept} {path last : String} {rest : List Segment}
    (hk : k ∈ kept ds) (hq : q.collection.pathText = path)
    (howned : k.collection.path.OwnedBy q.collection.path rest)
    (hlast : k.collection.path.last? = some last) :
    k.collection.pathText = path ++ "/*/" ++ last ↔ rest.length = 1 := by
  have hraw := (howned.append_last_eq_raw_iff (wellFormed_of_mem_kept hk) hlast (Nat.le_refl _)).2
  rw [← hq, Collection.pathText, Collection.pathText, eq_comm, hraw, and_iff_right rfl]

/-- No path has a fixed document behind a wildcard just when every nested path is its parent path,
any document, and its last segment. -/
theorem forall_alternatesBelow_iff (h : Sound ds) :
    (∀ k ∈ kept ds, k.collection.path.AlternatesBelow) ↔
      ∀ k ∈ kept ds, ∀ path last, k.collection.path.parent? = some path →
        k.collection.path.last? = some last → k.collection.pathText = path ++ "/*/" ++ last := by
  constructor
  · intro halt k hk path last hparent hlast
    obtain ⟨q, -, hat, rest, howned⟩ := h.exists_ownedBy hk hparent
    rw [pathText_eq_iff hk (atPath?_eq_some.1 hat).2 howned hlast]
    exact ((howned.alternatesBelow_iff (wellFormed_of_mem_kept hk)).1 (halt k hk)).2
  · intro hpaths k hk
    induction hn : k.collection.path.depth generalizing k with
    | zero => exact Path.alternatesBelow_of_not_nested (Path.depth_eq_zero.1 hn)
    | succ n ih =>
      have hwell := wellFormed_of_mem_kept hk
      have hnested : k.collection.path.isNested = true := by
        rw [← Bool.not_eq_false, ← Path.depth_eq_zero, hn]
        exact Nat.succ_ne_zero n
      obtain ⟨path, q, hmem, hparent, hget, -, rest, howned⟩ := h.exists_parent hk hnested
      obtain ⟨last, hlast⟩ := hwell.exists_last?
      have hpath : q.collection.pathText = path := (get?_graphOf_eq_some.1 hget).2
      have hdepth := howned.depth
      rw [howned.alternatesBelow_iff hwell]
      exact ⟨ih q hmem (by omega),
        (pathText_eq_iff hk hpath howned hlast).1 (hpaths k hk path last hparent hlast)⟩

end Sound

/-- The reference that is generated for a collection reaches exactly one pattern. This is the
declared path just when no fixed document stands behind a wildcard of the path. So all references
reach their paths just when every nested path is its parent path, any document, and its last
segment. -/
theorem reaches_of_builds {mode : Mode} {ds : List Declaration} {g : Graph} (h : Builds mode ds g) :
    (∀ p ∈ g.placements, ∃ pattern, (∀ text, g.Reaches p text ↔ text = pattern) ∧
      (pattern = p.pathText ↔ p.collection.path.AlternatesBelow)) ∧
    ((∀ p ∈ g.placements, g.Reaches p p.pathText) ↔
      ∀ p ∈ g.placements, ∀ path last, p.collection.path.parent? = some path →
        p.collection.path.last? = some last → p.pathText = path ++ "/*/" ++ last) := by
  obtain rfl := h.eq_graphOf
  have hall := h.sound.forall_alternatesBelow_iff
  have hreached := fun k hk => h.sound.reaches_pathText_iff (k := k) hk
  simp only [placements_graphOf, List.forall_mem_map]
  refine ⟨fun k hk => ?_, ?_⟩
  · obtain ⟨pattern, hpattern, -, hraw⟩ := h.sound.exists_reached _ hk rfl
    exact ⟨pattern, hpattern, hraw⟩
  · exact (forall₂_congr hreached).trans hall

/-- A collection under a fixed document, which lies under any document of another collection. -/
def fixedBelow : List Declaration :=
  [.plain "a" "Root", .plain "a/*/b/c/d" "Leaf"]

theorem builds_fixedBelow : Builds .collecting fixedBelow (graphOf fixedBelow) :=
  builds_iff.2 ⟨by decide +kernel, rfl⟩

theorem reaches_fixedBelow :
    Builds .collecting fixedBelow (graphOf fixedBelow) ∧
      ∀ p ∈ (graphOf fixedBelow).placements, ∃ pattern,
        (∀ text, (graphOf fixedBelow).Reaches p text ↔ text = pattern) ∧
        (pattern = p.pathText ↔ p.collection.path.AlternatesBelow) :=
  ⟨builds_fixedBelow, (reaches_of_builds builds_fixedBelow).1⟩

/-- The name and the fixed document in between are left out. -/
theorem fixedBelow_not_reached :
    Builds .collecting fixedBelow (graphOf fixedBelow) ∧
      ∃ p ∈ (graphOf fixedBelow).placements, p.pathText = "a/*/b/c/d" ∧
        (graphOf fixedBelow).Reaches p "a/*/d" ∧ ¬(graphOf fixedBelow).Reaches p p.pathText := by
  have hsound := builds_fixedBelow.sound
  obtain ⟨k, hk, hyields⟩ := hsound.exists_kept (d := .plain "a/*/b/c/d" "Leaf")
    (List.mem_cons_of_mem _ List.mem_cons_self)
  have hpath : k.collection.path = ⟨"a/*/b/c/d", [⟨"a", .literal⟩, ⟨"*", .wildcard⟩,
      ⟨"b", .literal⟩, ⟨"c", .literal⟩, ⟨"d", .literal⟩]⟩ :=
    Except.ok.inj (hyields.passes.path.symm.trans
      (Except.toOption_eq_some.1 (by decide +kernel)))
  obtain ⟨above, q, hq, habove, hget, hparent, -⟩ := hsound.exists_parent hk (by rw [hpath]; decide)
  have htext : (placedAmong (kept fixedBelow) q).pathText = above := (get?_graphOf_eq_some.1 hget).2
  obtain rfl : "a" = above := by
    rw [Path.parent?, hpath] at habove
    exact Option.some.inj ((by decide +kernel : some "a" = parentPathOf? _).trans habove)
  have hroot : (placedAmong (kept fixedBelow) q).parent = none := by
    have hraw : q.collection.path.raw = "a" := htext
    rw [hsound.parent_placedAmong_eq_none hq, ← (wellFormed_of_mem_kept hq).parent?_eq_none,
      Path.parent?, hraw]
    decide +kernel
  have hlast : k.collection.path.last? = some "d" := by
    rw [hpath]
    decide +kernel
  refine ⟨builds_fixedBelow, _, mem_placements.2 ⟨k, hk, rfl⟩, hyields.pathText_eq, ?_, ?_⟩
  · rw [Graph.reaches_of_parent_eq_some hparent (htext ▸ hget) hlast
      (Graph.reaches_of_parent_eq_none hroot), htext]
    decide +kernel
  · rw [hsound.reaches_pathText_iff hk, hpath]
    intro halt
    exact absurd (halt 1 3 _ _ (by decide) rfl rfl rfl rfl) (by decide)

end CollectionSchema
