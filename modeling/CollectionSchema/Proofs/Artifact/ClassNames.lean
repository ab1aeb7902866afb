import CollectionSchema.Artifact.Basic
import CollectionSchema.Proofs.Graph.Tree

/-!
# Names of generated classes

Six of the artifacts define a class, which is called after the class name of the collection and ends
in a suffix of the artifact's own (`Artifact.definesOwnClass`). Class names of collections are
different, but one suffix ends in another one. So two generated classes have the same name just when
a class name of one collection continues that of another by `Query` (`classNames_of_builds`).
-/

namespace CollectionSchema

open Layout Survey

namespace Artifact

/-- How the class of an artifact is called behind the class name of the collection; accessors define
no class. -/
def suffix? : Artifact → Option String
  | .query => some "Query"
  | .querySnapshot => some "QuerySnapshot"
  | .queryDocumentSnapshot => some "QueryDocumentSnapshot"
  | .documentSnapshot => some "DocumentSnapshot"
  | .documentReference => some "DocumentReference"
  | .collectionReference => some "CollectionReference"
  | .subcollectionAccessors => none

/-- The class that an artifact defines for a collection. -/
def className? (a : Artifact) (c : NamedCollection) : Option String :=
  a.suffix?.map (c.className ++ ·)

/-- A script begins with the definition of a class of this name, with or without a base class. -/
def DefinesClass (s : Script) (name : String) : Prop :=
  ∃ tail body, s = .line ("class " ++ name ++ tail) :: body ∧
    (tail = ":" ∨ ∃ base, tail = "(" ++ base ++ "):")

/-! ## The generated classes -/

/-- The artifact is generated for a collection, and its script begins with the class that the
artifact defines. -/
def DefinesOwnClass (a : Artifact) (p : Placement) : Prop :=
  ∃ s, a.script p = .ok s ∧
    ∀ name, a.className? p.toNamedCollection = some name → DefinesClass s name

theorem definesOwnClass_of_header {a : Artifact} {p : Placement} {suffix tail header : String}
    {body : Script} (hscript : a.script p = .ok (block header body))
    (hsuffix : a.suffix? = some suffix)
    (hheader : header = "class " ++ (p.className ++ suffix) ++ tail)
    (htail : tail = ":" ∨ ∃ base, tail = "(" ++ base ++ "):") : a.DefinesOwnClass p := by
  refine ⟨_, hscript, fun name hname => ⟨tail, .indent :: body ++ [.dedent], ?_, htail⟩⟩
  rw [className?, hsuffix, Option.map_some, Option.some.injEq] at hname
  rw [← hname, block, List.cons_append, hheader]

theorem Except.exists_mapM {ε α β : Type} {f : α → Except ε β} {l : List α}
    (h : ∀ a ∈ l, ∃ b, f a = .ok b) : ∃ bs, l.mapM f = .ok bs := by
  induction l with
  | nil => exact ⟨[], rfl⟩
  | cons a l ih =>
    obtain ⟨b, hb⟩ := h a List.mem_cons_self
    obtain ⟨bs, hbs⟩ := ih fun c hc => h c (List.mem_cons_of_mem a hc)
    exact ⟨b :: bs, by rw [List.mapM_cons, hb, hbs]; rfl⟩

theorem exists_fieldMethods {f : QueryField} (h : f.type.isQueryable = true) (query : String) :
    ∃ methods, fieldMethods query f = .ok methods := by
  unfold fieldMethods fieldFilter
  by_cases hlist : f.type.kind = .list
  · rw [if_pos hlist]
    cases harguments : f.type.arguments with
    | nil =>
      simp [ValueType.isQueryable, ValueType.isPrimitive, TypeKind.isPrimitive, hlist, harguments]
        at h
    | cons element rest => exact ⟨_, rfl⟩
  · rw [if_neg hlist]
    exact ⟨_, rfl⟩

theorem exists_referenceConstructor {p : Placement} (h : p.collection.path.WellFormed) :
    ∃ s, referenceConstructor p = .ok s := by
  obtain ⟨last, hlast⟩ := h.exists_last?
  rw [referenceConstructor, hlast]
  cases p.parent <;> exact ⟨_, rfl⟩

/-- Collection references are made from the queries of the collection. -/
theorem exists_script_collectionReference {p : Placement} (h : p.collection.path.WellFormed) :
    ∃ body, script .collectionReference p =
      .ok (block ("class " ++ p.collectionReferenceName ++ "(" ++ p.queryName ++ "):") body) := by
  obtain ⟨constructor, hconstructor⟩ := exists_referenceConstructor h
  rw [script, collectionReferenceClass, hconstructor]
  exact ⟨_, rfl⟩

theorem definesOwnClass {p : Placement}
    (hfields : ∀ f ∈ p.collection.queryFields, f.type.isQueryable)
    (hpath : p.collection.path.WellFormed) (a : Artifact) : a.DefinesOwnClass p := by
  cases a with
  | query =>
    obtain ⟨methods, hmethods⟩ := Except.exists_mapM fun f hf =>
      exists_fieldMethods (hfields f hf) p.queryName
    have hscript : ∃ body, script .query p = .ok (block ("class " ++ p.queryName ++ ":") body) := by
      rw [script, queryClass, hmethods]
      exact ⟨_, rfl⟩
    obtain ⟨body, hscript⟩ := hscript
    exact definesOwnClass_of_header hscript rfl rfl (.inl rfl)
  | querySnapshot => exact definesOwnClass_of_header rfl rfl rfl (.inl rfl)
  | queryDocumentSnapshot => exact definesOwnClass_of_header rfl rfl rfl (.inl rfl)
  | documentSnapshot => exact definesOwnClass_of_header rfl rfl rfl (.inl rfl)
  | documentReference => exact definesOwnClass_of_header rfl rfl rfl (.inl rfl)
  | collectionReference =>
    obtain ⟨body, hscript⟩ := exists_script_collectionReference hpath
    refine definesOwnClass_of_header hscript rfl ?_ (.inr ⟨p.queryName, rfl⟩)
    simp only [NamedCollection.collectionReferenceName, String.append_assoc]
  | subcollectionAccessors =>
    refine ⟨_, rfl, fun name hname => ?_⟩
    cases hname

/-! ## Equal names -/

/-- No suffix ends in another one, but for that of the documents in query results. -/
theorem eq_or_of_suffix : ∀ a ∈ (Vocabulary.members : List Artifact),
    ∀ b ∈ (Vocabulary.members : List Artifact), ∀ s ∈ a.suffix?, ∀ t ∈ b.suffix?,
      t.toList <:+ s.toList → a = b ∨ (a = .queryDocumentSnapshot ∧ b = .documentSnapshot) := by
  decide

theorem className_eq_of_suffix {a b : Artifact} {c d : NamedCollection} {s t : String}
    (hs : a.suffix? = some s) (ht : b.suffix? = some t) (hsuffix : t.toList <:+ s.toList)
    (h : c.className ++ s = d.className ++ t) :
    (a = b ∧ c.className = d.className) ∨
      (a = .queryDocumentSnapshot ∧ b = .documentSnapshot ∧
        d.className = c.className ++ "Query") := by
  rcases eq_or_of_suffix a (Vocabulary.mem_members a) b (Vocabulary.mem_members b) s hs t ht hsuffix
    with rfl | ⟨rfl, rfl⟩
  · rw [hs, Option.some.injEq] at ht
    rw [ht, String.append_left_inj] at h
    exact .inl ⟨rfl, h⟩
  · cases hs
    cases ht
    have hquery : "QueryDocumentSnapshot" = "Query" ++ "DocumentSnapshot" := rfl
    rw [hquery, ← String.append_assoc, String.append_left_inj] at h
    exact .inr ⟨rfl, rfl, h.symm⟩

/-- Two classes have the same name only if they are the same class of the same class name, or if one
class name continues the other by `Query`. -/
theorem className?_eq {a b : Artifact} {c d : NamedCollection} {name : String}
    (ha : a.className? c = some name) (hb : b.className? d = some name) :
    (a = b ∧ c.className = d.className) ∨
      d.className = c.className ++ "Query" ∨ c.className = d.className ++ "Query" := by
  obtain ⟨s, hs, rfl⟩ := Option.map_eq_some_iff.1 ha
  obtain ⟨t, ht, h⟩ := Option.map_eq_some_iff.1 hb
  have hs' : s.toList <:+ (c.className ++ s).toList := by
    rw [String.toList_append]
    exact List.suffix_append _ _
  have ht' : t.toList <:+ (c.className ++ s).toList := by
    rw [← h, String.toList_append]
    exact List.suffix_append _ _
  rcases List.suffix_or_suffix_of_suffix ht' hs' with hsuffix | hsuffix
  · rcases className_eq_of_suffix hs ht hsuffix h.symm with hsame | ⟨-, -, hquery⟩
    · exact .inl hsame
    · exact .inr (.inl hquery)
  · rcases className_eq_of_suffix ht hs hsuffix h with ⟨rfl, hsame⟩ | ⟨-, -, hquery⟩
    · exact .inl ⟨rfl, hsame.symm⟩
    · exact .inr (.inr hquery)

end Artifact

/-! ## Names in a graph -/

/-- All suffixes of class names. -/
def classSuffixes : List String :=
  (Vocabulary.members : List Artifact).filterMap Artifact.suffix?

theorem mem_classSuffixes {suffix : String} :
    suffix ∈ classSuffixes ↔ ∃ a : Artifact, a.suffix? = some suffix := by
  rw [classSuffixes, List.mem_filterMap]
  exact ⟨fun ⟨a, _, ha⟩ => ⟨a, ha⟩, fun ⟨a, ha⟩ => ⟨a, Vocabulary.mem_members a, ha⟩⟩

namespace Graph

/-- Different artifacts or collections never define classes of the same name. -/
def ClassesApart (g : Graph) : Prop :=
  ∀ p ∈ g.placements, ∀ q ∈ g.placements, ∀ (a b : Artifact) name,
    a.className? p.toNamedCollection = some name →
      b.className? q.toNamedCollection = some name → p = q ∧ a = b

/-- No class that is defined has the name of a record type. -/
def RecordsApart (g : Graph) : Prop :=
  ∀ p ∈ g.placements, ∀ q ∈ g.placements, ∀ (a : Artifact) name,
    a.className? p.toNamedCollection = some name → name ≠ q.collection.recordType.name

theorem recordsApart_iff {g : Graph} : g.RecordsApart ↔
    ∀ p ∈ g.placements, ∀ q ∈ g.placements, ∀ suffix ∈ classSuffixes,
      q.collection.recordType.name ≠ p.className ++ suffix := by
  constructor
  · intro h p hp q hq suffix hsuffix hname
    obtain ⟨a, ha⟩ := mem_classSuffixes.1 hsuffix
    exact h p hp q hq a _ (by rw [Artifact.className?, ha, Option.map_some]) hname.symm
  · intro h p hp q hq a name hname hrecord
    obtain ⟨suffix, hsuffix, rfl⟩ := Option.map_eq_some_iff.1 hname
    exact h p hp q hq suffix (mem_classSuffixes.2 ⟨a, hsuffix⟩) hrecord.symm

/-- A class name that continues another by `Query` makes two classes of one name. -/
theorem not_classesApart {g : Graph} {p q : Placement} (hp : p ∈ g.placements)
    (hq : q ∈ g.placements) (h : q.className = p.className ++ "Query") : ¬g.ClassesApart := by
  intro hapart
  have hquery : "QueryDocumentSnapshot" = "Query" ++ "DocumentSnapshot" := rfl
  have hsame : Artifact.documentSnapshot.className? q.toNamedCollection =
      some (p.className ++ "QueryDocumentSnapshot") := by
    rw [Artifact.className?, Artifact.suffix?, Option.map_some, h, String.append_assoc, ← hquery]
  cases (hapart p hp q hq .queryDocumentSnapshot .documentSnapshot _ rfl hsame).2

end Graph

/-- What the artifacts rely on: queries can use the query fields, and the path is well-formed. -/
theorem Graph.generable_of_mem {ds : List Declaration} {p : Placement}
    (hp : p ∈ (graphOf ds).placements) :
    (∀ f ∈ p.collection.queryFields, f.type.isQueryable = true) ∧
      p.collection.path.WellFormed := by
  obtain ⟨k, hk, rfl⟩ := mem_placements.1 hp
  obtain ⟨d, -, hyields⟩ := exists_of_mem_kept hk
  refine ⟨fun f hf => ?_, hyields.passes.wellFormed⟩
  rw [show (placedAmong (kept ds) k).collection.queryFields = _ from hyields.queryFields,
    QueryField.among, List.mem_map] at hf
  obtain ⟨m, hm, rfl⟩ := hf
  exact (Bool.and_eq_true_iff.1 (List.mem_filter.1 hm).2).2

theorem Graph.definesOwnClass {ds : List Declaration} {p : Placement}
    (hp : p ∈ (graphOf ds).placements) (a : Artifact) : a.DefinesOwnClass p :=
  Artifact.definesOwnClass (Graph.generable_of_mem hp).1 (Graph.generable_of_mem hp).2 a

theorem Graph.exists_render {ds : List Declaration} {p : Placement}
    (hp : p ∈ (graphOf ds).placements) (a : Artifact) : ∃ text, a.render p = .ok text := by
  obtain ⟨s, hs, -⟩ := Graph.definesOwnClass hp a
  exact ⟨s.render, by rw [Artifact.render, hs]; rfl⟩

namespace Sound

variable {ds : List Declaration}

theorem eq_of_className_eq (h : Sound ds) {p q : Placement} (hp : p ∈ (graphOf ds).placements)
    (hq : q ∈ (graphOf ds).placements) (hname : p.className = q.className) : p = q := by
  obtain ⟨k, hk, rfl⟩ := mem_placements.1 hp
  obtain ⟨j, hj, rfl⟩ := mem_placements.1 hq
  rw [List.inj_on_of_nodup_map h.classNames hk hj hname]

theorem classesApart_iff (h : Sound ds) : (graphOf ds).ClassesApart ↔
    ∀ p ∈ (graphOf ds).placements, ∀ q ∈ (graphOf ds).placements,
      q.className ≠ p.className ++ "Query" := by
  constructor
  · intro hapart p hp q hq hquery
    exact Graph.not_classesApart hp hq hquery hapart
  · intro hquery p hp q hq a b name ha hb
    rcases Artifact.className?_eq ha hb with ⟨rfl, hname⟩ | hname | hname
    · exact ⟨h.eq_of_className_eq hp hq hname, rfl⟩
    · exact absurd hname (hquery p hp q hq)
    · exact absurd hname (hquery q hq p hp)

end Sound

/-- Each of the six artifacts defines a class of its name. No two of these classes have one name
just when no class name of a collection continues that of another by `Query`, and none is called
like a record type just when no record type is called like a class name with one of the suffixes. -/
theorem classNames_of_builds {mode : Mode} {ds : List Declaration} {g : Graph}
    (h : Builds mode ds g) :
    (∀ p ∈ g.placements, ∀ a : Artifact, a.DefinesOwnClass p) ∧
      (g.ClassesApart ↔ ∀ p ∈ g.placements, ∀ q ∈ g.placements,
        q.className ≠ p.className ++ "Query") ∧
      (g.RecordsApart ↔ ∀ p ∈ g.placements, ∀ q ∈ g.placements, ∀ suffix ∈ classSuffixes,
        q.collection.recordType.name ≠ p.className ++ suffix) := by
  obtain rfl := h.eq_graphOf
  exact ⟨fun p hp => Graph.definesOwnClass hp, h.sound.classesApart_iff, Graph.recordsApart_iff⟩

/-- Two record types, of which one is called like the queries for the other. -/
def queryOfMovie : List Declaration :=
  [.plain "movies" "Movie", .plain "queries" "MovieQuery"]

theorem builds_queryOfMovie : Builds .collecting queryOfMovie (graphOf queryOfMovie) :=
  builds_iff.2 ⟨by decide, rfl⟩

theorem classNames_queryOfMovie :
    Builds .collecting queryOfMovie (graphOf queryOfMovie) ∧
      ((graphOf queryOfMovie).ClassesApart ↔ ∀ p ∈ (graphOf queryOfMovie).placements,
        ∀ q ∈ (graphOf queryOfMovie).placements, q.className ≠ p.className ++ "Query") :=
  ⟨builds_queryOfMovie, (classNames_of_builds builds_queryOfMovie).2.1⟩

/-- The documents in results of queries for movies and the documents of the other collection have
classes of one name. -/
theorem queryOfMovie_not_apart :
    Builds .collecting queryOfMovie (graphOf queryOfMovie) ∧
      ¬(graphOf queryOfMovie).ClassesApart ∧ ¬(graphOf queryOfMovie).RecordsApart := by
  have hnames : (graphOf queryOfMovie).placements.map (fun p =>
      (p.className, p.collection.recordType.name)) =
        [("Movie", "Movie"), ("MovieQuery", "MovieQuery")] := by decide
  obtain ⟨p, hp, hmovie⟩ := List.mem_map.1 (hnames ▸ List.mem_cons_self)
  obtain ⟨q, hq, hquery⟩ := List.mem_map.1 (hnames ▸ List.mem_cons_of_mem _ List.mem_cons_self)
  rw [Prod.mk.injEq] at hmovie hquery
  refine ⟨builds_queryOfMovie, Graph.not_classesApart hp hq ?_, fun hapart => ?_⟩
  · rw [hmovie.1, hquery.1]
    decide
  · refine hapart p hp q hq .query (p.className ++ "Query") rfl ?_
    rw [hmovie.1, hquery.2]
    decide

end CollectionSchema
