import CollectionSchema.Proofs.Artifact.Closed
import CollectionSchema.Proofs.Declaration.Injections

/-!
# Grouped fragments

Grouping writes the content of each fragment into a table of tables, by collection and artifact.
What the table has for an artifact of a collection is the content of the last fragment of both
(`Fragment.contentAt?_addTo`), so nothing is lost where equal keys mean equal contents.

Fragments that come collection by collection, with different artifacts in each, are also found in
their order: the rows of the table, read one after the other, are the fragments
(`Fragment.ofTable_grouped_flatMap`). The invariant is that the fragment that comes next belongs to
the last row or to a new one. The fragments of a graph come in this way (`dispatched_of_builds`).
-/

namespace CollectionSchema

open Survey

namespace Fragment

/-! ## Contents by collection and artifact -/

/-- What a table of contents has for an artifact of a collection. -/
def contentAt? (t : Table String (Table String String)) (path artifact : String) : Option String :=
  (t.find? path).bind (·.find? artifact)

theorem grouped_append_singleton (fs : List Fragment) (f : Fragment) :
    grouped (fs ++ [f]) = addTo (grouped fs) f := by
  rw [grouped, List.foldl_append, List.foldl_cons, List.foldl_nil, grouped]

/-- One more fragment changes the content under its own key only. -/
theorem contentAt?_addTo (t : Table String (Table String String)) (f : Fragment)
    (path artifact : String) : contentAt? (addTo t f) path artifact =
      if f.key = (some path, artifact) then some f.content else contentAt? t path artifact := by
  obtain ⟨name, place, content⟩ := f
  cases place with
  | none => simp [addTo, key]
  | some other =>
    simp only [contentAt?, addTo, Table.find?_insert, key, Prod.mk.injEq, Option.some.injEq]
    by_cases hpath : other = path
    · subst hpath
      by_cases hname : name = artifact
      · simp [Table.find?_insert, hname]
      · cases t.find? other <;> simp [Table.find?_insert, hname]
    · simp [hpath]

theorem contentAt?_grouped {fs : List Fragment} {f : Fragment} (hf : f ∈ fs) {path : String}
    (hpath : f.path = some path) (hsame : ∀ e ∈ fs, e.key = f.key → e.content = f.content) :
    contentAt? (grouped fs) path f.artifact = some f.content := by
  have hkey : f.key = (some path, f.artifact) := by rw [key, hpath]
  induction fs using List.reverseRecOn with
  | nil => cases hf
  | append_singleton fs e ih =>
    rw [grouped_append_singleton, contentAt?_addTo, ← hkey]
    by_cases he : e.key = f.key
    · rw [if_pos he, hsame e (List.mem_append_right _ (List.mem_singleton_self e)) he]
    · rw [if_neg he]
      rcases List.mem_append.1 hf with hf | hf
      · exact ih hf fun d hd => hsame d (List.mem_append_left _ hd)
      · obtain rfl := List.mem_singleton.1 hf
        exact absurd rfl he

/-! ## Rows -/

/-- What a fragment writes into the row of its collection. -/
def entry (f : Fragment) : String × String :=
  (f.artifact, f.content)

/-- The fragments of one row of a table of contents, in order. -/
def ofRow (path : String) (row : Table String String) : List Fragment :=
  row.pairs.map fun e => ⟨e.1, some path, e.2⟩

/-- The fragments of a table of contents, row by row. -/
def ofTable (t : Table String (Table String String)) : List Fragment :=
  t.pairs.flatMap fun row => ofRow row.1 row.2

theorem ofRow_entries {path : String} {fs : List Fragment} (h : ∀ f ∈ fs, f.path = some path) :
    ofRow path ⟨fs.map entry⟩ = fs := by
  rw [ofRow, List.map_map]
  refine (List.map_congr_left fun f hf => ?_).trans (List.map_id fs)
  rw [Function.comp_apply, id, entry, ← h f hf]

section

variable {path : String} {f : Fragment}

/-- A fragment of a collection that the table does not know begins a row. -/
theorem addTo_new {t : Table String (Table String String)} (hnew : path ∉ t.keys)
    (hpath : f.path = some path) : addTo t f = ⟨t.pairs ++ [(path, ⟨[f.entry]⟩)]⟩ := by
  rw [addTo, hpath]
  simp only [Table.find?_eq_none.2 hnew, Option.getD_none, Table.insert_of_not_mem _ hnew]
  rfl

/-- A fragment of the last collection is put at the end of the last row. -/
theorem addTo_last {rows : List (String × Table String String)} {entries : List (String × String)}
    (hrows : path ∉ rows.map (·.1)) (hpath : f.path = some path)
    (hname : f.artifact ∉ entries.map (·.1)) :
    addTo ⟨rows ++ [(path, ⟨entries⟩)]⟩ f = ⟨rows ++ [(path, ⟨entries ++ [f.entry]⟩)]⟩ := by
  have hrow : (⟨entries⟩ : Table String String).insert f.artifact f.content =
      ⟨entries ++ [f.entry]⟩ := Table.insert_of_not_mem _ hname
  rw [addTo, hpath]
  simp only [Table.find?_last hrows, Option.getD_some, hrow, Table.insert_last hrows]

theorem foldl_addTo_last {rows : List (String × Table String String)}
    (hrows : path ∉ rows.map (·.1)) {entries : List (String × String)} {fs : List Fragment}
    (hpath : ∀ f ∈ fs, f.path = some path)
    (hnames : (entries.map (·.1) ++ fs.map (·.artifact)).Nodup) :
    fs.foldl addTo ⟨rows ++ [(path, ⟨entries⟩)]⟩ =
      ⟨rows ++ [(path, ⟨entries ++ fs.map entry⟩)]⟩ := by
  induction fs generalizing entries with
  | nil => rw [List.foldl_nil, List.map_nil, List.append_nil]
  | cons f fs ih =>
    rw [List.forall_mem_cons] at hpath
    have hname : f.artifact ∉ entries.map (·.1) := by
      intro hmem
      exact (List.nodup_append.1 hnames).2.2 _ hmem _ List.mem_cons_self rfl
    have hrest : ((entries ++ [f.entry]).map (·.1) ++ fs.map (·.artifact)).Nodup := by
      simpa [entry] using hnames
    rw [List.foldl_cons, addTo_last hrows hpath.1 hname, ih hpath.2 hrest, List.map_cons,
      List.append_assoc, List.singleton_append]

/-- The fragments of a collection that the table does not know make a row of their own. -/
theorem foldl_addTo_new {t : Table String (Table String String)} (hnew : path ∉ t.keys)
    {fs : List Fragment} (hne : fs ≠ []) (hpath : ∀ f ∈ fs, f.path = some path)
    (hnames : (fs.map (·.artifact)).Nodup) :
    fs.foldl addTo t = ⟨t.pairs ++ [(path, ⟨fs.map entry⟩)]⟩ := by
  obtain ⟨f, fs, rfl⟩ := List.exists_cons_of_ne_nil hne
  rw [List.forall_mem_cons] at hpath
  have hrest : ([f.entry].map (·.1) ++ fs.map (·.artifact)).Nodup := hnames
  rw [List.foldl_cons, addTo_new hnew hpath.1, foldl_addTo_last hnew hpath.2 hrest,
    List.singleton_append, List.map_cons]

end

/-! ## Fragments collection by collection -/

section

variable {α : Type} {pathOf : α → String} {block : α → List Fragment}

/-- Collections that the table does not know are read back behind those that it knows. -/
theorem ofTable_foldl_flatMap {l : List α} {t : Table String (Table String String)}
    (hnew : ∀ a ∈ l, pathOf a ∉ t.keys) (hpaths : (l.map pathOf).Nodup)
    (hpath : ∀ a ∈ l, ∀ f ∈ block a, f.path = some (pathOf a))
    (hnames : ∀ a ∈ l, ((block a).map (·.artifact)).Nodup) :
    ofTable ((l.flatMap block).foldl addTo t) = ofTable t ++ l.flatMap block := by
  induction l generalizing t with
  | nil => rw [List.flatMap_nil, List.foldl_nil, List.append_nil]
  | cons a l ih =>
    rw [List.forall_mem_cons] at hnew hpath hnames
    rw [List.map_cons, List.nodup_cons] at hpaths
    rw [List.flatMap_cons, List.foldl_append]
    by_cases hblock : block a = []
    · rw [hblock, List.foldl_nil, List.nil_append]
      exact ih hnew.2 hpaths.2 hpath.2 hnames.2
    · have hnext : ∀ b ∈ l, pathOf b ∉
          (⟨t.pairs ++ [(pathOf a, ⟨(block a).map entry⟩)]⟩ :
            Table String (Table String String)).keys := by
        intro b hb hmem
        rw [Table.keys, List.map_append, List.mem_append] at hmem
        rcases hmem with hmem | hmem
        · exact hnew.2 b hb hmem
        · have hsame : pathOf b = pathOf a := List.mem_singleton.1 hmem
          exact hpaths.1 (hsame ▸ List.mem_map_of_mem hb)
      rw [foldl_addTo_new hnew.1 hblock hpath.1 hnames.1, ih hnext hpaths.2 hpath.2 hnames.2,
        ofTable, List.flatMap_append, List.flatMap_singleton, ofRow_entries hpath.1,
        List.append_assoc, ← ofTable]

theorem ofTable_grouped_flatMap {l : List α} (hpaths : (l.map pathOf).Nodup)
    (hpath : ∀ a ∈ l, ∀ f ∈ block a, f.path = some (pathOf a))
    (hnames : ∀ a ∈ l, ((block a).map (·.artifact)).Nodup) :
    ofTable (grouped (l.flatMap block)) = l.flatMap block :=
  ofTable_foldl_flatMap (fun _ _ => List.not_mem_nil) hpaths hpath hnames

end

end Fragment

/-! ## Fragments of a graph -/

/-- The fragment holds the code that the artifact has for the collection. -/
structure Fragment.Holds (f : Fragment) (p : Placement) (a : Artifact) : Prop where
  artifact : f.artifact = a.name
  path : f.path = some p.pathText
  content : a.render p = .ok f.content

theorem Artifact.holds_of_fragment? {p : Placement} {a : Artifact} {f : Fragment}
    (h : a.fragment? p = some f) : f.Holds p a := by
  obtain ⟨-, text, htext, rfl⟩ := fragment?_eq_some.1 h
  exact ⟨rfl, rfl, htext⟩

namespace Graph

/-- The pairs of a collection and an artifact that is generated for it, collection by collection. -/
def generated (g : Graph) (artifacts : List Artifact) : List (Placement × Artifact) :=
  g.placements.flatMap fun p => (artifacts.filter (·.accepts p)).map (p, ·)

theorem forall₂_generated {g : Graph} (h : g.Renders) (artifacts : List Artifact) :
    List.Forall₂ (fun pair f => f.Holds pair.1 pair.2) (g.generated artifacts)
      (g.placements.flatMap fun p => artifacts.filterMap (Artifact.fragment? p)) := by
  have hplace : ∀ p ∈ g.placements, List.Forall₂ (fun pair f => f.Holds pair.1 pair.2)
      ((artifacts.filter (·.accepts p)).map (p, ·))
      (artifacts.filterMap (Artifact.fragment? p)) := by
    intro p hp
    rw [List.forall₂_map_left_iff]
    apply forall₂_filterMap
    · intro a _ haccepts
      obtain ⟨text, htext⟩ := h p hp a
      have hfragment := Artifact.fragment?_eq_some.2 ⟨haccepts, text, htext, rfl⟩
      exact ⟨_, hfragment, Artifact.holds_of_fragment? hfragment⟩
    · intro a _ hrefuses
      simp [Artifact.fragment?, hrefuses]
  have hplaces : List.Forall₂ (fun p q => p = q ∧ p ∈ g.placements) g.placements g.placements :=
    List.forall₂_same.2 fun p hp => ⟨rfl, hp⟩
  apply List.rel_flatMap hplaces
  rintro p _ ⟨rfl, hp⟩
  exact hplace p hp

/-- Fragments of one collection and artifact have one content. -/
theorem content_eq_of_key_eq {g : Graph} (hpaths : (g.placements.map (·.pathText)).Nodup)
    {s : Selection} {e f : Fragment} (he : e ∈ g.fragments s) (hf : f ∈ g.fragments s)
    (hkey : e.key = f.key) : e.content = f.content := by
  rcases mem_fragments.1 he with ⟨-, rfl⟩ | ⟨p, hp, a, -, ha⟩
  · rcases mem_fragments.1 hf with ⟨-, rfl⟩ | ⟨q, -, b, -, hb⟩
    · rfl
    · rw [Artifact.key_eq hb] at hkey
      cases hkey
  · rcases mem_fragments.1 hf with ⟨-, rfl⟩ | ⟨q, hq, b, -, hb⟩
    · rw [Artifact.key_eq ha] at hkey
      cases hkey
    · rw [Artifact.key_eq ha, Artifact.key_eq hb, Prod.mk.injEq, Option.some.injEq] at hkey
      have hplace : p = q := List.inj_on_of_nodup_map hpaths hp hq hkey.1
      have hartifact : a = b := Vocabulary.word_injective hkey.2
      subst hplace hartifact
      rw [Option.some.inj (ha.symm.trans hb)]

/-- Only accessors are refused, and only where there are no children. -/
theorem accepts_eq_false_iff {ds : List Declaration} {p : Placement}
    (hp : p ∈ (graphOf ds).placements) (a : Artifact) : a.accepts p = false ↔
      a = .subcollectionAccessors ∧
        ∀ q ∈ (graphOf ds).placements, q.collection.path.parent? ≠ some p.pathText := by
  obtain ⟨k, -, rfl⟩ := mem_placements.1 hp
  cases a with
  | subcollectionAccessors =>
    rw [Artifact.accepts, Bool.not_eq_false', List.isEmpty_iff, children_placedAmong,
      List.map_eq_nil_iff, List.filter_eq_nil_iff]
    simp only [decide_eq_true_eq, true_and, ne_eq]
  | _ => exact iff_of_false (by simp [Artifact.accepts]) (by simp)

/-- What is generated for a graph from some artifacts, and how it is found again when it is
grouped. -/
structure Dispatched (g : Graph) (artifacts : List Artifact) (withPreamble : Bool)
    (fragments : List Fragment) : Prop where
  /-- Behind the preamble there is one fragment for each collection and each artifact that is not
  refused, in order. -/
  inOrder : ∃ rest, fragments = (if withPreamble then [.preamble] else []) ++ rest ∧
    List.Forall₂ (fun pair f => f.Holds pair.1 pair.2) (g.generated artifacts) rest
  refused_iff : ∀ p ∈ g.placements, ∀ a : Artifact, a.accepts p = false ↔
    a = .subcollectionAccessors ∧
      ∀ q ∈ g.placements, q.collection.path.parent? ≠ some p.pathText
  /-- Different artifacts are found in their order. -/
  regained : (artifacts.map (·.name)).Nodup →
    Fragment.ofTable (Fragment.grouped fragments) = fragments.filter (·.path.isSome)
  /-- Also where artifacts are repeated, each content is found. -/
  found : ∀ f ∈ fragments, ∀ path, f.path = some path →
    Fragment.contentAt? (Fragment.grouped fragments) path f.artifact = some f.content

theorem ofTable_grouped_fragments {g : Graph} (hpaths : (g.placements.map (·.pathText)).Nodup)
    {s : Selection} (hartifacts : s.artifacts.Nodup) :
    Fragment.ofTable (Fragment.grouped (g.fragments s)) =
      (g.fragments s).filter (·.path.isSome) := by
  have hpath : ∀ p ∈ g.placements, ∀ f ∈ s.artifacts.filterMap (Artifact.fragment? p),
      f.path = some p.pathText := by
    intro p _ f hf
    obtain ⟨a, -, ha⟩ := List.mem_filterMap.1 hf
    exact (Artifact.holds_of_fragment? ha).path
  have hnames : ∀ p ∈ g.placements,
      ((s.artifacts.filterMap (Artifact.fragment? p)).map (·.artifact)).Nodup := by
    intro p hp
    have hkeys := Artifact.nodup_keys p hartifacts
    rw [List.Nodup, List.pairwise_map] at hkeys ⊢
    refine hkeys.imp_of_mem fun {e f} he hf hne hname => hne ?_
    rw [Fragment.key, Fragment.key, hname, hpath p hp e he, hpath p hp f hf]
  have hgrouped := Fragment.ofTable_grouped_flatMap hpaths hpath hnames
  have hall : (g.placements.flatMap fun p => s.artifacts.filterMap (Artifact.fragment? p)).filter
      (·.path.isSome) = g.placements.flatMap fun p =>
        s.artifacts.filterMap (Artifact.fragment? p) := by
    rw [List.filter_eq_self]
    intro f hf
    obtain ⟨p, hp, hf⟩ := List.mem_flatMap.1 hf
    rw [hpath p hp f hf, Option.isSome_some]
  rw [fragments, List.filter_append, hall]
  cases s.withPreamble with
  | false => exact hgrouped
  | true => exact hgrouped

end Graph

/-- The fragments of a graph, for artifacts that are chosen by name in any order, are one for each
collection and each artifact that accepts it, behind the preamble; only accessors are ever refused,
by the collections that are nobody's parent. Grouping loses none of them: without repeated names the
rows of the table in order are the fragments of the collections, and with repeated names too the
table has the content of every fragment. -/
theorem dispatched_of_builds {mode : Mode} {ds : List Declaration} {g : Graph}
    (h : Builds mode ds g) {names : List String}
    (hnames : ∀ name ∈ names, name ∈ Vocabulary.words Artifact) (withPreamble : Bool) :
    ∃ artifacts fragments, Artifact.resolve (some names) = .ok artifacts ∧
      artifacts.map (·.name) = names ∧
      (g.generate ⟨artifacts, withPreamble⟩).value = .ok fragments ∧
      g.placements.map (·.pathText) = ds.map (·.path) ∧
      g.Dispatched artifacts withPreamble fragments := by
  obtain ⟨artifacts, rfl⟩ := Artifact.exists_names hnames
  have hdeclared : g.placements.map (·.pathText) = ds.map (·.path) := by
    rw [h.eq_graphOf, placements_graphOf, List.map_map]
    exact h.sound.keptPaths_eq
  have hpaths : (g.placements.map (·.pathText)).Nodup := hdeclared ▸ h.sound.nodup
  refine ⟨artifacts, _, Artifact.resolve_names artifacts, rfl,
    Graph.value_generate h.renders ⟨artifacts, withPreamble⟩, hdeclared, ?_⟩
  constructor
  case inOrder => exact ⟨_, rfl, Graph.forall₂_generated h.renders artifacts⟩
  case refused_iff =>
    rw [h.eq_graphOf]
    exact fun p hp => Graph.accepts_eq_false_iff hp
  case regained =>
    intro hdistinct
    exact Graph.ofTable_grouped_fragments hpaths (hdistinct.of_map _)
  case found =>
    intro f hf path hpath
    exact Fragment.contentAt?_grouped hf hpath fun e he =>
      Graph.content_eq_of_key_eq hpaths he hf

/-- Accessors are chosen in front of the class that they are assigned to. -/
theorem dispatched_castAndMovies :
    ∃ artifacts fragments,
      Artifact.resolve (some ["subcollection_accessors", "document_reference"]) = .ok artifacts ∧
      ((graphOf castAndMovies).generate ⟨artifacts, true⟩).value = .ok fragments ∧
      (graphOf castAndMovies).Dispatched artifacts true fragments := by
  have hnames : ∀ name ∈ ["subcollection_accessors", "document_reference"],
      name ∈ Vocabulary.words Artifact := by decide
  obtain ⟨artifacts, fragments, hresolve, -, hgenerate, -, hdispatched⟩ :=
    dispatched_of_builds builds_castAndMovies hnames true
  exact ⟨artifacts, fragments, hresolve, hgenerate, hdispatched⟩

end CollectionSchema
