import CollectionSchema.Proofs.Artifact.Blocks
import CollectionSchema.Proofs.Artifact.Methods
import CollectionSchema.Proofs.Table

/-!
# Updates of single fields

The generated method for updates has a parameter for each query field, and its body mixes these with
names of its own. `Update.call` runs the body for some arguments: it gives what is sent to the
store, or nothing if the method or the call is rejected. `Update.stores_iff` says for which fields
whatever is passed arrives under the name of its field: their names have to be free
(`Update.IsFree`), that is, no reserved words, none of the three names of the body and none that a
class keeps private.
-/

namespace CollectionSchema

open Layout Survey

/-! ## Names in classes -/

/-- Two underscores in front of a name, but not behind it, make it private to its class. -/
def isPrivateName (name : String) : Bool :=
  "__".toList.isPrefixOf name.toList && !"__".toList.isSuffixOf name.toList

/-- What a name is called inside a class: a private one has the name of the class in front of it,
without underscores at its begin. -/
def nameIn (owner name : String) : String :=
  if isPrivateName name then
    "_" ++ String.ofList (owner.toList.dropWhile (· = '_')) ++ name
  else name

theorem nameIn_of_not_private {name : String} (h : isPrivateName name = false) (owner : String) :
    nameIn owner name = name := by
  rw [nameIn, h, if_neg Bool.false_ne_true]

theorem isPrivateName_nameIn {owner : String} (howner : ∃ c ∈ owner.toList, c ≠ '_')
    (name : String) : isPrivateName (nameIn owner name) = false := by
  unfold nameIn
  split
  · have hne : owner.toList.dropWhile (· = '_') ≠ [] := by
      obtain ⟨c, hc, hletter⟩ := howner
      rw [ne_eq, List.dropWhile_eq_nil_iff]
      exact fun hall => hletter (by simpa using hall c hc)
    have hhead := List.head_dropWhile_not (fun c => decide (c = '_')) hne
    obtain ⟨c, rest, hcons⟩ := List.exists_cons_of_ne_nil hne
    simp only [hcons, List.head_cons, decide_eq_false_iff_not] at hhead
    simp [isPrivateName, String.toList_append, hcons, List.isPrefixOf, Ne.symm hhead]
  · next h => simpa using h

namespace Artifact.Update

/-! ## The body -/

/-- A statement in the body of the method for updates. -/
inductive Statement where
  /-- Begin with a document without fields. -/
  | create (document : String)
  /-- Write a parameter into the document under its own name, unless it is the mark. -/
  | store (document mark parameter : String)
  /-- Send the document to the store of the receiver. -/
  | send (receiver document : String)

/-- The text of a statement. -/
def Statement.script : Statement → Script
  | .create document => [.line (document ++ " = \x7b\x7d")]
  | .store document mark parameter => block ("if " ++ parameter ++ " is not " ++ mark ++ ":") [
      .line (document ++ "[\"" ++ parameter ++ "\"] = " ++ parameter)]
  | .send receiver document => [.line (receiver ++ ".reference.update(" ++ document ++ ")")]

/-- The names that a statement uses beside that of a parameter. -/
def Statement.own : Statement → List String
  | .create document => [document]
  | .store document mark _ => [document, mark]
  | .send receiver document => [receiver, document]

/-- The body of the method for updates of some fields. -/
def body (fields : List String) : List Statement :=
  .create "data" :: fields.map (.store "data" "_sentinel") ++ [.send "self" "data"]

/-- The names that the body uses for itself. -/
def ownNames : List String :=
  ["self", "data", "_sentinel"]

theorem script_store (parameter : String) :
    (Statement.store "data" "_sentinel" parameter).script =
      block ("if " ++ parameter ++ " is not _sentinel:") [
        .line ("data[\"" ++ parameter ++ "\"] = " ++ parameter)] := by
  have hmark : " is not " ++ ("_sentinel" ++ ":") = " is not _sentinel:" := by decide
  have hif : "if " ++ parameter ++ " is not " ++ "_sentinel" ++ ":" =
      "if " ++ parameter ++ " is not _sentinel:" := by
    rw [String.append_assoc, String.append_assoc, hmark]
  have hentry : "data" ++ "[\"" = "data[\"" := by decide
  rw [Statement.script, hif, hentry]

theorem updateBody_eq (fields : List QueryField) :
    updateBody fields = (body (fields.map (·.name))).flatMap Statement.script := by
  have hcreate : (Statement.create "data").script = [.line "data = \x7b\x7d"] :=
    congrArg (fun text => [Step.line text]) (by decide)
  have hsend : (Statement.send "self" "data").script = [.line "self.reference.update(data)"] :=
    congrArg (fun text => [Step.line text]) (by decide)
  rw [updateBody, body, List.flatMap_append, List.flatMap_cons, List.flatMap_singleton, hcreate,
    hsend, List.map_map, List.flatMap_map]
  simp only [Function.comp_def, script_store]
  rfl

/-! ## Running the body -/

/-- What a name stands for while the body runs. -/
inductive Content (α : Type) where
  /-- The object whose method was called. -/
  | receiver
  /-- The mark of parameters that were not passed. -/
  | mark
  /-- The document that is put together. -/
  | document
  | passed (value : α)
deriving DecidableEq

/-- The local names, and what was written into the document. -/
structure State (α : Type) where
  locals : Table String (Content α)
  entries : Table String (Content α) := .empty

variable {α : Type} (owner : String)

/-- What a name stands for in a method of the class `owner`: a local name hides the one for the
mark, which is defined outside. -/
def State.read (s : State α) (name : String) : Option (Content α) :=
  (s.locals.find? (nameIn owner name)).or (if name = "_sentinel" then some .mark else none)

/-- The state after a statement; none if a name stands for nothing or for the wrong thing. -/
def State.step [DecidableEq α] (s : State α) : Statement → Option (State α)
  | .create document => some ⟨s.locals.insert (nameIn owner document) .document, .empty⟩
  | .store document mark parameter => do
    let value ← s.read owner parameter
    let unset ← s.read owner mark
    if value = unset then return s
    else if s.read owner document = some .document then
      return { s with entries := s.entries.insert parameter value }
    else none
  | .send receiver document =>
    if s.read owner receiver = some .receiver ∧ s.read owner document = some .document then some s
    else none

/-- What a parameter stands for when some arguments are passed. -/
def argument (args : Table String α) (parameter : String) : Content α :=
  ((args.find? parameter).map .passed).getD .mark

/-- The local names of a call. -/
def locals (args : Table String α) (parameters : List String) : Table String (Content α) :=
  .ofList (("self", .receiver) :: parameters.map fun name => (name, argument args name))

/-- The words that cannot be names. -/
def reservedWords : List String :=
  ["False", "None", "True", "__debug__", "and", "as", "assert", "async", "await", "break", "class",
    "continue", "def", "del", "elif", "else", "except", "finally", "for", "from", "global", "if",
    "import", "in", "is", "lambda", "nonlocal", "not", "or", "pass", "raise", "return", "try",
    "while", "with", "yield"]

/-- The method and the call are accepted: the parameters are identifiers (those of ASCII characters,
which are taken as they are spelled) with different names, and arguments are passed for parameters
only. -/
structure Accepted (owner : String) (fields : List String) (args : Table String α) : Prop where
  words : ∀ name ∈ fields, Text.isIdentifier name = true ∧ name ∉ reservedWords
  nodup : ("self" :: fields.map (nameIn owner)).Nodup
  keys : ∀ name ∈ args.keys, name ∈ fields.map (nameIn owner)

instance (fields : List String) (args : Table String α) : Decidable (Accepted owner fields args) :=
  decidable_of_iff ((∀ name ∈ fields, Text.isIdentifier name = true ∧ name ∉ reservedWords) ∧
      ("self" :: fields.map (nameIn owner)).Nodup ∧
      ∀ name ∈ args.keys, name ∈ fields.map (nameIn owner))
    ⟨fun h => ⟨h.1, h.2.1, h.2.2⟩, fun h => ⟨h.words, h.nodup, h.keys⟩⟩

/-- What the method for updates of some fields sends to the store when some arguments are passed by
name; none if the call is not accepted or the body fails. -/
def call [DecidableEq α] (fields : List String) (args : Table String α) :
    Option (Table String (Content α)) :=
  if Accepted owner fields args then
    ((body fields).foldlM (State.step owner)
      ⟨locals args (fields.map (nameIn owner)), .empty⟩).map (·.entries)
  else none

section

variable {owner} {fields : List String} {args : Table String α}

/-- What a name stands for once the document was created. -/
def content (owner : String) (args : Table String α) (name : String) : Content α :=
  if nameIn owner name = "data" then .document else argument args (nameIn owner name)

/-- The state of a call after the document was created and some entries were written. -/
def opened (owner : String) (fields : List String) (args : Table String α)
    (entries : Table String (Content α)) : State α :=
  ⟨(locals args (fields.map (nameIn owner))).insert "data" .document, entries⟩

theorem find?_locals {parameters : List String} (h : ("self" :: parameters).Nodup) (name : String) :
    (locals args parameters).find? name =
      if name = "self" then some .receiver
      else if name ∈ parameters then some (argument args name) else none := by
  have hkeys : ((("self", Content.receiver) ::
      parameters.map fun name => (name, argument args name)).map (·.1)).Nodup := by
    simpa [Function.comp_def] using h
  rw [locals]
  split
  · next hself =>
    rw [Table.find?_ofList_eq_some hkeys, hself]
    exact List.mem_cons_self
  · next hself =>
    split
    · next hmem =>
      rw [Table.find?_ofList_eq_some hkeys]
      exact List.mem_cons_of_mem _ (List.mem_map_of_mem hmem)
    · next hmem =>
      rw [Table.find?_ofList_eq_none hkeys]
      simp [hself, hmem]

theorem read_document (entries : Table String (Content α)) :
    (opened owner fields args entries).read owner "data" = some .document := by
  rw [State.read, opened, nameIn_of_not_private (by decide), Table.find?_insert, if_pos rfl,
    Option.some_or]

namespace Accepted

variable (h : Accepted owner fields args) (entries : Table String (Content α))

include h

theorem nameIn_ne_self {name : String} (hname : name ∈ fields) : nameIn owner name ≠ "self" :=
  fun hself => (List.nodup_cons.1 h.nodup).1 (hself ▸ List.mem_map_of_mem hname)

/-- No name of the module or of a parameter is missing. -/
theorem read_opened {name : String} (hname : name ∈ "_sentinel" :: fields) :
    (opened owner fields args entries).read owner name = some (content owner args name) := by
  rw [State.read, opened, Table.find?_insert, content]
  by_cases hdata : nameIn owner name = "data"
  · rw [if_pos hdata.symm, if_pos hdata, Option.some_or]
  · rw [if_neg (Ne.symm hdata), if_neg hdata, find?_locals h.nodup]
    rcases List.mem_cons.1 hname with rfl | hfield
    · rw [nameIn_of_not_private (by decide), if_neg (by decide)]
      split
      · rw [Option.some_or]
      · next hmissing =>
        rw [Option.none_or, if_pos rfl, argument, Table.find?_eq_none.2 fun hkey =>
          hmissing (h.keys _ hkey)]
        rfl
    · rw [if_neg (h.nameIn_ne_self hfield), if_pos (List.mem_map_of_mem hfield), Option.some_or]

theorem read_receiver :
    (opened owner fields args entries).read owner "self" = some .receiver := by
  rw [State.read, opened, nameIn_of_not_private (by decide), Table.find?_insert,
    if_neg (by decide), find?_locals h.nodup, if_pos rfl, Option.some_or]

end Accepted

/-- The entries of a document after one parameter was dealt with. -/
def write [DecidableEq α] (owner : String) (args : Table String α)
    (entries : Table String (Content α)) (parameter : String) : Table String (Content α) :=
  if content owner args parameter = content owner args "_sentinel" then entries
  else entries.insert parameter (content owner args parameter)

theorem Accepted.step_store [DecidableEq α] (h : Accepted owner fields args)
    (entries : Table String (Content α)) {parameter : String} (hparameter : parameter ∈ fields) :
    (opened owner fields args entries).step owner (.store "data" "_sentinel" parameter) =
      some (opened owner fields args (write owner args entries parameter)) := by
  have hread := h.read_opened entries (List.mem_cons_of_mem _ hparameter)
  have hmark := h.read_opened entries (List.mem_cons_self (a := "_sentinel"))
  simp only [State.step, hread, hmark, read_document, Option.bind_eq_bind, Option.bind_some,
    if_true, write]
  split <;> rfl

theorem Accepted.foldlM_stores [DecidableEq α] (h : Accepted owner fields args)
    (entries : Table String (Content α)) {names : List String} (hnames : names ⊆ fields) :
    (names.map (Statement.store "data" "_sentinel")).foldlM (State.step owner)
      (opened owner fields args entries) =
        some (opened owner fields args (names.foldl (write owner args) entries)) := by
  induction names generalizing entries with
  | nil => rfl
  | cons name names ih =>
    rw [List.cons_subset] at hnames
    rw [List.map_cons, List.foldlM_cons, h.step_store entries hnames.1, List.foldl_cons]
    exact ih _ hnames.2

theorem find?_foldl_write [DecidableEq α] (names : List String)
    (entries : Table String (Content α)) (name : String) :
    (names.foldl (write owner args) entries).find? name =
      if name ∈ names ∧ content owner args name ≠ content owner args "_sentinel" then
        some (content owner args name)
      else entries.find? name := by
  induction names generalizing entries with
  | nil => simp
  | cons first names ih =>
    rw [List.foldl_cons, ih, write]
    by_cases hfirst : name = first
    · by_cases hmark : content owner args first = content owner args "_sentinel"
      · simp [hfirst, hmark]
      · simp [hfirst, hmark, Table.find?_insert]
    · by_cases hmark : content owner args first = content owner args "_sentinel"
      · simp [hfirst, hmark]
      · simp [hfirst, hmark, Table.find?_insert, Ne.symm hfirst]

theorem Accepted.call_eq [DecidableEq α] (h : Accepted owner fields args) :
    call owner fields args = some (fields.foldl (write owner args) .empty) := by
  have hcreate : State.step owner ⟨locals args (fields.map (nameIn owner)), .empty⟩
      (.create "data") = some (opened owner fields args .empty) := by
    rw [State.step, nameIn_of_not_private (by decide), opened]
  have hsend : ∀ entries, State.step owner (opened owner fields args entries)
      (.send "self" "data") = some (opened owner fields args entries) := by
    intro entries
    rw [State.step, h.read_receiver, read_document, if_pos ⟨rfl, rfl⟩]
  rw [call, if_pos h, body, List.foldlM_append, List.foldlM_cons, hcreate]
  simp only [Option.bind_eq_bind, Option.bind_some, h.foldlM_stores _ (List.Subset.refl fields),
    List.foldlM_cons, List.foldlM_nil, hsend]
  rfl

theorem accepted_of_call [DecidableEq α] {sent : Table String (Content α)}
    (h : call owner fields args = some sent) : Accepted owner fields args := by
  unfold call at h
  split at h
  · next haccepted => exact haccepted
  · cases h

end

/-- Whatever is passed for fields, it is sent under the names of these fields, and nothing else. -/
def Stores (fields : List String) : Prop :=
  ∀ (α : Type) [DecidableEq α] (args : Table String α), (∀ name ∈ args.keys, name ∈ fields) →
    ∃ sent, call owner fields args = some sent ∧
      ∀ name, sent.find? name = (args.find? name).map .passed

/-- The name of a field can be a parameter, and neither the body nor the class uses it otherwise. -/
structure IsFree (name : String) : Prop where
  word : name ∉ reservedWords
  own : name ∉ ownNames
  isPublic : isPrivateName name = false

instance (name : String) : Decidable (IsFree name) :=
  decidable_of_iff (name ∉ reservedWords ∧ name ∉ ownNames ∧ isPrivateName name = false)
    ⟨fun h => ⟨h.1, h.2.1, h.2.2⟩, fun h => ⟨h.word, h.own, h.isPublic⟩⟩

theorem stores_of_isFree {owner : String} {fields : List String} (hnodup : fields.Nodup)
    (hwords : ∀ name ∈ fields, Text.isIdentifier name = true) (h : ∀ name ∈ fields, IsFree name) :
    Stores owner fields := by
  intro α _ args hargs
  have hnames : fields.map (nameIn owner) = fields :=
    (List.map_congr_left fun name hname =>
      nameIn_of_not_private (h name hname).isPublic owner).trans (List.map_id fields)
  have haccepted : Accepted owner fields args := by
    constructor
    case words => exact fun name hname => ⟨hwords name hname, (h name hname).word⟩
    case nodup =>
      rw [hnames, List.nodup_cons]
      exact ⟨fun hself => (h _ hself).own (by decide), hnodup⟩
    case keys => rwa [hnames]
  have hcontent : ∀ name ∈ fields, content owner args name = argument args name := by
    intro name hname
    have hdata : name ≠ "data" := by
      rintro rfl
      exact (h _ hname).own (by decide)
    rw [content, nameIn_of_not_private (h name hname).isPublic, if_neg hdata]
  have hmark : content owner args "_sentinel" = .mark := by
    have hmissing : args.find? "_sentinel" = none :=
      Table.find?_eq_none.2 fun hkey => (h _ (hargs _ hkey)).own (by decide)
    rw [content, nameIn_of_not_private (by decide), if_neg (by decide), argument, hmissing]
    rfl
  refine ⟨_, haccepted.call_eq, fun name => ?_⟩
  rw [find?_foldl_write, hmark]
  cases hfind : args.find? name with
  | none =>
    rw [if_neg]
    · rfl
    · rintro ⟨hname, hne⟩
      rw [hcontent name hname, argument, hfind] at hne
      exact hne rfl
  | some v =>
    have hkey : name ∈ args.keys := by
      by_contra hkey
      rw [Table.find?_eq_none.2 hkey] at hfind
      cases hfind
    have hpassed : content owner args name = .passed v := by
      rw [hcontent name (hargs name hkey), argument, hfind]
      rfl
    rw [if_pos ⟨hargs name hkey, by simp [hpassed]⟩, hpassed]
    rfl

/-- Passing nothing but a field shows whether it arrives under its name. -/
theorem isFree_of_stores {owner : String} (howner : ∃ c ∈ owner.toList, c ≠ '_')
    {fields : List String} (h : Stores owner fields) : ∀ name ∈ fields, IsFree name := by
  intro name hname
  obtain ⟨sent, hsent, hfind⟩ := h Unit (.ofList [(name, ())]) fun key hkey => by
    rw [List.mem_singleton.1 hkey]
    exact hname
  have haccepted := accepted_of_call hsent
  rw [haccepted.call_eq, Option.some.injEq] at hsent
  have hprivate : isPrivateName name = false := by
    obtain ⟨other, -, hother⟩ := List.mem_map.1 (haccepted.keys name List.mem_cons_self)
    rw [← hother]
    exact isPrivateName_nameIn howner other
  have hself := haccepted.nameIn_ne_self hname
  have harrives := hfind name
  rw [← hsent, find?_foldl_write] at harrives
  refine ⟨(haccepted.words name hname).2, fun hown => ?_, hprivate⟩
  simp only [ownNames, List.mem_cons, List.not_mem_nil, or_false] at hown
  rcases hown with rfl | rfl | rfl
  · exact hself (nameIn_of_not_private hprivate owner)
  · rw [content, nameIn_of_not_private hprivate, if_pos rfl] at harrives
    split at harrives
    · cases harrives
    · cases harrives
  · rw [if_neg (fun hpassed => hpassed.2 rfl)] at harrives
    cases harrives

/-- What is passed arrives under the names of the fields just when these are free. -/
theorem stores_iff {owner : String} (howner : ∃ c ∈ owner.toList, c ≠ '_') {fields : List String}
    (hnodup : fields.Nodup) (hwords : ∀ name ∈ fields, Text.isIdentifier name = true) :
    Stores owner fields ↔ ∀ name ∈ fields, IsFree name :=
  ⟨isFree_of_stores howner, stores_of_isFree hnodup hwords⟩

/-! ## The header -/

/-- The name of a parameter, which stands behind a blank and in front of a colon. -/
def keyword (piece : List Char) : String :=
  .ofList ((piece.drop 1).takeWhile (· ≠ ':'))

/-- The names of the parameters that are passed by name: those behind the object and a star, with
commas between them. -/
def keywords (header : String) : List String :=
  ((Text.pieces (· == ',') header.toList).drop 2).map keyword

theorem keyword_updateParameter {f : QueryField} (h : ':' ∉ f.name.toList) (rest : List Char) :
    keyword (' ' :: ((updateParameter f).toList ++ rest)) = f.name := by
  have hname : ∀ c ∈ f.name.toList, decide (c ≠ ':') = true := by
    intro c hc
    rw [decide_eq_true_iff]
    rintro rfl
    exact h hc
  rw [keyword, List.drop_succ_cons, List.drop_zero, updateParameter, String.append_assoc,
    String.append_assoc, String.toList_append, List.append_assoc,
    List.takeWhile_append_of_pos hname]
  simp

theorem not_mem_updateParameter {f : QueryField} (hname : ',' ∉ f.name.toList)
    (htype : f.type.Comparable) : ',' ∉ (updateParameter f).toList := by
  have hhint := htype.isHint.not_mem (c := ',') (by decide)
  simp [updateParameter, hname, hhint]

theorem map_keyword_parameters {fields : List QueryField} (hne : fields ≠ [])
    (hnames : ∀ f ∈ fields, ',' ∉ f.name.toList ∧ ':' ∉ f.name.toList)
    (htypes : ∀ f ∈ fields, f.type.Comparable) :
    (Text.pieces (· == ',') (' ' :: ((", ".intercalate (fields.map updateParameter)).toList
      ++ ") -> None:".toList))).map keyword = fields.map (·.name) := by
  induction fields with
  | nil => exact absurd rfl hne
  | cons f fields ih =>
    rw [List.forall_mem_cons] at hnames htypes
    have hcomma := not_mem_updateParameter hnames.1.1 htypes.1
    cases fields with
    | nil =>
      have hpiece : ',' ∉ ' ' :: ((updateParameter f).toList ++ ") -> None:".toList) := by
        simp [hcomma]
      rw [List.map_singleton, String.intercalate_singleton, Text.pieces_of_not_mem hpiece,
        List.map_singleton, keyword_updateParameter hnames.1.2, List.map_singleton]
    | cons g fields =>
      have hpiece : ',' ∉ ' ' :: (updateParameter f).toList := by simp [hcomma]
      have hname := keyword_updateParameter hnames.1.2 []
      have hrest := ih (List.cons_ne_nil g fields) hnames.2 htypes.2
      rw [List.append_nil] at hname
      rw [List.map_cons, List.map_cons, String.intercalate_cons_cons, ← List.map_cons,
        String.toList_append, String.toList_append, List.append_assoc, List.append_assoc]
      refine (congrArg _ (Text.pieces_append_cons _ hpiece)).trans ?_
      rw [List.map_cons, hname, List.map_cons]
      exact congrArg _ hrest

theorem toList_header (parameters : String) (rest : List Char) :
    ("def update(self, *, " ++ parameters).toList ++ rest =
      "def update(self".toList ++ ',' :: (" *".toList ++ ',' ::
        (' ' :: (parameters.toList ++ rest))) := by
  have hstart : "def update(self, *, ".toList =
      "def update(self".toList ++ ',' :: (" *".toList ++ ',' :: [' ']) := by decide
  rw [String.toList_append, hstart]
  simp only [List.append_assoc, List.cons_append, List.nil_append]

theorem keywords_updateHeader {fields : List QueryField} (hne : fields ≠ [])
    (hnames : ∀ f ∈ fields, ',' ∉ f.name.toList ∧ ':' ∉ f.name.toList)
    (htypes : ∀ f ∈ fields, f.type.Comparable) :
    keywords (updateHeader fields) = fields.map (·.name) := by
  have hself : ',' ∉ "def update(self".toList := by decide
  have hstar : ',' ∉ " *".toList := by decide
  have hheader : (updateHeader fields).toList = _ :=
    String.toList_append.trans (toList_header _ ") -> None:".toList)
  rw [keywords, hheader, Text.pieces_append_cons _ hself, Text.pieces_append_cons _ hstar,
    List.drop_succ_cons, List.drop_succ_cons, List.drop_zero,
    map_keyword_parameters hne hnames htypes]

/-- Beside that of a parameter, the statements of the body use three names. -/
theorem mem_own_iff {fields : List String} (hne : fields ≠ []) (name : String) :
    (∃ statement ∈ body fields, name ∈ statement.own) ↔ name ∈ ownNames := by
  obtain ⟨field, rest, rfl⟩ := List.exists_cons_of_ne_nil hne
  have hstatement : ∀ statement, statement ∈ body (field :: rest) ↔ statement = .create "data" ∨
      (∃ parameter ∈ field :: rest, .store "data" "_sentinel" parameter = statement) ∨
        statement = .send "self" "data" := by
    intro statement
    rw [body, List.mem_append, List.mem_cons, List.mem_map, List.mem_singleton, or_assoc]
  simp only [hstatement, ownNames, List.mem_cons, List.not_mem_nil, or_false]
  constructor
  · rintro ⟨statement, rfl | ⟨parameter, -, rfl⟩ | rfl, hname⟩
    · exact .inr (.inl (List.mem_singleton.1 hname))
    · exact .inr (by simpa [Statement.own] using hname)
    · have hends : name = "self" ∨ name = "data" := by simpa [Statement.own] using hname
      exact hends.imp_right .inl
  · rintro (rfl | rfl | rfl)
    · exact ⟨.send "self" "data", .inr (.inr rfl), List.mem_cons_self⟩
    · exact ⟨.create "data", .inl rfl, List.mem_cons_self⟩
    · exact ⟨_, .inr (.inl ⟨field, .inl rfl, rfl⟩), List.mem_cons_of_mem _ List.mem_cons_self⟩

end Artifact.Update

/-! ## Updates in a graph -/

open Artifact Update

/-- The names of the fields that queries can use. -/
def Placement.queryNames (p : Placement) : List String :=
  p.collection.queryFields.map (·.name)

/-- The method for updates of a collection, as it stands in the generated class. -/
structure Placement.UpdatesByName (p : Placement) : Prop where
  /-- There is a method just where there are query fields. It has a parameter for each of them, and
  its body writes them into a document, for which it uses three other names. -/
  method : ∃ s, documentReference.script p = .ok s ∧ documentReference.render p = .ok s.render ∧
    ((p.queryNames = [] ∧ definitions updateStart s = []) ∨
      ∃ d, definitions updateStart s = [d] ∧ keywords d.header = p.queryNames ∧
        d.body = (body p.queryNames).flatMap Statement.script ∧
        ∀ name, (∃ statement ∈ body p.queryNames, name ∈ statement.own) ↔ name ∈ ownNames)
  nodup : p.queryNames.Nodup
  /-- What is passed arrives under the names of the fields just when these are free. -/
  stores_iff : (∀ name ∈ p.queryNames, Text.isIdentifier name = true) →
    (Stores p.documentReferenceName p.queryNames ↔ ∀ name ∈ p.queryNames, IsFree name)

theorem NamedCollection.exists_letter (c : NamedCollection) :
    ∃ letter ∈ c.documentReferenceName.toList, letter ≠ '_' :=
  ⟨'D', by simp [documentReferenceName], by decide⟩

theorem Declaration.Yields.updatesByName {d : Declaration} {c : Collection} (h : d.Yields c)
    (hnodup : (c.recordType.members.map (·.name)).Nodup)
    (hnames : ∀ m ∈ c.recordType.members, ',' ∉ m.name.toList ∧ ':' ∉ m.name.toList)
    (cs : List Collection) : (placedIn cs c).UpdatesByName := by
  have hdistinct : (placedIn cs c).queryNames.Nodup := by
    have hsublist : (c.queryFields.map (·.name)).Sublist (c.recordType.members.map (·.name)) := by
      rw [h.queryFields_eq, List.map_map]
      exact List.filter_sublist.map _
    exact hnodup.sublist hsublist
  have hreadable : ∀ f ∈ c.queryFields, ',' ∉ f.name.toList ∧ ':' ∉ f.name.toList := by
    intro f hf
    obtain ⟨m, hm, -, rfl⟩ := h.exists_isQueried hf
    exact hnames m hm
  constructor
  case method =>
    refine ⟨_, rfl, rfl, ?_⟩
    rw [definitions_documentReferenceClass, updates]
    by_cases hfields : c.queryFields = []
    · exact .inl ⟨congrArg (List.map _) hfields, if_pos (List.isEmpty_iff.2 hfields)⟩
    · have hnonempty : c.queryFields.map (·.name) ≠ [] := mt List.map_eq_nil_iff.1 hfields
      refine .inr ⟨_, if_neg (mt List.isEmpty_iff.1 hfields), ?_, updateBody_eq _,
        mem_own_iff hnonempty⟩
      exact keywords_updateHeader hfields hreadable h.comparable
  case nodup => exact hdistinct
  case stores_iff => exact stores_iff (NamedCollection.exists_letter _) hdistinct

/-- Where the members of a record type have different names without commas and colons, which no
identifier has, the method for updates has one parameter for each query field, with different names.
Whatever is passed for them is sent under their names just when these are free: no reserved words,
no names of the body and no private ones. -/
theorem updatesByName_of_builds {mode : Mode} {ds : List Declaration} {g : Graph}
    (h : Builds mode ds g) : ∀ p ∈ g.placements,
      (p.collection.recordType.members.map (·.name)).Nodup →
      (∀ m ∈ p.collection.recordType.members, ',' ∉ m.name.toList ∧ ':' ∉ m.name.toList) →
      p.UpdatesByName := by
  obtain rfl := h.eq_graphOf
  intro p hp hnodup hnames
  obtain ⟨c, hc, rfl⟩ := mem_placements_iff.1 hp
  obtain ⟨d, -, hyields⟩ := exists_yields hc
  exact hyields.updatesByName hnodup hnames (collections ds)

/-- All names in this graph are free, so every update arrives. -/
theorem updatesByName_shelves :
    Builds .collecting shelves (graphOf shelves) ∧
      (graphOf shelves).placements.map (·.queryNames) = [[], ["tags", "pages"]] ∧
      ∀ p ∈ (graphOf shelves).placements,
        (p.collection.recordType.members.map (·.name)).Nodup ∧
        (∀ m ∈ p.collection.recordType.members, ',' ∉ m.name.toList ∧ ':' ∉ m.name.toList) ∧
        p.UpdatesByName ∧ Stores p.documentReferenceName p.queryNames := by
  have h : Builds .collecting shelves (graphOf shelves) := builds_iff.2 ⟨by decide +kernel, rfl⟩
  have hnames : ∀ p ∈ (graphOf shelves).placements,
      (p.collection.recordType.members.map (·.name)).Nodup ∧
      ∀ m ∈ p.collection.recordType.members, ',' ∉ m.name.toList ∧ ':' ∉ m.name.toList := by
    decide +kernel
  have hfree : ∀ p ∈ (graphOf shelves).placements, ∀ name ∈ p.queryNames,
      Text.isIdentifier name = true ∧ IsFree name := by
    decide +kernel
  refine ⟨h, by decide +kernel, fun p hp => ⟨(hnames p hp).1, (hnames p hp).2, ?_⟩⟩
  have hupdates := updatesByName_of_builds h p hp (hnames p hp).1 (hnames p hp).2
  have hstores := hupdates.stores_iff fun name hname => (hfree p hp name hname).1
  exact ⟨hupdates, hstores.2 fun name hname => (hfree p hp name hname).2⟩

/-- A record type with a field that is called like the document in the body of an update. -/
def uploads : List Declaration :=
  [{ path := "uploads"
     recordType := some {
      name := "Upload"
      members := [{ name := "data", type := { kind := .string } }]
      hasStructuralSerializer := true } }]

/-- The parameter is replaced before it is read, so the document is sent with itself under the name
of the field. -/
theorem uploads_not_stored :
    Builds .collecting uploads (graphOf uploads) ∧
      ∃ p ∈ (graphOf uploads).placements,
        (p.collection.recordType.members.map (·.name)).Nodup ∧
        (∀ m ∈ p.collection.recordType.members, Text.isIdentifier m.name = true) ∧
        (definitions updateStart (documentReferenceClass p)).flatMap (keywords ·.header) =
          ["data"] ∧ "data" ∈ ownNames ∧
        (call p.documentReferenceName p.queryNames (.ofList [("data", "text")])).map (·.pairs) =
          some [("data", .document)] ∧
        ¬Stores p.documentReferenceName p.queryNames := by
  have h : Builds .collecting uploads (graphOf uploads) := builds_iff.2 ⟨by decide +kernel, rfl⟩
  have hall : ∀ p ∈ (graphOf uploads).placements,
      (p.collection.recordType.members.map (·.name)).Nodup ∧
      (∀ m ∈ p.collection.recordType.members, Text.isIdentifier m.name = true) ∧
      (definitions updateStart (documentReferenceClass p)).flatMap (keywords ·.header) =
        ["data"] ∧ p.queryNames = ["data"] ∧
      (call p.documentReferenceName p.queryNames (.ofList [("data", "text")])).map (·.pairs) =
        some [("data", .document)] := by
    decide +kernel
  obtain ⟨p, hp⟩ : ∃ p, p ∈ (graphOf uploads).placements :=
    List.exists_mem_of_ne_nil _ (by decide +kernel)
  obtain ⟨hnodup, hnames, hkeywords, hqueries, hcall⟩ := hall p hp
  refine ⟨h, p, hp, hnodup, hnames, hkeywords, by decide, hcall, fun hstores => ?_⟩
  rw [hqueries] at hstores
  exact (isFree_of_stores p.exists_letter hstores "data" List.mem_cons_self).own (by decide)

end CollectionSchema
