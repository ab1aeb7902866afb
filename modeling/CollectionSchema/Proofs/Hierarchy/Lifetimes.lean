import CollectionSchema.Proofs.Hierarchy.Attachments

/-!
# Lifetimes of linked collections

A collection owns its children, but it does not own its parent: a parent may die, and then its
children have none, while they still remember that they were attached. `Population` is a hierarchy
in which some of the collections have died. `Run` makes populations out of creations, attachments of
any living collection to any other or to itself, and deaths, in whatever order; what dies must not
be a child of anything that stays alive. Every step keeps `Linked`: both memories tell of the
attachments that succeeded, and the living own none but the living. From this follows that parents
and children of the living agree in every population (`consistent_of_run`).
-/

namespace CollectionSchema

/-- A hierarchy in which some collections have died. What they remember is of no use any more. -/
structure Population where
  hierarchy : Hierarchy := {}
  dead : List Nat := []

namespace Population

def isLive (w : Population) (i : Nat) : Bool :=
  decide (i < w.hierarchy.entries.length) && !w.dead.contains i

def children (w : Population) (p : Nat) : List Nat :=
  w.hierarchy.links.children p

/-- The parent that a collection remembers, if it still lives. -/
def parent? (w : Population) (c : Nat) : Option Nat :=
  (w.hierarchy.links.owner? c).filter w.isLive

def create (w : Population) (c : Collection) : Population :=
  { w with hierarchy := w.hierarchy.add c }

/-- A call to attach `c` to `p`. -/
def attach (p c : Nat) : Work Population Unit :=
  Work.within (·.hierarchy) (fun w h => { w with hierarchy := h }) (Hierarchy.attach p c)

/-- The population after a call to attach, also after one that fails. -/
def afterAttach (w : Population) (p c : Nat) : Population :=
  ((attach p c).ends w).1

/-- What a call to attach `c` to `p` adds to the attachments that succeeded. -/
def attachment (w : Population) (p c : Nat) : List (Nat × Nat) :=
  match ((attach p c).ends w).2 with
  | .ok () => [(p, c)]
  | .error _ => []

def bury (w : Population) (those : List Nat) : Population :=
  { w with dead := w.dead ++ those }

/-- Some living collections that no other living one has as a child. -/
def Unowned (w : Population) (those : List Nat) : Prop :=
  (∀ i ∈ those, w.isLive i = true) ∧
    ∀ p, w.isLive p = true → ∀ c ∈ w.children p, c ∈ those → p ∈ those

/-- A population that creations, calls to attach and deaths lead to, with the attachments that
succeeded, in order. What dies at once need not be a single collection, because collections may own
each other in a circle. -/
inductive Run : Population → List (Nat × Nat) → Prop
  | start : Run {} []
  | create {w made} (c : Collection) : Run w made → Run (w.create c) made
  | attach {w made p c} : Run w made → w.isLive p = true → w.isLive c = true →
      Run (w.afterAttach p c) (made ++ w.attachment p c)
  | bury {w made those} : Run w made → w.Unowned those → Run (w.bury those) made

/-! ## What every step keeps -/

variable {w : Population} {made : List (Nat × Nat)} {p q c : Nat}

theorem isLive_iff {i : Nat} :
    w.isLive i = true ↔ i < w.hierarchy.entries.length ∧ i ∉ w.dead := by
  simp [isLive]

theorem length_create (w : Population) (c : Collection) :
    w.hierarchy.entries.length ≤ (w.create c).hierarchy.entries.length := by
  simp [create, Hierarchy.add]

theorem isLive_create {i : Nat} {c : Collection} (h : i < w.hierarchy.entries.length) :
    (w.create c).isLive i = w.isLive i := by
  have hafter := Nat.lt_of_lt_of_le h (w.length_create c)
  rw [Bool.eq_iff_iff, isLive_iff, isLive_iff, and_iff_right h, and_iff_right hafter]
  rfl

theorem isLive_bury {those : List Nat} {i : Nat} :
    (w.bury those).isLive i = true ↔ w.isLive i = true ∧ i ∉ those := by
  rw [isLive_iff, isLive_iff, bury, List.mem_append, not_or, and_assoc]

/-- The population after both writes of an attachment. -/
def linked (w : Population) (p c : Nat) : Population :=
  { w with hierarchy := { w.hierarchy with links := w.hierarchy.links.attached (p, c) } }

theorem ends_attach_of_free (p : Nat) (h : w.hierarchy.links.owner? c = none) :
    (attach p c).ends w = (w.linked p c, .ok ()) := by
  obtain ⟨hstate, hvalue⟩ := Prod.mk.inj (Hierarchy.ends_attach_of_free p h)
  simp only [Work.ends, attach, Work.within, hstate, hvalue, linked]

theorem ends_attach_of_owned (p : Nat) (h : w.hierarchy.links.owner? c = some q) :
    (attach p c).ends w = (w, .error (.alreadyAttached ((w.hierarchy.pathOf? c).getD ""))) := by
  obtain ⟨hstate, hvalue⟩ := Prod.mk.inj (Hierarchy.ends_attach_of_owned p h)
  simp only [Work.ends, attach, Work.within, hstate, hvalue]

/-- What holds of the links of a population, after the attachments `made`. -/
structure Linked (w : Population) (made : List (Nat × Nat)) : Prop where
  records : w.hierarchy.links.Records made
  owner_lt : ∀ pair ∈ made, pair.1 < w.hierarchy.entries.length
  dead_lt : ∀ i ∈ w.dead, i < w.hierarchy.entries.length
  /-- The living keep their children alive. -/
  owned : ∀ pair ∈ made, w.isLive pair.1 = true → w.isLive pair.2 = true

namespace Linked

theorem mem_children_iff (h : w.Linked made) : c ∈ w.children p ↔ (p, c) ∈ made := by
  rw [children, h.records.children_eq]
  simp

theorem parent?_eq_some_iff (h : w.Linked made) :
    w.parent? c = some p ↔ (p, c) ∈ made ∧ w.isLive p = true := by
  rw [parent?, Option.filter_eq_some_iff, h.records.owner?_eq_some_iff]

theorem create (h : w.Linked made) (c : Collection) : (w.create c).Linked made where
  records := h.records
  owner_lt pair hpair := Nat.lt_of_lt_of_le (h.owner_lt pair hpair) (w.length_create c)
  dead_lt i hi := Nat.lt_of_lt_of_le (h.dead_lt i hi) (w.length_create c)
  owned pair hpair hlive := by
    -- The owner was there before, so it is not the one that was created.
    rw [isLive_create (h.owner_lt pair hpair)] at hlive
    have hchild := h.owned pair hpair hlive
    rwa [isLive_create (isLive_iff.1 hchild).1]

theorem attach (h : w.Linked made) (hp : w.isLive p = true) (hc : w.isLive c = true) :
    (w.afterAttach p c).Linked (made ++ w.attachment p c) := by
  unfold afterAttach attachment
  cases howner : w.hierarchy.links.owner? c with
  | some q =>
    rw [ends_attach_of_owned p howner, List.append_nil]
    exact h
  | none =>
    rw [ends_attach_of_free p howner]
    constructor
    case records => exact h.records.attach howner
    case owner_lt =>
      intro pair hpair
      rcases List.mem_append.1 hpair with hold | hnew
      · exact h.owner_lt pair hold
      · rw [List.mem_singleton.1 hnew]
        exact (isLive_iff.1 hp).1
    case dead_lt => exact h.dead_lt
    case owned =>
      intro pair hpair hlive
      rcases List.mem_append.1 hpair with hold | hnew
      · exact h.owned pair hold hlive
      · rw [List.mem_singleton.1 hnew]
        exact hc

theorem bury (h : w.Linked made) {those : List Nat} (hthose : w.Unowned those) :
    (w.bury those).Linked made where
  records := h.records
  owner_lt := h.owner_lt
  dead_lt i hi := by
    rcases List.mem_append.1 hi with hdead | hi
    · exact h.dead_lt i hdead
    · exact (isLive_iff.1 (hthose.1 i hi)).1
  owned pair hpair hlive := by
    obtain ⟨hbefore, howner⟩ := isLive_bury.1 hlive
    refine isLive_bury.2 ⟨h.owned pair hpair hbefore, fun hchild => howner ?_⟩
    exact hthose.2 pair.1 hbefore pair.2 (h.mem_children_iff.2 hpair) hchild

end Linked

theorem Run.linked (h : Run w made) : w.Linked made := by
  induction h with
  | start => exact ⟨.empty, by simp, by simp, by simp⟩
  | create c _ ih => exact ih.create c
  | attach _ hp hc ih => exact ih.attach hp hc
  | bury _ hthose ih => exact ih.bury hthose

/-! ## What the living see -/

/-- What a call to attach does to the links of a population, after the attachments `made`. -/
structure Attaches (w : Population) (made : List (Nat × Nat)) (p c : Nat) : Prop where
  /-- What was ever attached is refused, even if that parent has died. -/
  refuses_iff : (∃ e, ((attach p c).ends w).2 = .error e) ↔ ∃ q, (q, c) ∈ made
  refused : ∀ e, ((attach p c).ends w).2 = .error e → w.afterAttach p c = w ∧
    ∃ entry, w.hierarchy.entries[c]? = some entry ∧
      e = .alreadyAttached entry.collection.pathText
  attached : ((attach p c).ends w).2 = .ok () →
    (∀ q, (w.afterAttach p c).children q = w.children q ++ if p = q then [c] else []) ∧
    ∀ d, (w.afterAttach p c).parent? d = if c = d then some p else w.parent? d

/-- The links of a population, after the attachments `made`, as far as the living can tell. -/
structure Consistent (w : Population) (made : List (Nat × Nat)) : Prop where
  mem_children_iff : ∀ p c, w.isLive p = true → w.isLive c = true →
    (c ∈ w.children p ↔ w.parent? c = some p)
  children_nodup : ∀ p, w.isLive p = true → (w.children p).Nodup
  owner_unique : ∀ p q c, w.isLive p = true → w.isLive q = true → c ∈ w.children p →
    c ∈ w.children q → p = q
  children_live : ∀ p c, w.isLive p = true → c ∈ w.children p → w.isLive c = true
  /-- The children are in the order in which they were attached. -/
  children_eq : ∀ p, w.isLive p = true → w.children p = (made.filter (·.1 = p)).map (·.2)
  parent?_eq : ∀ p c, w.isLive c = true →
    (w.parent? c = some p ↔ (p, c) ∈ made ∧ w.isLive p = true)
  attaches : ∀ p c, w.isLive p = true → w.isLive c = true → w.Attaches made p c

theorem Linked.attaches (h : w.Linked made) (hp : w.isLive p = true) (hc : w.isLive c = true) :
    w.Attaches made p c := by
  cases howner : w.hierarchy.links.owner? c with
  | some q =>
    have hends := ends_attach_of_owned p howner
    have hmade := (h.records.owner?_eq_some_iff q c).1 howner
    obtain ⟨entry, hentry⟩ : ∃ entry, w.hierarchy.entries[c]? = some entry :=
      ⟨_, List.getElem?_eq_getElem (isLive_iff.1 hc).1⟩
    constructor
    case refuses_iff => exact iff_of_true ⟨_, congrArg Prod.snd hends⟩ ⟨q, hmade⟩
    case refused =>
      intro e he
      rw [hends] at he
      refine ⟨congrArg Prod.fst hends, entry, hentry, ?_⟩
      rw [← Except.error.inj he, Hierarchy.pathOf?, hentry]
      rfl
    case attached =>
      intro hok
      rw [hends] at hok
      cases hok
  | none =>
    have hends := ends_attach_of_free p howner
    have hafter : w.afterAttach p c = w.linked p c := congrArg Prod.fst hends
    constructor
    case refuses_iff =>
      refine iff_of_false (fun ⟨e, he⟩ => ?_) fun ⟨q, hq⟩ => ?_
      · rw [hends] at he
        cases he
      · rw [(h.records.owner?_eq_some_iff q c).2 hq] at howner
        cases howner
    case refused =>
      intro e he
      rw [hends] at he
      cases he
    case attached =>
      intro _
      rw [hafter]
      refine ⟨fun q => ?_, fun d => ?_⟩
      · exact (Links.children_addChild _ p c q).trans (by rw [Links.children_setOwner]; rfl)
      · have hsame : (w.linked p c).isLive = w.isLive := rfl
        rw [parent?, parent?, hsame, linked, Links.attached, Links.owner?_addChild,
          Links.owner?_setOwner]
        by_cases hd : c = d
        · simp [hd, Option.filter, hp]
        · simp [hd]

theorem Linked.consistent (h : w.Linked made) : w.Consistent made := by
  constructor
  case mem_children_iff =>
    intro p c hp _
    rw [h.mem_children_iff, h.parent?_eq_some_iff, and_iff_left hp]
  case children_nodup =>
    intro p _
    rw [children, h.records.children_eq]
    exact h.records.nodup.sublist (List.filter_sublist.map _)
  case owner_unique =>
    intro p q c hp hq hcp hcq
    have hparent := h.parent?_eq_some_iff.2 ⟨h.mem_children_iff.1 hcp, hp⟩
    rw [h.parent?_eq_some_iff.2 ⟨h.mem_children_iff.1 hcq, hq⟩] at hparent
    exact (Option.some.inj hparent).symm
  case children_live => exact fun p c hp hmem => h.owned (p, c) (h.mem_children_iff.1 hmem) hp
  case children_eq => exact fun p _ => h.records.children_eq p
  case parent?_eq => exact fun p c _ => h.parent?_eq_some_iff
  case attaches => exact fun p c hp hc => h.attaches hp hc

/-- Whatever is created, attached and buried, the links are consistent. -/
theorem consistent_of_run (h : Run w made) : w.Consistent made :=
  h.linked.consistent

/-- A collection at a path of one segment. -/
def sample (path : String) : Collection where
  recordType := { name := "Movie" }
  path := { raw := path, segments := [⟨path, .literal⟩] }
  codec := ⟨"Movie", .derived, .derived⟩
  name := path

/-- The first of three collections is attached to itself and the second to the first, which then
dies. -/
def widowed : Population :=
  ((((((({} : Population).create (sample "shows")).create (sample "movies")).create
    (sample "people")).afterAttach 0 0).afterAttach 0 1).bury [0])

theorem consistent_widowed :
    Run widowed [(0, 0), (0, 1)] ∧ widowed.isLive 1 = true ∧ widowed.parent? 1 = none ∧
      ((attach 2 1).ends widowed).2 = .error (.alreadyAttached "movies") ∧
      widowed.Consistent [(0, 0), (0, 1)] := by
  have hcreated := ((Run.start.create (sample "shows")).create (sample "movies")).create
    (sample "people")
  have hattached := (hcreated.attach (p := 0) (c := 0) (by decide) (by decide)).attach
    (p := 0) (c := 1) (by decide) (by decide)
  have h : Run widowed [(0, 0), (0, 1)] := by
    refine hattached.bury ⟨by decide, fun p hp c hmem _ => ?_⟩
    have hlt : p < 3 := (isLive_iff.1 hp).1
    match p with
    | 0 => exact List.mem_singleton_self 0
    | 1 | 2 => cases hmem
  exact ⟨h, by decide, by decide, rfl, consistent_of_run h⟩

end Population

end CollectionSchema
