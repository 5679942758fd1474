import Mathlib.Data.List.Forall2
import Mathlib.Data.List.Nodup
import Folio.Document.Transform
import Folio.Proofs.Json.Fields

/-! The ids of headings. Ids that an author gave are kept. All ids are distinct exactly if no id
that gets a number is also the name that some heading asks for, be it a given id or a slug: numbers
are counted for each name alone, and are not compared with the other names.
-/

namespace Folio.Document

-----------------------------------------------------------------------------------------
-- What headings ask for
-----------------------------------------------------------------------------------------

def Element.headingId? (e : Element) : Option String :=
  if e.kind.headingLevel?.isSome then (e.attributes.get? "id").bind Json.Value.asString? else none

/-- What a heading asks for: the id that it was given, or an id for its slug. -/
inductive IdRequest where
  | given (id : String)
  | wanted (slug : String)
deriving DecidableEq

def IdRequest.name : IdRequest → String
  | given id => id
  | wanted slug => slug

def IdRequest.given? : IdRequest → Option String
  | given id => some id
  | wanted _ => none

/-- What an element asks for: it has to be a heading, with a string as its id, or without an id and
with a slug.
-/
def Element.idRequest? (e : Element) : Option IdRequest :=
  match e.headingId? with
  | some id => some (.given id)
  | none =>
      let slug := Text.slug (Node.listContent e.children)
      if e.kind.headingLevel?.isNone || e.attributes.has "id" || slug.isEmpty then none
      else some (.wanted slug)

def headingIds (elements : List Element) : List String :=
  elements.filterMap Element.headingId?

def idRequests (elements : List Element) : List IdRequest :=
  elements.filterMap Element.idRequest?

-----------------------------------------------------------------------------------------
-- Numbered names
-----------------------------------------------------------------------------------------

/-- A name with its number; the number zero is not written. -/
def numbered (entry : String × Nat) : String :=
  if entry.2 = 0 then entry.1 else entry.1 ++ "-" ++ toString entry.2

/-- A number is written without dashes. -/
theorem dash_notMem_toDigits (n : Nat) : '-' ∉ Nat.toDigits 10 n := by
  intro member
  exact absurd (Nat.isDigit_of_mem_toDigits (by decide) (by decide) member) (by decide)

/-- Lists that are parted by their last dash have the same parts if they are the same. -/
theorem eq_of_append_dash {a b x y : List Char} (notLeft : '-' ∉ x) (notRight : '-' ∉ y)
    (h : a ++ '-' :: x = b ++ '-' :: y)
    : a = b ∧ x = y := by
  have stop (z : List Char) (c : List Char) (noDash : '-' ∉ z)
      : (z.reverse ++ '-' :: c.reverse).takeWhile (· != '-') = z.reverse := by
    rw [List.takeWhile_append_of_pos, List.takeWhile_cons_of_neg, List.append_nil]
    · decide
    · intro d member
      exact bne_iff_ne.mpr fun same => noDash (same ▸ List.mem_reverse.mp member)
  have reversed : x.reverse ++ '-' :: a.reverse = y.reverse ++ '-' :: b.reverse := by
    simpa using congrArg List.reverse h
  have right : x = y := by
    have front := congrArg (List.takeWhile (· != '-')) reversed
    rwa [stop x a notLeft, stop y b notRight, List.reverse_inj] at front
  subst right
  exact ⟨List.append_cancel_right h, rfl⟩

/-- Names with numbers that are written are told apart. -/
theorem append_number_injective {s t : String} {m n : Nat}
    (h : s ++ "-" ++ toString m = t ++ "-" ++ toString n)
    : s = t ∧ m = n := by
  have chars := congrArg String.toList h
  simp only [String.toList_append, Nat.toString_eq_ofList_toDigits, String.toList_ofList,
    List.append_assoc] at chars
  obtain ⟨names, numbers⟩ :=
    eq_of_append_dash (dash_notMem_toDigits m) (dash_notMem_toDigits n) chars
  refine ⟨String.toList_inj.mp names, ?_⟩
  have read := congrArg (Nat.ofDigitChars 10 · 0) numbers
  simpa only [Nat.ofDigitChars_ten_toDigits] using read

-----------------------------------------------------------------------------------------
-- The numbers that are given out
-----------------------------------------------------------------------------------------

/-- The names that requests get, with their numbers. A given id has no number, and a slug has as its
number how often its name was used before.
-/
def issue (counts : SlugCounts) : List IdRequest → List (String × Nat)
  | [] => []
  | .given id :: rest => (id, 0) :: issue counts rest
  | .wanted slug :: rest =>
      (slug, counts.get slug) :: issue (counts.set slug (counts.get slug + 1)) rest

def IdRequest.count (counts : SlugCounts) : IdRequest → SlugCounts
  | given _ => counts
  | wanted slug => counts.set slug (counts.get slug + 1)

theorem issue_append (counts : SlugCounts) (first later : List IdRequest)
    : issue counts (first ++ later)
      = issue counts first ++ issue (first.foldl IdRequest.count counts) later := by
  induction first generalizing counts with
  | nil => rfl
  | cons request rest ih => cases request <;> simp [issue, IdRequest.count, ih]

@[simp]
theorem SlugCounts.get_set (counts : SlugCounts) (slug other : String) (n : Nat)
    : (counts.set slug n).get other = if slug = other then n else counts.get other := by
  by_cases same : slug = other <;> simp [SlugCounts.set, SlugCounts.get, same]

def wantedCount (slug : String) : List IdRequest → Nat
  | [] => 0
  | .given _ :: rest => wantedCount slug rest
  | .wanted other :: rest => (if other = slug then 1 else 0) + wantedCount slug rest

/-- Numbers are given out without gaps: the first one for a slug is the count of its name, and each
later one is the next. By induction on the requests.
-/
theorem mem_issue {counts : SlugCounts} {requests : List IdRequest} {name : String} {n : Nat}
    : (name, n) ∈ issue counts requests
      ↔ (n = 0 ∧ .given name ∈ requests)
        ∨ (counts.get name ≤ n ∧ n < counts.get name + wantedCount name requests) := by
  induction requests generalizing counts with
  | nil => simp [issue, wantedCount]
  | cons request rest ih =>
      cases request with
      | given id =>
          simp only [issue, wantedCount, List.mem_cons, Prod.mk.injEq, ih, IdRequest.given.injEq]
          grind
      | wanted slug =>
          simp only [issue, wantedCount, List.mem_cons, Prod.mk.injEq, ih, SlugCounts.get_set,
            reduceCtorEq, false_or]
          by_cases same : slug = name
          · subst same
            simp only [if_true, true_and]
            grind
          · simp only [if_neg same, Ne.symm same, false_and, false_or, Nat.zero_add]

/-- No two requests get the same name with the same number, if the given ids are distinct and their
names are counted as used. By induction on the requests.
-/
theorem nodup_issue {counts : SlugCounts} {requests : List IdRequest}
    (distinct : (requests.filterMap IdRequest.given?).Nodup)
    (used : ∀ id, .given id ∈ requests → 0 < counts.get id)
    : (issue counts requests).Nodup := by
  induction requests generalizing counts with
  | nil => exact List.nodup_nil
  | cons request rest ih =>
      have usedLater : ∀ id, .given id ∈ rest → 0 < counts.get id := fun id member =>
        used id (List.mem_cons_of_mem _ member)
      cases request with
      | given id =>
          obtain ⟨absent, later⟩ := List.nodup_cons.mp distinct
          refine List.nodup_cons.mpr ⟨fun again => ?_, ih later usedLater⟩
          rcases mem_issue.mp again with ⟨-, given⟩ | ⟨low, -⟩
          · exact absent (List.mem_filterMap.mpr ⟨_, given, rfl⟩)
          · have := used id List.mem_cons_self
            omega
      | wanted slug =>
          have usedAfter : ∀ id, .given id ∈ rest →
              0 < (counts.set slug (counts.get slug + 1)).get id := by
            intro id member
            have := usedLater id member
            rw [SlugCounts.get_set]
            split <;> omega
          refine List.nodup_cons.mpr ⟨fun again => ?_, ih distinct usedAfter⟩
          rcases mem_issue.mp again with ⟨zero, given⟩ | ⟨low, -⟩
          · have := usedLater slug given
            omega
          · rw [SlugCounts.get_set, if_pos rfl] at low
            omega

/-- How often a name is asked for: as an id that was given, and as a slug. -/
theorem count_name (requests : List IdRequest) (name : String)
    : (requests.map IdRequest.name).count name
      = (requests.filterMap IdRequest.given?).count name + wantedCount name requests := by
  induction requests with
  | nil => rfl
  | cons request rest ih =>
      cases request with
      | given id =>
          simp only [List.map_cons, IdRequest.name, List.count_cons, ih, wantedCount,
            List.filterMap_cons, IdRequest.given?]
          omega
      | wanted slug =>
          simp only [List.map_cons, IdRequest.name, List.count_cons, ih, wantedCount,
            List.filterMap_cons, IdRequest.given?, beq_iff_eq]
          omega

theorem mem_given {requests : List IdRequest} {id : String}
    : id ∈ requests.filterMap IdRequest.given? ↔ .given id ∈ requests := by
  refine ⟨fun member => ?_, fun member => List.mem_filterMap.mpr ⟨_, member, rfl⟩⟩
  obtain ⟨request, member, same⟩ := List.mem_filterMap.mp member
  cases request with
  | given other => exact Option.some.inj same ▸ member
  | wanted slug => cases same

/-- Holds for the counts from which requests are served: the given ids are distinct, each of them is
counted once, and nothing else is.
-/
structure CountsGiven (counts : SlugCounts) (requests : List IdRequest) : Prop where
  distinct : (requests.filterMap IdRequest.given?).Nodup
  counted (name : String) : counts.get name = if .given name ∈ requests then 1 else 0

namespace CountsGiven

variable {counts : SlugCounts} {requests : List IdRequest}

/-- The numbers of a name are those below the count of the requests for it. -/
theorem mem_issue_iff (h : CountsGiven counts requests) {name : String} {n : Nat}
    : (name, n) ∈ issue counts requests ↔ n < (requests.map IdRequest.name).count name := by
  rw [mem_issue, h.counted, count_name]
  by_cases isGiven : .given name ∈ requests
  · rw [if_pos isGiven, List.count_eq_one_of_mem h.distinct (mem_given.mpr isGiven)]
    simp only [isGiven, and_true]
    omega
  · rw [if_neg isGiven, List.count_eq_zero_of_not_mem (mt mem_given.mp isGiven)]
    simp only [isGiven, and_false, false_or]
    omega

/-- A name that got a number was asked for. -/
theorem mem_names (h : CountsGiven counts requests) {name : String} {n : Nat}
    (member : (name, n) ∈ issue counts requests)
    : name ∈ requests.map IdRequest.name :=
  List.count_pos_iff.mp (Nat.zero_lt_of_lt (h.mem_issue_iff.mp member))

/-- The written names are distinct exactly if none of those with a number is asked for. -/
theorem nodup_numbered_iff (h : CountsGiven counts requests)
    : ((issue counts requests).map numbered).Nodup
      ↔ ∀ name n, 0 < n → n < (requests.map IdRequest.name).count name →
          name ++ "-" ++ toString n ∉ requests.map IdRequest.name := by
  have used : ∀ id, .given id ∈ requests → 0 < counts.get id := by
    intro id member
    rw [h.counted, if_pos member]
    exact Nat.one_pos
  rw [List.nodup_map_iff_inj_on (nodup_issue h.distinct used)]
  constructor
  · intro injective name n positive below asked
    have plain : (name ++ "-" ++ toString n, 0) ∈ issue counts requests :=
      h.mem_issue_iff.mpr (List.count_pos_iff.mpr asked)
    have written : numbered (name ++ "-" ++ toString n, 0) = numbered (name, n) := by
      simp [numbered, Nat.ne_of_gt positive]
    have same := injective _ plain _ (h.mem_issue_iff.mpr below) written
    exact Nat.ne_of_gt positive (congrArg Prod.snd same).symm
  · rintro free ⟨s, m⟩ left ⟨t, n⟩ right same
    unfold numbered at same
    rcases Nat.eq_zero_or_pos m with rfl | hm <;> rcases Nat.eq_zero_or_pos n with rfl | hn
    · exact congrArg (·, 0) same
    · rw [if_pos rfl, if_neg (Nat.ne_of_gt hn)] at same
      exact absurd (same ▸ h.mem_names left) (free t n hn (h.mem_issue_iff.mp right))
    · rw [if_neg (Nat.ne_of_gt hm), if_pos rfl] at same
      exact absurd (same ▸ h.mem_names right) (free s m hm (h.mem_issue_iff.mp left))
    · rw [if_neg (Nat.ne_of_gt hm), if_neg (Nat.ne_of_gt hn)] at same
      obtain ⟨rfl, rfl⟩ := append_number_injective same
      rfl

end CountsGiven

-----------------------------------------------------------------------------------------
-- What becomes of a tree
-----------------------------------------------------------------------------------------

/-- The names that headings ask for, as given ids and as slugs. -/
def askedNames (elements : List Element) : List String :=
  (idRequests elements).map IdRequest.name

theorem headingIds_append (elements more : List Element)
    : headingIds (elements ++ more) = headingIds elements ++ headingIds more :=
  List.filterMap_append

theorem idRequests_append (elements more : List Element)
    : idRequests (elements ++ more) = idRequests elements ++ idRequests more :=
  List.filterMap_append

/-- The given ids among requests are the ids of the headings. -/
theorem filterMap_idRequests (elements : List Element)
    : (idRequests elements).filterMap IdRequest.given? = headingIds elements := by
  rw [idRequests, headingIds, List.filterMap_filterMap]
  congr 1
  funext e
  unfold Element.idRequest?
  split
  · next id found => rw [found]; rfl
  · next found =>
      rw [found]
      simp only
      split <;> rfl

mutual

/-- The ids that authors gave the headings are counted once, by induction on the node. -/
theorem get_explicitIds (counts : SlugCounts) (node : Node) (name : String)
    : (Transform.explicitIds counts node).get name
      = if name ∈ headingIds node.elements then 1 else counts.get name := by
  match node with
  | .text t => rfl
  | .element kind key attributes children =>
      have own : Element.headingId? { kind, key, attributes, children }
          = Transform.explicitId? kind attributes :=
        rfl
      simp only [Transform.explicitIds, Node.elements, get_listExplicitIds, headingIds,
        List.filterMap_cons, own]
      cases Transform.explicitId? kind attributes with
      | none => rfl
      | some id =>
          simp only [SlugCounts.get_set, List.mem_cons]
          grind

theorem get_listExplicitIds (counts : SlugCounts) (nodes : List Node) (name : String)
    : (Transform.listExplicitIds counts nodes).get name
      = if name ∈ headingIds (Node.listElements nodes) then 1 else counts.get name := by
  match nodes with
  | [] => rfl
  | node :: rest =>
      simp only [Transform.listExplicitIds, Node.listElements, get_listExplicitIds _ rest,
        get_explicitIds counts node, headingIds, List.filterMap_append, List.mem_append]
      grind

end

/-- Holds for an element and what becomes of it, if it stays what it is and keeps an id that it was
given.
-/
structure Element.KeepsId (before after : Element) : Prop where
  kind : after.kind = before.kind
  key : after.key = before.key
  id : ∀ id, before.headingId? = some id → after.headingId? = some id

/-- What elements become when their requests are served from counts on: they keep given ids, their
ids are those issued, and the counts go on.
-/
structure Served (counts after : SlugCounts) (elements changed : List Element) : Prop where
  kept : List.Forall₂ Element.KeepsId elements changed
  ids : headingIds changed = (issue counts (idRequests elements)).map numbered
  counted : after = (idRequests elements).foldl IdRequest.count counts

/-- Serving elements, and then more of them. -/
theorem Served.append {counts between after : SlugCounts}
    {elements changed more moreChanged : List Element}
    (first : Served counts between elements changed)
    (later : Served between after more moreChanged)
    : Served counts after (elements ++ more) (changed ++ moreChanged) where
  kept := List.rel_append first.kept later.kept
  ids := by
    rw [headingIds_append, idRequests_append, issue_append, List.map_append, first.ids, later.ids,
      first.counted]
  counted := by
    rw [idRequests_append, List.foldl_append, later.counted, first.counted]

/-- Serving an element that asks for no more than the id that it has. -/
theorem served_given (counts : SlugCounts) {before after : Element}
    (kind : after.kind = before.kind) (key : after.key = before.key)
    (id : after.headingId? = before.headingId?)
    (request : before.idRequest? = before.headingId?.map .given)
    : Served counts counts [before] [after] := by
  refine ⟨.cons ⟨kind, key, fun _ given => id.trans given⟩ .nil, ?_, ?_⟩
  · simp only [headingIds, idRequests, List.filterMap_cons, List.filterMap_nil, id, request]
    cases before.headingId? <;> rfl
  · simp only [idRequests, List.filterMap_cons, List.filterMap_nil, request]
    cases before.headingId? <;> rfl

theorem nextId_eq (counts : SlugCounts) (slug : String)
    : Transform.nextId counts slug
      = (numbered (slug, counts.get slug), counts.set slug (counts.get slug + 1)) := by
  by_cases fresh : counts.get slug = 0 <;> simp [Transform.nextId, numbered, fresh]

/-- Serving one element. Nothing changes unless it wants an id for its slug, which it then has. -/
theorem served_withId (counts : SlugCounts) (kind : Kind) (key : Option String)
    (attributes : Attributes) (children after : List Node)
    : Served counts (Transform.withId counts kind attributes children).2
        [{ kind, key, attributes, children }]
        [
          {
            kind
            key
            attributes := (Transform.withId counts kind attributes children).1
            children := after
          }
        ] := by
  let element : Element := { kind, key, attributes, children }
  unfold Transform.withId
  by_cases plain : kind.headingLevel?.isNone || attributes.has "id"
  · have request : element.idRequest? = element.headingId?.map .given := by
      unfold Element.idRequest?
      cases element.headingId? with
      | some id => rfl
      | none => simp [element, plain]
    rw [if_pos plain]
    exact served_given counts rfl rfl rfl request
  · obtain ⟨isHeading, noId⟩ := not_or.mp (mt Bool.or_eq_true_iff.mpr plain)
    have noValue : attributes.get? "id" = none := by
      simpa [Json.Fields.has] using noId
    have before : element.headingId? = none := by
      simp [Element.headingId?, element, noValue]
    have request : element.idRequest?
        = if (Text.slug (Node.listContent children)).isEmpty then none
          else some (.wanted (Text.slug (Node.listContent children))) := by
      simp only [Element.idRequest?, before]
      simp [element, isHeading, noId]
    rw [if_neg plain]
    by_cases noSlug : (Text.slug (Node.listContent children)).isEmpty
    · simp only [if_pos noSlug] at request ⊢
      exact served_given counts rfl rfl rfl (request.trans (before ▸ rfl))
    · simp only [if_neg noSlug, nextId_eq] at request ⊢
      have requests : idRequests [element]
          = [.wanted (Text.slug (Node.listContent children))] :=
        List.filterMap_cons_some request
      have named (id : String) : Element.headingId?
            {
              kind
              key
              attributes := Json.Fields.insert attributes "id" (.string id)
              children := after
            }
          = some id := by
        simp [Element.headingId?, Json.Fields.get?_insert, isHeading, Json.Value.asString?]
      have kept (id : String) (given : element.headingId? = some id) : False := by
        rw [before] at given
        cases given
      refine ⟨.cons ⟨rfl, rfl, fun id given => (kept id given).elim⟩ .nil, ?_, ?_⟩
      · rw [requests]
        exact List.filterMap_cons_some (named _)
      · rw [requests]
        rfl

mutual

/-- Serving a tree, by induction on the node. -/
theorem served_assignIds (counts : SlugCounts) (node : Node)
    : Served counts (Transform.assignIds counts node).2 node.elements
        (Transform.assignIds counts node).1.elements := by
  match node with
  | .text t => exact ⟨.nil, rfl, rfl⟩
  | .element kind key attributes children =>
      exact (served_withId counts kind key attributes children _).append
        (served_listAssignIds _ children)

theorem served_listAssignIds (counts : SlugCounts) (nodes : List Node)
    : Served counts (Transform.listAssignIds counts nodes).2 (Node.listElements nodes)
        (Node.listElements (Transform.listAssignIds counts nodes).1) := by
  match nodes with
  | [] => exact ⟨.nil, rfl, rfl⟩
  | node :: rest => exact (served_assignIds counts node).append (served_listAssignIds _ rest)

end

/-- Ids of headings. Elements stay what they are, and an id that an author gave a heading is kept.
If those are distinct, then all ids are distinct exactly if no name that is asked for is another
one with a number below the count of the requests for that other name.
-/
theorem nodup_headingIds_iff {nodes : List Node}
    (distinct : (headingIds (Node.listElements nodes)).Nodup)
    : List.Forall₂ Element.KeepsId (Node.listElements nodes)
        (Node.listElements (Transform.headingIds.apply nodes))
      ∧ ((headingIds (Node.listElements (Transform.headingIds.apply nodes))).Nodup
        ↔ ∀ name n, 0 < n → n < (askedNames (Node.listElements nodes)).count name →
            name ++ "-" ++ toString n ∉ askedNames (Node.listElements nodes)) := by
  have start : CountsGiven (Transform.listExplicitIds [] nodes)
      (idRequests (Node.listElements nodes)) := by
    refine ⟨(filterMap_idRequests _).symm ▸ distinct, fun name => ?_⟩
    rw [get_listExplicitIds, ← filterMap_idRequests]
    simp only [mem_given]
    rfl
  have served := served_listAssignIds (Transform.listExplicitIds [] nodes) nodes
  refine ⟨served.kept, ?_⟩
  rw [Transform.headingIds, served.ids]
  exact start.nodup_numbered_iff

def titled (text : String) (attributes : Attributes) : Node :=
  .element (.tag "h2") none attributes [.text text]

/-- Two headings of one slug, and between them one that was given this slug as its id. -/
def takenTitle : List Node :=
  [titled "Setup" [], titled "Other" [("id", .string "setup")], titled "Setup" []]

/-- The numbers tell the headings apart, and the given id is kept. -/
theorem nodup_takenTitle
    : (headingIds (Node.listElements takenTitle)).Nodup
      ∧ headingIds (Node.listElements (Transform.headingIds.apply takenTitle))
        = ["setup-1", "setup", "setup-2"]
      ∧ List.Forall₂ Element.KeepsId (Node.listElements takenTitle)
        (Node.listElements (Transform.headingIds.apply takenTitle))
      ∧ ((headingIds (Node.listElements (Transform.headingIds.apply takenTitle))).Nodup
        ↔ ∀ name n, 0 < n → n < (askedNames (Node.listElements takenTitle)).count name →
            name ++ "-" ++ toString n ∉ askedNames (Node.listElements takenTitle)) := by
  have distinct : (headingIds (Node.listElements takenTitle)).Nodup := by decide +kernel
  exact ⟨distinct, by decide +kernel, nodup_headingIds_iff distinct⟩

/-- Two headings of one slug, and a third one whose slug is that slug with a number. -/
def numberedTitle : List Node :=
  [titled "A" [], titled "A" [], titled "A 1" []]

/-- The second and the third heading get the same id. -/
theorem not_nodup_numberedTitle
    : (headingIds (Node.listElements numberedTitle)).Nodup
      ∧ headingIds (Node.listElements (Transform.headingIds.apply numberedTitle))
        = ["a", "a-1", "a-1"]
      ∧ ¬(headingIds (Node.listElements (Transform.headingIds.apply numberedTitle))).Nodup := by
  decide +kernel

end Folio.Document
