import Folio.Document.Syntax
import Folio.Text.Lines
import Folio.Text.Slug

/-! Transforms of the syntax tree. Any rewriting can be one; two of them come with the compiler:
headings without an id get one, and links to other sites open in a window of their own.
-/

namespace Folio.Document

/-- A rewriting of the syntax tree, which depends on nothing else. -/
structure Transform where
  apply : List Node → List Node

/-- How often each slug was used in a document. -/
abbrev SlugCounts :=
  List (String × Nat)

/-- How often a slug was used. -/
def SlugCounts.get (counts : SlugCounts) (slug : String) : Nat :=
  ((counts.find? fun entry => entry.1 == slug).map (·.2)).getD 0

/-- Sets how often a slug was used. -/
def SlugCounts.set (counts : SlugCounts) (slug : String) (n : Nat) : SlugCounts :=
  (slug, n) :: counts

namespace Transform

/-- The id that an author gave a heading. -/
def explicitId? (kind : Kind) (attributes : Attributes) : Option String :=
  if kind.headingLevel?.isSome then (attributes.get? "id").bind Json.Value.asString? else none

mutual

/-- Notes the ids that authors gave the headings in a node. -/
def explicitIds (counts : SlugCounts) : Node → SlugCounts
  | .text _ => counts
  | .element kind _ attributes children =>
      let counts := match explicitId? kind attributes with
        | some id => counts.set id 1
        | none => counts
      listExplicitIds counts children

/-- Notes the ids that authors gave the headings in nodes. -/
def listExplicitIds (counts : SlugCounts) : List Node → SlugCounts
  | [] => counts
  | node :: rest => listExplicitIds (explicitIds counts node) rest

end

/-- The id of the next heading with a slug. The first one has the slug itself, later ones add a
number.
-/
def nextId (counts : SlugCounts) (slug : String) : String × SlugCounts :=
  let n := counts.get slug
  (if n == 0 then slug else slug ++ "-" ++ toString n, counts.set slug (n + 1))

/-- The attributes of an element with an id, if it is a heading that lacks one and has a slug. -/
def withId (counts : SlugCounts) (kind : Kind) (attributes : Attributes) (children : List Node)
    : Attributes × SlugCounts :=
  if kind.headingLevel?.isNone || attributes.has "id" then (attributes, counts)
  else
    let slug := Text.slug (Node.listContent children)
    if slug.isEmpty then (attributes, counts)
    else
      let (id, counts) := nextId counts slug
      (attributes.insert "id" (.string id), counts)

mutual

def assignIds (counts : SlugCounts) : Node → Node × SlugCounts
  | .text t => (.text t, counts)
  | .element kind key attributes children =>
      let (attributes, counts) := withId counts kind attributes children
      let (children, counts) := listAssignIds counts children
      (.element kind key attributes children, counts)

def listAssignIds (counts : SlugCounts) : List Node → List Node × SlugCounts
  | [] => ([], counts)
  | node :: rest =>
      let (node, counts) := assignIds counts node
      let (rest, counts) := listAssignIds counts rest
      (node :: rest, counts)

end

/-- Holds for the addresses of other sites. -/
def isExternal (address : String) : Bool :=
  Text.startsWith "http://".toList address.toList
    || Text.startsWith "https://".toList address.toList

/-- The attributes of an element, which opens a window of its own if it is a link to another
site.
-/
def markedAttributes (kind : Kind) (attributes : Attributes) : Attributes :=
  if kind != .tag "a" then attributes
  else
    match (attributes.get? "href").bind Json.Value.asString? with
    | some address =>
        if isExternal address then
          (attributes.insertNew "target" (.string "_blank")).insertNew "rel"
            (.string "nofollow noopener noreferrer")
        else attributes
    | none => attributes

mutual

/-- Marks the links to other sites in a node. -/
def markExternal : Node → Node
  | .text t => .text t
  | .element kind key attributes children =>
      .element kind key (markedAttributes kind attributes) (listMarkExternal children)

/-- Marks the links to other sites in nodes. -/
def listMarkExternal : List Node → List Node
  | [] => []
  | node :: rest => markExternal node :: listMarkExternal rest

end

/-- Gives an id to the headings that lack one. -/
def headingIds : Transform where
  apply nodes := (listAssignIds (listExplicitIds [] nodes) nodes).1

/-- Makes the links to other sites open in a window of their own. -/
def externalLinks : Transform where
  apply nodes := listMarkExternal nodes

/-- Rewrites a tree by one transform after the other. -/
def applyAll (transforms : List Transform) (nodes : List Node) : List Node :=
  transforms.foldl (fun nodes transform => transform.apply nodes) nodes

/-- The transforms of a compiler that was given none of its own. -/
def standard : List Transform :=
  [headingIds, externalLinks]

end Transform

end Folio.Document
