import Folio.Content.LogicalPath
import Folio.Text.Blank
import Folio.Tree.Built

/-! The table of contents of a page, and the content that is shown under it. -/

namespace Folio.Site

open Content (LogicalPath)
open Folio.Tree (Built Kind Node Props)

/-- An entry of a table of contents: where it leads, its level, and its text. -/
structure TocEntry where
  url : String
  depth : Nat
  text : String
deriving DecidableEq, Inhabited

namespace TocEntry

/-- The entry for the top of a page. -/
def overview : TocEntry :=
  { url := "#", depth := 2, text := "Overview" }

def node (e : TocEntry) : Built :=
  .map [("depth", .number (.ofUInt32 (UInt32.ofNat e.depth))), ("text", .string e.text),
    ("url", .string e.url)]

end TocEntry

/-- The level of the headings that a table of contents lists. -/
def tocDepth? : Kind → Option Nat
  | .tag "h2" => some 2
  | .tag "h3" => some 3
  | _ => none

/-- The entry of an element, if it is a heading with an id. -/
def tocEntry? (kind : Kind) (props : Props Kind) : Option TocEntry := do
  let depth ← tocDepth? kind
  let id ← props.string? "id"
  let text := String.ofList (Text.trim (Built.childrenText props).toList)
  return { url := "#" ++ id, depth, text }

mutual

/-- The entries of the headings in a node, in order. In a heading that has an entry there are none.
-/
def headings : Built → List TocEntry
  | .list items => headingsOf items
  | .element kind _ props =>
      match tocEntry? kind props with
      | some entry => [entry]
      | none => childHeadings props
  | _ => []

/-- The entries of the headings in nodes. -/
def headingsOf : List Built → List TocEntry
  | [] => []
  | node :: rest => headings node ++ headingsOf rest

/-- The entries of the headings in the children among properties. -/
def childHeadings : List (String × Built) → List TocEntry
  | [] => []
  | (name, node) :: rest => if name = Tree.childrenProp then headings node else childHeadings rest

end

/-- The entries of a page. The top of the page comes first, unless there is no heading. -/
def tocEntries (root : Built) : List TocEntry :=
  match headings root with
  | [] => []
  | entries => TocEntry.overview :: entries

/-- A page in two parts. -/
structure Processed where
  toc : Built
  children : Built

/-- Parts the tree of a page. -/
abbrev Postprocess :=
  LogicalPath → Built → Processed

def isBlankNode : Built → Bool
  | .string s => Text.isAllBlank s.toList
  | _ => false

/-- The tree as a group without blank strings among its children. -/
def contentGroup (root : Built) : Built :=
  let group (key : Option String) (children : List Built) : Built :=
    .element .grouping key (Props.withChildren [] (children.filter (!isBlankNode ·)))
  match root with
  | .element _ key props => group key (Props.children props)
  | node => group none [node]

/-- Lists the headings, save for the root of the site, and groups the content. -/
def withToc : Postprocess := fun path root =>
  { toc := .list (if path.isRoot then [] else (tocEntries root).map TocEntry.node)
    children := contentGroup root }

/-- Keeps the tree as it is, without any table of contents. -/
def untouched : Postprocess := fun _ root =>
  { toc := .null, children := root }

end Folio.Site
