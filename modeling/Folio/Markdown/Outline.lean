import Folio.Markdown.Block
import Folio.Markdown.Link

/-! The outline of a document while its lines are read: the blocks that are finished and the
containers that are still open. Lists are closed, continued and made loose here.
-/

namespace Folio.Markdown

/-- What a link definition says. Labels with the same key are the same label. -/
structure LinkDefinition where
  key : List Char
  destination : List Char
  title : List Char
deriving Inhabited

/-- An open container with the blocks in it, last first. -/
structure Frame where
  container : Container
  children : List Block
deriving Inhabited

/-- The outline of the lines read so far. -/
structure Outline where
  /-- Open containers, innermost first. -/
  frames : List Frame := []
  /-- Finished blocks outside all containers, last first. -/
  finished : List Block := []
  /-- The innermost item began with a blank line and has no block yet. -/
  emptyItem : Bool := false
  /-- The line before was blank. -/
  lastBlank : Bool := false
  /-- The box of a task that the next paragraph begins with. -/
  task : Option Bool := none
  /-- Link definitions, last first. -/
  definitions : List LinkDefinition := []
deriving Inhabited

namespace Outline

/-- The open containers, outermost first. -/
def containers (o : Outline) : List Container :=
  (o.frames.map (·.container)).reverse

/-- The last block inside the innermost container. -/
def last? (o : Outline) : Option Block :=
  match o.frames with
  | [] => o.finished.head?
  | frame :: _ => frame.children.head?

/-- Puts a block inside the innermost container. -/
def append (o : Outline) (block : Block) : Outline :=
  match o.frames with
  | [] => { o with finished := block :: o.finished }
  | frame :: outer =>
      { o with frames := { frame with children := block :: frame.children } :: outer }

/-- Takes the last block out of the innermost container. -/
def dropLast (o : Outline) : Outline :=
  match o.frames with
  | [] => { o with finished := o.finished.drop 1 }
  | frame :: outer => { o with frames := { frame with children := frame.children.drop 1 } :: outer }

/-- Opens a container inside the innermost one. -/
def openFrame (o : Outline) (container : Container) (children : List Block) : Outline :=
  { o with frames := { container, children } :: o.frames }

def innermost? (o : Outline) : Option Container :=
  o.frames.head?.map (·.container)

/-- A paragraph of a tight list has no element of its own. -/
def tighten : Block → Block
  | .paragraph _ text => .paragraph true text
  | block => block

/-- Tightens the paragraphs right inside the items and definitions of a list. -/
def tightenItem : Block → Block
  | .item children => .item (children.map tighten)
  | .definition children => .definition (children.map tighten)
  | block => block

/-- Holds for the blocks that belong to a definition list. -/
def isDefinitionPart : Block → Bool
  | .term settled _ => settled
  | .definition _ => true
  | _ => false

/-- A term without a definition is a paragraph after all. -/
def settleTerm : Block → Block
  | .term false text => .paragraph false text
  | block => block

/-- Closes the innermost container. What follows the last definition of a definition list stands
after the list.
-/
def close (o : Outline) : Outline :=
  match o.frames with
  | [] => o
  | { container, children } :: outer =>
      let o := { o with frames := outer }
      let children := children.reverse
      match container with
      | .quote => o.append (.quote children)
      | .item _ => o.append (.item children)
      | .definition _ => o.append (.definition children)
      | .list tight marker start =>
          let ordered := marker == '.' || marker == ')'
          let items := if tight then children.map tightenItem else children
          let o := o.append (.list (if ordered then some start else none) items)
          if tight then { o with emptyItem := false } else o
      | .definitions tight =>
          let parts := children.takeWhile isDefinitionPart
          let rest := (children.dropWhile isDefinitionPart).map settleTerm
          let parts := if tight then parts.map tightenItem else parts
          rest.foldl append { o.append (.definitions parts) with emptyItem := false }

/-- Closes the `n` innermost containers. -/
def closeMany (o : Outline) : Nat → Outline
  | 0 => o
  | n + 1 => closeMany o.close n

def loosen : Container → Container
  | .list _ marker start => .list false marker start
  | .definitions _ => .definitions false
  | container => container

/-- Makes the list loose that contains the innermost container. -/
def loosenOuter (o : Outline) : Outline :=
  match o.frames with
  | frame :: list :: outer =>
      { o with frames := frame :: { list with container := loosen list.container } :: outer }
  | _ => o

/-- Makes the innermost container loose, if it is a list. -/
def loosenInner (o : Outline) : Outline :=
  match o.frames with
  | list :: outer => { o with frames := { list with container := loosen list.container } :: outer }
  | _ => o

/-- Closes an item that began with a blank line when a second one follows. -/
def finishEmptyItem (o : Outline) : Outline :=
  let o :=
    if o.emptyItem && o.lastBlank then
      match o.innermost? with
      | some (.item _) | some (.definition _) => o.close
      | _ => o
    else o
  { o with emptyItem := false }

/-- Closes the innermost container if it is a list. After a blank line, the list around the
innermost container is loose.
-/
def finishList (o : Outline) : Outline :=
  let o := o.finishEmptyItem
  let o :=
    match o.innermost? with
    | some (.list _ _ _) | some (.definitions _) => o.close
    | _ => o
  if o.lastBlank then { o.loosenOuter with lastBlank := false } else o

/-- Goes on with the innermost list if its marker is the same, or starts a new list. -/
def continueList (o : Outline) (marker : Char) (start : Nat) : Outline :=
  let o := o.finishEmptyItem
  let fresh (o : Outline) : Outline :=
    { o.openFrame (.list true marker start) [] with lastBlank := false }
  match o.innermost? with
  | some (.list _ existing _) =>
      if existing == marker then
        if o.lastBlank then { o.loosenInner with lastBlank := false } else o
      else fresh o.finishList
  | some _ => fresh o.finishList
  | none => fresh o

/-- Starts a definition after a paragraph, a term or another definition; none after any other
block.
-/
def startDefinition? (o : Outline) (indent : Nat) : Option Outline :=
  let opened (o : Outline) : Outline :=
    let o := if o.lastBlank then o.loosenInner else o
    o.openFrame (.definition indent) []
  match o.last? with
  | some (.paragraph _ text) =>
      some (opened (o.dropLast.openFrame (.definitions true) [.term true text]))
  | some (.term _ text) => some (opened (o.dropLast.append (.term true text)))
  | some (.definition _) => some (opened o)
  | _ => none

/-- Notes a blank line. It says nothing about a block quote; after it an item that began with a
blank line no longer goes on, so its indentation no longer counts.
-/
def noteBlankLine (o : Outline) : Outline :=
  let o' := { o with lastBlank := true }
  match o.frames with
  | { container := .quote, .. } :: _ => o
  | { container := .item _, children } :: outer =>
      if o.emptyItem then { o' with frames := { container := .item 0, children } :: outer } else o'
  | { container := .definition _, children } :: outer =>
      if o.emptyItem then { o' with frames := { container := .definition 0, children } :: outer }
      else o'
  | _ => o'

/-- The blocks of the document, when all containers are closed. -/
def blocks (o : Outline) : List Block :=
  (o.closeMany o.frames.length).finished.reverse

end Outline

end Folio.Markdown
