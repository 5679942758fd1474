import Folio.Proofs.Chain
import Folio.Proofs.Document.Brackets

/-! The tree of a document is built from its sequence of brackets alone: where it is in its tables
only decides which elements a construct opens.
-/

namespace Folio.Document

open Markdown (Placed Construct Event)

-----------------------------------------------------------------------------------------
-- Adding pieces to a tree
-----------------------------------------------------------------------------------------

namespace Builder

def openAll (b : Builder) (elements : List OpenElement) : Builder :=
  { b with stack := elements ++ b.stack }

/-- Opens the body of a table for a row that stands in the table itself. -/
def openBody (b : Builder) (c : Construct) (line : Nat) : Builder :=
  if c = .tableRow ∧ b.isInside "table" = true then b.openElement (.markdown "tbody" line) else b

def closeTwice (b : Builder) : Except CompileError Builder :=
  b.closeMarkdown >>= closeMarkdown

def closeBody (b : Builder) : Except CompileError Builder :=
  if b.isInside "tbody" then b.closeMarkdown else .ok b

def close (b : Builder) : Construct → Except CompileError Builder
  | .html => .ok b
  | .code _ | .tableHead => b.closeTwice
  | .table _ => b.closeBody >>= closeMarkdown
  | .image _ _ => b.closeImage
  | _ => b.closeMarkdown

def isInTag (b : Builder) : Bool :=
  b.stack.head?.any OpenElement.isTag

theorem exists_of_isInTag {b : Builder} (h : b.isInTag = true)
    : ∃ e outer, b.stack = e :: outer ∧ e.isTag = true := by
  unfold isInTag at h
  cases stack : b.stack with
  | nil => simp [stack] at h
  | cons e outer => exact ⟨e, outer, rfl, by simpa [stack] using h⟩

/-- A closing tag outside of tags is skipped or out of place. -/
theorem closeTag_outside {b : Builder} (h : b.isInTag = false) {name : String} {line : Nat}
    : b.closeTag name line
      = if Html.voidTags.contains name then .ok b
        else .error (.unexpectedClosingTag name line) := by
  unfold isInTag at h
  unfold closeTag
  cases stack : b.stack with
  | nil => rfl
  | cons e outer =>
      have notTag : e.isTag = false := by simpa [stack] using h
      simp only [notTag, Bool.not_false, if_true]

/-- A closing tag inside a tag closes it or has the wrong name. -/
theorem closeTag_inside {b : Builder} {e : OpenElement} {outer : List OpenElement}
    (stack : b.stack = e :: outer) (isTag : e.isTag = true) {name : String} {line : Nat}
    : b.closeTag name line
      = if e.kind.name = name then .ok (({ b with stack := outer } : Builder).push e.node)
        else .error (.mismatchedTag e.kind.name name line) := by
  unfold closeTag
  simp only [stack, isTag, Bool.not_true, Bool.false_eq_true, if_false, beq_iff_eq]

def take (b : Builder) : Piece → Except CompileError Builder
  | .node node => .ok (b.push node)
  | .enter c t line => .ok ((b.openBody c line).openAll (t.opened c line))
  | .leave c => b.close c
  | .opening tag => .ok (b.openElement tag.opened)
  | .closing name line => b.closeTag name line

def takeAll : Builder → List Piece → Except CompileError Builder
  | b, [] => .ok b
  | b, piece :: rest => b.take piece >>= fun b => takeAll b rest

def tree (pieces : List Piece) : Except CompileError (List Node) :=
  takeAll {} pieces >>= finish

theorem takeAll_singleton (b : Builder) (piece : Piece)
    : b.takeAll [piece] = b.take piece :=
  bind_pure (b.take piece)

theorem takeAll_append (b : Builder) (before after : List Piece)
    : b.takeAll (before ++ after) = b.takeAll before >>= fun b => b.takeAll after := by
  induction before generalizing b with
  | nil => rfl
  | cons piece rest ih => simp only [List.cons_append, takeAll, bind_assoc, ih]

-----------------------------------------------------------------------------------------
-- The place in tables is beside the tree
-----------------------------------------------------------------------------------------

section Place

variable (b : Builder) (t : TablePlace)

@[simp]
theorem stack_at
    : (b.at t).stack = b.stack :=
  rfl

theorem push_at (node : Node)
    : (b.at t).push node = (b.push node).at t := by
  unfold push
  rw [stack_at]
  split <;> rfl

theorem isInside_at (name : String)
    : (b.at t).isInside name = b.isInside name :=
  rfl

theorem openBody_of_ne {c : Construct} (h : c ≠ .tableRow) (line : Nat)
    : b.openBody c line = b :=
  if_neg fun both => h both.1

/-- The elements of a construct are opened inside what is open, a row of a table in its body. -/
theorem enter_at (c : Construct) (line : Nat)
    : (b.at t).enter c line = ((b.openBody c line).openAll (t.opened c line)).at (t.enter c) := by
  cases c with
  | tableRow =>
      by_cases inside : b.isInside "table" = true
      · rw [openBody, if_pos ⟨rfl, inside⟩]
        simp only [enter, isInside_at, inside, if_true]
        rfl
      · rw [openBody, if_neg fun both => inside both.2]
        simp only [enter, isInside_at, inside]
        rfl
  | code info =>
      rw [openBody_of_ne b (by simp)]
      simp only [TablePlace.opened, enter]
      split <;> rfl
  | list start =>
      obtain ⟨e, -, entered⟩ := enter_list start line
      rw [openBody_of_ne b (by simp), TablePlace.opened, entered, entered]
      rfl
  | tableCell =>
      rw [openBody_of_ne b (by simp)]
      simp only [TablePlace.opened, enter, Builder.at]
      split <;> rfl
  | _ =>
      rw [openBody_of_ne b (by simp)]
      rfl

theorem closeMarkdown_at
    : (b.at t).closeMarkdown = b.closeMarkdown.map (·.at t) := by
  unfold closeMarkdown
  rw [stack_at]
  split
  · rfl
  · next e outer _ =>
      cases e.isTag
      · exact congrArg Except.ok (push_at { b with stack := outer } t e.node)
      · rfl

theorem closeImage_at
    : (b.at t).closeImage = b.closeImage.map (·.at t) := by
  unfold closeImage
  rw [stack_at]
  split
  · rfl
  · next e outer _ =>
      cases e.isTag
      · exact congrArg Except.ok (push_at { b with stack := outer } t _)
      · rfl

theorem closeTag_at (name : String) (line : Nat)
    : (b.at t).closeTag name line = (b.closeTag name line).map (·.at t) := by
  cases isTag : b.isInTag with
  | false =>
      rw [closeTag_outside isTag, closeTag_outside (b := b.at t) isTag]
      split <;> rfl
  | true =>
      obtain ⟨e, outer, stack, tag⟩ := exists_of_isInTag isTag
      rw [closeTag_inside stack tag, closeTag_inside (b := b.at t) stack tag]
      split
      · exact congrArg Except.ok (push_at { b with stack := outer } t e.node)
      · rfl

theorem closeTwice_at
    : (b.at t).closeTwice = b.closeTwice.map (·.at t) := by
  unfold closeTwice
  rw [closeMarkdown_at]
  cases b.closeMarkdown with
  | error _ => rfl
  | ok closed => exact closeMarkdown_at closed t

theorem closeBody_at
    : (b.at t).closeBody = b.closeBody.map (·.at t) := by
  unfold closeBody
  rw [isInside_at]
  split
  · exact closeMarkdown_at b t
  · rfl

theorem leave_at (c : Construct)
    : (b.at t).leave c = (b.close c).map (·.at (t.leave c)) := by
  cases c with
  | html => rfl
  | image _ _ => exact closeImage_at b t
  | tableCell => exact closeMarkdown_at b (t.leave .tableCell)
  | code _ => exact closeTwice_at b t
  | tableHead => exact closeTwice_at b (t.leave .tableHead)
  | table alignments =>
      have body : (b.at t).leave (.table alignments)
          = (b.at t).closeBody >>= fun b : Builder =>
              ({ b with alignments := [] } : Builder).closeMarkdown := by
        simp only [leave, closeBody]
        split <;> rfl
      rw [body, closeBody_at, close]
      cases b.closeBody with
      | error _ => rfl
      | ok closed => exact closeMarkdown_at closed (t.leave (.table alignments))
  | _ => exact closeMarkdown_at b t

end Place

-----------------------------------------------------------------------------------------
-- A document is built from its pieces
-----------------------------------------------------------------------------------------

/-- Valid attributes are added to an element, and only its attributes and its key change. -/
theorem addAttributes_eq_ok {attributes : List (List Char × Markup.AttributeValue)}
    (valid : attributes.all isValidAttribute = true) (e : OpenElement) (line : Nat)
    : ∃ key values, addAttributes e line attributes = .ok { e with key, attributes := values } := by
  induction attributes generalizing e with
  | nil => exact ⟨e.key, e.attributes, rfl⟩
  | cons entry rest ih =>
      obtain ⟨name, written⟩ := entry
      obtain ⟨first, others⟩ := Bool.and_eq_true_iff.mp valid
      unfold isValidAttribute at first
      unfold addAttributes
      cases read : attributeValue written with
      | error fault => simp [read] at first
      | ok value =>
          simp only [read] at first ⊢
          by_cases isKeyName : String.ofList name = "key"
          · have key : isKey value = true := by simpa [isKeyName] using first
            rw [isKeyName]
            cases value with
            | string s => exact ih others { e with key := some s }
            | number n => exact ih others { e with key := some (String.ofList n.text) }
            | _ => cases key
          · rw [if_neg (by simpa using isKeyName)]
            exact ih others (e.with (String.ofList name) value)

/-- A valid tag opens an element. -/
theorem tagElement_eq_ok {names : List String} {name : List Char}
    {attributes : List (List Char × Markup.AttributeValue)} {selfClosing : Bool}
    (valid : isValidToken names (.opening name attributes selfClosing) = true) (line : Nat)
    : ∃ tag : Tag, tagElement names (String.ofList name) attributes line = .ok tag.opened := by
  obtain ⟨named, validAttributes⟩ := Bool.and_eq_true_iff.mp valid
  unfold tagElement
  rw [String.toList_ofList]
  split
  · obtain ⟨key, values, added⟩ := addAttributes_eq_ok validAttributes
      (Tag.opened ⟨.tag (String.ofList name), none, [], line⟩) line
    exact ⟨⟨_, key, values, line⟩, added⟩
  · next notLower =>
      rw [if_pos (by simpa [notLower] using named)]
      obtain ⟨key, values, added⟩ := addAttributes_eq_ok validAttributes
        (Tag.opened ⟨.component (String.ofList name), none, [], line⟩) line
      exact ⟨⟨_, key, values, line⟩, added⟩

/-- A valid token is one piece, which is a closing tag only if the token is. -/
theorem exists_tokenPieces {names : List String} {token : Markup.Token}
    (valid : isValidToken names token = true) (line : Nat)
    : ∃ piece, tokenPieces names line token = [piece]
        ∧ ∀ name place, piece = .closing name place → token = .closing name.toList := by
  cases token with
  | text text => exact ⟨_, rfl, fun _ _ => nofun⟩
  | closing name =>
      refine ⟨_, rfl, fun other place same => ?_⟩
      obtain ⟨rfl, -⟩ := Piece.closing.inj same
      rw [String.toList_ofList]
  | opening name attributes selfClosing =>
      obtain ⟨tag, read⟩ := tagElement_eq_ok valid line
      rw [tokenPieces, read]
      simp only
      split
      · exact ⟨_, rfl, fun _ _ => nofun⟩
      · exact ⟨_, rfl, fun _ _ => nofun⟩

section Place

variable {source : Source} (b : Builder) (t : TablePlace)

/-- A valid token adds its pieces. -/
theorem token_at {names : List String} {token : Markup.Token}
    (valid : isValidToken names token = true) (line : Nat)
    : Builder.token names (b.at t) token line
      = (b.takeAll (tokenPieces names line token)).map (·.at t) := by
  cases token with
  | text text => exact congrArg Except.ok (push_at b t _)
  | closing name =>
      rw [tokenPieces, takeAll_singleton]
      exact closeTag_at b t (String.ofList name) line
  | opening name attributes selfClosing =>
      obtain ⟨tag, read⟩ := tagElement_eq_ok valid line
      simp only [Builder.token, tokenPieces, read]
      split
      · rw [takeAll_singleton]
        exact congrArg Except.ok (push_at b t tag.opened.node)
      · rw [takeAll_singleton]
        rfl

theorem markup_at {offset : Nat} {tokens : List Markup.Placed}
    (valid : tokens.all (fun t => isValidToken source.names t.token) = true)
    : markup source offset (b.at t) tokens
      = (b.takeAll (tokens.flatMap fun token =>
          tokenPieces source.names (source.lineAt (offset + token.offset)) token.token)).map
            (·.at t) := by
  induction tokens generalizing b with
  | nil => rfl
  | cons token rest ih =>
      obtain ⟨first, others⟩ := Bool.and_eq_true_iff.mp valid
      rw [markup, token_at b t first, List.flatMap_cons, takeAll_append]
      cases b.takeAll (tokenPieces source.names _ token.token) with
      | error _ => rfl
      | ok b => exact ih b others

/-- An event adds its pieces. -/
theorem event_at {e : Placed} (valid : hasValidTags source.names e.event = true)
    : event source (b.at t) e
      = (b.takeAll (eventPieces source t e)).map (·.at (t.after e.event)) := by
  obtain ⟨event, offset⟩ := e
  cases event with
  | enter c =>
      by_cases isHtml : c = .html
      · subst isHtml
        rfl
      · rw [eventPieces_enter isHtml, takeAll_singleton]
        exact congrArg Except.ok (enter_at b t c (source.lineAt offset))
  | leave c =>
      by_cases isHtml : c = .html
      · subst isHtml
        rfl
      · rw [eventPieces_leave isHtml, takeAll_singleton]
        exact leave_at b t c
  | html text => exact markup_at b t valid
  | _ => exact congrArg Except.ok (push_at b t _)

/-- The events of a document add their pieces, by induction on the events. -/
theorem run_at {events : List Placed}
    (valid : ∀ e ∈ events, hasValidTags source.names e.event = true)
    : ∃ u, run source (b.at t) events = (b.takeAll (pieces source t events)).map (·.at u) := by
  induction events generalizing b t with
  | nil => exact ⟨t, rfl⟩
  | cons e rest ih =>
      obtain ⟨first, others⟩ := List.forall_mem_cons.mp valid
      rw [run, event_at b t first, pieces, takeAll_append]
      cases b.takeAll (eventPieces source t e) with
      | error _ => exact ⟨t, rfl⟩
      | ok b => exact ih b (t.after e.event) others

/-- The tree of a document is that of its pieces. -/
theorem build_eq_tree {events : List Placed}
    (valid : ∀ e ∈ events, hasValidTags source.names e.event = true)
    : build source events = tree (pieces source {} events) := by
  obtain ⟨u, same⟩ := run_at {} {} valid
  have built : build source events = run source (({} : Builder).at {}) events >>= finish := rfl
  rw [built, same, tree]
  cases takeAll {} (pieces source {} events) <;> rfl

end Place

-----------------------------------------------------------------------------------------
-- Documents that have a tree
-----------------------------------------------------------------------------------------

/-- Attributes that can be added are valid, by induction on them. -/
theorem all_isValidAttribute {e e' : OpenElement} {line : Nat}
    {attributes : List (List Char × Markup.AttributeValue)}
    (added : addAttributes e line attributes = .ok e')
    : attributes.all isValidAttribute = true := by
  induction attributes generalizing e with
  | nil => rfl
  | cons entry rest ih =>
      obtain ⟨name, written⟩ := entry
      unfold addAttributes at added
      rw [List.all_cons, Bool.and_eq_true]
      cases read : attributeValue written with
      | error fault => simp [read] at added
      | ok value =>
          simp only [read] at added
          unfold isValidAttribute
          by_cases isKeyName : String.ofList name = "key"
          · rw [isKeyName] at added
            cases value with
            | string s => exact ⟨by simp [read, isKey], ih added⟩
            | number n => exact ⟨by simp [read, isKey], ih added⟩
            | _ => cases added
          · rw [if_neg (by simpa using isKeyName)] at added
            exact ⟨by simp [read, isKeyName], ih added⟩

/-- A token that can be taken in is valid. -/
theorem isValidToken_of_token {names : List String} {b b' : Builder} {t : Markup.Token} {line : Nat}
    (taken : b.token names t line = .ok b')
    : isValidToken names t = true := by
  cases t with
  | text text => rfl
  | closing name => rfl
  | opening name attributes selfClosing =>
      obtain ⟨e, opened, -⟩ := bind_eq_ok.mp taken
      unfold tagElement at opened
      rw [String.toList_ofList] at opened
      rw [isValidToken, Bool.and_eq_true, Bool.or_eq_true]
      simp only at opened
      split at opened
      · next lower => exact ⟨.inl lower, all_isValidAttribute opened⟩
      · split at opened
        · next known => exact ⟨.inr known, all_isValidAttribute opened⟩
        · cases opened

theorem valid_of_markup {source : Source} {offset : Nat} {b b' : Builder}
    {tokens : List Markup.Placed} (taken : markup source offset b tokens = .ok b')
    : tokens.all (fun t => isValidToken source.names t.token) = true := by
  induction tokens generalizing b with
  | nil => rfl
  | cons t rest ih =>
      obtain ⟨between, first, later⟩ := bind_eq_ok.mp taken
      exact Bool.and_eq_true_iff.mpr ⟨isValidToken_of_token first, ih later⟩

/-- All tags of a document that has a tree are valid, by induction on the events. -/
theorem valid_of_build {source : Source} {events : List Placed} {nodes : List Node}
    (built : build source events = .ok nodes)
    : ∀ e ∈ events, hasValidTags source.names e.event = true := by
  obtain ⟨last, ran, -⟩ := bind_eq_ok.mp built
  clear built
  generalize ({} : Builder) = b at ran
  induction events generalizing b with
  | nil => exact List.forall_mem_nil _
  | cons e rest ih =>
      obtain ⟨between, first, later⟩ := bind_eq_ok.mp ran
      refine List.forall_mem_cons.mpr ⟨?_, ih between later⟩
      obtain ⟨event, offset⟩ := e
      cases event with
      | html text => exact valid_of_markup first
      | _ => rfl

end Builder

end Folio.Document
