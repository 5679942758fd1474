import Folio.Proofs.Document.Pieces
import Folio.Proofs.Document.Prelude

/-! The lines that errors report are lines of the body. The tree that is built keeps the line of
each element that is open, for an error that may come later.
-/

namespace Folio.Document

def CompileError.line? : CompileError → Option Nat
  | .invalidNames _ => none
  | .unresolvedImport _ line | .unknownComponent _ line | .mismatchedTag _ _ line
  | .unclosedTag _ line | .unexpectedClosingTag _ line | .invalidAttribute _ _ line => some line

def IsLineOf (count line : Nat) : Prop :=
  1 ≤ line ∧ line ≤ count

/-- Holds for computations that end with `P`, or fail with an error that reports one of the first
lines.
-/
def EndsWithin {α : Type} (count : Nat) (P : α → Prop) : Except CompileError α → Prop
  | .ok value => P value
  | .error error => ∃ line, error.line? = some line ∧ IsLineOf count line

def Builder.Within (count : Nat) (b : Builder) : Prop :=
  ∀ e ∈ b.stack, IsLineOf count e.line

variable {count : Nat}

theorem EndsWithin.bind {α β : Type} {P : α → Prop} {Q : β → Prop}
    {first : Except CompileError α} {next : α → Except CompileError β}
    (h : EndsWithin count P first) (later : ∀ value, P value → EndsWithin count Q (next value))
    : EndsWithin count Q (first >>= next) := by
  cases first with
  | error error => exact h
  | ok value => exact later value h

theorem endsWithin_error {α : Type} {P : α → Prop} {error : CompileError} {line : Nat}
    (same : error.line? = some line) (h : IsLineOf count line)
    : EndsWithin count P (.error error) :=
  ⟨line, same, h⟩

-----------------------------------------------------------------------------------------
-- Markdown
-----------------------------------------------------------------------------------------

theorem line_heading (level : Nat) (a : Markdown.HeadingAttributes) (line : Nat)
    : (Builder.heading level a line).line = line := by
  have attributes (entries : List (String × Option String)) (e : OpenElement)
      : (entries.foldl
          (fun e entry => e.with entry.1 ((entry.2.map Json.Value.string).getD (.bool true)))
            e).line = e.line := by
    induction entries generalizing e with
    | nil => rfl
    | cons entry rest ih => exact ih _
  refine (attributes a.attributes _).trans ?_
  cases a.id <;> split <;> rfl

/-- What a construct opens starts on its line, by cases on the construct. -/
theorem line_opened (t : TablePlace) (c : Markdown.Construct) (line : Nat)
    : ∀ e ∈ t.opened c line, e.line = line := by
  have link (name target : String) (destination title : List Char)
      : (Builder.linkElement name target destination title line).line = line := by
    unfold Builder.linkElement
    split <;> rfl
  have one {e : OpenElement} (h : e.line = line) : ∀ x ∈ [e], x.line = line :=
    List.forall_mem_singleton.mpr h
  cases c with
  | html => exact List.forall_mem_nil _
  | heading level a => exact one (line_heading level a line)
  | link destination title => exact one (link _ _ _ _)
  | image destination title => exact one (link _ _ _ _)
  | tableHead => exact List.forall_mem_cons.mpr ⟨rfl, one rfl⟩
  | code info =>
      simp only [TablePlace.opened, Builder.enter]
      split <;> exact List.forall_mem_cons.mpr ⟨rfl, one rfl⟩
  | list start => rcases start with _ | _ | _ | n <;> exact one rfl
  | tableCell =>
      simp only [TablePlace.opened, Builder.enter]
      split <;> exact one rfl
  | _ => exact one rfl

namespace Builder.Within

variable {b : Builder}

/-- The innermost element is on one of the lines, and the others are without it. -/
theorem cons (h : b.Within count) {e : OpenElement} {outer : List OpenElement}
    (open_ : b.stack = e :: outer)
    : IsLineOf count e.line ∧ Builder.Within count { b with stack := outer } := by
  rw [Builder.Within, open_] at h
  exact List.forall_mem_cons.mp h

theorem push (h : b.Within count) (node : Node) : (b.push node).Within count := by
  unfold Builder.push
  split
  · exact h
  · next e outer open_ =>
      obtain ⟨here, below⟩ := h.cons open_
      exact List.forall_mem_cons.mpr ⟨here, below⟩

theorem openElement (h : b.Within count) {e : OpenElement} (here : IsLineOf count e.line)
    : (b.openElement e).Within count :=
  List.forall_mem_cons.mpr ⟨here, h⟩

/-- Opening a construct adds elements on its line. -/
theorem enter (h : b.Within count) (c : Markdown.Construct) {line : Nat}
    (here : IsLineOf count line)
    : (b.enter c line).Within count := by
  let t : TablePlace :=
    { inHead := b.inTableHead, alignments := b.alignments, column := b.column }
  have body : (b.openBody c line).Within count := by
    unfold Builder.openBody
    split
    · exact h.openElement here
    · exact h
  have stack
      : (b.enter c line).stack = t.opened c line ++ (b.openBody c line).stack :=
    congrArg Builder.stack (Builder.enter_at b t c line)
  rw [Builder.Within, stack]
  refine List.forall_mem_append.mpr ⟨fun e member => ?_, body⟩
  rw [line_opened t c line e member]
  exact here

theorem closeMarkdown (h : b.Within count)
    : EndsWithin count (Builder.Within count) b.closeMarkdown := by
  unfold Builder.closeMarkdown
  split
  · exact h
  · next e outer open_ =>
      obtain ⟨here, rest⟩ := h.cons open_
      split
      · exact endsWithin_error rfl here
      · exact rest.push e.node

theorem closeImage (h : b.Within count)
    : EndsWithin count (Builder.Within count) b.closeImage := by
  unfold Builder.closeImage
  split
  · exact h
  · next e outer open_ =>
      obtain ⟨here, rest⟩ := h.cons open_
      split
      · exact endsWithin_error rfl here
      · exact rest.push _

/-- Closing a construct fails on the line of a tag that is open in it. -/
theorem leave (h : b.Within count) (c : Markdown.Construct)
    : EndsWithin count (Builder.Within count) (b.leave c) := by
  have twice (b : Builder) (h : b.Within count)
      : EndsWithin count (Builder.Within count) (b.closeMarkdown >>= Builder.closeMarkdown) :=
    h.closeMarkdown.bind fun _ inner => inner.closeMarkdown
  unfold Builder.leave
  split
  · exact h
  · exact twice b h
  · exact twice { b with inTableHead := false } h
  · exact closeMarkdown (b := { b with column := b.column + 1 }) h
  · have ended (body : Builder) (inner : body.Within count)
        : EndsWithin count (Builder.Within count)
            ({ body with alignments := [] } : Builder).closeMarkdown :=
      closeMarkdown (b := { body with alignments := [] }) inner
    simp only
    split
    · exact h.closeMarkdown.bind ended
    · exact ended b h
  · exact h.closeImage
  · exact h.closeMarkdown

end Builder.Within

-----------------------------------------------------------------------------------------
-- Markup
-----------------------------------------------------------------------------------------

/-- Attributes do not move an element, by induction on them. -/
theorem endsWithin_addAttributes {line : Nat} (h : IsLineOf count line)
    (attributes : List (List Char × Markup.AttributeValue)) (e : OpenElement)
    : EndsWithin count (fun added => added.line = e.line)
        (Builder.addAttributes e line attributes) := by
  induction attributes generalizing e with
  | nil => rfl
  | cons entry rest ih =>
      unfold Builder.addAttributes
      simp only
      split
      · exact endsWithin_error rfl h
      · split
        · split
          · exact ih _
          · exact ih _
          · exact endsWithin_error rfl h
        · exact ih _

/-- The element of a tag is on the line of the tag. -/
theorem endsWithin_tagElement (names : List String) (name : String)
    (attributes : List (List Char × Markup.AttributeValue)) {line : Nat} (h : IsLineOf count line)
    : EndsWithin count (fun e => e.line = line)
        (Builder.tagElement names name attributes line) := by
  unfold Builder.tagElement
  simp only
  split
  · exact endsWithin_addAttributes h attributes _
  · split
    · exact endsWithin_addAttributes h attributes _
    · exact endsWithin_error rfl h

namespace Builder.Within

variable {b : Builder}

theorem closeTag (h : b.Within count) (name : String) {line : Nat} (here : IsLineOf count line)
    : EndsWithin count (Builder.Within count) (b.closeTag name line) := by
  have stray
      : EndsWithin count (Builder.Within count)
          (if Html.voidTags.contains name then .ok b
            else .error (.unexpectedClosingTag name line)) := by
    split
    · exact h
    · exact endsWithin_error rfl here
  unfold Builder.closeTag
  simp only
  split
  · exact stray
  · next e outer open_ =>
      split
      · exact stray
      · split
        · exact (h.cons open_).2.push e.node
        · exact endsWithin_error rfl here

theorem token (h : b.Within count) (names : List String) (t : Markup.Token) {line : Nat}
    (here : IsLineOf count line)
    : EndsWithin count (Builder.Within count) (b.token names t line) := by
  unfold Builder.token
  split
  · exact h.push _
  · exact h.closeTag _ here
  · refine (endsWithin_tagElement names _ _ here).bind fun e same => ?_
    split
    · exact h.push _
    · exact h.openElement (same ▸ here)

variable {source : Source} (lines : ∀ offset, IsLineOf count (source.lineAt offset))

include lines

/-- Taking the tokens of a markup in, by induction on the tokens. -/
theorem markup (h : b.Within count) (offset : Nat) (tokens : List Markup.Placed)
    : EndsWithin count (Builder.Within count) (Builder.markup source offset b tokens) := by
  induction tokens generalizing b with
  | nil => exact h
  | cons t rest ih => exact (h.token source.names t.token (lines _)).bind fun _ inner => ih inner

theorem event (h : b.Within count) (e : Markdown.Placed)
    : EndsWithin count (Builder.Within count) (Builder.event source b e) := by
  unfold Builder.event
  split
  · exact h.enter _ (lines _)
  · exact h.leave _
  · exact h.push _
  · exact h.push _
  · exact h.markup lines _ _
  · exact h.push _
  · exact h.push _
  · exact h.push _
  · exact h.push _

/-- Taking the events of a document in, by induction on the events. -/
theorem run (h : b.Within count) (events : List Markdown.Placed)
    : EndsWithin count (Builder.Within count) (Builder.run source b events) := by
  induction events generalizing b with
  | nil => exact h
  | cons e rest ih => exact (h.event lines e).bind fun _ inner => ih inner

end Builder.Within

/-- A tree is built, or fails on one of the lines of its source. -/
theorem endsWithin_build {source : Source}
    (lines : ∀ offset, IsLineOf count (source.lineAt offset)) (events : List Markdown.Placed)
    : EndsWithin count (fun _ => True) (Builder.build source events) := by
  have start : Builder.Within count {} := List.forall_mem_nil _
  refine (start.run lines events).bind fun b inner => ?_
  unfold Builder.finish
  split
  · trivial
  · next e outer open_ => exact endsWithin_error rfl (inner.cons open_).1

-----------------------------------------------------------------------------------------
-- Bodies
-----------------------------------------------------------------------------------------

/-- A body has one more line than it has line feeds. -/
theorem endsWithin_parseBody (names : List String) (body : List Char)
    : EndsWithin (1 + body.count '\n') (fun _ => True) (parseBody names body) := by
  cases readAlike names 0 0 0 (Text.linesWithEnds body) with
  | fails name before line rest split alone _ =>
      have feeds := Text.count_feed_linesWithEnds split (List.cons_ne_nil line rest)
      have text : body = before.flatten ++ (line :: rest).flatten := by
        rw [← List.flatten_append, ← split, Text.flatten_linesWithEnds]
      have inside : IsLineOf (1 + body.count '\n') (0 + before.length + 1) := by
        rw [text, List.count_append, feeds]
        exact ⟨by omega, by omega⟩
      rw [parseBody, alone]
      exact endsWithin_error rfl inside
  | skips before rest split alone _ =>
      rw [parseBody, alone]
      by_cases last : rest = []
      · simp only [bind, Except.bind, last, List.flatten_nil, events_joinTags_nil]
        trivial
      · have feeds := Text.count_feed_linesWithEnds split last
        have text : body = before.flatten ++ rest.flatten := by
          rw [← List.flatten_append, ← split, Text.flatten_linesWithEnds]
        refine endsWithin_build (fun offset => ?_) _
        have some_ := (List.take_sublist offset rest.flatten).count_le '\n'
        rw [text, List.count_append, feeds]
        simp only [Source.lineAt, Nat.zero_add]
        exact ⟨by omega, by omega⟩

/-- Names are only at fault where they are declared: whatever is wrong in a body is on a line of it.
-/
theorem compile_eq_invalidNames_iff {transforms : List Transform} {body : String}
    {names : List String} {fault : NameFault}
    : compile transforms body names = .error (.invalidNames fault)
      ↔ nameFault? names = some fault := by
  cases found : nameFault? names with
  | some other =>
      simp only [compile, found, Option.some.injEq]
      exact ⟨fun same => CompileError.invalidNames.inj (Except.error.inj same), by rintro rfl; rfl⟩
  | none =>
      rw [compile_eq_error_iff found]
      refine iff_of_false (fun failed => ?_) (fun same => by cases same)
      have parsed := endsWithin_parseBody names body.toList
      rw [failed] at parsed
      obtain ⟨line, reported, -⟩ := parsed
      cases reported

end Folio.Document
