import Folio.Text.Blank

/-! Places in a text. A cursor knows the characters on both sides of it and how many stand before
it; the last is its offset.
-/

namespace Folio.Markdown

/-- A place in a text: the characters before it, nearest first, and those after it. -/
structure Cursor where
  before : List Char
  rest : List Char
  offset : Nat
  offset_eq : offset = before.length

namespace Cursor

def ofText (text : List Char) : Cursor :=
  { before := [], rest := text, offset := 0, offset_eq := rfl }

instance : Inhabited Cursor :=
  ⟨ofText []⟩

/-- The place `n` characters further on, or the end of the text. -/
def advance (c : Cursor) : Nat → Cursor
  | 0 => c
  | n + 1 =>
      match c with
      | { before, rest := x :: rest, offset, offset_eq } =>
          advance { before := x :: before, rest, offset := offset + 1,
                    offset_eq := by simp [offset_eq] } n
      | c => c

@[simp]
theorem rest_advance (c : Cursor) (n : Nat) : (c.advance n).rest = c.rest.drop n := by
  induction n generalizing c with
  | zero => simp [advance]
  | succ n ih =>
      obtain ⟨before, rest, offset, h⟩ := c
      cases rest with
      | nil => simp [advance]
      | cons x rest => simp [advance, ih]

/-- Before the end of the text every advance leaves less. -/
theorem length_rest_advance_lt {c : Cursor} {x : Char} {rest : List Char} (h : c.rest = x :: rest)
    (n : Nat)
    : (c.advance (n + 1)).rest.length < c.rest.length := by
  rw [rest_advance, h, List.length_drop, List.length_cons]
  omega

/-- The place `n` characters back, or the start of the text. -/
def back (c : Cursor) : Nat → Cursor
  | 0 => c
  | n + 1 =>
      match c with
      | { before := x :: before, rest, .. } =>
          back { before, rest := x :: rest, offset := before.length, offset_eq := rfl } n
      | c => c

/-- The first character after the place. -/
def peek? (c : Cursor) : Option Char :=
  c.rest.head?

/-- The last character before the place. -/
def previous? (c : Cursor) : Option Char :=
  c.before.head?

/-- The place after the characters that satisfy `p`. -/
def skipWhile (c : Cursor) (p : Char → Bool) : Cursor :=
  c.advance (c.rest.takeWhile p).length

/-- The text from the place to an offset. -/
def textTo (c : Cursor) (stop : Nat) : List Char :=
  c.rest.take (stop - c.offset)

/-- The place at a later offset. -/
def moveTo (c : Cursor) (offset : Nat) : Cursor :=
  c.advance (offset - c.offset)

/-- The same place in the text that ends at an offset. -/
def cutAt (c : Cursor) (stop : Nat) : Cursor :=
  { c with rest := c.textTo stop }

/-- How many of the characters just before the place, back to the offset `start`, satisfy `p`. -/
def countBack (c : Cursor) (start : Nat) (p : Char → Bool) : Nat :=
  ((c.before.take (c.offset - start)).takeWhile p).length

end Cursor

/-- The length of the line end that a text starts with; the end of the text counts as one. -/
def lineEnd? : List Char → Option Nat
  | [] => some 0
  | '\n' :: _ => some 1
  | '\r' :: '\n' :: _ => some 2
  | '\r' :: _ => some 1
  | _ => none

/-- The length of the text through its first line feed, or of the whole text. -/
def lineLength : List Char → Nat
  | [] => 0
  | '\n' :: _ => 1
  | _ :: rest => lineLength rest + 1

/-- The length of the leading blanks. -/
def inlineBlanks (s : List Char) : Nat :=
  (s.takeWhile Text.isInlineBlank).length

/-- The length of a blank line, its line end included, if the text starts with one. -/
def blankLine? (s : List Char) : Option Nat :=
  let n := inlineBlanks s
  (lineEnd? (s.drop n)).map (n + ·)

/-- How often a character is repeated at the start of a text. -/
def runLength (c : Char) (s : List Char) : Nat :=
  (s.takeWhile (· == c)).length

end Folio.Markdown
