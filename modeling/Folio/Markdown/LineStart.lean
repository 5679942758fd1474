import Folio.Markdown.Cursor

/-! The start of a line: indentation, and the markers of lists, quotes, tasks and definitions. A tab
reaches to the next multiple of four columns, so that a part of it may be left over.
-/

namespace Folio.Markdown

/-- The length of a thematic break, line end included, if the text starts with one. -/
def thematicBreak? (s : List Char) : Option Nat :=
  match s with
  | [] => none
  | c :: _ =>
      if c == '*' || c == '-' || c == '_' then
        let body := s.takeWhile fun x => x == c || x == ' ' || x == '\t'
        match lineEnd? (s.drop body.length) with
        | some n => if body.count c ≥ 3 then some (body.length + n) else none
        | none => none
      else none

/-- A place near the start of a line: `width` counts the characters since the last tab or the start
of the line, and `spare` the columns of a tab that were not used.
-/
structure LineStart where
  cursor : Cursor
  width : Nat
  spare : Nat

namespace LineStart

def ofCursor (cursor : Cursor) : LineStart :=
  { cursor, width := 0, spare := 0 }

def skip (l : LineStart) : LineStart :=
  { l with cursor := l.cursor.advance 1, width := l.width + 1 }

/-- Takes up to `n` columns of blanks; gives the columns that were lacking. -/
def takeBlanks (l : LineStart) (n : Nat) : Nat × LineStart :=
  let used := min l.spare n
  go (n - used) { l with spare := l.spare - used }
where
  go : Nat → LineStart → Nat × LineStart
    | 0, l => (0, l)
    | n + 1, l =>
        match l.cursor.rest with
        | ' ' :: _ => go n l.skip
        | '\t' :: _ =>
            go (n + 1 - min (4 - l.width % 4) (n + 1))
              { cursor := l.cursor.advance 1,
                width := 0,
                spare := 4 - l.width % 4 - min (4 - l.width % 4) (n + 1) }
        | _ => (n + 1, l)
  termination_by n => n
  decreasing_by all_goals omega

/-- Takes `n` columns of blanks, or as many as there are; tells whether there were `n`. -/
def blanks (l : LineStart) (n : Nat) : Bool × LineStart :=
  let (lacking, l) := l.takeBlanks n
  (lacking == 0, l)

/-- Takes up to `n` columns of blanks and tells how many there were. -/
def blanksUpTo (l : LineStart) (n : Nat) : Nat × LineStart :=
  let (lacking, l) := l.takeBlanks n
  (n - lacking, l)

def allBlanks (l : LineStart) : LineStart :=
  let n := (l.cursor.rest.takeWhile fun c => c == ' ' || c == '\t').length
  { cursor := l.cursor.advance n, width := l.width + n, spare := 0 }

/-- Holds at the end of a line or of the text. -/
def atEnd (l : LineStart) : Bool :=
  (lineEnd? l.cursor.rest).isSome

/-- Takes a character, if it stands here. -/
def char? (l : LineStart) (c : Char) : Option LineStart :=
  if l.cursor.peek? == some c then some l.skip else none

/-- Takes the marker of a block quote and the blank after it. -/
def quoteMarker? (l : LineStart) : Option LineStart :=
  (l.char? '>').map fun l => (l.blanks 1).2

/-- Takes the blanks after a marker, which deepen the indentation unless there are more than three
or nothing else follows.
-/
def afterMarker (l : LineStart) (indent : Nat) : Nat × LineStart :=
  if (blankLine? l.cursor.rest).isSome then (indent, l)
  else
    let (n, after) := l.blanksUpTo 4
    if n < 4 then (indent + n, after) else (indent, l)

/-- Takes the digits and the delimiter of an ordered list: at most nine digits. -/
private def ordinal? (s : List Char) : Option (Char × Nat × Nat) :=
  let digits := s.takeWhile Char.isDigit
  let n := digits.length
  match s.drop n with
  | c :: _ =>
      if 1 ≤ n && n ≤ 9 && (c == '.' || c == ')') then
        some (c, digits.foldl (fun v d => v * 10 + (d.toNat - 48)) 0, n + 1)
      else none
  | [] => none

/-- Takes a list marker that stands `outer` columns in: its character, the number of an ordered
list, and the indentation of what belongs to the item.
-/
def listMarker? (l : LineStart) (outer : Nat) : Option (Char × Nat × Nat × LineStart) :=
  match l.cursor.rest with
  | [] => none
  | c :: _ =>
      if c == '-' || c == '+' || c == '*' then
        if (thematicBreak? l.cursor.rest).isSome then none
        else
          let (one, after) := l.skip.blanks 1
          if one || after.atEnd then
            let (indent, after) := after.afterMarker (outer + 2)
            some (c, 0, indent, after)
          else none
      else
        match ordinal? l.cursor.rest with
        | none => none
        | some (delimiter, number, length) =>
            let marked :=
              { cursor := l.cursor.advance length, width := l.width + length, spare := l.spare }
            let (one, after) := LineStart.blanks marked 1
            if one || after.atEnd then
              let (indent, after) := after.afterMarker (outer + length + 1)
              some (delimiter, number, indent, after)
            else none

/-- Takes the marker of a definition: the indentation of what belongs to it. -/
def definitionMarker? (l : LineStart) (outer : Nat) : Option (Nat × LineStart) :=
  match l.char? ':' with
  | none => none
  | some l =>
      let (one, after) := l.blanks 1
      if one || after.atEnd then some (after.afterMarker (outer + 2)) else none

/-- Takes the box of a task and tells whether it is ticked. -/
def taskMarker? (l : LineStart) : Option (Bool × LineStart) :=
  let l := (l.blanksUpTo 3).2
  match l.cursor.rest with
  | '[' :: mark :: ']' :: after =>
      let ticked? : Option Bool :=
        if Text.isInlineBlank mark then some false
        else if mark == 'x' || mark == 'X' then some true
        else none
      match ticked?, after with
      | some ticked, c :: _ =>
          if Text.isAsciiBlank c then some (ticked, l.skip.skip.skip) else none
      | _, _ => none
  | _ => none

/-- The kinds of alert that a block quote may name, in lower case. -/
def alertKinds : List (List Char) :=
  ["note", "tip", "important", "warning", "caution"].map String.toList

/-- Takes the line that makes a block quote an alert. -/
def alertTag? (l : LineStart) : Option LineStart :=
  match l.cursor.rest with
  | '[' :: '!' :: s =>
      alertKinds.findSome? fun kind =>
        let n := kind.length
        if (s.take n).map Char.toLower == kind && (s.drop n).head? == some ']' then
          (blankLine? (s.drop (n + 1))).map fun m =>
            { l with cursor := l.cursor.advance (n + 3 + m) }
        else none
  | _ => none

end LineStart

end Folio.Markdown
