import Folio.Markdown.Reference
import Folio.Markdown.Cursor
import Folio.Text.CaseFold

/-! The parts of links: destinations, titles, labels and autolinks. -/

namespace Folio.Markdown.Link

/-- How deep parentheses may nest in a destination without angle brackets. -/
def maxParentheses : Nat :=
  5

/-- The rest of a destination in angle brackets: its text and its length through the bracket. -/
def pointed : List Char → Option (List Char × Nat)
  | [] => none
  | '>' :: _ => some ([], 1)
  | '<' :: _ => none
  | '\n' :: _ => none
  | '\r' :: _ => none
  | '\\' :: c :: rest =>
      if Text.isAsciiPunctuation c then
        (pointed rest).map fun (text, n) => ('\\' :: c :: text, n + 2)
      else (pointed (c :: rest)).map fun (text, n) => ('\\' :: text, n + 1)
  | c :: rest => (pointed rest).map fun (text, n) => (c :: text, n + 1)

/-- The text of a destination without brackets inside `depth` open parentheses. -/
def bare (depth : Nat) : List Char → Option (List Char)
  | [] => if depth == 0 then some [] else none
  | '\\' :: c :: rest =>
      if Text.isAsciiPunctuation c then (bare depth rest).map ('\\' :: c :: ·)
      else (bare depth (c :: rest)).map ('\\' :: ·)
  | c :: rest =>
      if c.toNat ≤ 0x20 then if depth == 0 then some [] else none
      else if c == '(' then
        if depth > maxParentheses then none else (bare (depth + 1) rest).map (c :: ·)
      else if c == ')' then
        if depth == 0 then some [] else (bare (depth - 1) rest).map (c :: ·)
      else (bare depth rest).map (c :: ·)

/-- The destination of a link as it is written, and its length. -/
def destination? (s : List Char) : Option (List Char × Nat) :=
  match s with
  | '<' :: rest => (pointed rest).map fun (text, n) => (text, n + 1)
  | s => (bare 0 s).map fun text => (text, text.length)

/-- What a label does at a line end: it ends, or it goes on after the given length. -/
abbrev LabelRule :=
  List Char → Option Nat

/-- How long a label may be. -/
def maxLabel : Nat :=
  1000

/-- The blanks inside a label: how many characters they take, how many line ends are among them, and
their weight: more than one means that they are replaced by one blank.
-/
def labelBlanks (rule : LabelRule) (lineEnds : Nat) (s : List Char) : Option (Nat × Nat) :=
  match s with
  | [] => some (0, 0)
  | c :: rest =>
      if c == '\n' || c == '\r' then
        if lineEnds ≥ 1 then none
        else
          let n := if c == '\r' && rest.head? == some '\n' then 1 else 0
          match rule (rest.drop n) with
          | none => none
          | some hidden =>
              (labelBlanks rule (lineEnds + 1) ((rest.drop n).drop hidden)).map fun (m, w) =>
                (n + 1 + hidden + m, w + 2)
      else if Text.isInlineBlank c then
        (labelBlanks rule lineEnds rest).map fun (m, w) => (m + 1, w + (if c == ' ' then 1 else 2))
      else some (0, 0)
termination_by s.length
decreasing_by all_goals (simp only [List.length_drop, List.length_cons]; omega)

/-- A label after its opening bracket: its text with runs of blanks made one, and its length through
the closing bracket. `size` counts what was read before.
-/
def labelFrom (rule : LabelRule) (size : Nat) (s : List Char) : Option (List Char × Nat) :=
  if size ≥ maxLabel then none
  else
    match s with
    | [] => none
    | '[' :: _ => none
    | ']' :: _ => some ([], 1)
    | ['\\'] => none
    | '\\' :: c :: rest =>
        (labelFrom rule (size + 2) rest).map fun (text, n) => ('\\' :: c :: text, n + 2)
    | c :: rest =>
        if Text.isAsciiBlank c then
          match labelBlanks rule 0 (c :: rest) with
          | none => none
          | some (count, weight) =>
              (labelFrom rule (size + (if weight > 1 then count else 1))
                  (rest.drop (count - 1))).map fun (text, n) =>
                ((if weight > 1 then ' ' else c) :: text, n + max count 1)
        else (labelFrom rule (size + 1) rest).map fun (text, n) => (c :: text, n + 1)
termination_by s.length
decreasing_by all_goals (simp only [List.length_drop, List.length_cons]; omega)

/-- A label after its opening bracket. A label of blanks alone is none. -/
def label? (rule : LabelRule) (s : List Char) : Option (List Char × Nat) :=
  match labelFrom rule 0 s with
  | some (text, n) => if text.all Text.isAsciiBlank then none else some (text, n)
  | none => none

/-- What labels must agree in to be the same. -/
def labelKey (text : List Char) : List Char :=
  Text.foldCase ((Text.dropEndWhile Text.isAsciiBlank text).dropWhile Text.isAsciiBlank)

/-- The address of an autolink in angle brackets, whose `<` was read: a scheme of two to 32
characters, a colon, and anything but blanks, controls and angle brackets.
-/
def address? (s : List Char) : Option (List Char) :=
  match s with
  | [] => none
  | c :: _ =>
      let scheme := s.takeWhile fun x => x.isAlphanum || x == '.' || x == '-' || x == '+'
      if !c.isAlpha || scheme.length < 2 || scheme.length > 32 then none
      else
        match s.drop scheme.length with
        | ':' :: rest =>
            let tail := rest.takeWhile fun x => 0x20 < x.toNat && x != '<' && x != '>'
            if (rest.drop tail.length).head? == some '>' then some (scheme ++ ':' :: tail) else none
        | _ => none

/-- Holds for the characters of the name in an address of electronic mail. -/
def isMailName (c : Char) : Bool :=
  c.isAlphanum || ".!#$%&'*+/=?^_`\x7b|\x7d~-".toList.contains c

/-- Holds for a part of the domain in an address of electronic mail. -/
def isDomainLabel (s : List Char) : Bool :=
  s.length ≤ 63 && s.head?.any (· != '-') && s.getLast?.any (· != '-')

/-- The address of electronic mail in angle brackets, whose `<` was read. -/
def mailAddress? (s : List Char) : Option (List Char) :=
  let name := s.takeWhile isMailName
  match s.drop name.length with
  | '@' :: rest =>
      let domain := rest.takeWhile fun x => x.isAlphanum || x == '-' || x == '.'
      let labels := (splitDots domain)
      if !name.isEmpty && labels.all isDomainLabel
          && (rest.drop domain.length).head? == some '>' then
        some (name ++ '@' :: domain)
      else none
  | _ => none
where
  splitDots : List Char → List (List Char)
    | [] => [[]]
    | c :: rest =>
        if c == '.' then [] :: splitDots rest
        else
          match splitDots rest with
          | [] => [[c]]
          | label :: labels => (c :: label) :: labels

end Folio.Markdown.Link
