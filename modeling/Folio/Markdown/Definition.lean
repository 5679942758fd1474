import Folio.Markdown.Interrupt
import Folio.Markdown.Link

/-! Link definitions: a label in brackets with a colon, a destination, and perhaps a title. They may
go over line ends as long as the next line would not start another block.
-/

namespace Folio.Markdown.Definition

/-- Holds if a line, given after the prefixes of its containers, ends the definition before it. -/
def breaksAt (containers : List Container) (current underlines : Bool) (s : List Char) : Bool :=
  interrupts containers { current } s || (underlines && (underline? s).isSome)

/-- How a definition goes on at a line end: not at all, or after the prefixes of the next line. -/
def nextLine? (containers : List Container) (underlinesAlways : Bool) (next : List Char)
    : Option Nat :=
  let (lacking, line) := takePrefixes containers (.ofCursor (.ofText next))
  let current := lacking == 0
  let (deep, line) := line.blanks 4
  if !deep && breaksAt containers current (current || underlinesAlways) line.cursor.rest then none
  else some line.cursor.offset

/-- The blanks between the parts of a definition: their length, and whether a line end is among
them. None if there are two line ends, or the next line starts another block.
-/
def gap? (containers : List Container) (s : List Char) : Option (Nat × Bool) :=
  let n := inlineBlanks s
  match lineEnd? (s.drop n) with
  | none => some (n, false)
  | some m =>
      match nextLine? containers true (s.drop (n + m)) with
      | none => none
      | some hidden =>
          let k := n + m + hidden
          let more := inlineBlanks (s.drop k)
          if (lineEnd? (s.drop (k + more))).isSome then none else some (k + more, true)

/-- The rest of a title through the delimiter `close`: its text as it is written, and its length. -/
def titleFrom (containers : List Container) (close : Char)
    : (room : Nat) → List Char → Option (List Char × Nat)
  | 0, _ => none
  | room + 1, s =>
      match s with
      | [] => none
      | c :: rest =>
          if c == '\n' || c == '\r' then
            let n := if c == '\r' && rest.head? == some '\n' then 1 else 0
            let next := rest.drop n
            match nextLine? containers true next with
            | none => none
            | some hidden =>
                let blanks := ((next.drop hidden).takeWhile fun x => x == ' ' || x == '\t').length
                (titleFrom containers close room (next.drop (hidden + blanks))).map fun (text, m) =>
                  ('\n' :: text, 1 + n + hidden + blanks + m)
          else if c == '\\' then
            match rest with
            | e :: after =>
                if e == '\n' || e == '\r' then
                  (titleFrom containers close room rest).map fun (text, m) => (c :: text, m + 1)
                else
                  (titleFrom containers close room after).map fun (text, m) =>
                    (c :: e :: text, m + 2)
            | [] => none
          else if c == close then some ([], 1)
          else if c == '(' && close == ')' then none
          else (titleFrom containers close room rest).map fun (text, m) => (c :: text, m + 1)

def title? (containers : List Container) (s : List Char) : Option (List Char × Nat) :=
  match s with
  | [] => none
  | c :: rest =>
      let close? : Option Char :=
        if c == '\'' || c == '"' then some c else if c == '(' then some ')' else none
      match close? with
      | none => none
      | some close =>
          (titleFrom containers close (rest.length + 1) rest).map fun (text, n) => (text, n + 1)

/-- What follows the colon of a definition: its length, the destination and the title. -/
def body? (containers : List Container) (s : List Char)
    : Option (Nat × List Char × List Char) :=
  match gap? containers s with
  | none => none
  | some (before, _) =>
      match Link.destination? (s.drop before) with
      | none => none
      | some (_, 0) => none
      | some (written, length) =>
          let destination := unescape false written
          let stop := before + length
          let plain := some (stop, destination, [])
          match gap? containers (s.drop stop) with
          | none => plain
          | some (blanks, lineEnds) =>
              if blanks == 0 && !lineEnds then none
              else
                let at_ := stop + blanks
                let fallback := if lineEnds then plain else none
                match title? containers (s.drop at_) with
                | none => fallback
                | some (text, n) =>
                    if (blankLine? (s.drop (at_ + n))).isSome then
                      some (at_ + n, destination, unescape false text)
                    else fallback

/-- A definition at the start of a text: its length, the label, the destination and the title. -/
def scan? (containers : List Container) (s : List Char)
    : Option (Nat × List Char × List Char × List Char) :=
  match s with
  | '[' :: rest =>
      match Link.label? (nextLine? containers false) rest with
      | none => none
      | some (label, n) =>
          match rest.drop n with
          | ':' :: after =>
              (body? containers after).map fun (m, destination, title) =>
                (n + 2 + m, label, destination, title)
          | _ => none
  | _ => none

end Folio.Markdown.Definition
