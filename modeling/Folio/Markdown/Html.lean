import Folio.Markdown.Cursor

/-! Raw HTML in Markdown: what starts and ends an HTML block, and the tags, comments, instructions
and declarations that may stand inside a line of text.
-/

namespace Folio.Markdown.Html

/-- The names of elements that start an HTML block whatever follows them. -/
def blockNames : List String :=
  ["address", "article", "aside", "base", "basefont", "blockquote", "body", "caption", "center",
    "col", "colgroup", "dd", "details", "dialog", "dir", "div", "dl", "dt", "fieldset",
    "figcaption", "figure", "footer", "form", "frame", "frameset", "h1", "h2", "h3", "h4", "h5",
    "h6", "head", "header", "hr", "html", "iframe", "legend", "li", "link", "main", "menu",
    "menuitem", "nav", "noframes", "ol", "optgroup", "option", "p", "param", "search", "section",
    "summary", "table", "tbody", "td", "tfoot", "th", "thead", "title", "tr", "track", "ul"]

/-- Holds if `lead`, which is in lower case, starts the text in any case. -/
def startsWithAnyCase (lead s : List Char) : Bool :=
  (s.take lead.length).map Char.toLower == lead

/-- The elements whose blocks run to their own closing tag. -/
def verbatimNames : List String :=
  ["pre", "style", "script", "textarea"]

/-- What ends the HTML block that starts with `<` and this text, for the blocks with an end of their
own: verbatim elements, comments, instructions, character data and declarations.
-/
def blockEnd? (s : List Char) : Option (List Char) :=
  let verbatim? :=
    verbatimNames.findSome? fun name =>
      if startsWithAnyCase name.toList s then
        match s.drop name.length with
        | [] => some ("</" ++ name ++ ">").toList
        | c :: _ =>
            if Text.isAsciiBlank c || c == '>' then some ("</" ++ name ++ ">").toList else none
      else none
  match verbatim? with
  | some e => some e
  | none =>
      match s with
      | '!' :: '-' :: '-' :: _ => some "-->".toList
      | '?' :: _ => some "?>".toList
      | '!' :: '[' :: 'C' :: 'D' :: 'A' :: 'T' :: 'A' :: '[' :: _ => some "]]>".toList
      | '!' :: c :: _ => if c.isAlpha then some ">".toList else none
      | _ => none

/-- Holds if `<` and this text start an HTML block by the name of a block element. -/
def startsNamedBlock (s : List Char) : Bool :=
  let s := if s.head? == some '/' then s.drop 1 else s
  let name := s.takeWhile Char.isAlphanum
  let known := blockNames.contains (String.ofList (name.map Char.toLower))
  match s.drop name.length with
  | [] => known
  | [c] => known && (c == ' ' || c == '\t' || c == '\r' || c == '\n' || c == '>')
  | c :: d :: _ =>
      known
        && (c == ' ' || c == '\t' || c == '\r' || c == '\n' || c == '>' || (c == '/' && d == '>'))

/-- A piece of markup: its text without what stands before its lines, and its length in the
document.
-/
structure Piece where
  text : List Char
  length : Nat

/-- One piece after another. -/
def Piece.append (a b : Piece) : Piece :=
  { text := a.text ++ b.text, length := a.length + b.length }

instance : Append Piece :=
  ⟨Piece.append⟩

/-- The first `n` characters of a text as a piece. -/
def Piece.ofTake (s : List Char) (n : Nat) : Piece :=
  { text := s.take n, length := n }

/-- How a tag goes on at a line end: either it may not, or the given length at the start of the next
line belongs to the containers.
-/
abbrev LineRule :=
  Option (List Char → Nat)

/-- The blanks at the start of a text, across lines. None if a line end is not allowed. -/
def blanksAcross (rule : LineRule) (s : List Char) : Option Piece :=
  match s with
  | [] => some { text := [], length := 0 }
  | c :: rest =>
      if Text.isInlineBlank c then
        (blanksAcross rule rest).map (Piece.ofTake (c :: rest) 1 ++ ·)
      else if c == '\n' || c == '\r' then
        match rule with
        | none => none
        | some skip =>
            let n := if c == '\r' && rest.head? == some '\n' then 1 else 0
            let next := rest.drop n
            let hidden := skip next
            (blanksAcross rule (next.drop hidden)).map fun piece =>
              { text := (c :: rest).take (n + 1) ++ piece.text,
                length := n + 1 + hidden + piece.length }
      else some { text := [], length := 0 }
termination_by s.length
decreasing_by all_goals (simp only [List.length_drop, List.length_cons]; omega)

/-- The rest of a quoted value through its closing quote. -/
def quotedValue (rule : LineRule) (quote : Char) (s : List Char) : Option Piece :=
  match s with
  | [] => none
  | c :: rest =>
      if c == quote then some (Piece.ofTake (c :: rest) 1)
      else if c == '\n' || c == '\r' then
        match rule with
        | none => none
        | some skip =>
            let n := if c == '\r' && rest.head? == some '\n' then 1 else 0
            let next := rest.drop n
            let hidden := skip next
            (quotedValue rule quote (next.drop hidden)).map fun piece =>
              { text := (c :: rest).take (n + 1) ++ piece.text,
                length := n + 1 + hidden + piece.length }
      else (quotedValue rule quote rest).map (Piece.ofTake (c :: rest) 1 ++ ·)
termination_by s.length
decreasing_by all_goals (simp only [List.length_drop, List.length_cons]; omega)

/-- Holds for the characters of a value without quotes. -/
def isBareValue (c : Char) : Bool :=
  !(c == '\'' || c == '"' || c == ' ' || c == '=' || c == '>' || c == '<' || c == '`' || c == '\n'
    || c == '\r')

def value? (rule : LineRule) (s : List Char) : Option Piece :=
  match s with
  | [] => none
  | c :: rest =>
      if c == '"' || c == '\'' then (quotedValue rule c rest).map (Piece.ofTake (c :: rest) 1 ++ ·)
      else if c == ' ' || c == '=' || c == '>' || c == '<' || c == '`' || c == '\n'
          || c == '\r' then
        none
      else some (Piece.ofTake s (s.takeWhile isBareValue).length)

/-- An attribute whose name starts with `c`: the length of the name is at least one. -/
def attribute? (rule : LineRule) (c : Char) (rest : List Char) : Option Piece :=
  if c.isAlpha || c == '_' || c == ':' then
    let more := rest.takeWhile fun x =>
      x.isAlphanum || x == '_' || x == '.' || x == ':' || x == '-'
    let name := Piece.ofTake (c :: rest) (more.length + 1)
    let after := rest.drop more.length
    match blanksAcross rule after with
    | none => none
    | some gap =>
        match after.drop gap.length with
        | '=' :: after =>
            match blanksAcross rule after with
            | none => none
            | some gap' =>
                (value? rule (after.drop gap'.length)).map fun v =>
                  name ++ gap ++ Piece.ofTake ['='] 1 ++ gap' ++ v
        | _ => some name
  else none

/-- The attributes and the end of an opening tag. -/
def afterTagName (rule : LineRule) (s : List Char) : Option Piece :=
  match blanksAcross rule s with
  | none => none
  | some gap =>
      match _h : s.drop gap.length with
      | [] => none
      | c :: rest =>
          if c == '>' then some (gap ++ Piece.ofTake (c :: rest) 1)
          else if c == '/' then
            if rest.head? == some '>' then some (gap ++ Piece.ofTake (c :: rest) 2) else none
          else if gap.length == 0 then none
          else
            match attribute? rule c rest with
            | none => none
            | some a => (afterTagName rule (rest.drop (a.length - 1))).map (gap ++ a ++ ·)
termination_by s.length
decreasing_by
  have := congrArg List.length ‹s.drop gap.length = c :: rest›
  simp at this ⊢
  omega

/-- A whole tag, whose `<` was read. -/
def tag? (rule : LineRule) (s : List Char) : Option Piece :=
  let closing := s.head? == some '/'
  let n := if closing then 1 else 0
  match s.drop n with
  | [] => none
  | c :: rest =>
      if !c.isAlpha then none
      else
        let more := (rest.takeWhile fun x => x.isAlphanum || x == '-').length
        let name := Piece.ofTake s (n + 1 + more)
        let after := rest.drop more
        if closing then
          let blanks := inlineBlanks after
          if (after.drop blanks).head? == some '>' then
            some (name ++ Piece.ofTake after (blanks + 1))
          else none
        else (afterTagName rule after).map (name ++ ·)

/-- Holds if `<` and this text are a whole tag on a line of its own. -/
def startsTagLine (s : List Char) : Bool :=
  match tag? none s with
  | none => false
  | some piece => (blankLine? (s.drop piece.length)).isSome

/-- The length of a text through the first occurrence of `close`. -/
def lengthThrough? (close : List Char) : List Char → Option Nat
  | [] => none
  | c :: rest =>
      if (c :: rest).take close.length == close then some close.length
      else (lengthThrough? close rest).map (· + 1)

/-- The markup that `<` and this text start inside a line: a comment, an instruction, character
data, a declaration or a tag. All but tags go on over line ends just as they stand.
-/
def inline? (skip : List Char → Nat) (s : List Char) : Option Piece :=
  let verbatim (lead : Nat) (close : List Char) : Option Piece :=
    (lengthThrough? close (s.drop lead)).map fun n => Piece.ofTake s (lead + n)
  match s with
  | '!' :: '-' :: '-' :: '>' :: _ => some (Piece.ofTake s 4)
  | '!' :: '-' :: '-' :: '-' :: '>' :: _ => some (Piece.ofTake s 5)
  | '!' :: '-' :: '-' :: _ => verbatim 3 "-->".toList
  | '!' :: '[' :: 'C' :: 'D' :: 'A' :: 'T' :: 'A' :: '[' :: _ => verbatim 8 "]]>".toList
  | '!' :: c :: _ => if c.isAlpha then verbatim 2 ">".toList else none
  | '?' :: _ => verbatim 1 "?>".toList
  | _ => tag? (some skip) s

end Folio.Markdown.Html
