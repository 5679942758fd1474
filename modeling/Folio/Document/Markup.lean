import Folio.Markdown.Html
import Folio.Document.Name
import Folio.Text.Lines

/-! The tokens of markup inside a document: opening tags, closing tags and text. What starts with
`<` but is no complete tag is text, and comments are dropped. Each token has its offset in the
markup.
-/

namespace Folio.Document.Markup

/-- The value of an attribute as it is written. -/
inductive AttributeValue where
  /-- A quoted or bare text. -/
  | literal (text : List Char)
  /-- What stands in braces. -/
  | expression (text : List Char)
  /-- No value at all. -/
  | flag
deriving DecidableEq, Inhabited

/-- A token of markup. -/
inductive Token where
  | opening (name : List Char) (attributes : List (List Char × AttributeValue)) (selfClosing : Bool)
  | closing (name : List Char)
  | text (text : List Char)
deriving DecidableEq, Inhabited

/-- A token with its offset. -/
structure Placed where
  offset : Nat
  token : Token
deriving DecidableEq, Inhabited

/-- The entities that markup may use, and their characters. -/
def entities : List (List Char × Char) :=
  [("&lt;".toList, '<'), ("&gt;".toList, '>'), ("&quot;".toList, '"'), ("&#39;".toList, '\''),
    ("&nbsp;".toList, '\u00a0'), ("&amp;".toList, '&')]

/-- A text with its entities replaced, one kind after the other and the ampersand last. -/
def decodeEntities (text : List Char) : List Char :=
  entities.foldl (fun text entity => Text.replace entity.1 [entity.2] text) text

/-- Holds for the characters of names of tags and attributes. -/
def isTagNameChar (c : Char) : Bool :=
  c.isAlphanum || c == '_' || c == '-' || c == '.' || c == ':'

/-- The name at the start of a text. -/
def leadingName (s : List Char) : List Char :=
  s.takeWhile isTagNameChar

/-- Holds if a name may be the name of a tag or an attribute. -/
def isTagName (name : List Char) : Bool :=
  name.head?.any isNameStart

/-- How many leading characters of a text are blank. -/
def blanks (s : List Char) : Nat :=
  (s.takeWhile Text.isBlank).length

/-- Where the `>` stands that ends a tag: outside of quotes and braces. Inside braces, a backslash
in quotes hides the character after it.
-/
def tagEnd? (quote : Option Char) (depth : Nat) (escaped : Bool) : List Char → Option Nat
  | [] => none
  | c :: rest =>
      let next? :=
        match quote with
        | some q =>
            if escaped then tagEnd? quote depth false rest
            else if c == '\\' && depth > 0 then tagEnd? quote depth true rest
            else if c == q then tagEnd? none depth false rest
            else tagEnd? quote depth false rest
        | none =>
            if c == '"' || c == '\'' then tagEnd? (some c) depth escaped rest
            else if c == '\x7b' then tagEnd? none (depth + 1) escaped rest
            else if c == '\x7d' then tagEnd? none (depth - 1) escaped rest
            else tagEnd? none depth escaped rest
      if quote.isNone && c == '>' && depth == 0 then some 0 else next?.map (· + 1)

/-- Where the tag ends whose `<` was read. -/
def findTagEnd? (s : List Char) : Option Nat :=
  tagEnd? none 0 false s

/-- Where the brace stands that closes the first one. Inside a string a backslash hides the
character after it.
-/
def closingBrace? (inString escaped : Bool) (depth : Nat) : List Char → Option Nat
  | [] => none
  | c :: rest =>
      if inString then
        (if escaped then closingBrace? true false depth rest
          else if c == '\\' then closingBrace? true true depth rest
          else if c == '"' then closingBrace? false false depth rest
          else closingBrace? true false depth rest).map (· + 1)
      else if c == '"' then (closingBrace? true false depth rest).map (· + 1)
      else if c == '\x7b' then (closingBrace? false false (depth + 1) rest).map (· + 1)
      else if c == '\x7d' then
        if depth ≤ 1 then some 0 else (closingBrace? false false (depth - 1) rest).map (· + 1)
      else (closingBrace? false false depth rest).map (· + 1)

/-- The value of an attribute at the start of a text, and its length. -/
def value? (s : List Char) : Option (AttributeValue × Nat) :=
  match s with
  | [] => none
  | c :: rest =>
      if c == '"' || c == '\'' then
        let text := rest.takeWhile (· != c)
        if text.length < rest.length then some (.literal (decodeEntities text), text.length + 2)
        else none
      else if c == '\x7b' then
        (closingBrace? false false 0 s).map fun n =>
          (.expression (Text.trim (rest.take (n - 1))), n + 1)
      else
        let text := s.takeWhile fun x => !Text.isBlank x
        some (.literal text, text.length)

/-- The attributes that a text consists of. -/
def attributes? (s : List Char) : Option (List (List Char × AttributeValue)) :=
  match _h : s.dropWhile Text.isBlank with
  | [] => some []
  | c :: rest =>
      if !isNameStart c then none
      else
        let more := leadingName rest
        let name := c :: more
        let after := rest.drop more.length
        match after.drop (blanks after) with
        | '=' :: after' =>
            let source := after'.drop (blanks after')
            match value? source with
            | none => none
            | some (value, n) =>
                let used := more.length + blanks after + 1 + blanks after' + n
                (attributes? (rest.drop used)).map ((name, value) :: ·)
        | _ => (attributes? after).map ((name, .flag) :: ·)
termination_by s.length
decreasing_by
  all_goals
    have h := (List.dropWhile_sublist Text.isBlank (l := s)).length_le
    have := congrArg List.length ‹s.dropWhile Text.isBlank = c :: rest›
    simp at this ⊢
    omega

/-- The tag at the start of a text: its length and its token. -/
def tag? (s : List Char) : Option (Nat × Token) :=
  match s with
  | '<' :: '/' :: after =>
      let name := leadingName after
      let rest := after.drop name.length
      let n := blanks rest
      if isTagName name && (rest.drop n).head? == some '>' then
        some (name.length + n + 3, .closing name)
      else none
  | '<' :: after =>
      if !isTagName after then none
      else
        match findTagEnd? after with
        | none => none
        | some stop =>
            let inner := after.take stop
            let name := leadingName inner
            let rest := Text.trimEnd (inner.drop name.length)
            let selfClosing := rest.getLast? == some '/'
            let rest := if selfClosing then rest.dropLast else rest
            if !rest.isEmpty && !rest.head?.any Text.isBlank then none
            else
              (attributes? rest).map fun attributes =>
                (stop + 2, .opening name attributes selfClosing)
  | _ => none

/-- The token of a text: a text of several lines is trimmed line by line and joined by blanks, and a
text of blanks alone has none.
-/
def textToken (offset : Nat) (text : List Char) : List Placed :=
  if Text.isAllBlank text then []
  else
    let text :=
      if text.contains '\n' then
        Text.joinWith [' ']
          (((Text.lines text).map Text.trim).filter fun line => !line.isEmpty)
      else text
    [{ offset, token := .text (decodeEntities text) }]

/-- The length of the comment or tag at the start of a text, and its token. -/
def marked? (s : List Char) : Option (Nat × Option Token) :=
  if Text.startsWith "<!--".toList s then
    some ((Markdown.Html.lengthThrough? "-->".toList s).getD s.length, none)
  else (tag? s).map fun (n, token) => (n, some token)

/-- The tokens of a markup from an offset on; `pending` is the text before it, last first, that has
no token yet.
-/
def tokensFrom (offset : Nat) (pending : List Char) (s : List Char) : List Placed :=
  let flush := textToken (offset - pending.length) pending.reverse
  match s with
  | [] => flush
  | c :: rest =>
      match if c == '<' then marked? (c :: rest) else none with
      | none => tokensFrom (offset + 1) (c :: pending) rest
      | some (n, token) =>
          flush ++ (token.map fun token => { offset, token }).toList
            ++ tokensFrom (offset + max n 1) [] (rest.drop (n - 1))
termination_by s.length
decreasing_by all_goals (simp only [List.length_drop, List.length_cons]; omega)

def tokens (s : List Char) : List Placed :=
  tokensFrom 0 [] s

end Folio.Document.Markup
