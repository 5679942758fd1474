import Folio.Toml.Token

/-! The expressions of a TOML text: headers of tables, and entries. Reading them is a run of an
automaton that takes one token after the other; the containers that are still open form its stack.
What keys and values mean is left open here, so that a fault in the structure is found before any
other one.
-/

namespace Folio.Toml

/-- A key or a plain value as it is written. -/
structure Written where
  piece : Piece
  quoting : Option Quoting
deriving DecidableEq, Inhabited

/-- A key with the names that lead to it. -/
structure DottedKey where
  path : List Written
  name : Written
deriving DecidableEq, Inhabited

/-- A value as it is written. -/
inductive Layout where
  | plain (written : Written)
  | array (span : Span) (items : List Layout)
  | table (span : Span) (entries : List (DottedKey × Layout))
deriving Inhabited

/-- What a line of a text says. -/
inductive Expression where
  /-- The header of a table, or of the next table of a list. -/
  | header (inList : Bool) (span : Span) (key : DottedKey)
  | entry (key : DottedKey) (value : Layout)
deriving Inhabited

/-- The entries of an inline table, last first. -/
abbrev Entries :=
  List (DottedKey × Layout)

/-- Where a key stands. -/
inductive KeyUse where
  | header (inList : Bool) (opening : Piece)
  | entry
  | field (opening : Piece) (before : Entries)
deriving Inhabited

/-- What waits for the end of a value. -/
inductive Open where
  | entry (key : DottedKey)
  | item (opening : Piece) (before : List Layout)
  | field (opening : Piece) (before : Entries) (key : DottedKey)
deriving Inhabited

/-- What a reader waits for. -/
inductive Awaited where
  | expression
  /-- The key of a header, or a second bracket. -/
  | headerStart (opening : Piece)
  | headerKey (inList : Bool) (opening : Piece)
  /-- The second bracket at the end of the header of a list. -/
  | headerStop (opening first : Piece) (key : DottedKey)
  /-- The name after a dot. -/
  | name (use : KeyUse) (path : List Written)
  | afterName (use : KeyUse) (key : DottedKey)
  /-- The sign between the key and the value of a field. -/
  | equals (opening : Piece) (before : Entries) (key : DottedKey)
  | value
  /-- More of a value without quotes, perhaps after a blank. -/
  | more (content blank : Piece)
  | item (opening : Piece) (before : List Layout)
  | afterItem (opening : Piece) (before : List Layout)
  | field (opening : Piece) (before : Entries)
  | afterField (opening : Piece) (before : Entries)
  | lineEnd
  /-- The end of a line with a header that is not one. -/
  | skip
deriving Inhabited

/-- A reader of expressions. -/
structure Reader where
  awaited : Awaited
  stack : List Open
  /-- The expressions that were read, last first. -/
  read : List Expression
  /-- The end of the last token that was neither blank nor a comment nor a line end. -/
  settled : Nat
deriving Inhabited

/-- How deep containers may nest. -/
def maxDepth : Nat :=
  80

/-- Holds for the characters that a comment must not contain. -/
def isForbiddenInComment (c : Char) : Bool :=
  (c.toNat < 32 && c != '\t') || c.toNat == 127

namespace Token

def span (t : Token) : Span :=
  t.piece.span

def fault (t : Token) (fault : Fault) : Except Error Reader :=
  .error { fault, span := t.span }

def faultBefore (t : Token) (fault : Fault) : Except Error Reader :=
  .error { fault, span := t.span.before }

/-- A key or value that is not there. -/
def missing (t : Token) (quoting : Option Quoting) : Written :=
  { piece := .emptyAt t.piece.start, quoting }

/-- The token as a key or value, if it can be one. -/
def written? (t : Token) : Option Written :=
  match t.kind with
  | .quoted quoting => some { piece := t.piece, quoting := some quoting }
  | .atom => some { piece := t.piece, quoting := none }
  | _ => none

/-- The fault of a blank, comment or line end. -/
def spaceFault? (t : Token) : Option Error :=
  match t.kind with
  | .comment =>
      (Text.splitAtFirst? isForbiddenInComment t.piece.content).map fun (before, _) =>
        let place := t.piece.start + Piece.size before
        { fault := .commentCharacter, span := { start := place, stop := place } }
  | .newline =>
      if t.piece.content == ['\r'] then
        some { fault := .loneCarriageReturn, span := t.span.after }
      else none
  | _ => none

/-- Holds for blanks, comments and line ends. -/
def isSpace (t : Token) : Bool :=
  t.kind == .blank || t.kind == .comment || t.kind == .newline

end Token

namespace DottedKey

/-- Holds for keys whose first name is missing. -/
def beginsWithDot (k : DottedKey) : Bool :=
  k.path.head?.any fun name => name.quoting.isNone && name.piece.content.isEmpty

/-- The names of a key as the path of a longer one. -/
def names (k : DottedKey) : List Written :=
  k.path ++ [k.name]

end DottedKey

namespace Reader

/-- A reader before the first token. -/
def initial : Reader :=
  { awaited := .expression, stack := [], read := [], settled := 0 }

/-- The reader as it waits for something. -/
def await (r : Reader) (awaited : Awaited) : Except Error Reader :=
  .ok { r with awaited }

/-- The reader after a value: what waited for it goes on. -/
def settle (r : Reader) (value : Layout) : Reader :=
  match r.stack with
  | [] => { r with awaited := .lineEnd }
  | .entry key :: stack => { r with awaited := .lineEnd, stack, read := .entry key value :: r.read }
  | .item opening before :: stack =>
      { r with awaited := .afterItem opening (value :: before), stack }
  | .field opening before key :: stack =>
      { r with awaited := .afterField opening ((key, value) :: before), stack }

/-- The reader after a plain value. -/
def settlePlain (r : Reader) (written : Written) : Reader :=
  r.settle (.plain written)

def unclosed (r : Reader) (fault : Fault) : Except Error Reader :=
  .error { fault, span := { start := r.settled, stop := r.settled } }

/-- Opens an array or inline table. -/
def enter (r : Reader) (t : Token) (awaited : Awaited) : Except Error Reader :=
  if r.stack.length > maxDepth then t.fault .tooDeep else r.await awaited

def lineEndStep (r : Reader) (t : Token) : Except Error Reader :=
  match t.kind with
  | .blank | .comment => .ok r
  | .newline | .finish => r.await .expression
  | _ => t.faultBefore .trailing

def closeArray (r : Reader) (opening : Piece) (before : List Layout) (t : Token) : Reader :=
  r.settle (.array (opening.span.through t.span) before.reverse)

/-- The reader after an inline table. -/
def closeTable (r : Reader) (opening : Piece) (before : Entries) (t : Token) : Reader :=
  r.settle (.table (opening.span.through t.span) before.reverse)

def afterItemStep (r : Reader) (opening : Piece) (before : List Layout) (t : Token)
    : Except Error Reader :=
  match t.kind with
  | .blank | .comment | .newline => .ok r
  | .comma => r.await (.item opening before)
  | .closeBracket => .ok (r.closeArray opening before t)
  | .equals => t.fault .equalsInArray
  | .finish => r.unclosed .unclosedArray
  | _ => t.faultBefore .missingCommaInArray

/-- The step after an entry of an inline table. -/
def afterFieldStep (r : Reader) (opening : Piece) (before : Entries) (t : Token)
    : Except Error Reader :=
  match t.kind with
  | .blank | .comment | .newline => .ok r
  | .comma => r.await (.field opening before)
  | .closeBrace => .ok (r.closeTable opening before t)
  | .equals => t.fault (.extraEqualsInTable .comma)
  | .openBrace | .openBracket => t.fault (.missingKeyInTable .comma)
  | .closeBracket => t.fault (.strayBracketInTable .comma)
  | .finish => r.unclosed .unclosedInlineTable
  | _ => t.faultBefore .missingCommaInTable

/-- The step after a value, whatever waited for it. -/
def afterValueStep (r : Reader) (t : Token) : Except Error Reader :=
  match r.awaited with
  | .afterItem opening before => r.afterItemStep opening before t
  | .afterField opening before => r.afterFieldStep opening before t
  | _ => r.lineEndStep t

/-- The step at a value of an entry or an item of an array. -/
def valueStep (r : Reader) (t : Token) : Except Error Reader :=
  match t.kind with
  | .quoted quoting => .ok (r.settlePlain { piece := t.piece, quoting := some quoting })
  | .atom | .dot => r.await (.more t.piece (.emptyAt t.piece.stop))
  | .openBracket => r.enter t (.item t.piece [])
  | .openBrace => r.enter t (.field t.piece [])
  | .equals => t.fault .extraEquals
  | .closeBracket => t.faultBefore .missingArrayOpening
  | .closeBrace => t.faultBefore .missingInlineTableOpening
  | .blank => .ok r
  | .newline | .comment | .comma | .finish =>
      (r.settlePlain (t.missing none)).afterValueStep t

/-- The step at a value of an inline table. -/
def fieldValueStep (r : Reader) (t : Token) : Except Error Reader :=
  match t.kind with
  | .newline | .comment => .ok r
  | .comma => t.fault (.extraCommaInTable .value)
  | .equals => t.fault (.extraEqualsInTable .value)
  | .closeBrace =>
      (r.settlePlain (t.missing (some .literal))).afterValueStep t
  | .finish => r.unclosed .unclosedInlineTable
  | _ => r.valueStep t

/-- The step between the key and the value of a field. -/
def equalsStep (r : Reader) (opening : Piece) (before : Entries) (key : DottedKey) (t : Token)
    : Except Error Reader :=
  match t.kind with
  | .blank | .comment | .newline => r.await (.equals opening before key)
  | .equals => { r with stack := .field opening before key :: r.stack }.await .value
  | .comma => t.fault (.extraCommaInTable .equals)
  | .closeBracket => t.fault (.strayBracketInTable .equals)
  | .closeBrace =>
      let value := .plain (t.missing (some .literal))
      .ok (r.closeTable opening ((key, value) :: before) t)
  | .finish => r.unclosed .unclosedInlineTable
  | _ => t.faultBefore .missingEqualsInTable

def afterNameStep (r : Reader) (use : KeyUse) (key : DottedKey) (t : Token)
    : Except Error Reader :=
  match t.kind, use with
  | .blank, _ => r.await (.afterName use key)
  | .dot, _ => r.await (.name use key.names)
  | .closeBracket, .header false opening =>
      .ok { r with
        awaited := .lineEnd
        read := .header false (opening.span.through t.span) key :: r.read }
  | .closeBracket, .header true opening => r.await (.headerStop opening t.piece key)
  | _, .header inList _ =>
      r.unclosed (if inList then .unclosedTableList "]]" else .unclosedTable)
  | .equals, .entry => { r with stack := [.entry key] }.await .value
  | _, .entry =>
      t.faultBefore (if key.beginsWithDot then .dotWithoutValue else .keyWithoutValue)
  | _, .field opening before => r.equalsStep opening before key t

/-- The step at the place of a name: where there is none, an empty one is read. What a header lacks
after such a name is no further fault.
-/
def nameStep (r : Reader) (use : KeyUse) (path : List Written) (t : Token) : Except Error Reader :=
  match t.written? with
  | some name => r.await (.afterName use { path, name })
  | none =>
      let key := { path, name := t.missing none }
      match use, t.kind with
      | .header inList opening, kind =>
          if kind == .dot || kind == .closeBracket then r.afterNameStep use key t
          else
            .ok { r with
              awaited := if kind == .newline then .expression else .skip
              read := .header inList opening.span key :: r.read }
      | _, _ => r.afterNameStep use key t

def expressionStep (r : Reader) (t : Token) : Except Error Reader :=
  match t.kind with
  | .blank | .comment | .newline | .finish => .ok r
  | .openBracket => r.await (.headerStart t.piece)
  | .closeBracket => t.faultBefore .missingTableOpening
  | .comma | .openBrace | .closeBrace => t.fault .notAnEntry
  | .quoted _ | .atom | .equals | .dot => r.nameStep .entry [] t

/-- The step at an item of an array, or its end. -/
def itemStep (r : Reader) (opening : Piece) (before : List Layout) (t : Token)
    : Except Error Reader :=
  match t.kind with
  | .blank | .comment | .newline => .ok r
  | .comma => t.fault .extraCommaInArray
  | .equals => t.fault .equalsInArray
  | .closeBracket => .ok (r.closeArray opening before t)
  | .finish => r.unclosed .unclosedArray
  | _ => { r with stack := .item opening before :: r.stack, awaited := .value }.valueStep t

/-- The step at an entry of an inline table, or its end. -/
def fieldStep (r : Reader) (opening : Piece) (before : Entries) (t : Token)
    : Except Error Reader :=
  match t.kind with
  | .blank | .comment | .newline => .ok r
  | .comma => t.fault (.extraCommaInTable .key)
  | .closeBrace => .ok (r.closeTable opening before t)
  | .openBrace | .openBracket => t.fault (.missingKeyInTable .key)
  | .closeBracket => t.fault (.strayBracketInTable .key)
  | .finish => r.unclosed .unclosedInlineTable
  | .quoted _ | .atom | .equals | .dot => r.nameStep (.field opening before) [] t

/-- The step in a value without quotes. A blank belongs to it only if more of it follows. -/
def moreStep (r : Reader) (content blank : Piece) (t : Token) : Except Error Reader :=
  match t.kind, blank.content with
  | .atom, _ =>
      r.await (.more ((content.append blank).append t.piece) (.emptyAt t.piece.stop))
  | .dot, [] => r.await (.more (content.append t.piece) (.emptyAt t.piece.stop))
  | .blank, [] => r.await (.more content t.piece)
  | _, _ => (r.settlePlain { piece := content, quoting := none }).afterValueStep t

/-- The step of a reader at a token, whatever is wrong with the token itself. -/
def stepAt (r : Reader) (t : Token) : Except Error Reader :=
  match r.awaited with
  | .expression => r.expressionStep t
  | .headerStart opening =>
      if t.kind == .openBracket then r.await (.headerKey true opening)
      else if t.kind == .blank then r.await (.headerKey false opening)
      else r.nameStep (.header false opening) [] t
  | .headerKey inList opening =>
      if t.kind == .blank then .ok r else r.nameStep (.header inList opening) [] t
  | .headerStop opening first key =>
      if t.kind == .closeBracket then
        .ok { r with
          awaited := .lineEnd
          read := .header true (opening.span.through t.span) key :: r.read }
      else .error { fault := .unclosedTableList "]", span := first.span.after }
  | .name use path => if t.kind == .blank then .ok r else r.nameStep use path t
  | .afterName use key => r.afterNameStep use key t
  | .equals opening before key => r.equalsStep opening before key t
  | .value =>
      match r.stack with
      | .field _ _ _ :: _ => r.fieldValueStep t
      | _ => r.valueStep t
  | .more content blank => r.moreStep content blank t
  | .item opening before => r.itemStep opening before t
  | .afterItem opening before => r.afterItemStep opening before t
  | .field opening before => r.fieldStep opening before t
  | .afterField opening before => r.afterFieldStep opening before t
  | .lineEnd => r.lineEndStep t
  | .skip => if t.kind == .newline then r.await .expression else .ok r

/-- The step of a reader at a token. What is wrong with a blank, comment or line end itself counts
only where there may be one.
-/
def step (r : Reader) (t : Token) : Except Error Reader := do
  let next ← r.stepAt t
  match t.spaceFault? with
  | some e => throw e
  | none => return if t.isSpace then next else { next with settled := t.piece.stop }

end Reader

def expressions (text : String) : Except Error (List Expression) :=
  ((tokens text).foldlM Reader.step Reader.initial).map fun r => r.read.reverse

end Folio.Toml
