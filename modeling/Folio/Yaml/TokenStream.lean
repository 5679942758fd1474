import Folio.Yaml.Tag

/-! The tokens of a text, one after the other. That a scalar is a key shows only when the colon
after it is read; so the places where a key may have begun are remembered, and tokens are held back
until this is settled. Tokens of indentation are put in between.
-/

namespace Folio.Yaml

/-- A place where a key may have begun. -/
structure SimpleKey where
  /-- No other node than a key may stand here. -/
  required : Bool
  /-- How many tokens come before the key. -/
  number : Nat
  mark : Mark
deriving Inhabited

/-- A text that is being cut into tokens. -/
structure TokenStream where
  cursor : Cursor
  /-- Tokens that were read and not taken. -/
  queue : List PlacedToken := []
  /-- How many tokens were taken. -/
  taken : Nat := 0
  started : Bool := false
  /-- The indentation of the current block, if there is one. -/
  indent : Option Nat := none
  /-- The indentations of the blocks around it. -/
  outer : List (Option Nat) := []
  /-- A key may begin at the current place. -/
  keyAllowed : Bool := false
  /-- The possible key of each flow collection, innermost first, and last that of the block. -/
  keys : List (Option SimpleKey) := []
deriving Inhabited

namespace TokenStream

def ofText (text : List Char) : TokenStream :=
  { cursor := .ofText text }

/-- Holds inside of flow collections. -/
def inFlow (s : TokenStream) : Bool :=
  s.keys.length > 1

/-- The current place. -/
def mark (s : TokenStream) : Mark :=
  s.cursor.mark

/-- Puts a token at the end of the queue. -/
def put (s : TokenStream) (token : Token) (start stop : Mark) : TokenStream :=
  { s with queue := s.queue ++ [{ token, start, stop }] }

def putAt (s : TokenStream) (number : Nat) (token : Token) (mark : Mark) : TokenStream :=
  let n := number - s.taken
  { s with queue := s.queue.take n ++ { token, start := mark, stop := mark } :: s.queue.drop n }

/-- Puts an indicator of `n` characters in the queue and goes on after it. -/
def putIndicator (s : TokenStream) (token : Token) (n : Nat) : TokenStream :=
  let after := s.cursor.skip n
  { s.put token s.mark after.mark with cursor := after }

/-- The error of a key that was required and did not come. -/
def missingColon (s : TokenStream) (key : SimpleKey) : SyntaxError :=
  .during .simpleKey key.mark .noColonAfterKey s.mark

/-- Forgets possible keys that would go over a line end or be too long. -/
def dropStaleKeys (s : TokenStream) : Except SyntaxError TokenStream := do
  let isStale (key : SimpleKey) : Bool :=
    key.mark.line < s.mark.line || key.mark.index + 1024 < s.mark.index
  match s.keys.reverse.findSome? fun key? => key?.filter fun key => isStale key && key.required with
  | some key => throw (s.missingColon key)
  | none => return { s with keys := s.keys.map fun key? => key?.filter fun key => !isStale key }

/-- Forgets the possible key of the innermost collection. -/
def dropKey (s : TokenStream) : Except SyntaxError TokenStream :=
  match s.keys with
  | some key :: outer =>
      if key.required then .error (s.missingColon key) else .ok { s with keys := none :: outer }
  | _ => .ok s

/-- Remembers that a key may begin here. -/
def saveKey (s : TokenStream) : Except SyntaxError TokenStream := do
  if !s.keyAllowed then return s
  let key : SimpleKey :=
    { required := !s.inFlow && s.indent == some s.mark.column,
      number := s.taken + s.queue.length, mark := s.mark }
  let s ← s.dropKey
  return { s with keys := some key :: s.keys.drop 1 }

/-- Opens a block at a column, if it is deeper than the current one. -/
def openBlock (s : TokenStream) (column : Nat) (number : Option Nat) (token : Token) (mark : Mark)
    : TokenStream :=
  if s.inFlow || s.indent.any (column ≤ ·) then s
  else
    let s := { s with outer := s.indent :: s.outer, indent := some column }
    match number with
    | some number => s.putAt number token mark
    | none => s.put token mark mark

/-- Closes the blocks that are deeper than a column; without a column, all of them. -/
def closeBlocks (s : TokenStream) (column : Option Nat) : TokenStream :=
  if s.inFlow then s else go s (s.outer.length + 1)
where
  go (s : TokenStream) : (room : Nat) → TokenStream
    | 0 => s
    | room + 1 =>
        match s.indent, s.outer with
        | some n, indent :: outer =>
            if column.all (· < n) then
              go { s.put .blockEnd s.mark s.mark with indent, outer } room
            else s
        | _, _ => s

/-- The place of the next token, and whether a line end was passed on the way. -/
def skipToToken (inFlow keyAllowed : Bool) (c : Cursor) : (room : Nat) → Cursor × Bool
  | 0 => (c, keyAllowed)
  | room + 1 =>
      let c := if c.mark.column == 0 && c.sees '\ufeff' then c.next else c
      let c := c.skipWhile fun x => x == ' ' || ((inFlow || !keyAllowed) && x == '\t')
      let c := c.skipComment
      if c.seesAny isBreak then skipToToken inFlow (keyAllowed || !inFlow) c.lineBreak.2 room
      else (c, keyAllowed)

def start (s : TokenStream) : TokenStream :=
  { s.put .streamStart s.mark s.mark with started := true, keyAllowed := true, keys := [none] }

/-- Reads the end of the text, which counts as the start of a line. -/
def finish (s : TokenStream) : Except SyntaxError TokenStream := do
  let mark :=
    if s.mark.column == 0 then s.mark else { s.mark with column := 0, line := s.mark.line + 1 }
  let s := { s with cursor := { s.cursor with mark } }
  let s ← (s.closeBlocks none).dropKey
  return { s.put .streamEnd s.mark s.mark with keyAllowed := false }

def directive (s : TokenStream) : Except SyntaxError TokenStream := do
  let s ← (s.closeBlocks none).dropKey
  let (token, cursor) ← scanDirective s.cursor
  return { s with cursor, keyAllowed := false, queue := s.queue ++ [token] }

/-- Reads the indicator of the start or the end of a document. -/
def documentIndicator (s : TokenStream) (token : Token) : Except SyntaxError TokenStream := do
  let s ← (s.closeBlocks none).dropKey
  return { s.putIndicator token 3 with keyAllowed := false }

def flowStart (s : TokenStream) (token : Token) : Except SyntaxError TokenStream := do
  let s ← s.saveKey
  return { s.putIndicator token 1 with keyAllowed := true, keys := none :: s.keys }

def flowEnd (s : TokenStream) (token : Token) : Except SyntaxError TokenStream := do
  let s ← s.dropKey
  let keys := if s.inFlow then s.keys.drop 1 else s.keys
  return { s.putIndicator token 1 with keyAllowed := false, keys }

/-- Reads the comma between the entries of a flow collection. -/
def flowEntry (s : TokenStream) : Except SyntaxError TokenStream := do
  let s ← s.dropKey
  return { s.putIndicator .flowEntry 1 with keyAllowed := true }

/-- Opens the block of an entry, where one may begin. -/
def beginEntry (s : TokenStream) (token : Token) (fault : Problem)
    : Except SyntaxError TokenStream :=
  if s.inFlow then .ok s
  else if !s.keyAllowed then .error (.problem fault s.mark none)
  else .ok (s.openBlock s.mark.column none token s.mark)

/-- Reads the dash of an entry of a block sequence. -/
def blockEntry (s : TokenStream) : Except SyntaxError TokenStream := do
  let s ← (← s.beginEntry .blockSequenceStart .sequenceEntryNotAllowed).dropKey
  return { s.putIndicator .blockEntry 1 with keyAllowed := true }

/-- Reads the question mark of a key. -/
def explicitKey (s : TokenStream) : Except SyntaxError TokenStream := do
  let s ← (← s.beginEntry .blockMappingStart .keyNotAllowed).dropKey
  return { s.putIndicator .key 1 with keyAllowed := !s.inFlow }

/-- Reads the colon of a value. If a key may have begun before it, it did. -/
def value (s : TokenStream) : Except SyntaxError TokenStream := do
  match s.keys with
  | some key :: outer =>
      let s := s.putAt key.number .key key.mark
      let s := s.openBlock key.mark.column (some key.number) .blockMappingStart key.mark
      let s := { s with keys := none :: outer, keyAllowed := false }
      return s.putIndicator .value 1
  | _ =>
      let s ← s.beginEntry .blockMappingStart .valueNotAllowed
      return { s.putIndicator .value 1 with keyAllowed := !s.inFlow }

/-- Reads a token that a key may begin with. -/
def keyStart (s : TokenStream) (scan : Cursor → Except SyntaxError (PlacedToken × Cursor))
    : Except SyntaxError TokenStream := do
  let s ← s.saveKey
  let (token, cursor) ← scan s.cursor
  return { s with cursor, keyAllowed := false, queue := s.queue ++ [token] }

def blockScalar (s : TokenStream) (folded : Bool) : Except SyntaxError TokenStream := do
  let s ← s.dropKey
  let (token, cursor) ← scanBlock folded s.indent s.cursor
  return { s with cursor, keyAllowed := true, queue := s.queue ++ [token] }

def plainScalar (s : TokenStream) : Except SyntaxError TokenStream := do
  let s ← s.saveKey
  let indent := match s.indent with
    | none => 0
    | some n => n + 1
  let (token, hasBreak, cursor) ← scanPlain s.inFlow indent s.cursor
  return { s with cursor, keyAllowed := hasBreak, queue := s.queue ++ [token] }

/-- Holds for the characters that have a meaning of their own at the start of a node. -/
def isIndicator (c : Char) : Bool :=
  "-?:,[]\x7b\x7d#&*!|>'\"%@`".toList.contains c

/-- Holds at a character that a plain scalar may start with. -/
def startsPlain (inFlow : Bool) (s : List Char) : Bool :=
  match s with
  | [] => false
  | c :: rest =>
      !(isBlank c || isBreak c || isIndicator c)
        || (c == '-' && !rest.head?.any isBlank)
        || (!inFlow && (c == '?' || c == ':') && !atBlank rest)

/-- Reads the token at the current place. -/
def scanHere (s : TokenStream) : Except SyntaxError TokenStream :=
  let rest := s.cursor.rest
  let atLineStart := s.mark.column == 0
  let alone := s.inFlow || atBlank (rest.drop 1)
  match rest with
  | [] => s.finish
  | c :: after =>
      if atLineStart && c == '%' then s.directive
      else if atLineStart && atDocumentIndicator '-' rest then s.documentIndicator .documentStart
      else if atLineStart && atDocumentIndicator '.' rest then s.documentIndicator .documentEnd
      else if c == '[' then s.flowStart .flowSequenceStart
      else if c == '\x7b' then s.flowStart .flowMappingStart
      else if c == ']' then s.flowEnd .flowSequenceEnd
      else if c == '\x7d' then s.flowEnd .flowMappingEnd
      else if c == ',' then s.flowEntry
      else if c == '-' && atBlank after then s.blockEntry
      else if c == '?' && alone then s.explicitKey
      else if c == ':' && alone then s.value
      else if c == '*' then s.keyStart (scanAnchor true)
      else if c == '&' then s.keyStart (scanAnchor false)
      else if c == '!' then s.keyStart (scanTag s.inFlow)
      else if c == '|' && !s.inFlow then s.blockScalar false
      else if c == '>' && !s.inFlow then s.blockScalar true
      else if c == '\'' then s.keyStart (scanQuoted true)
      else if c == '"' then s.keyStart (scanQuoted false)
      else if startsPlain s.inFlow rest then s.plainScalar
      else .error (.during .nextToken s.mark .noTokenStart s.mark)

def fetch (s : TokenStream) : Except SyntaxError TokenStream :=
  if !s.started then .ok s.start
  else do
    let (cursor, keyAllowed) :=
      skipToToken s.inFlow s.keyAllowed s.cursor (s.cursor.rest.length + 1)
    let s ← { s with cursor, keyAllowed }.dropStaleKeys
    (s.closeBlocks (some s.mark.column)).scanHere

/-- Reads tokens until it is settled what the next one is. -/
def settle (s : TokenStream) : (room : Nat) → Except SyntaxError TokenStream
  | 0 => .ok s
  | room + 1 =>
      if s.queue.isEmpty then do settle (← s.fetch) room
      else do
        let s ← s.dropStaleKeys
        if s.keys.any fun key? => key?.any fun key => key.number == s.taken then
          settle (← s.fetch) room
        else return s

/-- The next token, which stays in the stream, and the stream. The text has an end, and so have the
tokens.
-/
def peek (s : TokenStream) : Except SyntaxError (PlacedToken × TokenStream) := do
  let s ← s.settle (s.cursor.rest.length + 4)
  match s.queue with
  | token :: _ => return (token, s)
  | [] => return ({ token := .streamEnd, start := s.mark, stop := s.mark }, s)

/-- The stream after its next token. -/
def skip (s : TokenStream) : TokenStream :=
  { s with queue := s.queue.drop 1, taken := s.taken + 1 }

end TokenStream

end Folio.Yaml
