import Folio.Yaml.TokenStream

/-! The events of a text: starts and ends of documents, sequences and mappings, and the scalars and
aliases in them. The grammar of tokens is a machine with a stack of what to go on with.
-/

namespace Folio.Yaml

/-- What is said of a node before its content. -/
structure NodeProps where
  anchor : Option String := none
  tag : Option String := none
deriving DecidableEq, Inhabited

/-- An event without its place. -/
inductive Event where
  | streamStart
  | streamEnd
  | documentStart
  | documentEnd
  | aliasOf (name : String)
  | scalar (props : NodeProps) (text : String) (style : Style)
  | sequenceStart (props : NodeProps)
  | sequenceEnd
  | mappingStart (props : NodeProps)
  | mappingEnd
deriving DecidableEq, Inhabited

/-- An event and the place where it starts. -/
structure PlacedEvent where
  event : Event
  mark : Mark
deriving DecidableEq, Inhabited

/-- What the grammar goes on with. -/
inductive Awaited where
  | stream
  | firstDocument
  | nextDocument
  | content
  | documentEnd
  | blockNode
  | sequenceEntry (first : Bool)
  | indentlessEntry
  | mappingKey (first : Bool)
  | mappingValue
  | flowEntry (first : Bool)
  | pairKey
  | pairValue
  | pairEnd
  | flowKey (first : Bool)
  | flowValue (empty : Bool)
  | nothing
deriving DecidableEq, Inhabited

/-- A text of which events are read. -/
structure EventStream where
  tokens : TokenStream
  awaited : Awaited := .stream
  /-- What comes after the current node, innermost first. -/
  after : List Awaited := []
  /-- Where the open collections began, innermost first. -/
  began : List Mark := []
  /-- What the handles of tags stand for in the current document. -/
  handles : List (String × String) := []
deriving Inhabited

namespace EventStream

/-- An event and the stream after it. -/
abbrev Result :=
  Except SyntaxError (PlacedEvent × EventStream)

def give (s : EventStream) (event : Event) (mark : Mark) : Result :=
  .ok ({ event, mark }, s)

/-- The next token, which stays in the stream. -/
def peek (s : EventStream) : Except SyntaxError (PlacedToken × EventStream) :=
  (s.tokens.peek).map fun (token, tokens) => (token, { s with tokens })

/-- The stream after its next token. -/
def skip (s : EventStream) : EventStream :=
  { s with tokens := s.tokens.skip }

/-- The stream after the next token, and the token after that. -/
def skipPeek (s : EventStream) : Except SyntaxError (PlacedToken × EventStream) :=
  s.skip.peek

/-- Goes on with something else. -/
def goOn (s : EventStream) (awaited : Awaited) : EventStream :=
  { s with awaited }

/-- Goes on with what comes after the current node. -/
def pop (s : EventStream) : EventStream :=
  match s.after with
  | [] => { s with awaited := .nothing }
  | awaited :: after => { s with awaited, after }

/-- Remembers what comes after the node that is read now. -/
def push (s : EventStream) (awaited : Awaited) : EventStream :=
  { s with after := awaited :: s.after }

/-- Gives an empty scalar and goes on. -/
def giveEmpty (s : EventStream) (awaited : Awaited) (mark : Mark) : Result :=
  (s.goOn awaited).give (.scalar {} "" .plain) mark

/-- The error of a collection that goes on with a wrong token. -/
def wrongToken (s : EventStream) (activity : Activity) (what : Problem) (token : PlacedToken)
    : SyntaxError :=
  .problem what token.start (s.began.head?.map fun mark => (activity, mark))

/-- Remembers where a collection began and goes on after its first token. -/
def enter (s : EventStream) (first : Bool) : Except SyntaxError EventStream := do
  if !first then return s
  let (token, s) ← s.peek
  return { s with began := token.start :: s.began }.skip

/-- Gives the end of a collection and goes on after its last token. -/
def leave (s : EventStream) (event : Event) (token : PlacedToken) : Result :=
  { s.skip.pop with began := s.began.drop 1 }.give event token.start

/-- Reads directives up to the next token of another kind. -/
def readDirectives (s : EventStream) (hasVersion : Bool)
    : (room : Nat) → Except SyntaxError (PlacedToken × EventStream)
  | 0 => s.peek
  | room + 1 => do
      let (token, s) ← s.peek
      match token.token with
      | .versionDirective major minor =>
          if hasVersion then throw (.problem .duplicateVersion token.start none)
          if major != 1 || (minor != 1 && minor != 2) then
            throw (.problem .incompatibleVersion token.start none)
          s.skip.readDirectives true room
      | .tagDirective handle lead =>
          if s.handles.any fun entry => entry.1 == handle then
            throw (.problem .duplicateTagDirective token.start none)
          { s.skip with handles := s.handles ++ [(handle, lead)] }.readDirectives hasVersion room
      | _ => return (token, s)

/-- The handles that need no directive. -/
def standardHandles : List (String × String) :=
  [("!", "!"), ("!!", "tag:yaml.org,2002:")]

/-- Adds the handles that need no directive. -/
def addStandardHandles (s : EventStream) : EventStream :=
  { s with handles := s.handles ++ standardHandles }

def skipDocumentEnds (s : EventStream)
    : (room : Nat) → Except SyntaxError (PlacedToken × EventStream)
  | 0 => s.peek
  | room + 1 => do
      let (token, s) ← s.peek
      match token.token with
      | .documentEnd => s.skip.skipDocumentEnds room
      | _ => return (token, s)

/-- How many directives or indicators may stand in a row. -/
def room (s : EventStream) : Nat :=
  s.tokens.cursor.rest.length + s.tokens.queue.length + 1

/-- Reads the start of a document, or the end of the text. Only the first document may have no
indicator.
-/
def document (s : EventStream) (isFirst : Bool) : Result := do
  let (token, s) ← if isFirst then s.peek else s.skipDocumentEnds s.room
  match token.token with
  | .streamEnd => (s.skip.goOn .nothing).give .streamEnd token.start
  | .versionDirective .. | .tagDirective .. | .documentStart => explicit token s
  | _ =>
      if isFirst then
        ((s.addStandardHandles.goOn .blockNode).push .documentEnd).give .documentStart token.start
      else explicit token s
where
  /-- A document that starts with an indicator. -/
  explicit (first : PlacedToken) (s : EventStream) : Result := do
    let (token, s) ← s.readDirectives false s.room
    if token.token != .documentStart then
      throw (.problem .noDocumentStart token.start none)
    ((s.addStandardHandles.skip.goOn .content).push .documentEnd).give .documentStart first.start

/-- The full form of a tag. -/
def resolveTag (s : EventStream) (began : Mark) (mark : Mark) (tag : WrittenTag)
    : Except SyntaxError String :=
  if tag.handle.isEmpty then .ok tag.suffix
  else
    match s.handles.find? fun entry => entry.1 == tag.handle with
    | some entry => .ok (entry.2 ++ tag.suffix)
    | none => .error (.during .node began .undefinedTagHandle mark)

/-- Reads the anchor and the tag before the content of a node, in any order. -/
def nodeProps (s : EventStream) (first : PlacedToken)
    : Except SyntaxError (NodeProps × PlacedToken × EventStream) :=
  match first.token with
  | .anchor name => do
      let (second, s) ← s.skipPeek
      match second.token with
      | .tag tag =>
          let (token, s) ← s.skipPeek
          let tag ← s.resolveTag first.start second.start tag
          return ({ anchor := some name, tag := some tag }, token, s)
      | _ => return ({ anchor := some name }, second, s)
  | .tag tag => do
      let (second, s) ← s.skipPeek
      let (anchor, token, s) ←
        match second.token with
        | .anchor name => (s.skipPeek).map fun (token, s) => (some name, token, s)
        | _ => .ok (none, second, s)
      let tag ← s.resolveTag first.start first.start tag
      return ({ anchor, tag := some tag }, token, s)
  | _ => .ok ({}, first, s)

/-- Reads a node. A sequence without indentation may stand only where `indentless` says so, and
blocks only outside of flow collections.
-/
def node (s : EventStream) (block indentless : Bool) : Result := do
  let (first, s) ← s.peek
  if let .aliasOf name := first.token then return ← s.skip.pop.give (.aliasOf name) first.start
  let (props, token, s) ← s.nodeProps first
  let collection (awaited : Awaited) (event : Event) : Result :=
    (s.goOn awaited).give event first.start
  match token.token with
  | .scalar text style =>
      let props := if props.tag == some "!" then { props with tag := none } else props
      s.skip.pop.give (.scalar props text style) first.start
  | .flowSequenceStart => collection (.flowEntry true) (.sequenceStart props)
  | .flowMappingStart => collection (.flowKey true) (.mappingStart props)
  | other =>
      if indentless && other == .blockEntry then collection .indentlessEntry (.sequenceStart props)
      else if block && other == .blockSequenceStart then
        collection (.sequenceEntry true) (.sequenceStart props)
      else if block && other == .blockMappingStart then
        collection (.mappingKey true) (.mappingStart props)
      else if props.anchor.isSome || props.tag.isSome then
        s.pop.give (.scalar props "" .plain) first.start
      else
        throw (.during (if block then .blockNode else .flowNode) first.start .noNode token.start)

/-- Reads a node after a token of a block, or an empty scalar if one of `ends` follows. -/
def nodeAfter (s : EventStream) (before : PlacedToken) (ends : List Token) (awaited : Awaited)
    (indentless : Bool) : Result := do
  let (token, s) ← s.skipPeek
  if ends.contains token.token then s.giveEmpty awaited before.stop
  else (s.push awaited).node true indentless

/-- Reads a node inside of a flow collection, or an empty scalar if one of `ends` follows. -/
def flowNode (s : EventStream) (token : PlacedToken) (ends : List Token) (awaited : Awaited)
    : Result :=
  if ends.contains token.token then s.giveEmpty awaited token.start
  else (s.push awaited).node false false

def sequenceEntry (s : EventStream) (first : Bool) : Result := do
  let (token, s) ← (← s.enter first).peek
  match token.token with
  | .blockEntry => s.nodeAfter token [.blockEntry, .blockEnd] (.sequenceEntry false) false
  | .blockEnd => s.leave .sequenceEnd token
  | _ => throw (s.wrongToken .blockCollection .noEntryDash token)

/-- Reads an entry of a sequence without indentation. -/
def indentlessEntry (s : EventStream) : Result := do
  let (token, s) ← s.peek
  match token.token with
  | .blockEntry => s.nodeAfter token [.blockEntry, .key, .value, .blockEnd] .indentlessEntry false
  | _ => s.pop.give .sequenceEnd token.start

def mappingKey (s : EventStream) (first : Bool) : Result := do
  let (token, s) ← (← s.enter first).peek
  match token.token with
  | .key => s.nodeAfter token [.key, .value, .blockEnd] .mappingValue true
  | .blockEnd => s.leave .mappingEnd token
  | _ => throw (s.wrongToken .blockMapping .noKey token)

def mappingValue (s : EventStream) : Result := do
  let (token, s) ← s.peek
  match token.token with
  | .value => s.nodeAfter token [.key, .value, .blockEnd] (.mappingKey false) true
  | _ => s.giveEmpty (.mappingKey false) token.start

/-- The comma between two entries of a flow collection, which is not the end. -/
def comma (s : EventStream) (first : Bool) (token : PlacedToken) (fault : SyntaxError)
    : Except SyntaxError (PlacedToken × EventStream) :=
  if first then .ok (token, s)
  else if token.token == .flowEntry then s.skipPeek
  else .error fault

/-- Reads an entry of a flow sequence. An entry may be a mapping of one key. -/
def flowEntry (s : EventStream) (first : Bool) : Result := do
  let (token, s) ← (← s.enter first).peek
  if token.token == .flowSequenceEnd then return ← s.leave .sequenceEnd token
  let (token, s) ← s.comma first token (s.wrongToken .flowSequence .noCommaOrBracket token)
  match token.token with
  | .key => (s.skip.goOn .pairKey).give (.mappingStart {}) token.start
  | .flowSequenceEnd => s.leave .sequenceEnd token
  | _ => (s.push (.flowEntry false)).node false false

def pairKey (s : EventStream) : Result := do
  let (token, s) ← s.peek
  match token.token with
  | .value | .flowEntry | .flowSequenceEnd => s.skip.giveEmpty .pairValue token.stop
  | _ => (s.push .pairValue).node false false

/-- Reads the value of a mapping of one key. -/
def pairValue (s : EventStream) : Result := do
  let (token, s) ← s.peek
  if token.token != .value then return ← s.giveEmpty .pairEnd token.start
  let (token, s) ← s.skipPeek
  s.flowNode token [.flowEntry, .flowSequenceEnd] .pairEnd

def flowKey (s : EventStream) (first : Bool) : Result := do
  let (token, s) ← (← s.enter first).peek
  if token.token == .flowMappingEnd then return ← s.leave .mappingEnd token
  let (token, s) ← s.comma first token (s.wrongToken .flowMapping .noCommaOrBrace token)
  match token.token with
  | .key =>
      let (token, s) ← s.skipPeek
      s.flowNode token [.value, .flowEntry, .flowMappingEnd] (.flowValue false)
  | .flowMappingEnd => s.leave .mappingEnd token
  | _ => (s.push (.flowValue true)).node false false

/-- Reads a value of a flow mapping. A key without a question mark or a colon has none. -/
def flowValue (s : EventStream) (empty : Bool) : Result := do
  let (token, s) ← s.peek
  if empty || token.token != .value then return ← s.giveEmpty (.flowKey false) token.start
  let (token, s) ← s.skipPeek
  s.flowNode token [.flowEntry, .flowMappingEnd] (.flowKey false)

/-- Reads the content of a document that started with an indicator. -/
def content (s : EventStream) : Result := do
  let (token, s) ← s.peek
  match token.token with
  | .versionDirective .. | .tagDirective .. | .documentStart | .documentEnd | .streamEnd =>
      s.pop.give (.scalar {} "" .plain) token.start
  | _ => s.node true false

def next (s : EventStream) : Result :=
  match s.awaited with
  | .stream => do
      let (token, s) ← s.peek
      (s.skip.goOn .firstDocument).give .streamStart token.start
  | .firstDocument => s.document true
  | .nextDocument => s.document false
  | .content => s.content
  | .documentEnd => do
      let (token, s) ← s.peek
      let s := if token.token == .documentEnd then s.skip else s
      ({ s with handles := [] }.goOn .nextDocument).give .documentEnd token.start
  | .blockNode => s.node true false
  | .sequenceEntry first => s.sequenceEntry first
  | .indentlessEntry => s.indentlessEntry
  | .mappingKey first => s.mappingKey first
  | .mappingValue => s.mappingValue
  | .flowEntry first => s.flowEntry first
  | .pairKey => s.pairKey
  | .pairValue => s.pairValue
  | .pairEnd => do
      let (token, s) ← s.peek
      (s.goOn (.flowEntry false)).give .mappingEnd token.start
  | .flowKey first => s.flowKey first
  | .flowValue empty => s.flowValue empty
  | .nothing => .ok ({ event := .streamEnd, mark := s.tokens.mark }, s)

/-- The start of a text. A mark of byte order before it is no part of it. -/
def ofText (text : List Char) : EventStream :=
  let text :=
    match text with
    | '\ufeff' :: rest => rest
    | text => text
  { tokens := .ofText text }

end EventStream

end Folio.Yaml
