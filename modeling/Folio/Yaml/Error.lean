/-! Places in a YAML text, and what can be wrong with one. -/

namespace Folio.Yaml

/-- A place in a text: how many characters stand before it, and its line and column, all counted
from zero.
-/
structure Mark where
  index : Nat := 0
  line : Nat := 0
  column : Nat := 0
deriving DecidableEq, Inhabited

/-- Holds for the start of a text. Messages do not name it. -/
def Mark.isStart (m : Mark) : Bool :=
  m.line == 0 && m.column == 0

/-- A place as messages name it, if they do. -/
def Mark.suffix (m : Mark) : String :=
  if m.isStart then ""
  else " at line " ++ toString (m.line + 1) ++ " column " ++ toString (m.column + 1)

/-- What is wrong at a place of a text. -/
inductive Problem where
  | noTokenStart
  | noColonAfterKey
  | sequenceEntryNotAllowed
  | keyNotAllowed
  | valueNotAllowed
  | unknownDirective
  | noDirectiveName
  | directiveNameEnd
  | noCommentOrBreak
  | noVersionDot
  | noVersion
  | longVersion
  | noBlank
  | noBlankOrBreak
  | noAnchorName
  | noTagClose
  | noTagMark
  | noTagUri
  | noEscapedOctet
  | badLeadingOctet
  | badTrailingOctet
  | zeroIndentation
  | tabInIndentation
  | documentIndicatorInQuotes
  | endInQuotes
  | unknownEscape
  | noHexDigit
  | noSuchCharacter
  | colonInFlow
  | tabBeforePlain
  | duplicateVersion
  | incompatibleVersion
  | duplicateTagDirective
  | noDocumentStart
  | undefinedTagHandle
  | noNode
  | noEntryDash
  | noKey
  | noCommaOrBracket
  | noCommaOrBrace
deriving DecidableEq, Inhabited

def Problem.message : Problem → String
  | noTokenStart => "found character that cannot start any token"
  | noColonAfterKey => "could not find expected ':'"
  | sequenceEntryNotAllowed => "block sequence entries are not allowed in this context"
  | keyNotAllowed => "mapping keys are not allowed in this context"
  | valueNotAllowed => "mapping values are not allowed in this context"
  | unknownDirective => "found unknown directive name"
  | noDirectiveName => "could not find expected directive name"
  | directiveNameEnd => "found unexpected non-alphabetical character"
  | noCommentOrBreak => "did not find expected comment or line break"
  | noVersionDot => "did not find expected digit or '.' character"
  | noVersion => "did not find expected version number"
  | longVersion => "found extremely long version number"
  | noBlank => "did not find expected whitespace"
  | noBlankOrBreak => "did not find expected whitespace or line break"
  | noAnchorName => "did not find expected alphabetic or numeric character"
  | noTagClose => "did not find the expected '>'"
  | noTagMark => "did not find expected '!'"
  | noTagUri => "did not find expected tag URI"
  | noEscapedOctet => "did not find URI escaped octet"
  | badLeadingOctet => "found an incorrect leading UTF-8 octet"
  | badTrailingOctet => "found an incorrect trailing UTF-8 octet"
  | zeroIndentation => "found an indentation indicator equal to 0"
  | tabInIndentation => "found a tab character where an indentation space is expected"
  | documentIndicatorInQuotes => "found unexpected document indicator"
  | endInQuotes => "found unexpected end of stream"
  | unknownEscape => "found unknown escape character"
  | noHexDigit => "did not find expected hexdecimal number"
  | noSuchCharacter => "found invalid Unicode character escape code"
  | colonInFlow => "found unexpected ':'"
  | tabBeforePlain => "found a tab character that violates indentation"
  | duplicateVersion => "found duplicate %YAML directive"
  | incompatibleVersion => "found incompatible YAML document"
  | duplicateTagDirective => "found duplicate %TAG directive"
  | noDocumentStart => "did not find expected <document start>"
  | undefinedTagHandle => "found undefined tag handle"
  | noNode => "did not find expected node content"
  | noEntryDash => "did not find expected '-' indicator"
  | noKey => "did not find expected key"
  | noCommaOrBracket => "did not find expected ',' or ']'"
  | noCommaOrBrace => "did not find expected ',' or '\x7d'"

/-- What was being read when a problem was found. -/
inductive Activity where
  | nextToken
  | simpleKey
  | directive
  | versionDirective
  | tagDirective
  | tagDirectiveHandle
  | tagDirectiveUri
  | anchor
  | aliasName
  | tag
  | tagUri
  | blockScalar
  | quotedScalar
  | quotedEscape
  | plainScalar
  | node
  | blockNode
  | flowNode
  | blockCollection
  | blockMapping
  | flowSequence
  | flowMapping
deriving DecidableEq, Inhabited

def Activity.message : Activity → String
  | nextToken => "while scanning for the next token"
  | simpleKey => "while scanning a simple key"
  | directive => "while scanning a directive"
  | versionDirective => "while scanning a %YAML directive"
  | tagDirective => "while scanning a %TAG directive"
  | tagDirectiveHandle => "while scanning a tag directive"
  | tagDirectiveUri => "while parsing a %TAG directive"
  | anchor => "while scanning an anchor"
  | aliasName => "while scanning an alias"
  | tag => "while scanning a tag"
  | tagUri => "while parsing a tag"
  | blockScalar => "while scanning a block scalar"
  | quotedScalar => "while scanning a quoted scalar"
  | quotedEscape => "while parsing a quoted scalar"
  | plainScalar => "while scanning a plain scalar"
  | node => "while parsing a node"
  | blockNode => "while parsing a block node"
  | flowNode => "while parsing a flow node"
  | blockCollection => "while parsing a block collection"
  | blockMapping => "while parsing a block mapping"
  | flowSequence => "while parsing a flow sequence"
  | flowMapping => "while parsing a flow mapping"

/-- Why a text is no YAML. -/
inductive SyntaxError where
  /-- A character that may not stand in a text; `offset` counts bytes. -/
  | controlCharacter (offset : Nat)
  | problem (problem : Problem) (at_ : Mark) (activity : Option (Activity × Mark))
deriving DecidableEq, Inhabited

/-- The text of an error. The start of a text is not named, nor is one place named twice. -/
def SyntaxError.message : SyntaxError → String
  | controlCharacter offset =>
      "control characters are not allowed"
        ++ (if offset == 0 then "" else " at position " ++ toString offset)
  | problem what place activity =>
      let text := what.message ++ place.suffix
      match activity with
      | none => text
      | some (activity, began) =>
          let text := text ++ ", " ++ activity.message
          if began.line == place.line && began.column == place.column then text
          else text ++ began.suffix

end Folio.Yaml
