import SchemaLedger.Yaml.Cursor

/-!
# Why a text is no YAML

A text is malformed at a place, and mostly in the course of reading something that began at
another one. A message names both, lines and columns counted from one, except that the very
start of a text is not named, and the second place is not named where it is the first.
-/

namespace SchemaLedger.Yaml

/-- What was being read when a text turned out to be malformed. -/
inductive Scene where
  | nextToken
  | simpleKey
  | directive
  | versionDirective
  | tagDirective
  | handleOfDirective
  | openHandleOfDirective
  | addressOfDirective
  | anchor
  | alias
  | tag
  | addressOfTag
  | blockScalar
  | quotedScalar
  | escape
  | plainScalar
  | node
  | blockNode
  | flowNode
  | blockSequence
  | blockMapping
  | flowSequence
  | flowMapping
  deriving DecidableEq

/-- The wording of a scene. -/
def Scene.text : Scene → String
  | .nextToken => "while scanning for the next token"
  | .simpleKey => "while scanning a simple key"
  | .directive => "while scanning a directive"
  | .versionDirective => "while scanning a %YAML directive"
  | .tagDirective => "while scanning a %TAG directive"
  | .handleOfDirective => "while scanning a tag directive"
  | .openHandleOfDirective => "while parsing a tag directive"
  | .addressOfDirective => "while parsing a %TAG directive"
  | .anchor => "while scanning an anchor"
  | .alias => "while scanning an alias"
  | .tag => "while scanning a tag"
  | .addressOfTag => "while parsing a tag"
  | .blockScalar => "while scanning a block scalar"
  | .quotedScalar => "while scanning a quoted scalar"
  | .escape => "while parsing a quoted scalar"
  | .plainScalar => "while scanning a plain scalar"
  | .node => "while parsing a node"
  | .blockNode => "while parsing a block node"
  | .flowNode => "while parsing a flow node"
  | .blockSequence => "while parsing a block collection"
  | .blockMapping => "while parsing a block mapping"
  | .flowSequence => "while parsing a flow sequence"
  | .flowMapping => "while parsing a flow mapping"

/-- What a text breaks. -/
inductive Problem where
  | noToken
  | keyWithoutColon
  | misplacedEntry
  | misplacedKey
  | misplacedValue
  | noDirectiveName
  | oddDirectiveName
  | unknownDirective
  | noVersionNumber
  | longVersionNumber
  | noVersionPoint
  | unendedLine
  | noBlank
  | noBlankOrBreak
  | noWordCharacter
  | noExclamation
  | noAddress
  | noClosingAngle
  | noEscapedOctet
  | badFirstOctet
  | badLaterOctet
  | zeroIndentation
  | tabForIndentation
  | documentMarkInScalar
  | endInScalar
  | unknownEscape
  | noHexadecimalNumber
  | noCharacter
  | oddColon
  | tabInPlainScalar
  | noDocumentStart
  | secondVersion
  | otherVersion
  | secondTagDirective
  | undefinedHandle
  | noContent
  | noEntry
  | noKey
  | noCommaOrBracket
  | noCommaOrBrace
  deriving DecidableEq

/-- The wording of a problem. -/
def Problem.text : Problem → String
  | .noToken => "found character that cannot start any token"
  | .keyWithoutColon => "could not find expected ':'"
  | .misplacedEntry => "block sequence entries are not allowed in this context"
  | .misplacedKey => "mapping keys are not allowed in this context"
  | .misplacedValue => "mapping values are not allowed in this context"
  | .noDirectiveName => "could not find expected directive name"
  | .oddDirectiveName => "found unexpected non-alphabetical character"
  | .unknownDirective => "found unknown directive name"
  | .noVersionNumber => "did not find expected version number"
  | .longVersionNumber => "found extremely long version number"
  | .noVersionPoint => "did not find expected digit or '.' character"
  | .unendedLine => "did not find expected comment or line break"
  | .noBlank => "did not find expected whitespace"
  | .noBlankOrBreak => "did not find expected whitespace or line break"
  | .noWordCharacter => "did not find expected alphabetic or numeric character"
  | .noExclamation => "did not find expected '!'"
  | .noAddress => "did not find expected tag URI"
  | .noClosingAngle => "did not find the expected '>'"
  | .noEscapedOctet => "did not find URI escaped octet"
  | .badFirstOctet => "found an incorrect leading UTF-8 octet"
  | .badLaterOctet => "found an incorrect trailing UTF-8 octet"
  | .zeroIndentation => "found an indentation indicator equal to 0"
  | .tabForIndentation => "found a tab character where an indentation space is expected"
  | .documentMarkInScalar => "found unexpected document indicator"
  | .endInScalar => "found unexpected end of stream"
  | .unknownEscape => "found unknown escape character"
  | .noHexadecimalNumber => "did not find expected hexdecimal number"
  | .noCharacter => "found invalid Unicode character escape code"
  | .oddColon => "found unexpected ':'"
  | .tabInPlainScalar => "found a tab character that violates indentation"
  | .noDocumentStart => "did not find expected <document start>"
  | .secondVersion => "found duplicate %YAML directive"
  | .otherVersion => "found incompatible YAML document"
  | .secondTagDirective => "found duplicate %TAG directive"
  | .undefinedHandle => "found undefined tag handle"
  | .noContent => "did not find expected node content"
  | .noEntry => "did not find expected '-' indicator"
  | .noKey => "did not find expected key"
  | .noCommaOrBracket => "did not find expected ',' or ']'"
  | .noCommaOrBrace => "did not find expected ',' or '\x7d'"

/-- What makes a text malformed. -/
inductive Malformation where
  | unreadable (octets : Nat)
  | misread (problem : Problem) (mark : Mark) (scene : Option (Scene × Mark))
  | unknownAnchor (mark : Mark)
  | severalDocuments
  deriving DecidableEq

namespace Malformation

/-- A problem at a place, in the course of reading what began at another one. -/
def during (scene : Scene) (start : Mark) (problem : Problem) (mark : Mark) : Malformation :=
  .misread problem mark (some (scene, start))

/-- How a message names a place. -/
def placeText (m : Mark) : String :=
  if m.line = 0 && m.column = 0 then ""
  else " at line " ++ toString (m.line + 1) ++ " column " ++ toString (m.column + 1)

/-- The wording of a malformation. -/
def message : Malformation → String
  | .unreadable octets =>
    "control characters are not allowed" ++
      if octets = 0 then "" else " at position " ++ toString octets
  | .misread problem mark none => problem.text ++ placeText mark
  | .misread problem mark (some (scene, start)) =>
    problem.text ++ placeText mark ++ ", " ++ scene.text ++
      if start.line = mark.line && start.column = mark.column then "" else placeText start
  | .unknownAnchor mark => "unknown anchor" ++ placeText mark
  | .severalDocuments =>
    "deserializing from YAML containing more than one document is not supported"

end Malformation

end SchemaLedger.Yaml
