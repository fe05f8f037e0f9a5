import SchemaLedger.Yaml.Malformation

/-!
# Tokens of a YAML text

The block structure is told by indentation; the tokens make it explicit: a block
collection opens with a token of its own and closes with `blockEnd`, and the key of a
mapping is announced by `key` even where the text has no mark for it.
-/

namespace SchemaLedger.Yaml

/-- How a scalar is written. -/
inductive Style where
  | plain
  | singleQuoted
  | doubleQuoted
  | literal
  | folded
  deriving DecidableEq

/-- A token. The suffix or expansion of a tag is absent if its escapes do not form a text. -/
inductive Token where
  | streamEnd
  | versionDirective (major minor : Nat)
  | tagDirective (handle : String) (expansion : Option String)
  | documentStart
  | documentEnd
  | blockSequence
  | blockMapping
  | blockEnd
  | flowSequence
  | flowSequenceEnd
  | flowMapping
  | flowMappingEnd
  | blockEntry
  | flowEntry
  | key
  | value
  | alias (name : String)
  | anchor (name : String)
  | tag (handle : String) (suffix : Option String)
  | scalar (style : Style) (text : String)
  deriving DecidableEq

/-- A token and where it begins. -/
structure Sign where
  token : Token
  mark : Mark
  deriving DecidableEq

end SchemaLedger.Yaml
