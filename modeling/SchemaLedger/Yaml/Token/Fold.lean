/-!
# Folding of line breaks

Between the words of a scalar that is not a block scalar stands a gap. A gap within a line
is kept as written. In a gap with line breaks the blanks are lost and the first break is
folded: it becomes a space if no other follows, and vanishes if others do. Only a line feed
folds; the Unicode separators stay. A break that is escaped counts for nothing.
-/

namespace SchemaLedger.Yaml

/-- What stands between two words of a scalar; the lists are in reverse order. -/
inductive Gap where
  | none
  | blanks (spacing : List Char)
  | breaks (first : Option Char) (more : List Char)
  deriving DecidableEq

namespace Gap

/-- Adds a space or a tab. -/
def spacing (g : Gap) (c : Char) : Gap :=
  match g with
  | .none => .blanks [c]
  | .blanks s => .blanks (c :: s)
  | .breaks .. => g

/-- Adds a line break. -/
def newline (g : Gap) (c : Char) : Gap :=
  match g with
  | .breaks first more => .breaks first (c :: more)
  | _ => .breaks (some c) []

/-- Whether the gap holds a line break. -/
def hasBreak : Gap → Bool
  | .breaks .. => true
  | _ => false

/-- What a gap leaves of itself in front of a word, in reverse order. -/
def folded : Gap → List Char
  | .none => []
  | .blanks s => s
  | .breaks (some c) more =>
    if c = '\n' then (if more.isEmpty then [' '] else more) else more ++ [c]
  | .breaks .none more => more

end Gap

end SchemaLedger.Yaml
