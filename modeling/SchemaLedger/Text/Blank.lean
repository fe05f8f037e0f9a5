/-!
# Blank characters

White space is the class Unicode calls `White_Space`: 25 code points, of which only
six are ASCII. Texts are trimmed by it at both ends.
-/

namespace SchemaLedger.Text

/-- Unicode white space. -/
def isBlank (c : Char) : Bool :=
  ('\t' ≤ c && c ≤ '\x0d') || c == ' ' || c == '\u0085' || c == '\u00a0' || c == '\u1680' ||
    ('\u2000' ≤ c && c ≤ '\u200a') || c == '\u2028' || c == '\u2029' || c == '\u202f' ||
    c == '\u205f' || c == '\u3000'

/-- A text without its leading and trailing white space. -/
def trimChars (s : List Char) : List Char :=
  ((s.dropWhile isBlank).reverse.dropWhile isBlank).reverse

/-- A text without its leading and trailing white space. -/
def trim (s : String) : String :=
  String.ofList (trimChars s.toList)

/-- A text of white space only, the empty one included. -/
def isBlankText (s : String) : Bool :=
  s.toList.all isBlank

end SchemaLedger.Text
