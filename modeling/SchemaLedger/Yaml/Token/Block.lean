import SchemaLedger.Yaml.Malformation

/-!
# Block scalars

A block scalar begins with a header: how its tail is chomped, and perhaps its indentation,
which otherwise is that of its first line with content, but at least one more than the
collection around it. Its lines follow. In a folded one the break between two lines becomes
a space, unless one of the two begins with a blank.
-/

namespace SchemaLedger.Yaml.Block

/-- What becomes of the line breaks at the end. -/
inductive Chomp where
  | strip
  | clip
  | keep
  deriving DecidableEq

/-- The header of a block scalar. -/
structure Header where
  chomp : Chomp := .clip
  increment : Option Nat := none

/-- A chomping mark. -/
def chomp? (c : Char) : Option Chomp :=
  if c = '+' then some .keep else if c = '-' then some .strip else none

/-- Reads the increment of a header, if there is one. An increment of zero is refused. -/
def increment (start : Mark) (c : Cursor) : Except Malformation (Option Nat × Cursor) :=
  match c.rest with
  | d :: _ =>
    if d = '0' then .error (.during .blockScalar start .zeroIndentation c.mark)
    else if d.isDigit then .ok (some (d.toNat - '0'.toNat), c.next)
    else .ok (none, c)
  | [] => .ok (none, c)

/-- Reads the marks of a header, in either order, for a scalar that begins at `start`. -/
def header (start : Mark) (c : Cursor) : Except Malformation (Header × Cursor) := do
  match c.rest.head?.bind chomp? with
  | some chomp =>
    let (n, c) ← increment start c.next
    return ({ chomp, increment := n }, c)
  | none =>
    let (n, c) ← increment start c
    match n, c.rest.head?.bind chomp? with
    | some n, some chomp => return ({ chomp, increment := some n }, c.next)
    | _, _ => return ({ increment := n }, c)

/-- What has been read of a block scalar. The break behind the last line is held back, and
so are the empty lines after it; `out` and `breaks` are in reverse order. -/
structure Progress where
  out : List Char := []
  held : Option Char := none
  breaks : List Char := []
  blankStart : Bool := false

namespace Progress

/-- Begins a line with content, whose first character is `c`. -/
def beginLine (p : Progress) (folded : Bool) (c : Char) : Progress :=
  let joined :=
    if folded && p.held = some '\n' && !p.blankStart && !isSpacing c then
      if p.breaks.isEmpty then ' ' :: p.out else p.out
    else p.held.toList ++ p.out
  { out := c :: (p.breaks ++ joined), blankStart := isSpacing c }

/-- The text, its tail chomped. -/
def finish (p : Progress) (chomp : Chomp) : String :=
  let tail := match chomp with
    | .strip => []
    | .clip => p.held.toList
    | .keep => p.breaks ++ p.held.toList
  String.ofList (tail ++ p.out).reverse

end Progress

/-- Reads on in a scalar that begins at `start`. In a margin the indentation of a line is
passed; `widest` is the greatest one seen while the indentation is still unknown. -/
def readFrom (start : Mark) (folded : Bool) (chomp : Chomp) (least : Nat) (indent : Option Nat)
    (inMargin : Bool) (widest : Nat) (p : Progress) (mark : Mark) :
    List Char → Except Malformation (String × Cursor)
  | [] => .ok (p.finish chomp, ⟨mark, []⟩)
  | c :: rest =>
    if inMargin then
      let withinMargin := match indent with
        | some n => mark.column < n
        | none => true
      if withinMargin && c == ' ' then
        readFrom start folded chomp least indent true widest p (mark.after c) rest
      else if withinMargin && c == '\t' then
        .error (.during .blockScalar start .tabForIndentation mark)
      else
        let widest := max widest mark.column
        if isBreak c then
          readFrom start folded chomp least indent true widest { p with breaks := c :: p.breaks }
            (mark.after c) rest
        else
          let n := indent.getD (max widest least)
          if mark.column = n then
            readFrom start folded chomp least (some n) false 0 (p.beginLine folded c)
              (mark.after c) rest
          else .ok (p.finish chomp, ⟨mark, c :: rest⟩)
    else if isBreak c then
      readFrom start folded chomp least indent true 0 { p with held := some c } (mark.after c) rest
    else
      readFrom start folded chomp least indent false 0 { p with out := c :: p.out }
        (mark.after c) rest

/-- Passes what may follow on the line: blanks, a comment, the line break. What was being
read is `scene`, from `start` on. -/
def endLine (scene : Scene) (start : Mark) (c : Cursor) : Except Malformation Cursor :=
  let c := c.skipWhile isSpacing
  let c := if c.rest.head? = some '#' then c.skipWhile (!isBreak ·) else c
  match c.rest with
  | [] => .ok c
  | d :: _ =>
    if isBreak d then .ok c.next else .error (.during scene start .unendedLine c.mark)

/-- Reads a block scalar. The collection around it is indented to `parent`, which is negative
if there is none. -/
def read (folded : Bool) (parent : Int) (c : Cursor) : Except Malformation (String × Cursor) := do
  let start := c.mark
  let (header, c) ← header start c.next
  let c ← endLine .blockScalar start c
  let base := parent.toNat
  let least := max (parent + 1).toNat 1
  readFrom start folded header.chomp least (header.increment.map (base + ·)) true 0 {} c.mark
    c.rest

end SchemaLedger.Yaml.Block
