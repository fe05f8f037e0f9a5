import SchemaLedger.Text.Part

/-!
# Paths

A path is a text whose parts are separated by slashes. Joining and taking the parent work on
the text and keep it as it was written, apart from the slashes and single dots at the place
where a part is taken off.
-/

namespace SchemaLedger

/-- A path of a file or directory. -/
structure Path where
  text : String
  deriving DecidableEq

namespace Path

/-- Begins at the root. -/
def isAbsolute (p : Path) : Bool := p.text.toList.head? = some '/'

/-- Another path from here; an absolute one replaces this. -/
def join (p : Path) (q : String) : Path :=
  if Path.isAbsolute ⟨q⟩ then ⟨q⟩
  else
    match p.text.toList.getLast? with
    | some c => if c = '/' then ⟨p.text ++ q⟩ else ⟨p.text ++ "/" ++ q⟩
    | none => ⟨q⟩

/-- The parts between the slashes of a text, as characters. -/
def split (s : List Char) : List (List Char) := Text.splitAt '/' s

/-- A part that stays where it is. -/
def isIdle (part : List Char) : Bool := part = [] || part = ['.']

/-- Parts without the idle ones at the end. -/
def trimEnd (parts : List (List Char)) : List (List Char) :=
  (parts.reverse.dropWhile isIdle).reverse

/-- The parts put together again. -/
def unsplit (parts : List (List Char)) : List Char :=
  List.intercalate ['/'] parts

/-- The path without its last part. A path that is just the root has none. -/
def parent? (p : Path) : Option Path :=
  let s := p.text.toList
  let (head, body) := match s with
    | '/' :: rest => (['/'], rest)
    | ['.'] => (['.'], [])
    | '.' :: '/' :: rest => (['.'], '/' :: rest)
    | _ => ([], s)
  match trimEnd (split body) with
  | [] => if head = ['.'] then some ⟨""⟩ else none
  | parts => some ⟨String.ofList (head ++ unsplit (trimEnd parts.dropLast))⟩

/-- The parts of a path that a walk along it takes, idle ones left out; a slash or a dot at
the end demands a directory there. -/
def steps (p : Path) : List String :=
  ((split p.text.toList).filter (!isIdle ·)).map String.ofList

/-- Whether the path can only be that of a directory. -/
def demandsDirectory (p : Path) : Bool :=
  (split p.text.toList).getLast?.any isIdle

end Path

/-! ## File names -/

namespace FileName

/-- The name before its last dot and what is behind it. A name without a dot, or with none
but one in front, has no extension. -/
def parts (name : String) : String × Option String :=
  let backwards := name.toList.reverse
  match backwards.dropWhile (· ≠ '.') with
  | [] => (name, none)
  | _ :: stem =>
    if stem.isEmpty || name = ".." then (name, none)
    else
      (String.ofList stem.reverse,
        some (String.ofList (backwards.takeWhile (· ≠ '.')).reverse))

/-- The name without its extension. -/
def stem (name : String) : String := (parts name).1

/-- The extension of a name. -/
def extension? (name : String) : Option String := (parts name).2

end FileName

end SchemaLedger
