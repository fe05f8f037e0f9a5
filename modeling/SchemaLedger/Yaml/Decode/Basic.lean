import SchemaLedger.Yaml.Error

/-!
# Reading typed data from a document

The parts of a document are read in their order, so the first fault of the text is the one
that is reported. Reading follows aliases, as many as a document may have of them, and
descends into collections, as deep as the limit allows. A fault that is found without a
place gets that of the innermost part being read.
-/

namespace SchemaLedger.Yaml

/-- Reading a document; the state counts the aliases that were followed. -/
abbrev Decode := ReaderT Document (StateT Nat (Except Error))

/-- The part being read: its place, and how many collections may still be entered. -/
structure Spot where
  place : Place
  depth : Nat

/-- How deep collections may be nested. -/
def nestingLimit : Nat := 128

namespace Decode

/-- Reports a fault without a place. -/
def fail {α : Type} (cause : Cause) : Decode α := throw (.fault none cause)

/-- Gives the faults of a reader a place. -/
def located {α : Type} (place : Place) (d : Decode α) : Decode α :=
  fun doc followed =>
    match d doc followed with
    | .ok r => .ok r
    | .error e => .error (e.locate place)

/-- Reports that the text cannot be read on. Where a document is whole there is nothing to
report, and no part of it is broken either. -/
def breakOff {α : Type} : Decode α := do
  throw (.malformed ((← read).malformation.getD .severalDocuments))

/-- The node that an alias stands for; other nodes stand for themselves. -/
def follow (n : Node) : Decode Node := do
  match n with
  | .broken => breakOff
  | .alias anchor =>
    let doc ← read
    let followed := (← get) + 1
    set followed
    if doc.aliasLimit < followed then throw .tooManyAliases
    match doc.target? anchor with
    | some target => return target
    | none => breakOff
  | _ => return n

/-- Enters a collection. -/
def enter (spot : Spot) : Decode Spot :=
  match spot.depth with
  | 0 => throw .tooDeep
  | d + 1 => return { spot with depth := d }

/-- Reports a node of the wrong type. -/
def wrongType {α : Type} (n : Node) (expected : String) : Decode α :=
  match n with
  | .scalar _ s =>
    match s.value with
    | .ok v => fail (.invalidType (.value v) expected)
    | .error demanded => fail (.invalidValue (.value (.text s.text)) demanded)
  | .sequence .. => fail (.invalidType .sequence expected)
  | .mapping .. => fail (.invalidType .mapping expected)
  | .alias _ | .broken => breakOff

/-! ## Scalars -/

/-- The text of a scalar, whatever it stands for. -/
def textAs (expected : String) (spot : Spot) (n : Node) : Decode String :=
  located spot.place do
    match ← follow n with
    | .scalar _ s => return s.text
    | n => wrongType n expected

/-- A text. -/
def text (spot : Spot) (n : Node) : Decode String := textAs "a string" spot n

/-- A boolean. -/
def boolean (spot : Spot) (n : Node) : Decode Bool :=
  located spot.place do
    let n ← follow n
    match n with
    | .scalar _ s =>
      match (if s.isReadAs "bool" then Scalar.boolean? s.text else none) with
      | some b => return b
      | none => wrongType n "a boolean"
    | _ => wrongType n "a boolean"

/-- A natural number of at most `hi`. -/
def natural (hi : Nat) (expected : String) (spot : Spot) (n : Node) : Decode Nat :=
  located spot.place do
    let n ← follow n
    match n with
    | .scalar _ s =>
      match (if s.isReadAs "int" then Scalar.natural? Text.uint64Max s.text else none) with
      | some v =>
        if v ≤ hi then return v else fail (.invalidValue (.value (.unsigned v)) expected)
      | none => wrongType n expected
    | _ => wrongType n expected

/-- Whether an optional scalar is left out. Only a plain one can be; one that is tagged as
null has to spell it. -/
def isLeftOut (s : Scalar) : Decode Bool :=
  if s.style ≠ .plain then return false
  else
    match s.tag with
    | none => return s.text.isEmpty || Scalar.isNullText s.text
    | some tag =>
      if tag = Tag.core "null" then
        if Scalar.isNullText s.text then return true
        else fail (.invalidValue (.value (.text s.text)) "null")
      else return false

/-- A part that may be left out. -/
def optional {α : Type} (d : Spot → Node → Decode α) (spot : Spot) (n : Node) :
    Decode (Option α) := do
  let n ← follow n
  match n with
  | .scalar _ s => if ← isLeftOut s then return none else return some (← d spot n)
  | _ => return some (← d spot n)

/-- The content of a tag that names a variant: nothing. -/
def noContent (spot : Spot) (n : Node) : Decode Unit :=
  located spot.place do
    match n with
    | .scalar _ s =>
      if s.isAbsent || (s.style = .plain && Scalar.isNullText s.text) then return ()
      else fail (.invalidValue (.value (.text s.text)) "null")
    | _ => wrongType n "unit"

/-- One of several names, written as a scalar or as a tag without content. -/
def variant {α : Type} (known : List (String × α)) (spot : Spot) (n : Node) : Decode α := do
  let select (name : String) : Decode α :=
    match known.lookup name with
    | some a => return a
    | none => fail (.unknownVariant name (known.map (·.1)))
  let n ← follow n
  let tag : Option Tag := match n with
    | .scalar _ s => s.tag
    | .sequence _ tag _ | .mapping _ tag _ => tag
    | _ => none
  match tag.bind Tag.localName? with
  | some name =>
    let a ← select name
    noContent spot n
    return a
  | none =>
    located spot.place do
      match n with
      | .scalar _ s => select s.text
      | _ => wrongType n "a YAML tag starting with '!'"

/-! ## Collections -/

/-- The items of a sequence from number `i` on. -/
def itemsFrom {α : Type} (d : Spot → Node → Decode α) (spot : Spot) (i : Nat) :
    List Node → Decode (List α)
  | [] => return []
  | n :: rest => do
    let a ← d { spot with place := .index spot.place i } n
    return a :: (← itemsFrom d spot (i + 1) rest)

/-- A sequence; one that is left out is empty. -/
def sequence {α : Type} (d : Spot → Node → Decode α) (spot : Spot) (n : Node) :
    Decode (List α) :=
  located spot.place do
    let n ← follow n
    match n with
    | .sequence _ _ items => itemsFrom d (← enter spot) 0 items
    | .scalar _ s => if s.isAbsent then return [] else wrongType n "a sequence"
    | _ => wrongType n "a sequence"

/-- The spot of the value behind a key. -/
def valueSpot (spot : Spot) (key : Node) : Spot :=
  match key with
  | .scalar _ s => { spot with place := .key spot.place s.text }
  | _ => { spot with place := .unnamed spot.place }

/-- The entries of a mapping, each added to what was read before. -/
def entriesFrom {σ : Type} (key : Spot → Node → Decode String)
    (add : σ → String → Spot → Node → Decode σ) (spot : Spot) (acc : σ) :
    List (Node × Node) → Decode σ
  | [] => return acc
  | (k, v) :: rest => do
    let name ← key spot k
    entriesFrom key add spot (← add acc name (valueSpot spot k) v) rest

/-- A mapping; one that is left out is empty. -/
def mapping {σ α : Type} (expected : String) (key : Spot → Node → Decode String)
    (add : σ → String → Spot → Node → Decode σ) (start : σ) (finish : σ → Decode α)
    (spot : Spot) (n : Node) : Decode α :=
  located spot.place do
    let n ← follow n
    match n with
    | .mapping _ _ entries => do finish (← entriesFrom key add (← enter spot) start entries)
    | .scalar _ s => if s.isAbsent then finish start else wrongType n expected
    | _ => wrongType n expected

/-- A record with fields of given names, each of which may be given once. -/
def record {σ α : Type} (expected : String) (known : List String)
    (field : σ → String → Spot → Node → Decode σ) (start : σ) (finish : σ → Decode α) :
    Spot → Node → Decode α :=
  let key (spot : Spot) (n : Node) : Decode String := do
    let name ← textAs "field identifier" spot n
    if name ∈ known then return name else fail (.unknownField name known)
  let add (acc : σ × List String) (name : String) (spot : Spot) (n : Node) :
      Decode (σ × List String) := do
    if name ∈ acc.2 then fail (.duplicateField name)
    else return (← field acc.1 name spot n, name :: acc.2)
  mapping expected key add (start, []) fun acc => finish acc.1

/-- A field that has to be there. -/
def required {α : Type} (name : String) : Option α → Decode α
  | some a => return a
  | none => fail (.missingField name)

/-- Reads the only document of a text. -/
def run {α : Type} (d : Spot → Node → Decode α) (doc : Document) : Except Error α :=
  match d ⟨.root, nestingLimit⟩ doc.root doc 0 with
  | .ok (a, _) =>
    match doc.malformation with
    | some m => .error (.malformed m)
    | none => .ok a
  | .error e => .error e

end Decode

end SchemaLedger.Yaml
