import SchemaLedger.Yaml.Decode.Basic

/-!
# Data of any type

Where several types are possible a part is first read as it is, with no type in mind.
-/

namespace SchemaLedger.Yaml

/-- Data of any type. -/
inductive Data where
  | value (v : Value)
  | sequence (items : List Data)
  | mapping (entries : List (Data × Data))

namespace Decode

/-- Application tags choose a type, which data of any type has not. -/
def refuseTag (tag : Option Tag) : Decode Unit :=
  if (tag.bind Tag.localName?).isSome then fail .taggedOpenValue else return ()

/-- The data of a scalar; integers of more than 64 bits have none. -/
def scalarData (s : Scalar) : Decode Data :=
  match s.value with
  | .error demanded => fail (.invalidValue (.value (.text s.text)) demanded)
  | .ok (.wide n) => fail (.invalidType (.value (.wide n)) "any value")
  | .ok v => return .value v

/-- The items of a sequence of data, from number `i` on. -/
def dataItems (d : Place → Node → Decode Data) (place : Place) (i : Nat) :
    List Node → Decode (List Data)
  | [] => return []
  | n :: rest => do
    let a ← d (.index place i) n
    return a :: (← dataItems d place (i + 1) rest)

/-- The entries of a mapping of data. -/
def dataEntries (d : Place → Node → Decode Data) (place : Place) :
    List (Node × Node) → Decode (List (Data × Data))
  | [] => return []
  | (k, v) :: rest => do
    let key ← d place k
    let value ← d (valueSpot ⟨place, 0⟩ k).place v
    return (key, value) :: (← dataEntries d place rest)

/-- The data of a node, in which at most `depth` collections are nested. -/
def dataAt : Nat → Place → Node → Decode Data
  | 0, place, n => located place do
    match ← follow n with
    | .scalar _ s => do refuseTag s.tag; scalarData s
    | .sequence _ tag _ | .mapping _ tag _ => do refuseTag tag; throw .tooDeep
    | _ => breakOff
  | depth + 1, place, n => located place do
    match ← follow n with
    | .scalar _ s => do refuseTag s.tag; scalarData s
    | .sequence _ tag items => do
      refuseTag tag
      return .sequence (← dataItems (dataAt depth) place 0 items)
    | .mapping _ tag entries => do
      refuseTag tag
      return .mapping (← dataEntries (dataAt depth) place entries)
    | _ => breakOff

/-- The data of a part. -/
def data (spot : Spot) (n : Node) : Decode Data :=
  dataAt spot.depth spot.place n

end Decode

end SchemaLedger.Yaml
