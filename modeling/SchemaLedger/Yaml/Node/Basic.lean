import SchemaLedger.Yaml.Token.Basic

/-!
# Nodes of a YAML document

A document is a tree of scalars, sequences and mappings. Any of them may be anchored, and
an alias stands for an anchored one. A malformed text has a tree as well, up to the place
where it cannot be read on: there stands `broken`, as the last part of every collection
that is still open.
-/

namespace SchemaLedger.Yaml

/-- The tag of a node. -/
inductive Tag where
  | text (name : String)
  | unreadable
  deriving DecidableEq

namespace Tag

/-- The tag of a type that every document knows. -/
def core (type : String) : Tag := .text ("tag:yaml.org,2002:" ++ type)

/-- The name of a tag that belongs to the application: it begins with a mark, which is not
part of the name unless it is all there is. -/
def localName? : Tag → Option String
  | .text s =>
    match s.toList with
    | ['!'] => some "!"
    | '!' :: rest => some (String.ofList rest)
    | _ => none
  | .unreadable => none

end Tag

/-- A scalar: how it is written, its tag and its text. -/
structure Scalar where
  style : Style
  tag : Option Tag
  text : String
  deriving DecidableEq

/-- A plain scalar without text. -/
def Scalar.empty : Scalar := ⟨.plain, none, ""⟩

/-- A node. Anchored nodes and aliases carry the number of the anchor. -/
inductive Node where
  | scalar (anchor : Option Nat) (scalar : Scalar)
  | sequence (anchor : Option Nat) (tag : Option Tag) (items : List Node)
  | mapping (anchor : Option Nat) (tag : Option Tag) (entries : List (Node × Node))
  | alias (anchor : Nat)
  | broken
  deriving Inhabited

namespace Node

/-- A scalar that is not there. -/
def empty : Node := .scalar none .empty

/-- The place where the text cannot be read on. -/
def isBroken : Node → Bool
  | .broken => true
  | _ => false

mutual

/-- The anchored nodes of a tree, in the order in which they begin. -/
def anchored : Node → List (Nat × Node)
  | .sequence a t items => (a.toList.map (·, .sequence a t items)) ++ anchoredItems items
  | .mapping a t entries => (a.toList.map (·, .mapping a t entries)) ++ anchoredEntries entries
  | .scalar a s => a.toList.map (·, .scalar a s)
  | .alias _ => []
  | .broken => []

/-- The anchored nodes of a list of trees. -/
def anchoredItems : List Node → List (Nat × Node)
  | [] => []
  | n :: rest => anchored n ++ anchoredItems rest

/-- The anchored nodes of a list of entries. -/
def anchoredEntries : List (Node × Node) → List (Nat × Node)
  | [] => []
  | (k, v) :: rest => anchored k ++ anchored v ++ anchoredEntries rest

end

mutual

/-- The number of signs a tree is written with: one for a leaf, one for the start of a
collection, and one for its end if it has one. -/
def signs : Node → Nat
  | .sequence _ _ items => 1 + signsOfItems items
  | .mapping _ _ entries => 1 + signsOfEntries entries
  | .scalar .. => 1
  | .alias _ => 1
  | .broken => 0

/-- The signs of the items of a sequence, and of its end. -/
def signsOfItems : List Node → Nat
  | [] => 1
  | .broken :: _ => 0
  | n :: rest => signs n + signsOfItems rest

/-- The signs of the entries of a mapping, and of its end. -/
def signsOfEntries : List (Node × Node) → Nat
  | [] => 1
  | (k, .broken) :: _ => signs k
  | (k, v) :: rest => signs k + signs v + signsOfEntries rest

end

end Node

/-- A document: its tree, and why the text cannot be read to its end, or holds more than
this document. -/
structure Document where
  root : Node
  malformation : Option Malformation

namespace Document

/-- The node that an anchor's number stands for, the last one where several share it. -/
def target? (d : Document) (anchor : Nat) : Option Node :=
  (d.root.anchored.reverse.find? (·.1 = anchor)).map (·.2)

/-- The number of aliases that reading a document may follow. -/
def aliasLimit (d : Document) : Nat := 100 * d.root.signs

end Document

end SchemaLedger.Yaml
