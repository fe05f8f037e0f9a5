import SchemaLedger.Table.Builder

/-!
# Column calls with their chains

A table body is a sequence of calls. Each introduces a column, or the two time columns,
and a chain of modifiers follows. A reference that never names its table is dropped, and
with it the rest of its chain.
-/

namespace SchemaLedger

/-- How a call introduces its column. -/
inductive Introduction where
  | id
  | increments
  | typed (kind : Kind)
  deriving DecidableEq

/-- One link of a chain of modifiers. -/
inductive Link where
  | notNull
  | default (value : DefaultValue)
  | primary
  | unique
  | references (column : String) (table : Option String) (action : Option OnDelete)
  deriving DecidableEq

/-- One call of a table body. -/
inductive Call where
  | column (introduction : Introduction) (name : String) (chain : List Link)
  | timestamps
  deriving DecidableEq

namespace Builder

/-- Appends the column of a call. -/
def introduce (b : Builder) (introduction : Introduction) (name : String) : Builder × Handle :=
  match introduction with
  | .id => b.id name
  | .increments => b.increments name
  | .typed kind => b.column name kind

/-- Performs a link; none if the link drops its reference and ends the chain. -/
def link? (b : Builder) (h : Handle) : Link → Option Builder
  | .notNull => some (b.notNull h)
  | .default value => some (b.defaultTo h value)
  | .primary => some (b.primary h)
  | .unique => some (b.unique h)
  | .references _ none _ => none
  | .references column (some table) none => some (b.inTable ⟨h, column⟩ table)
  | .references column (some table) (some action) =>
    some ((b.inTable ⟨h, column⟩ table).onDelete h action).2

/-- Performs a chain up to the link that ends it. -/
def chain (b : Builder) (h : Handle) : List Link → Builder
  | [] => b
  | l :: rest =>
    match b.link? h l with
    | some b => b.chain h rest
    | none => b

/-- Performs a call. -/
def call (b : Builder) : Call → Builder
  | .column introduction name links =>
    let (b, h) := b.introduce introduction name
    b.chain h links
  | .timestamps => b.timestamps

/-- The table that a body describes. -/
def build (table : String) (body : List Call) : Table :=
  (body.foldl call { table }).finish

end Builder

end SchemaLedger
