import SchemaLedger.Database.Engine

/-!
# Rules

A rule answers some requests in place of an engine, which then does not see them. The first
rule of a list that applies answers. A rule can let a number of requests pass before it
applies for the first time, and can be used up.
-/

namespace SchemaLedger

/-- What a rule answers. -/
inductive RuleAnswer where
  | error (text : String)
  | rows (rows : List (List Cell)) (affected : Nat)
  deriving DecidableEq

/-- The kinds of requests. -/
inductive RequestKind where
  | openPath
  | execute
  | batch
  | query
  deriving DecidableEq

/-- A rule: it applies to requests of one kind, or of any, whose text has a given part. -/
structure Rule where
  kind : Option RequestKind := none
  part : String
  skip : Nat := 0
  times : Option Nat := none
  answer : RuleAnswer
  deriving DecidableEq

namespace Rule

/-- Whether a rule is about a request. -/
def concerns (r : Rule) (kind : RequestKind) (text : String) : Bool :=
  (match r.kind with
    | some k => k = kind
    | none => true) && Text.occursIn r.part text && r.times ≠ some 0

/-- The answer of the first rule that applies, and what becomes of the rules. -/
def find (kind : RequestKind) (text : String) : List Rule → Option RuleAnswer × List Rule
  | [] => (none, [])
  | r :: rest =>
    if r.concerns kind text then
      if r.skip = 0 then (some r.answer, { r with times := r.times.map (· - 1) } :: rest)
      else
        let (found, rest) := find kind text rest
        (found, { r with skip := r.skip - 1 } :: rest)
    else
      let (found, rest) := find kind text rest
      (found, r :: rest)

/-- The error that the rules have for opening a path. -/
def openError (rules : List Rule) (path : String) : Option String × List Rule :=
  match find .openPath path rules with
  | (some (.error text), rules) => (some text, rules)
  | (_, rules) => (none, rules)

end Rule

/-- A state with rules that come before it. -/
structure Ruled (σ : Type) where
  state : σ
  rules : List Rule := []

namespace Engine

/-- An engine behind rules. -/
def ruled {σ : Type} (engine : Engine σ) : Engine (Ruled σ) where
  execute sql s :=
    match Rule.find .execute sql s.rules with
    | (some (.error text), rules) => (.error text, { s with rules })
    | (some (.rows _ affected), rules) => (.ok affected, { s with rules })
    | (none, rules) => let (r, state) := engine.execute sql s.state; (r, ⟨state, rules⟩)
  batch sql s :=
    match Rule.find .batch sql s.rules with
    | (some (.error text), rules) => (.error text, { s with rules })
    | (some (.rows ..), rules) => (.ok (), { s with rules })
    | (none, rules) => let (r, state) := engine.batch sql s.state; (r, ⟨state, rules⟩)
  query sql s :=
    match Rule.find .query sql s.rules with
    | (some (.error text), rules) => (.error text, { s with rules })
    | (some (.rows rows _), rules) => (.ok rows, { s with rules })
    | (none, rules) => let (r, state) := engine.query sql s.state; (r, ⟨state, rules⟩)

end Engine

end SchemaLedger
