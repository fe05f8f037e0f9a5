import Mathlib.Data.List.Forall2
import SchemaLedger.Migration.Parse
import SchemaLedger.Proofs.BuiltTable
import SchemaLedger.Proofs.Decoding

/-!
# A migration file means what it says

The steps of a file are entries with keys that may be left out. A step that is accepted
becomes one operation, and a column entry in it becomes one clause, or the two of
`timestamps`. What a type brings and what the keys say meet in one clause there: a default
that is given takes the place of the one of the type, and a key that repeats what the type
brings changes nothing.

`ColumnEntry.Describes` says what an entry demands of its clause without speaking of calls.
An entry gives each sort of modifier at most once, so the modifier of a sort in its clause
is the one of its key, or else the one that the type brings; this is all the proof needs of
the order of the calls. That order matters for the statements alone, and there the calls of
a file are compared with the same calls on a builder.
-/

namespace SchemaLedger

/-! ## What entries mean -/

/-- The default that a type brings to a column of a table. -/
def ColumnType.generator? (table name : String) : ColumnType → Option DefaultValue
  | .id => some (.expression uuidGenerator)
  | .increments => some (.nextValue (Builder.sequenceName table name))
  | _ => none

/-- The columns of the type are primary keys. -/
def ColumnType.isKey : ColumnType → Bool
  | .id | .increments => true
  | _ => false

/-- The reference of an entry. -/
def ReferenceEntry.target (r : ReferenceEntry) : Reference :=
  { table := r.table, column := r.column, onDelete := r.onDelete }

namespace ColumnEntry

/-- The kind of the entry's type, with just the parameters that are given. -/
def kind? (c : ColumnEntry) : Option Kind :=
  match c.type, c.length, c.precision, c.scale with
  | .string, length, none, none => some (.string length)
  | .decimal, none, some precision, some scale => some (.decimal precision scale)
  | .id, none, none, none => some .uuid
  | .increments, none, none, none => some .integer
  | .text, none, none, none => some .text
  | .integer, none, none, none => some .integer
  | .bigInteger, none, none, none => some .bigInteger
  | .boolean, none, none, none => some .boolean
  | .json, none, none, none => some .json
  | .uuid, none, none, none => some .uuid
  | .date, none, none, none => some .date
  | .timestamp, none, none, none => some .timestamp
  | _, _, _, _ => none

/-- The clause is what the entry says of a column of a table, and no more. -/
structure Describes (table : String) (c : ColumnEntry) (clause : Clause) : Prop where
  name : c.name = some clause.name
  kind : c.kind? = some clause.kind
  notNull : clause.isNotNull = c.notNull
  primaryKey : clause.isPrimaryKey = (c.primary || c.type.isKey)
  unique : clause.isUnique = c.unique
  default : clause.defaultValue? = c.default.or (c.type.generator? table clause.name)
  reference : clause.reference? = c.references.map ReferenceEntry.target
  single : clause.Single

/-- The entry stands for these clauses of a table. -/
inductive Means (table : String) : ColumnEntry → List Clause → Prop
  | timestamps : Means table { type := .timestamps }
      [{ name := "created_at", kind := .timestamp
         modifiers := [.notNull, .default (.expression "current_timestamp")] },
       { name := "updated_at", kind := .timestamp
         modifiers := [.notNull, .default (.expression "current_timestamp")] }]
  | column {c : ColumnEntry} {clause : Clause} (h : c.Describes table clause) :
      Means table c [clause]

end ColumnEntry

/-- The step stands for this operation. -/
inductive StepEntry.Means : StepEntry → Operation → Prop
  | createTable (table : TableEntry) {columns : List (List Clause)}
      (h : List.Forall₂ (ColumnEntry.Means table.name) table.columns columns) :
      Means { createTable := some table }
        (.createTable { name := table.name, columns := columns.flatten })
  | dropTable (name : String) : Means { dropTable := some name } (.dropTable name)
  | raw (sql : String) : Means { raw := some sql } (.raw sql)

/-! ## The modifiers of an entry -/

namespace Modifier

/-- The sorts in the order in which an entry gives them. -/
def sorts : List Modifier.Sort := [.notNull, .default, .primaryKey, .unique, .references]

/-- If every sort has at most one modifier, the one of a sort is found in any order. -/
theorem find?_filterMap {f : Modifier.Sort → Option Modifier}
    (hf : ∀ s, ∀ m ∈ f s, m.sort = s) {l : List Modifier.Sort} {s : Modifier.Sort} (hs : s ∈ l) :
    (l.filterMap f).find? (fun m => m.sort = s) = f s := by
  induction l with
  | nil => cases hs
  | cons t rest ih =>
      rw [List.filterMap_cons]
      cases hft : f t with
      | none =>
          rcases List.mem_cons.1 hs with rfl | hs
          · rw [hft, List.find?_eq_none]
            intro m hm hms
            obtain ⟨t, _, htm⟩ := List.mem_filterMap.1 hm
            rw [← hf t m htm, of_decide_eq_true hms, hft] at htm
            cases htm
          · exact ih hs
      | some m =>
          have hm := hf t m hft
          by_cases hts : t = s
          · subst hts
            rw [List.find?_cons_of_pos (by simpa using hm), hft]
          · rw [List.find?_cons_of_neg (by simpa [hm] using hts)]
            exact ih ((List.mem_cons.1 hs).resolve_left (Ne.symm hts))

end Modifier

namespace ColumnEntry

/-- The modifier of a sort that a key of the entry gives. -/
def given? (c : ColumnEntry) : Modifier.Sort → Option Modifier
  | .notNull => if c.notNull then some .notNull else none
  | .default => c.default.map .default
  | .primaryKey => if c.primary then some .primaryKey else none
  | .unique => if c.unique then some .unique else none
  | .references => c.references.map fun r => .references r.target

theorem sort_of_given? (c : ColumnEntry) (s : Modifier.Sort) : ∀ m ∈ c.given? s, m.sort = s := by
  intro m hm
  cases s with
  | default =>
      obtain ⟨value, _, rfl⟩ := Option.map_eq_some_iff.1 hm
      rfl
  | references =>
      obtain ⟨r, _, rfl⟩ := Option.map_eq_some_iff.1 hm
      rfl
  | _ => obtain ⟨_, rfl⟩ := Option.ite_some_none_eq_some.1 hm; rfl

/-- The modifier of a sort that the type of the entry brings to a column of a table. -/
def brought? (c : ColumnEntry) (table name : String) : Modifier.Sort → Option Modifier
  | .default => (c.type.generator? table name).map .default
  | .primaryKey => if c.type.isKey then some .primaryKey else none
  | _ => none

theorem brought?_eq {c : ColumnEntry} {i : Introduction} (hi : c.introduction? = some i)
    (table name : String) (s : Modifier.Sort) :
    (i.modifiers table name).reverse.find? (fun m => m.sort = s) = c.brought? table name s := by
  unfold introduction? at hi
  unfold brought?
  cases htype : c.type with
  | timestamps => rw [htype] at hi; cases hi
  | _ =>
      rw [htype] at hi
      cases hi
      cases s <;> rfl

theorem modifiers_chain (c : ColumnEntry) :
    Link.modifiers c.chain = Modifier.sorts.filterMap c.given? := by
  obtain ⟨_, _, _, _, _, notNull, default, primary, unique, references⟩ := c
  cases notNull <;> cases default <;> cases primary <;> cases unique <;> cases references <;> rfl

/-- The modifier of a sort is that of the entry's key, or else the one that its type brings. -/
theorem modifier?_column {c : ColumnEntry} {i : Introduction} (hi : c.introduction? = some i)
    (table name : String) (s : Modifier.Sort) :
    (Clause.ofModifiers name i.kind (i.modifiers table name ++ Link.modifiers c.chain)).modifier? s
      = (c.given? s).or (c.brought? table name s) := by
  have hsorts : s ∈ Modifier.sorts.reverse := by cases s <;> decide
  rw [Clause.modifier?_ofModifiers, List.reverse_append, List.find?_append, modifiers_chain,
    ← List.filterMap_reverse, Modifier.find?_filterMap c.sort_of_given? hsorts, brought?_eq hi]

/-! ## Accepted column entries -/

theorem mem_parametersOf_of_check {c : ColumnEntry} (h : c.checkParameters = .ok ()) :
    (∀ p ∈ c.parameters, p ∈ parametersOf c.type) ∧
      (c.type = .decimal → c.precision.isSome = true ∧ c.scale.isSome = true) := by
  unfold checkParameters at h
  split at h
  · cases h
  · next hdecimal =>
      cases hfind : c.parameters.find? (!(parametersOf c.type).contains ·) with
      | some p => rw [hfind] at h; cases h
      | none =>
          constructor
          · intro p hp
            have hmem := List.find?_eq_none.1 hfind p hp
            simpa using hmem
          · intro htype
            simpa [htype, Option.isSome_iff_ne_none] using hdecimal

theorem parameters_of_check {c : ColumnEntry} (h : c.checkParameters = .ok ()) :
    ("length" ∉ parametersOf c.type → c.length = none) ∧
      ("precision" ∉ parametersOf c.type → c.precision = none) ∧
      ("scale" ∉ parametersOf c.type → c.scale = none) := by
  have hmem := (mem_parametersOf_of_check h).1
  have hnone {o : Option Nat} {p : String}
      (hp : ∀ q ∈ (if o.isSome then [p] else []), q ∈ parametersOf c.type)
      (hnot : p ∉ parametersOf c.type) : o = none := by
    cases o with
    | none => rfl
    | some n => exact absurd (hp p List.mem_cons_self) hnot
  simp only [parameters, List.forall_mem_append] at hmem
  exact ⟨hnone hmem.1.1, hnone hmem.1.2, hnone hmem.2⟩

/-- No parameter of an accepted entry is left out of its kind, and none is made up. -/
theorem kind?_of_check {c : ColumnEntry} (h : c.checkParameters = .ok ()) {i : Introduction}
    (hi : c.introduction? = some i) : c.kind? = some i.kind := by
  have hdecimal := (mem_parametersOf_of_check h).2
  obtain ⟨hlength, hprecision, hscale⟩ := parameters_of_check h
  unfold introduction? at hi
  unfold kind?
  cases htype : c.type with
  | timestamps => rw [htype] at hi; cases hi
  | string =>
      rw [htype] at hi hprecision hscale
      cases hi
      rw [hprecision (by decide), hscale (by decide)]
      rfl
  | decimal =>
      obtain ⟨hp, hs⟩ := hdecimal htype
      obtain ⟨p, hp⟩ := Option.isSome_iff_exists.1 hp
      obtain ⟨s, hs⟩ := Option.isSome_iff_exists.1 hs
      rw [htype] at hi hlength
      cases hi
      rw [hlength (by decide), hp, hs]
      rfl
  | _ =>
      rw [htype] at hi hlength hprecision hscale
      cases hi
      rw [hlength (by decide), hprecision (by decide), hscale (by decide)]
      rfl

theorem name_of_checkName {c : ColumnEntry} (h : c.checkName = .ok ())
    (htype : c.type ≠ .timestamps) : c.name = some (c.name.getD "") := by
  unfold checkName at h
  rw [if_neg htype] at h
  cases hname : c.name with
  | none => rw [hname] at h; cases h
  | some name => rfl

theorem of_check {c : ColumnEntry} (h : c.check = .ok ()) :
    c.checkParameters = .ok () ∧ c.checkName = .ok () := by
  unfold check at h
  cases hparameters : c.checkParameters with
  | error e => rw [hparameters] at h; cases h
  | ok _ => rw [hparameters] at h; exact ⟨rfl, h⟩

/-- An accepted entry for the time columns has nothing but its type. -/
theorem eq_of_check {c : ColumnEntry} (h : c.check = .ok ()) (htype : c.type = .timestamps) :
    c = { type := .timestamps } := by
  obtain ⟨hparameters, hname⟩ := of_check h
  obtain ⟨hlength, hprecision, hscale⟩ := parameters_of_check hparameters
  rw [htype] at hlength hprecision hscale
  unfold checkName at hname
  rw [if_pos htype] at hname
  split at hname
  · cases hname
  · next hplain =>
      simp only [hasModifiers, Bool.or_eq_true, not_or, Bool.not_eq_true,
        Option.isSome_eq_false_iff, Option.isNone_iff_eq_none] at hplain
      obtain ⟨name, type, length, precision, scale, notNull, default, primary, unique, refs⟩ := c
      simp_all [parametersOf]

theorem introduction?_eq_none {c : ColumnEntry} :
    c.introduction? = none ↔ c.type = .timestamps := by
  unfold introduction?
  cases c.type <;> simp

/-- An accepted entry describes the clause that its call makes. -/
theorem describes_of_check {c : ColumnEntry} (h : c.check = .ok ()) {i : Introduction}
    (hi : c.introduction? = some i) (table : String) :
    c.Describes table (.ofModifiers (c.name.getD "") i.kind
      (i.modifiers table (c.name.getD "") ++ Link.modifiers c.chain)) := by
  obtain ⟨hparameters, hname⟩ := of_check h
  have htype : c.type ≠ .timestamps := by
    intro htype
    rw [introduction?_eq_none.2 htype] at hi
    cases hi
  constructor
  · rw [Clause.ofModifiers_eq]
    exact name_of_checkName hname htype
  · rw [Clause.ofModifiers_eq]
    exact kind?_of_check hparameters hi
  · rw [Clause.isNotNull_eq, modifier?_column hi, given?]
    cases c.notNull <;> rfl
  · rw [Clause.isPrimaryKey_eq, modifier?_column hi, given?, brought?]
    cases c.primary <;> cases c.type.isKey <;> rfl
  · rw [Clause.isUnique_eq, modifier?_column hi, given?]
    cases c.unique <;> rfl
  · rw [Clause.defaultValue?_eq, modifier?_column hi, given?, brought?, Clause.ofModifiers_eq]
    cases c.default <;> cases c.type.generator? table _ <;> rfl
  · rw [Clause.reference?_eq, modifier?_column hi, given?]
    cases c.references <;> rfl
  · exact Clause.single_ofModifiers _ _ _

/-- An accepted entry means the clauses that its call makes. -/
theorem means_of_check {c : ColumnEntry} (h : c.check = .ok ()) (table : String) :
    c.Means table (c.call.clauses table) := by
  unfold call
  cases hi : c.introduction? with
  | some i => exact .column (describes_of_check h hi table)
  | none =>
      rw [eq_of_check h (introduction?_eq_none.1 hi)]
      exact .timestamps

end ColumnEntry

/-! ## Accepted steps -/

/-- The operation of a checked step. -/
def Step.operation : Step → Operation
  | .createTable table =>
    .createTable (Builder.build table.name (table.columns.map ColumnEntry.call))
  | .dropTable name => .dropTable name
  | .raw sql => .raw sql

theorem Step.foldl_apply (schema : Schema) (steps : List Step) :
    steps.foldl Step.apply schema = schema ++ steps.map operation := by
  induction steps generalizing schema with
  | nil => exact (List.append_nil schema).symm
  | cons step rest ih =>
      have happly : step.apply schema = schema ++ [step.operation] := by cases step <;> rfl
      rw [List.foldl_cons, ih, happly, List.map_cons, List.append_assoc]
      rfl

theorem TableEntry.check_of_checkColumnsFrom {table : String} {i : Nat} {cs : List ColumnEntry}
    (h : checkColumnsFrom table i cs = .ok ()) : ∀ c ∈ cs, c.check = .ok () := by
  induction cs generalizing i with
  | nil => simp
  | cons c rest ih =>
      rw [checkColumnsFrom] at h
      cases hc : c.check with
      | error e => rw [hc] at h; cases h
      | ok _ =>
          rw [hc] at h
          exact List.forall_mem_cons.2 ⟨hc, ih h⟩

namespace StepEntry

/-- A step has the one operation that is given and nothing else. -/
theorem operation_ok {s : StepEntry} {step : Step} (h : s.operation = .ok step) :
    (∃ table, s = { createTable := some table } ∧ step = .createTable table) ∨
      (∃ name, s = { dropTable := some name } ∧ step = .dropTable name) ∨
      (∃ sql, s = { raw := some sql } ∧ step = .raw sql) := by
  obtain ⟨createTable, dropTable, raw⟩ := s
  unfold operation at h
  split at h
  · next hc hd hr =>
      cases hc; cases hd; cases hr; cases h
      exact .inl ⟨_, rfl, rfl⟩
  · next hc hd hr =>
      cases hc; cases hd; cases hr; cases h
      exact .inr (.inl ⟨_, rfl, rfl⟩)
  · next hc hd hr =>
      cases hc; cases hd; cases hr; cases h
      exact .inr (.inr ⟨_, rfl, rfl⟩)
  · cases h
  · cases h

theorem resolve_ok {s : StepEntry} {step : Step} (h : s.resolve = .ok step) :
    s.operation = .ok step ∧
      ∀ table, step = .createTable table → ∀ c ∈ table.columns, c.check = .ok () := by
  unfold resolve at h
  cases hop : s.operation with
  | error e => rw [hop] at h; cases h
  | ok found =>
      rw [hop] at h
      cases found with
      | createTable table =>
          cases hc : TableEntry.checkColumnsFrom table.name 0 table.columns with
          | error e => simp only [bind, Except.bind, hc] at h; cases h
          | ok _ =>
              simp only [bind, Except.bind, hc] at h
              cases h
              refine ⟨rfl, fun other heq => ?_⟩
              cases heq
              exact TableEntry.check_of_checkColumnsFrom hc
      | dropTable name => cases h; exact ⟨rfl, nofun⟩
      | raw sql => cases h; exact ⟨rfl, nofun⟩

/-- An accepted step means the operation that its checked form adds. -/
theorem means_of_resolve {s : StepEntry} {step : Step} (h : s.resolve = .ok step) :
    s.Means step.operation := by
  obtain ⟨hop, hchecked⟩ := resolve_ok h
  rcases operation_ok hop with ⟨table, rfl, rfl⟩ | ⟨name, rfl, rfl⟩ | ⟨sql, rfl, rfl⟩
  · rw [Step.operation, Builder.build_eq, List.flatMap_map, List.flatMap_def]
    refine .createTable table ?_
    rw [List.forall₂_map_right_iff, List.forall₂_same]
    exact fun c hc => ColumnEntry.means_of_check (hchecked table rfl c hc) table.name
  · exact .dropTable name
  · exact .raw sql

end StepEntry

theorem resolve_of_resolveFrom {direction : Direction} {i : Nat} {entries : List StepEntry}
    {steps : List Step} (h : resolveFrom direction i entries = .ok steps) :
    List.Forall₂ (fun s step => s.resolve = .ok step) entries steps := by
  induction entries generalizing i steps with
  | nil => cases h; exact .nil
  | cons s rest ih =>
      rw [resolveFrom] at h
      cases hs : s.resolve with
      | error e => rw [hs] at h; cases h
      | ok step =>
          cases hrest : resolveFrom direction (i + 1) rest with
          | error e => rw [hs, hrest] at h; cases h
          | ok more =>
              rw [hs, hrest] at h
              cases h
              exact .cons hs (ih hrest)

theorem FileEntry.resolve_ok {f : FileEntry} {file : MigrationFile} (h : f.resolve = .ok file) :
    List.Forall₂ (fun s step => s.resolve = .ok step) f.up file.up ∧
      List.Forall₂ (fun s step => s.resolve = .ok step) f.down file.down := by
  unfold resolve at h
  cases hup : resolveFrom .up 0 f.up with
  | error e => rw [hup] at h; cases h
  | ok up =>
      cases hdown : resolveFrom .down 0 f.down with
      | error e => rw [hup] at h; simp only [bind, Except.bind, hdown] at h; cases h
      | ok down =>
          rw [hup] at h
          simp only [bind, Except.bind, hdown] at h
          cases h
          exact ⟨resolve_of_resolveFrom hup, resolve_of_resolveFrom hdown⟩

/-! ## The calls written by hand -/

namespace ColumnEntry

/-- The modifiers of an entry, called on the column of a handle. -/
def decorate (c : ColumnEntry) (b : Builder) (h : Handle) : Builder :=
  let b := if c.notNull then b.notNull h else b
  let b := match c.default with
    | some value => b.defaultTo h value
    | none => b
  let b := if c.primary then b.primary h else b
  let b := if c.unique then b.unique h else b
  match c.references with
  | none => b
  | some r =>
    let b := b.inTable ⟨h, r.column⟩ r.table
    match r.onDelete with
    | some action => (b.onDelete h action).2
    | none => b

/-- The calls of an entry on a builder. -/
def perform (b : Builder) (c : ColumnEntry) : Builder :=
  let name := c.name.getD ""
  let typed (kind : Kind) : Builder :=
    let (b, h) := b.column name kind
    c.decorate b h
  match c.type with
  | .id =>
    let (b, h) := b.id name
    c.decorate b h
  | .increments =>
    let (b, h) := b.increments name
    c.decorate b h
  | .string => typed (.string c.length)
  | .text => typed .text
  | .integer => typed .integer
  | .bigInteger => typed .bigInteger
  | .decimal => typed (.decimal (c.precision.getD 0) (c.scale.getD 0))
  | .boolean => typed .boolean
  | .json => typed .json
  | .uuid => typed .uuid
  | .date => typed .date
  | .timestamp => typed .timestamp
  | .timestamps => b.timestamps

theorem chain_eq_decorate (c : ColumnEntry) (b : Builder) (h : Handle) :
    b.chain h c.chain = c.decorate b h := by
  unfold chain decorate
  cases c.notNull <;> cases c.default <;> cases c.primary <;> cases c.unique <;>
    rcases c.references with _ | ⟨_, _, _ | _⟩ <;> rfl

theorem call_eq_perform (c : ColumnEntry) (b : Builder) : b.call c.call = c.perform b := by
  unfold call introduction? perform
  cases c.type with
  | timestamps => rfl
  | _ => exact c.chain_eq_decorate _ _

end ColumnEntry

/-- The calls of a step on a schema change. -/
def StepEntry.perform (schema : Schema) (s : StepEntry) : Schema :=
  match s.createTable, s.dropTable, s.raw with
  | some table, _, _ =>
    let b := table.columns.foldl ColumnEntry.perform { table := table.name }
    schema ++ [.createTable b.finish]
  | none, some name, _ => schema.dropTable name
  | none, none, some sql => schema.raw sql
  | none, none, none => schema

theorem StepEntry.perform_eq {s : StepEntry} {step : Step} (h : s.resolve = .ok step)
    (schema : Schema) : s.perform schema = schema ++ [step.operation] := by
  rcases operation_ok (resolve_ok h).1 with ⟨table, rfl, rfl⟩ | ⟨name, rfl, rfl⟩ | ⟨sql, rfl, rfl⟩
  · have hbody (b : Builder) : (table.columns.map ColumnEntry.call).foldl Builder.call b =
        table.columns.foldl ColumnEntry.perform b := by
      rw [List.foldl_map]
      exact congrArg (fun f => table.columns.foldl f b)
        (funext fun b => funext fun c => c.call_eq_perform b)
    rw [Step.operation, Builder.build, hbody]
    rfl
  · rfl
  · rfl

theorem StepEntry.foldl_perform {entries : List StepEntry} {steps : List Step}
    (h : List.Forall₂ (fun s step => s.resolve = .ok step) entries steps) (schema : Schema) :
    entries.foldl StepEntry.perform schema = schema ++ steps.map Step.operation := by
  induction h generalizing schema with
  | nil => exact (List.append_nil schema).symm
  | cons hs _ ih =>
      rw [List.foldl_cons, ih, perform_eq hs, List.map_cons, List.append_assoc]
      rfl

/-! ## References -/

/-- A reference that is read without a column refers to `id`. -/
theorem MigrationFile.ensures_readReference {doc : Yaml.Document} {n : Yaml.Node}
    (h : ¬ n.HasKey doc "column") (spot : Yaml.Spot) :
    Yaml.Decode.Ensures doc (readReference spot n) fun r => r.column = "id" := by
  unfold readReference
  refine Yaml.Decode.ensures_record (P := fun draft => draft.column = "id") rfl ?_ ?_ spot
  · intro e he name hname draft spot hdraft
    split
    · exact Yaml.Decode.ensures_bind (Yaml.Decode.ensures_true _) fun _ _ =>
        Yaml.Decode.ensures_pure hdraft
    · exact absurd ⟨e, he, hname⟩ h
    · exact Yaml.Decode.ensures_bind (Yaml.Decode.ensures_true _) fun _ _ =>
        Yaml.Decode.ensures_pure hdraft
  · intro draft hdraft
    exact Yaml.Decode.ensures_bind (Yaml.Decode.ensures_true _) fun _ _ =>
      Yaml.Decode.ensures_pure hdraft

/-! ## Files -/

/-- A file whose steps are accepted records one operation for each of them, in order and in
either direction, and it is what the step says: of a column, the name, the kind with the
parameters that are given, and just the modifiers that its keys give or its type brings. So the
statements are those of the same calls on a builder. A reference has the column that is
given, or else `id`. -/
theorem FileEntry.meaning_of_resolve {f : FileEntry} {file : MigrationFile}
    (h : f.resolve = .ok file) :
    List.Forall₂ StepEntry.Means f.up file.definition.up ∧
      List.Forall₂ StepEntry.Means f.down file.definition.down ∧
      file.definition.up.compile = Schema.compile (f.up.foldl StepEntry.perform []) ∧
      file.definition.down.compile = Schema.compile (f.down.foldl StepEntry.perform []) ∧
      ∀ (doc : Yaml.Document) (n : Yaml.Node), ¬ n.HasKey doc "column" → ∀ spot,
        Yaml.Decode.Ensures doc (MigrationFile.readReference spot n) fun r => r.column = "id" := by
  have hmeans {entries : List StepEntry} {steps : List Step}
      (hs : List.Forall₂ (fun s step => s.resolve = .ok step) entries steps) :
      List.Forall₂ StepEntry.Means entries (steps.foldl Step.apply []) := by
    rw [Step.foldl_apply, List.nil_append, List.forall₂_map_right_iff]
    exact hs.imp fun _ _ => StepEntry.means_of_resolve
  have hcalls {entries : List StepEntry} {steps : List Step}
      (hs : List.Forall₂ (fun s step => s.resolve = .ok step) entries steps) :
      Schema.compile (steps.foldl Step.apply []) =
        Schema.compile (entries.foldl StepEntry.perform []) := by
    rw [Step.foldl_apply, StepEntry.foldl_perform hs]
  obtain ⟨hup, hdown⟩ := resolve_ok h
  exact ⟨hmeans hup, hmeans hdown, hcalls hup, hcalls hdown,
    fun _ _ hkey => MigrationFile.ensures_readReference hkey⟩

/-- A file in which keys repeat and replace what types bring. -/
def FileEntry.accounts : FileEntry where
  up :=
    [{ createTable := some
        { name := "accounts"
          columns :=
            [{ name := some "id", type := .id, primary := true, default := some (.text "none") },
             { name := some "number", type := .increments, notNull := true },
             { name := some "owner", type := .string, length := some 80, unique := true
               references := some { table := "people", onDelete := some .cascade } },
             { name := some "balance", type := .decimal, precision := some 10, scale := some 2
               default := some (.integer 0), notNull := true },
             { type := .timestamps }] } },
     { raw := some "CREATE INDEX accounts_owner ON accounts (owner)" }]
  down := [{ dropTable := some "accounts" }]

/-- A reference that names its table only. -/
def MigrationFile.bareReference : Yaml.Node :=
  .mapping none none
    [(.scalar none ⟨.plain, none, "table"⟩, .scalar none ⟨.plain, none, "people"⟩)]

theorem FileEntry.meaning_of_resolve_accounts : ∃ file : MigrationFile,
    FileEntry.accounts.resolve = .ok file ∧
      List.Forall₂ StepEntry.Means FileEntry.accounts.up file.definition.up ∧
      Schema.compile (FileEntry.accounts.up.foldl StepEntry.perform []) =
        .ok ["CREATE SEQUENCE IF NOT EXISTS accounts_number_seq",
          "CREATE TABLE IF NOT EXISTS accounts (id UUID DEFAULT 'none' PRIMARY KEY, " ++
            "number INTEGER DEFAULT nextval('accounts_number_seq') PRIMARY KEY NOT NULL, " ++
            "owner VARCHAR(80) UNIQUE REFERENCES people(id) ON DELETE CASCADE, " ++
            "balance DECIMAL(10, 2) NOT NULL DEFAULT 0, " ++
            "created_at TIMESTAMP NOT NULL DEFAULT current_timestamp, " ++
            "updated_at TIMESTAMP NOT NULL DEFAULT current_timestamp)",
          "CREATE INDEX accounts_owner ON accounts (owner)"] ∧
      file.definition.down.compile = .ok ["DROP TABLE IF EXISTS accounts"] ∧
      ∃ r k, MigrationFile.readReference ⟨.root, 2⟩ MigrationFile.bareReference
        ⟨MigrationFile.bareReference, none⟩ 0 = .ok (r, k) ∧ r.table = "people" ∧
          r.column = "id" := by
  refine ⟨_, rfl, ?_⟩
  obtain ⟨hup, _, hcalls, _, hcolumn⟩ :=
    FileEntry.meaning_of_resolve (f := FileEntry.accounts) rfl
  have hkey : ¬ MigrationFile.bareReference.HasKey ⟨MigrationFile.bareReference, none⟩
      "column" := by
    rintro ⟨e, he, htext⟩
    obtain rfl := List.mem_singleton.1 he
    exact absurd htext (by decide)
  have hread : MigrationFile.readReference ⟨.root, 2⟩ MigrationFile.bareReference
      ⟨MigrationFile.bareReference, none⟩ 0 = .ok ({ table := "people" }, 0) := rfl
  refine ⟨hup, ?_, by decide +kernel, ⟨_, _, hread, rfl, hcolumn _ _ hkey _ _ _ _ hread⟩⟩
  rw [← hcalls]
  decide +kernel

end SchemaLedger
