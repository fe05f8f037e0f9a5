import SchemaLedger.Proofs.BuiltTable
import SchemaLedger.Proofs.Demand
import SchemaLedger.Proofs.StoreReadings

/-!
# Which schema changes compile

The demands on a schema change stand in the order in which they count: operation by
operation, and for a table its name, the number of its columns, column by column, and the
sequences. The compilation decides this list, `Schema.compile_settles`, so the error of a
schema change that does not compile is that of the first demand it does not meet.

What the list amounts to is `Schema.Valid`, which no longer speaks of an order. The checks
look at one default and one reference of a column. In a column that was built there are no
others, so `Schema.Valid` can speak of all its modifiers.
-/

namespace SchemaLedger

open Demand (AllMet FirstUnmet Settles)

/-! ## Names -/

/-- An identifier, or two of them with a dot between. -/
def Sql.Qualified (name : String) : Prop :=
  isIdentifier name = true ∨ ∃ schema own, name = schema ++ "." ++ own ∧
    isIdentifier schema = true ∧ isIdentifier own = true

namespace Sql

theorem isQualifiedName_of_qualified {name : String} (h : Qualified name) :
    isQualifiedName name = true := by
  have hdotless {part : String} (hpart : isIdentifier part = true) :
      ∀ c ∈ part.toList, (c != '.') = true := by
    intro c hc
    rw [bne_iff_ne]
    rintro rfl
    exact notMem_of_isIdentifierChars hpart (by decide) hc
  unfold isQualifiedName isQualifiedChars
  rcases h with h | ⟨schema, own, rfl, hschema, hown⟩
  · rw [List.dropWhile_eq_nil_iff.2 (hdotless h)]
    exact h
  · have htext : (schema ++ "." ++ own).toList = schema.toList ++ '.' :: own.toList := by
      simp
    rw [htext, List.dropWhile_append_of_pos (hdotless hschema),
      List.takeWhile_append_of_pos (hdotless hschema)]
    show (isIdentifierChars (schema.toList ++ []) && isIdentifierChars own.toList) = true
    rw [List.append_nil, Bool.and_eq_true]
    exact ⟨hschema, hown⟩

theorem isQualifiedName_iff {name : String} : isQualifiedName name = true ↔ Qualified name := by
  refine ⟨fun h => ?_, isQualifiedName_of_qualified⟩
  rcases isQualifiedName_cases h with h | ⟨schema, own, htext, hschema, hown⟩
  · exact .inl h
  · refine .inr ⟨String.ofList schema, String.ofList own, String.toList_inj.1 ?_, ?_, ?_⟩
    · simpa using htext
    · unfold isIdentifier; rwa [String.toList_ofList]
    · unfold isIdentifier; rwa [String.toList_ofList]

theorem isIdentifier_append {name suffix : String} (h : isIdentifier name = true)
    (hsuffix : suffix.toList.all isIdentifierRest = true) :
    isIdentifier (name ++ suffix) = true := by
  unfold isIdentifier at h ⊢
  rw [String.toList_append]
  cases htext : name.toList with
  | nil => rw [htext] at h; cases h
  | cons c rest =>
      rw [htext, isIdentifierChars, Bool.and_eq_true] at h
      rw [List.cons_append, isIdentifierChars, Bool.and_eq_true, List.all_append,
        Bool.and_eq_true]
      exact ⟨h.1, h.2, hsuffix⟩

/-- Only the last part of a name grows. -/
theorem Qualified.append {name suffix : String} (h : Qualified name)
    (hsuffix : suffix.toList.all isIdentifierRest = true) : Qualified (name ++ suffix) := by
  rcases h with h | ⟨schema, own, rfl, hschema, hown⟩
  · exact .inl (isIdentifier_append h hsuffix)
  · exact .inr ⟨schema, own ++ suffix, String.append_assoc, hschema,
      isIdentifier_append hown hsuffix⟩

end Sql

/-- The sequence behind a column has a name that can stand in a statement if the table and the
column have. -/
theorem Builder.qualified_sequenceName {table column : String} (htable : Sql.Qualified table)
    (hcolumn : Sql.isIdentifier column = true) :
    Sql.Qualified (sequenceName table column) := by
  unfold sequenceName
  have hrest : column.toList.all Sql.isIdentifierRest = true :=
    List.all_eq_true.2 fun c hc => Sql.isIdentifierRest_of_mem hcolumn hc
  exact ((htable.append (by decide)).append hrest).append (by decide)

/-! ## The demands of each operation -/

namespace Demand

/-- The name is an identifier. -/
def identifier (name : String) : Demand SchemaError :=
  ⟨Sql.isIdentifier name = true, .invalidIdentifier name⟩

/-- The name is an identifier with at most one qualification. -/
def qualified (name : String) : Demand SchemaError := ⟨Sql.Qualified name, .invalidIdentifier name⟩

end Demand

/-- The demands on a column of a table in which the columns named `before` go before. -/
def Clause.demands (table : String) (before : List String) (clause : Clause) :
    List (Demand SchemaError) :=
  [.identifier clause.name,
    ⟨clause.name ∉ before, .invalidTable table (.duplicateColumn clause.name)⟩,
    ⟨∀ d, clause.defaultValue? = some (.float d) → d.isFinite = true,
      .invalidTable table (.nonFiniteDefault clause.name)⟩] ++
  clause.reference?.toList.flatMap fun target =>
    [.qualified target.table, .identifier target.column]

/-- The demands on the columns of a table, column by column. -/
def Table.columnDemands (table : String) (before : List String) :
    List Clause → List (Demand SchemaError)
  | [] => []
  | clause :: rest =>
    clause.demands table before ++ columnDemands table (clause.name :: before) rest

/-- The demands on a table. -/
def Table.demands (table : Table) : List (Demand SchemaError) :=
  [.qualified table.name, ⟨table.columns ≠ [], .invalidTable table.name .noColumns⟩] ++
    columnDemands table.name [] table.columns

namespace Operation

/-- The demands on an operation. There are none on a raw statement. -/
def demands : Operation → List (Demand SchemaError)
  | .createTable table => table.demands ++ table.sequences.map .qualified
  | .dropTable name => [.qualified name]
  | .raw _ => []

/-- The statements of an operation that meets its demands. -/
def statements : Operation → List String
  | .createTable table =>
    table.sequences.map ("CREATE SEQUENCE IF NOT EXISTS " ++ ·) ++ [table.createStatement]
  | .dropTable name => ["DROP TABLE IF EXISTS " ++ name]
  | .raw sql => if Text.isBlankText sql then [] else [sql]

end Operation

/-! ## The checks decide the demands -/

theorem Sql.checkIdentifier_settles (name : String) :
    Settles [.identifier name] () (checkIdentifier name) :=
  .of_ite

theorem Sql.checkQualifiedName_settles (name : String) :
    Settles [.qualified name] () (checkQualifiedName name) := by
  have hiff : Demand.mk (isQualifiedName name = true) (.invalidIdentifier name) =
      .qualified name := by
    rw [Demand.qualified, propext isQualifiedName_iff]
  exact hiff ▸ .of_ite

theorem Clause.checkDefault_settles (clause : Clause) (table : String) :
    Settles [⟨∀ d, clause.defaultValue? = some (.float d) → d.isFinite = true,
      .invalidTable table (.nonFiniteDefault clause.name)⟩] () (clause.checkDefault table) := by
  unfold checkDefault
  split
  · next d hd =>
      have hiff : (∀ d, clause.defaultValue? = some (.float d) → d.isFinite = true) =
          (d.isFinite = true) := by
        simp [hd]
      rw [hiff]
      exact .of_ite
  · next hne => exact .met (Demand.allMet_singleton.2 fun d hd => absurd hd (hne d))

theorem Clause.checkReference_settles (clause : Clause) :
    Settles (clause.reference?.toList.flatMap fun target =>
      [.qualified target.table, .identifier target.column]) () clause.checkReference := by
  unfold checkReference
  cases clause.reference? with
  | none => exact .met nofun
  | some target =>
      exact (Sql.checkQualifiedName_settles target.table).andThen
        (Sql.checkIdentifier_settles target.column)

namespace Table

theorem checkColumns_cons (table : String) (seen : List String) (clause : Clause)
    (rest : List Clause) : checkColumns table seen (clause :: rest) =
      Sql.checkIdentifier clause.name >>= fun _ =>
        (if clause.name ∉ seen then .ok ()
          else .error (.invalidTable table (.duplicateColumn clause.name))) >>= fun _ =>
        clause.checkDefault table >>= fun _ => clause.checkReference >>= fun _ =>
        checkColumns table (clause.name :: seen) rest := by
  rw [checkColumns]
  by_cases hseen : clause.name ∈ seen
  · simp only [hseen, not_true_eq_false, if_true, if_false]
    rfl
  · simp only [hseen, not_false_eq_true, if_true, if_false]
    rfl

theorem checkColumns_settles (table : String) (seen : List String) (clauses : List Clause) :
    Settles (columnDemands table seen clauses) () (checkColumns table seen clauses) := by
  induction clauses generalizing seen with
  | nil => exact .met nofun
  | cons clause rest ih =>
      rw [checkColumns_cons, columnDemands, Clause.demands]
      have hreference := clause.checkReference_settles.andThen (ih (clause.name :: seen))
      have hdefault := (clause.checkDefault_settles table).andThen hreference
      exact (Sql.checkIdentifier_settles clause.name).andThen (Settles.of_ite.andThen hdefault)

theorem check_eq (table : Table) : table.check =
    Sql.checkQualifiedName table.name >>= fun _ =>
      (if table.columns ≠ [] then .ok () else .error (.invalidTable table.name .noColumns)) >>=
      fun _ => checkColumns table.name [] table.columns := by
  rw [check]
  by_cases hempty : table.columns = []
  · simp only [hempty, List.isEmpty_nil, ne_eq, not_true_eq_false, if_true, if_false]
    rfl
  · simp only [hempty, List.isEmpty_eq_false_iff.2 hempty, ne_eq, not_false_eq_true, if_true,
      Bool.false_eq_true, if_false]
    rfl

theorem check_settles (table : Table) : Settles table.demands () table.check := by
  rw [check_eq]
  exact (Sql.checkQualifiedName_settles table.name).andThen
    (Settles.of_ite.andThen (checkColumns_settles table.name [] table.columns))

theorem compile_settles (table : Table) :
    Settles table.demands table.createStatement table.compile :=
  List.append_nil table.demands ▸ table.check_settles.andThen (.met nofun)

end Table

theorem createSequence_settles (sequence : String) :
    Settles [.qualified sequence] ("CREATE SEQUENCE IF NOT EXISTS " ++ sequence)
      (createSequence sequence) :=
  (Sql.checkQualifiedName_settles sequence).andThen (.met nofun)

theorem Operation.compile_settles (op : Operation) :
    Settles op.demands op.statements op.compile := by
  cases op with
  | createTable table =>
      have hsequences := Settles.mapM createSequence_settles table.sequences
      rw [← List.map_eq_flatMap] at hsequences
      have hall := hsequences.map (g := (· ++ [table.createStatement]))
      rw [map_eq_pure_bind] at hall
      exact table.compile_settles.bind hall
  | dropTable name => exact (Sql.checkQualifiedName_settles name).andThen (.met nofun)
  | raw sql => exact .met nofun

/-- Compilation carries out every operation, or gives the error of the first one that does not
meet its demands. -/
theorem Schema.compile_settles (schema : Schema) :
    Settles (schema.flatMap Operation.demands) (schema.flatMap Operation.statements)
      schema.compile := by
  have hall := (Settles.mapM Operation.compile_settles schema).map (g := List.flatten)
  rw [map_eq_pure_bind, ← List.flatMap_def] at hall
  exact hall

/-! ## Valid schema changes -/

/-- The default can stand in a statement: a number is finite, and the name of a sequence is a
qualified name. -/
def DefaultValue.Valid : DefaultValue → Prop
  | .float d => d.isFinite = true
  | .nextValue sequence => Sql.Qualified sequence
  | _ => True

/-- The modifier can stand in a statement. -/
def Modifier.Valid : Modifier → Prop
  | .default value => value.Valid
  | .references target => Sql.Qualified target.table ∧ Sql.isIdentifier target.column = true
  | _ => True

/-- The table has columns with names of their own, and all that it says can stand in a
statement. -/
structure Table.Valid (table : Table) : Prop where
  name : Sql.Qualified table.name
  columns : table.columns ≠ []
  identifiers : ∀ clause ∈ table.columns, Sql.isIdentifier clause.name = true
  distinct : (table.columns.map (·.name)).Nodup
  modifiers : ∀ clause ∈ table.columns, ∀ m ∈ clause.modifiers, m.Valid

/-- The operation has statements. A raw statement is not looked into. -/
def Operation.Valid : Operation → Prop
  | .createTable table => table.Valid
  | .dropTable name => Sql.Qualified name
  | .raw _ => True

namespace Schema

/-- Every operation of the schema change has statements. -/
def Valid (schema : Schema) : Prop := ∀ op ∈ schema, op.Valid

/-- The schema changes that can be put together. -/
inductive Built : Schema → Prop
  | new : Built []
  | createTable {schema : Schema} (built : Built schema) (name : String) (body : List Call) :
    Built (schema.createTable name body)
  | dropTable {schema : Schema} (built : Built schema) (name : String) :
    Built (schema.dropTable name)
  | raw {schema : Schema} (built : Built schema) (sql : String) : Built (schema.raw sql)

end Schema

/-- The columns of the operation have each sort of modifier at most once. -/
def Operation.Single : Operation → Prop
  | .createTable table => ∀ clause ∈ table.columns, clause.Single
  | _ => True

theorem Schema.Built.single {schema : Schema} (built : schema.Built) :
    ∀ op ∈ schema, op.Single := by
  induction built with
  | new => exact nofun
  | createTable _ name body ih =>
      exact List.forall_mem_append.2
        ⟨ih, List.forall_mem_singleton.2 (Builder.single_build name body)⟩
  | dropTable _ name ih => exact List.forall_mem_append.2 ⟨ih, List.forall_mem_singleton.2 trivial⟩
  | raw _ sql ih => exact List.forall_mem_append.2 ⟨ih, List.forall_mem_singleton.2 trivial⟩

/-! ## What the demands amount to -/

namespace Clause

variable {clause : Clause}

theorem default_mem_iff (single : clause.Single) {value : DefaultValue} :
    .default value ∈ clause.modifiers ↔ clause.defaultValue? = some value := by
  refine ⟨defaultValue?_of_mem single, fun h => ?_⟩
  obtain ⟨m, hm, hvalue⟩ := List.exists_of_findSome?_eq_some h
  cases m with
  | default v => cases hvalue; exact hm
  | _ => cases hvalue

theorem references_mem_iff (single : clause.Single) {target : Reference} :
    .references target ∈ clause.modifiers ↔ clause.reference? = some target := by
  refine ⟨reference?_of_mem single, fun h => ?_⟩
  obtain ⟨m, hm, htarget⟩ := List.exists_of_findSome?_eq_some h
  cases m with
  | references t => cases htarget; exact hm
  | _ => cases htarget

theorem sequence?_eq_some_iff {sequence : String} :
    clause.sequence? = some sequence ↔ clause.defaultValue? = some (.nextValue sequence) := by
  unfold sequence?
  split
  · next s hs => simp [hs]
  · next hne => exact ⟨nofun, fun h => absurd h (hne sequence)⟩

theorem allMet_demands {table : String} {before : List String} :
    AllMet (clause.demands table before) ↔ clause.Named ∧ clause.name ∉ before := by
  have hreference : AllMet (clause.reference?.toList.flatMap fun target =>
      [.qualified target.table, .identifier target.column]) ↔
      ∀ target, clause.reference? = some target →
        Sql.isQualifiedName target.table = true ∧ Sql.isIdentifier target.column = true := by
    rw [Demand.allMet_flatMap]
    simp [AllMet, Demand.qualified, Demand.identifier, Sql.isQualifiedName_iff]
  unfold demands
  rw [Demand.allMet_append, hreference]
  simp only [AllMet, List.forall_mem_cons, List.not_mem_nil, false_implies, implies_true, and_true]
  exact ⟨fun ⟨⟨hname, hfresh, hnumber⟩, href⟩ => ⟨⟨hname, hnumber, href⟩, hfresh⟩,
    fun ⟨named, hfresh⟩ => ⟨⟨named.column, hfresh, named.number⟩, named.reference⟩⟩

/-- In a column with each sort of modifier at most once the checks see all there is. -/
theorem named_and_sequence_iff (single : clause.Single) :
    (clause.Named ∧ ∀ sequence, clause.sequence? = some sequence → Sql.Qualified sequence) ↔
      Sql.isIdentifier clause.name = true ∧ ∀ m ∈ clause.modifiers, m.Valid := by
  constructor
  · rintro ⟨named, hsequence⟩
    refine ⟨named.column, fun m hm => ?_⟩
    cases m with
    | default value =>
        have hvalue := (default_mem_iff single).1 hm
        cases value with
        | float d => exact named.number d hvalue
        | nextValue sequence => exact hsequence sequence (sequence?_eq_some_iff.2 hvalue)
        | _ => trivial
    | references target =>
        obtain ⟨htable, hcolumn⟩ := named.reference target ((references_mem_iff single).1 hm)
        exact ⟨Sql.isQualifiedName_iff.1 htable, hcolumn⟩
    | _ => trivial
  · rintro ⟨hname, hvalid⟩
    refine ⟨⟨hname, fun d hd => ?_, fun target ht => ?_⟩, fun sequence hs => ?_⟩
    · exact hvalid _ ((default_mem_iff single).2 hd)
    · obtain ⟨htable, hcolumn⟩ := hvalid _ ((references_mem_iff single).2 ht)
      exact ⟨Sql.isQualifiedName_iff.2 htable, hcolumn⟩
    · exact hvalid _ ((default_mem_iff single).2 (sequence?_eq_some_iff.1 hs))

end Clause

namespace Table

theorem allMet_columnDemands {table : String} {before : List String} {clauses : List Clause} :
    AllMet (columnDemands table before clauses) ↔
      (∀ clause ∈ clauses, clause.Named) ∧ (clauses.map (·.name)).Nodup ∧
        ∀ clause ∈ clauses, clause.name ∉ before := by
  induction clauses generalizing before with
  | nil => exact iff_of_true nofun ⟨nofun, List.nodup_nil, nofun⟩
  | cons clause rest ih =>
      rw [columnDemands, Demand.allMet_append, Clause.allMet_demands, ih, List.map_cons,
        List.nodup_cons, List.forall_mem_cons, List.forall_mem_cons]
      simp only [List.mem_cons, List.mem_map, not_or, not_exists, not_and]
      constructor
      · rintro ⟨⟨named, fresh⟩, hnamed, hdistinct, hnew⟩
        exact ⟨⟨named, hnamed⟩, ⟨fun c hc => (hnew c hc).1, hdistinct⟩, fresh,
          fun c hc => (hnew c hc).2⟩
      · rintro ⟨⟨named, hnamed⟩, ⟨hne, hdistinct⟩, fresh, hnew⟩
        exact ⟨⟨named, fresh⟩, hnamed, hdistinct, fun c hc => ⟨hne c hc, hnew c hc⟩⟩

theorem allMet_demands {table : Table} : AllMet table.demands ↔
    Sql.Qualified table.name ∧ table.columns ≠ [] ∧
      (∀ clause ∈ table.columns, clause.Named) ∧ (table.columns.map (·.name)).Nodup := by
  unfold demands
  rw [Demand.allMet_append, allMet_columnDemands]
  simp only [AllMet, List.forall_mem_cons, List.not_mem_nil, false_implies, implies_true, and_true,
    not_false_eq_true, and_assoc]
  rfl

/-- A table that passes its check has columns, and all names in it can stand in a
statement. -/
theorem named_of_check {table : Table} (h : table.check = .ok ()) :
    Sql.isQualifiedName table.name = true ∧ table.columns ≠ [] ∧
      ∀ clause ∈ table.columns, clause.Named := by
  obtain ⟨hname, hne, hnamed, _⟩ := allMet_demands.1 (table.check_settles.ok_iff.1 h).1
  exact ⟨Sql.isQualifiedName_iff.2 hname, hne, hnamed⟩

theorem mem_sequences {table : Table} {sequence : String} :
    sequence ∈ table.sequences ↔ ∃ clause ∈ table.columns, clause.sequence? = some sequence :=
  List.mem_filterMap

theorem allMet_demands_iff_valid {table : Table}
    (single : ∀ clause ∈ table.columns, clause.Single) :
    AllMet (table.demands ++ table.sequences.map .qualified) ↔ table.Valid := by
  have hsequences : AllMet (table.sequences.map .qualified) ↔
      ∀ clause ∈ table.columns, ∀ sequence, clause.sequence? = some sequence →
        Sql.Qualified sequence := by
    simp only [AllMet, List.forall_mem_map, mem_sequences]
    exact ⟨fun h clause hc sequence hs => h sequence ⟨clause, hc, hs⟩,
      fun h sequence ⟨clause, hc, hs⟩ => h clause hc sequence hs⟩
  rw [Demand.allMet_append, allMet_demands, hsequences]
  constructor
  · rintro ⟨⟨hname, hne, hnamed, hdistinct⟩, hdrawn⟩
    have hclause := fun clause hc =>
      (Clause.named_and_sequence_iff (single clause hc)).1 ⟨hnamed clause hc, hdrawn clause hc⟩
    exact ⟨hname, hne, fun c hc => (hclause c hc).1, hdistinct, fun c hc => (hclause c hc).2⟩
  · intro valid
    have hclause := fun clause hc => (Clause.named_and_sequence_iff (single clause hc)).2
      ⟨valid.identifiers clause hc, valid.modifiers clause hc⟩
    exact ⟨⟨valid.name, valid.columns, fun c hc => (hclause c hc).1, valid.distinct⟩,
      fun c hc => (hclause c hc).2⟩

end Table

theorem Operation.allMet_demands_iff_valid {op : Operation} (single : op.Single) :
    AllMet op.demands ↔ op.Valid := by
  cases op with
  | createTable table => exact Table.allMet_demands_iff_valid single
  | dropTable name => exact Demand.allMet_singleton
  | raw sql => exact iff_of_true nofun trivial

namespace Schema

/-- A schema change that was put together compiles if and only if each of its operations is
valid, and then to the statements of the operations in their order. Otherwise the error is that
of the first demand which the first operation that is not valid does not meet. The sequence that
`increments` draws from is never the fault. -/
theorem compiles_iff_valid {schema : Schema} (built : schema.Built) :
    (∀ statements, schema.compile = .ok statements ↔
      schema.Valid ∧ statements = schema.flatMap Operation.statements) ∧
    (∀ e, schema.compile = .error e ↔ ∃ before op after, schema = before ++ op :: after ∧
      (∀ o ∈ before, o.Valid) ∧ FirstUnmet op.demands e) ∧
    ∀ (b : Builder) (name : String), Sql.Qualified b.table → Sql.isIdentifier name = true →
      ∃ clause, (b.increments name).1.clause? (b.increments name).2 = some clause ∧
        clause.sequence? = some (Builder.sequenceName b.table name) ∧
        Sql.Qualified (Builder.sequenceName b.table name) := by
  have hmet : ∀ op ∈ schema, (AllMet op.demands ↔ op.Valid) := fun op hop =>
    Operation.allMet_demands_iff_valid (built.single op hop)
  refine ⟨fun statements => ?_, fun e => ?_, fun b name htable hname => ?_⟩
  · rw [schema.compile_settles.ok_iff, Demand.allMet_flatMap, eq_comm (a := statements)]
    exact and_congr_left fun _ => forall₂_congr hmet
  · rw [schema.compile_settles.error_iff, Demand.firstUnmet_flatMap]
    refine exists_congr fun before => exists_congr fun op => exists_congr fun after => ?_
    refine and_congr_right fun heq => and_congr_left fun _ => forall₂_congr fun o ho => ?_
    exact hmet o (heq ▸ List.mem_append_left _ ho)
  · refine ⟨.ofModifiers name .integer (Introduction.modifiers b.table name .increments), ?_, rfl,
      Builder.qualified_sequenceName htable hname⟩
    show Builder.clause? (b.introduce .increments name).1 (b.introduce .increments name).2 = _
    rw [Builder.introduce_eq]
    exact List.getElem?_concat_length

/-- Two tables, the second with a reference to the first, and the removal of a third one. The
raw statement is blank. -/
def posted : Schema :=
  [.createTable (Builder.build "app.users" [.column .increments "id" [],
      .column (.typed .text) "name" [.notNull, .default (.text "?")]]),
    .raw " \n",
    .createTable (Builder.build "posts" [.column .id "id" [],
      .column (.typed .integer) "author" [.references "id" (some "app.users") (some .cascade)]]),
    .dropTable "drafts"]

/-- The statements of the tables. -/
def postedStatements : List String :=
  ["CREATE SEQUENCE IF NOT EXISTS app.users_id_seq",
    "CREATE TABLE IF NOT EXISTS app.users (" ++
      "id INTEGER DEFAULT nextval('app.users_id_seq') PRIMARY KEY, " ++
      "name TEXT NOT NULL DEFAULT '?')",
    "CREATE TABLE IF NOT EXISTS posts (id UUID DEFAULT gen_random_uuid() PRIMARY KEY, " ++
      "author INTEGER REFERENCES app.users(id) ON DELETE CASCADE)",
    "DROP TABLE IF EXISTS drafts"]

/-- A column that repeats a name, and faults that do not count: those of the same column that
are looked for later, those behind it, and that of its table's first sequence. -/
def misposted : Schema :=
  [.dropTable "drafts",
    .createTable (Builder.build "posts" [
      .column .increments "id" [.default (.nextValue "a b")],
      .column (.typed .text) "id" [.references "1" (some "a.b.c") none],
      .column (.typed .text) "2" []]),
    .dropTable ""]

theorem compiles_iff_valid_of_posted :
    Built posted ∧ posted.compile = .ok postedStatements ∧ posted.Valid ∧
      postedStatements = posted.flatMap Operation.statements ∧
      Built misposted ∧
      misposted.compile = .error (.invalidTable "posts" (.duplicateColumn "id")) ∧
      (∃ before op after, misposted = before ++ op :: after ∧ (∀ o ∈ before, o.Valid) ∧
        FirstUnmet op.demands (.invalidTable "posts" (.duplicateColumn "id"))) ∧
      Sql.Qualified "app.users_id_seq" := by
  have built : Built posted := (((Built.new.createTable _ _).raw _).createTable _ _).dropTable _
  have built' : Built misposted := ((Built.new.dropTable _).createTable _ _).dropTable _
  have h : posted.compile = .ok postedStatements := by decide +kernel
  have h' : misposted.compile = .error (.invalidTable "posts" (.duplicateColumn "id")) := by
    decide +kernel
  obtain ⟨hok, _, hincrements⟩ := compiles_iff_valid built
  obtain ⟨_, herror, _⟩ := compiles_iff_valid built'
  obtain ⟨valid, heq⟩ := (hok _).1 h
  obtain ⟨_, _, _, hsequence⟩ := hincrements { table := "app.users" } "id"
    (Sql.isQualifiedName_iff.1 (by decide)) (by decide)
  exact ⟨built, h, valid, heq, built', h', (herror _).1 h', hsequence⟩

end Schema

end SchemaLedger
