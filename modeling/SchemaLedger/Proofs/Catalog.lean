import SchemaLedger.Proofs.SchemaDemands

/-!
# Statements that can be executed again

What a database knows of its tables and sequences is a catalog: the definition of each table,
and which sequences there are. A statement that creates something checks that it is absent and
one that drops something that it is present. With a guard, `IF NOT EXISTS` or `IF EXISTS`, the
statement then does nothing, and without one it fails.

All statements of a schema change have a guard, so none fails. That a second execution leaves
everything as it is takes more than a look at each statement: a table may be dropped and
created again with other columns, and which of its definitions is kept depends on what was
there. The invariant is about one name at a time. What a list of guarded statements does to a
table is either the same whatever was there, because the table was dropped on the way, or to
fill a gap, `Catalog.Settling`. Both are so again for one list after another, and both are
idempotent.
-/

namespace SchemaLedger

/-- The definitions of the tables that are there, and the sequences that are. -/
@[ext]
structure Catalog where
  tables : String → Option String
  sequences : String → Bool

namespace Catalog

/-- Sets what there is of a table. -/
def setTable (c : Catalog) (name : String) (definition : Option String) : Catalog :=
  { c with tables := Function.update c.tables name definition }

/-- Adds a sequence. -/
def addSequence (c : Catalog) (name : String) : Catalog :=
  { c with sequences := Function.update c.sequences name true }

section

variable (c : Catalog) (name : String) (definition : Option String)

@[simp] theorem tables_setTable_self : (c.setTable name definition).tables name = definition := by
  simp [setTable]

@[simp] theorem tables_setTable_of_ne {other : String} (h : other ≠ name) :
    (c.setTable name definition).tables other = c.tables other := by
  simp [setTable, h]

@[simp] theorem sequences_setTable : (c.setTable name definition).sequences = c.sequences := rfl

@[simp] theorem tables_addSequence : (c.addSequence name).tables = c.tables := rfl

@[simp] theorem sequences_addSequence_self : (c.addSequence name).sequences name = true := by
  simp [addSequence]

@[simp] theorem sequences_addSequence_of_ne {other : String} (h : other ≠ name) :
    (c.addSequence name).sequences other = c.sequences other := by
  simp [addSequence, h]

variable {c name definition}

theorem setTable_eq_self (h : c.tables name = definition) : c.setTable name definition = c := by
  rw [setTable, ← h, Function.update_eq_self]

theorem addSequence_eq_self (h : c.sequences name = true) : c.addSequence name = c := by
  rw [addSequence, ← h, Function.update_eq_self]

end

/-! ## Commands -/

/-- What a statement does to a catalog. A guarded command passes over what it finds done. -/
inductive Command where
  | createTable (guarded : Bool) (name definition : String)
  | createSequence (guarded : Bool) (name : String)
  | dropTable (guarded : Bool) (name : String)
  deriving DecidableEq

/-- Why a statement fails. -/
inductive Fault where
  | present (name : String)
  | absent (name : String)
  | unknown (statement : String)
  deriving DecidableEq

namespace Command

/-- The command that creates a table, from behind its first words. -/
def createTable? (guarded : Bool) (s : List Char) : Option Command := do
  let (name, definition) ← Text.cut? " (".toList s
  return .createTable guarded (String.ofList name) (String.ofList definition)

/-- The forms of commands: how they begin, and how the rest is read. A form with a guard comes
before the one without. -/
def forms : List (String × (List Char → Option Command)) :=
  [("CREATE TABLE IF NOT EXISTS ", createTable? true),
    ("CREATE TABLE ", createTable? false),
    ("CREATE SEQUENCE IF NOT EXISTS ", fun s => some (.createSequence true (String.ofList s))),
    ("CREATE SEQUENCE ", fun s => some (.createSequence false (String.ofList s))),
    ("DROP TABLE IF EXISTS ", fun s => some (.dropTable true (String.ofList s))),
    ("DROP TABLE ", fun s => some (.dropTable false (String.ofList s)))]

/-- The command that a statement is. -/
def ofText? (statement : String) : Option Command :=
  forms.findSome? fun (start, read) => (Text.after? start.toList statement.toList).bind read

end Command

/-- What is left if something is as a command finds it done already. -/
def passOver (c : Catalog) (guarded : Bool) (fault : Fault) : Except Fault Catalog :=
  if guarded then .ok c else .error fault

/-- Carries out a command. -/
def perform (c : Catalog) : Command → Except Fault Catalog
  | .createTable guarded name definition =>
    match c.tables name with
    | some _ => c.passOver guarded (.present name)
    | none => .ok (c.setTable name (some definition))
  | .createSequence guarded name =>
    if c.sequences name then c.passOver guarded (.present name)
    else .ok (c.addSequence name)
  | .dropTable guarded name =>
    match c.tables name with
    | some _ => .ok (c.setTable name none)
    | none => c.passOver guarded (.absent name)

/-- Executes a statement. -/
def execute (c : Catalog) (statement : String) : Except Fault Catalog :=
  match Command.ofText? statement with
  | some command => c.perform command
  | none => .error (.unknown statement)

/-- Executes statements up to the first that fails. -/
def run (c : Catalog) (statements : List String) : Except Fault Catalog :=
  statements.foldlM execute c

theorem run_append {c : Catalog} {statements statements' : List String} :
    c.run (statements ++ statements') = c.run statements >>= fun c => c.run statements' := by
  rw [run, List.foldlM_append]
  rfl

/-! ## The statements of a schema change as commands -/

namespace Command

theorem ofText?_createTable {name : String} (h : Sql.isQualifiedName name = true)
    (definition : String) :
    ofText? ("CREATE TABLE IF NOT EXISTS " ++ name ++ " (" ++ definition) =
      some (.createTable true name definition) := by
  have hspace := Sql.notMem_of_isQualifiedName h (c := ' ') (by decide) (by decide)
  have hread : createTable? true (name.toList ++ (" (".toList ++ definition.toList)) =
      some (.createTable true name definition) := by
    rw [createTable?, Text.cut?_append (by simp) hspace]
    simp
  rw [ofText?, String.toList_append, String.toList_append, String.toList_append, List.append_assoc,
    List.append_assoc, forms, Text.findSome?_found hread]

theorem ofText?_createSequence (name : String) :
    ofText? ("CREATE SEQUENCE IF NOT EXISTS " ++ name) = some (.createSequence true name) := by
  rw [ofText?, String.toList_append, forms, Text.findSome?_skip, Text.findSome?_skip,
    Text.findSome?_taken, String.ofList_toList]
  all_goals exact fun _ => rfl

theorem ofText?_dropTable (name : String) :
    ofText? ("DROP TABLE IF EXISTS " ++ name) = some (.dropTable true name) := by
  rw [ofText?, String.toList_append, forms, Text.findSome?_skip, Text.findSome?_skip,
    Text.findSome?_skip, Text.findSome?_skip, Text.findSome?_taken, String.ofList_toList]
  all_goals exact fun _ => rfl

end Command

/-! ## What guarded statements do -/

/-- A change of a catalog. To each table it does the same whatever was there, or it gives a
definition to a table that is absent; and it may add sequences. -/
structure Settling (change : Catalog → Catalog) : Prop where
  tables : ∀ name, (∃ outcome, ∀ c, (change c).tables name = outcome) ∨
    ∃ definition, ∀ c, (change c).tables name = (c.tables name).or definition
  sequences : ∀ name, ∃ added, ∀ c, (change c).sequences name = (c.sequences name || added)

namespace Settling

variable {change change' : Catalog → Catalog}

theorem id : Settling id :=
  ⟨fun _ => .inr ⟨none, fun _ => (Option.or_none).symm⟩,
    fun _ => ⟨false, fun _ => (Bool.or_false _).symm⟩⟩

theorem comp (h' : Settling change') (h : Settling change) : Settling (change' ∘ change) where
  tables name := by
    rcases h'.tables name with ⟨outcome, hlast⟩ | ⟨definition', hlast⟩
    · exact .inl ⟨outcome, fun c => hlast (change c)⟩
    · rcases h.tables name with ⟨outcome, hfirst⟩ | ⟨definition, hfirst⟩
      · exact .inl ⟨outcome.or definition', fun c => by
          rw [Function.comp_apply, hlast, hfirst]⟩
      · exact .inr ⟨definition.or definition', fun c => by
          rw [Function.comp_apply, hlast, hfirst, Option.or_assoc]⟩
  sequences name := by
    obtain ⟨added, hfirst⟩ := h.sequences name
    obtain ⟨added', hlast⟩ := h'.sequences name
    exact ⟨added || added', fun c => by rw [Function.comp_apply, hlast, hfirst, Bool.or_assoc]⟩

/-- Making the change again makes no difference. -/
theorem idempotent (h : Settling change) (c : Catalog) : change (change c) = change c := by
  ext name : 2
  · rcases h.tables name with ⟨outcome, heq⟩ | ⟨definition, heq⟩
    · rw [heq, heq]
    · rw [heq, heq, Option.or_assoc, Option.or_self]
  · obtain ⟨added, heq⟩ := h.sequences name
    rw [heq, heq, Bool.or_assoc, Bool.or_self]

end Settling

/-- The statements are carried out on every catalog, and make a settling change. -/
def Repeatable (statements : List String) : Prop :=
  ∃ change, Settling change ∧ ∀ c : Catalog, c.run statements = .ok (change c)

theorem Repeatable.nil : Repeatable [] := ⟨_, .id, fun _ => rfl⟩

theorem Repeatable.append {statements statements' : List String} (h : Repeatable statements)
    (h' : Repeatable statements') : Repeatable (statements ++ statements') := by
  obtain ⟨change, settling, hrun⟩ := h
  obtain ⟨change', settling', hrun'⟩ := h'
  refine ⟨change' ∘ change, settling'.comp settling, fun c => ?_⟩
  rw [run_append, hrun]
  exact hrun' (change c)

theorem Repeatable.flatMap {α : Type} {statements : α → List String} {items : List α}
    (h : ∀ a ∈ items, Repeatable (statements a)) : Repeatable (items.flatMap statements) := by
  induction items with
  | nil => exact .nil
  | cons a items ih =>
      rw [List.flatMap_cons]
      exact (h a List.mem_cons_self).append (ih fun b hb => h b (List.mem_cons_of_mem a hb))

theorem run_singleton {statement : String} {command : Command}
    (read : Command.ofText? statement = some command) (c : Catalog) :
    c.run [statement] = c.perform command := by
  show (c.execute statement >>= fun c => .ok c) = _
  rw [execute, read]
  cases h : c.perform command <;> simp [h, bind, Except.bind]

/-- A table is created unless it is there. -/
theorem run_createTable (c : Catalog) {name : String} (h : Sql.isQualifiedName name = true)
    (definition : String) :
    c.run ["CREATE TABLE IF NOT EXISTS " ++ name ++ " (" ++ definition] =
      .ok (c.setTable name ((c.tables name).or (some definition))) := by
  rw [run_singleton (Command.ofText?_createTable h definition)]
  cases htable : c.tables name with
  | some present => simp [perform, passOver, htable, setTable_eq_self]
  | none => simp [perform, htable]

theorem repeatable_createTable {name : String} (h : Sql.isQualifiedName name = true)
    (definition : String) :
    Repeatable ["CREATE TABLE IF NOT EXISTS " ++ name ++ " (" ++ definition] := by
  refine ⟨fun c => c.setTable name ((c.tables name).or (some definition)),
    ⟨fun other => .inr ?_, fun _ => ⟨false, by simp⟩⟩,
    fun c => c.run_createTable h definition⟩
  by_cases hname : other = name
  · exact ⟨some definition, by simp [hname]⟩
  · exact ⟨none, by simp [hname]⟩

/-- A sequence is there once it has been created. -/
theorem run_createSequence (c : Catalog) (name : String) :
    c.run ["CREATE SEQUENCE IF NOT EXISTS " ++ name] = .ok (c.addSequence name) := by
  rw [run_singleton (Command.ofText?_createSequence name)]
  cases hsequence : c.sequences name with
  | true => simp [perform, passOver, hsequence, addSequence_eq_self]
  | false => simp [perform, hsequence]

theorem repeatable_createSequence (name : String) :
    Repeatable ["CREATE SEQUENCE IF NOT EXISTS " ++ name] := by
  refine ⟨fun c => c.addSequence name, ⟨fun _ => .inr ⟨none, by simp⟩, fun other => ?_⟩,
    fun c => c.run_createSequence name⟩
  by_cases hname : other = name
  · exact ⟨true, by simp [hname]⟩
  · exact ⟨false, by simp [hname]⟩

/-- A table is absent once it has been dropped. -/
theorem run_dropTable (c : Catalog) (name : String) :
    c.run ["DROP TABLE IF EXISTS " ++ name] = .ok (c.setTable name none) := by
  rw [run_singleton (Command.ofText?_dropTable name)]
  cases htable : c.tables name with
  | some present => simp [perform, htable]
  | none => simp [perform, passOver, htable, setTable_eq_self]

theorem repeatable_dropTable (name : String) : Repeatable ["DROP TABLE IF EXISTS " ++ name] := by
  refine ⟨fun c => c.setTable name none, ⟨fun other => ?_, fun _ => ⟨false, by simp⟩⟩,
    fun c => c.run_dropTable name⟩
  by_cases hname : other = name
  · exact .inl ⟨none, by simp [hname]⟩
  · exact .inr ⟨none, by simp [hname]⟩

/-- Sequences are there once they have been created. -/
theorem run_createSequences (c : Catalog) (sequences : List String) :
    ∃ c', c.run (sequences.map ("CREATE SEQUENCE IF NOT EXISTS " ++ ·)) = .ok c' ∧
      ∀ name, c'.sequences name = true ↔ c.sequences name = true ∨ name ∈ sequences := by
  induction sequences generalizing c with
  | nil => exact ⟨c, rfl, by simp⟩
  | cons sequence sequences ih =>
      obtain ⟨c', hrun, hsequences⟩ := ih (c.addSequence sequence)
      refine ⟨c', ?_, fun name => ?_⟩
      · rw [List.map_cons, ← List.singleton_append, run_append, run_createSequence]
        exact hrun
      · rw [hsequences, List.mem_cons, ← or_assoc]
        by_cases hname : name = sequence <;> simp [hname]

end Catalog

open Catalog (Repeatable)

namespace Operation

theorem repeatable {op : Operation} (met : Demand.AllMet op.demands)
    (noRaw : ∀ sql, op ≠ .raw sql) : Repeatable op.statements := by
  cases op with
  | createTable table =>
      have hname := Sql.isQualifiedName_iff.2
        (Table.allMet_demands.1 (Demand.allMet_append.1 met).1).1
      refine Repeatable.append ?_ ?_
      · rw [List.map_eq_flatMap]
        exact Repeatable.flatMap fun sequence _ => Catalog.repeatable_createSequence sequence
      · unfold Table.createStatement
        rw [String.append_assoc]
        exact Catalog.repeatable_createTable hname _
  | dropTable name => exact Catalog.repeatable_dropTable name
  | raw sql => exact absurd rfl (noRaw sql)

end Operation

namespace Schema

variable {schema : Schema} {statements : List String}

theorem repeatable_of_compile (compiled : schema.compile = .ok statements)
    (noRaw : ∀ sql, .raw sql ∉ schema) : Repeatable statements := by
  obtain ⟨met, rfl⟩ := schema.compile_settles.ok_iff.1 compiled
  refine Repeatable.flatMap fun op hop => ?_
  exact Operation.repeatable (Demand.allMet_flatMap.1 met op hop)
    fun sql heq => noRaw sql (heq ▸ hop)

/-- What comes first in a schema change has the first of its statements. -/
theorem compile_append {before after : Schema}
    (compiled : Schema.compile (before ++ after) = .ok statements) :
    before.compile = .ok (before.flatMap Operation.statements) ∧
      statements = before.flatMap Operation.statements ++ after.flatMap Operation.statements := by
  obtain ⟨met, rfl⟩ := (compile_settles (before ++ after)).ok_iff.1 compiled
  rw [List.flatMap_append, Demand.allMet_append] at met
  exact ⟨before.compile_settles.ok_iff.2 ⟨met.1, rfl⟩, List.flatMap_append⟩

/-- Without raw statements all is executed whatever the catalog holds, and a second time leaves
what the first has left. What a table draws from is there when the table is created. -/
theorem compiled_repeatable (compiled : schema.compile = .ok statements)
    (noRaw : ∀ sql, .raw sql ∉ schema) (c : Catalog) :
    ∃ c', c.run statements = .ok c' ∧ c'.run statements = .ok c' ∧
      ∀ (before : Schema) (table : Table) (after : Schema),
        schema = before ++ .createTable table :: after →
        ∃ front rest created, before.compile = .ok front ∧
          statements = front ++ table.sequences.map ("CREATE SEQUENCE IF NOT EXISTS " ++ ·) ++
            table.createStatement :: rest ∧
          c.run (front ++ table.sequences.map ("CREATE SEQUENCE IF NOT EXISTS " ++ ·)) =
            .ok created ∧
          ∀ clause ∈ table.columns, ∀ sequence,
            clause.defaultValue? = some (.nextValue sequence) →
              created.sequences sequence = true := by
  obtain ⟨change, settling, hrun⟩ := repeatable_of_compile compiled noRaw
  refine ⟨change c, hrun c, ?_, ?_⟩
  · rw [hrun, settling.idempotent]
  · rintro before table after rfl
    obtain ⟨hbefore, rfl⟩ := compile_append compiled
    obtain ⟨change', _, hfront⟩ := repeatable_of_compile hbefore fun sql hsql =>
      noRaw sql (List.mem_append_left _ hsql)
    obtain ⟨created, hcreated, hsequences⟩ := (change' c).run_createSequences table.sequences
    refine ⟨_, after.flatMap Operation.statements, created, hbefore, ?_, ?_, ?_⟩
    · rw [List.flatMap_cons]
      simp [Operation.statements]
    · rw [Catalog.run_append, hfront]
      exact hcreated
    · intro clause hclause sequence hdefault
      exact (hsequences sequence).2 (.inr (Table.mem_sequences.2
        ⟨clause, hclause, Clause.sequence?_eq_some_iff.2 hdefault⟩))

/-- A table that is created, dropped, and created again twice. -/
def recreated : Schema :=
  [.createTable (Builder.build "posts" [.column .id "id" []]),
    .dropTable "posts",
    .createTable (Builder.build "posts" [.column .increments "id" [],
      .column (.typed .text) "title" []]),
    .createTable (Builder.build "posts" [.column (.typed .text) "body" []]),
    .dropTable "drafts"]

/-- The statements of the table. -/
def recreatedStatements : List String :=
  ["CREATE TABLE IF NOT EXISTS posts (id UUID DEFAULT gen_random_uuid() PRIMARY KEY)",
    "DROP TABLE IF EXISTS posts",
    "CREATE SEQUENCE IF NOT EXISTS posts_id_seq",
    "CREATE TABLE IF NOT EXISTS posts (" ++
      "id INTEGER DEFAULT nextval('posts_id_seq') PRIMARY KEY, title TEXT)",
    "CREATE TABLE IF NOT EXISTS posts (body TEXT)",
    "DROP TABLE IF EXISTS drafts"]

/-- A catalog that has both tables. -/
def stocked : Catalog :=
  ⟨fun name => if name ∈ ["posts", "drafts"] then some "text TEXT)" else none, fun _ => false⟩

theorem compiled_repeatable_of_recreated :
    recreated.compile = .ok recreatedStatements ∧ (∀ sql, .raw sql ∉ recreated) ∧
      ∃ c', stocked.run recreatedStatements = .ok c' ∧ c'.run recreatedStatements = .ok c' ∧
        c'.tables "posts" =
          some "id INTEGER DEFAULT nextval('posts_id_seq') PRIMARY KEY, title TEXT)" ∧
        c'.tables "drafts" = none := by
  have compiled : recreated.compile = .ok recreatedStatements := by decide +kernel
  have noRaw : ∀ sql, .raw sql ∉ recreated := by
    intro sql hsql
    simp [recreated] at hsql
  obtain ⟨c', hrun, hagain, _⟩ := compiled_repeatable compiled noRaw stocked
  have htables : (stocked.run recreatedStatements).map
      (fun c => (c.tables "posts", c.tables "drafts")) =
        .ok (some "id INTEGER DEFAULT nextval('posts_id_seq') PRIMARY KEY, title TEXT)", none) := by
    decide +kernel
  rw [hrun] at htables
  obtain ⟨hposts, hdrafts⟩ := Prod.mk.inj (Except.ok.inj htables)
  exact ⟨compiled, noRaw, c', hrun, hagain, hposts, hdrafts⟩

end Schema

end SchemaLedger
