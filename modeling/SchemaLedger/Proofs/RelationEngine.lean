import SchemaLedger.Proofs.LedgerTable
import SchemaLedger.Proofs.NamedRelation

/-!
# Engines that keep relations

`LedgerEngine` looks at one table, under one name. A `RelationEngine` is looked at as a whole:
it keeps relations, each in a schema, and finds them by any name that a statement calls them
by, where a name without a schema is taken from `main`. What it is told about one relation
leaves all others as they are.

For each name there is then a ledger engine, which is looked at through the one relation that
the name stands for. So what is known of a ledger by its statements is known of that relation,
and the question whether the ledger is there is answered from the same relation.
-/

namespace SchemaLedger

open Ledger Sql
open Store (Statement Query)

theorem Dialogue.run_asking {σ : Type} {db : Database σ} {c : DatabaseCall} {reply : c.Reply}
    {s s' : σ} (h : db.reply c s = (reply, s')) :
    ((asking c).run db s).result = reply ∧ ((asking c).run db s).state = s' :=
  ⟨congrArg Prod.fst h, congrArg Prod.snd h⟩

/-- Work ends with a call that is refused. -/
theorem Work.hold_orFail_refused {σ α β : Type} {db : Database σ}
    {d : Dialogue (Except DatabaseError α)} {e : DatabaseError} {s : σ}
    (failure : DatabaseError → MigrateError) (k : α → Work β)
    (h : (d.run db s).result = .error e) :
    ((orFail d failure >>= k).hold db s).result = .error (failure e) ∧
      ((orFail d failure >>= k).hold db s).state = (d.run db s).state := by
  have hfail : ((orFail d failure).run.run db s).result = .error (failure e) ∧
      ((orFail d failure).run.run db s).state = (d.run db s).state := by
    have both : ((orFail d failure).run.run db s).result = _ ∧
        ((orFail d failure).run.run db s).state = _ ∧ _ := Dialogue.run_bind db d _ s
    rw [h] at both
    exact ⟨both.1, both.2.1⟩
  obtain ⟨hresult, hstate, -⟩ :=
    Dialogue.run_bind db (orFail d failure).run (ExceptT.bindCont k) s
  rw [hfail.1] at hresult hstate
  exact ⟨hresult, hstate.trans hfail.2⟩

/-- The table that a query of a ledger is about. -/
def Store.Query.table? : Query → Option String
  | .rows table | .nextBatch table | .named table _ => some table
  | .relations .. | .unknown => none

/-- How the state of an engine is looked at: the rows of each relation that is there, the
schemas, whether it is a state that it can be in, and how many more rows there are numbers
for. -/
structure RelationView (σ : Type) where
  rows : σ → Relation → Option (List Row)
  hasSchema : σ → String → Prop
  sound : σ → Prop
  room : σ → Relation → Nat

namespace RelationView

variable {σ : Type} (v : RelationView σ)

/-- No other relation has changed, and no schema is gone. -/
structure Spares (r : Relation) (s s' : σ) : Prop where
  sound : v.sound s'
  others : ∀ q, q ≠ r → v.rows s' q = v.rows s q
  schemas : ∀ schema, v.hasSchema s schema → v.hasSchema s' schema

/-- The relation has these rows now and has used up some of its numbers, and nothing else has
changed. -/
structure Becomes (r : Relation) (rows : Option (List Row)) (used : Nat) (s s' : σ) : Prop extends
    v.Spares r s s' where
  rows : v.rows s' r = rows
  room : v.room s r ≤ v.room s' r + used

/-- No relation has changed. -/
def Unchanged (s s' : σ) : Prop := ∀ r, v.Becomes r (v.rows s r) 0 s s'

/-- The same state seen as that of one table, for as long as no other relation has changed
since it was in another state. -/
def tableView (r : Relation) (origin : σ) : TableView σ where
  rows s := v.rows s r
  sound s := v.Spares r origin s
  ready s := v.hasSchema s r.schema
  room s := v.room s r

variable {v} {r : Relation} {origin s s' : σ} {rows rows' : Option (List Row)} {n used : Nat}

theorem Spares.refl (sound : v.sound s) : v.Spares r s s :=
  ⟨sound, fun _ _ => rfl, fun _ h => h⟩

theorem Spares.trans {s'' : σ} (first : v.Spares r s s') (second : v.Spares r s' s'') :
    v.Spares r s s'' where
  sound := second.sound
  others q hq := (second.others q hq).trans (first.others q hq)
  schemas schema h := second.schemas schema (first.schemas schema h)

theorem Unchanged.refl (sound : v.sound s) : v.Unchanged s s :=
  fun _ => ⟨.refl sound, rfl, Nat.le_refl _⟩

/-- What becomes of a relation becomes of its table. -/
theorem Becomes.holds (becomes : v.Becomes r rows' used s s')
    (held : (v.tableView r origin).Holds rows (n + used) s) :
    (v.tableView r origin).Holds rows' n s' where
  sound := held.sound.trans becomes.toSpares
  rows := becomes.rows
  room := by
    have := becomes.room
    have : n + used ≤ v.room s r := held.room
    show n ≤ v.room s' r
    omega

theorem Unchanged.holds (unchanged : v.Unchanged s s')
    (held : (v.tableView r origin).Holds rows n s) : (v.tableView r origin).Holds rows n s' := by
  have hrows : v.rows s r = rows := held.rows
  have becomes : v.Becomes r rows 0 s s' := hrows ▸ unchanged r
  exact becomes.holds held

theorem holds_of_sound (sound : v.sound s) (room : n ≤ v.room s r) :
    (v.tableView r s).Holds (v.rows s r) n s :=
  ⟨.refl sound, rfl, room⟩

end RelationView

/-- An engine that does with the texts about relations what they say. -/
structure RelationEngine {σ : Type} (engine : Engine σ) extends RelationView σ where
  main {s : σ} : sound s → hasSchema s mainSchema
  schemaMade {sql schema : String} {s : σ} : Statement.ofText sql = .createSchema schema →
    isIdentifier schema = true → sound s →
    ∃ affected s', engine.execute sql s = (.ok affected, s') ∧ toRelationView.Unchanged s s' ∧
      hasSchema s' schema
  tableMade {sql sequence table : String} {q r : Relation} {s : σ} :
    Statement.ofBatch sql = [.createSequence sequence, .createTable table] →
    q.NamedBy sequence → r.NamedBy table → hasSchema s q.schema → hasSchema s r.schema → sound s →
    ∃ s', engine.batch sql s = (.ok (), s') ∧
      toRelationView.Becomes r (some ((rows s r).getD [])) 0 s s'
  asked {sql : String} {r : Relation} {s : σ} : Query.ofText sql = .relations r.schema r.name →
    sound s →
    ∃ (count : Nat) (s' : σ), engine.query sql s = (.ok [[.integer count]], s') ∧
      (0 < count ↔ (rows s r).isSome = true) ∧ toRelationView.Unchanged s s'
  listed {sql table : String} {r : Relation} {rs : List Row} {s : σ} :
    Query.ofText sql = .rows table → r.NamedBy table → sound s → rows s r = some rs →
    ∃ s', engine.query sql s = (.ok ((rs.mergeSort (·.id ≤ ·.id)).map Row.cells), s') ∧
      toRelationView.Unchanged s s'
  numbered {sql table : String} {r : Relation} {rs : List Row} {s : σ} :
    Query.ofText sql = .nextBatch table → r.NamedBy table → sound s → rows s r = some rs →
    Small (lastBatch rs) →
    ∃ s', engine.query sql s = (.ok [[.integer (lastBatch rs + 1)]], s') ∧
      toRelationView.Unchanged s s'
  counted {sql table name : String} {r : Relation} {rs : List Row} {s : σ} :
    Query.ofText sql = .named table name → r.NamedBy table → sound s → rows s r = some rs →
    ∃ s', engine.query sql s = (.ok [[.integer (rs.countP (·.name = name))]], s') ∧
      toRelationView.Unchanged s s'
  queryRefused {sql table : String} {r : Relation} {s : σ} :
    (Query.ofText sql).table? = some table → r.NamedBy table → sound s → rows s r = none →
    ∃ text s', engine.query sql s = (.error text, s') ∧ toRelationView.Unchanged s s'
  inserted {sql table name : String} {batch : Int} {r : Relation} {rs : List Row} {s : σ} :
    Statement.ofText sql = .insert table name batch → Small batch → r.NamedBy table → sound s →
    rows s r = some rs → 0 < room s r → (∀ q ∈ rs, q.name ≠ name) →
    ∃ affected id time s', engine.execute sql s = (.ok affected, s') ∧ (∀ q ∈ rs, q.id < id) ∧
      (Text.int64Min ≤ id ∧ id ≤ Text.int64Max) ∧ (∃ moment, Moment.ofText time = .ok moment) ∧
      toRelationView.Becomes r (some (rs ++ [⟨id, name, batch, time⟩])) 1 s s'
  deleted {sql table name : String} {r : Relation} {rs : List Row} {s : σ} :
    Statement.ofText sql = .delete table name → r.NamedBy table → sound s → rows s r = some rs →
    ∃ s', engine.execute sql s = (.ok (rs.countP (·.name = name)), s') ∧
      toRelationView.Becomes r (some (rs.filter (·.name ≠ name))) 0 s s'
  deletionRefused {sql table name : String} {r : Relation} {s : σ} :
    Statement.ofText sql = .delete table name → r.NamedBy table → sound s → rows s r = none →
    ∃ text s', engine.execute sql s = (.error text, s') ∧ toRelationView.Unchanged s s'

namespace RelationEngine

variable {σ : Type} {engine : Engine σ} {r : Relation} {table : String} {s : σ}

/-- The ledger of a name, seen through the relation that the name stands for. -/
def ledgerEngine (E : RelationEngine engine) (named : r.NamedBy table) (origin : σ) :
    LedgerEngine engine table where
  toTableView := E.tableView r origin
  unqualified := by
    intro s dotless sound
    cases named with
    | bare inMain =>
        show E.hasSchema s r.schema
        rw [inMain]
        exact E.main sound.sound
    | full =>
        have hdot := r.mem_fullName
        rw [← List.contains_iff_mem, dotless] at hdot
        cases hdot
  schemaMade := by
    intro rs n s held
    obtain ⟨affected, s', h, unchanged, made⟩ :=
      E.schemaMade (Statement.ofText_createSchema r.schema) r.isSchema held.sound.sound
    rw [named.split]
    exact ⟨affected, s', h, unchanged.holds held, made⟩
  tableMade := by
    intro rs n s held ready
    obtain ⟨s', h, becomes⟩ := E.tableMade
      (Statement.ofBatch_setupScript named.isQualifiedName) named.sequence named ready ready
      held.sound.sound
    have hrows : E.rows s r = rs := held.rows
    exact ⟨s', h, hrows ▸ becomes.holds held⟩
  listed := by
    intro sql rs n s hsql held
    obtain ⟨s', h, unchanged⟩ := E.listed hsql named held.sound.sound held.rows
    exact ⟨s', h, unchanged.holds held⟩
  numbered := by
    intro sql rs n s hsql held small
    obtain ⟨s', h, unchanged⟩ := E.numbered hsql named held.sound.sound held.rows small
    exact ⟨s', h, unchanged.holds held⟩
  counted := by
    intro sql name rs n s hsql held
    obtain ⟨s', h, unchanged⟩ := E.counted hsql named held.sound.sound held.rows
    exact ⟨s', h, unchanged.holds held⟩
  inserted := by
    intro sql name batch rs n s hsql small held fresh
    obtain ⟨affected, id, time, s', h, above, range, moment, becomes⟩ :=
      E.inserted hsql small named held.sound.sound held.rows
        (Nat.lt_of_lt_of_le (Nat.succ_pos n) held.room) fresh
    exact ⟨affected, id, time, s', h, above, range, moment, becomes.holds held⟩
  deleted := by
    intro sql name rs n s hsql held
    obtain ⟨s', h, becomes⟩ := E.deleted hsql named held.sound.sound held.rows
    exact ⟨s', h, becomes.holds held⟩

/-! ## What is done with a ledger -/

/-- All that is done with the ledger of a name is about this relation. Asking whether it is there
tells whether the relation is there; if it is not, nothing can be done but to set it up, and
then it is there. If it shows a table of entries, what is done with it is done with the
entries. -/
structure SpeaksOf (E : RelationEngine engine) (table : String) (r : Relation) : Prop where
  present (s : σ) : E.sound s →
    ((isPresent table).hold engine.database s).result = .ok (E.rows s r).isSome ∧
      E.Unchanged s ((isPresent table).hold engine.database s).state
  ensured (s : σ) : E.sound s →
    ((setup table).hold engine.database s).result = .ok () ∧
      E.Becomes r (some ((E.rows s r).getD [])) 0 s ((setup table).hold engine.database s).state
  presentAfter (s : σ) : E.sound s →
    ((setup table >>= fun _ => isPresent table).hold engine.database s).result = .ok true
  absent (s : σ) (op : LedgerOperation) : E.sound s → E.rows s r = none → op ≠ .ensure →
    ∃ e, ((op.work table).hold engine.database s).result = .error (refused e) ∧
      E.Unchanged s ((op.work table).hold engine.database s).state
  entries (s : σ) (ops : List LedgerOperation) (rs : List Row) (es : List LedgerEntry) :
    E.sound s → E.rows s r = some rs → List.Forall₂ Row.Shows rs es → Orderly es →
    (∀ op ∈ ops, op.IsSmall) → ops.countP (·.needsId) ≤ E.room s r →
    ∃ rs' es', Effects ops es (LedgerOperation.runAll engine.database table ops s).1 es' ∧
      E.rows (LedgerOperation.runAll engine.database table ops s).2 r = some rs' ∧
      List.Forall₂ Row.Shows rs' es' ∧
      E.Spares r s (LedgerOperation.runAll engine.database table ops s).2

variable {E : RelationEngine engine} (named : r.NamedBy table) (sound : E.sound s)

include named sound

theorem reply_relationExists :
    ∃ s', engine.database.reply (.relationExists table) s = (.ok (E.rows s r).isSome, s') ∧
      E.Unchanged s s' := by
  have hquery : Query.ofText (Engine.relationQuery table) = .relations r.schema r.name := by
    rw [Query.ofText_relations, named.split]
  obtain ⟨count, s', h, hcount, unchanged⟩ := E.asked hquery sound
  refine ⟨s', ?_, unchanged⟩
  have hsome : decide (0 < (count : Int)) = (E.rows s r).isSome := by
    rw [Bool.eq_iff_iff, decide_eq_true_eq, Int.natCast_pos, hcount]
  simp only [Engine.database, h]
  show (Except.ok (decide (0 < (count : Int))), s') = _
  rw [hsome]

theorem isPresent_answers :
    ((isPresent table).hold engine.database s).result = .ok (E.rows s r).isSome ∧
      E.Unchanged s ((isPresent table).hold engine.database s).state := by
  obtain ⟨s', h, unchanged⟩ := reply_relationExists named sound
  obtain ⟨reply, asked, result⟩ :=
    Work.admits_orFail.1 ((isPresent table).hold_admits engine.database s)
  have answers := (isPresent table).hold_answers engine.database s
  rw [Dialogue.admits_asking.1 asked, Database.answers_singleton, h] at answers
  obtain ⟨rfl, hstate⟩ := Prod.mk.inj answers
  rw [result, ← hstate]
  exact ⟨rfl, unchanged⟩

theorem setup_makes :
    ((setup table).hold engine.database s).result = .ok () ∧
      E.Becomes r (some ((E.rows s r).getD [])) 0 s
        ((setup table).hold engine.database s).state := by
  have whole : (LedgerOperation.ensure.work table).Admits
      ((setup table).hold engine.database s).exchanges
      (((setup table).hold engine.database s).result.map fun _ => .done) :=
    Work.admits_bind_pure.2 ⟨_, Work.hold_admits _ _ _, rfl⟩
  obtain ⟨hresult, held⟩ := LedgerEngine.ensured (E := E.ledgerEngine named s)
    named.isQualifiedName (RelationView.holds_of_sound sound (Nat.le_refl _)) whole
    (Work.hold_answers _ _ _)
  refine ⟨?_, held.sound, held.rows, held.room⟩
  cases h : ((setup table).hold engine.database s).result with
  | ok _ => rfl
  | error e => rw [h] at hresult; cases hresult

theorem isPresent_after_setup :
    ((setup table >>= fun _ => isPresent table).hold engine.database s).result = .ok true := by
  obtain ⟨hresult, becomes⟩ := setup_makes named sound
  obtain ⟨hboth, -, -⟩ := Work.hold_bind_of_ok (f := fun _ => isPresent table) hresult
  rw [hboth, (isPresent_answers named becomes.sound).1, becomes.rows]
  rfl

/-! While the relation is not there, what the first call of an operation asks for is refused. -/

section

variable (absent : E.rows s r = none)

include absent

theorem reply_queryRows_refused (sql : String)
    (about : (Query.ofText sql).table? = some table) :
    ∃ e s', engine.database.reply (.queryRows sql) s = (.error e, s') ∧ E.Unchanged s s' := by
  obtain ⟨text, s', h, unchanged⟩ := E.queryRefused about named sound absent
  refine ⟨Engine.queryError text, s', ?_, unchanged⟩
  simp only [Engine.database, h]
  rfl

theorem reply_namedQuery_refused (name : Name) :
    ∃ e s', engine.database.reply (.queryCount (namedQuery table name)) s = (.error e, s') ∧
      E.Unchanged s s' := by
  have about : (Query.ofText (Engine.countQuery (namedQuery table name))).table? = some table := by
    rw [Query.ofText_named named.isQualifiedName]
    rfl
  obtain ⟨text, s', h, unchanged⟩ := E.queryRefused about named sound absent
  refine ⟨Engine.queryError text, s', ?_, unchanged⟩
  simp only [Engine.database, h]
  rfl

theorem reply_deleteStatement_refused (name : Name) :
    ∃ e s', engine.database.reply (.execute (deleteStatement table name)) s = (.error e, s') ∧
      E.Unchanged s s' := by
  obtain ⟨text, s', h, unchanged⟩ :=
    E.deletionRefused (Statement.ofText_delete named.isQualifiedName name) named sound absent
  refine ⟨Engine.statementError (deleteStatement table name) text, s', ?_, unchanged⟩
  simp only [Engine.database, h]
  rfl

theorem operation_fails {op : LedgerOperation} (hop : op ≠ .ensure) :
    ∃ e, ((op.work table).hold engine.database s).result = .error (refused e) ∧
      E.Unchanged s ((op.work table).hold engine.database s).state := by
  have valid := named.isQualifiedName
  have first {α : Type} {e : DatabaseError} {s' : σ} (d : Dialogue (Except DatabaseError α))
      (h : (d.run engine.database s).result = .error e ∧ (d.run engine.database s).state = s')
      (unchanged : E.Unchanged s s') (k : α → Work Answer) :
      ∃ e, ((Work.orFail d refused >>= k).hold engine.database s).result = .error (refused e) ∧
        E.Unchanged s ((Work.orFail d refused >>= k).hold engine.database s).state := by
    obtain ⟨hr, hs⟩ := Work.hold_orFail_refused refused k h.1
    exact ⟨e, hr, by rw [hs, h.2]; exact unchanged⟩
  cases op with
  | ensure => exact absurd rfl hop
  | list =>
      obtain ⟨e, s', h, unchanged⟩ := reply_queryRows_refused named sound absent (listQuery table)
        (by rw [Query.ofText_list valid]; rfl)
      rw [LedgerOperation.work, records, bind_assoc]
      exact first _ (Dialogue.run_asking h) unchanged _
  | nextBatch =>
      obtain ⟨e, s', h, unchanged⟩ := reply_queryRows_refused named sound absent
        (nextBatchQuery table) (by rw [Query.ofText_nextBatch]; rfl)
      rw [LedgerOperation.work, Ledger.nextBatch, bind_assoc]
      exact first _ (Dialogue.run_asking h) unchanged _
  | record name batch =>
      obtain ⟨e, s', h, unchanged⟩ := reply_namedQuery_refused named sound absent name
      rw [LedgerOperation.work, Ledger.record, bind_assoc]
      exact first _ (Dialogue.run_asking h) unchanged _
  | remove name =>
      obtain ⟨e, s', h, unchanged⟩ := reply_deleteStatement_refused named sound absent name
      rw [LedgerOperation.work, Ledger.remove, bind_assoc]
      exact first _ (Dialogue.run_asking h) unchanged _

end

omit sound in
theorem speaksOf : E.SpeaksOf table r where
  present s sound := isPresent_answers named sound
  ensured s sound := setup_makes named sound
  presentAfter s sound := isPresent_after_setup named sound
  absent s op sound absent hop := operation_fails named sound absent hop
  entries s ops rs es sound hrows shown order small room := by
    have held := RelationView.holds_of_sound sound room
    rw [hrows] at held
    obtain ⟨es', effects, rs', held', shown', -⟩ :=
      LedgerEngine.operations_refine (E := E.ledgerEngine named s) named.isQualifiedName small
        ⟨rs, held, shown, order⟩
    exact ⟨rs', es', effects, held'.rows, shown', held'.sound⟩

end RelationEngine

end SchemaLedger
