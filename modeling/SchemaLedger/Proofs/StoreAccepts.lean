import SchemaLedger.Proofs.Reversal
import SchemaLedger.Proofs.StoreLedger
import SchemaLedger.Proofs.Unrefused

/-!
# A store refuses nothing that is in order

The laws of a ledger allow a database to refuse any call. A store does not: it refuses a
call only for a reason, and while migrations are applied or reverted whose statements it
keeps nothing of, there is none. So what applying them to a ledger without records comes to
depends only on the source. This is what shows that the theorems about calls that succeed,
and about those that fail for a reason of the source, speak of something.
-/

namespace SchemaLedger.Store.Connection

variable {table : String} {c c' : Connection} {k k' : Content Others}

/-- The store keeps nothing of a statement. -/
def Passes (sql : String) : Prop := ∀ st ∈ Statement.ofBatch sql, st = .other

theorem performAll_of_passes {sts : List Statement} (h : ∀ st ∈ sts, st = .other) :
    c.performAll sts = (.ok (), c) := by
  induction sts with
  | nil => rfl
  | cons st rest ih =>
      rw [h st List.mem_cons_self]
      exact ih fun s hs => h s (List.mem_cons_of_mem st hs)

theorem batch_of_passes {sql : String} {reply : Except DatabaseError Unit} (passes : Passes sql)
    (h : database.reply (.executeBatch sql) c = (reply, c')) : reply = .ok () ∧ c' = c := by
  obtain ⟨r, hr, rfl⟩ := performAll_of_batch rfl h
  rw [performAll_of_passes passes] at hr
  obtain ⟨rfl, rfl⟩ := Prod.mk.inj hr
  exact ⟨rfl, rfl⟩

theorem confined_of_passes {sql : String} (valid : Sql.isQualifiedName table = true)
    (passes : Passes sql) : (ledgerStore table valid).Confined sql where
  accepted := by
    intro k k' c c' within h
    obtain ⟨_, rfl⟩ := batch_of_passes passes h
    exact ⟨_, within⟩
  refused := by
    intro k k' c c' e within h
    obtain ⟨he, _⟩ := batch_of_passes passes h
    cases he

/-! ## Calls that are accepted -/

theorem begin_accepted {reply : Except DatabaseError Nat} (idle : (view table).Idle k c)
    (h : database.reply (.execute "BEGIN TRANSACTION") c = (reply, c')) : ∃ n, reply = .ok n := by
  have hst : Statement.ofText "BEGIN TRANSACTION" = .begin := rfl
  obtain ⟨r, hperform, rfl⟩ := perform_of_execute hst h
  unfold perform at hperform
  simp only [snapshot_of_idle idle, Option.isSome_none, Bool.false_eq_true, if_false] at hperform
  obtain ⟨rfl, _⟩ := Prod.mk.inj hperform
  exact ⟨0, rfl⟩

theorem commit_accepted {reply : Except DatabaseError Nat} (within : (view table).Within k k' c)
    (h : database.reply (.execute "COMMIT") c = (reply, c')) : ∃ n, reply = .ok n := by
  have hst : Statement.ofText "COMMIT" = .commit := rfl
  obtain ⟨r, hperform, rfl⟩ := perform_of_execute hst h
  obtain ⟨t, ht, _⟩ := snapshot_of_within within
  unfold perform at hperform
  simp only [ht, Option.isSome_some, if_true] at hperform
  obtain ⟨rfl, _⟩ := Prod.mk.inj hperform
  exact ⟨0, rfl⟩

theorem fromRows_accepted (content : (view table).content c = k) (present : k.ledger.isSome = true)
    (answer : List Row → List (List Cell)) :
    ∃ rows, k.rows = rows.map Row.inLedger ∧
      fromRows c.contents.current table answer = .ok (answer rows) := by
  rcases fromRows_of_content c.contents.current table answer with
    ⟨hnone, _⟩ | ⟨rows, hsome, hrows⟩
  · rw [ledger_of_rows? content hnone] at present
    cases present
  · exact ⟨rows, rows_of_rows? content hsome, hrows⟩

theorem count_accepted {name : Name} {reply : Except DatabaseError Nat}
    (valid : Sql.isQualifiedName table = true) (within : (view table).Within k k' c)
    (present : k'.ledger.isSome = true)
    (h : database.reply (.queryCount (Ledger.namedQuery table name)) c = (reply, c')) :
    ∃ n, reply = .ok n := by
  obtain ⟨hreply, rfl⟩ := Prod.mk.inj h
  obtain ⟨rows, _, hrows⟩ := fromRows_accepted within.content present fun rows =>
    [[.integer (rows.countP (·.name = name.text))]]
  rw [Query.ofText_named valid, answer, hrows] at hreply
  exact ⟨_, hreply.symm⟩

theorem insert_accepted {name : Name} {batch : Int} {reply : Except DatabaseError Nat}
    (valid : Sql.isQualifiedName table = true) (within : (view table).Within k k' c)
    (present : k'.ledger.isSome = true) (fresh : ∀ q ∈ k'.rows, q.name ≠ name.text)
    (lo : Text.int64Min ≤ batch) (hi : batch ≤ Text.int64Max)
    (h : database.reply (.execute (Ledger.insertStatement table name batch)) c = (reply, c')) :
    ∃ n, reply = .ok n := by
  obtain ⟨r, hperform, rfl⟩ := perform_of_execute (Statement.ofText_insert valid name lo hi) h
  rcases within_of_insert within hperform with
    ⟨_, _, hnone | ⟨q, hq, hname⟩, _⟩ | ⟨id, time, rfl, _⟩
  · rw [hnone] at present
    cases present
  · exact absurd hname (fresh q hq)
  · exact ⟨1, rfl⟩

theorem delete_accepted {name : Name} {reply : Except DatabaseError Nat}
    (valid : Sql.isQualifiedName table = true) (within : (view table).Within k k' c)
    (present : k'.ledger.isSome = true)
    (h : database.reply (.execute (Ledger.deleteStatement table name)) c = (reply, c')) :
    ∃ n, reply = .ok n := by
  obtain ⟨r, hperform, rfl⟩ := perform_of_execute (Statement.ofText_delete valid name) h
  have hdelete : c.keep (c.contents.delete table name.text) = (r, c') := hperform
  unfold Contents.delete at hdelete
  split at hdelete
  · next hnone =>
      rw [ledger_of_rows? within.content hnone] at present
      cases present
  · next rows hrows =>
      cases hdelete
      exact ⟨_, rfl⟩

theorem rollback_accepted {reply : Except DatabaseError Nat}
    (within : (view table).Within k k' c)
    (h : database.reply (.execute "ROLLBACK") c = (reply, c')) : ∃ n, reply = .ok n := by
  have hst : Statement.ofText "ROLLBACK" = .rollback := rfl
  obtain ⟨r, hperform, rfl⟩ := perform_of_execute hst h
  obtain ⟨t, ht, _⟩ := snapshot_of_within within
  unfold perform at hperform
  simp only [ht] at hperform
  obtain ⟨rfl, _⟩ := Prod.mk.inj hperform
  exact ⟨0, rfl⟩

/-- A change of a record that does not fit is answered. -/
theorem unchanged_accepted {name : Name} {change : LedgerChange} {es : List Exchange}
    {e : MigrateError} (valid : Sql.isQualifiedName table = true)
    (batch : ∀ n, change = .record n → Text.int64Min ≤ n ∧ n ≤ Text.int64Max)
    (within : (view table).Within k k' c) (present : k'.ledger.isSome = true)
    (unchanged : Ledger.Unchanged table name change es e)
    (answers : database.Answers c es c') :
    (∀ x ∈ es, x.accepted) ∧ ∃ k'', (view table).Within k k'' c' := by
  let L := ledgerStore table valid
  cases unchanged with
  | countRefused =>
      rw [Database.answers_singleton] at answers
      obtain ⟨n, hn⟩ := count_accepted valid within present answers
      cases hn
  | insertRefused =>
      obtain ⟨m, hcount, hinsert⟩ := Database.answers_cons.1 answers
      rw [Database.answers_singleton] at hinsert
      obtain ⟨within', hzero⟩ := L.counted within hcount
      have fresh : ∀ q ∈ k'.rows, q.name ≠ name.text := by
        simpa using List.countP_eq_zero.1 hzero.symm
      obtain ⟨lo, hi⟩ := batch _ rfl
      obtain ⟨n, hn⟩ := insert_accepted valid within' present fresh lo hi hinsert
      cases hn
  | deleteRefused =>
      rw [Database.answers_singleton] at answers
      obtain ⟨n, hn⟩ := delete_accepted valid within present answers
      cases hn
  | present batch found =>
      rw [Database.answers_singleton] at answers
      exact ⟨List.forall_mem_singleton.2 ⟨_, rfl⟩, k', (L.counted within answers).1⟩
  | absent =>
      rw [Database.answers_singleton] at answers
      exact ⟨List.forall_mem_singleton.2 ⟨_, rfl⟩, _, (L.deleted within answers).2⟩

/-- A block can be abandoned because the change of its record does not fit, but not because
anything is refused, if the store passes over its statements. -/
theorem abandoned_accepted {b : Block} {es : List Exchange} {e : MigrateError}
    (valid : Sql.isQualifiedName table = true)
    (admissible : (ledgerStore table valid).Admissible b)
    (passes : ∀ sql ∈ b.statements, Passes sql) (idle : (view table).Idle k c)
    (present : k.ledger.isSome = true) (abandoned : b.Abandoned table es e)
    (answers : database.Answers c es c') : ∀ x ∈ es, x.accepted := by
  let L := ledgerStore table valid
  cases abandoned with
  | notBegun =>
      rw [Database.answers_singleton] at answers
      obtain ⟨n, hn⟩ := begin_accepted idle answers
      cases hn
  | commitRefused changed =>
      obtain ⟨m₁, hbegin, hrest⟩ := Database.answers_cons.1 answers
      obtain ⟨m₂, hbody, hend⟩ := Database.answers_append.1 hrest
      obtain ⟨m₃, hcommit, _⟩ := Database.answers_cons.1 hend
      obtain ⟨k', within, _⟩ :=
        LedgerStore.body_within admissible changed (L.begun idle hbegin) hbody
      obtain ⟨n, hn⟩ := commit_accepted within hcommit
      cases hn
  | @failed n es failure reply fails =>
      obtain ⟨m₁, hbegin, hrest⟩ := Database.answers_cons.1 answers
      obtain ⟨m₂, hbody, hrollback⟩ := Database.answers_append.1 hrest
      rw [Database.answers_singleton] at hrollback
      cases fails with
      | @statement before after sql e split =>
          obtain ⟨m, hbefore, hsql⟩ := Database.answers_append.1 hbody
          rw [Database.answers_singleton] at hsql
          rw [split] at passes
          obtain ⟨hr, _⟩ := batch_of_passes (passes sql (by simp)) hsql
          cases hr
      | @change es e unchanged =>
          obtain ⟨m, hsts, hchange⟩ := Database.answers_append.1 hbody
          obtain ⟨o, within, _⟩ :=
            LedgerStore.executed_within admissible.confined (L.begun idle hbegin) hsts
          obtain ⟨accepted, k', within'⟩ :=
            unchanged_accepted valid admissible.batch within present unchanged hchange
          obtain ⟨m', hm⟩ := rollback_accepted within' hrollback
          refine List.forall_mem_cons.2 ⟨⟨n, rfl⟩, List.forall_mem_append.2 ⟨?_, ?_⟩⟩
          · exact List.forall_mem_append.2 ⟨Block.accepted_of_executed, accepted⟩
          · exact List.forall_mem_singleton.2 ⟨m', hm⟩

/-! ## Applying -/

/-- The schema that a table needs is there once it has been made. -/
theorem missingSchema?_eq_none {t : Tables} {name : String} {behind : List Char}
    (valid : Sql.isQualifiedName table = true) (hname : name.toList = table.toList ++ behind)
    (hdot : '.' ∉ behind)
    (made : table.toList.contains '.' = true → (Sql.splitQualified table).1 ∈ t.schemas) :
    t.missingSchema? name = none := by
  rcases Sql.isQualifiedName_cases valid with h | ⟨schema, own, htable, hs, hn⟩
  · have hcut : Text.cut? ['.'] name.toList = none := by
      rw [hname]
      refine Text.cut?_eq_none ?_
      rw [List.mem_append, not_or]
      exact ⟨Sql.notMem_of_isIdentifierChars h (by decide), hdot⟩
    rw [Tables.missingSchema?, hcut]
  · have hcut : Text.cut? ['.'] name.toList = some (schema, own ++ behind) := by
      rw [hname, htable, List.append_assoc, List.cons_append]
      exact Text.cut?_append rfl (Sql.notMem_of_isIdentifierChars hs (by decide)) _
    rw [Sql.splitQualified_of_append htable hn] at made
    have hmade := made (by rw [htable]; simp)
    simp only [Tables.missingSchema?, hcut]
    exact if_pos (by simpa using .inr hmade)

/-- Then neither the sequence nor the table needs a schema that is not there. -/
theorem missingSchema?_of_made {t : Tables} (valid : Sql.isQualifiedName table = true)
    (made : table.toList.contains '.' = true → (Sql.splitQualified table).1 ∈ t.schemas) :
    t.missingSchema? (Ledger.sequenceName table) = none ∧ t.missingSchema? table = none := by
  have hname : (Ledger.sequenceName table).toList = table.toList ++ "_id_seq".toList := by
    rw [Ledger.sequenceName, String.toList_append]
  have hdot : '.' ∉ "_id_seq".toList := Text.notMem_toList_ofList (by decide)
  exact ⟨missingSchema?_eq_none valid hname hdot made,
    missingSchema?_eq_none valid (List.append_nil _).symm (by simp) made⟩

theorem reply_createSchema (name : String) :
    database.reply (.createSchema name) c =
      (.ok (), c.withTables (c.contents.current.addSchema name)) := by
  show (((c.perform (.ofText (Engine.schemaStatement name))).1.map _).mapError _,
    (c.perform (.ofText (Engine.schemaStatement name))).2) = _
  rw [Statement.ofText_createSchema]
  rfl

theorem mem_addSchema (t : Tables) (schema : String) : schema ∈ (t.addSchema schema).schemas := by
  unfold Tables.addSchema
  split
  · next h => exact h
  · exact List.mem_append_right _ List.mem_cons_self

theorem setupScript_accepted {reply : Except DatabaseError Unit}
    (valid : Sql.isQualifiedName table = true)
    (made : table.toList.contains '.' = true →
      (Sql.splitQualified table).1 ∈ c.contents.current.schemas)
    (idle : (view table).Idle k c)
    (h : database.reply (.executeBatch (Ledger.setupScript table)) c = (reply, c')) :
    reply = .ok () ∧ (view table).Idle { k with ledger := some k.rows } c' := by
  obtain ⟨r, hall, rfl⟩ := performAll_of_batch (Statement.ofBatch_setupScript valid) h
  obtain ⟨sequence, own⟩ := missingSchema?_of_made valid made
  rcases idle_of_setupScript idle hall with ⟨_, _, _, hsequence | htable⟩ | ⟨rfl, idle'⟩
  · exact absurd sequence hsequence
  · exact absurd own htable
  · exact ⟨rfl, idle'⟩

theorem setUp_accepted {es : List Exchange} {r : Except MigrateError Unit}
    (valid : Sql.isQualifiedName table = true) (setUp : Ledger.SetUp table es r)
    (idle : (view table).Idle k c) (answers : database.Answers c es c') :
    r = .ok () ∧ (∀ x ∈ es, x.accepted) ∧
      (view table).Idle { k with ledger := some k.rows } c' := by
  cases setUp with
  | invalidName invalid =>
      rw [Sql.checkQualifiedName, if_pos valid] at invalid
      cases invalid
  | schemaRefused qualified =>
      rw [Database.answers_singleton, reply_createSchema] at answers
      cases (Prod.mk.inj answers).1
  | @unqualified reply unqualified =>
      rw [Database.answers_singleton] at answers
      have made : table.toList.contains '.' = true →
          (Sql.splitQualified table).1 ∈ c.contents.current.schemas := by
        rw [unqualified]
        exact fun h => absurd h Bool.false_ne_true
      obtain ⟨rfl, idle'⟩ := setupScript_accepted valid made idle answers
      exact ⟨rfl, by simp [Exchange.accepted, DatabaseCall.accepts], idle'⟩
  | qualified qualified =>
      obtain ⟨m, hschema, hscript⟩ := Database.answers_cons.1 answers
      rw [Database.answers_singleton] at hscript
      have idle' := (ledgerStore table valid).schemaMade idle hschema
      rw [reply_createSchema] at hschema
      obtain ⟨_, rfl⟩ := Prod.mk.inj hschema
      obtain ⟨rfl, idle''⟩ := setupScript_accepted valid (fun _ => mem_addSchema _ _) idle' hscript
      exact ⟨rfl, by simp [Exchange.accepted, DatabaseCall.accepts], idle''⟩

/-- Once a block is committed there is a table. -/
theorem isSome_of_committed {b : Block} {es : List Exchange}
    (valid : Sql.isQualifiedName table = true)
    (admissible : (ledgerStore table valid).Admissible b) (committed : b.Committed table es)
    (idle : (view table).Idle k c) (answers : database.Answers c es c')
    (idle' : (view table).Idle k' c') : k'.ledger.isSome = true := by
  let L := ledgerStore table valid
  obtain ⟨changed⟩ := committed
  obtain ⟨m₁, hbegin, hrest⟩ := Database.answers_cons.1 answers
  obtain ⟨m₂, hbody, hcommit⟩ := Database.answers_append.1 hrest
  rw [Database.answers_singleton] at hcommit
  obtain ⟨m, hsts, hchange⟩ := Database.answers_append.1 hbody
  obtain ⟨o, within, _⟩ :=
    LedgerStore.executed_within admissible.confined (L.begun idle hbegin) hsts
  obtain ⟨rows, within', _⟩ := LedgerStore.changed_within changed admissible.batch within hchange
  have content := (L.committed within' hcommit).content
  rw [← idle'.content]
  exact congrArg (·.ledger.isSome) content

/-- Nothing is refused while blocks are carried out one after the other if the store passes
over their statements. -/
theorem carried_accepted {todo : List (Except MigrateError Block)} {es : List Exchange}
    {r : Except MigrateError Unit} (valid : Sql.isQualifiedName table = true)
    (admissible : ∀ b, .ok b ∈ todo → (ledgerStore table valid).Admissible b)
    (passes : ∀ b, .ok b ∈ todo → ∀ sql ∈ b.statements, Passes sql)
    (present : k.ledger.isSome = true) (idle : (view table).Idle k c)
    (carried : Migrate.Carried table todo es r) (answers : database.Answers c es c') :
    ∀ x ∈ es, x.accepted := by
  induction carried generalizing k c with
  | done => simp
  | missing => simp
  | abandoned abandoned =>
      exact abandoned_accepted valid (admissible _ List.mem_cons_self)
        (passes _ List.mem_cons_self) idle present abandoned answers
  | next committed carried ih =>
      obtain ⟨m, hfirst, hrest⟩ := Database.answers_append.1 answers
      have admissible' := admissible _ List.mem_cons_self
      obtain ⟨k', idle', _⟩ := LedgerStore.effect_of_committed admissible' committed idle hfirst
      have present' := isSome_of_committed valid admissible' committed idle hfirst idle'
      exact List.forall_mem_append.2 ⟨committed.accepted,
        ih (fun b hb => admissible b (List.mem_cons_of_mem _ hb))
          (fun b hb => passes b (List.mem_cons_of_mem _ hb)) present' idle' hrest⟩

theorem present_accepted {reply : Except DatabaseError Bool}
    (h : database.reply (.relationExists table) c = (reply, c')) : ∃ b, reply = .ok b := by
  obtain ⟨hreply, rfl⟩ := Prod.mk.inj h
  rw [Query.ofText_relations, answer] at hreply
  exact ⟨_, hreply.symm⟩

theorem list_accepted {reply : Except DatabaseError (List (List String))}
    (valid : Sql.isQualifiedName table = true) (idle : (view table).Idle k c)
    (present : k.ledger.isSome = true)
    (h : database.reply (.queryRows (Ledger.listQuery table)) c = (reply, c')) :
    reply = .ok (k.rows.map Ledger.Row.texts) := by
  have rows : ∃ texts, reply = .ok texts := by
    obtain ⟨hreply, rfl⟩ := Prod.mk.inj h
    obtain ⟨rows, _, hrows⟩ := fromRows_accepted idle.content present (·.map rowCells)
    rw [Query.ofText_list valid, answer, hrows] at hreply
    exact ⟨_, hreply.symm⟩
  obtain ⟨texts, rfl⟩ := rows
  rw [((ledgerStore table valid).listed idle h).2 texts rfl]

theorem nextBatch_accepted {reply : Except DatabaseError (List (List String))}
    (valid : Sql.isQualifiedName table = true) (idle : (view table).Idle k c)
    (present : k.ledger.isSome = true)
    (h : database.reply (.queryRows (Ledger.nextBatchQuery table)) c = (reply, c')) :
    reply = .ok [[toString (Ledger.lastBatch k.rows + 1)]] := by
  have rows : ∃ texts, reply = .ok texts := by
    obtain ⟨hreply, rfl⟩ := Prod.mk.inj h
    obtain ⟨rows, _, hrows⟩ := fromRows_accepted idle.content present fun rows =>
      [[.integer (lastBatch rows + 1)]]
    rw [Query.ofText_nextBatch, answer, hrows] at hreply
    exact ⟨_, hreply.symm⟩
  obtain ⟨texts, rfl⟩ := rows
  rw [((ledgerStore table valid).numbered idle h).2 texts rfl]

/-- The set-up of a ledger and the reading of its rows are not refused. -/
theorem read_accepted {es es' : List Exchange} {r : Except MigrateError Unit}
    {reply : Except DatabaseError (List (List String))}
    (valid : Sql.isQualifiedName table = true) (idle : (view table).Idle k c)
    (setUp : Ledger.SetUp table es r)
    (answers : database.Answers c (es ++ ⟨.queryRows (Ledger.listQuery table), reply⟩ :: es') c') :
    (∀ x ∈ es ++ [⟨.queryRows (Ledger.listQuery table), reply⟩], x.accepted) ∧
      ∃ m, (view table).Idle { k with ledger := some k.rows } m ∧ database.Answers m es' c' := by
  obtain ⟨m₁, hsetUp, hrest⟩ := Database.answers_append.1 answers
  obtain ⟨m₂, hlist, hbehind⟩ := Database.answers_cons.1 hrest
  obtain ⟨_, accepted, idle'⟩ := setUp_accepted valid setUp idle hsetUp
  obtain rfl := list_accepted valid idle' rfl hlist
  refine ⟨List.forall_mem_append.2 ⟨accepted, ?_⟩, m₂,
    ((ledgerStore table valid).listed idle' hlist).1, hbehind⟩
  exact List.forall_mem_singleton.2 ⟨_, rfl⟩

/-- Nothing is refused when a source is applied, if the store passes over its statements. -/
theorem apply_accepted {source : Source} (valid : Sql.isQualifiedName table = true)
    (idle : (view table).Idle k c) (confines : (ledgerStore table valid).Confines source)
    (passes : ∀ batch name b, Migrate.upBlock source batch name = .ok b →
      ∀ sql ∈ b.statements, Passes sql) :
    ∀ x ∈ ((Migrate.apply source table).hold database c).exchanges, x.accepted := by
  have run := Migrate.apply_admits ((Migrate.apply source table).hold_admits database c)
  have answers := (Migrate.apply source table).hold_answers database c
  generalize ((Migrate.apply source table).hold database c).exchanges = es at run answers ⊢
  generalize ((Migrate.apply source table).hold database c).result = r at run
  generalize ((Migrate.apply source table).hold database c).state = c' at answers
  cases run with
  | notSetUp setUp => exact (setUp_accepted valid setUp idle answers).2.1
  | notRead setUp | notListed setUp | nothingPending setUp =>
      exact (read_accepted valid idle setUp answers).1
  | @noBatch es reply reply' records available e setUp read listed pending numbered =>
      obtain ⟨accepted, m, idle', hnumber⟩ := read_accepted valid idle setUp answers
      rw [Database.answers_singleton] at hnumber
      obtain rfl := nextBatch_accepted valid idle' rfl hnumber
      rw [List.append_cons]
      exact List.forall_mem_append.2 ⟨accepted, List.forall_mem_singleton.2 ⟨_, rfl⟩⟩
  | @carried es es' reply reply' records available batch r setUp read listed pending numbered
      carried =>
      rw [List.append_assoc, List.cons_append] at answers
      obtain ⟨accepted, m, idle', hrest⟩ := read_accepted valid idle setUp answers
      obtain ⟨m', hnumber, hblocks⟩ := Database.answers_cons.1 hrest
      have idle'' := ((ledgerStore table valid).numbered idle' hnumber).1
      obtain ⟨_, lo, hi⟩ := LedgerStore.batch_of_numbered (L := ledgerStore table valid) idle'
        hnumber numbered
      obtain rfl := nextBatch_accepted valid idle' rfl hnumber
      have mem (b : Block) (hb : .ok b ∈ (Migrate.unrecorded available records).map
          (Migrate.upBlock source batch)) : ∃ name, Migrate.upBlock source batch name = .ok b := by
        obtain ⟨name, _, hup⟩ := List.mem_map.1 hb
        exact ⟨name, hup⟩
      have accepted' := carried_accepted valid
        (fun b hb => LedgerStore.admissible_of_upBlock confines lo hi (mem b hb).choose_spec)
        (fun b hb => passes batch _ b (mem b hb).choose_spec) rfl idle'' carried hblocks
      rw [List.append_cons]
      refine List.forall_mem_append.2 ⟨List.forall_mem_append.2 ⟨accepted, ?_⟩, accepted'⟩
      exact List.forall_mem_singleton.2 ⟨_, rfl⟩

/-! ## Reverting -/

/-- Reading a ledger that may not be there is not refused, and where it is not there are no
records. -/
theorem recordsIfPresent_accepted {es : List Exchange} {r : Except MigrateError (List Record)}
    (valid : Sql.isQualifiedName table = true) (idle : (view table).Idle k c)
    (read : Migrate.Read table es r) (answers : database.Answers c es c') :
    (∀ x ∈ es, x.accepted) ∧ (k.ledger.isSome = true ∨ r = .ok []) := by
  cases read with
  | refused =>
      rw [Database.answers_singleton] at answers
      obtain ⟨b, hb⟩ := present_accepted answers
      cases hb
  | absent => exact ⟨List.forall_mem_singleton.2 ⟨_, rfl⟩, .inr rfl⟩
  | present =>
      obtain ⟨m, hexists, hlist⟩ := Database.answers_cons.1 answers
      rw [Database.answers_singleton] at hlist
      obtain ⟨idle', hpresent⟩ := (ledgerStore table valid).present idle hexists
      have present := (hpresent true rfl).symm
      obtain rfl := list_accepted valid idle' present hlist
      exact ⟨List.forall_mem_cons.2 ⟨⟨_, rfl⟩, List.forall_mem_singleton.2 ⟨_, rfl⟩⟩, .inl present⟩

/-- Nothing is refused when the last batch is reverted, if the store passes over the
statements of the source. -/
theorem revert_accepted {source : Source} (valid : Sql.isQualifiedName table = true)
    (idle : (view table).Idle k c) (confines : (ledgerStore table valid).Confines source)
    (passes : ∀ name b, Migrate.downBlock source name = .ok b → ∀ sql ∈ b.statements, Passes sql) :
    ∀ x ∈ ((Migrate.revert source table).hold database c).exchanges, x.accepted := by
  have run := Migrate.revert_admits ((Migrate.revert source table).hold_admits database c)
  have answers := (Migrate.revert source table).hold_answers database c
  generalize ((Migrate.revert source table).hold database c).exchanges = es at run answers ⊢
  generalize ((Migrate.revert source table).hold database c).result = r at run
  generalize ((Migrate.revert source table).hold database c).state = c' at answers
  cases run with
  | notRead read | nothingApplied read | notCompiled read =>
      exact (recordsIfPresent_accepted valid idle read answers).1
  | @carried es es' records bs first r read newest compiled carried =>
      obtain ⟨m, hread, hblocks⟩ := Database.answers_append.1 answers
      obtain ⟨accepted, present | hnil⟩ := recordsIfPresent_accepted valid idle read hread
      · have down (b : Block) (hb : (.ok b : Except MigrateError Block) ∈ bs.map .ok) :
            ∃ name, Migrate.downBlock source name = .ok b := by
          rw [← Migrate.downBlocks_ok compiled] at hb
          obtain ⟨r, _, hdown⟩ := List.mem_map.1 hb
          exact ⟨r.name, hdown⟩
        have idle' :=
          (LedgerStore.rows_of_read (L := ledgerStore table valid) read idle hread).1
        refine List.forall_mem_append.2 ⟨accepted, carried_accepted valid ?_ ?_ present idle'
          carried hblocks⟩
        · exact fun b hb => LedgerStore.admissible_of_downBlock confines (down b hb).choose_spec
        · exact fun b hb => passes _ b (down b hb).choose_spec
      · cases hnil
        cases newest

/-! ## Registries whose statements are passed over -/

/-- The store passes over all statements of the migrations of a registry. -/
def PassesAll (r : Registry) : Prop :=
  ∀ entry ∈ r.entries, ∀ schema ∈ [entry.2.up, entry.2.down], ∀ statements,
    schema.compile = .ok statements → ∀ sql ∈ statements, Passes sql

theorem mem_entries_of_load {r : Registry} {name : Name} {definition : Definition}
    (h : r.load name = .ok definition) : (name, definition) ∈ r.entries := by
  unfold Registry.load Registry.find? at h
  split at h
  · next hlookup =>
      cases h
      obtain ⟨before, after, hentries, _⟩ := List.lookup_eq_some_iff.1 hlookup
      rw [hentries]
      exact List.mem_append_right before List.mem_cons_self
  · cases h

/-- A registry is confined if the statements of its definitions are. -/
theorem confines_of_entries {r : Registry} (valid : Sql.isQualifiedName table = true)
    (confined : ∀ entry ∈ r.entries, ∀ schema ∈ [entry.2.up, entry.2.down], ∀ statements,
      schema.compile = .ok statements → ∀ sql ∈ statements,
        (ledgerStore table valid).Confined sql) : (ledgerStore table valid).Confines r.source where
  up hload hcompile := confined _ (mem_entries_of_load hload) _ List.mem_cons_self _ hcompile
  down hload hcompile := confined _ (mem_entries_of_load hload) _ (by simp) _ hcompile

theorem confines_of_passesAll {r : Registry} (valid : Sql.isQualifiedName table = true)
    (passes : PassesAll r) : (ledgerStore table valid).Confines r.source :=
  confines_of_entries valid fun entry hentry schema hschema statements hcompile sql hsql =>
    confined_of_passes valid (passes entry hentry schema hschema statements hcompile sql hsql)

theorem passes_of_upBlock {r : Registry} {batch : Int} {name : Name} {b : Block}
    (passes : PassesAll r) (h : Migrate.upBlock r.source batch name = .ok b) :
    ∀ sql ∈ b.statements, Passes sql := by
  unfold Migrate.upBlock at h
  split at h
  · cases h
  · next definition hload =>
      split at h
      · cases h
      · next statements hcompile =>
          cases h
          exact passes _ (mem_entries_of_load hload) _ List.mem_cons_self _ hcompile

theorem passes_of_downBlock {r : Registry} {name : Name} {b : Block} (passes : PassesAll r)
    (h : Migrate.downBlock r.source name = .ok b) : ∀ sql ∈ b.statements, Passes sql := by
  unfold Migrate.downBlock at h
  split at h
  · cases h
  · next definition hload =>
      split at h
      · cases h
      · next statements hcompile =>
          cases h
          exact passes _ (mem_entries_of_load hload) _ (by simp) _ hcompile

theorem idle_empty (table : String) : (view table).Idle ⟨none, ⟨[], []⟩⟩ {} :=
  ⟨⟨fun _ h => (by cases h), fun _ h => (by cases h)⟩, rfl, rfl⟩

/-- The ledger `m` of a store. -/
def smallStore : LedgerStore database "m" Others := ledgerStore "m" (by decide)

/-- It holds the rows of the table `m` where their numbers are ascending up to the last one. -/
theorem idle_of_numbered (rows : List Row) {n : Nat} (numbered : Numbered (n + 1) rows) :
    smallStore.Idle ⟨some (rows.map Row.inLedger), ⟨[], []⟩⟩
      { contents := ⟨⟨[], [("m", rows)]⟩, [("m", n)]⟩ } := by
  refine ⟨⟨fun rows' h => ?_, fun t h => by cases h⟩, rfl, rfl⟩
  obtain rfl : rows = rows' := Option.some.inj h
  exact numbered

/-- A name. -/
def first : Name := ⟨"a", by decide⟩

/-- A name behind `first`. -/
def second : Name := ⟨"b", by decide⟩

/-- A migration that asks for a number, in either direction. -/
def asking : Definition := { up := [.raw "SELECT 1"], down := [.raw "SELECT 1"] }

/-- A migration that does not compile. -/
def broken : Definition := { up := [.dropTable ""] }

theorem names_of_first (definition : Definition) :
    Registry.names ⟨[(first, definition)]⟩ = [first] :=
  List.mergeSort_of_pairwise (List.pairwise_singleton _ first)

theorem names_of_both (definition definition' : Definition) :
    Registry.names ⟨[(first, definition), (second, definition')]⟩ = [first, second] := by
  have sorted : [first, second].Pairwise (Name.le · ·) := by decide
  exact List.mergeSort_of_pairwise sorted

theorem registered_of_both (definition definition' : Definition) :
    Registry.Registered ⟨[(first, definition), (second, definition')]⟩ := by
  have once : Registry.Registered ⟨[(first, definition)]⟩ :=
    .register .empty (show Registry.register {} first definition = _ from rfl)
  exact .register once (show Registry.register _ second definition' = _ from rfl)

theorem outstanding_of_both (definition definition' : Definition) :
    Migrate.outstanding (Registry.source ⟨[(first, definition), (second, definition')]⟩) [] =
      [first, second] := by
  rw [Migrate.outstanding_of_list (congrArg Except.ok (names_of_both definition definition'))]
  decide

theorem upBlock_asking {r : Registry} {batch : Int} {name : Name} (h : r.find? name = some asking) :
    Migrate.upBlock r.source batch name = .ok ⟨name, ["SELECT 1"], .record batch⟩ := by
  have hload : r.source.load name = .ok asking := by
    show r.load name = _
    rw [Registry.load, h]
  have hcompile : Schema.compile asking.up = .ok ["SELECT 1"] := rfl
  rw [Migrate.upBlock, hload]
  simp only [hcompile]

theorem upBlock_broken {r : Registry} {batch : Int} {name : Name} (h : r.find? name = some broken) :
    Migrate.upBlock r.source batch name = .error (.compile name (.invalidIdentifier "")) := by
  have hload : r.source.load name = .ok broken := by
    show r.load name = _
    rw [Registry.load, h]
  have hcompile : Schema.compile broken.up = .error (.invalidIdentifier "") := rfl
  rw [Migrate.upBlock, hload]
  simp only [hcompile]

theorem passesAll_of_asking {r : Registry}
    (h : ∀ entry ∈ r.entries, entry.2 = asking ∨ entry.2 = broken) : PassesAll r := by
  have hother : Statement.ofBatch "SELECT 1" = [.other] := by decide
  have hpasses : Passes "SELECT 1" := by
    rw [Passes, hother]
    exact fun st hst => List.mem_singleton.1 hst
  have hasking (schema : Schema) (hmem : schema ∈ [asking.up, asking.down]) :
      schema.compile = .ok ["SELECT 1"] := by
    rcases List.mem_pair.1 hmem with rfl | rfl <;> rfl
  have hbroken (schema : Schema) (hmem : schema ∈ [broken.up, broken.down]) :
      schema.compile = .error (.invalidIdentifier "") ∨ schema.compile = .ok [] := by
    rcases List.mem_pair.1 hmem with rfl | rfl
    · exact .inl rfl
    · exact .inr rfl
  intro entry hentry schema hschema statements hcompile sql hsql
  rcases h entry hentry with heq | heq <;> rw [heq] at hschema
  · rw [hasking schema hschema] at hcompile
    cases hcompile
    rw [List.mem_singleton.1 hsql]
    exact hpasses
  · rcases hbroken schema hschema with hc | hc <;> rw [hc] at hcompile <;> cases hcompile
    cases hsql

/-- A result depends only on whether all migrations of a registry have blocks. -/
def DependsOnBlocks {α : Type} (r : Registry) (result : Except MigrateError α) : Prop :=
  (∃ a, result = .ok a ∧ ∀ name ∈ r.names, ∃ b, Migrate.upBlock r.source 1 name = .ok b) ∨
    ∃ e name, result = .error e ∧ name ∈ r.names ∧ Migrate.upBlock r.source 1 name = .error e

theorem DependsOnBlocks.of_asking {α : Type} {r : Registry} {result : Except MigrateError α}
    (h : DependsOnBlocks r result) (all : ∀ name ∈ r.names, r.find? name = some asking) :
    ∃ a, result = .ok a := by
  rcases h with ⟨a, h, _⟩ | ⟨e, name, _, hname, hup⟩
  · exact ⟨a, h⟩
  · rw [upBlock_asking (all name hname)] at hup
    cases hup

theorem DependsOnBlocks.of_broken {α : Type} {r : Registry} {result : Except MigrateError α}
    (h : DependsOnBlocks r result) (name : Name) (mem : name ∈ r.names)
    (hbroken : r.find? name = some broken)
    (others : ∀ other ∈ r.names, other ≠ name → r.find? other = some asking) :
    result = .error (.compile name (.invalidIdentifier "")) := by
  rcases h with ⟨a, _, hall⟩ | ⟨e, other, h, hother, hup⟩
  · obtain ⟨b, hb⟩ := hall name mem
    rw [upBlock_broken hbroken] at hb
    cases hb
  · by_cases heq : other = name
    · rw [heq, upBlock_broken hbroken] at hup
      cases hup
      exact h
    · rw [upBlock_asking (others other hother heq)] at hup
      cases hup

/-- Applying a registry to a ledger without records depends only on its blocks. -/
theorem apply_registry {r : Registry} (valid : Sql.isQualifiedName table = true)
    (idle : (view table).Idle k c) (empty : k.rows = []) (distinct : r.names.Nodup)
    (passes : PassesAll r) :
    (∀ x ∈ ((Migrate.apply r.source table).hold database c).exchanges, x.accepted) ∧
      DependsOnBlocks r ((Migrate.apply r.source table).hold database c).result := by
  have listed : r.source.list = .ok r.names := rfl
  have confines := confines_of_passesAll valid passes
  have accepted := apply_accepted valid idle confines
    fun batch name b hup => passes_of_upBlock passes hup
  have hpending : Migrate.outstanding r.source k.rows = r.names := by
    rw [Migrate.outstanding_of_list listed, empty]
    exact List.filter_eq_self.2 (by simp)
  obtain ⟨before, after, done, _, hsplit, hbefore, _, _, _, hend⟩ :=
    LedgerStore.apply_of_accepted idle valid confines listed distinct (by rw [empty]; rfl)
      (by rw [empty]; decide) accepted
  rw [hpending] at hsplit
  rw [empty] at hbefore hend
  refine ⟨accepted, ?_⟩
  rcases hend with ⟨rfl, hresult⟩ | ⟨name, more, e, rfl, hup, hresult⟩
  · rw [List.append_nil] at hsplit
    rw [← hsplit] at hbefore
    exact .inl ⟨_, hresult, fun name hname => Migrate.exists_block_of_mem hbefore hname⟩
  · exact .inr ⟨e, name, hresult, by rw [hsplit]; simp, hup⟩

end SchemaLedger.Store.Connection
