import SchemaLedger.Migrate.Revert
import SchemaLedger.Proofs.Exchange

/-!
# The exchanges of ledgers and blocks

Each dialogue about a ledger is a call or two, and a block is a handful of phases with an
early end after each of them. This file reads off, once, what every one of these dialogues
can go through and how it ends: the ledger's reads and its set-up first, then the two
changes of a record, then a block as a whole.

For a block there are two verdicts. `Block.Committed` is the only way to success, and
`Block.Abandoned` lists the ways a block can fail together with the failure that is
reported. What follows about transactions rests on these two alone.
-/

namespace SchemaLedger

/-! ## Reading and setting up a ledger -/

namespace Ledger

/-- The calls that set a ledger up. -/
def setupCalls (table : String) : List DatabaseCall :=
  (if table.toList.contains '.' then [.createSchema (Sql.splitQualified table).1] else []) ++
    [.executeBatch (setupScript table)]

/-- The calls that read a ledger. -/
def readCalls (table : String) : List DatabaseCall :=
  [.relationExists table, .queryRows (listQuery table), .queryRows (nextBatchQuery table)]

/-- The call sets a ledger up or reads it. -/
def IsUpkeep (table : String) (c : DatabaseCall) : Prop :=
  c ∈ setupCalls table ∨ c ∈ readCalls table

/-- The records that the reply to the list query holds. -/
def recordsOf (reply : Except DatabaseError (List (List String))) :
    Except MigrateError (List Record) :=
  match reply with
  | .ok rows => (Record.ofRows rows).mapError .ledger
  | .error e => .error (refused e)

/-- The number that the reply to the query for the next batch holds. -/
def batchOf (reply : Except DatabaseError (List (List String))) : Except MigrateError Int :=
  match reply with
  | .ok rows =>
    match firstValue? rows with
    | some value => (Record.number "batch" value).mapError .ledger
    | none => .error (.ledger .noBatch)
  | .error e => .error (refused e)

theorem recordsOf_ok {reply : Except DatabaseError (List (List String))}
    {records : List Record} (h : recordsOf reply = .ok records) :
    ∃ rows, reply = .ok rows ∧ Record.ofRows rows = .ok records := by
  cases reply with
  | error e => cases h
  | ok rows =>
      refine ⟨rows, rfl, ?_⟩
      cases hr : Record.ofRows rows <;> simp only [recordsOf, hr] at h <;> cases h
      rfl

theorem recordsOf_error {reply : Except DatabaseError (List (List String))}
    {e : MigrateError} (h : recordsOf reply = .error e) : ∃ f, e = .ledger f := by
  cases reply with
  | error d => exact ⟨.database d, by cases h; rfl⟩
  | ok rows =>
      cases hr : Record.ofRows rows <;> simp only [recordsOf, hr] at h <;> cases h
      exact ⟨_, rfl⟩

theorem batchOf_ok {reply : Except DatabaseError (List (List String))} {n : Int}
    (h : batchOf reply = .ok n) :
    ∃ rows value, reply = .ok rows ∧ firstValue? rows = some value ∧
      Text.int64? value = some n := by
  cases reply with
  | error e => cases h
  | ok rows =>
      cases hv : firstValue? rows with
      | none => simp [batchOf, hv] at h
      | some value =>
          refine ⟨rows, value, rfl, hv, ?_⟩
          cases hn : Text.int64? value <;> simp only [batchOf, hv, Record.number, hn] at h <;>
            cases h
          rfl

theorem batchOf_error {reply : Except DatabaseError (List (List String))}
    {e : MigrateError} (h : batchOf reply = .error e) : ∃ f, e = .ledger f := by
  cases reply with
  | error d => exact ⟨.database d, by cases h; rfl⟩
  | ok rows =>
      cases hv : firstValue? rows with
      | none => exact ⟨.noBatch, by simpa [batchOf, hv] using h.symm⟩
      | some value =>
          cases hn : Text.int64? value <;> simp only [batchOf, hv, Record.number, hn] at h <;>
            cases h
          exact ⟨_, rfl⟩

theorem records_admits {table : String} {es : List Exchange}
    {r : Except MigrateError (List Record)} (h : (records table).Admits es r) :
    ∃ reply, es = [⟨.queryRows (listQuery table), reply⟩] ∧ r = recordsOf reply := by
  rcases Work.admits_orFail_bind.1 h with ⟨e, hc, rfl⟩ | ⟨es₁, rows, es₂, rfl, hc, hr⟩
  · exact ⟨.error e, Dialogue.admits_asking.1 hc, rfl⟩
  · cases Dialogue.admits_asking.1 hc
    obtain ⟨rfl, rfl⟩ := hr
    exact ⟨.ok rows, rfl, rfl⟩

theorem nextBatch_admits {table : String} {es : List Exchange}
    {r : Except MigrateError Int} (h : (nextBatch table).Admits es r) :
    ∃ reply, es = [⟨.queryRows (nextBatchQuery table), reply⟩] ∧ r = batchOf reply := by
  rcases Work.admits_orFail_bind.1 h with ⟨e, hc, rfl⟩ | ⟨es₁, rows, es₂, rfl, hc, hr⟩
  · exact ⟨.error e, Dialogue.admits_asking.1 hc, rfl⟩
  · cases Dialogue.admits_asking.1 hc
    refine ⟨.ok rows, ?_⟩
    cases hv : firstValue? rows <;> rw [hv] at hr <;> obtain ⟨rfl, rfl⟩ := hr <;>
      refine ⟨rfl, ?_⟩ <;> simp only [batchOf, hv]
    rfl

/-- The set-up is carried out up to the first call that is refused, and it succeeds only
if none is. -/
inductive SetUp (table : String) : List Exchange → Except MigrateError Unit → Prop
  | invalidName {e : SchemaError} (invalid : Sql.checkQualifiedName table = .error e) :
    SetUp table [] (.error (.ledgerSetup (.invalidTable e)))
  | schemaRefused {e : DatabaseError} (qualified : table.toList.contains '.') :
    SetUp table [⟨.createSchema (Sql.splitQualified table).1, .error e⟩]
      (.error (.ledgerSetup (.schema e)))
  | unqualified {reply : Except DatabaseError Unit}
    (unqualified : table.toList.contains '.' = false) :
    SetUp table [⟨.executeBatch (setupScript table), reply⟩]
      (reply.mapError fun e => .ledgerSetup (.script table e))
  | qualified {reply : Except DatabaseError Unit} (qualified : table.toList.contains '.') :
    SetUp table
      [⟨.createSchema (Sql.splitQualified table).1, .ok ()⟩,
        ⟨.executeBatch (setupScript table), reply⟩]
      (reply.mapError fun e => .ledgerSetup (.script table e))

theorem setup_admits {table : String} {es : List Exchange}
    {r : Except MigrateError Unit} (h : (setup table).Admits es r) :
    SetUp table es r := by
  cases hc : Sql.checkQualifiedName table with
  | error e =>
      simp only [setup, hc] at h
      obtain ⟨rfl, rfl⟩ := Work.admits_throw.1 h
      exact .invalidName hc
  | ok _ =>
      simp only [setup, hc, makeSchema] at h
      split at h
      · next hq =>
          rcases Work.admits_orFail_bind.1 h with
            ⟨e, hs, rfl⟩ | ⟨es₁, _, es₂, rfl, hs, hr⟩
          · cases Dialogue.admits_asking.1 hs
            exact .schemaRefused hq
          · cases Dialogue.admits_asking.1 hs
            obtain ⟨reply, hb, rfl⟩ := Work.admits_orFail.1 hr
            cases Dialogue.admits_asking.1 hb
            exact .qualified hq
      · next hq =>
          rw [pure_bind] at h
          obtain ⟨reply, hb, rfl⟩ := Work.admits_orFail.1 h
          cases Dialogue.admits_asking.1 hb
          exact .unqualified (by simpa using hq)

/-! ## Changing a record -/

/-- The exchanges in which the record of a migration is changed. -/
inductive Changed (table : String) (name : Name) : LedgerChange → List Exchange → Prop
  | recorded (batch : Int) (n : Nat) :
    Changed table name (.record batch)
      [⟨.queryCount (namedQuery table name), .ok 0⟩,
        ⟨.execute (insertStatement table name batch), .ok n⟩]
  | removed {n : Nat} (found : 0 < n) :
    Changed table name .remove [⟨.execute (deleteStatement table name), .ok n⟩]

/-- The exchanges in which changing the record of a migration fails. -/
inductive Unchanged (table : String) (name : Name) :
    LedgerChange → List Exchange → MigrateError → Prop
  | countRefused (batch : Int) (e : DatabaseError) :
    Unchanged table name (.record batch)
      [⟨.queryCount (namedQuery table name), .error e⟩] (refused e)
  | present (batch : Int) {n : Nat} (found : 0 < n) :
    Unchanged table name (.record batch)
      [⟨.queryCount (namedQuery table name), .ok n⟩] (.duplicateMigration name)
  | insertRefused (batch : Int) (e : DatabaseError) :
    Unchanged table name (.record batch)
      [⟨.queryCount (namedQuery table name), .ok 0⟩,
        ⟨.execute (insertStatement table name batch), .error e⟩] (insertFailure name e)
  | deleteRefused (e : DatabaseError) :
    Unchanged table name .remove
      [⟨.execute (deleteStatement table name), .error e⟩] (refused e)
  | absent :
    Unchanged table name .remove
      [⟨.execute (deleteStatement table name), .ok 0⟩] (.ledger (.noRecord name))

theorem record_admits {table : String} {name : Name} {batch : Int}
    {es : List Exchange} {r : Except MigrateError Unit}
    (h : (record table name batch).Admits es r) :
    (r = .ok () ∧ Changed table name (.record batch) es) ∨
      ∃ e, r = .error e ∧ Unchanged table name (.record batch) es e := by
  rcases Work.admits_orFail_bind.1 h with ⟨e, hc, rfl⟩ | ⟨es₁, n, es₂, rfl, hc, hr⟩
  · cases Dialogue.admits_asking.1 hc
    exact .inr ⟨_, rfl, .countRefused batch e⟩
  · cases Dialogue.admits_asking.1 hc
    split at hr
    · next hn =>
        rcases Work.admits_bind.1 hr with ⟨e, rfl, ht⟩ | ⟨_, _, _, _, ht, _⟩
        · obtain ⟨rfl, he⟩ := Work.admits_throw.1 ht
          cases he
          exact .inr ⟨_, rfl, .present batch hn⟩
        · obtain ⟨_, he⟩ := Work.admits_throw.1 ht
          cases he
    · next hn =>
        obtain rfl : n = 0 := by omega
        rcases Work.admits_orFail_bind.1 hr with ⟨e, hi, rfl⟩ | ⟨es₁, m, es₂, rfl, hi, he⟩
        · cases Dialogue.admits_asking.1 hi
          exact .inr ⟨_, rfl, .insertRefused batch e⟩
        · cases Dialogue.admits_asking.1 hi
          obtain ⟨rfl, rfl⟩ := Work.admits_pure.1 he
          exact .inl ⟨rfl, .recorded batch m⟩

theorem remove_admits {table : String} {name : Name} {es : List Exchange}
    {r : Except MigrateError Unit} (h : (remove table name).Admits es r) :
    (r = .ok () ∧ Changed table name .remove es) ∨
      ∃ e, r = .error e ∧ Unchanged table name .remove es e := by
  rcases Work.admits_orFail_bind.1 h with ⟨e, hc, rfl⟩ | ⟨es₁, n, es₂, rfl, hc, hr⟩
  · cases Dialogue.admits_asking.1 hc
    exact .inr ⟨_, rfl, .deleteRefused e⟩
  · cases Dialogue.admits_asking.1 hc
    split at hr
    · next hn =>
        obtain ⟨rfl, rfl⟩ := Work.admits_throw.1 hr
        subst hn
        exact .inr ⟨_, rfl, .absent⟩
    · next hn =>
        obtain ⟨rfl, rfl⟩ := Work.admits_pure.1 hr
        exact .inl ⟨rfl, .removed (by omega)⟩

end Ledger

/-! ## Blocks -/

namespace Block

/-- The exchanges in which statements are accepted one after the other. -/
def executed (statements : List String) : List Exchange :=
  statements.map fun sql => ⟨.executeBatch sql, .ok ()⟩

/-- The exchanges in which the work within a transaction fails: at a statement, with the
later ones not sent, or at the change of the record. -/
inductive Fails (table : String) (b : Block) : List Exchange → MigrateError → Prop
  | statement {before after : List String} {sql : String} {e : DatabaseError}
    (split : b.statements = before ++ sql :: after) :
    Fails table b (executed before ++ [⟨.executeBatch sql, .error e⟩]) (.statement b.name e)
  | change {es : List Exchange} {e : MigrateError}
    (unchanged : Ledger.Unchanged table b.name b.change es e) :
    Fails table b (executed b.statements ++ es) e

/-- The exchanges of a block that is committed: every statement is accepted, the record is
changed, and the transaction that began is committed. -/
inductive Committed (table : String) (b : Block) : List Exchange → Prop
  | intro {n m : Nat} {es : List Exchange}
    (changed : Ledger.Changed table b.name b.change es) :
    Committed table b
      (⟨.execute "BEGIN TRANSACTION", .ok n⟩ ::
        (executed b.statements ++ es ++ [⟨.execute "COMMIT", .ok m⟩]))

/-- The exchanges of a block that is not committed, and the failure that is reported. -/
inductive Abandoned (table : String) (b : Block) : List Exchange → MigrateError → Prop
  | notBegun {e : DatabaseError} :
    Abandoned table b [⟨.execute "BEGIN TRANSACTION", .error e⟩] (.transaction (.start e))
  | failed {n : Nat} {es : List Exchange} {failure : MigrateError}
    {reply : Except DatabaseError Nat} (fails : Fails table b es failure) :
    Abandoned table b
      (⟨.execute "BEGIN TRANSACTION", .ok n⟩ :: (es ++ [⟨.execute "ROLLBACK", reply⟩])) failure
  | commitRefused {n : Nat} {es : List Exchange} {e : DatabaseError}
    {reply : Except DatabaseError Nat}
    (changed : Ledger.Changed table b.name b.change es) :
    Abandoned table b
      (⟨.execute "BEGIN TRANSACTION", .ok n⟩ ::
        (executed b.statements ++ es ++
          [⟨.execute "COMMIT", .error e⟩, ⟨.execute "ROLLBACK", reply⟩]))
      (.transaction (.commit b.name e))

theorem accepted_of_executed {statements : List String} :
    ∀ x ∈ executed statements, x.accepted := by
  intro x hx
  obtain ⟨sql, _, rfl⟩ := List.mem_map.1 hx
  exact rfl

/-- All that is sent in a block that is committed is accepted. -/
theorem Committed.accepted {table : String} {b : Block} {es : List Exchange}
    (h : Committed table b es) : ∀ x ∈ es, x.accepted := by
  obtain @⟨n, m, es, changed⟩ := h
  have hchanged : ∀ x ∈ es, x.accepted := by
    generalize b.change = change at changed
    cases changed with
    | recorded batch k => simp [Exchange.accepted, DatabaseCall.accepts]
    | removed found => simp [Exchange.accepted, DatabaseCall.accepts]
  refine List.forall_mem_cons.2 ⟨⟨n, rfl⟩, List.forall_mem_append.2 ⟨?_, ?_⟩⟩
  · exact List.forall_mem_append.2 ⟨accepted_of_executed, hchanged⟩
  · exact List.forall_mem_singleton.2 ⟨m, rfl⟩

theorem executeAll_admits {name : Name} {statements : List String} {es : List Exchange}
    {r : Except MigrateError Unit} (h : (executeAll name statements).Admits es r) :
    (r = .ok () ∧ es = executed statements) ∨
      ∃ before sql after e, statements = before ++ sql :: after ∧
        es = executed before ++ [⟨.executeBatch sql, .error e⟩] ∧
        r = .error (.statement name e) := by
  induction statements generalizing es with
  | nil =>
      obtain ⟨rfl, rfl⟩ := Work.admits_pure.1 h
      exact .inl ⟨rfl, rfl⟩
  | cons sql rest ih =>
      rcases Work.admits_orFail_bind.1 h with ⟨e, hc, rfl⟩ | ⟨es₁, u, es₂, rfl, hc, hr⟩
      · cases Dialogue.admits_asking.1 hc
        exact .inr ⟨[], sql, rest, e, rfl, rfl, rfl⟩
      · cases Dialogue.admits_asking.1 hc
        rcases ih hr with ⟨rfl, rfl⟩ | ⟨before, sql', after, e, rfl, rfl, rfl⟩
        · exact .inl ⟨rfl, rfl⟩
        · exact .inr ⟨sql :: before, sql', after, e, rfl, rfl, rfl⟩

theorem changeLedger_admits {table : String} {b : Block} {es : List Exchange}
    {r : Except MigrateError Unit} (h : (changeLedger table b).Admits es r) :
    (r = .ok () ∧ Ledger.Changed table b.name b.change es) ∨
      ∃ e, r = .error e ∧ Ledger.Unchanged table b.name b.change es e := by
  obtain ⟨name, statements, change⟩ := b
  cases change with
  | record batch => exact Ledger.record_admits h
  | remove => exact Ledger.remove_admits h

theorem body_admits {table : String} {b : Block} {es : List Exchange}
    {r : Except MigrateError Unit} (h : (body table b).Admits es r) :
    (r = .ok () ∧ ∃ es', Ledger.Changed table b.name b.change es' ∧
        es = executed b.statements ++ es') ∨
      ∃ e, r = .error e ∧ Fails table b es e := by
  rcases Work.admits_bind.1 h with ⟨e, rfl, hs⟩ | ⟨es₁, _, es₂, rfl, hs, hc⟩
  · rcases executeAll_admits hs with ⟨hr, _⟩ | ⟨before, sql, after, d, hsp, rfl, hr⟩
    · cases hr
    · cases hr
      exact .inr ⟨_, rfl, .statement hsp⟩
  · rcases executeAll_admits hs with ⟨_, rfl⟩ | ⟨before, sql, after, d, _, _, hr⟩
    · rcases changeLedger_admits hc with ⟨rfl, hchanged⟩ | ⟨e, rfl, hunchanged⟩
      · exact .inl ⟨rfl, es₂, hchanged, rfl⟩
      · exact .inr ⟨e, rfl, .change hunchanged⟩
    · cases hr

theorem rollBack_admits {remark : DatabaseError → Note} {es : List Exchange} {r : Unit}
    (h : (rollBack remark).Admits es r) :
    ∃ reply, es = [⟨.execute "ROLLBACK", reply⟩] := by
  obtain ⟨es₁, reply, es₂, rfl, hc, hr⟩ := Dialogue.admits_bind.1 h
  cases Dialogue.admits_asking.1 hc
  refine ⟨reply, ?_⟩
  cases reply with
  | ok n => obtain ⟨rfl, rfl⟩ := hr; rfl
  | error e => rw [Dialogue.admits_remarking.1 hr]; rfl

/-- How a block ends, once the outcome of the work within its transaction is known. -/
theorem finish_admits {name : Name} {outcome r : Except MigrateError Unit}
    {es : List Exchange} (h : (finish name outcome).Admits es r) :
    (∃ m, outcome = .ok () ∧ es = [⟨.execute "COMMIT", .ok m⟩] ∧ r = .ok ()) ∨
    (∃ e reply, outcome = .ok () ∧
      es = [⟨.execute "COMMIT", .error e⟩, ⟨.execute "ROLLBACK", reply⟩] ∧
      r = .error (.transaction (.commit name e))) ∨
    ∃ failure reply, outcome = .error failure ∧ es = [⟨.execute "ROLLBACK", reply⟩] ∧
      r = .error failure := by
  cases outcome with
  | ok _ =>
      obtain ⟨es₁, reply, es₂, rfl, hc, hr⟩ := Dialogue.admits_bind.1 h
      cases Dialogue.admits_asking.1 hc
      cases reply with
      | ok m =>
          obtain ⟨rfl, rfl⟩ := Dialogue.admits_pure.1 hr
          exact .inl ⟨m, rfl, rfl, rfl⟩
      | error e =>
          obtain ⟨es₃, _, es₄, rfl, hb, hp⟩ := Dialogue.admits_bind.1 hr
          obtain ⟨reply, rfl⟩ := rollBack_admits hb
          obtain ⟨rfl, rfl⟩ := Dialogue.admits_pure.1 hp
          exact .inr (.inl ⟨e, reply, rfl, rfl, rfl⟩)
  | error failure =>
      obtain ⟨es₁, _, es₂, rfl, hb, hp⟩ := Dialogue.admits_bind.1 h
      obtain ⟨reply, rfl⟩ := rollBack_admits hb
      obtain ⟨rfl, rfl⟩ := Dialogue.admits_pure.1 hp
      exact .inr (.inr ⟨failure, reply, rfl, rfl, rfl⟩)

/-- A block is committed, and then it succeeds, or it is abandoned with a failure. -/
theorem run_admits {table : String} {b : Block} {es : List Exchange}
    {r : Except MigrateError Unit} (h : (run table b).Admits es r) :
    (r = .ok () ∧ Committed table b es) ∨ ∃ e, r = .error e ∧ Abandoned table b es e := by
  rcases Work.admits_orFail_bind.1 h with ⟨e, hb, rfl⟩ | ⟨es₁, n, es₂, rfl, hb, hr⟩
  · cases Dialogue.admits_asking.1 hb
    exact .inr ⟨_, rfl, .notBegun⟩
  · cases Dialogue.admits_asking.1 hb
    obtain ⟨es₃, outcome, es₄, rfl, hbody, hf⟩ := Dialogue.admits_bind.1 hr
    rcases body_admits hbody with ⟨rfl, es, hc, rfl⟩ | ⟨e, rfl, hfail⟩ <;>
      rcases finish_admits hf with
        ⟨m, ho, rfl, rfl⟩ | ⟨d, reply, ho, rfl, rfl⟩ | ⟨d, reply, ho, rfl, rfl⟩ <;> cases ho
    · exact .inl ⟨rfl, .intro hc⟩
    · exact .inr ⟨_, rfl, .commitRefused hc⟩
    · exact .inr ⟨_, rfl, .failed hfail⟩

end Block

end SchemaLedger
