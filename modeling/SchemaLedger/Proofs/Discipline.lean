import SchemaLedger.Proofs.RunTrace

/-!
# Transactions are used with discipline, whatever the database answers

A database may answer any call in any way, at any moment: it may refuse to begin, to commit
and to roll back, and it may make up rows and counts. What is called is still in order, and
this file says what that order is.

`Disciplined` is the order in full. Outside of blocks a ledger is set up and read, and
nothing else; a block is either committed, and then more may follow, or abandoned, and then
nothing follows. What a committed and an abandoned block look like is said by
`Block.Committed` and `Block.Abandoned`. `Balanced` is the same order seen through the three
calls that control transactions, without the rest. The second does not follow from the first
by itself: it also takes that no statement of a ledger reads as one of those three.
-/

namespace SchemaLedger

/-- A sequence of exchanges in which transactions are used with discipline, and the blocks
that are carried out in it. -/
inductive Disciplined (table : String) : List Block → List Exchange → Prop
  | outside {es : List Exchange} (upkeep : ∀ x ∈ es, Ledger.IsUpkeep table x.call) :
    Disciplined table [] es
  | committed {b : Block} {bs : List Block} {es₁ es₂ es₃ : List Exchange}
    (upkeep : ∀ x ∈ es₁, Ledger.IsUpkeep table x.call) (committed : b.Committed table es₂)
    (rest : Disciplined table bs es₃) :
    Disciplined table (b :: bs) (es₁ ++ es₂ ++ es₃)
  | abandoned {b : Block} {es₁ es₂ : List Exchange} {e : MigrateError}
    (upkeep : ∀ x ∈ es₁, Ledger.IsUpkeep table x.call) (abandoned : b.Abandoned table es₂ e) :
    Disciplined table [b] (es₁ ++ es₂)

/-! ## The calls that control transactions -/

/-- A call that controls a transaction. -/
inductive Control where
  | begin
  | commit
  | rollback
  deriving DecidableEq

/-- The call that controls a transaction, and whether it was accepted. -/
def Exchange.control? : Exchange → Option (Control × Bool)
  | ⟨.execute sql, reply⟩ =>
    if sql = "BEGIN TRANSACTION" then some (.begin, reply.isOk)
    else if sql = "COMMIT" then some (.commit, reply.isOk)
    else if sql = "ROLLBACK" then some (.rollback, reply.isOk)
    else none
  | _ => none

/-- Transactions that begin and end in turn. Only the last one may fail: it does not begin,
or it is rolled back, be it without an attempt to commit or after one that was refused. -/
inductive Balanced : List (Control × Bool) → Prop
  | nil : Balanced []
  | committed {rest : List (Control × Bool)} (balanced : Balanced rest) :
    Balanced ((.begin, true) :: (.commit, true) :: rest)
  | notBegun : Balanced [(.begin, false)]
  | rolledBack (accepted : Bool) : Balanced [(.begin, true), (.rollback, accepted)]
  | commitRefused (accepted : Bool) :
    Balanced [(.begin, true), (.commit, false), (.rollback, accepted)]

theorem control?_begin {reply : Except DatabaseError Nat} :
    Exchange.control? ⟨.execute "BEGIN TRANSACTION", reply⟩ = some (.begin, reply.isOk) := by
  simp [Exchange.control?]

theorem control?_commit {reply : Except DatabaseError Nat} :
    Exchange.control? ⟨.execute "COMMIT", reply⟩ = some (.commit, reply.isOk) := by
  simp [Exchange.control?]

theorem control?_rollback {reply : Except DatabaseError Nat} :
    Exchange.control? ⟨.execute "ROLLBACK", reply⟩ = some (.rollback, reply.isOk) := by
  simp [Exchange.control?]

/-- A text that begins with another letter than the three do is none of them. -/
theorem control?_execute {sql : String} {reply : Except DatabaseError Nat} {c : Char}
    (h : sql.toList.head? = some c) (hc : c ∉ ['B', 'C', 'R']) :
    Exchange.control? ⟨.execute sql, reply⟩ = none := by
  have hne : ∀ t : String, (∃ d ∈ ['B', 'C', 'R'], t.toList.head? = some d) → sql ≠ t := by
    rintro t ⟨d, hd, ht⟩ rfl
    rw [h] at ht
    cases ht
    exact hc hd
  simp only [Exchange.control?]
  rw [if_neg (hne _ ⟨'B', by simp, by simp⟩), if_neg (hne _ ⟨'C', by simp, by simp⟩),
    if_neg (hne _ ⟨'R', by simp, by simp⟩)]

theorem control?_upkeep {table : String} {x : Exchange}
    (h : Ledger.IsUpkeep table x.call) : x.control? = none := by
  obtain ⟨c, reply⟩ := x
  cases c with
  | execute sql => simp [Ledger.IsUpkeep, Ledger.setupCalls, Ledger.readCalls] at h
  | _ => rfl

theorem filterMap_control?_upkeep {table : String} {es : List Exchange}
    (h : ∀ x ∈ es, Ledger.IsUpkeep table x.call) : es.filterMap Exchange.control? = [] :=
  List.filterMap_eq_nil_iff.2 fun x hx => control?_upkeep (h x hx)

theorem control?_queryCount {sql : String} {reply : Except DatabaseError Nat} :
    Exchange.control? ⟨.queryCount sql, reply⟩ = none := rfl

theorem control?_insert {table : String} {name : Name} {batch : Int}
    {reply : Except DatabaseError Nat} :
    Exchange.control? ⟨.execute (Ledger.insertStatement table name batch), reply⟩ = none :=
  control?_execute (c := 'I') (by delta Ledger.insertStatement; simp) (by decide)

theorem control?_delete {table : String} {name : Name} {reply : Except DatabaseError Nat} :
    Exchange.control? ⟨.execute (Ledger.deleteStatement table name), reply⟩ = none :=
  control?_execute (c := 'D') (by delta Ledger.deleteStatement; simp) (by decide)

theorem filterMap_control?_executed {statements : List String} :
    (Block.executed statements).filterMap Exchange.control? = [] := by
  refine List.filterMap_eq_nil_iff.2 fun x hx => ?_
  obtain ⟨sql, _, rfl⟩ := List.mem_map.1 hx
  rfl

theorem filterMap_control?_changed {table : String} {name : Name} {change : LedgerChange}
    {es : List Exchange} (h : Ledger.Changed table name change es) :
    es.filterMap Exchange.control? = [] := by
  cases h with
  | recorded batch n => simp only [List.filterMap, control?_queryCount, control?_insert]
  | removed found => simp only [List.filterMap, control?_delete]

theorem filterMap_control?_unchanged {table : String} {name : Name} {change : LedgerChange}
    {es : List Exchange} {e : MigrateError} (h : Ledger.Unchanged table name change es e) :
    es.filterMap Exchange.control? = [] := by
  cases h <;> simp only [List.filterMap, control?_queryCount, control?_insert, control?_delete]

theorem filterMap_control?_fails {table : String} {b : Block} {es : List Exchange}
    {e : MigrateError} (h : b.Fails table es e) : es.filterMap Exchange.control? = [] := by
  cases h with
  | statement split =>
      rw [List.filterMap_append, filterMap_control?_executed]
      rfl
  | change unchanged =>
      rw [List.filterMap_append, filterMap_control?_executed,
        filterMap_control?_unchanged unchanged]
      rfl

theorem filterMap_control?_committed {table : String} {b : Block} {es : List Exchange}
    (h : b.Committed table es) :
    es.filterMap Exchange.control? = [(.begin, true), (.commit, true)] := by
  obtain ⟨changed⟩ := h
  rw [List.filterMap_cons, control?_begin, List.filterMap_append, List.filterMap_append,
    filterMap_control?_executed, filterMap_control?_changed changed, List.filterMap_cons,
    control?_commit]
  rfl

theorem filterMap_control?_abandoned {table : String} {b : Block} {es : List Exchange}
    {e : MigrateError} (h : b.Abandoned table es e) :
    es.filterMap Exchange.control? = [(.begin, false)] ∨
      ∃ accepted, es.filterMap Exchange.control? = [(.begin, true), (.rollback, accepted)] ∨
        es.filterMap Exchange.control? =
          [(.begin, true), (.commit, false), (.rollback, accepted)] := by
  cases h with
  | notBegun =>
      left
      rw [List.filterMap_cons, control?_begin]
      rfl
  | @failed n es failure reply fails =>
      refine .inr ⟨reply.isOk, .inl ?_⟩
      rw [List.filterMap_cons, control?_begin, List.filterMap_append,
        filterMap_control?_fails fails, List.filterMap_cons, control?_rollback]
      rfl
  | @commitRefused n es e reply changed =>
      refine .inr ⟨reply.isOk, .inr ?_⟩
      rw [List.filterMap_cons, control?_begin, List.filterMap_append, List.filterMap_append,
        filterMap_control?_executed, filterMap_control?_changed changed, List.filterMap_cons,
        control?_commit, List.filterMap_cons, control?_rollback]
      rfl

theorem balanced_of_abandoned {table : String} {b : Block} {es : List Exchange}
    {e : MigrateError} (h : b.Abandoned table es e) :
    Balanced (es.filterMap Exchange.control?) := by
  rcases filterMap_control?_abandoned h with hc | ⟨accepted, hc | hc⟩ <;> rw [hc]
  · exact .notBegun
  · exact .rolledBack accepted
  · exact .commitRefused accepted

/-- Whoever uses transactions with discipline begins and ends them in turn. -/
theorem Disciplined.balanced {table : String} {bs : List Block} {es : List Exchange}
    (h : Disciplined table bs es) : Balanced (es.filterMap Exchange.control?) := by
  induction h with
  | outside upkeep =>
      rw [filterMap_control?_upkeep upkeep]
      exact .nil
  | committed upkeep committed rest ih =>
      rw [List.filterMap_append, List.filterMap_append, filterMap_control?_upkeep upkeep,
        filterMap_control?_committed committed]
      exact .committed ih
  | abandoned upkeep abandoned =>
      rw [List.filterMap_append, filterMap_control?_upkeep upkeep]
      exact balanced_of_abandoned abandoned

/-! ## Discipline of the two ways to migrate -/

namespace Migrate

theorem upkeep_of_setUp {table : String} {es : List Exchange} {r : Except MigrateError Unit}
    (h : Ledger.SetUp table es r) : ∀ x ∈ es, Ledger.IsUpkeep table x.call := by
  cases h with
  | invalidName invalid => simp
  | schemaRefused qualified =>
      rw [List.contains_iff_mem] at qualified
      simp [Ledger.IsUpkeep, Ledger.setupCalls, qualified]
  | unqualified unqualified => simp [Ledger.IsUpkeep, Ledger.setupCalls]
  | qualified qualified =>
      rw [List.contains_iff_mem] at qualified
      simp [Ledger.IsUpkeep, Ledger.setupCalls, qualified]

theorem upkeep_of_read {table : String} {es : List Exchange}
    {r : Except MigrateError (List Record)} (h : Read table es r) :
    ∀ x ∈ es, Ledger.IsUpkeep table x.call := by
  cases h <;> simp [Ledger.IsUpkeep, Ledger.readCalls]

theorem upkeep_of_setUp_append {table : String} {es reads : List Exchange}
    {r : Except MigrateError Unit} (h : Ledger.SetUp table es r)
    (hr : ∀ x ∈ reads, x.call ∈ Ledger.readCalls table) :
    ∀ x ∈ es ++ reads, Ledger.IsUpkeep table x.call :=
  List.forall_mem_append.2 ⟨upkeep_of_setUp h, fun x hx => .inr (hr x hx)⟩

/-- Blocks that are carried out are a beginning of those that there are, and what was sent
before them can stand in front. -/
theorem disciplined_of_carried {table : String} {todo : List (Except MigrateError Block)}
    {es₀ es : List Exchange} {r : Except MigrateError Unit}
    (upkeep : ∀ x ∈ es₀, Ledger.IsUpkeep table x.call) (h : Carried table todo es r) :
    ∃ bs, (∀ b ∈ bs, .ok b ∈ todo) ∧ Disciplined table bs (es₀ ++ es) := by
  induction h generalizing es₀ with
  | done => exact ⟨[], by simp, by simpa using .outside upkeep⟩
  | missing => exact ⟨[], by simp, by simpa using .outside upkeep⟩
  | @abandoned b rest es e abandoned => exact ⟨[b], by simp, .abandoned upkeep abandoned⟩
  | @next b rest es₁ es₂ r committed carried ih =>
      obtain ⟨bs, hbs, hd⟩ := @ih [] (by simp)
      refine ⟨b :: bs, ?_, ?_⟩
      · intro c hc
        rcases List.mem_cons.1 hc with rfl | hc
        · exact List.mem_cons_self
        · exact List.mem_cons_of_mem _ (hbs c hc)
      · rw [← List.append_assoc]
        exact .committed upkeep committed hd

/-- What is applied has a number that was read as one of 64 bits. -/
theorem numbered_of_applyRun {source : Source} {table : String} {es : List Exchange}
    {r : Except MigrateError ApplyReport} (h : ApplyRun source table es r) :
    ∃ bs, (∀ b ∈ bs, ∃ value batch, Text.int64? value = some batch ∧
        upBlock source batch b.name = .ok b) ∧ Disciplined table bs es := by
  cases h with
  | notSetUp setup => exact ⟨[], by simp, .outside (upkeep_of_setUp setup)⟩
  | notRead setup | notListed setup | nothingPending setup | noBatch setup =>
      refine ⟨[], by simp, .outside (upkeep_of_setUp_append setup ?_)⟩
      simp [Ledger.readCalls]
  | @carried es es' reply reply' records available batch r setup read listed pending numbered
      carried =>
      have upkeep : ∀ x ∈ es ++ [⟨.queryRows (Ledger.listQuery table), reply⟩,
          ⟨.queryRows (Ledger.nextBatchQuery table), reply'⟩], Ledger.IsUpkeep table x.call :=
        upkeep_of_setUp_append setup (by simp [Ledger.readCalls])
      obtain ⟨bs, hbs, hd⟩ := disciplined_of_carried upkeep carried
      obtain ⟨_, value, _, _, hvalue⟩ := Ledger.batchOf_ok numbered
      refine ⟨bs, fun b hb => ?_, hd⟩
      obtain ⟨name, _, hup⟩ := List.mem_map.1 (hbs b hb)
      exact ⟨value, batch, hvalue, (upBlock_ok hup).1 ▸ hup⟩

theorem disciplined_of_applyRun {source : Source} {table : String} {es : List Exchange}
    {r : Except MigrateError ApplyReport} (h : ApplyRun source table es r) :
    ∃ bs, (∀ b ∈ bs, ∃ batch, upBlock source batch b.name = .ok b) ∧
      Disciplined table bs es := by
  obtain ⟨bs, hbs, hd⟩ := numbered_of_applyRun h
  refine ⟨bs, fun b hb => ?_, hd⟩
  obtain ⟨_, batch, _, hup⟩ := hbs b hb
  exact ⟨batch, hup⟩

theorem disciplined_of_revertRun {source : Source} {table : String} {es : List Exchange}
    {r : Except MigrateError RevertReport} (h : RevertRun source table es r) :
    ∃ bs, (∀ b ∈ bs, downBlock source b.name = .ok b) ∧ Disciplined table bs es := by
  cases h with
  | notRead read | nothingApplied read | notCompiled read =>
      exact ⟨[], by simp, .outside (upkeep_of_read read)⟩
  | carried read newest compiled carried =>
      rw [← downBlocks_ok compiled] at carried
      obtain ⟨bs, hbs, hd⟩ := disciplined_of_carried (upkeep_of_read read) carried
      refine ⟨bs, fun b hb => ?_, hd⟩
      obtain ⟨r, _, hdown⟩ := List.mem_map.1 (hbs b hb)
      exact (downBlock_ok hdown).1 ▸ hdown

/-- Applying and reverting use transactions with discipline, over any database and with any
source: nothing but the set-up and the reads of the ledger is sent outside of blocks, every
block is one that the source has and is committed or abandoned as a whole, and nothing
follows a block that is abandoned. The transactions that are begun and ended are in turn. -/
theorem transactions_disciplined {σ : Type} (db : Database σ) (source : Source)
    (table : String) (s : σ) :
    (∃ bs, (∀ b ∈ bs, ∃ batch, upBlock source batch b.name = .ok b) ∧
      Disciplined table bs ((apply source table).hold db s).exchanges ∧
      Balanced (((apply source table).hold db s).exchanges.filterMap Exchange.control?)) ∧
    ∃ bs, (∀ b ∈ bs, downBlock source b.name = .ok b) ∧
      Disciplined table bs ((revert source table).hold db s).exchanges ∧
      Balanced (((revert source table).hold db s).exchanges.filterMap Exchange.control?) := by
  constructor
  · obtain ⟨bs, hbs, hd⟩ :=
      disciplined_of_applyRun (apply_admits ((apply source table).hold_admits db s))
    exact ⟨bs, hbs, hd, hd.balanced⟩
  · obtain ⟨bs, hbs, hd⟩ :=
      disciplined_of_revertRun (revert_admits ((revert source table).hold_admits db s))
    exact ⟨bs, hbs, hd, hd.balanced⟩

end Migrate

end SchemaLedger
