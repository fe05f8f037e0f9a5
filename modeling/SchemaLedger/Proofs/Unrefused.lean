import SchemaLedger.Proofs.Progress

/-!
# Applying where nothing is refused

Any call may be refused, and a migration may have no block. If nothing is refused while
migrations are applied, only the second can be a reason to fail: a record is not there twice,
since what is applied had none, and so no block is abandoned. The calls are known then, up to
the first migration that has no block.
-/

namespace SchemaLedger

/-! ## Calls -/

/-- The calls that change the record of a migration. -/
def Ledger.changeCalls (table : String) (name : Name) : LedgerChange → List DatabaseCall
  | .record batch =>
    [.queryCount (namedQuery table name), .execute (insertStatement table name batch)]
  | .remove => [.execute (deleteStatement table name)]

/-- The calls of a block that is committed. -/
def Block.calls (table : String) (b : Block) : List DatabaseCall :=
  .execute "BEGIN TRANSACTION" ::
    (b.statements.map .executeBatch ++ Ledger.changeCalls table b.name b.change ++
      [.execute "COMMIT"])

theorem Block.Committed.calls {table : String} {b : Block} {es : List Exchange}
    (h : b.Committed table es) : es.map (·.call) = b.calls table := by
  obtain @⟨n, m, es, changed⟩ := h
  have hchanged : es.map (·.call) = Ledger.changeCalls table b.name b.change := by
    generalize b.change = change at changed
    cases changed <;> rfl
  have hexecuted : (executed b.statements).map (·.call) = b.statements.map .executeBatch := by
    rw [executed, List.map_map]
    rfl
  rw [List.map_cons, List.map_append, List.map_append, hexecuted, hchanged]
  rfl

theorem CommittedAll.calls {table : String} {bs : List Block} {es : List Exchange}
    (h : CommittedAll table bs es) : es.map (·.call) = bs.flatMap (Block.calls table) := by
  induction h with
  | nil => rfl
  | cons committed rest ih => rw [List.map_append, committed.calls, ih, List.flatMap_cons]

theorem Ledger.SetUp.calls {table : String} {es : List Exchange}
    (h : SetUp table es (.ok ())) : es.map (·.call) = setupCalls table := by
  generalize hr : (Except.ok () : Except MigrateError Unit) = r at h
  cases h with
  | invalidName | schemaRefused => cases hr
  | unqualified unqualified => rw [setupCalls, if_neg (by simpa using unqualified)]; rfl
  | qualified qualified => rw [setupCalls, if_pos qualified]; rfl

theorem Ledger.SetUp.ok_of_accepted {table : String} {es : List Exchange}
    {r : Except MigrateError Unit} (valid : Sql.isQualifiedName table = true)
    (h : SetUp table es r) (accepted : ∀ x ∈ es, x.accepted) : r = .ok () := by
  cases h with
  | invalidName invalid =>
      rw [Sql.checkQualifiedName, if_pos valid] at invalid
      cases invalid
  | schemaRefused => simp [Exchange.accepted, DatabaseCall.accepts] at accepted
  | @unqualified reply =>
      have hreply : reply = .ok () := accepted _ List.mem_cons_self
      rw [hreply]
      rfl
  | @qualified reply =>
      have hreply : reply = .ok () := accepted _ (List.mem_cons_of_mem _ List.mem_cons_self)
      rw [hreply]
      rfl

/-- Rows that a change of the record of a name fits. -/
def Ledger.Fits (rows : List Row) (name : Name) : LedgerChange → Prop
  | .record _ => ∀ q ∈ rows, q.name ≠ name.text
  | .remove => ∃ q ∈ rows, q.name = name.text

/-! ## Applying -/

namespace LedgerStore

open Migrate

variable {σ ω : Type} {db : Database σ} {table : String} {L : LedgerStore db table ω}

/-- A record is changed in rows that the change fits, unless something is refused. -/
theorem not_unchanged_of_accepted {name : Name} {change : LedgerChange} {es : List Exchange}
    {e : MigrateError} {c c' : Content ω} {s s' : σ} (fits : Ledger.Fits c'.rows name change)
    (within : L.Within c c' s) (unchanged : Ledger.Unchanged table name change es e)
    (answers : db.Answers s es s') (accepted : ∀ x ∈ es, x.accepted) : False := by
  cases unchanged with
  | countRefused batch e =>
      obtain ⟨n, hn⟩ := accepted ⟨.queryCount (Ledger.namedQuery table name), .error e⟩ (by simp)
      cases hn
  | insertRefused batch e =>
      obtain ⟨n, hn⟩ := accepted
        ⟨.execute (Ledger.insertStatement table name batch), .error e⟩ (by simp)
      cases hn
  | deleteRefused e =>
      obtain ⟨n, hn⟩ := accepted ⟨.execute (Ledger.deleteStatement table name), .error e⟩ (by simp)
      cases hn
  | present batch found =>
      rw [Database.answers_singleton] at answers
      rw [(L.counted within answers).2, List.countP_pos_iff] at found
      obtain ⟨q, hq, hname⟩ := found
      exact fits q hq (of_decide_eq_true hname)
  | absent =>
      rw [Database.answers_singleton] at answers
      obtain ⟨q, hq, hname⟩ := fits
      have none := (L.deleted within answers).1.symm
      rw [List.countP_eq_zero] at none
      exact none q hq (decide_eq_true hname)

/-- A block that fits is not abandoned unless something is refused. -/
theorem not_abandoned_of_accepted {b : Block} {es : List Exchange} {e : MigrateError}
    {c : Content ω} {s s' : σ} (admissible : L.Admissible b)
    (fits : Ledger.Fits c.rows b.name b.change) (idle : L.Idle c s)
    (abandoned : b.Abandoned table es e) (answers : db.Answers s es s')
    (accepted : ∀ x ∈ es, x.accepted) : False := by
  cases abandoned with
  | @notBegun e =>
      obtain ⟨n, hn⟩ := accepted ⟨.execute "BEGIN TRANSACTION", .error e⟩ List.mem_cons_self
      cases hn
  | @commitRefused n es e reply changed =>
      obtain ⟨n, hn⟩ := accepted ⟨.execute "COMMIT", .error e⟩ (by simp)
      cases hn
  | @failed n es failure reply fails =>
      have haccepted : ∀ x ∈ es, x.accepted := fun x hx => accepted x (by simp [hx])
      obtain ⟨m₁, hbegin, hrest⟩ := Database.answers_cons.1 answers
      obtain ⟨m₂, hbody, _⟩ := Database.answers_append.1 hrest
      cases fails with
      | @statement before after sql e split =>
          cases haccepted ⟨.executeBatch sql, .error e⟩ (by simp)
      | @change es e unchanged =>
          obtain ⟨m, hsts, hchange⟩ := Database.answers_append.1 hbody
          obtain ⟨o, within, _⟩ :=
            executed_within admissible.confined (L.begun idle hbegin) hsts
          have fits' : Ledger.Fits ({ c with objects := o } : Content ω).rows b.name b.change :=
            fits
          exact not_unchanged_of_accepted fits' within unchanged hchange fun x hx =>
            haccepted x (List.mem_append_right _ hx)

/-- If nothing is refused, migrations without records are applied up to the first that has no
block. -/
theorem carried_of_accepted {source : Source} {batch : Int} {names : List Name}
    {es : List Exchange} {r : Except MigrateError Unit} {c : Content ω} {s s' : σ}
    (admissible : ∀ name b, upBlock source batch name = .ok b → L.Admissible b)
    (distinct : names.Nodup) (fresh : ∀ name ∈ names, ∀ q ∈ c.rows, q.name ≠ name.text)
    (idle : L.Idle c s) (carried : Carried table (names.map (upBlock source batch)) es r)
    (answers : db.Answers s es s') (accepted : ∀ x ∈ es, x.accepted) :
    ∃ before after done c', names = before ++ after ∧
      before.map (upBlock source batch) = done.map .ok ∧ CommittedAll table done es ∧
      L.Idle c' s' ∧ L.Effects done c c' ∧
      (after = [] ∧ r = .ok () ∨ ∃ name more e, after = name :: more ∧
        upBlock source batch name = .error e ∧ r = .error e) := by
  obtain ⟨done, rest, es₁, es₂, hsplit, rfl, committed, ended⟩ := carried.split
  obtain ⟨before, after, rfl, hbefore, rfl⟩ := List.map_eq_append_iff.1 hsplit
  obtain ⟨m, hdone, hrest⟩ := Database.answers_append.1 answers
  obtain ⟨hnames, hchanges⟩ := names_of_blocks upBlock_ok hbefore
  obtain ⟨c', idle', effects⟩ := effects_of_committedAll (fun b hb => by
    have hmem : (.ok b : Except MigrateError Block) ∈ done.map .ok := List.mem_map_of_mem hb
    rw [← hbefore] at hmem
    obtain ⟨name, _, hup⟩ := List.mem_map.1 hmem
    exact admissible name b hup) committed idle hdone
  cases after with
  | nil =>
      generalize hnil : ([] : List Name).map (upBlock source batch) = rest at ended
      cases ended with
      | done =>
          cases hrest
          refine ⟨before, [], done, c', rfl, hbefore, ?_, idle', effects, .inl ⟨rfl, rfl⟩⟩
          rwa [List.append_nil]
      | missing | abandoned => cases hnil
  | cons name more =>
      rw [List.map_cons] at ended
      cases hup : upBlock source batch name with
      | error e =>
          rw [hup] at ended
          cases ended with
          | missing =>
              cases hrest
              refine ⟨before, name :: more, done, c', rfl, hbefore, ?_, idle', effects,
                .inr ⟨name, more, e, rfl, hup, rfl⟩⟩
              rwa [List.append_nil]
      | ok b =>
          rw [hup] at ended
          cases ended with
          | abandoned abandoned =>
              obtain ⟨hname, hchange⟩ := upBlock_ok hup
              obtain ⟨new, hrows, hnew⟩ := effects.newRows hchanges
              refine (not_abandoned_of_accepted (admissible name b hup) ?_ idle' abandoned
                hrest fun x hx => accepted x (List.mem_append_right _ hx)).elim
              rw [hname, hchange, hrows]
              intro q hq
              rcases List.mem_append.1 hq with hq | hq
              · exact fresh name (by simp) q hq
              · -- The name of a row that was added is one of those before.
                have hmem : q.name ∈ new.map (·.name) := List.mem_map_of_mem hq
                rw [hnew.names, hnames] at hmem
                obtain ⟨other, hother, ht⟩ := List.mem_map.1 hmem
                rw [← ht]
                intro heq
                rw [List.nodup_append] at distinct
                exact distinct.2.2 other hother name List.mem_cons_self (Name.eq_of_text heq)

/-- The calls of `apply` if the blocks `done` of the migrations that are pending are
committed. -/
def applyCalls (table : String) (pending : List Name) (done : List Block) : List DatabaseCall :=
  Ledger.setupCalls table ++ .queryRows (Ledger.listQuery table) ::
    if pending = [] then []
    else .queryRows (Ledger.nextBatchQuery table) :: done.flatMap (Block.calls table)

/-- What `apply` does from a state if nothing is refused: it makes just these calls, and fails
only at a migration that has no block. -/
def Unrefused (L : LedgerStore db table ω) (source : Source) (c : Content ω) (s : σ) : Prop :=
  ∃ before after done c', outstanding source c.rows = before ++ after ∧
    before.map (upBlock source (Ledger.lastBatch c.rows + 1)) = done.map .ok ∧
    ((apply source table).hold db s).calls = applyCalls table (outstanding source c.rows) done ∧
    L.Idle c' ((apply source table).hold db s).state ∧ L.Effects done c c' ∧
    (after = [] ∧ ((apply source table).hold db s).result =
        .ok ⟨if outstanding source c.rows = [] then none else some (Ledger.lastBatch c.rows + 1),
          outstanding source c.rows⟩ ∨
      ∃ name more e, after = name :: more ∧
        upBlock source (Ledger.lastBatch c.rows + 1) name = .error e ∧
        ((apply source table).hold db s).result = .error e)

theorem unrefused_of_outstanding {source : Source} {available : List Name}
    {records : List Record} {c : Content ω} {s : σ} (idle : L.Idle c s)
    (valid : Sql.isQualifiedName table = true) (confines : L.Confines source)
    (listed : source.list = .ok available) (distinct : (outstanding source c.rows).Nodup)
    (readable : Record.ofRows (c.rows.map Ledger.Row.texts) = .ok records)
    (room : Ledger.lastBatch c.rows < Text.int64Max)
    (accepted : ∀ x ∈ ((apply source table).hold db s).exchanges, x.accepted) :
    L.Unrefused source c s := by
  unfold Unrefused
  have lower := Ledger.int64Min_le_lastBatch (Ledger.ofRows_texts readable)
  have run := apply_admits ((apply source table).hold_admits db s)
  have answers := (apply source table).hold_answers db s
  unfold Outcome.calls
  generalize ((apply source table).hold db s).exchanges = es at run answers accepted ⊢
  generalize ((apply source table).hold db s).result = r at run ⊢
  generalize ((apply source table).hold db s).state = s' at answers ⊢
  cases run with
  | notSetUp setUp => cases setUp.ok_of_accepted valid accepted
  | @notRead es reply e setUp read =>
      obtain ⟨c', m, like, idle', _, htexts⟩ := rows_of_setUp setUp idle answers
      obtain ⟨texts, rfl⟩ : ∃ texts, reply = .ok texts :=
        accepted ⟨.queryRows (Ledger.listQuery table), reply⟩ (by simp)
      rw [htexts texts rfl, Ledger.recordsOf, readable] at read
      cases read
  | notListed setUp read listed' =>
      rw [listed] at listed'
      cases listed'
  | @nothingPending es reply records' available' setUp read listed' pending =>
      obtain ⟨c', m, like, idle', rfl, htexts⟩ := rows_of_setUp setUp idle answers
      rw [listed] at listed'
      cases listed'
      rw [unrecorded_eq_outstanding listed (Ledger.reads_of_recordsOf htexts read)] at pending
      rw [pending, List.map_append, setUp.calls]
      exact ⟨[], [], [], c', rfl, rfl, rfl, idle', .nil like, .inl ⟨rfl, rfl⟩⟩
  | @noBatch es reply reply' records' available' e setUp read listed' pending numbered =>
      obtain ⟨c', m, like, idle', hnumber, htexts⟩ := rows_of_setUp setUp idle answers
      rw [Database.answers_singleton] at hnumber
      obtain ⟨texts, rfl⟩ : ∃ texts, reply' = .ok texts :=
        accepted ⟨.queryRows (Ledger.nextBatchQuery table), reply'⟩ (by simp)
      rw [(L.numbered idle' hnumber).2 texts rfl, like.rows,
        Ledger.batchOf_toString (by omega) (by omega)] at numbered
      cases numbered
  | @carried es es' reply reply' records' available' batch r setUp read listed' pending numbered
      carried =>
      obtain ⟨m₁, hreads, hblocks⟩ := Database.answers_append.1 answers
      obtain ⟨c', m₂, like, idle', hnumber, htexts⟩ := rows_of_setUp setUp idle hreads
      rw [Database.answers_singleton] at hnumber
      rw [listed] at listed'
      cases listed'
      obtain ⟨rfl, lo, hi⟩ := batch_of_numbered idle' hnumber numbered
      rw [like.rows] at lo hi carried ⊢
      rw [unrecorded_eq_outstanding listed (Ledger.reads_of_recordsOf htexts read)]
        at pending carried ⊢
      have fresh : ∀ name ∈ outstanding source c.rows, ∀ q ∈ c'.rows, q.name ≠ name.text := by
        rw [like.rows]
        exact fun name hname => fresh_of_outstanding hname
      obtain ⟨before, after, done, c'', hsplit, hbefore, committed, idle'', effects, hend⟩ :=
        carried_of_accepted (fun name b hup => admissible_of_upBlock confines lo hi hup)
          distinct fresh (L.numbered idle' hnumber).1 carried
          hblocks fun x hx => accepted x (List.mem_append_right _ hx)
      refine ⟨before, after, done, c'', hsplit, hbefore, ?_, idle'', effects.like like, ?_⟩
      · rw [List.map_append, List.map_append, setUp.calls, committed.calls, applyCalls,
          if_neg pending, List.append_assoc]
        rfl
      · rcases hend with ⟨rfl, rfl⟩ | ⟨name, more, e, rfl, hup, rfl⟩
        · rw [if_neg pending]
          exact .inl ⟨rfl, rfl⟩
        · exact .inr ⟨name, more, e, rfl, hup, rfl⟩

/-- A source that lists no name twice leaves none outstanding twice. -/
theorem apply_of_accepted {source : Source} {available : List Name} {records : List Record}
    {c : Content ω} {s : σ} (idle : L.Idle c s) (valid : Sql.isQualifiedName table = true)
    (confines : L.Confines source) (listed : source.list = .ok available)
    (distinct : available.Nodup)
    (readable : Record.ofRows (c.rows.map Ledger.Row.texts) = .ok records)
    (room : Ledger.lastBatch c.rows < Text.int64Max)
    (accepted : ∀ x ∈ ((apply source table).hold db s).exchanges, x.accepted) :
    L.Unrefused source c s :=
  unrefused_of_outstanding idle valid confines listed (nodup_outstanding listed distinct c.rows)
    readable room accepted

end LedgerStore

end SchemaLedger
