import SchemaLedger.Proofs.StoreEngine

/-!
# A ledger is a table of entries

What can be done with a ledger is done by statements and queries, which are texts with names
written into them. Here is what it comes to: a list of entries, to which one is added for a
name that has none, and from which the one of a name is taken away. Nothing of the texts is
left in that.

The rows that an engine keeps are shown by the entries, and the two go along with each other,
one operation at a time. Every operation is looked at from both sides: the exchanges it can
have come from `Exchange`, the replies it gets from the engine.
-/

namespace SchemaLedger

namespace Ledger

/-! ## A table of entries -/

/-- A record without its time. -/
structure LedgerEntry where
  id : Int
  name : Name
  batch : Int
  deriving DecidableEq

/-- What can be done with a ledger. -/
inductive LedgerOperation where
  | ensure
  | list
  | nextBatch
  | record (name : Name) (batch : Int)
  | remove (name : Name)
  deriving DecidableEq

/-- What is answered. -/
inductive Answer where
  | done
  | entries (es : List LedgerEntry)
  | number (n : Int)
  deriving DecidableEq

/-- What an operation does to a table of entries, in the order in which they were added. The
id of a new entry is up to the table, as long as it is above all others. -/
inductive Effect :
    LedgerOperation → List LedgerEntry → Except MigrateError Answer → List LedgerEntry → Prop
  | ensured {es : List LedgerEntry} : Effect .ensure es (.ok .done) es
  | listed {es : List LedgerEntry} : Effect .list es (.ok (.entries es)) es
  | numbered {es : List LedgerEntry} :
    Effect .nextBatch es (.ok (.number ((es.map (·.batch)).max?.getD 0 + 1))) es
  | recorded {es : List LedgerEntry} {name : Name} {id batch : Int}
    (fresh : ∀ e ∈ es, e.name ≠ name) (above : ∀ e ∈ es, e.id < id) :
    Effect (.record name batch) es (.ok .done) (es ++ [⟨id, name, batch⟩])
  | duplicate {es : List LedgerEntry} {name : Name} {batch : Int}
    (present : ∃ e ∈ es, e.name = name) :
    Effect (.record name batch) es (.error (.duplicateMigration name)) es
  | removed {before after : List LedgerEntry} {name : Name} {id batch : Int}
    (others : ∀ e ∈ before ++ after, e.name ≠ name) :
    Effect (.remove name) (before ++ ⟨id, name, batch⟩ :: after) (.ok .done) (before ++ after)
  | absent {es : List LedgerEntry} {name : Name} (absent : ∀ e ∈ es, e.name ≠ name) :
    Effect (.remove name) es (.error (.ledger (.noRecord name))) es

/-- Operations one after the other. -/
inductive Effects :
    List LedgerOperation → List LedgerEntry → List (Except MigrateError Answer) →
      List LedgerEntry → Prop
  | nil {es : List LedgerEntry} : Effects [] es [] es
  | cons {op : LedgerOperation} {ops : List LedgerOperation} {es es' es'' : List LedgerEntry}
    {answer : Except MigrateError Answer} {answers : List (Except MigrateError Answer)}
    (step : Effect op es answer es') (steps : Effects ops es' answers es'') :
    Effects (op :: ops) es (answer :: answers) es''

/-! ## Operations on a database -/

/-- What of a record is in an entry. -/
def entryOf (r : Record) : LedgerEntry := ⟨r.id, r.name, r.batch⟩

namespace LedgerOperation

/-- The work with a database that an operation is. -/
def work (table : String) : LedgerOperation → Work Answer
  | .ensure => setup table >>= fun _ => pure .done
  | .list => records table >>= fun rs => pure (.entries (rs.map entryOf))
  | .nextBatch => Ledger.nextBatch table >>= fun n => pure (.number n)
  | .record name batch => Ledger.record table name batch >>= fun _ => pure .done
  | .remove name => Ledger.remove table name >>= fun _ => pure .done

/-- What operations are answered one after the other, and the state that they leave. -/
def runAll {σ : Type} (db : Database σ) (table : String) :
    List LedgerOperation → σ → List (Except MigrateError Answer) × σ
  | [], s => ([], s)
  | op :: ops, s =>
    let o := (op.work table).hold db s
    let (answers, s') := runAll db table ops o.state
    (o.result :: answers, s')

/-- Whether an operation may need an id for a new entry. -/
def needsId : LedgerOperation → Bool
  | .record _ _ => true
  | _ => false

end LedgerOperation

/-- The batch of an operation that records is small. -/
def LedgerOperation.IsSmall : LedgerOperation → Prop
  | .record _ batch => Small batch
  | _ => True

instance : (op : LedgerOperation) → Decidable op.IsSmall
  | .record _ batch => inferInstanceAs (Decidable (Small batch))
  | .ensure | .list | .nextBatch | .remove _ => inferInstanceAs (Decidable True)

/-! ## Rows and entries -/

/-- A row is what an entry says, with a time that is read. -/
structure Row.Shows (r : Row) (e : LedgerEntry) : Prop where
  id : r.id = e.id
  name : r.name = e.name.text
  batch : r.batch = e.batch
  time : ∃ moment, Moment.ofText r.time = .ok moment

/-- Entries are in the order of their ids, no name is there twice, and the numbers are of the
sizes that they may be of. -/
structure Orderly (es : List LedgerEntry) : Prop where
  ascending : es.Pairwise (·.id < ·.id)
  distinct : (es.map (·.name)).Nodup
  ids : ∀ e ∈ es, Text.int64Min ≤ e.id ∧ e.id ≤ Text.int64Max
  batches : ∀ e ∈ es, Small e.batch

theorem ofRow_of_shows {r : Row} {e : LedgerEntry} (h : r.Shows e)
    (id : Text.int64Min ≤ e.id ∧ e.id ≤ Text.int64Max) (small : Small e.batch) :
    ∃ record, Record.ofRow r.texts = .ok record ∧ entryOf record = e := by
  obtain ⟨moment, hmoment⟩ := h.time
  obtain ⟨lo, hi⟩ := int64_of_small small
  refine ⟨⟨e.id, e.name, e.batch, moment⟩, ?_, rfl⟩
  rw [Row.texts, Record.ofRow, Record.ofValues, h.name, Name.ofText?_text, hmoment, h.id, h.batch,
    number_of_bounds id.1 id.2, number_of_bounds lo hi]
  rfl

section

variable {rs : List Row} {es : List LedgerEntry} (h : List.Forall₂ Row.Shows rs es)

include h

theorem ofRows_of_shows (order : Orderly es) :
    ∃ records, Record.ofRows (rs.map Row.texts) = .ok records ∧ records.map entryOf = es := by
  obtain ⟨-, -, ids, batches⟩ := order
  induction h with
  | nil => exact ⟨[], rfl, rfl⟩
  | @cons r e rs es hr _ ih =>
      obtain ⟨record, hrecord, hentry⟩ :=
        ofRow_of_shows hr (ids e List.mem_cons_self) (batches e List.mem_cons_self)
      obtain ⟨records, hrecords, hentries⟩ := ih (fun q hq => ids q (List.mem_cons_of_mem e hq))
        fun q hq => batches q (List.mem_cons_of_mem e hq)
      refine ⟨record :: records, ?_, by rw [List.map_cons, hentry, hentries]⟩
      rw [List.map_cons, Record.ofRows, hrecord, hrecords]
      rfl

theorem map_of_shows {β : Type} {f : Row → β} {g : LedgerEntry → β}
    (agree : ∀ r e, r.Shows e → f r = g e) : rs.map f = es.map g := by
  induction h with
  | nil => rfl
  | @cons r e _ _ hr _ ih => rw [List.map_cons, List.map_cons, agree r e hr, ih]

theorem map_id_of_shows : rs.map (·.id) = es.map (·.id) :=
  map_of_shows h fun _ _ hr => hr.id

theorem lastBatch_of_shows : lastBatch rs = (es.map (·.batch)).max?.getD 0 := by
  rw [lastBatch, map_of_shows h fun _ _ hr => hr.batch]

theorem small_lastBatch (order : Orderly es) : Small (lastBatch rs) := by
  rw [lastBatch_of_shows h]
  cases hmax : (es.map (·.batch)).max? with
  | none => decide
  | some b =>
      obtain ⟨e, he, rfl⟩ := List.mem_map.1 (List.max?_mem hmax)
      exact order.batches e he

theorem countP_of_shows (name : Name) :
    rs.countP (·.name = name.text) = es.countP (·.name = name) := by
  induction h with
  | nil => rfl
  | @cons r e rs es hr _ ih =>
      have hname : r.name = name.text ↔ e.name = name := by
        rw [hr.name]
        exact ⟨Name.eq_of_text, congrArg _⟩
      simp only [List.countP_cons, ih, decide_eq_true_eq, hname]

theorem ascending_of_shows (order : Orderly es) : rs.Pairwise (·.id < ·.id) := by
  have ascending : (rs.map (·.id)).Pairwise (· < ·) := by
    rw [map_id_of_shows h]
    exact List.pairwise_map.2 order.ascending
  exact List.pairwise_map.1 ascending

theorem filter_of_shows (name : Name) :
    List.Forall₂ Row.Shows (rs.filter (·.name ≠ name.text)) (es.filter (·.name ≠ name)) := by
  refine List.rel_filter (fun r e hr => ?_) h
  show decide (r.name ≠ name.text) = true ↔ decide (e.name ≠ name) = true
  rw [decide_eq_true_eq, decide_eq_true_eq, hr.name]
  exact not_congr ⟨Name.eq_of_text, congrArg _⟩

end

theorem countP_eq_zero_iff {es : List LedgerEntry} {name : Name} :
    es.countP (·.name = name) = 0 ↔ ∀ e ∈ es, e.name ≠ name := by
  simp [List.countP_eq_zero]

theorem Orderly.filter {es : List LedgerEntry} (h : Orderly es) (p : LedgerEntry → Bool) :
    Orderly (es.filter p) :=
  ⟨h.ascending.filter p, nodup_map_filter h.distinct p,
    fun e he => h.ids e (List.mem_of_mem_filter he),
    fun e he => h.batches e (List.mem_of_mem_filter he)⟩

theorem Orderly.append {es : List LedgerEntry} {e : LedgerEntry} (h : Orderly es)
    (fresh : ∀ q ∈ es, q.name ≠ e.name) (above : ∀ q ∈ es, q.id < e.id)
    (id : Text.int64Min ≤ e.id ∧ e.id ≤ Text.int64Max) (small : Small e.batch) :
    Orderly (es ++ [e]) where
  ascending := pairwise_concat h.ascending above
  distinct := nodup_map_concat h.distinct fresh
  ids := List.forall_mem_append.2 ⟨h.ids, List.forall_mem_singleton.2 id⟩
  batches := List.forall_mem_append.2 ⟨h.batches, List.forall_mem_singleton.2 small⟩

theorem Orderly.removed {es : List LedgerEntry} {name : Name} (h : Orderly es)
    (present : ∃ e ∈ es, e.name = name) :
    Effect (.remove name) es (.ok .done) (es.filter (·.name ≠ name)) := by
  obtain ⟨e, he, rfl⟩ := present
  obtain ⟨before, after, rfl⟩ := List.append_of_mem he
  have others : ∀ q ∈ before ++ after, q.name ≠ e.name := by
    have distinct := h.distinct
    rw [List.map_append, List.map_cons, List.nodup_middle, List.nodup_cons,
      ← List.map_append] at distinct
    intro q hq hname
    exact distinct.1 (hname ▸ List.mem_map_of_mem hq)
  have hfilter : (before ++ e :: after).filter (·.name ≠ e.name) = before ++ after := by
    rw [List.filter_append, List.filter_cons_of_neg (by simp), ← List.filter_append,
      List.filter_eq_self.2]
    exact fun q hq => decide_eq_true (others q hq)
  rw [hfilter]
  exact .removed others

end Ledger

/-! ## Operations -/

open Ledger

namespace LedgerEngine

variable {σ : Type} {engine : Engine σ} {table : String} {E : LedgerEngine engine table}
  {n : Nat} {s : σ}

/-- The table holds just these entries, and there is room for `n` more. -/
def Keeps (E : LedgerEngine engine table) (es : List LedgerEntry) (n : Nat) (s : σ) : Prop :=
  ∃ rs, E.Holds (some rs) n s ∧ List.Forall₂ Row.Shows rs es ∧ Orderly es

theorem Keeps.mono {es : List LedgerEntry} {m : Nat} (h : E.Keeps es n s) (le : m ≤ n) :
    E.Keeps es m s := by
  obtain ⟨rs, held, shown, order⟩ := h
  exact ⟨rs, ⟨held.sound, held.rows, Nat.le_trans le held.room⟩, shown, order⟩

/-- The operation does to the entries what it does to a table of them. -/
def Refines (E : LedgerEngine engine table) (op : LedgerOperation) (es : List LedgerEntry) (n : Nat)
    (s : σ) : Prop :=
  ∃ es', Effect op es ((op.work table).hold engine.database s).result es' ∧
    E.Keeps es' n ((op.work table).hold engine.database s).state

theorem refines_of_admits {op : LedgerOperation} {es : List LedgerEntry}
    (h : ∀ xs r s', (op.work table).Admits xs r → engine.database.Answers s xs s' →
      ∃ es', Effect op es r es' ∧ E.Keeps es' n s') : E.Refines op es n s :=
  h _ _ _ (Work.hold_admits _ _ _) (Work.hold_answers _ _ _)

section

variable (valid : Sql.isQualifiedName table = true)

include valid

/-- The set-up makes the table unless it is there. -/
theorem ensured {rows : Option (List Row)} {xs : List Exchange} {r : Except MigrateError Answer}
    {s' : σ} (held : E.Holds rows n s) (whole : (LedgerOperation.ensure.work table).Admits xs r)
    (answers : engine.database.Answers s xs s') :
    r = .ok .done ∧ E.Holds (some (rows.getD [])) n s' := by
  obtain ⟨r, admits, rfl⟩ := Work.admits_bind_pure.1 whole
  cases setup_admits admits with
  | invalidName invalid =>
      rw [Sql.checkQualifiedName, if_pos valid] at invalid
      cases invalid
  | schemaRefused qualified =>
      obtain ⟨m, hm, _⟩ := reply_createSchema held
      rw [Database.answers_singleton, hm] at answers
      cases (Prod.mk.inj answers).1
  | unqualified unqualified =>
      obtain ⟨m, hm, held'⟩ := reply_setupScript held (E.unqualified unqualified held.sound)
      rw [Database.answers_singleton, hm] at answers
      obtain ⟨rfl, rfl⟩ := Prod.mk.inj answers
      exact ⟨rfl, held'⟩
  | qualified qualified =>
      obtain ⟨m, hm, held', ready⟩ := reply_createSchema held
      obtain ⟨m', hm', held''⟩ := reply_setupScript held' ready
      obtain ⟨m₁, hschema, hscript⟩ := Database.answers_cons.1 answers
      rw [hm] at hschema
      obtain ⟨_, rfl⟩ := Prod.mk.inj hschema
      rw [Database.answers_singleton, hm'] at hscript
      obtain ⟨rfl, rfl⟩ := Prod.mk.inj hscript
      exact ⟨rfl, held''⟩

variable {es : List LedgerEntry} (kept : E.Keeps es n s)

include kept

theorem ensure_refines : E.Refines .ensure es n s := by
  obtain ⟨rs, held, shown, order⟩ := kept
  refine refines_of_admits fun xs r s' admits answers => ?_
  obtain ⟨rfl, held'⟩ := ensured valid held admits answers
  exact ⟨es, .ensured, rs, held', shown, order⟩

theorem list_refines : E.Refines .list es n s := by
  obtain ⟨rs, held, shown, order⟩ := kept
  obtain ⟨m, hm, held'⟩ := reply_listQuery valid held (ascending_of_shows shown order)
  obtain ⟨records, hrecords, hentries⟩ := ofRows_of_shows shown order
  refine refines_of_admits fun xs r s' whole answers => ?_
  obtain ⟨r, admits, rfl⟩ := Work.admits_bind_pure.1 whole
  obtain ⟨reply, rfl, rfl⟩ := records_admits admits
  rw [Database.answers_singleton, hm] at answers
  obtain ⟨rfl, rfl⟩ := Prod.mk.inj answers
  have hresult : (recordsOf (.ok (rs.map Row.texts))).map
      (fun records => Answer.entries (records.map entryOf)) = .ok (.entries es) := by
    rw [recordsOf, hrecords, ← hentries]
    rfl
  rw [hresult]
  exact ⟨es, .listed, rs, held', shown, order⟩

omit valid in
theorem nextBatch_refines : E.Refines .nextBatch es n s := by
  obtain ⟨rs, held, shown, order⟩ := kept
  have small := small_lastBatch shown order
  obtain ⟨m, hm, held'⟩ := reply_nextBatchQuery held small
  refine refines_of_admits fun xs r s' whole answers => ?_
  obtain ⟨r, admits, rfl⟩ := Work.admits_bind_pure.1 whole
  obtain ⟨reply, rfl, rfl⟩ := nextBatch_admits admits
  rw [Database.answers_singleton, hm] at answers
  obtain ⟨rfl, rfl⟩ := Prod.mk.inj answers
  have hi : lastBatch rs + 1 ≤ Text.int64Max := Int.le_trans small.2 (by decide)
  have lo : Text.int64Min ≤ lastBatch rs + 1 := by
    have := (int64_of_small small).1
    omega
  rw [batchOf_toString lo hi, lastBatch_of_shows shown]
  exact ⟨es, .numbered, rs, held', shown, order⟩

theorem count_keeps (name : Name) :
    ∃ s', engine.database.reply (.queryCount (namedQuery table name)) s =
      (.ok (es.countP (·.name = name)), s') ∧ E.Keeps es n s' := by
  obtain ⟨rs, held, shown, order⟩ := kept
  have hcount := countP_of_shows shown name
  obtain ⟨s', h, held'⟩ :=
    reply_namedQuery valid held name (hcount ▸ countP_key_le_one order.distinct name)
  rw [hcount] at h
  exact ⟨s', h, rs, held', shown, order⟩

theorem delete_keeps (name : Name) :
    ∃ s', engine.database.reply (.execute (deleteStatement table name)) s =
      (.ok (es.countP (·.name = name)), s') ∧ E.Keeps (es.filter (·.name ≠ name)) n s' := by
  obtain ⟨rs, held, shown, order⟩ := kept
  obtain ⟨s', h, held'⟩ := reply_deleteStatement valid held name
  rw [countP_of_shows shown] at h
  exact ⟨s', h, _, held', filter_of_shows shown name, order.filter _⟩

theorem remove_refines (name : Name) : E.Refines (.remove name) es n s := by
  -- The deletion comes first; only its count tells whether there was an entry.
  obtain ⟨m, hm, kept'⟩ := delete_keeps valid kept name
  obtain ⟨_, _, _, order⟩ := kept
  refine refines_of_admits fun xs r s' whole answers => ?_
  obtain ⟨r, admits, rfl⟩ := Work.admits_bind_pure.1 whole
  rcases remove_admits admits with ⟨rfl, changed⟩ | ⟨e, rfl, unchanged⟩
  · cases changed with
    | removed found =>
        rw [Database.answers_singleton, hm] at answers
        obtain ⟨hcount, rfl⟩ := Prod.mk.inj answers
        rw [← Except.ok.inj hcount] at found
        obtain ⟨e, he, hname⟩ := List.countP_pos_iff.1 found
        exact ⟨_, order.removed ⟨e, he, of_decide_eq_true hname⟩, kept'⟩
  · cases unchanged with
    | deleteRefused e =>
        rw [Database.answers_singleton, hm] at answers
        cases (Prod.mk.inj answers).1
    | absent =>
        rw [Database.answers_singleton, hm] at answers
        obtain ⟨hcount, rfl⟩ := Prod.mk.inj answers
        have absent := countP_eq_zero_iff.1 (Except.ok.inj hcount)
        rw [List.filter_eq_self.2 fun e he => decide_eq_true (absent e he)] at kept'
        exact ⟨es, .absent absent, kept'⟩

end

/-- The insertion for a name that no entry has adds an entry. -/
theorem insert_keeps (valid : Sql.isQualifiedName table = true) {es : List LedgerEntry}
    {name : Name} {batch : Int} (small : Small batch) (kept : E.Keeps es (n + 1) s)
    (fresh : ∀ e ∈ es, e.name ≠ name) :
    ∃ affected id s', engine.database.reply (.execute (insertStatement table name batch)) s =
      (.ok affected, s') ∧ (∀ e ∈ es, e.id < id) ∧ E.Keeps (es ++ [⟨id, name, batch⟩]) n s' := by
  obtain ⟨rs, held, shown, order⟩ := kept
  have hfresh : ∀ r ∈ rs, r.name ≠ name.text := by
    have hzero := countP_eq_zero_iff.2 fresh
    rw [← countP_of_shows shown, List.countP_eq_zero] at hzero
    simpa using hzero
  obtain ⟨affected, id, time, s', h, above, range, moment, held'⟩ :=
    reply_insertStatement valid held small hfresh
  have habove : ∀ e ∈ es, e.id < id := by
    rw [← List.forall_mem_map (f := LedgerEntry.id) (P := (· < id)), ← map_id_of_shows shown]
    exact List.forall_mem_map.2 above
  refine ⟨affected, id, s', h, habove, _, held', ?_, order.append fresh habove range small⟩
  exact List.rel_append shown (.cons ⟨rfl, rfl, rfl, moment⟩ .nil)

theorem record_refines (valid : Sql.isQualifiedName table = true) {es : List LedgerEntry}
    {name : Name} {batch : Int} (small : Small batch) (kept : E.Keeps es (n + 1) s) :
    E.Refines (.record name batch) es n s := by
  obtain ⟨m, hm, kept'⟩ := count_keeps valid kept name
  refine refines_of_admits fun xs r s' whole answers => ?_
  obtain ⟨r, admits, rfl⟩ := Work.admits_bind_pure.1 whole
  rcases record_admits admits with ⟨rfl, changed⟩ | ⟨e, rfl, unchanged⟩
  · cases changed with
    | recorded _ k =>
        obtain ⟨m₁, hcount, hinsert⟩ := Database.answers_cons.1 answers
        rw [hm] at hcount
        obtain ⟨hzero, rfl⟩ := Prod.mk.inj hcount
        have fresh := countP_eq_zero_iff.1 (Except.ok.inj hzero)
        obtain ⟨affected, id, m', hm', above, kept''⟩ := insert_keeps valid small kept' fresh
        rw [Database.answers_singleton, hm'] at hinsert
        obtain ⟨_, rfl⟩ := Prod.mk.inj hinsert
        exact ⟨_, .recorded fresh above, kept''⟩
  · cases unchanged with
    | countRefused _ e =>
        rw [Database.answers_singleton, hm] at answers
        cases (Prod.mk.inj answers).1
    | present _ found =>
        rw [Database.answers_singleton, hm] at answers
        obtain ⟨hcount, rfl⟩ := Prod.mk.inj answers
        rw [← Except.ok.inj hcount] at found
        obtain ⟨e, he, hname⟩ := List.countP_pos_iff.1 found
        exact ⟨es, .duplicate ⟨e, he, of_decide_eq_true hname⟩, kept'.mono (Nat.le_succ n)⟩
    | insertRefused _ e =>
        -- An insertion that the count has left room for is never refused.
        obtain ⟨m₁, hcount, hinsert⟩ := Database.answers_cons.1 answers
        rw [hm] at hcount
        obtain ⟨hzero, rfl⟩ := Prod.mk.inj hcount
        have fresh := countP_eq_zero_iff.1 (Except.ok.inj hzero)
        obtain ⟨affected, id, m', hm', _⟩ := insert_keeps valid small kept' fresh
        rw [Database.answers_singleton, hm'] at hinsert
        cases (Prod.mk.inj hinsert).1

theorem operation_refines (valid : Sql.isQualifiedName table = true) {op : LedgerOperation}
    {es : List LedgerEntry} (small : op.IsSmall)
    (kept : E.Keeps es (n + if op.needsId then 1 else 0) s) : E.Refines op es n s := by
  cases op with
  | ensure => exact ensure_refines valid kept
  | list => exact list_refines valid kept
  | nextBatch => exact nextBatch_refines kept
  | record name batch => exact record_refines valid small kept
  | remove name => exact remove_refines valid kept name

theorem operations_refine (valid : Sql.isQualifiedName table = true) {ops : List LedgerOperation}
    {es : List LedgerEntry} (small : ∀ op ∈ ops, op.IsSmall)
    (kept : E.Keeps es (ops.countP (·.needsId)) s) :
    ∃ es', Effects ops es (LedgerOperation.runAll engine.database table ops s).1 es' ∧
      E.Keeps es' 0 (LedgerOperation.runAll engine.database table ops s).2 := by
  induction ops generalizing es s with
  | nil => exact ⟨es, .nil, kept⟩
  | cons op ops ih =>
      rw [List.countP_cons] at kept
      obtain ⟨es', effect, kept'⟩ :=
        operation_refines valid (small op List.mem_cons_self) kept
      obtain ⟨es'', effects, kept''⟩ :=
        ih (fun o ho => small o (List.mem_cons_of_mem op ho)) kept'
      exact ⟨es'', .cons effect effects, kept''⟩

/-- Over an engine that does with texts what they say, whatever is done with a ledger once it
is set up is answered as a table of entries answers it, for all names. The table begins with
the entries that the ledger has; it has none if its table is not there. -/
theorem operations_refine_entries (E : LedgerEngine engine table)
    (valid : Sql.isQualifiedName table = true) {rows : Option (List Row)} {es : List LedgerEntry}
    {ops : List LedgerOperation} (held : E.Holds rows (ops.countP (·.needsId)) s)
    (shown : List.Forall₂ Row.Shows (rows.getD []) es) (order : Orderly es)
    (small : ∀ op ∈ ops, op.IsSmall) :
    ∃ es', Effects (.ensure :: ops) es
        (LedgerOperation.runAll engine.database table (.ensure :: ops) s).1 es' ∧
      E.Keeps es' 0 (LedgerOperation.runAll engine.database table (.ensure :: ops) s).2 := by
  obtain ⟨hresult, held'⟩ :=
    ensured valid held (Work.hold_admits _ _ _) (Work.hold_answers _ _ _)
  obtain ⟨es', effects, kept⟩ := operations_refine valid small ⟨_, held', shown, order⟩
  refine ⟨es', .cons ?_ effects, kept⟩
  rw [hresult]
  exact .ensured

/-- A name with all that means something in a statement. -/
def awkward : Name := ⟨"'); DROP TABLE m; -- ''", by decide⟩

/-- What is done with the ledger of an empty store. -/
def dealings : List LedgerOperation :=
  [.record awkward 1, .record awkward 2, .nextBatch, .record ⟨"été", by decide⟩ (-7), .list,
    .remove awkward, .remove awkward, .ensure, .list]

theorem operations_refine_entries_of_empty_store :
    ∃ es', Effects (.ensure :: dealings) []
        (LedgerOperation.runAll Store.Connection.database "m" (.ensure :: dealings) {}).1 es' ∧
      (Store.Connection.ledgerEngine "m" (by decide)).Keeps es' 0
        (LedgerOperation.runAll Store.Connection.database "m" (.ensure :: dealings) {}).2 := by
  have sound : Store.Connection.Sound "m" {} := by
    constructor
    · intro rows h
      cases h
    · intro t h
      cases h
  have room : dealings.countP (·.needsId) ≤ Store.Connection.idsLeft 1 := by
    unfold Store.Connection.idsLeft
    decide
  exact operations_refine_entries (Store.Connection.ledgerEngine "m" (by decide)) (by decide)
    ⟨sound, rfl, room⟩ .nil ⟨.nil, .nil, by simp, by simp⟩ (by decide)

end LedgerEngine

end SchemaLedger
