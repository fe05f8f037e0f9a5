import Mathlib.Data.List.Forall2
import Mathlib.Data.List.Nodup
import SchemaLedger.Proofs.Decimal
import SchemaLedger.Proofs.RunTrace

/-!
# Databases that keep a ledger

What a migration does to a database is up to the database, so it has to be said what kind of
database that is. `LedgerStore` says it for one ledger table. The database has transactions,
and what it holds falls into the rows of the table and everything else. The statements and
queries about the table do to the rows what they say. Any call may be refused; within a
transaction a refusal leaves nothing that a rollback does not undo, and it does not matter
what the rollback itself is answered.

Nothing is said about the statements of migrations, which may be anything. That such a
statement is `Confined` means that it stays within its transaction and leaves the ledger
alone.

From this follows what a block does. One that is committed has an `Effect`, on the rows and
on everything else, and one that is abandoned has none.
-/

namespace SchemaLedger

/-! ## Lists in which no key is there twice -/

section

variable {α κ : Type} {key : α → κ} {l : List α} {a : α}

theorem nodup_map_concat (distinct : (l.map key).Nodup) (fresh : ∀ x ∈ l, key x ≠ key a) :
    ((l ++ [a]).map key).Nodup := by
  rw [List.map_append, List.nodup_append]
  refine ⟨distinct, List.nodup_singleton _, fun k hk m hm => ?_⟩
  obtain ⟨x, hx, rfl⟩ := List.mem_map.1 hk
  rw [List.mem_singleton.1 hm]
  exact fresh x hx

theorem nodup_map_filter (distinct : (l.map key).Nodup) (p : α → Bool) :
    ((l.filter p).map key).Nodup :=
  distinct.sublist (List.filter_sublist.map _)

theorem countP_key_le_one [DecidableEq κ] (distinct : (l.map key).Nodup) (k : κ) :
    l.countP (key · = k) ≤ 1 := by
  have hcount := List.nodup_iff_count_le_one.1 distinct k
  rw [List.count_eq_countP, List.countP_map] at hcount
  refine Nat.le_trans (Nat.le_of_eq (List.countP_congr fun x _ => ?_)) hcount
  simp

theorem pairwise_concat {r : α → α → Prop} (h : l.Pairwise r) (last : ∀ x ∈ l, r x a) :
    (l ++ [a]).Pairwise r := by
  refine List.pairwise_append.2 ⟨h, List.pairwise_singleton _ _, fun x hx y hy => ?_⟩
  rw [List.mem_singleton.1 hy]
  exact last x hx

end

/-! ## Rows of a ledger -/

namespace Ledger

/-- A row of a ledger, with its time in the form in which it is read. -/
structure Row where
  id : Int
  name : String
  batch : Int
  time : String
  deriving DecidableEq

/-- The texts that a row is read as. -/
def Row.texts (r : Row) : List String := [toString r.id, r.name, toString r.batch, r.time]

/-- The greatest batch of some rows, 0 if there are none. -/
def lastBatch (rows : List Row) : Int := (rows.map (·.batch)).max?.getD 0

/-- A record is what a row says, which has a batch of 64 bits. -/
structure Row.Reads (r : Row) (record : Record) : Prop where
  id : record.id = r.id
  name : record.name.text = r.name
  batch : record.batch = r.batch
  range : Text.int64Min ≤ r.batch ∧ r.batch ≤ Text.int64Max

/-- The change of the rows that goes with a change of the record of a name. A new record has
an id above all others. -/
inductive Updated (name : Name) : LedgerChange → List Row → List Row → Prop
  | recorded {rows : List Row} {id batch : Int} {time : String}
    (fresh : ∀ r ∈ rows, r.name ≠ name.text) (above : ∀ r ∈ rows, r.id < id) :
    Updated name (.record batch) rows (rows ++ [⟨id, name.text, batch, time⟩])
  | removed {rows : List Row} (found : ∃ r ∈ rows, r.name = name.text) :
    Updated name .remove rows (rows.filter (·.name ≠ name.text))

/-- The calls that are made within transactions, apart from the statements of migrations
and from rolling back. -/
inductive InBlock (table : String) : DatabaseCall → Prop
  | commit : InBlock table (.execute "COMMIT")
  | count (name : Name) : InBlock table (.queryCount (namedQuery table name))
  | insert (name : Name) {batch : Int} (lo : Text.int64Min ≤ batch) (hi : batch ≤ Text.int64Max) :
    InBlock table (.execute (insertStatement table name batch))
  | delete (name : Name) : InBlock table (.execute (deleteStatement table name))

theorem batch_le_lastBatch {rows : List Row} {r : Row} (h : r ∈ rows) :
    r.batch ≤ lastBatch rows := by
  have hmem : r.batch ∈ rows.map (·.batch) := List.mem_map_of_mem h
  cases hmax : (rows.map (·.batch)).max? with
  | none =>
      rw [List.max?_eq_none_iff] at hmax
      rw [hmax] at hmem
      cases hmem
  | some n =>
      rw [lastBatch, hmax]
      exact (List.max?_eq_some_iff.1 hmax).2 _ hmem

theorem number_toString {column : String} {n m : Int}
    (h : Record.number column (toString n) = .ok m) :
    m = n ∧ Text.int64Min ≤ m ∧ m ≤ Text.int64Max := by
  unfold Record.number at h
  split at h
  · next k hk =>
      cases h
      exact ⟨(Text.eq_of_int64?_toString hk).symm, Text.int64?_bounds hk⟩
  · cases h

theorem number_of_bounds {column : String} {n : Int} (lo : Text.int64Min ≤ n)
    (hi : n ≤ Text.int64Max) : Record.number column (toString n) = .ok n := by
  have hn : Text.int64? (toString n) = some n := by
    rw [Text.int64?_toString, Option.filter_eq_some_iff]
    simp [lo, hi]
  rw [Record.number, hn]

theorem batchOf_toString {n : Int} (lo : Text.int64Min ≤ n) (hi : n ≤ Text.int64Max) :
    batchOf (.ok [[toString n]]) = .ok n := by
  show (Record.number "batch" (toString n)).mapError MigrateError.ledger = _
  rw [number_of_bounds lo hi]
  rfl

theorem ofRow_texts {r : Row} {record : Record} (h : Record.ofRow r.texts = .ok record) :
    r.Reads record := by
  simp only [Record.ofRow, Row.texts, Record.ofValues] at h
  cases hn : Name.ofText? r.name with
  | none => rw [hn] at h; cases h
  | some name =>
      rw [hn] at h
      cases ht : Moment.ofText r.time with
      | error e => rw [ht] at h; cases h
      | ok time =>
          rw [ht] at h
          cases hi : Record.number "id" (toString r.id) with
          | error e => rw [hi] at h; cases h
          | ok id =>
              rw [hi] at h
              cases hb : Record.number "batch" (toString r.batch) with
              | error e => rw [hb] at h; cases h
              | ok batch =>
                  rw [hb] at h
                  cases h
                  obtain ⟨hbatch, range⟩ := number_toString hb
                  rw [hbatch] at range
                  refine ⟨(number_toString hi).1, ?_, hbatch, range⟩
                  unfold Name.ofText? at hn
                  split at hn <;> cases hn
                  rfl

/-- Rows are read one by one. -/
theorem ofRows_iff {rows : List Row} {records : List Record} :
    Record.ofRows (rows.map Row.texts) = .ok records ↔
      List.Forall₂ (fun r record => Record.ofRow r.texts = .ok record) rows records := by
  induction rows generalizing records with
  | nil =>
      rw [List.forall₂_nil_left_iff]
      exact ⟨fun h => (Except.ok.inj h).symm, fun h => congrArg Except.ok h.symm⟩
  | cons r rest ih =>
      rw [List.map_cons, Record.ofRows, List.forall₂_cons_left_iff]
      constructor
      · intro h
        cases hr : Record.ofRow r.texts with
        | error e => rw [hr] at h; cases h
        | ok record =>
            cases hs : Record.ofRows (rest.map Row.texts) with
            | error e => rw [hr, hs] at h; cases h
            | ok more =>
                rw [hr, hs] at h
                exact ⟨record, more, rfl, ih.1 hs, (Except.ok.inj h).symm⟩
      · rintro ⟨record, more, hr, hmore, rfl⟩
        rw [hr, ih.2 hmore]
        rfl

/-- Records that are read from rows are what the rows say, one by one. -/
theorem ofRows_texts {rows : List Row} {records : List Record}
    (h : Record.ofRows (rows.map Row.texts) = .ok records) :
    List.Forall₂ Row.Reads rows records :=
  (ofRows_iff.1 h).imp fun _ _ hr => ofRow_texts hr

/-- Rows can be read if each of them can. -/
theorem readable_iff {rows : List Row} :
    (∃ records, Record.ofRows (rows.map Row.texts) = .ok records) ↔
      ∀ r ∈ rows, ∃ record, Record.ofRow r.texts = .ok record := by
  induction rows with
  | nil => exact ⟨fun _ r hr => (by cases hr), fun _ => ⟨[], rfl⟩⟩
  | cons r rest ih =>
      rw [List.forall_mem_cons, ← ih, List.map_cons, Record.ofRows]
      cases hr : Record.ofRow r.texts with
      | error e => exact ⟨fun ⟨_, h⟩ => (by cases h), fun ⟨⟨_, h⟩, _⟩ => (by cases h)⟩
      | ok record =>
          cases hs : Record.ofRows (rest.map Row.texts) with
          | error e => exact ⟨fun ⟨_, h⟩ => (by cases h), fun ⟨_, _, h⟩ => (by cases h)⟩
          | ok more => exact ⟨fun _ => ⟨⟨record, rfl⟩, more, rfl⟩, fun _ => ⟨record :: more, rfl⟩⟩

theorem int64Min_le_lastBatch {rows : List Row} {records : List Record}
    (h : List.Forall₂ Row.Reads rows records) : Text.int64Min ≤ lastBatch rows := by
  cases h with
  | nil => decide
  | cons reads _ => exact Int.le_trans reads.range.1 (batch_le_lastBatch List.mem_cons_self)

end Ledger

/-! ## Databases -/

/-- What a database holds: the rows of a ledger in the order of their ids, unless the table
is not there, and everything else. -/
structure Content (ω : Type) where
  ledger : Option (List Ledger.Row)
  objects : ω

namespace Content

variable {ω : Type}

/-- The rows of the ledger. -/
def rows (c : Content ω) : List Ledger.Row := c.ledger.getD []

/-- The same rows and the same of everything else. The table may have been made. -/
structure Like (c c' : Content ω) : Prop where
  rows : c'.rows = c.rows
  objects : c'.objects = c.objects

theorem Like.refl (c : Content ω) : c.Like c := ⟨rfl, rfl⟩

theorem Like.trans {c₁ c₂ c₃ : Content ω} (h₁ : c₁.Like c₂) (h₂ : c₂.Like c₃) : c₁.Like c₃ :=
  ⟨h₂.rows.trans h₁.rows, h₂.objects.trans h₁.objects⟩

end Content

/-- How the state of a database is looked at: what it holds, what it goes back to if there
is a transaction that is rolled back, and whether it is a state that it can be in. -/
structure LedgerView (σ ω : Type) where
  content : σ → Content ω
  saved : σ → Option (Content ω)
  sound : σ → Prop

namespace LedgerView

variable {σ ω : Type} (v : LedgerView σ ω)

/-- The database holds `c`, and there is no transaction. -/
structure Idle (c : Content ω) (s : σ) : Prop where
  sound : v.sound s
  saved : v.saved s = none
  content : v.content s = c

/-- The database holds `c'` within a transaction that began with `c`. -/
structure Within (c c' : Content ω) (s : σ) : Prop where
  sound : v.sound s
  saved : v.saved s = some c
  content : v.content s = c'

/-- Rolling back leads to `c`, whatever it is answered. -/
def Undoes (db : Database σ) (c : Content ω) (s : σ) : Prop :=
  ∀ reply s', db.reply (.execute "ROLLBACK") s = (reply, s') → v.Idle c s'

end LedgerView

/-- A database that keeps the ledger of a table. -/
structure LedgerStore {σ : Type} (db : Database σ) (table : String) (ω : Type) extends
    LedgerView σ ω where
  ascending {s : σ} : sound s → (content s).rows.Pairwise (·.id < ·.id)
  begun {c : Content ω} {s s' : σ} {n : Nat} : toLedgerView.Idle c s →
    db.reply (.execute "BEGIN TRANSACTION") s = (.ok n, s') → toLedgerView.Within c c s'
  notBegun {c : Content ω} {s s' : σ} {e : DatabaseError} : toLedgerView.Idle c s →
    db.reply (.execute "BEGIN TRANSACTION") s = (.error e, s') → toLedgerView.Idle c s'
  committed {c c' : Content ω} {s s' : σ} {n : Nat} : toLedgerView.Within c c' s →
    db.reply (.execute "COMMIT") s = (.ok n, s') → toLedgerView.Idle c' s'
  rolledBack {c c' : Content ω} {s : σ} : toLedgerView.Within c c' s →
    toLedgerView.Undoes db c s
  refused {c c' : Content ω} {s s' : σ} {call : DatabaseCall} {reply : call.Reply} :
    toLedgerView.Within c c' s → Ledger.InBlock table call →
    db.reply call s = (reply, s') → ¬ call.accepts reply → toLedgerView.Undoes db c s'
  schemaMade {c : Content ω} {s s' : σ} {reply : Except DatabaseError Unit} :
    toLedgerView.Idle c s →
    db.reply (.createSchema (Sql.splitQualified table).1) s = (reply, s') →
    toLedgerView.Idle c s'
  tableMade {c : Content ω} {s s' : σ} : toLedgerView.Idle c s →
    db.reply (.executeBatch (Ledger.setupScript table)) s = (.ok (), s') →
    toLedgerView.Idle { c with ledger := some c.rows } s'
  tableRefused {c : Content ω} {s s' : σ} {e : DatabaseError} : toLedgerView.Idle c s →
    db.reply (.executeBatch (Ledger.setupScript table)) s = (.error e, s') →
    ∃ c', c.Like c' ∧ toLedgerView.Idle c' s'
  present {c : Content ω} {s s' : σ} {reply : Except DatabaseError Bool} :
    toLedgerView.Idle c s → db.reply (.relationExists table) s = (reply, s') →
    toLedgerView.Idle c s' ∧ ∀ b, reply = .ok b → b = c.ledger.isSome
  listed {c : Content ω} {s s' : σ} {reply : Except DatabaseError (List (List String))} :
    toLedgerView.Idle c s → db.reply (.queryRows (Ledger.listQuery table)) s = (reply, s') →
    toLedgerView.Idle c s' ∧ ∀ texts, reply = .ok texts → texts = c.rows.map Ledger.Row.texts
  numbered {c : Content ω} {s s' : σ} {reply : Except DatabaseError (List (List String))} :
    toLedgerView.Idle c s →
    db.reply (.queryRows (Ledger.nextBatchQuery table)) s = (reply, s') →
    toLedgerView.Idle c s' ∧
      ∀ texts, reply = .ok texts → texts = [[toString (Ledger.lastBatch c.rows + 1)]]
  counted {c c' : Content ω} {s s' : σ} {name : Name} {n : Nat} :
    toLedgerView.Within c c' s →
    db.reply (.queryCount (Ledger.namedQuery table name)) s = (.ok n, s') →
    toLedgerView.Within c c' s' ∧ n = c'.rows.countP (·.name = name.text)
  inserted {c c' : Content ω} {s s' : σ} {name : Name} {batch : Int} {n : Nat} :
    toLedgerView.Within c c' s → Text.int64Min ≤ batch → batch ≤ Text.int64Max →
    db.reply (.execute (Ledger.insertStatement table name batch)) s = (.ok n, s') →
    ∃ id time, (∀ r ∈ c'.rows, r.id < id) ∧ toLedgerView.Within c
      { c' with ledger := some (c'.rows ++ [⟨id, name.text, batch, time⟩]) } s'
  deleted {c c' : Content ω} {s s' : σ} {name : Name} {n : Nat} :
    toLedgerView.Within c c' s →
    db.reply (.execute (Ledger.deleteStatement table name)) s = (.ok n, s') →
    n = c'.rows.countP (·.name = name.text) ∧ toLedgerView.Within c
      { c' with ledger := some (c'.rows.filter (·.name ≠ name.text)) } s'

/-! ## Statements of migrations -/

namespace LedgerStore

variable {σ ω : Type} {db : Database σ} {table : String} (L : LedgerStore db table ω)

/-- A statement neither leaves its transaction nor touches the ledger. -/
structure Confined (sql : String) : Prop where
  accepted {c c' : Content ω} {s s' : σ} : L.Within c c' s →
    db.reply (.executeBatch sql) s = (.ok (), s') →
    ∃ objects, L.Within c { c' with objects } s'
  refused {c c' : Content ω} {s s' : σ} {e : DatabaseError} : L.Within c c' s →
    db.reply (.executeBatch sql) s = (.error e, s') → L.Undoes db c s'

/-- A statement that is accepted within a transaction can turn everything but the ledger
into something else. -/
def Executes (sql : String) (o o' : ω) : Prop :=
  ∃ c c' s s', L.Within c c' s ∧ c'.objects = o ∧
    db.reply (.executeBatch sql) s = (.ok (), s') ∧ (L.content s').objects = o'

/-- Statements one after the other can do so. -/
inductive Executed : List String → ω → ω → Prop
  | nil (o : ω) : Executed [] o o
  | cons {sql : String} {rest : List String} {o₁ o₂ o₃ : ω} (executes : L.Executes sql o₁ o₂)
    (executed : Executed rest o₂ o₃) : Executed (sql :: rest) o₁ o₃

/-- What a block does to what a database holds: all of its statements and the change of its
record. -/
structure Effect (b : Block) (c c' : Content ω) : Prop where
  rows : Ledger.Updated b.name b.change c.rows c'.rows
  objects : L.Executed b.statements c.objects c'.objects

/-- What blocks do one after the other. -/
inductive Effects : List Block → Content ω → Content ω → Prop
  | nil {c c' : Content ω} (like : c.Like c') : Effects [] c c'
  | cons {b : Block} {bs : List Block} {c₁ c₂ c₃ : Content ω} (effect : L.Effect b c₁ c₂)
    (effects : Effects bs c₂ c₃) : Effects (b :: bs) c₁ c₃

/-- All statements of a block are confined, and its batch is a number of 64 bits. -/
structure Admissible (b : Block) : Prop where
  confined : ∀ sql ∈ b.statements, L.Confined sql
  batch : ∀ n, b.change = .record n → Text.int64Min ≤ n ∧ n ≤ Text.int64Max

variable {L}

theorem Effect.like {b : Block} {c₁ c₂ c₃ : Content ω} (like : c₁.Like c₂)
    (h : L.Effect b c₂ c₃) : L.Effect b c₁ c₃ := by
  obtain ⟨rows, objects⟩ := h
  rw [like.rows] at rows
  rw [like.objects] at objects
  exact ⟨rows, objects⟩

theorem Effects.like {bs : List Block} {c₁ c₂ c₃ : Content ω} (like : c₁.Like c₂)
    (h : L.Effects bs c₂ c₃) : L.Effects bs c₁ c₃ := by
  cases h with
  | nil like' => exact .nil (like.trans like')
  | cons effect effects => exact .cons (effect.like like) effects

/-! ## What blocks do -/

theorem executed_within {sts : List String} {c c' : Content ω} {s s' : σ}
    (confined : ∀ sql ∈ sts, L.Confined sql) (within : L.Within c c' s)
    (answers : db.Answers s (Block.executed sts) s') :
    ∃ o, L.Within c { c' with objects := o } s' ∧ L.Executed sts c'.objects o := by
  induction sts generalizing s c' with
  | nil =>
      cases answers
      exact ⟨_, within, .nil _⟩
  | cons sql rest ih =>
      obtain ⟨m, hsql, hrest⟩ := Database.answers_cons.1 answers
      obtain ⟨o, within'⟩ := (confined sql List.mem_cons_self).accepted within hsql
      obtain ⟨o', within'', executed⟩ :=
        ih (fun t ht => confined t (List.mem_cons_of_mem sql ht)) within' hrest
      exact ⟨o', within'', .cons ⟨c, c', s, m, within, rfl, hsql, by rw [within'.content]⟩ executed⟩

theorem changed_within {name : Name} {change : LedgerChange} {es : List Exchange}
    {c c' : Content ω} {s s' : σ} (changed : Ledger.Changed table name change es)
    (batch : ∀ n, change = .record n → Text.int64Min ≤ n ∧ n ≤ Text.int64Max)
    (within : L.Within c c' s) (answers : db.Answers s es s') :
    ∃ rows, L.Within c { c' with ledger := some rows } s' ∧
      Ledger.Updated name change c'.rows rows := by
  cases changed with
  | recorded batch n =>
      obtain ⟨m, hcount, hinsert⟩ := Database.answers_cons.1 answers
      rw [Database.answers_singleton] at hinsert
      obtain ⟨within', hn⟩ := L.counted within hcount
      obtain ⟨lo, hi⟩ := batch _ rfl
      obtain ⟨id, time, above, within''⟩ := L.inserted within' lo hi hinsert
      refine ⟨_, within'', .recorded ?_ above⟩
      simpa using (List.countP_eq_zero.1 hn.symm)
  | @removed n found =>
      rw [Database.answers_singleton] at answers
      obtain ⟨hn, within'⟩ := L.deleted within answers
      refine ⟨_, within', .removed ?_⟩
      rw [hn] at found
      simpa using List.countP_pos_iff.1 found

theorem undoes_of_unchanged {name : Name} {change : LedgerChange} {es : List Exchange}
    {e : MigrateError} {c c' : Content ω} {s s' : σ}
    (unchanged : Ledger.Unchanged table name change es e)
    (batch : ∀ n, change = .record n → Text.int64Min ≤ n ∧ n ≤ Text.int64Max)
    (within : L.Within c c' s) (answers : db.Answers s es s') : L.Undoes db c s' := by
  cases unchanged with
  | countRefused batch e =>
      rw [Database.answers_singleton] at answers
      exact L.refused within (.count name) answers (by rintro ⟨n, hn⟩; cases hn)
  | present batch found =>
      rw [Database.answers_singleton] at answers
      exact L.rolledBack (L.counted within answers).1
  | insertRefused batch e =>
      obtain ⟨m, hcount, hinsert⟩ := Database.answers_cons.1 answers
      rw [Database.answers_singleton] at hinsert
      obtain ⟨lo, hi⟩ := batch _ rfl
      exact L.refused (L.counted within hcount).1 (.insert name lo hi) hinsert
        (by rintro ⟨n, hn⟩; cases hn)
  | deleteRefused e =>
      rw [Database.answers_singleton] at answers
      exact L.refused within (.delete name) answers (by rintro ⟨n, hn⟩; cases hn)
  | absent =>
      rw [Database.answers_singleton] at answers
      exact L.rolledBack (L.deleted within answers).2

theorem undoes_of_fails {b : Block} {es : List Exchange} {e : MigrateError}
    {c c' : Content ω} {s s' : σ} (admissible : L.Admissible b) (fails : b.Fails table es e)
    (within : L.Within c c' s) (answers : db.Answers s es s') : L.Undoes db c s' := by
  cases fails with
  | @statement before after sql e split =>
      obtain ⟨m, hbefore, hsql⟩ := Database.answers_append.1 answers
      rw [Database.answers_singleton] at hsql
      have confined : ∀ t ∈ before ++ sql :: after, L.Confined t := by
        rw [← split]
        exact admissible.confined
      obtain ⟨o, within', _⟩ := executed_within
        (fun t ht => confined t (List.mem_append_left _ ht)) within hbefore
      exact (confined sql (by simp)).refused within' hsql
  | change unchanged =>
      obtain ⟨m, hsts, hchange⟩ := Database.answers_append.1 answers
      obtain ⟨o, within', _⟩ := executed_within admissible.confined within hsts
      exact undoes_of_unchanged unchanged admissible.batch within' hchange

/-- The part of a block before it is committed. -/
theorem body_within {b : Block} {es : List Exchange} {c c' : Content ω} {s s' : σ}
    (admissible : L.Admissible b) (changed : Ledger.Changed table b.name b.change es)
    (within : L.Within c c' s)
    (answers : db.Answers s (Block.executed b.statements ++ es) s') :
    ∃ c'', L.Within c c'' s' ∧ L.Effect b c' c'' := by
  obtain ⟨m, hsts, hchange⟩ := Database.answers_append.1 answers
  obtain ⟨o, within', executed⟩ := executed_within admissible.confined within hsts
  obtain ⟨rows, within'', updated⟩ :=
    changed_within changed admissible.batch within' hchange
  exact ⟨_, within'', updated, executed⟩

theorem effect_of_committed {b : Block} {es : List Exchange} {c : Content ω} {s s' : σ}
    (admissible : L.Admissible b) (committed : b.Committed table es) (idle : L.Idle c s)
    (answers : db.Answers s es s') : ∃ c', L.Idle c' s' ∧ L.Effect b c c' := by
  obtain ⟨changed⟩ := committed
  obtain ⟨m₁, hbegin, hrest⟩ := Database.answers_cons.1 answers
  obtain ⟨m₂, hbody, hcommit⟩ := Database.answers_append.1 hrest
  rw [Database.answers_singleton] at hcommit
  obtain ⟨c', within, effect⟩ := body_within admissible changed (L.begun idle hbegin) hbody
  exact ⟨c', L.committed within hcommit, effect⟩

/-- A block that is abandoned leaves what the database holds as it was. -/
theorem idle_of_abandoned {b : Block} {es : List Exchange} {e : MigrateError}
    {c : Content ω} {s s' : σ} (admissible : L.Admissible b)
    (abandoned : b.Abandoned table es e) (idle : L.Idle c s) (answers : db.Answers s es s') :
    L.Idle c s' := by
  cases abandoned with
  | notBegun =>
      rw [Database.answers_singleton] at answers
      exact L.notBegun idle answers
  | failed fails =>
      obtain ⟨m₁, hbegin, hrest⟩ := Database.answers_cons.1 answers
      obtain ⟨m₂, hbody, hrollback⟩ := Database.answers_append.1 hrest
      rw [Database.answers_singleton] at hrollback
      exact undoes_of_fails admissible fails (L.begun idle hbegin) hbody _ _ hrollback
  | commitRefused changed =>
      obtain ⟨m₁, hbegin, hrest⟩ := Database.answers_cons.1 answers
      obtain ⟨m₂, hbody, hend⟩ := Database.answers_append.1 hrest
      obtain ⟨m₃, hcommit, hrollback⟩ := Database.answers_cons.1 hend
      rw [Database.answers_singleton] at hrollback
      obtain ⟨c', within, _⟩ := body_within admissible changed (L.begun idle hbegin) hbody
      exact L.refused within .commit hcommit (by rintro ⟨n, hn⟩; cases hn) _ _ hrollback

end LedgerStore

end SchemaLedger
