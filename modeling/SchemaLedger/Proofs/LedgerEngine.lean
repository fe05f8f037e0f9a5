import SchemaLedger.Proofs.LedgerStore
import SchemaLedger.Proofs.StoreReadings

/-!
# Engines that keep a ledger

`LedgerEngine` says what an engine does with the texts that a ledger is kept with. It takes a
text for what it reads as, `Statement.ofText` and `Query.ofText`, where a literal ends at a
quote by itself and two quotes in a row are one. It compares names as they are, sorts rows by
their ids where it is told to, and gives a new row an id above all others. Numbers are of 32
bits, except for ids, of which there are finitely many: how many are left is the engine's
`room`.

That the texts read as what they are meant to be, for every name there is, is known from the
readings, so the replies of a database that is made of such an engine are known.
-/

namespace SchemaLedger

open Store (Statement Query)

namespace Ledger

/-- A number of 32 bits whose successor is one, too. -/
def Small (n : Int) : Prop := -2147483648 ≤ n ∧ n + 1 ≤ 2147483647

instance (n : Int) : Decidable (Small n) := inferInstanceAs (Decidable (_ ∧ _))

theorem int64_of_small {n : Int} (h : Small n) : Text.int64Min ≤ n ∧ n ≤ Text.int64Max := by
  have hmin : Text.int64Min ≤ -2147483648 := by decide
  have hmax : (2147483647 : Int) ≤ Text.int64Max := by decide
  obtain ⟨lo, hi⟩ := h
  exact ⟨by omega, by omega⟩

/-- The cells of a row. -/
def Row.cells (r : Row) : List Cell := [.integer r.id, .text r.name, .integer r.batch, .text r.time]

end Ledger

/-! ## Engines -/

open Ledger

/-- How the state of an engine is looked at: the rows of a table in the order in which they
were added, unless the table is not there; whether it is a state that it can be in, and has the
schema that the table needs; and how many more rows there are numbers for. -/
structure TableView (σ : Type) where
  rows : σ → Option (List Row)
  sound : σ → Prop
  ready : σ → Prop
  room : σ → Nat

/-- The table has these rows, and there is room for `n` more. -/
structure TableView.Holds {σ : Type} (v : TableView σ) (rows : Option (List Row)) (n : Nat)
    (s : σ) : Prop where
  sound : v.sound s
  rows : v.rows s = rows
  room : n ≤ v.room s

/-- An engine that does with the texts about a table what they say. -/
structure LedgerEngine {σ : Type} (engine : Engine σ) (table : String) extends TableView σ where
  unqualified {s : σ} : table.toList.contains '.' = false → sound s → ready s
  schemaMade {rs : Option (List Row)} {n : Nat} {s : σ} : toTableView.Holds rs n s →
    ∃ affected s', engine.execute (Engine.schemaStatement (Sql.splitQualified table).1) s =
      (.ok affected, s') ∧ toTableView.Holds rs n s' ∧ ready s'
  tableMade {rs : Option (List Row)} {n : Nat} {s : σ} : toTableView.Holds rs n s → ready s →
    ∃ s', engine.batch (setupScript table) s = (.ok (), s') ∧
      toTableView.Holds (some (rs.getD [])) n s'
  listed {sql : String} {rs : List Row} {n : Nat} {s : σ} : Query.ofText sql = .rows table →
    toTableView.Holds (some rs) n s →
    ∃ s', engine.query sql s = (.ok ((rs.mergeSort (·.id ≤ ·.id)).map Row.cells), s') ∧
      toTableView.Holds (some rs) n s'
  numbered {sql : String} {rs : List Row} {n : Nat} {s : σ} :
    Query.ofText sql = .nextBatch table → toTableView.Holds (some rs) n s →
    Small (lastBatch rs) →
    ∃ s', engine.query sql s = (.ok [[.integer (lastBatch rs + 1)]], s') ∧
      toTableView.Holds (some rs) n s'
  counted {sql name : String} {rs : List Row} {n : Nat} {s : σ} :
    Query.ofText sql = .named table name → toTableView.Holds (some rs) n s →
    ∃ s', engine.query sql s = (.ok [[.integer (rs.countP (·.name = name))]], s') ∧
      toTableView.Holds (some rs) n s'
  inserted {sql name : String} {batch : Int} {rs : List Row} {n : Nat} {s : σ} :
    Statement.ofText sql = .insert table name batch → Small batch →
    toTableView.Holds (some rs) (n + 1) s → (∀ r ∈ rs, r.name ≠ name) →
    ∃ affected id time s', engine.execute sql s = (.ok affected, s') ∧ (∀ r ∈ rs, r.id < id) ∧
      (Text.int64Min ≤ id ∧ id ≤ Text.int64Max) ∧ (∃ moment, Moment.ofText time = .ok moment) ∧
      toTableView.Holds (some (rs ++ [⟨id, name, batch, time⟩])) n s'
  deleted {sql name : String} {rs : List Row} {n : Nat} {s : σ} :
    Statement.ofText sql = .delete table name → toTableView.Holds (some rs) n s →
    ∃ s', engine.execute sql s = (.ok (rs.countP (·.name = name)), s') ∧
      toTableView.Holds (some (rs.filter (·.name ≠ name))) n s'

namespace LedgerEngine

variable {σ : Type} {engine : Engine σ} {table : String} {E : LedgerEngine engine table}
  {rs : List Row} {n : Nat} {s s' : σ}

/-! ## What the database answers -/

theorem reply_createSchema {rows : Option (List Row)} (held : E.Holds rows n s) :
    ∃ s', engine.database.reply (.createSchema (Sql.splitQualified table).1) s = (.ok (), s') ∧
      E.Holds rows n s' ∧ E.ready s' := by
  obtain ⟨affected, s', h, held'⟩ := E.schemaMade held
  refine ⟨s', ?_, held'⟩
  simp only [Engine.database, h]
  rfl

theorem reply_setupScript {rows : Option (List Row)} (held : E.Holds rows n s)
    (ready : E.ready s) :
    ∃ s', engine.database.reply (.executeBatch (setupScript table)) s = (.ok (), s') ∧
      E.Holds (some (rows.getD [])) n s' := by
  obtain ⟨s', h, held'⟩ := E.tableMade held ready
  refine ⟨s', ?_, held'⟩
  simp only [Engine.database, h]
  rfl

section

variable (valid : Sql.isQualifiedName table = true)

include valid

theorem reply_listQuery (held : E.Holds (some rs) n s) (ascending : rs.Pairwise (·.id < ·.id)) :
    ∃ s', engine.database.reply (.queryRows (listQuery table)) s =
      (.ok (rs.map Row.texts), s') ∧ E.Holds (some rs) n s' := by
  obtain ⟨s', h, held'⟩ := E.listed (Query.ofText_list valid) held
  refine ⟨s', ?_, held'⟩
  have sorted : rs.Pairwise fun a b => decide (a.id ≤ b.id) = true :=
    ascending.imp fun hab => decide_eq_true (Int.le_of_lt hab)
  rw [List.mergeSort_of_pairwise sorted] at h
  simp only [Engine.database, h]
  show (Except.ok ((rs.map Row.cells).map fun row => row.map Cell.toText), s') = _
  rw [List.map_map]
  rfl

omit valid in
theorem reply_nextBatchQuery (held : E.Holds (some rs) n s) (small : Small (lastBatch rs)) :
    ∃ s', engine.database.reply (.queryRows (nextBatchQuery table)) s =
      (.ok [[toString (lastBatch rs + 1)]], s') ∧ E.Holds (some rs) n s' := by
  obtain ⟨s', h, held'⟩ := E.numbered Query.ofText_nextBatch held small
  refine ⟨s', ?_, held'⟩
  simp only [Engine.database, h]
  rfl

theorem reply_namedQuery (held : E.Holds (some rs) n s) (name : Name)
    (atMostOne : rs.countP (·.name = name.text) ≤ 1) :
    ∃ s', engine.database.reply (.queryCount (namedQuery table name)) s =
      (.ok (rs.countP (·.name = name.text)), s') ∧ E.Holds (some rs) n s' := by
  obtain ⟨s', h, held'⟩ := E.counted (Query.ofText_named valid name) held
  refine ⟨s', ?_, held'⟩
  simp only [Engine.database, h]
  have hcount : Engine.countOf (rs.countP (·.name = name.text)) =
      rs.countP (·.name = name.text) := by
    unfold Engine.countOf
    omega
  show (Except.ok (Engine.countOf _), s') = _
  rw [hcount]

theorem reply_insertStatement (held : E.Holds (some rs) (n + 1) s) {name : Name} {batch : Int}
    (small : Small batch) (fresh : ∀ r ∈ rs, r.name ≠ name.text) :
    ∃ affected id time s', engine.database.reply (.execute (insertStatement table name batch)) s =
        (.ok affected, s') ∧ (∀ r ∈ rs, r.id < id) ∧
      (Text.int64Min ≤ id ∧ id ≤ Text.int64Max) ∧ (∃ moment, Moment.ofText time = .ok moment) ∧
      E.Holds (some (rs ++ [⟨id, name.text, batch, time⟩])) n s' := by
  have lo : Text.int64Min ≤ batch := Int.le_trans (by decide) small.1
  have hi : batch ≤ Text.int64Max := by
    have hmax : (2147483647 : Int) ≤ Text.int64Max := by decide
    have := small.2
    omega
  obtain ⟨affected, id, time, s', h, above, range, moment, held'⟩ :=
    E.inserted (Statement.ofText_insert valid name lo hi) small held fresh
  refine ⟨affected, id, time, s', ?_, above, range, moment, held'⟩
  simp only [Engine.database, h]
  rfl

theorem reply_deleteStatement (held : E.Holds (some rs) n s) (name : Name) :
    ∃ s', engine.database.reply (.execute (deleteStatement table name)) s =
        (.ok (rs.countP (·.name = name.text)), s') ∧
      E.Holds (some (rs.filter (·.name ≠ name.text))) n s' := by
  obtain ⟨s', h, held'⟩ := E.deleted (Statement.ofText_delete valid name) held
  refine ⟨s', ?_, held'⟩
  simp only [Engine.database, h]
  rfl

end

end LedgerEngine

end SchemaLedger
