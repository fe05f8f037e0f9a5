import SchemaLedger.Proofs.LedgerEngine
import SchemaLedger.Proofs.StoreAccepts
import SchemaLedger.Proofs.WrittenMoment

/-!
# A store does with texts what they say

A connection to a store is an engine of the kind that `LedgerEngine` describes, for every table
whose name is valid.

The times of rows are read as moments whichever number a row has. Numbers of rows go on
without an end, but they are read as 64 bits: a connection has as much room as there are
numbers left of these.
-/

namespace SchemaLedger

/-! ## Times of rows -/

namespace Moment

theorem ofText_timeText (id : Nat) :
    ofText (Store.Connection.timeText id) = .ok ⟨2024, 1, 1, 0, id / 60 % 60, id % 60, 0⟩ := by
  have hchars : (Store.Connection.timeText id).toList = ['2', '0', '2', '4'] ++ '-' ::
      (['0', '1'] ++ '-' :: (['0', '1'] ++ ' ' :: (['0', '0'] ++ ':' ::
        ((Text.zeroPadded 2 (id / 60 % 60)).toList ++
          ':' :: ((Text.zeroPadded 2 (id % 60)).toList ++ []))))) := by
    unfold Store.Connection.timeText
    rw [String.toList_append, String.toList_append, String.toList_append, List.append_assoc,
      List.append_assoc, List.append_nil]
    generalize (Text.zeroPadded 2 (id / 60 % 60)).toList = minute
    generalize (Text.zeroPadded 2 (id % 60)).toList = second
    rfl
  have numeral {n : Nat} (h : n < 60) : Text.Numeral 2 n (Text.zeroPadded 2 n).toList :=
    Text.numeral_zeroPadded (by decide) (by omega)
  have year : Text.Numeral 4 2024 ['2', '0', '2', '4'] := by decide
  have one : Text.Numeral 2 1 ['0', '1'] := by decide
  have zero : Text.Numeral 2 0 ['0', '0'] := by decide
  have hminute : id / 60 % 60 < 60 := Nat.mod_lt _ (by decide)
  have hsecond : id % 60 < 60 := Nat.mod_lt _ (by decide)
  have written : Written ⟨2024, 1, 1, 0, id / 60 % 60, id % 60, 0⟩
      (Store.Connection.timeText id).toList := by
    rw [hchars]
    exact .text year rfl one one zero (numeral hminute) (numeral hsecond) .none
  rw [ofText_of_written written, if_pos ⟨rfl, Nat.zero_le _, Nat.le_of_lt_succ hminute,
    Nat.le_succ_of_le (Nat.le_of_lt_succ hsecond)⟩]

end Moment

/-! ## Connections -/

namespace Store

namespace Connection

/-- How many rows there are numbers for. This is not to be computed by counting down. -/
@[irreducible]
def idsLeft (next : Nat) : Nat := (Text.int64Max + 1 - next).toNat

/-- How a connection is looked at. -/
def tableView (table : String) : TableView Connection where
  rows c := (c.contents.current.rows? table).map (·.map Row.inLedger)
  sound := Connection.Sound table
  ready c := table.toList.contains '.' = true →
    (Sql.splitQualified table).1 ∈ c.contents.current.schemas
  room c := idsLeft (c.contents.nextId table)

variable {table : String} {c : Connection} {n : Nat}

theorem rows?_of_holds {rs : List Ledger.Row} (held : (tableView table).Holds (some rs) n c) :
    ∃ rows, c.contents.current.rows? table = some rows ∧ rs = rows.map Row.inLedger := by
  obtain ⟨rows, hrows, rfl⟩ := Option.map_eq_some_iff.1 held.rows
  exact ⟨rows, hrows, rfl⟩

theorem idsLeft_succ {next : Nat} (h : n + 1 ≤ idsLeft next) :
    (next : Int) ≤ Text.int64Max ∧ n ≤ idsLeft (next + 1) := by
  unfold idsLeft at h ⊢
  omega

theorem execute_of_ofText {sql : String} {st : Statement} (hst : Statement.ofText sql = st) :
    engine.execute sql c = c.perform st := by
  subst hst
  rfl

theorem batch_of_ofBatch {sql : String} {sts : List Statement}
    (hsts : Statement.ofBatch sql = sts) : engine.batch sql c = c.performAll sts := by
  subst hsts
  rfl

theorem query_of_rows? {sql : String} {q : Query} {rows : List Row} {cells : List (List Cell)}
    {f : List Row → List (List Cell)} (hrows : c.contents.current.rows? table = some rows)
    (hq : Query.ofText sql = q)
    (hanswer : answer c.contents.current q = fromRows c.contents.current table f)
    (hcells : f rows = cells) : engine.query sql c = (.ok cells, c) := by
  show (answer c.contents.current (.ofText sql), c) = _
  rw [hq, hanswer, fromRows, hrows, ← hcells]

/-- Where the schema is there, the script of the set-up puts the table there if it is not. -/
theorem batch_setupScript (valid : Sql.isQualifiedName table = true)
    (ready : (tableView table).ready c) :
    engine.batch (Ledger.setupScript table) c =
      (.ok (), c.withTables (if (c.contents.current.rows? table).isSome then c.contents.current
        else c.contents.current.put table [])) := by
  obtain ⟨sequence, own⟩ := missingSchema?_of_made valid ready
  have hsequence : c.perform (.createSequence (Ledger.sequenceName table)) = (.ok 0, c) := by
    show c.change (c.contents.current.withSchema _ _) = _
    rw [Tables.withSchema, sequence]
    rfl
  rw [batch_of_ofBatch (Statement.ofBatch_setupScript valid), performAll, hsequence]
  simp only [performAll, perform, Tables.withSchema, own, change]

end Connection

open Connection in
/-- A connection does with the texts about a table what they say, if the name is valid. -/
def Connection.ledgerEngine (table : String) (valid : Sql.isQualifiedName table = true) :
    LedgerEngine Connection.engine table where
  toTableView := tableView table
  unqualified := by
    intro c unqualified _ qualified
    rw [unqualified] at qualified
    cases qualified
  schemaMade := by
    intro rs n c held
    have hperform : engine.execute (Engine.schemaStatement (Sql.splitQualified table).1) c =
        (.ok 0, c.withTables (c.contents.current.addSchema (Sql.splitQualified table).1)) := by
      rw [execute_of_ofText (Statement.ofText_createSchema _)]
      rfl
    have hrows := c.contents.current.rows?_addSchema (Sql.splitQualified table).1 table
    refine ⟨_, _, hperform, ⟨⟨?_, held.sound.snapshot⟩, ?_, held.room⟩,
      fun _ => mem_addSchema _ _⟩
    · intro rows h
      exact held.sound.current rows (hrows.symm.trans h)
    · rw [← held.rows]
      exact congrArg (Option.map (·.map Row.inLedger)) hrows
  tableMade := by
    intro rs n c held ready
    refine ⟨_, batch_setupScript valid ready, ?_⟩
    cases hrows : c.contents.current.rows? table with
    | some rows =>
        have hrs : rs = some (rows.map Row.inLedger) := by
          rw [← held.rows]
          exact congrArg (Option.map (·.map Row.inLedger)) hrows
        rw [hrs] at held ⊢
        exact held
    | none =>
        have hrs : rs = none := by
          rw [← held.rows]
          exact congrArg (Option.map (·.map Row.inLedger)) hrows
        rw [hrs]
        refine ⟨sound_of_put held.sound _ rfl (Nat.le_refl _) ⟨.nil, by simp, by simp⟩, ?_,
          held.room⟩
        exact congrArg (Option.map (·.map Row.inLedger)) (Tables.rows?_put _ _ _)
  listed := by
    intro sql rs n c hsql held
    obtain ⟨rows, hrows, rfl⟩ := rows?_of_holds held
    refine ⟨c, query_of_rows? hrows hsql rfl ?_, held⟩
    have sorted : (rows.map Row.inLedger).Pairwise fun a b => decide (a.id ≤ b.id) = true := by
      refine List.pairwise_map.2 ((held.sound.current rows hrows).ascending.imp ?_)
      intro a b hab
      exact decide_eq_true (Int.ofNat_le.2 (Nat.le_of_lt hab))
    rw [List.mergeSort_of_pairwise sorted, List.map_map]
    rfl
  numbered := by
    intro sql rs n c hsql held _
    obtain ⟨rows, hrows, rfl⟩ := rows?_of_holds held
    refine ⟨c, query_of_rows? hrows hsql rfl ?_, held⟩
    rw [lastBatch_inLedger]
  counted := by
    intro sql name rs n c hsql held
    obtain ⟨rows, hrows, rfl⟩ := rows?_of_holds held
    refine ⟨c, query_of_rows? hrows hsql rfl ?_, held⟩
    rw [List.countP_map]
    rfl
  inserted := by
    intro sql name batch rs n c hsql _ held fresh
    obtain ⟨rows, hrows, rfl⟩ := rows?_of_holds held
    have numbered := held.sound.current rows hrows
    have hfresh : ∀ r ∈ rows, r.name ≠ name :=
      fun r hr => fresh r.inLedger (List.mem_map_of_mem hr)
    have hinsert : engine.execute sql c = (.ok 1, { c with
        contents := (c.contents.count table).withTables (c.contents.current.put table
          (rows ++ [⟨c.contents.nextId table, name, batch⟩])) }) := by
      rw [execute_of_ofText hsql]
      show c.keep (c.contents.insert table name batch) = _
      rw [Contents.insert, hrows]
      simp only [List.any_eq_true, decide_eq_true_eq]
      rw [if_neg (fun ⟨r, hr, h⟩ => hfresh r hr h)]
      rfl
    have hnext := nextId_count c.contents table
    obtain ⟨le, hroom⟩ := idsLeft_succ held.room
    have hmin : Text.int64Min ≤ 0 := by decide
    refine ⟨1, c.contents.nextId table, timeText (c.contents.nextId table), _, hinsert, ?_,
      ⟨by omega, le⟩, ⟨_, Moment.ofText_timeText _⟩, ?_, ?_, ?_⟩
    · intro r hr
      obtain ⟨q, hq, rfl⟩ := List.mem_map.1 hr
      exact Int.ofNat_lt.2 (numbered.below q hq)
    · refine sound_of_put held.sound _ rfl ?_ ?_
      · exact Nat.le_trans (Nat.le_succ _) (Nat.le_of_eq hnext.symm)
      · exact hnext ▸ numbered.append name batch hfresh
    · show Option.map _ ((c.contents.current.put table _).rows? table) = _
      rw [Tables.rows?_put, Option.map_some, List.map_append]
      rfl
    · rw [← hnext] at hroom
      exact hroom
  deleted := by
    intro sql name rs n c hsql held
    obtain ⟨rows, hrows, rfl⟩ := rows?_of_holds held
    have hdelete : engine.execute sql c = (.ok (rows.countP (·.name = name)), { c with
        contents := c.contents.withTables
          (c.contents.current.put table (rows.filter (·.name ≠ name))) }) := by
      rw [execute_of_ofText hsql]
      show c.keep (c.contents.delete table name) = _
      rw [Contents.delete, hrows]
      rfl
    have numbered := (held.sound.current rows hrows).filter (·.name ≠ name)
    refine ⟨_, ?_, sound_of_put held.sound (c.contents.withTables _) rfl (Nat.le_refl _) numbered,
      ?_, held.room⟩
    · rw [hdelete, List.countP_map]
      rfl
    · show Option.map _ ((c.contents.current.put table _).rows? table) = _
      rw [Tables.rows?_put, Option.map_some, List.filter_map]
      rfl

end Store

end SchemaLedger
