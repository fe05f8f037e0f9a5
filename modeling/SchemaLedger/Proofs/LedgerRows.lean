import SchemaLedger.Proofs.StatusAccount
import SchemaLedger.Proofs.WrittenMoment

/-!
# Rows of a ledger are read as they are

A record comes out of a store as a row of four texts, and the store may answer anything. A row
that is let through has the values of the record in it, `Record.Shown`, and there is no other
way for a record to come about; so there are as many records as rows, in the same order.
`Record.Told` and `Record.Spoilt` are about particular rows: the first ones have their values
written in full, and the second ones cannot be records.

One row that is none spoils the whole answer. Whoever reads the ledger then fails before doing
anything else, for reading comes first everywhere. Only `apply` calls something before, which is
the set-up.
-/

namespace SchemaLedger

/-! ## Rows -/

namespace Record

/-- The row has the values of the record: the numbers and the moment as texts that are read as
these, and the name as it is. -/
inductive Shown (r : Record) : List String → Prop
  | row {id batch time : String} (hid : Text.Int64 id r.id) (hbatch : Text.Int64 batch r.batch)
    (htime : Moment.ofText time = .ok r.appliedAt) : Shown r [id, r.name.text, batch, time]

/-- The row has the values of the record, with the moment written in full. -/
inductive Told (r : Record) : List String → Prop
  | row {id batch time : String} (hid : Text.Int64 id r.id) (hbatch : Text.Int64 batch r.batch)
    (htime : Moment.Written r.appliedAt time.toList) (possible : r.appliedAt.Possible) :
    Told r [id, r.name.text, batch, time]

/-- The row is no record: it has not four columns, or the name is empty, or a number is none,
or the time is one that the calendar or the clock does not have. -/
inductive Spoilt : List String → Prop
  | columns {row : List String} (h : row.length ≠ 4) : Spoilt row
  | name {id batch time : String} : Spoilt [id, "", batch, time]
  | id {id name batch time : String} (h : ∀ n, ¬ Text.Int64 id n) : Spoilt [id, name, batch, time]
  | batch {id name batch time : String} (h : ∀ n, ¬ Text.Int64 batch n) :
    Spoilt [id, name, batch, time]
  | time {id name batch time : String} {m : Moment} (written : Moment.Written m time.toList)
    (impossible : ¬ m.Possible) : Spoilt [id, name, batch, time]

theorem Told.shown {r : Record} {row : List String} (h : Told r row) : Shown r row := by
  obtain ⟨hid, hbatch, htime, possible⟩ := h
  exact .row hid hbatch (by rw [Moment.ofText_of_written htime, if_pos possible])

theorem number_eq_ok_iff {column text : String} {n : Int} :
    number column text = .ok n ↔ Text.Int64 text n := by
  rw [← Text.int64?_eq_some_iff, number]
  cases Text.int64? text <;> simp

/-- However the times of rows are written, none of them is one that there is not. -/
theorem possible_of_shown {rs : List Record} {rows : List (List String)}
    (h : List.Forall₂ Shown rs rows) : ∀ r ∈ rs, r.appliedAt.Possible := by
  induction h with
  | nil => exact nofun
  | cons hfirst _ ih =>
      obtain ⟨_, _, htime⟩ := hfirst
      exact List.forall_mem_cons.2 ⟨Moment.possible_of_ofText htime, ih⟩

/-- A row is let through as a record just if it has the values of it. -/
theorem ofRow_eq_ok_iff {row : List String} {r : Record} : ofRow row = .ok r ↔ Shown r row := by
  constructor
  · intro h
    unfold ofRow at h
    split at h
    · next id name batch time =>
        unfold ofValues at h
        split at h
        · cases h
        · next checked hname =>
            have htext : checked.text = name := by
              unfold Name.ofText? at hname
              split at hname <;> cases hname
              rfl
            cases htime : Moment.ofText time with
            | error fault =>
                rw [htime] at h
                cases h
            | ok appliedAt =>
                cases hid : number "id" id with
                | error fault =>
                    rw [htime, hid] at h
                    cases h
                | ok n =>
                    cases hbatch : number "batch" batch with
                    | error fault =>
                        rw [htime, hid, hbatch] at h
                        cases h
                    | ok k =>
                        rw [htime, hid, hbatch] at h
                        cases h
                        subst htext
                        exact .row (number_eq_ok_iff.1 hid) (number_eq_ok_iff.1 hbatch) htime
    · cases h
  · rintro ⟨hid, hbatch, htime⟩
    rw [ofRow, ofValues, Name.ofText?_text, htime, number_eq_ok_iff.2 hid,
      number_eq_ok_iff.2 hbatch]
    rfl

theorem Spoilt.not_shown {row : List String} (h : Spoilt row) (r : Record) : ¬ Shown r row := by
  intro shown
  cases h with
  | columns h =>
      cases shown
      exact h rfl
  | name =>
      generalize hrow : ([_, "", _, _] : List String) = row at shown
      cases shown
      exact r.name.nonempty (List.cons.inj (List.cons.inj hrow).2).1.symm
  | id h =>
      cases shown
      next hid _ _ => exact h _ hid
  | batch h =>
      cases shown
      next hbatch _ => exact h _ hbatch
  | time written impossible =>
      cases shown
      next htime =>
          rw [Moment.ofText_of_written written, if_neg impossible] at htime
          cases htime

/-- Rows are let through just if each of them is, and then there is one record for each. -/
theorem ofRows_eq_ok_iff {rows : List (List String)} {rs : List Record} :
    ofRows rows = .ok rs ↔ List.Forall₂ Shown rs rows := by
  induction rows generalizing rs with
  | nil =>
      rw [List.forall₂_nil_right_iff]
      exact ⟨fun h => (Except.ok.inj h).symm, fun h => congrArg Except.ok h.symm⟩
  | cons row rest ih =>
      rw [ofRows, List.forall₂_cons_right_iff]
      constructor
      · intro h
        cases hrow : ofRow row with
        | error fault =>
            rw [hrow] at h
            cases h
        | ok r =>
            cases hrest : ofRows rest with
            | error fault =>
                rw [hrow, hrest] at h
                cases h
            | ok more =>
                rw [hrow, hrest] at h
                cases h
                exact ⟨r, more, ofRow_eq_ok_iff.1 hrow, ih.1 hrest, rfl⟩
      · rintro ⟨r, more, shown, hmore, rfl⟩
        rw [ofRow_eq_ok_iff.2 shown, ih.2 hmore]
        rfl

theorem ofRows_of_spoilt {rows : List (List String)} {row : List String} (hrow : row ∈ rows)
    (spoilt : Spoilt row) : ∃ fault, ofRows rows = .error fault := by
  cases h : ofRows rows with
  | error fault => exact ⟨fault, rfl⟩
  | ok rs =>
      have shown := ofRows_eq_ok_iff.1 h
      exfalso
      clear h
      induction shown with
      | nil => cases hrow
      | cons hfirst _ ih =>
          rcases List.mem_cons.1 hrow with rfl | hrest
          · exact spoilt.not_shown _ hfirst
          · exact ih hrest

theorem exists_of_told {rows : List (List String)} (told : ∀ row ∈ rows, ∃ r, Told r row) :
    ∃ rs, List.Forall₂ Told rs rows := by
  induction rows with
  | nil => exact ⟨[], .nil⟩
  | cons row rest ih =>
      obtain ⟨⟨r, hr⟩, hrest⟩ := List.forall_mem_cons.1 told
      obtain ⟨rs, hrs⟩ := ih hrest
      exact ⟨r :: rs, .cons hr hrs⟩

end Record

/-! ## Work that fails at the ledger -/

namespace Work

variable {σ α β : Type} {db : Database σ} {s : σ} {w : Work α} {calls : List DatabaseCall}
  {fault : LedgerFault}

/-- The work fails with a fault of the ledger. It has made these calls then, and no others. -/
structure FailsAfter (db : Database σ) (s : σ) (w : Work α) (calls : List DatabaseCall)
    (fault : LedgerFault) : Prop where
  result : (w.hold db s).result = .error (.ledger fault)
  calls : (w.hold db s).calls = calls

/-- Nothing comes after a failure. -/
theorem FailsAfter.bind (h : FailsAfter db s w calls fault) (f : α → Work β) :
    FailsAfter db s (w >>= f) calls fault := by
  obtain ⟨hresult, -, hexchanges⟩ := hold_bind_of_error (f := f) h.result
  exact ⟨hresult, by rw [Outcome.calls, hexchanges]; exact h.calls⟩

theorem FailsAfter.bind_of_ok {f : α → Work β} {a : α} (ok : (w.hold db s).result = .ok a)
    (h : FailsAfter db (w.hold db s).state (f a) calls fault) :
    FailsAfter db s (w >>= f) ((w.hold db s).calls ++ calls) fault := by
  obtain ⟨hresult, -, hexchanges⟩ := hold_bind_of_ok (f := f) ok
  refine ⟨hresult.trans h.result, ?_⟩
  rw [Outcome.calls, hexchanges, List.map_append, ← h.calls]
  rfl

end Work

/-! ## Reading a ledger -/

namespace Ledger

open Work

variable {σ : Type} {db : Database σ} {s s' : σ} {table : String} {rows : List (List String)}
  {fault : LedgerFault}

theorem recordsOf_eq_ok_iff {reply : Except DatabaseError (List (List String))}
    {rs : List Record} :
    recordsOf reply = .ok rs ↔ ∃ rows, reply = .ok rows ∧ List.Forall₂ Record.Shown rs rows := by
  constructor
  · intro h
    obtain ⟨rows, hreply, hrows⟩ := recordsOf_ok h
    exact ⟨rows, hreply, Record.ofRows_eq_ok_iff.1 hrows⟩
  · rintro ⟨rows, rfl, shown⟩
    rw [recordsOf, Record.ofRows_eq_ok_iff.2 shown]
    rfl

theorem records_hold (table : String) (db : Database σ) (s : σ) :
    ((records table).hold db s).result =
        recordsOf (db.reply (.queryRows (listQuery table)) s).1 ∧
      ((records table).hold db s).calls = [.queryRows (listQuery table)] := by
  obtain ⟨reply, hes, hresult⟩ := records_admits ((records table).hold_admits db s)
  have answers := (records table).hold_answers db s
  rw [hes, Database.answers_singleton] at answers
  rw [Outcome.calls, hes, hresult, answers]
  exact ⟨rfl, rfl⟩

theorem records_failsAfter
    (answer : (db.reply (.queryRows (listQuery table)) s).1 = .ok rows)
    (spoilt : Record.ofRows rows = .error fault) :
    FailsAfter db s (records table) [.queryRows (listQuery table)] fault := by
  obtain ⟨hresult, hcalls⟩ := records_hold table db s
  refine ⟨?_, hcalls⟩
  rw [hresult, answer, recordsOf, spoilt]
  rfl

theorem recordsIfPresent_failsAfter
    (present : db.reply (.relationExists table) s = (.ok true, s'))
    (answer : (db.reply (.queryRows (listQuery table)) s').1 = .ok rows)
    (spoilt : Record.ofRows rows = .error fault) :
    FailsAfter db s (recordsIfPresent table)
      [.relationExists table, .queryRows (listQuery table)] fault := by
  have read := Migrate.recordsIfPresent_admits ((recordsIfPresent table).hold_admits db s)
  have answers := (recordsIfPresent table).hold_answers db s
  generalize hes : ((recordsIfPresent table).hold db s).exchanges = es at read answers
  generalize hr : ((recordsIfPresent table).hold db s).result = r at read
  cases read with
  | refused | absent =>
      rw [Database.answers_singleton, present] at answers
      cases answers
  | present =>
      obtain ⟨m, hpresent, hanswer⟩ := Database.answers_cons.1 answers
      rw [present] at hpresent
      cases hpresent
      rw [Database.answers_singleton] at hanswer
      rw [hanswer] at answer
      cases answer
      refine ⟨?_, by rw [Outcome.calls, hes]; rfl⟩
      rw [hr, recordsOf, spoilt]
      rfl

end Ledger

/-! ## Whoever reads a ledger -/

namespace Migrate

open Work Ledger

variable {σ : Type} {db : Database σ} {s s' : σ} {source : Source} {available : List Name}
  {table : String} {rows : List (List String)} {fault : LedgerFault} {calls : List DatabaseCall}

theorem status_failsAfter (listed : source.list = .ok available)
    (h : FailsAfter db s (recordsIfPresent table) calls fault) :
    FailsAfter db s (status source table) calls fault := by
  obtain ⟨hexchanges, -, hresult⟩ := status_hold listed table db s
  refine ⟨?_, by rw [Outcome.calls, hexchanges]; exact h.calls⟩
  rw [hresult, h.result]
  rfl

theorem revert_failsAfter (h : FailsAfter db s (lastBatch table) calls fault) :
    FailsAfter db s (revert source table) calls fault := by
  rw [revert_eq_bind]
  exact h.bind _

theorem apply_failsAfter (ready : ((setup table).hold db s).result = .ok ())
    (h : FailsAfter db ((setup table).hold db s).state (records table) calls fault) :
    FailsAfter db s (apply source table) (setupCalls table ++ calls) fault := by
  have setUp := setup_admits ((setup table).hold_admits db s)
  rw [ready] at setUp
  rw [← setUp.calls]
  exact FailsAfter.bind_of_ok ready (h.bind _)

/-- There is one record for each row that the store answers with, in the same order and with the
values of the row, or reading the ledger fails. It does not fail where all rows are told in full.
One spoilt row, wherever it is, makes everyone fail who reads a ledger that is there, after the
calls that it takes to read it, and for `apply` to set it up. -/
theorem rows_read_as_they_are (db : Database σ) (source : Source) (table : String) (s : σ) :
    (∀ rs, ((records table).hold db s).result = .ok rs ↔
      ∃ rows, (db.reply (.queryRows (listQuery table)) s).1 = .ok rows ∧
        List.Forall₂ Record.Shown rs rows) ∧
    (∀ rs, ((records table).hold db s).result = .ok rs → ∀ r ∈ rs, r.appliedAt.Possible) ∧
    (∀ e, ((records table).hold db s).result = .error e → ∃ fault, e = .ledger fault) ∧
    (∀ rows, (db.reply (.queryRows (listQuery table)) s).1 = .ok rows →
      (∀ row ∈ rows, ∃ r, Record.Told r row) →
      ∃ rs, ((records table).hold db s).result = .ok rs ∧ List.Forall₂ Record.Told rs rows) ∧
    ∀ rows row available, row ∈ rows → Record.Spoilt row → source.list = .ok available →
      ∃ fault,
        (∀ s', db.reply (.relationExists table) s = (.ok true, s') →
          (db.reply (.queryRows (listQuery table)) s').1 = .ok rows →
          let calls := [.relationExists table, .queryRows (listQuery table)]
          FailsAfter db s (pending source table) calls fault ∧
          FailsAfter db s (plan source table) calls fault ∧
          FailsAfter db s (status source table) calls fault ∧
          FailsAfter db s (lastBatch table) calls fault ∧
          FailsAfter db s (revert source table) calls fault) ∧
        (((setup table).hold db s).result = .ok () →
          (db.reply (.queryRows (listQuery table)) ((setup table).hold db s).state).1 = .ok rows →
          FailsAfter db s (apply source table)
            (setupCalls table ++ [.queryRows (listQuery table)]) fault) := by
  obtain ⟨hresult, -⟩ := records_hold table db s
  rw [hresult]
  refine ⟨fun rs => recordsOf_eq_ok_iff, fun rs h => ?_, fun e => recordsOf_error, ?_, ?_⟩
  · obtain ⟨rows, -, shown⟩ := recordsOf_eq_ok_iff.1 h
    exact Record.possible_of_shown shown
  · intro rows answer told
    obtain ⟨rs, hrs⟩ := Record.exists_of_told told
    exact ⟨rs, recordsOf_eq_ok_iff.2 ⟨rows, answer, hrs.imp fun _ _ h => h.shown⟩, hrs⟩
  · intro rows row available hrow spoilt listed
    obtain ⟨fault, hfault⟩ := Record.ofRows_of_spoilt hrow spoilt
    refine ⟨fault, fun s' present answer => ?_, fun ready answer =>
      apply_failsAfter ready (records_failsAfter answer hfault)⟩
    have reading := recordsIfPresent_failsAfter present answer hfault
    have asking : FailsAfter db s (pending source table) _ fault := reading.bind _
    have listing : FailsAfter db s (lastBatch table) _ fault := reading.bind _
    exact ⟨asking, asking.bind _, status_failsAfter listed reading, listing,
      revert_failsAfter listing⟩

/-- A database in which every query has these rows, and nothing is refused. -/
def answering (rows : List (List String)) : Database Unit where
  reply call _ := (match call with
    | .execute _ | .queryCount _ => .ok 1
    | .executeBatch _ | .createSchema _ => .ok ()
    | .relationExists _ => .ok true
    | .queryRows _ => .ok rows, ())

/-- The rows of two records, on a leap day and in the year 0. -/
def oldRows : List (List String) :=
  [["1", "1_pets", "1", "2024-02-29 23:59:59.000000001"],
    ["-9223372036854775808", "ü", "+07", "0000-12-31 00:00:00.5"]]

/-- A row that names the 29 February of a common year. -/
def leapRow : List String := ["3", "3_rows", "8", "2023-02-29 00:00:00"]

/-- The old rows are read as what they say. With the row behind them nothing is. -/
theorem rows_read_as_they_are_of_oldRows :
    ((records "m").hold (answering oldRows) ()).result =
      .ok [⟨1, ⟨"1_pets", by decide⟩, 1, ⟨2024, 2, 29, 23, 59, 59, 1⟩⟩,
        ⟨-9223372036854775808, ⟨"ü", by decide⟩, 7, ⟨0, 12, 31, 0, 0, 0, 500000000⟩⟩] ∧
    (∃ rs, ((records "m").hold (answering oldRows) ()).result = .ok rs ∧
      List.Forall₂ Record.Told rs oldRows) ∧
    ∃ fault,
      FailsAfter (answering (oldRows ++ [leapRow])) () (status (Registry.mk []).source "m")
        [.relationExists "m", .queryRows (listQuery "m")] fault ∧
      FailsAfter (answering (oldRows ++ [leapRow])) () (apply (Registry.mk []).source "m")
        [.executeBatch (setupScript "m"), .queryRows (listQuery "m")] fault := by
  have zero : Text.Numeral 2 0 ['0', '0'] := by decide
  have two : Text.Numeral 2 2 ['0', '2'] := by decide
  have twentyNine : Text.Numeral 2 29 ['2', '9'] := by decide
  have fiftyNine : Text.Numeral 2 59 ['5', '9'] := by decide
  have first : Record.Told ⟨1, ⟨"1_pets", by decide⟩, 1, ⟨2024, 2, 29, 23, 59, 59, 1⟩⟩
      ["1", "1_pets", "1", "2024-02-29 23:59:59.000000001"] := by
    have year : Text.Numeral 4 2024 ['2', '0', '2', '4'] := by decide
    have hour : Text.Numeral 2 23 ['2', '3'] := by decide
    have fraction : Moment.Fraction 1 ['.', '0', '0', '0', '0', '0', '0', '0', '0', '1'] :=
      .digits (by decide) (by decide) (List.all_eq_true.1 rfl) (by decide)
    have written := Moment.Written.text (m := ⟨2024, 2, 29, 23, 59, 59, 1⟩)
      year rfl two twentyNine hour fiftyNine fiftyNine fraction
    exact .row (Text.int64?_eq_some_iff.1 rfl) (Text.int64?_eq_some_iff.1 rfl) written (by decide)
  have second : Record.Told
      ⟨-9223372036854775808, ⟨"ü", by decide⟩, 7, ⟨0, 12, 31, 0, 0, 0, 500000000⟩⟩
      ["-9223372036854775808", "ü", "+07", "0000-12-31 00:00:00.5"] := by
    have year : Text.Numeral 4 0 ['0', '0', '0', '0'] := by decide
    have month : Text.Numeral 2 12 ['1', '2'] := by decide
    have day : Text.Numeral 2 31 ['3', '1'] := by decide
    have fraction : Moment.Fraction 500000000 ['.', '5'] :=
      .digits (by decide) (by decide) (List.all_eq_true.1 rfl) (by decide)
    have written := Moment.Written.text (m := ⟨0, 12, 31, 0, 0, 0, 500000000⟩)
      year rfl month day zero zero zero fraction
    exact .row (Text.int64?_eq_some_iff.1 rfl) (Text.int64?_eq_some_iff.1 rfl) written (by decide)
  have spoilt : Record.Spoilt leapRow := by
    have year : Text.Numeral 4 2023 ['2', '0', '2', '3'] := by decide
    have written := Moment.Written.text (m := ⟨2023, 2, 29, 0, 0, 0, 0⟩)
      year rfl two twentyNine zero zero zero .none
    exact .time written (by decide)
  obtain ⟨hread, -, -, htold, -⟩ :=
    rows_read_as_they_are (answering oldRows) (Registry.mk []).source "m" ()
  obtain ⟨-, -, -, -, hspoilt⟩ :=
    rows_read_as_they_are (answering (oldRows ++ [leapRow])) (Registry.mk []).source "m" ()
  obtain ⟨fault, present, set⟩ :=
    hspoilt (oldRows ++ [leapRow]) leapRow _ (by simp) spoilt rfl
  refine ⟨(hread _).2 ⟨oldRows, rfl, .cons first.shown (.cons second.shown .nil)⟩,
    htold oldRows rfl ?_, fault, (present () rfl rfl).2.2.1, set rfl rfl⟩
  intro row hrow
  rcases List.mem_cons.1 hrow with rfl | hrow
  · exact ⟨_, first⟩
  · rw [List.mem_singleton.1 hrow]
    exact ⟨_, second⟩

end Migrate

end SchemaLedger
