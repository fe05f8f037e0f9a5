import SchemaLedger.Proofs.Resume
import SchemaLedger.Proofs.Reversal

/-!
# Reverting undoes applying, last in, first out

A call of `apply` that succeeds puts rows at the end of a ledger, all of one batch, and the
batch is the greatest there is from then on. So the rows of the greatest batch are just these
rows, whatever is in front of them, and a call of `revert` for which nothing is refused takes
them away, the newest first. What is left are the rows from before.

Calls of `apply` that follow each other make a stack of such batches on top of the rows there
were, and calls of `revert` take the stack down. The two sides find a batch in ways of their
own, the number behind the greatest one in the rows and the greatest one in the records that
are read; `newest_append` is where they meet.
-/

namespace SchemaLedger

/-! ## Rows on top of others -/

namespace Ledger

theorem lastBatch_of_greatest {rows : List Row} {n : Int} (le : ∀ r ∈ rows, r.batch ≤ n)
    {r : Row} (hr : r ∈ rows) (hn : r.batch = n) : lastBatch rows = n := by
  have hmax : (rows.map (·.batch)).max? = some n := by
    rw [List.max?_eq_some_iff]
    refine ⟨hn ▸ List.mem_map_of_mem hr, fun m hm => ?_⟩
    obtain ⟨q, hq, rfl⟩ := List.mem_map.1 hm
    exact le q hq
  rw [lastBatch, hmax, Option.getD_some]

section

variable {rows new : List Row} {names : List Name}
  (added : NewRows (lastBatch rows + 1) names rows new) (nonempty : new ≠ [])

include added nonempty

theorem lastBatch_append : lastBatch (rows ++ new) = lastBatch rows + 1 := by
  obtain ⟨r, hr⟩ := List.exists_mem_of_ne_nil new nonempty
  refine lastBatch_of_greatest ?_ (List.mem_append_right rows hr) (added.batch r hr)
  intro q hq
  rcases List.mem_append.1 hq with hq | hq
  · have hle := batch_le_lastBatch hq
    omega
  · exact Int.le_of_eq (added.batch q hq)

/-- The rows of the greatest batch are those that were added last. -/
theorem newest_append : newest (rows ++ new) = new.reverse := by
  rw [newest, lastBatch_append added nonempty, List.reverse_append, List.filter_append,
    List.filter_eq_self.2, List.filter_eq_nil_iff.2, List.append_nil]
  · intro q hq
    have hle := batch_le_lastBatch (List.mem_reverse.1 hq)
    rw [decide_eq_true_eq]
    omega
  · intro q hq
    rw [decide_eq_true_eq, added.batch q (List.mem_reverse.1 hq)]

end

end Ledger

namespace Migrate

/-- The source has a migration, and what takes it back compiles. -/
def Revertible (source : Source) (name : Name) : Prop :=
  ∃ definition statements, source.load name = .ok definition ∧
    definition.down.compile = .ok statements

theorem Revertible.block {source : Source} {name : Name} (h : Revertible source name) :
    ∃ b, downBlock source name = .ok b := by
  obtain ⟨definition, statements, hload, hcompile⟩ := h
  refine ⟨⟨name, statements, .remove⟩, ?_⟩
  rw [downBlock, hload]
  simp only [hcompile]

theorem downBlocks_of_revertible {source : Source} {records : List Record}
    (h : ∀ r ∈ records, Revertible source r.name) : ∃ bs, downBlocks source records = .ok bs := by
  induction records with
  | nil => exact ⟨[], rfl⟩
  | cons r rest ih =>
      obtain ⟨b, hb⟩ := (h r List.mem_cons_self).block
      obtain ⟨bs, hbs⟩ := ih fun q hq => h q (List.mem_cons_of_mem r hq)
      refine ⟨b :: bs, ?_⟩
      rw [downBlocks_cons, hb, hbs]
      rfl

end Migrate

namespace LedgerStore

open Migrate

variable {σ ω : Type} {db : Database σ} {table : String} {L : LedgerStore db table ω}

/-! ## One call of `apply` -/

/-- A call of `apply` that succeeds and applies something adds rows of the batch that it
reports, for the migrations that it reports. -/
theorem added_of_ok {source : Source} {c : Content ω} {s : σ} {report : ApplyReport}
    (idle : L.Idle c s) (confines : L.Confines source)
    (ok : ((apply source table).hold db s).result = .ok report) (applied : report.applied ≠ []) :
    ∃ c' new, L.Idle c' ((apply source table).hold db s).state ∧ c'.rows = c.rows ++ new ∧
      Ledger.NewRows (Ledger.lastBatch c.rows + 1) report.applied c.rows new ∧
      report.batch = some (Ledger.lastBatch c.rows + 1) := by
  obtain ⟨c', done, idle', progress⟩ := apply_progress idle confines
  rw [ok] at progress
  obtain ⟨hlength, happlied, hbatch⟩ := progress.succeeded rfl
  obtain ⟨new, hrows, added⟩ := progress.newRows
  rw [hlength, List.take_length, ← happlied] at added
  rw [← happlied, if_neg applied] at hbatch
  exact ⟨c', new, idle', hrows, added, hbatch⟩

theorem ne_nil_of_added {batch : Int} {names : List Name} {rows new : List Ledger.Row}
    (added : Ledger.NewRows batch names rows new) (applied : names ≠ []) : new ≠ [] := by
  rintro rfl
  exact applied (List.map_eq_nil_iff.1 added.names.symm)

/-! ## One call of `revert` -/

theorem read_of_accepted {c : Content ω} {s s' : σ} {es : List Exchange} {records : List Record}
    {r : Except MigrateError (List Record)} (idle : L.Idle c s) (read : Read table es r)
    (answers : db.Answers s es s') (accepted : ∀ x ∈ es, x.accepted)
    (readable : Record.ofRows (c.rows.map Ledger.Row.texts) = .ok records) :
    r = .ok records := by
  have rows := (rows_of_read read idle answers).2
  cases read with
  | @refused e =>
      obtain ⟨b, hb⟩ := accepted ⟨.relationExists table, .error e⟩ List.mem_cons_self
      cases hb
  | absent =>
      cases (rows [] rfl).symm.trans readable
      rfl
  | @present reply =>
      obtain ⟨texts, rfl⟩ : ∃ texts, reply = .ok texts :=
        accepted ⟨.queryRows (Ledger.listQuery table), reply⟩ (by simp)
      obtain ⟨m, hexists, hlist⟩ := Database.answers_cons.1 answers
      rw [Database.answers_singleton] at hlist
      rw [(L.listed (L.present idle hexists).1 hlist).2 texts rfl, Ledger.recordsOf, readable]
      rfl

/-- If nothing is refused, blocks that take away the records of the last rows, the newest
first, are all committed. -/
theorem removed_of_accepted {bs : List Block} {kept gone : List Ledger.Row} {es : List Exchange}
    {r : Except MigrateError Unit} {c : Content ω} {s s' : σ}
    (admissible : ∀ b ∈ bs, L.Admissible b) (removes : ∀ b ∈ bs, b.change = .remove)
    (names : bs.map (·.name.text) = gone.reverse.map (·.name)) (rows : c.rows = kept ++ gone)
    (distinct : (gone.map (·.name)).Nodup) (fresh : ∀ q ∈ gone, ∀ p ∈ kept, p.name ≠ q.name)
    (idle : L.Idle c s) (carried : Carried table (bs.map .ok) es r) (answers : db.Answers s es s')
    (accepted : ∀ x ∈ es, x.accepted) :
    r = .ok () ∧ ∃ c', L.Idle c' s' ∧ c'.rows = kept := by
  induction bs generalizing gone c s es with
  | nil =>
      have hgone : gone = [] := by simpa using names.symm
      cases carried with
      | done =>
          cases answers
          exact ⟨rfl, c, idle, by rw [rows, hgone, List.append_nil]⟩
  | cons b rest ih =>
      obtain rfl | ⟨more, last, rfl⟩ := List.eq_nil_or_concat gone
      · cases names
      rw [List.concat_eq_append] at names rows distinct fresh
      rw [List.reverse_append, List.reverse_singleton, List.singleton_append, List.map_cons,
        List.map_cons, List.cons.injEq] at names
      obtain ⟨hlast, hmore⟩ := names
      have hremove := removes b List.mem_cons_self
      have admissible' := admissible b List.mem_cons_self
      rw [← List.append_assoc] at rows
      -- no row below the last one has its name, neither below the batch nor in it
      have below : ∀ q ∈ kept ++ more, q.name ≠ last.name := by
        intro q hq
        rcases List.mem_append.1 hq with hq | hq
        · exact fresh last (by simp) q hq
        · rw [List.map_append, List.nodup_append] at distinct
          exact distinct.2.2 q.name (List.mem_map_of_mem hq) last.name (by simp)
      cases carried with
      | abandoned abandoned =>
          refine (not_abandoned_of_accepted admissible' ?_ idle abandoned answers accepted).elim
          rw [hremove, rows]
          exact ⟨last, by simp, hlast.symm⟩
      | next committed carried =>
          obtain ⟨m, hfirst, hrest⟩ := Database.answers_append.1 answers
          obtain ⟨c', idle', effect⟩ := effect_of_committed admissible' committed idle hfirst
          have updated := effect.rows
          rw [hremove, rows] at updated
          refine ih (fun d hd => admissible d (List.mem_cons_of_mem b hd))
            (fun d hd => removes d (List.mem_cons_of_mem b hd)) hmore
            (updated.rows_of_last hlast below) ?_ ?_ idle' carried hrest
            fun x hx => accepted x (List.mem_append_right _ hx)
          · exact distinct.sublist ((List.sublist_append_left more [last]).map _)
          · exact fun q hq => fresh q (List.mem_append_left _ hq)

/-- If nothing is refused and the migrations of the last batch can be reverted, `revert` takes
the rows of this batch away and leaves those from before. -/
theorem reverted_of_accepted {source : Source} {c : Content ω} {s : σ}
    {rows new : List Ledger.Row} {names : List Name} {records : List Record} (idle : L.Idle c s)
    (confines : L.Confines source) (hrows : c.rows = rows ++ new)
    (added : Ledger.NewRows (Ledger.lastBatch rows + 1) names rows new) (nonempty : new ≠ [])
    (readable : Record.ofRows (c.rows.map Ledger.Row.texts) = .ok records)
    (revertible : ∀ name ∈ names, Revertible source name)
    (accepted : ∀ x ∈ ((revert source table).hold db s).exchanges, x.accepted) :
    ((revert source table).hold db s).result =
        .ok ⟨some (Ledger.lastBatch rows + 1), names.reverse⟩ ∧
      ∃ c', L.Idle c' ((revert source table).hold db s).state ∧ c'.rows = rows := by
  have reads := Ledger.reads_newest (Ledger.ofRows_texts readable)
  rw [hrows, Ledger.newest_append added nonempty] at reads
  have htexts : (newestBatch records).map (·.name.text) = names.reverse.map (·.text) := by
    rw [Ledger.names_of_reads reads, List.map_reverse, added.names, List.map_reverse]
  have hnames : (newestBatch records).map (·.name) = names.reverse := by
    refine (List.map_inj_right (f := Name.text) fun _ _ => Name.eq_of_text).1 ?_
    rwa [List.map_map]
  have compiles : ∃ bs, downBlocks source (newestBatch records) = .ok bs := by
    refine downBlocks_of_revertible fun r hr => revertible r.name ?_
    rw [← List.mem_reverse, ← hnames]
    exact List.mem_map_of_mem hr
  have run := revert_admits ((revert source table).hold_admits db s)
  have answers := (revert source table).hold_answers db s
  generalize ((revert source table).hold db s).exchanges = es at run answers accepted
  generalize ((revert source table).hold db s).result = r at run ⊢
  generalize ((revert source table).hold db s).state = s' at answers ⊢
  cases run with
  | notRead read => cases read_of_accepted idle read answers accepted readable
  | nothingApplied read newest =>
      cases read_of_accepted idle read answers accepted readable
      rw [newest, List.forall₂_nil_right_iff, List.reverse_eq_nil_iff] at reads
      exact absurd reads nonempty
  | notCompiled read newest compiled =>
      cases read_of_accepted idle read answers accepted readable
      obtain ⟨bs, hbs⟩ := compiles
      rw [hbs] at compiled
      cases compiled
  | @carried es es' records' bs first r read newest compiled carried =>
      obtain ⟨m, hread, hblocks⟩ := Database.answers_append.1 answers
      cases read_of_accepted idle read hread
        (fun x hx => accepted x (List.mem_append_left _ hx)) readable
      have idle' := (rows_of_read read idle hread).1
      have blocks : ((newestBatch records).map (·.name)).map (downBlock source) = bs.map .ok := by
        rw [List.map_map]
        exact downBlocks_ok compiled
      obtain ⟨hbs, removes⟩ := names_of_blocks downBlock_ok blocks
      rw [hnames] at hbs
      have htaken : bs.map (·.name.text) = new.reverse.map (·.name) := by
        rw [List.map_reverse, added.names, ← List.map_reverse, ← hbs, List.map_map]
        rfl
      obtain ⟨rfl, c', idle'', rows'⟩ := removed_of_accepted
        (admissible_of_downBlocks confines compiled) removes htaken hrows added.distinct
        added.fresh idle' carried hblocks fun x hx => accepted x (List.mem_append_right _ hx)
      refine ⟨?_, c', idle'', rows'⟩
      have hbatch : first.batch = Ledger.lastBatch rows + 1 := by
        have hmem := List.mem_map_of_mem (f := Record.batch) (List.mem_of_head? newest)
        rw [Ledger.batches_of_reads reads] at hmem
        obtain ⟨q, hq, hb⟩ := List.mem_map.1 hmem
        rw [← hb, added.batch q (List.mem_reverse.1 hq)]
      rw [Except.map, hbatch, hbs]

/-! ## Calls one after the other -/

/-- Calls of `apply` that succeed, one after the other, lead from one state to another one.
Each applies something. -/
inductive Runs (L : LedgerStore db table ω) (s : σ) : List (Source × ApplyReport) → σ → Prop
  | none : Runs L s [] s
  | more {m : σ} {runs : List (Source × ApplyReport)} {source : Source} {report : ApplyReport}
    (before : Runs L s runs m) (confines : L.Confines source)
    (ok : ((apply source table).hold db m).result = .ok report) (applied : report.applied ≠ []) :
    Runs L s (runs ++ [(source, report)]) ((apply source table).hold db m).state

/-- Calls of `revert` for which nothing is refused, one after the other, lead from one state
to another one, with some results. Each is over a source in which the migrations of a report
can be reverted. -/
inductive Rollbacks (L : LedgerStore db table ω) :
    σ → List ApplyReport → List (Except MigrateError RevertReport) → σ → Prop
  | none {s : σ} : Rollbacks L s [] [] s
  | more {s s' : σ} {source : Source} {report : ApplyReport} {reports : List ApplyReport}
    {results : List (Except MigrateError RevertReport)} (confines : L.Confines source)
    (revertible : ∀ name ∈ report.applied, Revertible source name)
    (accepted : ∀ x ∈ ((revert source table).hold db s).exchanges, x.accepted)
    (behind : Rollbacks L ((revert source table).hold db s).state reports results s') :
    Rollbacks L s (report :: reports) (((revert source table).hold db s).result :: results) s'

theorem Runs.first {s m : σ} {runs : List (Source × ApplyReport)} {source : Source}
    {report : ApplyReport} (h : L.Runs s runs m) (first : runs.head? = some (source, report)) :
    L.Confines source ∧ ((apply source table).hold db s).result = .ok report ∧
      report.applied ≠ [] := by
  induction h with
  | none => cases first
  | @more m runs source' report' before confines ok applied ih =>
      cases runs with
      | nil =>
          cases first
          generalize hnil : ([] : List (Source × ApplyReport)) = runs at before
          cases before with
          | none => exact ⟨confines, ok, applied⟩
          | more => simp at hnil
      | cons run rest => exact ih first

/-- From any state with the rows that calls of `apply` led to, calls of `revert` lead back to
the rows from before. -/
theorem Runs.undone {c : Content ω} {s m : σ} {runs : List (Source × ApplyReport)}
    (idle : L.Idle c s) (h : L.Runs s runs m) :
    ∃ d, L.Idle d m ∧ ∀ {d' : Content ω} {m' s' : σ} {records : List Record}
      {results : List (Except MigrateError RevertReport)}, L.Idle d' m' → d'.rows = d.rows →
      Record.ofRows (d.rows.map Ledger.Row.texts) = .ok records →
      L.Rollbacks m' (runs.map (·.2)).reverse results s' →
      results = ((runs.map (·.2)).reverse.map fun report =>
          .ok ⟨report.batch, report.applied.reverse⟩) ∧
        ∃ c', L.Idle c' s' ∧ c'.rows = c.rows := by
  induction h with
  | none =>
      refine ⟨c, idle, fun idle' rows _ rollbacks => ?_⟩
      cases rollbacks with
      | none => exact ⟨rfl, _, idle', rows⟩
  | @more m runs source report before confines ok applied ih =>
      obtain ⟨d, idleD, undo⟩ := ih
      obtain ⟨e, new, idleE, hrows, added, hbatch⟩ := added_of_ok idleD confines ok applied
      refine ⟨e, idleE, fun {d' m' s' records results} idle' rows readable rollbacks => ?_⟩
      rw [List.map_append, List.reverse_append] at rollbacks ⊢
      obtain ⟨before', hbefore⟩ : ∃ before', Record.ofRows (d.rows.map Ledger.Row.texts) =
          .ok before' := by
        refine Ledger.readable_iff.2 fun r hr => Ledger.readable_iff.1 ⟨_, readable⟩ r ?_
        rw [hrows]
        exact List.mem_append_left _ hr
      rw [← rows] at readable
      cases rollbacks with
      | more confines' revertible accepted behind =>
          obtain ⟨hresult, d'', idle'', rows''⟩ := reverted_of_accepted idle' confines'
            (rows.trans hrows) added (ne_nil_of_added added applied) readable revertible accepted
          obtain ⟨hresults, back⟩ := undo idle'' rows'' hbefore behind
          rw [hresult, hresults, ← hbatch]
          exact ⟨rfl, back⟩

/-! ## The same call again -/

theorem valid_of_ok {source : Source} {es : List Exchange} {report : ApplyReport}
    (h : (apply source table).Admits es (.ok report)) : Sql.isQualifiedName table = true := by
  rcases Work.admits_bind.1 h with ⟨e, hr, _⟩ | ⟨es₁, _, es₂, _, hs, _⟩
  · cases hr
  · cases hc : Sql.checkQualifiedName table with
    | ok _ => exact Sql.isQualifiedName_of_check hc
    | error e =>
        simp only [Ledger.setup, hc] at hs
        cases (Work.admits_throw.1 hs).2

/-- What a call of `apply` that succeeds has found: a list of names, rows that can be read, and
room for a batch if it has applied something. -/
theorem found_of_ok {source : Source} {c : Content ω} {s : σ} {report : ApplyReport}
    (idle : L.Idle c s) (ok : ((apply source table).hold db s).result = .ok report) :
    ∃ available records, source.list = .ok available ∧
      Record.ofRows (c.rows.map Ledger.Row.texts) = .ok records ∧
      (report.applied ≠ [] → Ledger.lastBatch c.rows < Text.int64Max) := by
  have run := apply_admits ((apply source table).hold_admits db s)
  have answers := (apply source table).hold_answers db s
  rw [ok] at run
  generalize ((apply source table).hold db s).exchanges = es at run answers
  generalize hr : (Except.ok report : Except MigrateError ApplyReport) = r at run
  cases run with
  | notSetUp | notRead | notListed | noBatch => cases hr
  | @nothingPending es reply records available setUp read listed =>
      cases hr
      obtain ⟨_, _, _, _, _, htexts⟩ := rows_of_setUp setUp idle answers
      exact ⟨available, records, listed, Ledger.ofRows_of_recordsOf htexts read,
        fun applied => absurd rfl applied⟩
  | @carried es es' reply reply' records available batch r setUp read listed pending numbered =>
      obtain ⟨m₁, hreads, _⟩ := Database.answers_append.1 answers
      obtain ⟨c', m₂, like, idle', hnumber, htexts⟩ := rows_of_setUp setUp idle hreads
      rw [Database.answers_singleton] at hnumber
      obtain ⟨rfl, _, hi⟩ := batch_of_numbered idle' hnumber numbered
      rw [like.rows] at hi
      exact ⟨available, records, listed, Ledger.ofRows_of_recordsOf htexts read,
        fun _ => by omega⟩

/-- A call that has succeeded once succeeds in the same way wherever the rows are the same,
if nothing is refused. -/
theorem repeated_of_ok {source : Source} {c d : Content ω} {s t : σ} {report : ApplyReport}
    (idle : L.Idle c s) (confines : L.Confines source)
    (ok : ((apply source table).hold db s).result = .ok report) (applied : report.applied ≠ [])
    (idle' : L.Idle d t) (rows : d.rows = c.rows)
    (accepted : ∀ x ∈ ((apply source table).hold db t).exchanges, x.accepted) :
    ((apply source table).hold db t).result = .ok report := by
  have admits := (apply source table).hold_admits db s
  rw [ok] at admits
  obtain ⟨available, records, listed, readable, room⟩ := found_of_ok idle ok
  have room := room applied
  obtain ⟨c', done, _, progress⟩ := apply_progress idle confines
  rw [ok] at progress
  obtain ⟨hlength, happlied, hbatch⟩ := progress.succeeded rfl
  have blocks := progress.blocks
  rw [hlength, List.take_length] at blocks
  have distinct := progress.namesOf_of_ok.2
  rw [← rows] at readable room distinct
  obtain ⟨before, after, done', d', hsplit, _, _, _, _, hend⟩ :=
    unrefused_of_outstanding idle' (valid_of_ok admits) confines listed distinct readable room
      accepted
  rw [rows] at hsplit hend
  rcases hend with ⟨_, hresult⟩ | ⟨name, more, e, rfl, hup, _⟩
  · rw [hresult, ← hbatch, ← happlied]
  · obtain ⟨b, hb⟩ := exists_block_of_mem blocks (show name ∈ _ by rw [hsplit]; simp)
    rw [hup] at hb
    cases hb

/-! ## The way back -/

/-- Calls of `apply` that succeed are undone by as many calls of `revert` for which nothing is
refused. These report the same batches, the last one first, each with its migrations in
reverse, and they leave the rows that were there at first. The first call of `apply`, made
again from there, reports what it reported before.

Nothing is demanded of what a ledger holds at first but that calls of `apply` succeed. As a
database gives ids and times to the rows that it adds, it is demanded that those of the last
call can be read, too. -/
theorem reverting_undoes_applying (L : LedgerStore db table ω) {c : Content ω} {s m s' : σ}
    {runs : List (Source × ApplyReport)} {results : List (Except MigrateError RevertReport)}
    {records : List Record} (idle : L.Idle c s) (applies : L.Runs s runs m)
    (readable : Record.ofRows ((L.content m).rows.map Ledger.Row.texts) = .ok records)
    (rollbacks : L.Rollbacks m (runs.map (·.2)).reverse results s') :
    results = ((runs.map (·.2)).reverse.map fun report =>
        .ok ⟨report.batch, report.applied.reverse⟩) ∧
      (∃ c', L.Idle c' s' ∧ c'.rows = c.rows) ∧
      ∀ source report, runs.head? = some (source, report) →
        (∀ x ∈ ((apply source table).hold db s').exchanges, x.accepted) →
        ((apply source table).hold db s').result = .ok report := by
  obtain ⟨d, idle', undo⟩ := applies.undone idle
  rw [idle'.content] at readable
  obtain ⟨hresults, c', idle'', rows⟩ := undo idle' rfl readable rollbacks
  refine ⟨hresults, ⟨c', idle'', rows⟩, fun source report hfirst accepted => ?_⟩
  obtain ⟨confines, ok, applied⟩ := applies.first hfirst
  exact repeated_of_ok idle confines ok applied idle'' rows accepted

/-! ## There and back on a store -/

section

open Store Connection

/-- The state of a store behind calls. -/
def behind (c : Connection) (calls : List DatabaseCall) : Connection :=
  calls.foldl (fun c call => (database.reply call c).2) c

theorem behind_append (c : Connection) (xs ys : List DatabaseCall) :
    behind c (xs ++ ys) = behind (behind c xs) ys :=
  List.foldl_append

theorem behind_queryRows (c : Connection) (sql : String) (calls : List DatabaseCall) :
    behind c (.queryRows sql :: calls) = behind c calls := rfl

theorem state_execute (sql : String) (c : Connection) :
    (database.reply (.execute sql) c).2 = (c.perform (.ofText sql)).2 := rfl

theorem state_executeBatch (sql : String) (c : Connection) :
    (database.reply (.executeBatch sql) c).2 = (c.performAll (Statement.ofBatch sql)).2 := rfl

theorem state_queryCount (sql : String) (c : Connection) :
    (database.reply (.queryCount sql) c).2 = c := rfl

/-- A block that records a migration and asks for a number adds a row. -/
theorem behind_asking (valid : Sql.isQualifiedName table = true) (contents : Contents)
    (name : Name) {batch : Int} (lo : Text.int64Min ≤ batch) (hi : batch ≤ Text.int64Max) :
    behind { contents } (Block.calls table ⟨name, ["SELECT 1"], .record batch⟩) =
      { contents := (contents.insert table name.text batch).2 } := by
  have hbegin : Statement.ofText "BEGIN TRANSACTION" = .begin := rfl
  have hcommit : Statement.ofText "COMMIT" = .commit := rfl
  have hbatch : Statement.ofBatch "SELECT 1" = [.other] := by decide
  simp only [behind, Block.calls, Ledger.changeCalls, List.map_cons, List.map_nil,
    List.cons_append, List.nil_append, List.foldl_cons, List.foldl_nil, state_execute,
    state_executeBatch, state_queryCount, hbegin, hbatch, hcommit,
    Statement.ofText_insert valid name lo hi]
  rfl

/-- Applying a registry of migrations that ask for a number succeeds, and it is known which
calls lead to the state behind it. -/
theorem apply_asking {r : Registry} {k : Content Others} {c : Connection} {records : List Record}
    {names : List Name} (idle : smallStore.Idle k c)
    (asks : ∀ name ∈ r.names, r.find? name = some asking)
    (passes : PassesAll r) (distinct : r.names.Nodup)
    (pending : outstanding r.source k.rows = names) (some : names ≠ [])
    (readable : Record.ofRows (k.rows.map Ledger.Row.texts) = .ok records)
    (room : Ledger.lastBatch k.rows < Text.int64Max) :
    ((apply r.source "m").hold database c).result =
        .ok ⟨.some (Ledger.lastBatch k.rows + 1), names⟩ ∧
      ((apply r.source "m").hold database c).state = behind c (applyCalls "m" names
        (names.map (⟨·, ["SELECT 1"], .record (Ledger.lastBatch k.rows + 1)⟩))) := by
  have valid : Sql.isQualifiedName "m" = true := by decide
  have confines := confines_of_passesAll valid passes
  have blocks (name : Name) (hname : name ∈ names) :
      upBlock r.source (Ledger.lastBatch k.rows + 1) name =
        .ok ⟨name, ["SELECT 1"], .record (Ledger.lastBatch k.rows + 1)⟩ := by
    rw [← pending, outstanding_of_list rfl] at hname
    exact upBlock_asking (asks name (List.mem_of_mem_filter hname))
  obtain ⟨before, after, done, c', hsplit, hbefore, calls, _, _, hend⟩ :=
    apply_of_accepted idle valid confines rfl distinct readable room
      (apply_accepted valid idle confines fun batch name b hup => passes_of_upBlock passes hup)
  rw [pending] at hsplit calls hend
  rcases hend with ⟨rfl, hresult⟩ | ⟨name, more, e, rfl, hup, _⟩
  · rw [List.append_nil] at hsplit
    subst hsplit
    rw [if_neg some] at hresult
    refine ⟨hresult, ?_⟩
    have hdone : done =
        names.map (⟨·, ["SELECT 1"], .record (Ledger.lastBatch k.rows + 1)⟩) := by
      rw [List.map_congr_left blocks] at hbefore
      refine (List.map_inj_right (f := (Except.ok : Block → Except MigrateError Block))
        fun _ _ => Except.ok.inj).1 ?_
      rw [List.map_map]
      exact hbefore.symm
    rw [Work.state_of_hold, calls, hdone]
    rfl
  · rw [blocks name (by rw [hsplit]; simp)] at hup
    cases hup

/-- A registry with one migration, and one with another migration behind it. -/
def once : Registry := ⟨[(first, asking)]⟩

def twice : Registry := ⟨[(first, asking), (second, asking)]⟩

/-- The tables of a store after both have been applied, the first one by itself before. -/
def firstRow : Contents := ⟨⟨[], [("m", [⟨1, "a", 1⟩])]⟩, [("m", 1)]⟩

def bothRows : Contents := ⟨⟨[], [("m", [⟨1, "a", 1⟩, ⟨2, "b", 2⟩])]⟩, [("m", 2)]⟩

/-- The calls of an application, its block apart, make a table that is not there. -/
theorem behind_applyCalls (contents made : Contents) (name : Name) {batch : Int}
    (lo : Text.int64Min ≤ batch) (hi : batch ≤ Text.int64Max)
    (setUp : ({ contents } : Connection).performAll
      [.createSequence (Ledger.sequenceName "m"), .createTable "m"] =
        (.ok (), { contents := made })) :
    behind { contents } (applyCalls "m" [name] [⟨name, ["SELECT 1"], .record batch⟩]) =
      { contents := (made.insert "m" name.text batch).2 } := by
  have valid : Sql.isQualifiedName "m" = true := by decide
  have hsetUp : behind { contents } (Ledger.setupCalls "m") = { contents := made } := by
    have hcalls : Ledger.setupCalls "m" = [.executeBatch (Ledger.setupScript "m")] := rfl
    rw [hcalls, behind, List.foldl_cons, List.foldl_nil, state_executeBatch,
      Statement.ofBatch_setupScript valid, setUp]
  rw [applyCalls, behind_append, hsetUp, behind_queryRows, if_neg (List.cons_ne_nil _ _),
    behind_queryRows, List.flatMap_singleton, behind_asking valid made name lo hi]

theorem behind_first : behind {} (applyCalls "m" [first] [⟨first, ["SELECT 1"], .record 1⟩]) =
    { contents := firstRow } := by
  refine (behind_applyCalls {} ⟨⟨[], [("m", [])]⟩, []⟩ first (by decide) (by decide) ?_).trans ?_
  · decide
  · decide

theorem behind_second : behind { contents := firstRow }
    (applyCalls "m" [second] [⟨second, ["SELECT 1"], .record 2⟩]) = { contents := bothRows } := by
  refine (behind_applyCalls firstRow firstRow second (by decide) (by decide) ?_).trans ?_
  · decide
  · decide

theorem readable_of_isSome (rows : List Ledger.Row)
    (h : (Record.ofRows (rows.map Ledger.Row.texts)).toOption.isSome = true) :
    ∃ records, Record.ofRows (rows.map Ledger.Row.texts) = .ok records := by
  cases hr : Record.ofRows (rows.map Ledger.Row.texts) with
  | ok records => exact ⟨records, rfl⟩
  | error e => rw [hr] at h; cases h

theorem revertible_asking {r : Registry} {name : Name} (h : r.find? name = some asking) :
    Revertible r.source name := by
  refine ⟨asking, ["SELECT 1"], ?_, rfl⟩
  show r.load name = _
  rw [Registry.load, h]

theorem passesAll_twice : PassesAll twice := passesAll_of_asking (by simp [twice])

/-- Every way back over a registry of migrations that ask for a number is one for which
nothing is refused. -/
theorem rollbacks_twice (reports : List ApplyReport) {k : Content Others} {c : Connection}
    (idle : smallStore.Idle k c)
    (known : ∀ report ∈ reports, ∀ name ∈ report.applied, name = first ∨ name = second) :
    ∃ results c', smallStore.Rollbacks c reports results c' := by
  have valid : Sql.isQualifiedName "m" = true := by decide
  have confines := confines_of_passesAll valid passesAll_twice
  induction reports generalizing k c with
  | nil => exact ⟨[], c, .none⟩
  | cons report rest ih =>
      obtain ⟨k', _, idle', _⟩ := revert_reversal idle confines
      obtain ⟨results, c', behind⟩ := ih idle' fun r hr => known r (List.mem_cons_of_mem _ hr)
      have accepted := revert_accepted valid idle confines
        fun name b hdown => passes_of_downBlock passesAll_twice hdown
      refine ⟨_, c', .more confines (fun name hname => ?_) accepted behind⟩
      rcases known report List.mem_cons_self name hname with rfl | rfl
      · exact revertible_asking (by decide)
      · exact revertible_asking (by decide)

/-- On an empty store, two calls of `apply` with a migration each, and two of `revert`. -/
theorem reverting_undoes_applying_of_empty_store :
    ∃ m s' results,
      smallStore.Runs {} [(once.source, ⟨some 1, [first]⟩), (twice.source, ⟨some 2, [second]⟩)] m ∧
      smallStore.Rollbacks m [⟨some 2, [second]⟩, ⟨some 1, [first]⟩] results s' ∧
      results = [.ok ⟨some 2, [second]⟩, .ok ⟨some 1, [first]⟩] ∧
      (smallStore.content s').rows = [] ∧
      ((apply once.source "m").hold database s').result = .ok ⟨some 1, [first]⟩ := by
  have valid : Sql.isQualifiedName "m" = true := by decide
  have passes : PassesAll once := passesAll_of_asking (by simp [once])
  have confines₁ := confines_of_passesAll valid passes
  have confines₂ := confines_of_passesAll valid passesAll_twice
  have names₁ : once.names = [first] := names_of_first asking
  have names₂ : twice.names = [first, second] := names_of_both asking asking
  -- the first call of `apply`
  have idle := idle_empty "m"
  have pending₁ : outstanding once.source [] = [first] := by
    rw [outstanding_of_list (congrArg Except.ok names₁)]
    decide
  obtain ⟨ok₁, state₁⟩ := apply_asking idle (by rw [names₁]; decide) passes (by rw [names₁]; decide)
    pending₁ (List.cons_ne_nil _ _) rfl (by decide)
  obtain ⟨k₁, _, idle₁, _⟩ := apply_progress idle confines₁
  rw [state₁.trans behind_first] at idle₁
  -- the second one, on top of the row of the first one
  have rows₁ : k₁.rows = [Row.inLedger ⟨1, "a", 1⟩] := by
    rw [← idle₁.content]
    rfl
  have pending₂ : outstanding twice.source k₁.rows = [second] := by
    rw [outstanding_of_list (congrArg Except.ok names₂), rows₁]
    decide
  obtain ⟨records₁, readable₁⟩ := readable_of_isSome k₁.rows (by rw [rows₁]; decide +kernel)
  obtain ⟨ok₂, state₂⟩ := apply_asking idle₁ (by rw [names₂]; decide) passesAll_twice
    (by rw [names₂]; decide) pending₂ (List.cons_ne_nil _ _) readable₁ (by rw [rows₁]; decide)
  obtain ⟨k₂, _, idle₂, _⟩ := apply_progress idle₁ confines₂
  rw [rows₁] at ok₂ state₂
  rw [state₂.trans behind_second] at idle₂
  have rows₂ : k₂.rows = [Row.inLedger ⟨1, "a", 1⟩, Row.inLedger ⟨2, "b", 2⟩] := by
    rw [← idle₂.content]
    rfl
  obtain ⟨records₂, readable₂⟩ := readable_of_isSome k₂.rows (by rw [rows₂]; decide +kernel)
  have runs : smallStore.Runs {}
      [(once.source, ⟨some 1, [first]⟩), (twice.source, ⟨some 2, [second]⟩)]
      { contents := bothRows } := by
    have runs₁ := Runs.more .none confines₁ ok₁ (List.cons_ne_nil _ _)
    rw [state₁.trans behind_first] at runs₁
    have runs₂ := runs₁.more confines₂ ok₂ (List.cons_ne_nil _ _)
    rwa [state₂.trans behind_second] at runs₂
  -- the way back
  obtain ⟨results, s', rollbacks⟩ :=
    rollbacks_twice [⟨some 2, [second]⟩, ⟨some 1, [first]⟩] idle₂ (by decide)
  rw [← idle₂.content] at readable₂
  obtain ⟨hresults, ⟨k', idle', rows'⟩, again⟩ :=
    reverting_undoes_applying smallStore idle runs readable₂ rollbacks
  have accepted := apply_accepted valid idle' confines₁
    fun batch name b hup => passes_of_upBlock passes hup
  refine ⟨_, s', results, runs, rollbacks, hresults, ?_, again _ _ rfl accepted⟩
  rw [idle'.content, rows']
  rfl

end

end LedgerStore

end SchemaLedger
