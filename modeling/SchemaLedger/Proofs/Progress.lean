import SchemaLedger.Proofs.Discipline
import SchemaLedger.Proofs.LedgerStore
import SchemaLedger.Proofs.SourceOrder

/-!
# How far applying gets

Whatever happens while migrations are applied, what has been achieved is a beginning of what
was outstanding: some blocks are committed, at most one more was attempted, and the database
holds exactly the effect of those that are committed. `Progress` says this for one call,
with the names and the order of the blocks, what was sent, and what a failure tells.

The blocks are those of one batch, with the number behind the greatest one there was. In
terms of rows this means that rows are added at the end, one for each block, with names that
were not there and are all different, `NewRows`.
-/

namespace SchemaLedger

/-! ## Blocks that are carried out -/

/-- The exchanges of blocks that are all committed. -/
inductive CommittedAll (table : String) : List Block → List Exchange → Prop
  | nil : CommittedAll table [] []
  | cons {b : Block} {bs : List Block} {es₁ es₂ : List Exchange}
    (committed : b.Committed table es₁) (rest : CommittedAll table bs es₂) :
    CommittedAll table (b :: bs) (es₁ ++ es₂)

/-- The last exchanges when blocks are carried out: none are left, the next one is missing,
or it is abandoned. -/
inductive Ended (table : String) :
    List (Except MigrateError Block) → List Exchange → Except MigrateError Unit → Prop
  | done : Ended table [] [] (.ok ())
  | missing {e : MigrateError} {rest : List (Except MigrateError Block)} :
    Ended table (.error e :: rest) [] (.error e)
  | abandoned {b : Block} {rest : List (Except MigrateError Block)} {es : List Exchange}
    {e : MigrateError} (abandoned : b.Abandoned table es e) :
    Ended table (.ok b :: rest) es (.error e)

/-- A failure to change a record is about no other migration. -/
theorem Ledger.Unchanged.migration {table : String} {name other : Name}
    {change : LedgerChange} {es : List Exchange} {e : MigrateError}
    (h : Ledger.Unchanged table name change es e) (he : e.migration? = some other) :
    name = other := by
  cases h with
  | countRefused batch e => cases he
  | present batch found => exact Option.some.inj he
  | insertRefused batch e =>
      unfold Ledger.insertFailure at he
      split at he
      · exact Option.some.inj he
      · cases he
  | deleteRefused e => cases he
  | absent => cases he

theorem Block.Abandoned.migration {table : String} {b : Block} {es : List Exchange}
    {e : MigrateError} {other : Name} (h : b.Abandoned table es e)
    (he : e.migration? = some other) : b.name = other := by
  cases h with
  | notBegun => cases he
  | commitRefused changed => cases he
  | failed fails =>
      cases fails with
      | statement split => exact Option.some.inj he
      | change unchanged => exact unchanged.migration he

namespace Migrate

/-- Carrying out blocks commits a beginning of them. -/
theorem Carried.split {table : String} {todo : List (Except MigrateError Block)}
    {es : List Exchange} {r : Except MigrateError Unit} (h : Carried table todo es r) :
    ∃ done rest es₁ es₂, todo = done.map .ok ++ rest ∧ es = es₁ ++ es₂ ∧
      CommittedAll table done es₁ ∧ Ended table rest es₂ r := by
  induction h with
  | done => exact ⟨[], [], [], [], rfl, rfl, .nil, .done⟩
  | @missing e rest => exact ⟨[], _, [], [], rfl, rfl, .nil, .missing⟩
  | @abandoned b rest es e abandoned => exact ⟨[], _, [], es, rfl, rfl, .nil, .abandoned abandoned⟩
  | @next b todo es es' r committed carried ih =>
      obtain ⟨done, rest, es₁, es₂, rfl, rfl, all, ended⟩ := ih
      exact ⟨b :: done, rest, es ++ es₁, es₂, rfl, (List.append_assoc ..).symm,
        .cons committed all, ended⟩

end Migrate

/-! ## Rows that are added -/

namespace Ledger

/-- Rows that are added to others: rows of one batch, for different names that have no row
yet. -/
structure NewRows (batch : Int) (names : List Name) (rows new : List Row) : Prop where
  names : new.map (·.name) = names.map (·.text)
  batch : ∀ r ∈ new, r.batch = batch
  distinct : (new.map (·.name)).Nodup
  fresh : ∀ r ∈ new, ∀ q ∈ rows, q.name ≠ r.name

end Ledger

namespace LedgerStore

variable {σ ω : Type} {db : Database σ} {table : String} {L : LedgerStore db table ω}

/-- Blocks that record migrations in one batch add rows. -/
theorem Effects.newRows {batch : Int} {bs : List Block} {c c' : Content ω}
    (hb : ∀ b ∈ bs, b.change = .record batch) (h : L.Effects bs c c') :
    ∃ new, c'.rows = c.rows ++ new ∧ Ledger.NewRows batch (bs.map (·.name)) c.rows new := by
  induction h with
  | nil like =>
      exact ⟨[], by simpa using like.rows, rfl, by simp, by simp, by simp⟩
  | @cons b bs c₁ c₂ c₃ effect effects ih =>
      obtain ⟨new, hnew, rows⟩ := ih fun b hb' => hb b (List.mem_cons_of_mem _ hb')
      have updated := effect.rows
      rw [hb b List.mem_cons_self] at updated
      generalize c₂.rows = rows₂ at updated hnew rows
      obtain @⟨_, id, _, time, fresh, above⟩ := updated
      refine ⟨⟨id, b.name.text, batch, time⟩ :: new, by rw [hnew, List.append_assoc]; rfl, ?_⟩
      constructor
      · rw [List.map_cons, rows.names, List.map_cons, List.map_cons]
      · intro r hr
        rcases List.mem_cons.1 hr with rfl | hr
        · rfl
        · exact rows.batch r hr
      · rw [List.map_cons, List.nodup_cons]
        refine ⟨fun hmem => ?_, rows.distinct⟩
        obtain ⟨r, hr, hn⟩ := List.mem_map.1 hmem
        exact rows.fresh r hr _ (List.mem_append_right _ List.mem_cons_self) hn.symm
      · intro r hr q hq
        rcases List.mem_cons.1 hr with rfl | hr
        · exact fresh q hq
        · exact rows.fresh r hr q (List.mem_append_left _ hq)

theorem effects_of_committedAll {bs : List Block} {es : List Exchange} {c : Content ω}
    {s s' : σ} (admissible : ∀ b ∈ bs, L.Admissible b) (committed : CommittedAll table bs es)
    (idle : L.Idle c s) (answers : db.Answers s es s') :
    ∃ c', L.Idle c' s' ∧ L.Effects bs c c' := by
  induction committed generalizing s c with
  | nil =>
      cases answers
      exact ⟨c, idle, .nil (.refl c)⟩
  | @cons b bs es₁ es₂ first rest ih =>
      obtain ⟨m, hfirst, hrest⟩ := Database.answers_append.1 answers
      obtain ⟨c', idle', effect⟩ :=
        effect_of_committed (admissible b List.mem_cons_self) first idle hfirst
      obtain ⟨c'', idle'', effects⟩ :=
        ih (fun d hd => admissible d (List.mem_cons_of_mem b hd)) idle' hrest
      exact ⟨c'', idle'', .cons effect effects⟩

theorem idle_of_ended {rest : List (Except MigrateError Block)} {es : List Exchange}
    {r : Except MigrateError Unit} {c : Content ω} {s s' : σ}
    (admissible : ∀ b, .ok b ∈ rest → L.Admissible b) (ended : Ended table rest es r)
    (idle : L.Idle c s) (answers : db.Answers s es s') : L.Idle c s' := by
  cases ended with
  | done => cases answers; exact idle
  | missing => cases answers; exact idle
  | abandoned abandoned =>
      exact idle_of_abandoned (admissible _ List.mem_cons_self) abandoned idle answers

/-- When blocks are carried out, those that are committed have their effect, and this is all
that happens. -/
theorem effects_of_carried {todo : List (Except MigrateError Block)} {es : List Exchange}
    {r : Except MigrateError Unit} {c : Content ω} {s s' : σ}
    (admissible : ∀ b, .ok b ∈ todo → L.Admissible b) (carried : Migrate.Carried table todo es r)
    (idle : L.Idle c s) (answers : db.Answers s es s') :
    ∃ c' done rest es₁ es₂, todo = done.map .ok ++ rest ∧ es = es₁ ++ es₂ ∧
      CommittedAll table done es₁ ∧ Ended table rest es₂ r ∧ L.Idle c' s' ∧
      L.Effects done c c' := by
  obtain ⟨done, rest, es₁, es₂, rfl, rfl, committed, ended⟩ := carried.split
  obtain ⟨m, hdone, hrest⟩ := Database.answers_append.1 answers
  obtain ⟨c', idle', effects⟩ := effects_of_committedAll (fun b hb =>
    admissible b (List.mem_append_left _ (List.mem_map_of_mem hb))) committed idle hdone
  have idle'' := idle_of_ended (fun b hb => admissible b (List.mem_append_right _ hb)) ended idle'
    hrest
  exact ⟨c', done, rest, es₁, es₂, rfl, rfl, committed, ended, idle'', effects⟩

theorem like_of_setUp {es : List Exchange} {r : Except MigrateError Unit} {c : Content ω}
    {s s' : σ} (setUp : Ledger.SetUp table es r) (idle : L.Idle c s)
    (answers : db.Answers s es s') : ∃ c', c.Like c' ∧ L.Idle c' s' := by
  have script {reply : Except DatabaseError Unit} {m : σ} (idle : L.Idle c m)
      (h : db.reply (.executeBatch (Ledger.setupScript table)) m = (reply, s')) :
      ∃ c', c.Like c' ∧ L.Idle c' s' := by
    cases reply with
    | ok _ => exact ⟨{ c with ledger := some c.rows }, ⟨rfl, rfl⟩, L.tableMade idle h⟩
    | error e => exact L.tableRefused idle h
  cases setUp with
  | invalidName invalid =>
      cases answers
      exact ⟨c, .refl c, idle⟩
  | schemaRefused qualified =>
      rw [Database.answers_singleton] at answers
      exact ⟨c, .refl c, L.schemaMade idle answers⟩
  | unqualified unqualified =>
      rw [Database.answers_singleton] at answers
      exact script idle answers
  | qualified qualified =>
      obtain ⟨m, hschema, hscript⟩ := Database.answers_cons.1 answers
      rw [Database.answers_singleton] at hscript
      exact script (L.schemaMade idle hschema) hscript

/-- All statements of a source are confined. -/
structure Confines (L : LedgerStore db table ω) (source : Source) : Prop where
  up {name : Name} {definition : Definition} {statements : List String} :
    source.load name = .ok definition → definition.up.compile = .ok statements →
    ∀ sql ∈ statements, L.Confined sql
  down {name : Name} {definition : Definition} {statements : List String} :
    source.load name = .ok definition → definition.down.compile = .ok statements →
    ∀ sql ∈ statements, L.Confined sql

end LedgerStore

/-! ## Reading what a database holds -/

namespace Ledger

theorem ids_of_reads {rows : List Row} {records : List Record}
    (h : List.Forall₂ Row.Reads rows records) : records.map (·.id) = rows.map (·.id) := by
  induction h with
  | nil => rfl
  | cons reads _ ih => rw [List.map_cons, List.map_cons, reads.id, ih]

theorem names_of_reads {rows : List Row} {records : List Record}
    (h : List.Forall₂ Row.Reads rows records) :
    records.map (·.name.text) = rows.map (·.name) := by
  induction h with
  | nil => rfl
  | cons reads _ ih => rw [List.map_cons, List.map_cons, reads.name, ih]

theorem ofRows_of_recordsOf {rows : List Row} {reply : Except DatabaseError (List (List String))}
    {records : List Record} (htexts : ∀ texts, reply = .ok texts → texts = rows.map Row.texts)
    (read : recordsOf reply = .ok records) : Record.ofRows (rows.map Row.texts) = .ok records := by
  obtain ⟨texts, rfl, hrows⟩ := recordsOf_ok read
  rwa [← htexts texts rfl]

theorem reads_of_recordsOf {rows : List Row} {reply : Except DatabaseError (List (List String))}
    {records : List Record} (htexts : ∀ texts, reply = .ok texts → texts = rows.map Row.texts)
    (read : recordsOf reply = .ok records) : List.Forall₂ Row.Reads rows records :=
  ofRows_texts (ofRows_of_recordsOf htexts read)

theorem migration_of_setUp {table : String} {es : List Exchange} {e : MigrateError}
    (h : SetUp table es (.error e)) : e.migration? = none := by
  generalize hr : (Except.error e : Except MigrateError Unit) = r at h
  cases h with
  | invalidName invalid => cases hr; rfl
  | schemaRefused qualified => cases hr; rfl
  | @unqualified reply unqualified =>
      cases reply with
      | ok _ => cases hr
      | error d => cases hr; rfl
  | @qualified reply qualified =>
      cases reply with
      | ok _ => cases hr
      | error d => cases hr; rfl

end Ledger

namespace Ledger

/-- The names that no row is about. -/
def lacking (rows : List Row) (names : List Name) : List Name :=
  names.filter fun name => name.text ∉ rows.map (·.name)

end Ledger

namespace Migrate

/-- The migrations that a source lists and no row is about, in the order of the list. -/
def outstanding (source : Source) (rows : List Ledger.Row) : List Name :=
  match source.list with
  | .ok available => Ledger.lacking rows available
  | .error _ => []

theorem outstanding_of_list {source : Source} {available : List Name}
    (h : source.list = .ok available) (rows : List Ledger.Row) :
    outstanding source rows = Ledger.lacking rows available := by
  rw [outstanding, h]

theorem fresh_of_outstanding {source : Source} {rows : List Ledger.Row} {name : Name}
    (h : name ∈ outstanding source rows) : ∀ q ∈ rows, q.name ≠ name.text := by
  intro q hq heq
  cases listed : source.list with
  | error e =>
      rw [outstanding, listed] at h
      cases h
  | ok available =>
      rw [outstanding_of_list listed, Ledger.lacking, List.mem_filter, decide_eq_true_eq] at h
      exact h.2 (heq ▸ List.mem_map_of_mem hq)

theorem nodup_outstanding {source : Source} {available : List Name}
    (listed : source.list = .ok available) (distinct : available.Nodup)
    (rows : List Ledger.Row) : (outstanding source rows).Nodup := by
  rw [outstanding_of_list listed]
  exact distinct.filter _

theorem unrecorded_eq_outstanding {source : Source} {available : List Name}
    {rows : List Ledger.Row} {records : List Record} (listed : source.list = .ok available)
    (h : List.Forall₂ Ledger.Row.Reads rows records) :
    unrecorded available records = outstanding source rows := by
  rw [outstanding_of_list listed, unrecorded, Ledger.lacking, ← Ledger.names_of_reads h]
  refine List.filter_congr fun name _ => ?_
  rw [Bool.eq_iff_iff]
  simp only [Bool.not_eq_true', List.any_eq_false, decide_eq_true_eq, List.mem_map, not_exists,
    not_and]
  constructor
  · intro hne r hr ht
    exact hne r hr (Name.eq_of_text ht)
  · intro hne r hr hn
    exact hne r hr (congrArg Name.text hn)

end Migrate

namespace LedgerStore

variable {σ ω : Type} {db : Database σ} {table : String} {L : LedgerStore db table ω}

/-- What is read of a ledger that may not be there are its rows. -/
theorem rows_of_read {c : Content ω} {s s' : σ} {es : List Exchange}
    {r : Except MigrateError (List Record)} (read : Migrate.Read table es r) (idle : L.Idle c s)
    (answers : db.Answers s es s') :
    L.Idle c s' ∧ ∀ records, r = .ok records →
      Record.ofRows (c.rows.map Ledger.Row.texts) = .ok records := by
  cases read with
  | refused =>
      rw [Database.answers_singleton] at answers
      exact ⟨(L.present idle answers).1, fun records h => by cases h⟩
  | absent =>
      rw [Database.answers_singleton] at answers
      obtain ⟨idle', hpresent⟩ := L.present idle answers
      have hnone : c.ledger = none := by simpa using (hpresent false rfl).symm
      refine ⟨idle', fun records h => ?_⟩
      cases h
      rw [Content.rows, hnone]
      rfl
  | present =>
      obtain ⟨m, hexists, hlist⟩ := Database.answers_cons.1 answers
      rw [Database.answers_singleton] at hlist
      obtain ⟨idle', htexts⟩ := L.listed (L.present idle hexists).1 hlist
      exact ⟨idle', fun records h => Ledger.ofRows_of_recordsOf htexts h⟩

/-- After the set-up the rows are the same, and these are read. -/
theorem rows_of_setUp {c : Content ω} {s s' : σ} {es es' : List Exchange}
    {reply : Except DatabaseError (List (List String))} (setUp : Ledger.SetUp table es (.ok ()))
    (idle : L.Idle c s)
    (answers : db.Answers s (es ++ ⟨.queryRows (Ledger.listQuery table), reply⟩ :: es') s') :
    ∃ c' m, c.Like c' ∧ L.Idle c' m ∧ db.Answers m es' s' ∧
      ∀ texts, reply = .ok texts → texts = c.rows.map Ledger.Row.texts := by
  obtain ⟨m₁, hsetUp, hrest⟩ := Database.answers_append.1 answers
  obtain ⟨m₂, hlist, hrest⟩ := Database.answers_cons.1 hrest
  obtain ⟨c', like, idle'⟩ := like_of_setUp setUp idle hsetUp
  obtain ⟨idle'', htexts⟩ := L.listed idle' hlist
  rw [like.rows] at htexts
  exact ⟨c', m₂, like, idle'', hrest, htexts⟩

theorem batch_of_numbered {c : Content ω} {s s' : σ}
    {reply : Except DatabaseError (List (List String))} {batch : Int} (idle : L.Idle c s)
    (h : db.reply (.queryRows (Ledger.nextBatchQuery table)) s = (reply, s'))
    (numbered : Ledger.batchOf reply = .ok batch) :
    batch = Ledger.lastBatch c.rows + 1 ∧ Text.int64Min ≤ batch ∧ batch ≤ Text.int64Max := by
  obtain ⟨texts, value, rfl, hvalue, hbatch⟩ := Ledger.batchOf_ok numbered
  rw [(L.numbered idle h).2 texts rfl] at hvalue
  cases hvalue
  exact ⟨(Text.eq_of_int64?_toString hbatch).symm, Text.int64?_bounds hbatch⟩

/-- Blocks that apply migrations of a source whose statements are confined. -/
theorem admissible_of_upBlock {source : Source} {batch : Int} {name : Name} {b : Block}
    (confines : L.Confines source) (lo : Text.int64Min ≤ batch) (hi : batch ≤ Text.int64Max)
    (h : Migrate.upBlock source batch name = .ok b) : L.Admissible b := by
  unfold Migrate.upBlock at h
  split at h
  · cases h
  · next definition hload =>
      split at h
      · cases h
      · next statements hcompile =>
          cases h
          refine ⟨confines.up hload hcompile, fun n hn => ?_⟩
          cases hn
          exact ⟨lo, hi⟩

end LedgerStore

/-! ## Progress -/

namespace Migrate

/-- What is sent while the first of the migrations that are outstanding are applied in
blocks: set-up and reads, the blocks, and perhaps a block that is abandoned, which is that
of the next migration. -/
inductive Attempted (source : Source) (table : String) (rows : List Ledger.Row)
    (done : List Block) : List Exchange → Prop
  | stopped {es₀ es₁ : List Exchange} (upkeep : ∀ x ∈ es₀, Ledger.IsUpkeep table x.call)
    (committed : CommittedAll table done es₁) :
    Attempted source table rows done (es₀ ++ es₁)
  | abandoned {es₀ es₁ es₂ : List Exchange} {name : Name} {b : Block} {e : MigrateError}
    (upkeep : ∀ x ∈ es₀, Ledger.IsUpkeep table x.call) (committed : CommittedAll table done es₁)
    (next : (outstanding source rows)[done.length]? = some name)
    (block : upBlock source (Ledger.lastBatch rows + 1) name = .ok b)
    (abandoned : b.Abandoned table es₂ e) :
    Attempted source table rows done (es₀ ++ es₁ ++ es₂)

end Migrate

open Migrate in
/-- A call of `apply` has committed the blocks `done`, which are those of the first
migrations that are outstanding, and has turned `c` into `c'` by that. A failure that is
about a migration is about the next one; if there is no failure, none is left. -/
structure LedgerStore.Progress {σ ω : Type} {db : Database σ} {table : String}
    (L : LedgerStore db table ω) (source : Source) (c c' : Content ω) (done : List Block)
    (es : List Exchange) (r : Except MigrateError ApplyReport) : Prop where
  blocks : ((outstanding source c.rows).take done.length).map
    (upBlock source (Ledger.lastBatch c.rows + 1)) = done.map .ok
  effects : L.Effects done c c'
  attempted : Attempted source table c.rows done es
  failed {e : MigrateError} {name : Name} : r = .error e → e.migration? = some name →
    (outstanding source c.rows)[done.length]? = some name
  succeeded {report : ApplyReport} : r = .ok report →
    done.length = (outstanding source c.rows).length ∧
      report.applied = outstanding source c.rows ∧
      report.batch =
        if outstanding source c.rows = [] then none else some (Ledger.lastBatch c.rows + 1)

namespace LedgerStore

variable {σ ω : Type} {db : Database σ} {table : String} {L : LedgerStore db table ω}

/-- A call that fails before the first block. -/
theorem progress_of_failure {source : Source} {c c' : Content ω} {es : List Exchange}
    {e : MigrateError} (like : c.Like c') (upkeep : ∀ x ∈ es, Ledger.IsUpkeep table x.call)
    (he : e.migration? = none) : L.Progress source c c' [] es (.error e) where
  blocks := rfl
  effects := .nil like
  attempted := by simpa using Migrate.Attempted.stopped upkeep .nil
  failed hr hn := by
    cases hr
    rw [he] at hn
    cases hn
  succeeded hr := by cases hr

theorem progress_of_nothing {source : Source} {c c' : Content ω} {es : List Exchange}
    (like : c.Like c') (upkeep : ∀ x ∈ es, Ledger.IsUpkeep table x.call)
    (hnil : Migrate.outstanding source c.rows = []) : L.Progress source c c' [] es (.ok {}) where
  blocks := rfl
  effects := .nil like
  attempted := by simpa using Migrate.Attempted.stopped upkeep .nil
  failed hr := by cases hr
  succeeded hr := by
    cases hr
    simp [hnil]

theorem progress_of_carried {source : Source} {c c' : Content ω} {es es' : List Exchange}
    {s s' : σ} {r : Except MigrateError Unit} (like : c.Like c') (idle : L.Idle c' s)
    (admissible : ∀ name b,
      Migrate.upBlock source (Ledger.lastBatch c.rows + 1) name = .ok b → L.Admissible b)
    (pending : Migrate.outstanding source c.rows ≠ [])
    (upkeep : ∀ x ∈ es, Ledger.IsUpkeep table x.call)
    (carried : Migrate.Carried table ((Migrate.outstanding source c.rows).map
      (Migrate.upBlock source (Ledger.lastBatch c.rows + 1))) es' r)
    (answers : db.Answers s es' s') :
    ∃ c'' done, L.Idle c'' s' ∧ L.Progress source c c'' done (es ++ es')
      (r.map fun _ => ⟨some (Ledger.lastBatch c.rows + 1), Migrate.outstanding source c.rows⟩) := by
  have mem : ∀ b, .ok b ∈ (Migrate.outstanding source c.rows).map
      (Migrate.upBlock source (Ledger.lastBatch c.rows + 1)) → L.Admissible b := by
    intro b hb
    obtain ⟨name, _, hup⟩ := List.mem_map.1 hb
    exact admissible name b hup
  obtain ⟨c'', done, rest, es₁, es₂, hsplit, rfl, committed, ended, idle', effects⟩ :=
    effects_of_carried mem carried idle answers
  have blocks : ((Migrate.outstanding source c.rows).take done.length).map
      (Migrate.upBlock source (Ledger.lastBatch c.rows + 1)) = done.map .ok := by
    rw [List.map_take, hsplit, List.take_left' (List.length_map _)]
  have next : ((Migrate.outstanding source c.rows)[done.length]?).map
      (Migrate.upBlock source (Ledger.lastBatch c.rows + 1)) = rest.head? := by
    rw [← List.getElem?_map, hsplit, List.getElem?_append_right (by simp), List.length_map,
      Nat.sub_self, List.head?_eq_getElem?]
  refine ⟨c'', done, idle', ?_⟩
  cases ended with
  | done =>
      have all := congrArg List.length hsplit
      rw [List.append_nil, List.length_map, List.length_map] at all
      rw [List.append_nil]
      refine ⟨blocks, effects.like like, .stopped upkeep committed,
        (fun hr => by cases hr), fun hr => ?_⟩
      cases hr
      exact ⟨all.symm, rfl, by rw [if_neg pending]⟩
  | @missing e rest =>
      obtain ⟨name, hname, hup⟩ := Option.map_eq_some_iff.1 next
      rw [List.append_nil]
      refine ⟨blocks, effects.like like, .stopped upkeep committed, fun hr he => ?_,
        (fun hr => by cases hr)⟩
      cases hr
      rw [Migrate.upBlock_error hup] at he
      cases he
      exact hname
  | @abandoned b rest es₂ e abandoned =>
      obtain ⟨name, hname, hup⟩ := Option.map_eq_some_iff.1 next
      rw [← List.append_assoc]
      refine ⟨blocks, effects.like like, .abandoned upkeep committed hname hup abandoned,
        fun hr he => ?_, (fun hr => by cases hr)⟩
      cases hr
      rw [← abandoned.migration he, (Migrate.upBlock_ok hup).1]
      exact hname

/-- However a call of `apply` ends, it has committed the first of the migrations that were
outstanding and nothing else, and the database holds just that. -/
theorem apply_progress {source : Source} {c : Content ω} {s : σ} (idle : L.Idle c s)
    (confines : L.Confines source) :
    ∃ c' done, L.Idle c' ((Migrate.apply source table).hold db s).state ∧
      L.Progress source c c' done ((Migrate.apply source table).hold db s).exchanges
        ((Migrate.apply source table).hold db s).result := by
  have run := Migrate.apply_admits ((Migrate.apply source table).hold_admits db s)
  have answers := (Migrate.apply source table).hold_answers db s
  generalize ((Migrate.apply source table).hold db s).exchanges = es at run answers ⊢
  generalize ((Migrate.apply source table).hold db s).result = r at run ⊢
  generalize ((Migrate.apply source table).hold db s).state = s' at answers ⊢
  cases run with
  | notSetUp setUp =>
      obtain ⟨c', like, idle'⟩ := like_of_setUp setUp idle answers
      exact ⟨c', [], idle', progress_of_failure like (Migrate.upkeep_of_setUp setUp)
        (Ledger.migration_of_setUp setUp)⟩
  | @notRead es reply e setUp read =>
      obtain ⟨c', m, like, idle', rfl, _⟩ := rows_of_setUp setUp idle answers
      obtain ⟨f, rfl⟩ := Ledger.recordsOf_error read
      exact ⟨c', [], idle', progress_of_failure like
        (Migrate.upkeep_of_setUp_append setUp (by simp [Ledger.readCalls])) rfl⟩
  | @notListed es reply records e setUp read listed =>
      obtain ⟨c', m, like, idle', rfl, _⟩ := rows_of_setUp setUp idle answers
      exact ⟨c', [], idle', progress_of_failure like
        (Migrate.upkeep_of_setUp_append setUp (by simp [Ledger.readCalls])) rfl⟩
  | @nothingPending es reply records available setUp read listed pending =>
      obtain ⟨c', m, like, idle', rfl, htexts⟩ := rows_of_setUp setUp idle answers
      have reads := Ledger.reads_of_recordsOf htexts read
      rw [Migrate.unrecorded_eq_outstanding listed reads] at pending
      exact ⟨c', [], idle', progress_of_nothing like
        (Migrate.upkeep_of_setUp_append setUp (by simp [Ledger.readCalls])) pending⟩
  | @noBatch es reply reply' records available e setUp read listed pending numbered =>
      obtain ⟨c', m, like, idle', hnumber, _⟩ := rows_of_setUp setUp idle answers
      rw [Database.answers_singleton] at hnumber
      obtain ⟨f, rfl⟩ := Ledger.batchOf_error numbered
      exact ⟨c', [], (L.numbered idle' hnumber).1, progress_of_failure like
        (Migrate.upkeep_of_setUp_append setUp (by simp [Ledger.readCalls])) rfl⟩
  | @carried es es' reply reply' records available batch r setUp read listed pending numbered
      carried =>
      obtain ⟨m₁, hreads, hblocks⟩ := Database.answers_append.1 answers
      obtain ⟨c', m₂, like, idle', hnumber, htexts⟩ := rows_of_setUp setUp idle hreads
      rw [Database.answers_singleton] at hnumber
      obtain ⟨rfl, lo, hi⟩ := batch_of_numbered idle' hnumber numbered
      rw [like.rows] at lo hi carried ⊢
      rw [Migrate.unrecorded_eq_outstanding listed (Ledger.reads_of_recordsOf htexts read)]
        at pending carried ⊢
      exact progress_of_carried like (L.numbered idle' hnumber).1
        (fun name b hup => admissible_of_upBlock confines lo hi hup) pending
        (Migrate.upkeep_of_setUp_append setUp (by simp [Ledger.readCalls])) carried hblocks

end LedgerStore

end SchemaLedger
