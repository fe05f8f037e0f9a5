import SchemaLedger.Proofs.Undo

/-!
# Applying again changes nothing

A call of `apply` that succeeds leaves nothing outstanding, `Progress.outstanding_filter`, and
where nothing is outstanding a call of `apply` ends before its first block. So what it sends
is the set-up of the ledger and one query, and what the database holds stays as it is. This
does not depend on what the database answers; only that such a call succeeds does.

For that the rows that were added have to be read back. Their names and batches are ones that
were sent, so it is known that they can be read. Their ids and times come from the database,
and that these are `Legible` is all that is demanded of it.
-/

namespace SchemaLedger

/-! ## What is read back -/

namespace Ledger

/-- What a database has put into a row by itself can be read: an id of 64 bits, and a time. -/
structure Row.Legible (r : Row) : Prop where
  id : Text.int64Min ≤ r.id ∧ r.id ≤ Text.int64Max
  time : ∃ moment, Moment.ofText r.time = .ok moment

/-- A legible row can be read if its name is not empty and its batch is a number of 64 bits. -/
theorem Row.Legible.record {r : Row} (legible : r.Legible) (nonempty : r.name ≠ "")
    (batch : Text.int64Min ≤ r.batch ∧ r.batch ≤ Text.int64Max) :
    ∃ record, Record.ofRow r.texts = .ok record := by
  obtain ⟨moment, htime⟩ := legible.time
  refine ⟨⟨r.id, ⟨r.name, nonempty⟩, r.batch, moment⟩, ?_⟩
  have hname : Name.ofText? r.name = some ⟨r.name, nonempty⟩ := dif_neg nonempty
  simp only [Record.ofRow, Row.texts, Record.ofValues, hname, htime,
    number_of_bounds legible.id.1 legible.id.2, number_of_bounds batch.1 batch.2]
  rfl

/-- Rows that are added can be read where they are legible and there was room for their
batch. -/
theorem NewRows.readable {names : List Name} {rows new : List Row} {records : List Record}
    (added : NewRows (lastBatch rows + 1) names rows new)
    (readable : Record.ofRows (rows.map Row.texts) = .ok records)
    (room : new ≠ [] → lastBatch rows < Text.int64Max) (legible : ∀ r ∈ new, r.Legible) :
    ∃ records', Record.ofRows ((rows ++ new).map Row.texts) = .ok records' := by
  refine readable_iff.2 fun r hr => ?_
  rcases List.mem_append.1 hr with hr | hr
  · exact readable_iff.1 ⟨records, readable⟩ r hr
  · have lower := int64Min_le_lastBatch (ofRows_texts readable)
    have upper := room (List.ne_nil_of_mem hr)
    have nonempty : r.name ≠ "" := by
      have hname : r.name ∈ new.map (·.name) := List.mem_map_of_mem hr
      rw [added.names] at hname
      obtain ⟨name, _, htext⟩ := List.mem_map.1 hname
      rw [← htext]
      exact name.nonempty
    refine (legible r hr).record nonempty ?_
    rw [added.batch r hr]
    omega

theorem SetUp.calls_prefix {table : String} {es : List Exchange} {r : Except MigrateError Unit}
    (h : SetUp table es r) : es.map (·.call) <+: setupCalls table := by
  cases h with
  | invalidName invalid => exact List.nil_prefix
  | schemaRefused qualified =>
      rw [setupCalls, if_pos qualified]
      exact ⟨[.executeBatch (setupScript table)], rfl⟩
  | unqualified unqualified =>
      rw [setupCalls, if_neg (by simpa using unqualified)]
      exact List.prefix_rfl
  | qualified qualified =>
      rw [setupCalls, if_pos qualified]
      exact List.prefix_rfl

theorem execute_notMem_setupCalls (table sql : String) : .execute sql ∉ setupCalls table := by
  unfold setupCalls
  split <;> simp

theorem eq_of_executeBatch_mem_setupCalls {table sql : String}
    (h : .executeBatch sql ∈ setupCalls table) : sql = setupScript table := by
  unfold setupCalls at h
  split at h <;> simpa using h

end Ledger

namespace LedgerStore

open Migrate

variable {σ ω : Type} {db : Database σ} {table : String} {L : LedgerStore db table ω}

/-! ## Where nothing is outstanding -/

/-- A call of `apply` for nothing. It sends at most the set-up of the ledger and the query for
its rows, so neither the beginning nor the end of a transaction, nor a statement of a
migration, nor one that changes a record. -/
structure Fruitless (table : String) (o : Outcome σ (Except MigrateError ApplyReport)) :
    Prop where
  calls : o.calls <+: Ledger.setupCalls table ++ [.queryRows (Ledger.listQuery table)]
  execute (sql : String) : .execute sql ∉ o.calls
  executeBatch {sql : String} : .executeBatch sql ∈ o.calls → sql = Ledger.setupScript table

theorem fruitless_of_initial {o : Outcome σ (Except MigrateError ApplyReport)}
    (calls : o.calls <+: Ledger.setupCalls table ++ [.queryRows (Ledger.listQuery table)]) :
    Fruitless table o where
  calls := calls
  execute sql hmem := by
    rcases List.mem_append.1 (calls.subset hmem) with h | h
    · exact Ledger.execute_notMem_setupCalls table sql h
    · cases List.mem_singleton.1 h
  executeBatch {sql} hmem := by
    rcases List.mem_append.1 (calls.subset hmem) with h | h
    · exact Ledger.eq_of_executeBatch_mem_setupCalls h
    · cases List.mem_singleton.1 h

/-- Where nothing is outstanding, `apply` ends before the next batch is asked for. -/
theorem ended_of_nothing {source : Source} {available : List Name} {c : Content ω} {s s' : σ}
    {es : List Exchange} {r : Except MigrateError ApplyReport} (idle : L.Idle c s)
    (listed : source.list = .ok available) (nothing : outstanding source c.rows = [])
    (run : ApplyRun source table es r) (answers : db.Answers s es s') :
    (∃ e, r = .error e ∧ Ledger.SetUp table es (.error e)) ∨
      ∃ es' reply, es = es' ++ [⟨.queryRows (Ledger.listQuery table), reply⟩] ∧
        Ledger.SetUp table es' (.ok ()) ∧
        r = (Ledger.recordsOf reply).map fun _ => ⟨none, []⟩ := by
  -- What is read are the rows, so nothing is unrecorded either.
  have unrecorded {es' es'' : List Exchange} {reply : Except DatabaseError (List (List String))}
      {records : List Record} {available' : List Name} (setUp : Ledger.SetUp table es' (.ok ()))
      (read : Ledger.recordsOf reply = .ok records) (listed' : source.list = .ok available')
      (answers : db.Answers s (es' ++ ⟨.queryRows (Ledger.listQuery table), reply⟩ :: es'') s') :
      unrecorded available' records = [] := by
    obtain ⟨_, _, _, _, _, htexts⟩ := rows_of_setUp setUp idle answers
    rw [unrecorded_eq_outstanding listed' (Ledger.reads_of_recordsOf htexts read), nothing]
  cases run with
  | notSetUp setUp => exact .inl ⟨_, rfl, setUp⟩
  | notRead setUp read => exact .inr ⟨_, _, rfl, setUp, by rw [read]; rfl⟩
  | notListed setUp read listed' =>
      rw [listed] at listed'
      cases listed'
  | nothingPending setUp read => exact .inr ⟨_, _, rfl, setUp, by rw [read]; rfl⟩
  | noBatch setUp read listed' pending =>
      exact absurd (unrecorded setUp read listed' answers) pending
  | carried setUp read listed' pending =>
      rw [List.append_assoc, List.cons_append] at answers
      exact absurd (unrecorded setUp read listed' answers) pending

/-- So it is for nothing, and it leaves everything as it is but for a table that it may have
made. It succeeds if the rows can be read and nothing is refused. -/
theorem fruitless_of_nothing {source : Source} {available : List Name} {c : Content ω} {s : σ}
    (idle : L.Idle c s) (listed : source.list = .ok available)
    (nothing : outstanding source c.rows = []) :
    Fruitless table ((apply source table).hold db s) ∧
      (∃ c', L.Idle c' ((apply source table).hold db s).state ∧ c.Like c') ∧
      ∀ records, Sql.isQualifiedName table = true →
        Record.ofRows (c.rows.map Ledger.Row.texts) = .ok records →
        (∀ x ∈ ((apply source table).hold db s).exchanges, x.accepted) →
        ((apply source table).hold db s).result = .ok ⟨none, []⟩ := by
  have run := apply_admits ((apply source table).hold_admits db s)
  have answers := (apply source table).hold_answers db s
  rcases ended_of_nothing idle listed nothing run answers with
    ⟨e, result, setUp⟩ | ⟨es, reply, exchanges, setUp, result⟩
  · obtain ⟨c', like, idle'⟩ := like_of_setUp setUp idle answers
    refine ⟨fruitless_of_initial (setUp.calls_prefix.trans (List.prefix_append _ _)),
      ⟨c', idle', like⟩, fun records valid readable accepted => ?_⟩
    cases setUp.ok_of_accepted valid accepted
  · rw [exchanges] at answers ⊢
    obtain ⟨c', m, like, idle', hnil, htexts⟩ := rows_of_setUp setUp idle answers
    have state : ((apply source table).hold db s).state = m := hnil
    refine ⟨fruitless_of_initial ?_, ⟨c', state ▸ idle', like⟩,
      fun records valid readable accepted => ?_⟩
    · rw [Outcome.calls, exchanges, List.map_append, setUp.calls]
      exact List.prefix_rfl
    · obtain ⟨texts, rfl⟩ : ∃ texts, reply = .ok texts :=
        accepted ⟨.queryRows (Ledger.listQuery table), reply⟩ (by simp)
      rw [result, htexts texts rfl, Ledger.recordsOf, readable]
      rfl

/-- If nothing is refused, the rows are what is read. -/
theorem records_of_accepted {records : List Record} {c : Content ω} {s : σ} (idle : L.Idle c s)
    (readable : Record.ofRows (c.rows.map Ledger.Row.texts) = .ok records)
    (accepted : ∀ x ∈ ((Ledger.recordsIfPresent table).hold db s).exchanges, x.accepted) :
    ((Ledger.recordsIfPresent table).hold db s).result = .ok records :=
  read_of_accepted idle
    (recordsIfPresent_admits ((Ledger.recordsIfPresent table).hold_admits db s))
    ((Ledger.recordsIfPresent table).hold_answers db s) accepted readable

/-- If nothing is refused, what is pending is what is outstanding. -/
theorem pending_of_accepted {source : Source} {available : List Name} {records : List Record}
    {c : Content ω} {s : σ} (idle : L.Idle c s) (listed : source.list = .ok available)
    (readable : Record.ofRows (c.rows.map Ledger.Row.texts) = .ok records)
    (accepted : ∀ x ∈ ((pending source table).hold db s).exchanges, x.accepted) :
    ((pending source table).hold db s).result = .ok (outstanding source c.rows) := by
  obtain ⟨hexchanges, _, hresult⟩ := pending_hold source table db s
  rw [hexchanges] at accepted
  rw [hresult, records_of_accepted idle readable accepted, listed]
  exact congrArg Except.ok (unrecorded_eq_outstanding listed (Ledger.ofRows_texts readable))

/-! ## Calls one after the other -/

/-- Nothing is outstanding for a source that lists less than one for which nothing is. -/
theorem outstanding_of_subset {source other : Source} {available names : List Name}
    {rows : List Ledger.Row} (listed : source.list = .ok available)
    (nothing : outstanding source rows = []) (listed' : other.list = .ok names)
    (subset : names ⊆ available) : outstanding other rows = [] := by
  rw [outstanding_of_list listed, Ledger.lacking, List.filter_eq_nil_iff] at nothing
  rw [outstanding_of_list listed', Ledger.lacking, List.filter_eq_nil_iff]
  exact fun name hname => nothing name (subset hname)

/-- Calls of `apply`, one after the other, lead from one state to another one. Each is over a
source that lists some of the names `available`, and with any replies. -/
inductive Reruns (db : Database σ) (table : String) (available : List Name) :
    σ → List (Outcome σ (Except MigrateError ApplyReport)) → σ → Prop
  | stopped {s : σ} : Reruns db table available s [] s
  | again {s s' : σ} {source : Source} {names : List Name}
    {outcomes : List (Outcome σ (Except MigrateError ApplyReport))}
    (listed : source.list = .ok names) (subset : names ⊆ available)
    (behind : Reruns db table available ((apply source table).hold db s).state outcomes s') :
    Reruns db table available s ((apply source table).hold db s :: outcomes) s'

/-- From a state where nothing is outstanding, all of them are for nothing. -/
theorem Reruns.fruitless {source : Source} {available : List Name} {c : Content ω} {s s' : σ}
    {outcomes : List (Outcome σ (Except MigrateError ApplyReport))}
    (reruns : Reruns db table available s outcomes s') (idle : L.Idle c s)
    (listed : source.list = .ok available) (nothing : outstanding source c.rows = []) :
    (∀ o ∈ outcomes, Fruitless table o) ∧ (∃ c', L.Idle c' s' ∧ c.Like c') ∧
      ∀ records, Sql.isQualifiedName table = true →
        Record.ofRows (c.rows.map Ledger.Row.texts) = .ok records →
        ∀ o ∈ outcomes, (∀ x ∈ o.exchanges, x.accepted) → o.result = .ok ⟨none, []⟩ := by
  induction reruns generalizing c with
  | stopped => exact ⟨by simp, ⟨c, idle, .refl c⟩, by simp⟩
  | again listed' subset behind ih =>
      have nothing' := outstanding_of_subset listed nothing listed' subset
      obtain ⟨fruitless, ⟨c', idle', like⟩, succeeds⟩ := fruitless_of_nothing idle listed' nothing'
      rw [← like.rows] at nothing
      obtain ⟨others, ⟨c'', idle'', like'⟩, succeed⟩ := ih idle' nothing
      refine ⟨List.forall_mem_cons.2 ⟨fruitless, others⟩, ⟨c'', idle'', like.trans like'⟩,
        fun records valid readable => List.forall_mem_cons.2 ⟨?_, ?_⟩⟩
      · exact succeeds records valid readable
      · rw [← like.rows] at readable
        exact succeed records valid readable

/-- A call of `apply` that succeeds has left nothing outstanding, and if the rows that it has
added are legible, all rows can be read. -/
theorem settled_of_ok {source : Source} {c : Content ω} {s : σ} {report : ApplyReport}
    (idle : L.Idle c s) (confines : L.Confines source)
    (ok : ((apply source table).hold db s).result = .ok report) :
    ∃ c', L.Idle c' ((apply source table).hold db s).state ∧ outstanding source c'.rows = [] ∧
      ((∀ r ∈ c'.rows, r ∉ c.rows → r.Legible) →
        ∃ records, Record.ofRows (c'.rows.map Ledger.Row.texts) = .ok records) := by
  obtain ⟨available, records, listed, readable, room⟩ := found_of_ok idle ok
  obtain ⟨c', done, idle', progress⟩ := apply_progress idle confines
  rw [ok] at progress
  obtain ⟨hlength, happlied, _⟩ := progress.succeeded rfl
  have nothing : outstanding source c'.rows = _ := progress.outstanding_filter rfl
  rw [hlength, List.take_length, List.filter_eq_nil_iff.2 (by simp)] at nothing
  obtain ⟨new, hrows, added⟩ := progress.newRows
  rw [hlength, List.take_length, ← happlied] at added
  refine ⟨c', idle', nothing, fun legible => ?_⟩
  have hnew : ∀ r ∈ new, r ∉ c.rows := fun r hr hmem => added.fresh r hr r hmem rfl
  rw [hrows] at legible ⊢
  refine added.readable readable (fun nonempty => room fun hnil => nonempty ?_)
    fun r hr => legible r (List.mem_append_right _ hr) (hnew r hr)
  have hnames := added.names
  rw [hnil] at hnames
  exact List.map_eq_nil_iff.1 hnames

/-- Once a call of `apply` has succeeded, nothing is pending, and any number of further calls,
each over a source that lists no other names, are for nothing. They leave all rows and
everything else as it was, whatever is refused meanwhile. If the rows that the first call has
added are legible, each of them for which nothing is refused reports that it has applied
nothing, and nothing is pending behind any number of them either. -/
theorem reapplying_changes_nothing (L : LedgerStore db table ω) {source : Source} {c : Content ω}
    {s : σ} {report : ApplyReport} (idle : L.Idle c s) (confines : L.Confines source)
    (ok : ((apply source table).hold db s).result = .ok report) :
    ∃ c' available, L.Idle c' ((apply source table).hold db s).state ∧
      source.list = .ok available ∧
      ∀ outcomes s', Reruns db table available ((apply source table).hold db s).state outcomes s' →
        (∀ o ∈ outcomes, Fruitless table o) ∧
        (∃ c'', L.Idle c'' s' ∧ c''.rows = c'.rows ∧ c''.objects = c'.objects) ∧
        ((∀ r ∈ c'.rows, r ∉ c.rows → r.Legible) →
          (∀ o ∈ outcomes, (∀ x ∈ o.exchanges, x.accepted) → o.result = .ok ⟨none, []⟩) ∧
          ((∀ x ∈ ((pending source table).hold db s').exchanges, x.accepted) →
            ((pending source table).hold db s').result = .ok [])) := by
  obtain ⟨c', idle', nothing, readable⟩ := settled_of_ok idle confines ok
  obtain ⟨available, _, listed, _⟩ := found_of_ok idle ok
  have admits := (apply source table).hold_admits db s
  rw [ok] at admits
  refine ⟨c', available, idle', listed, fun outcomes s' reruns => ?_⟩
  obtain ⟨fruitless, ⟨c'', idle'', like⟩, succeed⟩ := reruns.fruitless idle' listed nothing
  refine ⟨fruitless, ⟨c'', idle'', like.rows, like.objects⟩, fun legible => ?_⟩
  obtain ⟨records, hrecords⟩ := readable legible
  refine ⟨succeed records (valid_of_ok admits) hrecords, fun accepted => ?_⟩
  rw [← like.rows] at hrecords nothing
  rw [pending_of_accepted idle'' listed hrecords accepted, nothing]

/-! ## Applying again on a store -/

section

open Store Connection

theorem reading_accepted {k : Content Others} {c : Connection}
    (valid : Sql.isQualifiedName table = true) (idle : (view table).Idle k c) :
    ∀ x ∈ ((Ledger.recordsIfPresent table).hold database c).exchanges, x.accepted :=
  (recordsIfPresent_accepted valid idle
    (recordsIfPresent_admits ((Ledger.recordsIfPresent table).hold_admits database c))
    ((Ledger.recordsIfPresent table).hold_answers database c)).1

theorem pending_accepted {source : Source} {k : Content Others} {c : Connection}
    (valid : Sql.isQualifiedName table = true) (idle : (view table).Idle k c) :
    ∀ x ∈ ((pending source table).hold database c).exchanges, x.accepted := by
  rw [(pending_hold source table database c).1]
  exact reading_accepted valid idle

/-- On an empty store, a call of `apply` with a migration, and two more. The last one is over a
source that lists nothing. -/
theorem reapplying_changes_nothing_of_empty_store :
    ((apply once.source "m").hold database {}).result = .ok ⟨some 1, [first]⟩ ∧
      ∃ o₁ o₂ s', Reruns database "m" [first] ((apply once.source "m").hold database {}).state
          [o₁, o₂] s' ∧
        o₁.result = .ok ⟨none, []⟩ ∧ o₂.result = .ok ⟨none, []⟩ ∧
        Ledger.namesOf (smallStore.content s').rows = ["a"] ∧
        ((pending once.source "m").hold database s').result = .ok [] := by
  have valid : Sql.isQualifiedName "m" = true := by decide
  have passes : PassesAll once := passesAll_of_asking (by simp [once])
  have confines := confines_of_passesAll valid passes
  have names : once.names = [first] := names_of_first asking
  have names₀ : Registry.names {} = [] := List.mergeSort_nil
  have pending₁ : outstanding once.source [] = [first] := by
    rw [outstanding_of_list (congrArg Except.ok names)]
    decide
  obtain ⟨ok, state⟩ := apply_asking (idle_empty "m") (by rw [names]; decide) passes
    (by rw [names]; decide) pending₁ (List.cons_ne_nil _ _) rfl (by decide)
  obtain ⟨k, available, idle, listed, settled⟩ :=
    reapplying_changes_nothing smallStore (idle_empty "m") confines ok
  cases (congrArg Except.ok names).symm.trans listed
  have rows : k.rows = [Row.inLedger ⟨1, "a", 1⟩] := by
    rw [← idle.content, state.trans behind_first]
    rfl
  have legible : ∀ r ∈ k.rows, r ∉ ([] : List Ledger.Row) → r.Legible := by
    intro r hr _
    rw [rows] at hr
    cases List.mem_singleton.1 hr
    exact ⟨by decide, ⟨_, rfl⟩⟩
  -- the two calls
  have passes₀ : PassesAll {} := fun entry hentry => by cases hentry
  have confines₀ := confines_of_passesAll valid passes₀
  obtain ⟨k₁, _, idle₁, _⟩ := apply_progress idle confines
  have accepted₁ := apply_accepted valid idle confines
    fun batch name b hup => passes_of_upBlock passes hup
  have accepted₂ := apply_accepted valid idle₁ confines₀
    fun batch name b hup => passes_of_upBlock passes₀ hup
  have last : Reruns database "m" [first]
      ((apply once.source "m").hold database ((apply once.source "m").hold database {}).state).state
      [(apply (Registry.source {}) "m").hold database _] _ :=
    .again (congrArg Except.ok names₀) (List.nil_subset _) .stopped
  have reruns := Reruns.again (congrArg Except.ok names) (List.Subset.refl _) last
  obtain ⟨_, ⟨k', idle', rows', _⟩, succeed⟩ := settled _ _ reruns
  obtain ⟨results, nothing⟩ := succeed legible
  refine ⟨ok, _, _, _, reruns, results _ List.mem_cons_self accepted₁,
    results _ (by simp) accepted₂, ?_, nothing (pending_accepted valid idle')⟩
  rw [idle'.content, rows', rows]
  rfl

end

end LedgerStore

end SchemaLedger
