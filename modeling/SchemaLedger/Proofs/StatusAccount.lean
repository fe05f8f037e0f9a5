import Mathlib.Data.List.Perm.Basic
import SchemaLedger.Migrate.Status
import SchemaLedger.Proofs.Rerun

/-!
# A status accounts for everything once

What a source has and what a ledger records are matched three times, each time in a way of
its own. A status looks up the record of each migration, and then the migration of each
record; what is pending is what is left of the migrations without those of the records. Over
records with names of their own these agree, `accounts_entries`: the first matching is a left
join, the second the rest of the records, and together they have every record once.

A status and a question for what is pending read the ledger in the same way and call nothing
else. So they see the same records, and these are what `apply` goes by as well.
-/

namespace SchemaLedger

/-! ## What a status says -/

/-- The name, the batch and the time that an entry knows from a record. -/
def MigrationStatus.recorded? : MigrationStatus → Option (Name × Int × Moment)
  | ⟨_, .pending⟩ => none
  | ⟨name, .applied batch appliedAt⟩ => some (name, batch, appliedAt)
  | ⟨name, .missing batch appliedAt⟩ => some (name, batch, appliedAt)

/-- The name, the batch and the time of a record. -/
def Record.essence (r : Record) : Name × Int × Moment := (r.name, r.batch, r.appliedAt)

namespace Migrate

/-- The entries account for what is available and for the records. First comes one entry for
each name that is available, then one for each record of another name. No name has two
entries. The pending ones are those without a record, and the others have the records. -/
structure Accounts (available : List Name) (records : List Record)
    (statuses : List MigrationStatus) : Prop where
  listed : (statuses.take available.length).map (·.name) = available
  present : ∀ x ∈ statuses.take available.length, ∀ batch appliedAt,
    x.state ≠ .missing batch appliedAt
  missing : statuses.drop available.length =
    (records.filter (·.name ∉ available)).map fun r => ⟨r.name, .missing r.batch r.appliedAt⟩
  once : (statuses.map (·.name)).Nodup
  names (name : Name) : name ∈ statuses.map (·.name) ↔
    name ∈ available ∨ name ∈ records.map (·.name)
  pending : (statuses.filter (·.state = .pending)).map (·.name) =
    available.filter (· ∉ records.map (·.name))
  recorded : (statuses.filterMap MigrationStatus.recorded?).Perm (records.map Record.essence)

/-! ## The record of a name -/

section

variable {records : List Record} {name : Name} {r : Record}

theorem recordOf?_eq_none_iff :
    recordOf? records name = none ↔ name ∉ records.map (·.name) := by
  simp [recordOf?]

theorem of_recordOf? (h : recordOf? records name = some r) : r ∈ records ∧ r.name = name :=
  ⟨List.mem_reverse.1 (List.mem_of_find?_eq_some h), by simpa using List.find?_some h⟩

/-- Where names are not there twice, the last record of a name is the only one. -/
theorem recordOf?_eq_some_iff (distinct : (records.map (·.name)).Nodup) :
    recordOf? records name = some r ↔ r ∈ records ∧ r.name = name := by
  refine ⟨of_recordOf?, fun ⟨hr, hname⟩ => ?_⟩
  cases h : recordOf? records name with
  | none =>
      exact absurd (hname ▸ List.mem_map_of_mem hr) (recordOf?_eq_none_iff.1 h)
  | some q =>
      obtain ⟨hq, hqname⟩ := of_recordOf? h
      rw [List.inj_on_of_nodup_map distinct hq hr (hqname.trans hname.symm)]

theorem name_statusOf (records : List Record) (name : Name) :
    (statusOf records name).name = name := by
  unfold statusOf
  split <;> rfl

theorem state_statusOf_eq_pending_iff :
    (statusOf records name).state = .pending ↔ name ∉ records.map (·.name) := by
  rw [← recordOf?_eq_none_iff, statusOf]
  cases recordOf? records name <;> simp

theorem recorded?_statusOf (records : List Record) (name : Name) :
    (statusOf records name).recorded? = (recordOf? records name).map Record.essence := by
  unfold statusOf
  cases h : recordOf? records name with
  | none => rfl
  | some r =>
      obtain ⟨_, rfl⟩ := of_recordOf? h
      rfl

theorem lost_eq (available : List Name) (records : List Record) :
    lost available records = records.filter (·.name ∉ available) := by
  refine List.filter_congr fun r _ => ?_
  rw [Bool.eq_iff_iff, decide_eq_true_eq, Bool.not_eq_true', List.any_eq_false]
  simp only [decide_eq_true_eq]
  exact ⟨fun h hmem => h r.name hmem rfl, fun h name hmem heq => h (heq ▸ hmem)⟩

end

/-! ## The three ways agree -/

/-- The entries of a status: those of the names, and those of the records that are left. -/
def entries (available : List Name) (records : List Record) : List MigrationStatus :=
  available.map (statusOf records) ++ (lost available records).map lostStatus

section

variable {available : List Name} {records : List Record}

theorem map_name_statusOf : (available.map (statusOf records)).map (·.name) = available := by
  rw [List.map_map]
  exact (List.map_congr_left fun name _ => name_statusOf records name).trans (List.map_id _)

theorem map_name_entries : (entries available records).map (·.name) =
    available ++ (records.filter (·.name ∉ available)).map (·.name) := by
  rw [entries, List.map_append, map_name_statusOf, lost_eq, List.map_map]
  rfl

theorem take_entries :
    (entries available records).take available.length = available.map (statusOf records) :=
  List.take_left' (List.length_map _)

theorem drop_entries :
    (entries available records).drop available.length = (lost available records).map lostStatus :=
  List.drop_left' (List.length_map _)

theorem nodup_names_entries (listed : available.Nodup)
    (distinct : (records.map (·.name)).Nodup) :
    ((entries available records).map (·.name)).Nodup := by
  rw [map_name_entries, List.nodup_append]
  refine ⟨listed, nodup_map_filter distinct _, fun n hn m hm heq => ?_⟩
  obtain ⟨r, hr, rfl⟩ := List.mem_map.1 hm
  rw [List.mem_filter, decide_eq_true_eq] at hr
  exact hr.2 (heq ▸ hn)

theorem mem_names_entries {name : Name} : name ∈ (entries available records).map (·.name) ↔
    name ∈ available ∨ name ∈ records.map (·.name) := by
  rw [map_name_entries, List.mem_append, List.mem_map, List.mem_map]
  simp only [List.mem_filter, decide_eq_true_eq]
  constructor
  · rintro (h | ⟨r, ⟨hr, _⟩, hname⟩)
    · exact .inl h
    · exact .inr ⟨r, hr, hname⟩
  · rintro (h | ⟨r, hr, rfl⟩)
    · exact .inl h
    · by_cases hmem : r.name ∈ available
      · exact .inl hmem
      · exact .inr ⟨r, ⟨hr, hmem⟩, rfl⟩

/-- The pending entries are those of the names that have no record. -/
theorem pending_entries : ((entries available records).filter (·.state = .pending)).map (·.name) =
    available.filter (· ∉ records.map (·.name)) := by
  have hlost : ((lost available records).map lostStatus).filter (·.state = .pending) = [] := by
    refine List.filter_eq_nil_iff.2 fun x hx => ?_
    obtain ⟨r, _, rfl⟩ := List.mem_map.1 hx
    simp [lostStatus]
  rw [entries, List.filter_append, hlost, List.append_nil, List.filter_map, map_name_statusOf]
  refine List.filter_congr fun name _ => ?_
  simp only [Function.comp, state_statusOf_eq_pending_iff]

/-- The records that are found for the names are those of the names. -/
theorem perm_filterMap_recordOf? (listed : available.Nodup)
    (distinct : (records.map (·.name)).Nodup) :
    (available.filterMap (recordOf? records)).Perm (records.filter (·.name ∈ available)) := by
  have hfound : (available.filterMap (recordOf? records)).Nodup := by
    refine listed.filterMap fun n m r hn hm => ?_
    rw [← (of_recordOf? hn).2, ← (of_recordOf? hm).2]
  have hof : (records.filter (·.name ∈ available)).Nodup := (List.Nodup.of_map _ distinct).filter _
  refine (List.perm_ext_iff_of_nodup hfound hof).2 fun r => ?_
  simp only [List.mem_filterMap, recordOf?_eq_some_iff distinct, List.mem_filter,
    decide_eq_true_eq]
  exact ⟨fun ⟨_, hname, hr, heq⟩ => ⟨hr, heq ▸ hname⟩, fun ⟨hr, hname⟩ => ⟨_, hname, hr, rfl⟩⟩

/-- Every record is found for a name or is left over. -/
theorem perm_recorded_entries (listed : available.Nodup)
    (distinct : (records.map (·.name)).Nodup) :
    ((entries available records).filterMap MigrationStatus.recorded?).Perm
      (records.map Record.essence) := by
  have hfound : (available.map (statusOf records)).filterMap MigrationStatus.recorded? =
      (available.filterMap (recordOf? records)).map Record.essence := by
    rw [List.filterMap_map, List.map_filterMap]
    exact List.filterMap_congr fun name _ => recorded?_statusOf records name
  have hlost : ((lost available records).map lostStatus).filterMap MigrationStatus.recorded? =
      (records.filter (·.name ∉ available)).map Record.essence := by
    rw [List.filterMap_map, lost_eq]
    exact congrFun (List.filterMap_eq_map (f := Record.essence)) _
  rw [entries, List.filterMap_append, hfound, hlost, ← List.map_append]
  refine List.Perm.map _ (((perm_filterMap_recordOf? listed distinct).append_right _).trans ?_)
  simpa using List.filter_append_perm (fun r : Record => decide (r.name ∈ available)) records

/-- The entries of a status account for what is available and for the records. -/
theorem accounts_entries (listed : available.Nodup) (distinct : (records.map (·.name)).Nodup) :
    Accounts available records (entries available records) where
  listed := by rw [take_entries, map_name_statusOf]
  present x hx batch appliedAt := by
    rw [take_entries] at hx
    obtain ⟨name, _, rfl⟩ := List.mem_map.1 hx
    unfold statusOf
    split <;> exact nofun
  missing := by
    rw [drop_entries, lost_eq]
    rfl
  once := nodup_names_entries listed distinct
  names _ := mem_names_entries
  pending := pending_entries
  recorded := perm_recorded_entries listed distinct

end

end Migrate

/-! ## Reading the ledger -/

namespace Migrate

variable {σ : Type} {source : Source} {available : List Name}

theorem remarkLost_admits {records : List Record} {es : List Exchange}
    {r : Except MigrateError Unit} (h : (remarkLost records).Admits es r) :
    es = [] ∧ r = .ok () := by
  induction records with
  | nil => exact Work.admits_pure.1 h
  | cons first rest ih => exact ih (Work.admits_remark_bind.1 h)

/-- A status calls what it takes to read the ledger. -/
theorem status_hold (listed : source.list = .ok available) (table : String) (db : Database σ)
    (s : σ) :
    ((status source table).hold db s).exchanges =
        ((Ledger.recordsIfPresent table).hold db s).exchanges ∧
      ((status source table).hold db s).state =
        ((Ledger.recordsIfPresent table).hold db s).state ∧
      ((status source table).hold db s).result =
        ((Ledger.recordsIfPresent table).hold db s).result.bind fun records =>
          .ok (entries available records) := by
  unfold status
  rw [listed]
  refine Work.hold_bind_of_silent (w := Ledger.recordsIfPresent table) (fun h => ?_) db s
  obtain ⟨r, hremark, rfl⟩ := Work.admits_bind_pure.1 h
  obtain ⟨rfl, rfl⟩ := remarkLost_admits hremark
  exact ⟨rfl, rfl⟩

theorem unrecorded_eq (available : List Name) (records : List Record) :
    unrecorded available records = available.filter (· ∉ records.map (·.name)) := by
  refine List.filter_congr fun name _ => ?_
  rw [Bool.eq_iff_iff]
  simp

end Migrate

/-! ## A status and applying -/

namespace LedgerStore

open Migrate

variable {σ ω : Type} {db : Database σ} {table : String} {L : LedgerStore db table ω}

/-- A call of `apply` that succeeds reports all that was outstanding. -/
theorem applied_of_ok {source : Source} {c : Content ω} {s : σ} {report : ApplyReport}
    (idle : L.Idle c s) (ok : ((apply source table).hold db s).result = .ok report) :
    report.applied = outstanding source c.rows := by
  have run := apply_admits ((apply source table).hold_admits db s)
  have answers := (apply source table).hold_answers db s
  rw [ok] at run
  generalize ((apply source table).hold db s).exchanges = es at run answers
  generalize hr : (Except.ok report : Except MigrateError ApplyReport) = r at run
  cases run with
  | notSetUp | notRead | notListed | noBatch => cases hr
  | nothingPending setUp read listed nothing =>
      cases hr
      obtain ⟨_, _, _, _, _, htexts⟩ := rows_of_setUp setUp idle answers
      rw [← unrecorded_eq_outstanding listed (Ledger.reads_of_recordsOf htexts read), nothing]
  | @carried es es' reply reply' records available batch r setUp read listed =>
      obtain ⟨m, hreads, _⟩ := Database.answers_append.1 answers
      obtain ⟨_, _, _, _, _, htexts⟩ := rows_of_setUp setUp idle hreads
      rw [← unrecorded_eq_outstanding listed (Ledger.reads_of_recordsOf htexts read)]
      cases r <;> cases hr
      rfl

/-- Over a ledger in which no name is there twice, a status that is not refused accounts for
all names that the source lists, in the order of their bytes, and for all records, in the
order of their ids, and leaves everything as it is. Its pending entries are what is pending, and
what a call of `apply` from a state that holds the same reports if it succeeds. -/
theorem status_accounts_once (L : LedgerStore db table ω) {source : Source}
    {available : List Name} {records : List Record} {c : Content ω} {s : σ} (idle : L.Idle c s)
    (provided : source.Provided) (listed : source.list = .ok available)
    (unique : (c.rows.map (·.name)).Nodup)
    (readable : Record.ofRows (c.rows.map Ledger.Row.texts) = .ok records)
    (accepted : ∀ x ∈ ((status source table).hold db s).exchanges, x.accepted) :
    ∃ statuses pendingNames, ((status source table).hold db s).result = .ok statuses ∧
      Accounts available records statuses ∧
      available.Pairwise (·.bytes < ·.bytes) ∧ records.Pairwise (·.id < ·.id) ∧
      (statuses.filter (·.state = .pending)).map (·.name) = pendingNames ∧
      ((pending source table).hold db s).result = .ok pendingNames ∧
      L.Idle c ((status source table).hold db s).state ∧
      ∀ s' report, L.Idle c s' → ((apply source table).hold db s').result = .ok report →
        report.applied = pendingNames := by
  have reads := Ledger.ofRows_texts readable
  have distinct : (records.map (·.name)).Nodup := by
    rw [← Ledger.names_of_reads reads] at unique
    exact .of_map Name.text (by rwa [List.map_map])
  have ascending : records.Pairwise (·.id < ·.id) := by
    have hrows := L.ascending idle.sound
    rw [idle.content, ← List.pairwise_map, ← Ledger.ids_of_reads reads] at hrows
    exact List.pairwise_map.1 hrows
  obtain ⟨hexchanges, hstate, hstatus⟩ := status_hold listed table db s
  rw [hexchanges] at accepted
  rw [records_of_accepted idle readable accepted] at hstatus
  have left : L.Idle c ((status source table).hold db s).state := by
    rw [hstate]
    exact (rows_of_read
      (recordsIfPresent_admits ((Ledger.recordsIfPresent table).hold_admits db s)) idle
      ((Ledger.recordsIfPresent table).hold_answers db s)).1
  have hpending := pending_of_accepted idle listed readable
    ((pending_hold source table db s).1 ▸ accepted)
  have accounts := accounts_entries (provided.ordered.nodup listed) distinct
  have hnames := accounts.pending
  rw [← unrecorded_eq, unrecorded_eq_outstanding listed reads] at hnames
  exact ⟨_, _, hstatus, accounts, provided.ordered _ listed, ascending, hnames, hpending, left,
    fun s' report idle' ok => applied_of_ok idle' ok⟩

/-! ## A migration in front of an applied one -/

section

open Store Connection

/-- The tables of a store after two migrations were applied, one after the other. -/
def laterTwo : Contents := ⟨⟨[], [("m", [⟨1, "b", 1⟩, ⟨2, "c", 2⟩])]⟩, [("m", 2)]⟩

/-- They hold two rows, in order. -/
theorem idle_laterTwo : smallStore.Idle
    ⟨some [Row.inLedger ⟨1, "b", 1⟩, Row.inLedger ⟨2, "c", 2⟩], ⟨[], []⟩⟩
    { contents := laterTwo } :=
  idle_of_numbered [⟨1, "b", 1⟩, ⟨2, "c", 2⟩] ⟨by decide, by decide, by decide⟩

theorem status_accepted {source : Source} {available : List Name} {k : Content Others}
    {c : Connection} (valid : Sql.isQualifiedName table = true) (idle : (view table).Idle k c)
    (listed : source.list = .ok available) :
    ∀ x ∈ ((status source table).hold database c).exchanges, x.accepted := by
  rw [(status_hold listed table database c).1]
  exact reading_accepted valid idle

/-- Of two migrations the first is pending and the second is applied, and a third one that is
applied is not there any more. -/
theorem status_accounts_once_of_laterTwo :
    ∃ records statuses, records.map (·.name.text) = ["b", "c"] ∧
      ((status twice.source "m").hold database { contents := laterTwo }).result = .ok statuses ∧
      Accounts [first, second] records statuses ∧
      ((pending twice.source "m").hold database { contents := laterTwo }).result = .ok [first] ∧
      ((apply twice.source "m").hold database { contents := laterTwo }).result =
        .ok ⟨some 3, [first]⟩ := by
  have names : twice.names = [first, second] := names_of_both asking asking
  have listed : twice.source.list = .ok [first, second] := congrArg Except.ok names
  obtain ⟨records, readable⟩ := readable_of_isSome
    [Row.inLedger ⟨1, "b", 1⟩, Row.inLedger ⟨2, "c", 2⟩] (by decide +kernel)
  have applies := (apply_asking idle_laterTwo (by rw [names]; decide) passesAll_twice
    (by rw [names]; decide) ((outstanding_of_list listed _).trans (by decide))
    (List.cons_ne_nil first []) readable (by decide)).1
  obtain ⟨statuses, pendingNames, hstatus, accounts, _, _, _, hpending, _, agrees⟩ :=
    status_accounts_once smallStore idle_laterTwo (.registry (registered_of_both asking asking))
      listed (by decide) readable (status_accepted (by decide) idle_laterTwo listed)
  obtain rfl : [first] = pendingNames := agrees _ _ idle_laterTwo applies
  exact ⟨records, statuses, Ledger.names_of_reads (Ledger.ofRows_texts readable), hstatus,
    accounts, hpending, applies⟩

end

end LedgerStore

end SchemaLedger
