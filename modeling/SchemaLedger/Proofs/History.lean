import Mathlib.Data.List.Chain
import SchemaLedger.Proofs.Reversal
import SchemaLedger.Proofs.Resume

/-!
# Histories of a ledger

A ledger starts without records and is then changed by calls of `apply` and `revert`, one at
a time, each with a source of its own and each perhaps failing somewhere. The names of a
ledger and their batches are in order after any such history: no name comes twice, batches
are numbered from 1 without a gap in the order of the records, and within a batch the names
ascend.

Two things keep this so. A call of `apply` adds rows at the end, of the batch behind the
last one, in the order in which its source lists them. A call of `revert` takes rows away
from the end, since the rows of the greatest batch are the last ones, and a beginning of
what is in order is in order.
-/

namespace SchemaLedger

/-! ## Names and batches in order -/

/-- The name and the batch of a record. -/
def Record.mark (r : Record) : String × Int := (r.name.text, r.batch)

namespace Ledger

/-- The name and the batch of a row. -/
def Row.mark (r : Row) : String × Int := (r.name, r.batch)

/-- Names and batches are in order. -/
structure InOrder (marks : List (String × Int)) : Prop where
  distinct : (marks.map (·.1)).Nodup
  first : ∀ p ∈ marks.head?, p.2 = 1
  next : marks.IsChain fun p q => q.2 = p.2 ∨ q.2 = p.2 + 1
  ascending : marks.Pairwise fun p q => p.2 = q.2 → Text.bytes p.1 < Text.bytes q.1

namespace InOrder

variable {marks marks' : List (String × Int)}

theorem nil : InOrder [] where
  distinct := List.nodup_nil
  first := by simp
  next := .nil
  ascending := .nil

/-- A beginning of what is in order is in order. -/
theorem of_begins (h : InOrder marks) (begins : marks' <+: marks) : InOrder marks' := by
  obtain ⟨rest, rfl⟩ := begins
  refine ⟨h.distinct.sublist ((List.sublist_append_left _ _).map _), fun p hp => ?_,
    h.next.left_of_append, (List.pairwise_append.1 h.ascending).1⟩
  refine h.first p ?_
  cases marks' with
  | nil => cases hp
  | cons q more => exact hp

theorem sorted (h : InOrder marks) : marks.Pairwise fun p q => p.2 ≤ q.2 := by
  have trans : Trans (fun p q : String × Int => p.2 ≤ q.2) (fun p q : String × Int => p.2 ≤ q.2)
      (fun p q : String × Int => p.2 ≤ q.2) := ⟨Int.le_trans⟩
  exact (h.next.imp fun p q hpq => by omega).pairwise

/-- The batches in use begin with 1, and none is left out. -/
theorem used (h : InOrder marks) {p : String × Int} (hp : p ∈ marks) :
    1 ≤ p.2 ∧ ∀ n, 1 ≤ n → n ≤ p.2 → ∃ q ∈ marks, q.2 = n := by
  -- The induction is on the end of the list, where batches are greatest.
  induction marks using List.reverseRecOn generalizing p with
  | nil => cases hp
  | append_singleton marks last ih =>
      have before {q : String × Int} (hq : q ∈ marks) :=
        ih (h.of_begins (List.prefix_append _ _)) hq
      rcases List.mem_append.1 hp with hp | hp
      · refine ⟨(before hp).1, fun n hn hle => ?_⟩
        obtain ⟨q, hq, hqn⟩ := (before hp).2 n hn hle
        exact ⟨q, List.mem_append_left _ hq, hqn⟩
      · obtain rfl := List.mem_singleton.1 hp
        have hlink := (List.isChain_append.1 h.next).2.2
        cases hlast : marks.getLast? with
        | none =>
            obtain rfl := List.getLast?_eq_none_iff.1 hlast
            have hone : p.2 = 1 := h.first p rfl
            exact ⟨by omega, fun n hn hle => ⟨p, List.mem_cons_self, by omega⟩⟩
        | some q =>
            have hq := List.mem_of_getLast? hlast
            have hpq : p.2 = q.2 ∨ p.2 = q.2 + 1 := hlink q hlast p rfl
            obtain ⟨hone, hall⟩ := before hq
            refine ⟨by omega, fun n hn hle => ?_⟩
            by_cases hnq : n ≤ q.2
            · obtain ⟨q', hq', hn'⟩ := hall n hn hnq
              exact ⟨q', List.mem_append_left _ hq', hn'⟩
            · exact ⟨p, hp |> List.mem_append_right _, by omega⟩

/-- What is added is in order if it is of the batch behind the last one and ascends. -/
theorem append {new : List (String × Int)} {n : Int} (h : InOrder marks)
    (le : ∀ p ∈ marks, p.2 ≤ n) (last : ∀ p ∈ marks.getLast?, p.2 = n) (empty : marks = [] → n = 0)
    (batch : ∀ p ∈ new, p.2 = n + 1) (distinct : ((marks ++ new).map (·.1)).Nodup)
    (ascending : new.Pairwise fun p q => Text.bytes p.1 < Text.bytes q.1) :
    InOrder (marks ++ new) where
  distinct := distinct
  first p hp := by
    cases marks with
    | nil =>
        rw [batch p (List.mem_of_mem_head? hp), empty rfl]
        rfl
    | cons q more => exact h.first p hp
  next := by
    refine h.next.append ?_ fun p hp q hq => ?_
    · refine (ascending.imp_of_mem fun {p q} hp hq _ => ?_).isChain
      exact .inl ((batch q hq).trans (batch p hp).symm)
    · rw [batch q (List.mem_of_mem_head? hq), last p hp]
      exact .inr rfl
  ascending := by
    have within : new.Pairwise fun p q => p.2 = q.2 → Text.bytes p.1 < Text.bytes q.1 :=
      ascending.imp fun {p q} hlt (_ : p.2 = q.2) => hlt
    refine List.pairwise_append.2 ⟨h.ascending, within, ?_⟩
    intro p hp q hq hpq
    have hle := le p hp
    have hbatch := batch q hq
    omega

end InOrder

theorem marks_of_reads {rows : List Row} {records : List Record}
    (h : List.Forall₂ Row.Reads rows records) : records.map Record.mark = rows.map Row.mark := by
  induction h with
  | nil => rfl
  | cons reads _ ih =>
      rw [List.map_cons, List.map_cons, Record.mark, Row.mark, reads.name, reads.batch, ih]

/-- Where batches do not decrease, that of the last row is the greatest. -/
theorem lastBatch_of_getLast? {rows : List Row} {r : Row}
    (sorted : rows.Pairwise fun r q => r.batch ≤ q.batch) (h : rows.getLast? = some r) :
    r.batch = lastBatch rows := by
  refine Int.le_antisymm (batch_le_lastBatch (List.mem_of_getLast? h)) ?_
  obtain ⟨before, rfl⟩ := List.getLast?_eq_some_iff.1 h
  cases hmax : ((before ++ [r]).map (·.batch)).max? with
  | none => simp at hmax
  | some n =>
      rw [lastBatch, hmax]
      obtain ⟨q, hq, rfl⟩ := List.mem_map.1 (List.max?_eq_some_iff.1 hmax).1
      rcases List.mem_append.1 hq with hq | hq
      · exact (List.pairwise_append.1 sorted).2.2 q hq r List.mem_cons_self
      · rw [List.mem_singleton.1 hq]
        exact Int.le_refl _

theorem InOrder.sorted_rows {rows : List Row} (h : InOrder (rows.map Row.mark)) :
    rows.Pairwise fun r q => r.batch ≤ q.batch := by
  have hsorted := h.sorted
  rw [List.pairwise_map] at hsorted
  exact hsorted

theorem InOrder.distinct_rows {rows : List Row} (h : InOrder (rows.map Row.mark)) :
    (rows.map (·.name)).Nodup := by
  have hdistinct := h.distinct
  rw [List.map_map] at hdistinct
  exact hdistinct

theorem InOrder.exists_of_le_lastBatch {rows : List Row} {n : Int}
    (h : InOrder (rows.map Row.mark)) (hone : 1 ≤ n) (hle : n ≤ lastBatch rows) :
    ∃ r ∈ rows, r.batch = n := by
  cases hlast : rows.getLast? with
  | none =>
      rw [List.getLast?_eq_none_iff.1 hlast] at hle
      exact absurd (Int.le_trans hone hle) (by decide)
  | some last =>
      have hmem := List.mem_of_getLast? hlast
      rw [← lastBatch_of_getLast? h.sorted_rows hlast] at hle
      obtain ⟨p, hp, hpn⟩ := (h.used (List.mem_map_of_mem hmem)).2 n hone hle
      obtain ⟨r, hr, rfl⟩ := List.mem_map.1 hp
      exact ⟨r, hr, hpn⟩

/-- Rows that are added keep names and batches in order if their names ascend. -/
theorem InOrder.newRows {rows new : List Row} {names : List Name}
    (h : InOrder (rows.map Row.mark)) (added : NewRows (lastBatch rows + 1) names rows new)
    (ascending : names.Pairwise (·.bytes < ·.bytes)) : InOrder ((rows ++ new).map Row.mark) := by
  rw [List.map_append]
  refine h.append (n := lastBatch rows) ?_ ?_ ?_ ?_ ?_ ?_
  · intro p hp
    obtain ⟨r, hr, rfl⟩ := List.mem_map.1 hp
    exact batch_le_lastBatch hr
  · intro p hp
    rw [List.getLast?_map, Option.mem_def, Option.map_eq_some_iff] at hp
    obtain ⟨r, hr, rfl⟩ := hp
    exact lastBatch_of_getLast? h.sorted_rows hr
  · intro hempty
    rw [List.map_eq_nil_iff.1 hempty]
    rfl
  · intro p hp
    obtain ⟨r, hr, rfl⟩ := List.mem_map.1 hp
    exact added.batch r hr
  · rw [← List.map_append, List.map_map]
    show ((rows ++ new).map (·.name)).Nodup
    rw [List.map_append, List.nodup_append]
    refine ⟨h.distinct_rows, added.distinct, fun a ha b hb => ?_⟩
    obtain ⟨q, hq, rfl⟩ := List.mem_map.1 ha
    obtain ⟨r, hr, rfl⟩ := List.mem_map.1 hb
    exact added.fresh r hr q hq
  · have hbytes : (new.map (·.name)).Pairwise (Text.bytes · < Text.bytes ·) := by
      rw [added.names]
      exact List.pairwise_map.2 ascending
    rw [List.pairwise_map] at hbytes ⊢
    exact hbytes

end Ledger

/-! ## Histories -/

namespace LedgerStore

open Migrate

variable {σ ω : Type} {db : Database σ} {table : String}

/-- Calls of `apply` and `revert`, one after the other, lead from one state to another one.
Each has a source of its own, and may end in any way. -/
inductive History (L : LedgerStore db table ω) (s : σ) : σ → Prop
  | start : History L s s
  | applied {m : σ} {source : Source} (before : History L s m) (provided : source.Provided)
    (confines : L.Confines source) : History L s ((apply source table).hold db m).state
  | reverted {m : σ} {source : Source} (before : History L s m) (provided : source.Provided)
    (confines : L.Confines source) : History L s ((revert source table).hold db m).state

variable {L : LedgerStore db table ω}

/-- One call of `apply`, with whatever end, keeps names and batches in order. -/
theorem inOrder_of_apply {source : Source} {c : Content ω} {s : σ} (idle : L.Idle c s)
    (ordered : source.Ordered) (confines : L.Confines source)
    (order : Ledger.InOrder (c.rows.map Ledger.Row.mark)) :
    ∃ c', L.Idle c' ((apply source table).hold db s).state ∧
      Ledger.InOrder (c'.rows.map Ledger.Row.mark) := by
  obtain ⟨c', done, idle', progress⟩ := apply_progress idle confines
  obtain ⟨new, hrows, hnew⟩ := progress.newRows
  refine ⟨c', idle', ?_⟩
  rw [hrows]
  refine order.newRows hnew ?_
  cases hlist : source.list with
  | error e =>
      rw [outstanding, hlist, List.take_nil]
      exact .nil
  | ok available =>
      rw [outstanding_of_list hlist]
      exact ((ordered available hlist).filter _).sublist (List.take_sublist _ _)

theorem inOrder_of_revert {source : Source} {c : Content ω} {s : σ} (idle : L.Idle c s)
    (confines : L.Confines source) (order : Ledger.InOrder (c.rows.map Ledger.Row.mark)) :
    ∃ c', L.Idle c' ((revert source table).hold db s).state ∧
      Ledger.InOrder (c'.rows.map Ledger.Row.mark) := by
  obtain ⟨c', done, idle', reversal⟩ := revert_reversal idle confines
  obtain ⟨gone, hrows⟩ := reversal.shortens order.distinct_rows order.sorted_rows
  refine ⟨c', idle', order.of_begins ⟨gone.map Ledger.Row.mark, ?_⟩⟩
  rw [← List.map_append, hrows]

theorem inOrder_of_history {c : Content ω} {s s' : σ} (idle : L.Idle c s)
    (order : Ledger.InOrder (c.rows.map Ledger.Row.mark)) (history : L.History s s') :
    ∃ c', L.Idle c' s' ∧ Ledger.InOrder (c'.rows.map Ledger.Row.mark) := by
  induction history with
  | start => exact ⟨c, idle, order⟩
  | applied before provided confines ih =>
      obtain ⟨c', idle', order'⟩ := ih
      exact inOrder_of_apply idle' provided.ordered confines order'
  | reverted before provided confines ih =>
      obtain ⟨c', idle', order'⟩ := ih
      exact inOrder_of_revert idle' confines order'

theorem reads_of_records {c : Content ω} {s : σ} {records : List Record} (idle : L.Idle c s)
    (h : ((Ledger.records table).hold db s).result = .ok records) :
    List.Forall₂ Ledger.Row.Reads c.rows records := by
  obtain ⟨reply, hes, hr⟩ := Ledger.records_admits ((Ledger.records table).hold_admits db s)
  have answers := (Ledger.records table).hold_answers db s
  rw [hes, Database.answers_singleton] at answers
  rw [h] at hr
  exact Ledger.reads_of_recordsOf (L.listed idle answers).2 hr.symm

/-- After any history of calls that started without records, the records of a ledger are in
order whenever they are read: their ids ascend, no name comes twice, the first batch is 1 and
each record has the batch of the one before it or the next number, so that the batches in use
are the numbers from 1 to some `k`, and the names of a batch ascend in the order of bytes. -/
theorem history_in_order (L : LedgerStore db table ω) {c : Content ω} {s s' : σ}
    (idle : L.Idle c s) (empty : c.rows = []) (history : L.History s s') :
    ∃ c', L.Idle c' s' ∧ c'.rows.Pairwise (·.id < ·.id) ∧
      Ledger.InOrder (c'.rows.map Ledger.Row.mark) ∧
      (∀ n, (∃ r ∈ c'.rows, r.batch = n) ↔ 1 ≤ n ∧ n ≤ Ledger.lastBatch c'.rows) ∧
      ∀ records, ((Ledger.records table).hold db s').result = .ok records →
        records.Pairwise (·.id < ·.id) ∧ Ledger.InOrder (records.map Record.mark) := by
  have start : Ledger.InOrder (c.rows.map Ledger.Row.mark) := by
    rw [empty]
    exact .nil
  obtain ⟨c', idle', order⟩ := inOrder_of_history idle start history
  have ids : c'.rows.Pairwise (·.id < ·.id) := by
    rw [← idle'.content]
    exact L.ascending idle'.sound
  refine ⟨c', idle', ids, order, fun n => ⟨?_, ?_⟩, fun records h => ?_⟩
  · rintro ⟨r, hr, rfl⟩
    exact ⟨(order.used (List.mem_map_of_mem hr)).1, Ledger.batch_le_lastBatch hr⟩
  · rintro ⟨hone, hle⟩
    exact order.exists_of_le_lastBatch hone hle
  · have reads := reads_of_records idle' h
    have hids : (records.map (·.id)).Pairwise (· < ·) := by
      rw [Ledger.ids_of_reads reads]
      exact List.pairwise_map.2 ids
    rw [List.pairwise_map] at hids
    rw [Ledger.marks_of_reads reads]
    exact ⟨hids, order⟩

open Store Connection in
/-- Two migrations are applied to an empty store, and then reverted. -/
theorem history_in_order_of_empty_store :
    ∃ r c₁ c₂,
      smallStore.Idle c₁ ((apply (Registry.source r) "m").hold Connection.database {}).state ∧
      Ledger.namesOf c₁.rows = ["a", "b"] ∧ Ledger.InOrder (c₁.rows.map Ledger.Row.mark) ∧
      smallStore.Idle c₂ ((revert (Registry.source r) "m").hold Connection.database
        ((apply (Registry.source r) "m").hold Connection.database {}).state).state ∧
      Ledger.InOrder (c₂.rows.map Ledger.Row.mark) := by
  let r : Registry := ⟨[(first, asking), (second, asking)]⟩
  have valid : Sql.isQualifiedName "m" = true := by decide
  have hnames : r.names = [first, second] := names_of_both asking asking
  have passes : PassesAll r := passesAll_of_asking (by simp [r])
  have confines := confines_of_passesAll valid passes
  have registered : r.Registered := registered_of_both asking asking
  have history : smallStore.History {} _ := .applied .start (.registry registered) confines
  obtain ⟨c₁, idle₁, _, order₁, _⟩ := history_in_order smallStore (idle_empty "m") rfl history
  obtain ⟨c₂, idle₂, _, order₂, _⟩ := history_in_order smallStore (idle_empty "m") rfl
    (history.reverted (.registry registered) confines)
  obtain ⟨report, hok⟩ := (apply_registry valid (idle_empty "m") rfl (by rw [hnames]; decide)
    passes).2.of_asking (by rw [hnames]; decide)
  have applies : smallStore.Applies [first, second] {} _ _ :=
    .intro confines fun names listed => by cases listed; exact hnames
  rw [hok] at applies
  refine ⟨r, c₁, c₂, idle₁, ?_, order₁, idle₂, order₂⟩
  rw [← idle₁.content, (applies.names_of_ok (idle_empty "m")).1]
  decide

end LedgerStore

end SchemaLedger
