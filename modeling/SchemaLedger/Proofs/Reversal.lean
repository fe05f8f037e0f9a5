import SchemaLedger.Proofs.Progress

/-!
# How far reverting gets

Reverting goes through the rows of the greatest batch from the newest one back, and takes
them away one by one. Whatever happens, what has been taken away are the first of these.

Where batches do not decrease from row to row, the rows of the greatest batch are the last
ones. So there reverting only ever takes rows away from the end of a ledger.
-/

namespace SchemaLedger

namespace Ledger

/-- The rows of the greatest batch, the newest first. -/
def newest (rows : List Row) : List Row := rows.reverse.filter (·.batch = lastBatch rows)

theorem batches_of_reads {rows : List Row} {records : List Record}
    (h : List.Forall₂ Row.Reads rows records) :
    records.map (·.batch) = rows.map (·.batch) := by
  induction h with
  | nil => rfl
  | cons reads _ ih => rw [List.map_cons, List.map_cons, reads.batch, ih]

/-- The records to be reverted are those of the rows of the greatest batch, in any sense in
which records are those of rows. -/
theorem forall₂_newest {R : Row → Record → Prop} {rows : List Row} {records : List Record}
    (reads : ∀ {r record}, R r record → r.Reads record) (h : List.Forall₂ R rows records) :
    List.Forall₂ R (newest rows) (Migrate.newestBatch records) := by
  have hbatches := batches_of_reads (h.imp fun _ _ => reads)
  cases records with
  | nil =>
      cases h
      exact .nil
  | cons first rest =>
      have hgreatest : rest.foldl (fun n r => max n r.batch) first.batch = lastBatch rows := by
        rw [lastBatch, ← hbatches, List.map_cons, List.max?_cons', Option.getD_some,
          List.foldl_map]
      simp only [Migrate.newestBatch, Migrate.greatestBatch?, hgreatest]
      refine List.rel_filter ?_ (List.forall₂_reverse_iff.2 h)
      intro row record hr
      simp [(reads hr).batch]

theorem reads_newest {rows : List Row} {records : List Record}
    (h : List.Forall₂ Row.Reads rows records) :
    List.Forall₂ Row.Reads (newest rows) (Migrate.newestBatch records) :=
  forall₂_newest id h

/-- Without the rows of the last name there are the rows before it, if none of these has it. -/
theorem filter_append_singleton {rows : List Row} {r : Row} (fresh : ∀ q ∈ rows, q.name ≠ r.name) :
    (rows ++ [r]).filter (·.name ≠ r.name) = rows := by
  rw [List.filter_append, List.filter_eq_self.2, List.filter_eq_nil_iff.2, List.append_nil]
  · intro q hq
    simp [List.mem_singleton.1 hq]
  · intro q hq
    simpa using fresh q hq

/-- Taking away the record of the last row leaves the rows before it. -/
theorem Updated.rows_of_last {name : Name} {kept after : List Row} {last : Row}
    (h : Updated name .remove (kept ++ [last]) after) (hlast : name.text = last.name)
    (fresh : ∀ q ∈ kept, q.name ≠ last.name) : after = kept := by
  cases h with
  | removed found => rw [hlast, filter_append_singleton fresh]

/-- Of rows whose batches do not increase, those of the greatest one are the first. -/
theorem filter_begins {rows : List Row} {n : Int}
    (sorted : rows.Pairwise fun r q => q.batch ≤ r.batch) (le : ∀ r ∈ rows, r.batch ≤ n) :
    rows.filter (·.batch = n) <+: rows := by
  induction rows with
  | nil => exact List.prefix_rfl
  | cons r rest ih =>
      rw [List.pairwise_cons] at sorted
      by_cases hr : r.batch = n
      · rw [List.filter_cons_of_pos (by simpa using hr), List.prefix_cons_inj]
        exact ih sorted.2 fun q hq => le q (List.mem_cons_of_mem r hq)
      · rw [List.filter_eq_nil_iff.2]
        · exact List.nil_prefix
        · intro q hq
          have hle := le r List.mem_cons_self
          rw [decide_eq_true_eq]
          rcases List.mem_cons.1 hq with rfl | hq
          · exact hr
          · have hqr := sorted.1 q hq
            omega

/-- Where batches do not decrease, the rows of the greatest one are the last ones. -/
theorem newest_begins {rows : List Row} (sorted : rows.Pairwise fun r q => r.batch ≤ q.batch) :
    newest rows <+: rows.reverse :=
  filter_begins (List.pairwise_reverse.2 sorted) fun _ hr =>
    batch_le_lastBatch (List.mem_reverse.1 hr)

end Ledger

namespace LedgerStore

open Migrate

variable {σ ω : Type} {db : Database σ} {table : String} {L : LedgerStore db table ω}

/-- Blocks that revert migrations of a source whose statements are confined. -/
theorem admissible_of_downBlock {source : Source} {name : Name} {b : Block}
    (confines : L.Confines source) (h : downBlock source name = .ok b) : L.Admissible b := by
  have hchange := (downBlock_ok h).2
  refine ⟨?_, fun n hn => by rw [hchange] at hn; cases hn⟩
  unfold downBlock at h
  split at h
  · cases h
  · next definition hload =>
      split at h
      · cases h
      · next statements hcompile =>
          cases h
          exact confines.down hload hcompile

theorem admissible_of_downBlocks {source : Source} {records : List Record} {bs : List Block}
    (confines : L.Confines source) (h : downBlocks source records = .ok bs) :
    ∀ b ∈ bs, L.Admissible b := by
  intro b hb
  have hmem : (.ok b : Except MigrateError Block) ∈ bs.map .ok := List.mem_map_of_mem hb
  rw [← downBlocks_ok h] at hmem
  obtain ⟨record, _, hdown⟩ := List.mem_map.1 hmem
  exact admissible_of_downBlock confines hdown

/-- A call of `revert` has committed the blocks `done`, which revert the first of the rows of
the greatest batch, and has turned `c` into `c'` by that. -/
structure Reversal (L : LedgerStore db table ω) (source : Source) (c c' : Content ω)
    (done : List Block) : Prop where
  blocks : ∃ names : List Name,
    names.map (·.text) = ((Ledger.newest c.rows).take done.length).map (·.name) ∧
      names.map (downBlock source) = done.map .ok
  effects : L.Effects done c c'

theorem Reversal.refl (L : LedgerStore db table ω) (source : Source) (c : Content ω) :
    L.Reversal source c c [] where
  blocks := ⟨[], rfl, rfl⟩
  effects := .nil (.refl c)

/-- However a call of `revert` ends, it has reverted the first of the rows of the greatest
batch and nothing else, and the database holds just that. -/
theorem revert_reversal {source : Source} {c : Content ω} {s : σ} (idle : L.Idle c s)
    (confines : L.Confines source) :
    ∃ c' done, L.Idle c' ((revert source table).hold db s).state ∧
      L.Reversal source c c' done := by
  have run := revert_admits ((revert source table).hold_admits db s)
  have answers := (revert source table).hold_answers db s
  generalize ((revert source table).hold db s).exchanges = es at run answers
  generalize ((revert source table).hold db s).result = r at run
  generalize ((revert source table).hold db s).state = s' at answers ⊢
  cases run with
  | notRead read | nothingApplied read | notCompiled read =>
      exact ⟨c, [], (rows_of_read read idle answers).1, .refl L source c⟩
  | @carried es es' records bs first r read newest compiled carried =>
      obtain ⟨m, hread, hblocks⟩ := Database.answers_append.1 answers
      obtain ⟨idle', hrows⟩ := rows_of_read read idle hread
      have reads := Ledger.ofRows_texts (hrows records rfl)
      have blocks := downBlocks_ok compiled
      have admissible : ∀ b, (.ok b : Except MigrateError Block) ∈ bs.map .ok →
          L.Admissible b := by
        intro b hb
        obtain ⟨_, hd, heq⟩ := List.mem_map.1 hb
        cases heq
        exact admissible_of_downBlocks confines compiled b hd
      obtain ⟨c', done, rest, es₁, es₂, hsplit, rfl, _, _, idle'', effects⟩ :=
        effects_of_carried admissible carried idle' hblocks
      refine ⟨c', done, idle'',
        ⟨((newestBatch records).take done.length).map (·.name), ?_, ?_⟩, effects⟩
      · rw [List.map_map, List.map_take, List.map_take,
          ← Ledger.names_of_reads (Ledger.reads_newest reads)]
        rfl
      · rw [List.map_map, List.map_take]
        show ((newestBatch records).map fun r => downBlock source r.name).take done.length = _
        rw [blocks, hsplit, List.take_left' (List.length_map _)]

/-! ## Rows that are taken away -/

/-- Blocks that take away the records of the last rows, the newest first, leave the rows
before these. -/
theorem Effects.rows_of_removed {bs : List Block} {c c' : Content ω} {kept gone : List Ledger.Row}
    (h : L.Effects bs c c') (rows : c.rows = kept ++ gone) (distinct : (c.rows.map (·.name)).Nodup)
    (removes : ∀ b ∈ bs, b.change = .remove)
    (names : bs.map (·.name.text) = gone.reverse.map (·.name)) : c'.rows = kept := by
  induction h generalizing gone with
  | nil like =>
      have hgone : gone = [] := by simpa using names.symm
      rw [like.rows, rows, hgone, List.append_nil]
  | @cons b bs c₁ c₂ c₃ effect effects ih =>
      obtain rfl | ⟨more, last, rfl⟩ := List.eq_nil_or_concat gone
      · cases names
      · rw [List.concat_eq_append] at rows names
        rw [List.reverse_append, List.reverse_singleton, List.singleton_append, List.map_cons,
          List.map_cons, List.cons.injEq] at names
        obtain ⟨hlast, hmore⟩ := names
        have updated := effect.rows
        rw [removes b List.mem_cons_self] at updated
        rw [rows, ← List.append_assoc] at distinct
        have fresh : ∀ q ∈ kept ++ more, q.name ≠ last.name := by
          rw [List.map_append, List.nodup_append] at distinct
          exact fun q hq => distinct.2.2 q.name (List.mem_map_of_mem hq) last.name (by simp)
        have hrows : c₂.rows = kept ++ more := by
          rw [rows, ← List.append_assoc] at updated
          exact updated.rows_of_last hlast fresh
        refine ih hrows ?_ (fun d hd => removes d (List.mem_cons_of_mem b hd)) hmore
        rw [hrows]
        exact distinct.sublist ((List.sublist_append_left _ _).map _)

/-- Where names are different and batches do not decrease, reverting takes rows away from the
end. -/
theorem Reversal.shortens {source : Source} {c c' : Content ω} {done : List Block}
    (h : L.Reversal source c c' done) (distinct : (c.rows.map (·.name)).Nodup)
    (sorted : c.rows.Pairwise fun r q => r.batch ≤ q.batch) : c'.rows <+: c.rows := by
  obtain ⟨names, hnames, hblocks⟩ := h.blocks
  have htake := List.take_prefix done.length (Ledger.newest c.rows)
  obtain ⟨rest, hrest⟩ := htake.trans (Ledger.newest_begins sorted)
  have rows : c.rows = rest.reverse ++ ((Ledger.newest c.rows).take done.length).reverse := by
    rw [← List.reverse_append, hrest, List.reverse_reverse]
  have blocks := names_of_blocks downBlock_ok hblocks
  refine ⟨_, ((h.effects.rows_of_removed rows distinct blocks.2 ?_) ▸ rows).symm⟩
  rw [List.reverse_reverse, ← hnames, ← blocks.1, List.map_map]
  rfl

end LedgerStore

end SchemaLedger
