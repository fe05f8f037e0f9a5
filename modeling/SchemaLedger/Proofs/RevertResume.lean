import SchemaLedger.Proofs.Undo

/-!
# Reverting is checked before it starts, and resumes after a failure

A call of `revert` knows the records of the last batch before it does anything else. It gets
all their definitions and compiles them, and if that fails for one of them the newest such
record decides on the failure, and nothing but the ledger has been looked at.

Otherwise the records are reverted in the order in which they are listed, up to the first
block that is not committed. What is gone then are the rows of the first records, by their
names; as no name is there twice, these are exactly the newest rows of the batch. The batch
is still the greatest one as long as a row of it is left, so that what a later call lists are
the remaining records: `newest_filter` is what makes it resume.
-/

namespace SchemaLedger

/-! ## Rows without the newest ones of the last batch -/

namespace Ledger

theorem mem_of_mem_newest {rows : List Row} {r : Row} (h : r ∈ newest rows) :
    r ∈ rows ∧ r.batch = lastBatch rows := by
  rw [newest, List.mem_filter, List.mem_reverse, decide_eq_true_eq] at h
  exact h

section

variable {rows : List Row} (distinct : (rows.map (·.name)).Nodup)

include distinct

theorem nodup_newest : (newest rows).Nodup :=
  (List.nodup_reverse.2 (List.Nodup.of_map _ distinct)).filter _

/-- Where names are different, to be without some names is to be without their rows. -/
theorem filter_names_notMem {gone : List Row} (subset : ∀ r ∈ gone, r ∈ rows) :
    rows.filter (·.name ∉ gone.map (·.name)) = rows.filter (· ∉ gone) := by
  refine List.filter_congr fun r hr => ?_
  have hmem : r.name ∈ gone.map (·.name) ↔ r ∈ gone := by
    constructor
    · intro h
      obtain ⟨q, hq, hname⟩ := List.mem_map.1 h
      rwa [← List.inj_on_of_nodup_map distinct (subset q hq) hr hname]
    · exact List.mem_map_of_mem
  simp only [hmem]

variable {k : Nat} (more : k < (newest rows).length)

include more

theorem lastBatch_filter :
    lastBatch (rows.filter (· ∉ (newest rows).take k)) = lastBatch rows := by
  -- The next row of the batch is one that is left.
  have hnext : (newest rows)[k] ∈ (newest rows).drop k := by
    rw [List.drop_eq_getElem_cons more]
    exact List.mem_cons_self
  rw [← filter_notMem_take (nodup_newest distinct), List.mem_filter] at hnext
  obtain ⟨hmem, hbatch⟩ := mem_of_mem_newest hnext.1
  exact lastBatch_of_greatest (fun r hr => batch_le_lastBatch (List.mem_of_mem_filter hr))
    (List.mem_filter.2 ⟨hmem, hnext.2⟩) hbatch

/-- Without some of the newest rows of the last batch, its newest rows are the others. -/
theorem newest_filter :
    newest (rows.filter (· ∉ (newest rows).take k)) = (newest rows).drop k := by
  rw [newest, lastBatch_filter distinct more, ← List.filter_reverse, List.filter_filter,
    ← filter_notMem_take (nodup_newest distinct) k]
  conv_rhs => rw [newest, List.filter_filter]
  exact List.filter_congr fun r _ => Bool.and_comm _ _

end

theorem exists_mem_filter_of_drop {rows : List Row} (distinct : (rows.map (·.name)).Nodup)
    {n : Nat} {name : String} (h : name ∈ ((newest rows).drop n).map (·.name)) :
    ∃ q ∈ rows.filter (· ∉ (newest rows).take n), q.name = name := by
  obtain ⟨q, hq, hname⟩ := List.mem_map.1 h
  rw [← filter_notMem_take (nodup_newest distinct), List.mem_filter] at hq
  exact ⟨q, List.mem_filter.2 ⟨(mem_of_mem_newest hq.1).1, hq.2⟩, hname⟩

end Ledger

/-! ## Definitions that are in order, and others -/

namespace Migrate

/-- Why a recorded migration cannot be reverted: the source does not have it, the source
cannot load it, or what takes it back does not compile. -/
inductive Irrevertible (source : Source) (name : Name) : MigrateError → Prop
  | missing {other : String} (load : source.load name = .error (.migrationNotFound other)) :
    Irrevertible source name (.missingMigration name)
  | unloadable {e : SourceError} (load : source.load name = .error e)
    (found : ∀ other, e ≠ .migrationNotFound other) : Irrevertible source name (.load name e)
  | uncompilable {definition : Definition} {e : SchemaError}
    (load : source.load name = .ok definition) (compile : definition.down.compile = .error e) :
    Irrevertible source name (.compile name e)

theorem irrevertible_of_error {source : Source} {name : Name} {e : MigrateError}
    (h : downBlock source name = .error e) : Irrevertible source name e := by
  unfold downBlock at h
  split at h
  · next d hload =>
      cases h
      cases d with
      | migrationNotFound other => exact .missing hload
      | _ => exact .unloadable hload (by simp)
  · next definition hload =>
      split at h
      · next d hcompile =>
          cases h
          exact .uncompilable hload hcompile
      · cases h

theorem revertible_of_ok {source : Source} {name : Name} {b : Block}
    (h : downBlock source name = .ok b) : Revertible source name := by
  unfold downBlock at h
  split at h
  · cases h
  · next definition hload =>
      split at h
      · cases h
      · next statements hcompile => exact ⟨definition, statements, hload, hcompile⟩

/-- The first of some records that cannot be reverted tells why none of them is. -/
theorem downBlocks_of_irrevertible {source : Source} {records : List Record}
    (h : ∃ r ∈ records, ¬ Revertible source r.name) :
    ∃ before r after e, records = before ++ r :: after ∧
      (∀ q ∈ before, Revertible source q.name) ∧ Irrevertible source r.name e ∧
      downBlocks source records = .error e := by
  induction records with
  | nil => simp at h
  | cons first rest ih =>
      cases hfirst : downBlock source first.name with
      | error e =>
          refine ⟨[], first, rest, e, rfl, by simp, irrevertible_of_error hfirst, ?_⟩
          rw [downBlocks_cons, hfirst]
          rfl
      | ok b =>
          have revertible := revertible_of_ok hfirst
          have hrest : ∃ r ∈ rest, ¬ Revertible source r.name := by
            obtain ⟨r, hr, hnot⟩ := h
            rcases List.mem_cons.1 hr with rfl | hr
            · exact absurd revertible hnot
            · exact ⟨r, hr, hnot⟩
          obtain ⟨before, r, after, e, rfl, hbefore, hirrevertible, hdown⟩ := ih hrest
          refine ⟨first :: before, r, after, e, rfl, List.forall_mem_cons.2 ⟨revertible, hbefore⟩,
            hirrevertible, ?_⟩
          rw [downBlocks_cons, hfirst, hdown]
          rfl

end Migrate

namespace LedgerStore

open Migrate

variable {σ ω : Type} {db : Database σ} {table : String} {L : LedgerStore db table ω}

/-! ## What is gone -/

theorem Executed.append {sts sts' : List String} {o₁ o₂ o₃ : ω} (h : L.Executed sts o₁ o₂)
    (h' : L.Executed sts' o₂ o₃) : L.Executed (sts ++ sts') o₁ o₃ := by
  induction h with
  | nil => exact h'
  | cons executes _ ih => exact .cons executes (ih h')

theorem Effects.executed {bs : List Block} {c c' : Content ω} (h : L.Effects bs c c') :
    L.Executed (bs.flatMap (·.statements)) c.objects c'.objects := by
  induction h with
  | @nil c c' like =>
      rw [like.objects]
      exact .nil c.objects
  | cons effect _ ih =>
      rw [List.flatMap_cons]
      exact effect.objects.append ih

theorem Effects.rows_of_removes {bs : List Block} {c c' : Content ω} (h : L.Effects bs c c')
    (removes : ∀ b ∈ bs, b.change = .remove) :
    c'.rows = c.rows.filter (·.name ∉ bs.map (·.name.text)) := by
  induction h with
  | nil like => rw [like.rows, List.filter_eq_self.2 (by simp)]
  | @cons b bs c₁ c₂ c₃ effect effects ih =>
      have updated := effect.rows
      rw [removes b List.mem_cons_self] at updated
      rw [ih fun d hd => removes d (List.mem_cons_of_mem b hd)]
      generalize c₂.rows = rows at updated
      cases updated with
      | removed found =>
          rw [List.filter_filter]
          refine List.filter_congr fun r _ => ?_
          rw [Bool.eq_iff_iff, Bool.and_eq_true]
          simp only [decide_eq_true_eq, List.map_cons, List.mem_cons, not_or, and_comm, ne_eq]

/-- When blocks are carried out in turn, one that fits what there is is only abandoned if
something is refused. -/
theorem carried_blocks {bs : List Block} {es : List Exchange} {r : Except MigrateError Unit}
    {c : Content ω} {s s' : σ} (admissible : ∀ b ∈ bs, L.Admissible b)
    (carried : Carried table (bs.map .ok) es r) (idle : L.Idle c s) (answers : db.Answers s es s') :
    ∃ c' done rest es₁ es₂, bs = done ++ rest ∧ es = es₁ ++ es₂ ∧ CommittedAll table done es₁ ∧
      L.Idle c' s' ∧ L.Effects done c c' ∧
      (rest = [] ∧ es₂ = [] ∧ r = .ok () ∨ ∃ b more e, rest = b :: more ∧
        b.Abandoned table es₂ e ∧ r = .error e ∧
        (Ledger.Fits c'.rows b.name b.change → ¬ ∀ x ∈ es₂, x.accepted)) := by
  obtain ⟨done, rest, es₁, es₂, hsplit, rfl, committed, ended⟩ := carried.split
  obtain ⟨done', rest', rfl, hdone, rfl⟩ := List.map_eq_append_iff.1 hsplit
  obtain rfl : done' = done :=
    (List.map_inj_right (f := (Except.ok : Block → Except MigrateError Block))
      fun _ _ => Except.ok.inj).1 hdone
  obtain ⟨m, hcommitted, hended⟩ := Database.answers_append.1 answers
  obtain ⟨c', idle', effects⟩ := effects_of_committedAll
    (fun b hb => admissible b (List.mem_append_left _ hb)) committed idle hcommitted
  refine ⟨c', done', rest', es₁, es₂, rfl, rfl, committed, ?_, effects, ?_⟩
  · refine idle_of_ended (fun b hb => ?_) ended idle' hended
    obtain ⟨d, hd, heq⟩ := List.mem_map.1 hb
    obtain rfl := Except.ok.inj heq
    exact admissible d (List.mem_append_right _ hd)
  · cases rest' with
    | nil =>
        cases ended with
        | done => exact .inl ⟨rfl, rfl, rfl⟩
    | cons b more =>
        cases ended with
        | @abandoned _ _ _ e abandoned =>
            exact .inr ⟨b, more, e, rfl, abandoned, rfl, fun fits accepted =>
              not_abandoned_of_accepted (admissible b (by simp)) fits idle' abandoned hended
                accepted⟩

/-! ## One call -/

/-- A call of `revert` from a state `s` with what `c` holds, where `listed` are the records of
the last batch: the blocks that revert them are `done` and `rest`, and what it has turned `c`
into by carrying out `done`. The rows of the records that were listed first are gone, and no
others; the statements of `done` are carried out, and no others. The block after these may
have been attempted, and the call fails just if it was. -/
structure RevertsPart (L : LedgerStore db table ω) (source : Source) (c c' : Content ω) (s : σ)
    (listed : List Record) (done rest : List Block) : Prop where
  idle : L.Idle c' ((revert source table).hold db s).state
  blocks : listed.map (fun r => downBlock source r.name) = (done ++ rest).map .ok
  rows : c'.rows = c.rows.filter (· ∉ (Ledger.newest c.rows).take done.length)
  objects : L.Executed (done.flatMap (·.statements)) c.objects c'.objects
  ended : ∃ es es', ((revert source table).hold db s).exchanges =
      ((lastBatch table).hold db s).exchanges ++ es ++ es' ∧ CommittedAll table done es ∧
    (rest = [] ∧ es' = [] ∧ ((revert source table).hold db s).result =
        .ok ⟨listed.head?.map (·.batch), listed.map (·.name)⟩ ∨
      ∃ b more e, rest = b :: more ∧ b.Abandoned table es' e ∧
        ((revert source table).hold db s).result = .error e)
  unrefused : (∀ x ∈ ((revert source table).hold db s).exchanges, x.accepted) → rest = []

/-- What a call of `revert` does from a state `s` where `listed` are the records of the last
batch. If one of them cannot be reverted, the first such record tells why, and the ledger has
been read and nothing else. Otherwise they are reverted in the order of the list. -/
structure RevertsListed (L : LedgerStore db table ω) (source : Source) (c : Content ω) (s : σ)
    (listed : List Record) : Prop where
  refused : (∃ r ∈ listed, ¬ Revertible source r.name) →
    ∃ before r after e, listed = before ++ r :: after ∧
      (∀ q ∈ before, Revertible source q.name) ∧ Irrevertible source r.name e ∧
      ((revert source table).hold db s).result = .error e ∧
      ((revert source table).hold db s).calls =
        [.relationExists table, .queryRows (Ledger.listQuery table)] ∧
      L.Idle c ((revert source table).hold db s).state
  carried : (∀ r ∈ listed, Revertible source r.name) →
    ∃ c' done rest, L.RevertsPart source c c' s listed done rest

/-- What the call for the last batch lists are the records of the newest rows. -/
theorem lastBatch_of_ok {c : Content ω} {s : σ} {listed : List Record} (idle : L.Idle c s)
    (list : ((lastBatch table).hold db s).result = .ok listed) :
    L.Idle c ((lastBatch table).hold db s).state ∧
      List.Forall₂ (fun r record => Record.ofRow r.texts = .ok record) (Ledger.newest c.rows)
        listed ∧
      (∃ records, Record.ofRows (c.rows.map Ledger.Row.texts) = .ok records) ∧
      (listed ≠ [] → ((lastBatch table).hold db s).calls =
        [.relationExists table, .queryRows (Ledger.listQuery table)]) := by
  obtain ⟨r, read, hr⟩ := lastBatch_admits ((lastBatch table).hold_admits db s)
  have answers := (lastBatch table).hold_answers db s
  rw [list] at hr
  cases r with
  | error e => cases hr
  | ok records =>
      obtain rfl := Except.ok.inj hr
      obtain ⟨idle', readable⟩ := rows_of_read read idle answers
      have rows := Ledger.ofRows_iff.1 (readable records rfl)
      refine ⟨idle', Ledger.forall₂_newest Ledger.ofRow_texts rows, ⟨records, readable _ rfl⟩,
        fun nonempty => ?_⟩
      unfold Outcome.calls
      generalize ((lastBatch table).hold db s).exchanges = es at read ⊢
      generalize hok : (Except.ok records : Except MigrateError (List Record)) = r at read
      cases read with
      | refused => cases hok
      | absent =>
          cases hok
          exact absurd rfl nonempty
      | present => rfl

/-- If nothing is refused, the call for the last batch lists what can be read. -/
theorem lastBatch_of_accepted {c : Content ω} {s : σ} {records : List Record}
    (idle : L.Idle c s) (readable : Record.ofRows (c.rows.map Ledger.Row.texts) = .ok records)
    (accepted : ∀ x ∈ ((lastBatch table).hold db s).exchanges, x.accepted) :
    ((lastBatch table).hold db s).result = .ok (newestBatch records) := by
  obtain ⟨r, read, hr⟩ := lastBatch_admits ((lastBatch table).hold_admits db s)
  have answers := (lastBatch table).hold_answers db s
  rw [hr, read_of_accepted idle read answers accepted readable]
  rfl

/-- Reverting begins with the call for the last batch. What follows depends on what that
lists. -/
theorem revert_of_listed (source : Source) {s : σ} {listed : List Record}
    (list : ((lastBatch table).hold db s).result = .ok listed) :
    ∃ es, ((revert source table).hold db s).exchanges =
        ((lastBatch table).hold db s).exchanges ++ es ∧
      db.Answers ((lastBatch table).hold db s).state es ((revert source table).hold db s).state ∧
      ((∃ e, downBlocks source listed = .error e ∧ es = [] ∧
          ((revert source table).hold db s).result = .error e) ∨
        ∃ bs r, downBlocks source listed = .ok bs ∧ Carried table (bs.map .ok) es r ∧
          ((revert source table).hold db s).result =
            r.map fun _ => ⟨listed.head?.map (·.batch), bs.map (·.name)⟩) := by
  rw [revert_eq_bind]
  obtain ⟨hresult, hstate, hexchanges⟩ :=
    Work.hold_bind_of_ok (f := revertListed source table) list
  refine ⟨_, hexchanges, ?_, ?_⟩
  · rw [hstate]
    exact Work.hold_answers db _ _
  · rw [hresult]
    exact revertListed_admits (Work.hold_admits db _ _)

theorem refused_of_irrevertible {source : Source} {c : Content ω} {s : σ} {listed : List Record}
    (idle : L.Idle c s) (list : ((lastBatch table).hold db s).result = .ok listed)
    (irrevertible : ∃ r ∈ listed, ¬ Revertible source r.name) :
    ∃ before r after e, listed = before ++ r :: after ∧
      (∀ q ∈ before, Revertible source q.name) ∧ Irrevertible source r.name e ∧
      ((revert source table).hold db s).result = .error e ∧
      ((revert source table).hold db s).calls =
        [.relationExists table, .queryRows (Ledger.listQuery table)] ∧
      L.Idle c ((revert source table).hold db s).state := by
  obtain ⟨idle', _, _, calls⟩ := lastBatch_of_ok idle list
  obtain ⟨es, hexchanges, answers, hend⟩ := revert_of_listed source list
  obtain ⟨before, r, after, e, hlisted, hbefore, hirrevertible, hdown⟩ :=
    downBlocks_of_irrevertible irrevertible
  rcases hend with ⟨e', hdown', rfl, hresult⟩ | ⟨bs, r', hdown', _⟩ <;> rw [hdown] at hdown' <;>
    cases hdown'
  refine ⟨before, r, after, e, hlisted, hbefore, hirrevertible, hresult, ?_, ?_⟩
  · rw [Outcome.calls, hexchanges, List.append_nil]
    exact calls (by simp [hlisted])
  · rw [Database.answers_nil] at answers
    rwa [answers]

theorem revertsPart_of_revertible {source : Source} {c : Content ω} {s : σ} {listed : List Record}
    (idle : L.Idle c s) (confines : L.Confines source) (distinct : (c.rows.map (·.name)).Nodup)
    (list : ((lastBatch table).hold db s).result = .ok listed)
    (revertible : ∀ r ∈ listed, Revertible source r.name) :
    ∃ c' done rest, L.RevertsPart source c c' s listed done rest := by
  obtain ⟨idle', rows, _, _⟩ := lastBatch_of_ok idle list
  obtain ⟨es, hexchanges, answers, hend⟩ := revert_of_listed source list
  have reads := Ledger.names_of_reads (rows.imp fun _ _ hr => Ledger.ofRow_texts hr)
  obtain ⟨bs, hbs⟩ := downBlocks_of_revertible revertible
  rcases hend with ⟨e', hdown', _⟩ | ⟨bs', r, hdown', carried, hresult⟩ <;> rw [hbs] at hdown' <;>
    cases hdown'
  have blocks : (listed.map (·.name)).map (downBlock source) = bs.map .ok := by
    rw [List.map_map]
    exact downBlocks_ok hbs
  obtain ⟨hnames, removes⟩ := names_of_blocks downBlock_ok blocks
  have htexts : bs.map (·.name.text) = (Ledger.newest c.rows).map (·.name) := by
    have hboth := congrArg (List.map Name.text) hnames
    rw [List.map_map, List.map_map] at hboth
    exact hboth.trans reads
  obtain ⟨c', done, rest, es₁, es₂, rfl, rfl, committed, idle'', effects, ended⟩ :=
    carried_blocks (admissible_of_downBlocks confines hbs) carried idle' answers
  have hdone : done.map (·.name.text) =
      ((Ledger.newest c.rows).take done.length).map (·.name) := by
    rw [List.map_take, ← htexts, List.map_append, List.take_left' (List.length_map _)]
  have hrows : c'.rows = c.rows.filter (· ∉ (Ledger.newest c.rows).take done.length) := by
    rw [effects.rows_of_removes fun b hb => removes b (List.mem_append_left _ hb), hdone]
    exact Ledger.filter_names_notMem distinct fun r hr =>
      (Ledger.mem_of_mem_newest (List.mem_of_mem_take hr)).1
  refine ⟨c', done, rest, idle'', downBlocks_ok hbs, hrows, effects.executed,
    ⟨es₁, es₂, by rw [hexchanges, List.append_assoc], committed, ?_⟩, fun accepted => ?_⟩
  · rcases ended with ⟨rfl, rfl, rfl⟩ | ⟨b, more, e, hrest, abandoned, rfl, _⟩
    · rw [hnames] at hresult
      exact .inl ⟨rfl, rfl, hresult⟩
    · exact .inr ⟨b, more, e, hrest, abandoned, hresult⟩
  · rcases ended with ⟨hnil, _⟩ | ⟨b, more, e, rfl, _, _, refused⟩
    · exact hnil
    · -- The row of the next record is still there, so its block was refused something.
      refine absurd (fun x hx => accepted x ?_) (refused ?_)
      · rw [hexchanges]
        simp [hx]
      · rw [removes b (by simp), hrows]
        refine Ledger.exists_mem_filter_of_drop distinct ?_
        rw [List.map_drop, ← htexts, List.map_append, List.drop_left' (List.length_map _)]
        exact List.mem_cons_self

theorem revertsListed_of_ok {source : Source} {c : Content ω} {s : σ} {listed : List Record}
    (idle : L.Idle c s) (confines : L.Confines source) (distinct : (c.rows.map (·.name)).Nodup)
    (list : ((lastBatch table).hold db s).result = .ok listed) :
    L.RevertsListed source c s listed where
  refused := refused_of_irrevertible idle list
  carried := revertsPart_of_revertible idle confines distinct list

/-! ## A call and the one after it -/

/-- A call of `revert` where the last batch can be listed, in a ledger in which no name is
there twice, as its table demands. What is listed are the records of the newest rows of the
greatest batch. If one of them cannot be reverted, the call fails before it starts. Otherwise
it reverts them in the order of the list, and if it stops before it has reverted all, what is
listed then are the remaining ones, and the same is true of a further call, over whatever
source. -/
theorem revert_resumes (L : LedgerStore db table ω) {source : Source} {c : Content ω} {s : σ}
    {listed : List Record} (idle : L.Idle c s) (confines : L.Confines source)
    (distinct : (c.rows.map (·.name)).Nodup)
    (list : ((lastBatch table).hold db s).result = .ok listed) :
    List.Forall₂ Ledger.Row.Reads (Ledger.newest c.rows) listed ∧
      L.RevertsListed source c s listed ∧
      ∀ c' done rest, L.RevertsPart source c c' s listed done rest → rest ≠ [] →
        ∀ m, L.Idle c' m → (∀ x ∈ ((lastBatch table).hold db m).exchanges, x.accepted) →
          ((lastBatch table).hold db m).result = .ok (listed.drop done.length) ∧
            ∀ source', L.Confines source' →
              L.RevertsListed source' c' m (listed.drop done.length) := by
  obtain ⟨_, rows, ⟨records, readable⟩, _⟩ := lastBatch_of_ok idle list
  refine ⟨rows.imp fun _ _ hr => Ledger.ofRow_texts hr,
    revertsListed_of_ok idle confines distinct list, ?_⟩
  intro c' done rest part nonempty m idle' accepted
  have more : done.length < (Ledger.newest c.rows).length := by
    have hlength := congrArg List.length part.blocks
    have hrest := List.length_pos_iff.2 nonempty
    rw [List.length_map, List.length_map, List.length_append] at hlength
    rw [rows.length_eq]
    omega
  have hnewest : Ledger.newest c'.rows = (Ledger.newest c.rows).drop done.length := by
    rw [part.rows, Ledger.newest_filter distinct more]
  obtain ⟨records', readable'⟩ : ∃ records',
      Record.ofRows (c'.rows.map Ledger.Row.texts) = .ok records' := by
    refine Ledger.readable_iff.2 fun r hr => Ledger.readable_iff.1 ⟨records, readable⟩ r ?_
    rw [part.rows] at hr
    exact List.mem_of_mem_filter hr
  have hlist : newestBatch records' = listed.drop done.length := by
    have rows' := Ledger.forall₂_newest Ledger.ofRow_texts (Ledger.ofRows_iff.1 readable')
    rw [hnewest] at rows'
    refine List.right_unique_forall₂' (fun r record record' h h' => ?_) rows'
      (List.forall₂_drop done.length rows)
    exact Except.ok.inj (h.symm.trans h')
  have list' := lastBatch_of_accepted idle' readable' accepted
  rw [hlist] at list'
  refine ⟨list', fun source' confines' => revertsListed_of_ok idle' confines' ?_ list'⟩
  rw [part.rows]
  exact nodup_map_filter distinct _

/-! ## A call that stops in the middle of a batch -/

section

open Store Connection

/-- The tables of a store after two migrations were applied in one batch. -/
def bothInOne : Contents := ⟨⟨[], [("m", [⟨1, "a", 1⟩, ⟨2, "b", 1⟩])]⟩, [("m", 2)]⟩

/-- They hold two rows, in order. -/
theorem idle_bothInOne : smallStore.Idle
    ⟨some [Row.inLedger ⟨1, "a", 1⟩, Row.inLedger ⟨2, "b", 1⟩], ⟨[], []⟩⟩
    { contents := bothInOne } :=
  idle_of_numbered [⟨1, "a", 1⟩, ⟨2, "b", 1⟩] ⟨by decide, by decide, by decide⟩

/-- A migration that takes a schema to revert, which is not there. -/
def stuck : Definition := { up := [], down := [.raw "CREATE SEQUENCE IF NOT EXISTS x.y"] }

/-- Two migrations. The second one can be reverted, and the first one cannot. -/
def stuckFirst : Registry := ⟨[(first, stuck), (second, asking)]⟩

/-- A statement that makes a sequence keeps to its transaction, and is refused for want of a
schema at most. -/
theorem confined_of_sequence {sql name : String} (valid : Sql.isQualifiedName table = true)
    (hsql : Statement.ofBatch sql = [.createSequence name]) :
    (ledgerStore table valid).Confined sql where
  accepted {k k' c c'} within h := by
    obtain ⟨r, hall, hr⟩ := performAll_of_batch hsql h
    rw [performAll] at hall
    rcases perform_createSequence (c := c) name with ⟨text, hs, _⟩ | hs <;> rw [hs] at hall
    · cases hall
      cases hr
    · cases hall
      exact ⟨k'.objects, within⟩
  refused {k k' c c' e} within h := by
    obtain ⟨r, hall, hr⟩ := performAll_of_batch hsql h
    rw [performAll] at hall
    rcases perform_createSequence (c := c) name with ⟨text, hs, _⟩ | hs <;> rw [hs] at hall
    · cases hall
      exact (ledgerStore table valid).rolledBack within
    · cases hall
      cases hr

theorem confines_stuckFirst : smallStore.Confines stuckFirst.source := by
  have valid : Sql.isQualifiedName "m" = true := by decide
  have asks : Statement.ofBatch "SELECT 1" = [.other] := by decide
  have makes : Statement.ofBatch "CREATE SEQUENCE IF NOT EXISTS x.y" = [.createSequence "x.y"] := by
    decide
  refine confines_of_entries valid ?_
  intro entry hentry schema hschema statements hcompile sql hsql
  rcases List.mem_pair.1 hentry with rfl | rfl <;>
    rcases List.mem_pair.1 hschema with rfl | rfl <;>
    obtain rfl := Except.ok.inj hcompile
  · cases hsql
  · obtain rfl := List.mem_singleton.1 hsql
    exact confined_of_sequence valid makes
  all_goals
    obtain rfl := List.mem_singleton.1 hsql
    exact confined_of_passes valid (by rw [Passes, asks]; simp)

theorem lastBatch_accepted {k : Content Others} {c : Connection} (idle : smallStore.Idle k c) :
    ∀ x ∈ ((lastBatch "m").hold database c).exchanges, x.accepted := by
  obtain ⟨r, read, _⟩ := lastBatch_admits ((lastBatch "m").hold_admits database c)
  have answers := (lastBatch "m").hold_answers database c
  exact (recordsIfPresent_accepted (by decide) idle read answers).1

/-- On a store with two rows of one batch, `revert` takes the second one away and stops at the
first one. What is listed then is the first one, and over a source in which it can be reverted
it is taken away as well. -/
theorem revert_resumes_of_stuck :
    ∃ listed c' done rest, ((lastBatch "m").hold database { contents := bothInOne }).result =
        .ok listed ∧ listed.map (·.name.text) = ["b", "a"] ∧
      smallStore.RevertsPart stuckFirst.source
        ⟨some [Row.inLedger ⟨1, "a", 1⟩, Row.inLedger ⟨2, "b", 1⟩], ⟨[], []⟩⟩ c'
        { contents := bothInOne } listed done rest ∧ c'.rows = [Row.inLedger ⟨1, "a", 1⟩] ∧
      smallStore.RevertsListed twice.source c'
        ((revert stuckFirst.source "m").hold database { contents := bothInOne }).state
        (listed.drop done.length) := by
  have hstate : ((revert stuckFirst.source "m").hold database { contents := bothInOne }).state =
      { contents := ⟨⟨[], [("m", [⟨1, "a", 1⟩])]⟩, [("m", 2)]⟩ } := by decide +kernel
  obtain ⟨records, readable⟩ := readable_of_isSome
    [Row.inLedger ⟨1, "a", 1⟩, Row.inLedger ⟨2, "b", 1⟩] (by decide +kernel)
  have list := lastBatch_of_accepted idle_bothInOne readable (lastBatch_accepted idle_bothInOne)
  obtain ⟨reads, reverts, resumes⟩ :=
    revert_resumes smallStore idle_bothInOne confines_stuckFirst (by decide) list
  generalize newestBatch records = listed at list reads reverts resumes
  have htexts : listed.map (·.name.text) = ["b", "a"] := Ledger.names_of_reads reads
  have revertible : ∀ r ∈ listed, Revertible stuckFirst.source r.name := by
    intro r hr
    have hmem : r.name.text ∈ listed.map (·.name.text) := List.mem_map_of_mem hr
    rw [htexts] at hmem
    rcases List.mem_pair.1 hmem with h | h
    · rw [Name.eq_of_text (b := second) h]
      exact revertible_asking (by decide)
    · rw [Name.eq_of_text (b := first) h]
      exact ⟨stuck, ["CREATE SEQUENCE IF NOT EXISTS x.y"], rfl, rfl⟩
  obtain ⟨c', done, rest, part⟩ := reverts.carried revertible
  have rows : c'.rows = [Row.inLedger ⟨1, "a", 1⟩] := by
    rw [← part.idle.content, hstate]
    rfl
  have left : rest ≠ [] := by
    rintro rfl
    have hdone := congrArg List.length part.blocks
    rw [List.append_nil, List.length_map, List.length_map, ← reads.length_eq] at hdone
    have gone := part.rows
    rw [rows, ← hdone] at gone
    exact absurd gone (by decide)
  exact ⟨listed, c', done, rest, list, htexts, part, rows,
    (resumes c' done rest part left _ part.idle (lastBatch_accepted part.idle)).2 _
      (confines_of_passesAll (by decide) passesAll_twice)⟩

end

end LedgerStore

end SchemaLedger
