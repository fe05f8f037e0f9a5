import SchemaLedger.Proofs.StoreAccepts

/-!
# A plan tells what applying does

Planning asks whether the ledger is there and reads it if it is; applying makes it first and
then reads it. Planning compiles all migrations before it has a result; applying compiles
each when its turn comes, with the blocks of others committed in between. So it has to be
shown that the two agree. They do over every database that keeps the ledger, provided that
it refuses nothing while migrations are applied: a plan lists what is sent in which block, and
a plan that fails at a migration tells that applying fails there, with the same failure, and
what is committed before.
-/

namespace SchemaLedger

/-! ## Planning -/

/-- The block that applies a planned migration. -/
def Planned.block (batch : Int) (p : Planned) : Block := ⟨p.name, p.statements, .record batch⟩

namespace Migrate

/-- What planning goes through, and how it ends. -/
inductive PlanRun (source : Source) (table : String) :
    List Exchange → Except MigrateError (List Planned) → Prop
  | notRead {es : List Exchange} {e : MigrateError} (read : Read table es (.error e)) :
    PlanRun source table es (.error e)
  | notListed {es : List Exchange} {records : List Record} {e : SourceError}
    (read : Read table es (.ok records)) (listed : source.list = .error e) :
    PlanRun source table es (.error (.discovery e))
  | planned {es : List Exchange} {records : List Record} {available : List Name}
    {planned : List Planned} (read : Read table es (.ok records))
    (listed : source.list = .ok available)
    (blocks : ∀ batch, (unrecorded available records).map (upBlock source batch) =
      (planned.map (·.block batch)).map .ok) :
    PlanRun source table es (.ok planned)
  | missing {es : List Exchange} {records : List Record} {available before after : List Name}
    {name : Name} {e : MigrateError} (read : Read table es (.ok records))
    (listed : source.list = .ok available)
    (pending : unrecorded available records = before ++ name :: after)
    (blocks : ∀ batch, ∃ bs : List Block, before.map (upBlock source batch) = bs.map .ok)
    (missing : ∀ batch, upBlock source batch name = .error e) :
    PlanRun source table es (.error e)

/-- Planning calls nothing once it knows what is pending. It succeeds if there is a block for
each migration, and otherwise ends with the failure of the first that has none. -/
theorem planAll_admits {source : Source} {names : List Name} {es : List Exchange}
    {r : Except MigrateError (List Planned)} (h : (planAll source names).Admits es r) :
    es = [] ∧
      ((∃ planned, r = .ok planned ∧ ∀ batch, names.map (upBlock source batch) =
          (planned.map (·.block batch)).map .ok) ∨
        ∃ before name after e, r = .error e ∧ names = before ++ name :: after ∧
          (∀ batch, ∃ bs : List Block, before.map (upBlock source batch) = bs.map .ok) ∧
          ∀ batch, upBlock source batch name = .error e) := by
  induction names generalizing es r with
  | nil =>
      obtain ⟨rfl, rfl⟩ := Work.admits_pure.1 h
      exact ⟨rfl, .inl ⟨[], rfl, fun _ => rfl⟩⟩
  | cons name rest ih =>
      rcases Work.admits_bind.1 h with ⟨e, rfl, hup⟩ | ⟨es₁, sts, es₂, rfl, hup, hrest⟩
      · have hname := fun batch => (upStatements_admits hup batch).2
        exact ⟨(upStatements_admits hup 0).1, .inr ⟨[], name, rest, e, rfl, rfl,
          fun _ => ⟨[], rfl⟩, hname⟩⟩
      · obtain ⟨rfl, _⟩ := upStatements_admits hup 0
        have hname (batch : Int) : upBlock source batch name = .ok ⟨name, sts, .record batch⟩ :=
          (upStatements_admits hup batch).2
        obtain ⟨r', ha, rfl⟩ := Work.admits_bind_pure.1 hrest
        obtain ⟨rfl, ⟨planned, rfl, hblocks⟩ | ⟨before, other, after, e, rfl, rfl, hblocks, he⟩⟩ :=
          ih ha
        · refine ⟨rfl, .inl ⟨⟨name, sts⟩ :: planned, rfl, fun batch => ?_⟩⟩
          rw [List.map_cons, List.map_cons, List.map_cons, hname, hblocks]
          rfl
        · refine ⟨rfl, .inr ⟨name :: before, other, after, e, rfl, rfl, fun batch => ?_, he⟩⟩
          obtain ⟨bs, hbs⟩ := hblocks batch
          exact ⟨⟨name, sts, .record batch⟩ :: bs, by rw [List.map_cons, List.map_cons, hname, hbs]⟩

theorem plan_admits {source : Source} {table : String} {es : List Exchange}
    {r : Except MigrateError (List Planned)} (h : (plan source table).Admits es r) :
    PlanRun source table es r := by
  rcases Work.admits_bind.1 h with ⟨e, rfl, hp⟩ | ⟨es₁, names, es₂, rfl, hp, hall⟩ <;>
    rcases Work.admits_bind.1 hp with ⟨d, hd, hr⟩ | ⟨es₃, records, es₄, rfl, hr, hn⟩
  · cases hd
    exact .notRead (recordsIfPresent_admits hr)
  · obtain ⟨rfl, ⟨f, listed, hf⟩ | ⟨available, listed, hf⟩⟩ := pendingAfter_admits hn <;> cases hf
    rw [List.append_nil]
    exact .notListed (recordsIfPresent_admits hr) listed
  · cases hd
  · obtain ⟨rfl, ⟨f, listed, hf⟩ | ⟨available, listed, hf⟩⟩ := pendingAfter_admits hn <;> cases hf
    obtain ⟨rfl, ⟨planned, rfl, blocks⟩ | ⟨before, name, after, e, rfl, pending, blocks, he⟩⟩ :=
      planAll_admits hall <;> rw [List.append_nil, List.append_nil]
    · exact .planned (recordsIfPresent_admits hr) listed blocks
    · exact .missing (recordsIfPresent_admits hr) listed pending blocks he

theorem Read.migration {table : String} {es : List Exchange} {e : MigrateError}
    (h : Read table es (.error e)) : e.migration? = none := by
  generalize hr : (Except.error e : Except MigrateError (List Record)) = r at h
  cases h with
  | refused =>
      cases hr
      rfl
  | absent => cases hr
  | present =>
      obtain ⟨f, rfl⟩ := Ledger.recordsOf_error hr.symm
      rfl

/-- Reading asks whether the ledger is there, and then at most for its rows. -/
theorem Read.calls {table : String} {es : List Exchange}
    {r : Except MigrateError (List Record)} (h : Read table es r) :
    es.map (·.call) = [.relationExists table] ∨
      es.map (·.call) = [.relationExists table, .queryRows (Ledger.listQuery table)] := by
  cases h with
  | refused | absent => exact .inl rfl
  | present => exact .inr rfl

end Migrate

namespace LedgerStore

open Migrate

variable {σ ω : Type} {db : Database σ} {table : String} {L : LedgerStore db table ω}

/-! ## What a plan tells -/

theorem plan_calls (db : Database σ) (source : Source) (table : String) (s : σ) :
    ((plan source table).hold db s).calls = [.relationExists table] ∨
      ((plan source table).hold db s).calls =
        [.relationExists table, .queryRows (Ledger.listQuery table)] := by
  have run := plan_admits ((plan source table).hold_admits db s)
  unfold Outcome.calls
  generalize ((plan source table).hold db s).exchanges = es at run ⊢
  generalize ((plan source table).hold db s).result = r at run
  cases run with
  | notRead read | notListed read | planned read | missing read => exact read.calls

/-- The migrations of a plan that succeeds are those that are pending, and have the planned
blocks. -/
theorem planned_of_ok {source : Source} {c : Content ω} {s : σ} {planned : List Planned}
    (idle : L.Idle c s) (h : ((plan source table).hold db s).result = .ok planned) :
    ∃ available records, source.list = .ok available ∧
      Record.ofRows (c.rows.map Ledger.Row.texts) = .ok records ∧
      ∀ batch, (outstanding source c.rows).map (upBlock source batch) =
        (planned.map (·.block batch)).map .ok := by
  have run := plan_admits ((plan source table).hold_admits db s)
  have answers := (plan source table).hold_answers db s
  rw [h] at run
  generalize ((plan source table).hold db s).exchanges = es at run answers
  generalize hr : (Except.ok planned : Except MigrateError (List Planned)) = r at run
  cases run with
  | notRead | notListed | missing => cases hr
  | @planned records available planned read listed blocks =>
      cases hr
      have readable := (rows_of_read read idle answers).2 records rfl
      rw [unrecorded_eq_outstanding listed (Ledger.ofRows_texts readable)] at blocks
      exact ⟨available, records, listed, readable, blocks⟩

/-- A plan that fails because of a migration does so at the first that is pending and has no
block. -/
theorem missing_of_error {source : Source} {c : Content ω} {s : σ} {e : MigrateError}
    {name : Name} (idle : L.Idle c s) (h : ((plan source table).hold db s).result = .error e)
    (he : e.migration? = some name) :
    ∃ available records before after, source.list = .ok available ∧
      Record.ofRows (c.rows.map Ledger.Row.texts) = .ok records ∧
      outstanding source c.rows = before ++ name :: after ∧
      ∀ batch, (∃ bs : List Block, before.map (upBlock source batch) = bs.map .ok) ∧
        upBlock source batch name = .error e := by
  have run := plan_admits ((plan source table).hold_admits db s)
  have answers := (plan source table).hold_answers db s
  rw [h] at run
  generalize ((plan source table).hold db s).exchanges = es at run answers
  generalize hr : (Except.error e : Except MigrateError (List Planned)) = r at run
  cases run with
  | notRead read =>
      cases hr
      rw [read.migration] at he
      cases he
  | notListed =>
      cases hr
      cases he
  | planned => cases hr
  | @missing records available before after name' f read listed pending blocks missing =>
      cases hr
      have hname := upBlock_error (missing 0)
      rw [he] at hname
      cases hname
      have readable := (rows_of_read read idle answers).2 records rfl
      rw [unrecorded_eq_outstanding listed (Ledger.ofRows_texts readable)] at pending
      exact ⟨available, records, before, after, listed, readable, pending,
        fun batch => ⟨blocks batch, missing batch⟩⟩

/-! ## Planning a registry where there is no ledger -/

section

open Store Connection

variable {c : Connection} {k : Content Others} {r : Registry}

theorem read_absent {c' : Connection} {es : List Exchange}
    {result : Except MigrateError (List Record)} (valid : Sql.isQualifiedName table = true)
    (idle : (ledgerStore table valid).Idle k c) (absent : k.ledger = none)
    (read : Read table es result) (answers : Connection.database.Answers c es c') :
    result = .ok [] := by
  cases read with
  | refused =>
      rw [Database.answers_singleton] at answers
      obtain ⟨b, hb⟩ := present_accepted answers
      cases hb
  | absent => rfl
  | present =>
      obtain ⟨m, hexists, _⟩ := Database.answers_cons.1 answers
      have hpresent := ((ledgerStore table valid).present idle hexists).2 true rfl
      rw [absent] at hpresent
      cases hpresent

/-- Planning a registry depends only on its blocks where there is no ledger. -/
theorem plan_registry (valid : Sql.isQualifiedName table = true)
    (idle : (ledgerStore table valid).Idle k c) (absent : k.ledger = none) :
    DependsOnBlocks r ((plan r.source table).hold Connection.database c).result := by
  have run := plan_admits ((plan r.source table).hold_admits Connection.database c)
  have answers := (plan r.source table).hold_answers Connection.database c
  generalize ((plan r.source table).hold Connection.database c).exchanges = es at run answers
  generalize ((plan r.source table).hold Connection.database c).result = result at run ⊢
  cases run with
  | @planned records available planned read listed blocks =>
      cases listed
      cases read_absent valid idle absent read answers
      have hall : unrecorded r.names [] = r.names := List.filter_eq_self.2 (by simp)
      rw [hall] at blocks
      exact .inl ⟨planned, rfl, fun name hname => exists_block_of_mem (blocks 1) hname⟩
  | @missing records available before after name e read listed pending blocks missing =>
      cases listed
      have hmem : name ∈ unrecorded r.names records := by
        rw [pending]
        simp
      exact .inr ⟨e, name, rfl, List.mem_of_mem_filter hmem, missing 1⟩
  | notListed read listed => cases listed
  | notRead read => cases read_absent valid idle absent read answers

end

/-! ## The prediction -/

/-- The first migration without a block is the same in whatever way it is found. -/
theorem split_unique {source : Source} {batch : Int} {before before' after after' : List Name}
    {name : Name} {e : MigrateError} (h : before ++ name :: after = before' ++ after')
    (hbefore : ∀ n ∈ before, ∃ b, upBlock source batch n = .ok b)
    (hbefore' : ∀ n ∈ before', ∃ b, upBlock source batch n = .ok b)
    (missing : upBlock source batch name = .error e)
    (missing' : ∀ n ∈ after'.head?, ∃ f, upBlock source batch n = .error f) :
    before' = before ∧ after' = name :: after := by
  induction before generalizing before' with
  | nil =>
      cases before' with
      | nil => exact ⟨rfl, h.symm⟩
      | cons n more =>
          obtain ⟨b, hb⟩ := hbefore' n List.mem_cons_self
          obtain ⟨rfl, _⟩ := List.cons.inj h
          rw [missing] at hb
          cases hb
  | cons n rest ih =>
      cases before' with
      | nil =>
          obtain ⟨b, hb⟩ := hbefore n List.mem_cons_self
          obtain ⟨f, hf⟩ := missing' n (by rw [← List.nil_append after', ← h]; rfl)
          rw [hf] at hb
          cases hb
      | cons n' rest' =>
          obtain ⟨rfl, hrest⟩ := List.cons.inj h
          obtain ⟨rfl, hafter⟩ := ih hrest (fun m hm => hbefore m (List.mem_cons_of_mem n hm))
            fun m hm => hbefore' m (List.mem_cons_of_mem n hm)
          exact ⟨rfl, hafter⟩

/-- A plan tells what applying does from the same state, if nothing is refused then. Sources
list no name twice, as `Source.Provided.ordered` says of all that there are, and the batches
of a ledger are 32-bit integers, so that there is always `room` for the next one among those
of 64 bits.

Planning only asks whether the ledger is there, and at most reads it. If it succeeds, applying
sends each planned migration in one block, with the planned statements, in the planned order,
and nothing else; it reports these migrations, and the number behind the greatest batch. If
planning fails because a migration cannot be loaded or does not compile, applying commits
those that are pending before it, and then fails in the same way. -/
theorem plan_predicts_apply (L : LedgerStore db table ω) {source : Source} {c : Content ω} {s : σ}
    (idle : L.Idle c s) (valid : Sql.isQualifiedName table = true) (confines : L.Confines source)
    (distinct : ∀ names, source.list = .ok names → names.Nodup)
    (room : Ledger.lastBatch c.rows < Text.int64Max) :
    (((plan source table).hold db s).calls = [.relationExists table] ∨
        ((plan source table).hold db s).calls =
          [.relationExists table, .queryRows (Ledger.listQuery table)]) ∧
      ((∀ x ∈ ((apply source table).hold db s).exchanges, x.accepted) →
        (∀ planned, ((plan source table).hold db s).result = .ok planned →
          planned.map (·.name) = outstanding source c.rows ∧
            ((apply source table).hold db s).result =
              .ok ⟨if planned = [] then none else some (Ledger.lastBatch c.rows + 1),
                planned.map (·.name)⟩ ∧
            ((apply source table).hold db s).calls = applyCalls table (planned.map (·.name))
              (planned.map (·.block (Ledger.lastBatch c.rows + 1))) ∧
            ∃ c', L.Idle c' ((apply source table).hold db s).state ∧
              L.Effects (planned.map (·.block (Ledger.lastBatch c.rows + 1))) c c') ∧
        ∀ e name, ((plan source table).hold db s).result = .error e →
          (∃ f, e = .load name f) ∨ (∃ f, e = .compile name f) →
          ((apply source table).hold db s).result = .error e ∧
            ∃ before after done c', outstanding source c.rows = before ++ name :: after ∧
              before.map (upBlock source (Ledger.lastBatch c.rows + 1)) = done.map .ok ∧
              ((apply source table).hold db s).calls =
                applyCalls table (outstanding source c.rows) done ∧
              L.Idle c' ((apply source table).hold db s).state ∧ L.Effects done c c') := by
  refine ⟨plan_calls db source table s, fun accepted => ⟨fun planned hplan => ?_, ?_⟩⟩
  · obtain ⟨available, records, listed, readable, blocks⟩ := planned_of_ok idle hplan
    have hblocks := blocks (Ledger.lastBatch c.rows + 1)
    obtain ⟨before, after, done, c', hsplit, hbefore, calls, idle', effects, hend⟩ :=
      apply_of_accepted idle valid confines listed (distinct _ listed) readable room accepted
    have hnames : planned.map (·.name) = outstanding source c.rows := by
      rw [← (names_of_blocks upBlock_ok hblocks).1, List.map_map]
      rfl
    rcases hend with ⟨rfl, hresult⟩ | ⟨name, more, e, rfl, hup, _⟩
    · rw [List.append_nil] at hsplit
      have hdone : done = planned.map (·.block (Ledger.lastBatch c.rows + 1)) := by
        rw [← hsplit, hblocks] at hbefore
        exact (List.map_inj_right fun _ _ => Except.ok.inj).1 hbefore.symm
      have hempty : outstanding source c.rows = [] ↔ planned = [] := by
        rw [← hnames, List.map_eq_nil_iff]
      refine ⟨hnames, ?_, ?_, c', idle', hdone ▸ effects⟩
      · rw [hresult, hnames]
        simp only [hempty]
      · rw [calls, hnames, hdone]
    · obtain ⟨b, hb⟩ := exists_block_of_mem hblocks (show name ∈ _ by rw [hsplit]; simp)
      rw [hup] at hb
      cases hb
  · intro e name hplan hfail
    have he : e.migration? = some name := by
      rcases hfail with ⟨f, rfl⟩ | ⟨f, rfl⟩ <;> rfl
    obtain ⟨available, records, before, after, listed, readable, pending, missing⟩ :=
      missing_of_error idle hplan he
    obtain ⟨⟨bs, hbs⟩, hmissing⟩ := missing (Ledger.lastBatch c.rows + 1)
    obtain ⟨before', after', done, c', hsplit, hbefore, calls, idle', effects, hend⟩ :=
      apply_of_accepted idle valid confines listed (distinct _ listed) readable room accepted
    have hhead : ∀ n ∈ after'.head?, ∃ f,
        upBlock source (Ledger.lastBatch c.rows + 1) n = .error f := by
      rcases hend with ⟨rfl, _⟩ | ⟨n, more, f, rfl, hup, _⟩
      · simp
      · intro n' hn'
        cases hn'
        exact ⟨f, hup⟩
    obtain ⟨rfl, rfl⟩ := split_unique (pending.symm.trans hsplit)
      (fun n hn => exists_block_of_mem hbs hn) (fun n hn => exists_block_of_mem hbefore hn)
      hmissing hhead
    rcases hend with ⟨hnil, _⟩ | ⟨n, more, f, hafter, hup, hresult⟩
    · cases hnil
    · cases hafter
      rw [hmissing] at hup
      cases hup
      exact ⟨hresult, before', after, done, c', pending, hbefore, calls, idle', effects⟩

open Store Connection in
/-- On an empty store, of two registries with two migrations: one is planned and then applied
as planned, and the other one has a second migration that does not compile. -/
theorem plan_predicts_apply_of_empty_store :
    (∃ planned, ((plan (Registry.source ⟨[(first, asking), (second, asking)]⟩) "m").hold
          Connection.database {}).result = .ok planned ∧
        ((apply (Registry.source ⟨[(first, asking), (second, asking)]⟩) "m").hold
          Connection.database {}).result = .ok ⟨some 1, [first, second]⟩ ∧
        ((apply (Registry.source ⟨[(first, asking), (second, asking)]⟩) "m").hold
          Connection.database {}).calls =
            applyCalls "m" [first, second] (planned.map (·.block 1))) ∧
      ∃ e done, ((plan (Registry.source ⟨[(first, asking), (second, broken)]⟩) "m").hold
          Connection.database {}).result = .error e ∧
        ((apply (Registry.source ⟨[(first, asking), (second, broken)]⟩) "m").hold
          Connection.database {}).result = .error e ∧
        done.map Block.name = [first] ∧
        ((apply (Registry.source ⟨[(first, asking), (second, broken)]⟩) "m").hold
          Connection.database {}).calls = applyCalls "m" [first, second] done := by
  have valid : Sql.isQualifiedName "m" = true := by decide
  constructor
  · let r : Registry := ⟨[(first, asking), (second, asking)]⟩
    have hnames : r.names = [first, second] := names_of_both asking asking
    have passes : PassesAll r := passesAll_of_asking (by simp [r])
    have distinct : ∀ names, r.source.list = .ok names → names.Nodup := fun _ =>
      (Registry.ordered (registered_of_both _ _)).nodup
    obtain ⟨planned, hplan⟩ := (plan_registry (r := r) valid (idle_empty "m") rfl).of_asking
      (by rw [hnames]; decide)
    have accepted := (apply_registry valid (idle_empty "m") rfl (distinct _ rfl) passes).1
    obtain ⟨hpending, hresult, hcalls, _⟩ := ((plan_predicts_apply smallStore (idle_empty "m")
      valid (confines_of_passesAll valid passes) distinct (by decide)).2 accepted).1 planned hplan
    have hboth : planned.map (·.name) = [first, second] :=
      hpending.trans (outstanding_of_both asking asking)
    have hnil : planned ≠ [] := by
      rintro rfl
      cases hboth
    rw [hboth] at hresult hcalls
    rw [if_neg hnil] at hresult
    exact ⟨planned, hplan, hresult, hcalls⟩
  · let r : Registry := ⟨[(first, asking), (second, broken)]⟩
    have hnames : r.names = [first, second] := names_of_both asking broken
    have passes : PassesAll r := passesAll_of_asking (by simp [r])
    have distinct : ∀ names, r.source.list = .ok names → names.Nodup := fun _ =>
      (Registry.ordered (registered_of_both _ _)).nodup
    have hplan := (plan_registry (r := r) valid (idle_empty "m") rfl).of_broken second
      (by rw [hnames]; decide) rfl (by rw [hnames]; decide)
    have accepted := (apply_registry valid (idle_empty "m") rfl (distinct _ rfl) passes).1
    obtain ⟨hresult, before, after, done, c', hpending, hdone, hcalls, _⟩ :=
      ((plan_predicts_apply smallStore (idle_empty "m") valid (confines_of_passesAll valid passes)
        distinct (by decide)).2 accepted).2 _ second hplan (.inr ⟨_, rfl⟩)
    have hboth : before ++ second :: after = [first, second] :=
      hpending.symm.trans (outstanding_of_both asking broken)
    have hbefore : before = [first] := by
      rcases before with _ | ⟨name, _ | ⟨name', rest⟩⟩
      · exact absurd (List.cons.inj hboth).1 (by decide)
      · rw [(List.cons.inj hboth).1]
      · simp at hboth
    rw [hpending.trans hboth] at hcalls
    exact ⟨_, done, hplan, hresult, by rw [(names_of_blocks upBlock_ok hdone).1, hbefore], hcalls⟩

end LedgerStore

end SchemaLedger

