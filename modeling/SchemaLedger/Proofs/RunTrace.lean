import SchemaLedger.Proofs.BlockTrace

/-!
# The exchanges of applying and reverting

Both ways to migrate come down to the same thing after some reading: blocks are carried out
one after the other until one does not commit. They differ in when a migration is compiled.
Applying compiles each one when its turn comes, so a migration that does not compile stops
the run in the middle; reverting has compiled all of them before the first block begins.
`Carried` covers both. It runs along a list of blocks, some of which may be errors in place
of blocks.

`ApplyRun` and `RevertRun` then list the ends that each of the two can come to, with the
exchanges up to there. They say all there is to know about the two dialogues, and the
theorems about histories, failures and transactions start from them.
-/

namespace SchemaLedger

namespace Migrate

/-! ## Blocks of a source -/

/-- The block that applies a migration, if the source has it and it compiles. -/
def upBlock (source : Source) (batch : Int) (name : Name) : Except MigrateError Block :=
  match source.load name with
  | .error e => .error (.load name e)
  | .ok definition =>
    match definition.up.compile with
    | .error e => .error (.compile name e)
    | .ok statements => .ok ⟨name, statements, .record batch⟩

/-- What it means that the source does not have a recorded migration. -/
def recordedFailure (name : Name) : SourceError → MigrateError
  | .migrationNotFound _ => .missingMigration name
  | e => .load name e

/-- The block that reverts a migration, if the source has it and it compiles. -/
def downBlock (source : Source) (name : Name) : Except MigrateError Block :=
  match source.load name with
  | .error e => .error (recordedFailure name e)
  | .ok definition =>
    match definition.down.compile with
    | .error e => .error (.compile name e)
    | .ok statements => .ok ⟨name, statements, .remove⟩

/-- The blocks that revert some records, or the failure of the first that has none. -/
def downBlocks (source : Source) (records : List Record) : Except MigrateError (List Block) :=
  records.mapM fun r => downBlock source r.name

theorem upBlock_ok {source : Source} {batch : Int} {name : Name} {b : Block}
    (h : upBlock source batch name = .ok b) :
    b.name = name ∧ b.change = .record batch := by
  unfold upBlock at h
  split at h
  · cases h
  · split at h
    · cases h
    · cases h
      exact ⟨rfl, rfl⟩

theorem upBlock_error {source : Source} {batch : Int} {name : Name} {e : MigrateError}
    (h : upBlock source batch name = .error e) : e.migration? = some name := by
  unfold upBlock at h
  split at h
  · cases h
    rfl
  · split at h
    · cases h
      rfl
    · cases h

theorem downBlock_ok {source : Source} {name : Name} {b : Block}
    (h : downBlock source name = .ok b) : b.name = name ∧ b.change = .remove := by
  unfold downBlock at h
  split at h
  · cases h
  · split at h
    · cases h
    · cases h
      exact ⟨rfl, rfl⟩

/-- Blocks of some migrations have their names, and all make the same change of a record. -/
theorem names_of_blocks {block : Name → Except MigrateError Block} {change : LedgerChange}
    {names : List Name} {bs : List Block}
    (ok : ∀ {name b}, block name = .ok b → b.name = name ∧ b.change = change)
    (h : names.map block = bs.map .ok) :
    bs.map (·.name) = names ∧ ∀ b ∈ bs, b.change = change := by
  induction names generalizing bs with
  | nil =>
      obtain rfl := List.map_eq_nil_iff.1 h.symm
      exact ⟨rfl, by simp⟩
  | cons name rest ih =>
      cases bs with
      | nil => cases h
      | cons b more =>
          rw [List.map_cons, List.map_cons, List.cons.injEq] at h
          obtain ⟨hb, hmore⟩ := h
          obtain ⟨hname, hchange⟩ := ok hb
          obtain ⟨hnames, hchanges⟩ := ih hmore
          exact ⟨by rw [List.map_cons, hname, hnames], List.forall_mem_cons.2 ⟨hchange, hchanges⟩⟩

theorem exists_block_of_mem {block : Name → Except MigrateError Block} {names : List Name}
    {bs : List Block} {name : Name} (h : names.map block = bs.map .ok) (hname : name ∈ names) :
    ∃ b, block name = .ok b := by
  have hmem := List.mem_map_of_mem (f := block) hname
  rw [h] at hmem
  obtain ⟨b, _, hb⟩ := List.mem_map.1 hmem
  exact ⟨b, hb.symm⟩

theorem downBlocks_cons {source : Source} {r : Record} {rest : List Record} :
    downBlocks source (r :: rest) =
      (downBlock source r.name).bind fun b => (downBlocks source rest).map (b :: ·) := by
  rw [downBlocks, List.mapM_cons]
  cases downBlock source r.name with
  | error e => rfl
  | ok b => rfl

theorem downBlocks_ok {source : Source} {records : List Record} {bs : List Block}
    (h : downBlocks source records = .ok bs) :
    records.map (fun r => downBlock source r.name) = bs.map .ok := by
  induction records generalizing bs with
  | nil => cases h; rfl
  | cons r rest ih =>
      rw [downBlocks_cons] at h
      cases hb : downBlock source r.name with
      | error e => rw [hb] at h; cases h
      | ok b =>
          cases hr : downBlocks source rest with
          | error e => rw [hb, hr] at h; cases h
          | ok more =>
              rw [hb, hr] at h
              cases h
              rw [List.map_cons, List.map_cons, hb, ih hr]

theorem upStatements_admits {source : Source} {name : Name} {es : List Exchange}
    {r : Except MigrateError (List String)} (h : (upStatements source name).Admits es r)
    (batch : Int) :
    es = [] ∧ upBlock source batch name = r.map (⟨name, ·, .record batch⟩) := by
  rcases Work.admits_mk_pure_bind.1 h with ⟨e, hl, rfl, rfl⟩ | ⟨definition, hl, hc⟩
  · cases hs : source.load name with
    | ok d => rw [hs] at hl; cases hl
    | error d => rw [hs] at hl; cases hl; exact ⟨rfl, by simp [upBlock, hs, Except.map]⟩
  · cases hs : source.load name with
    | error d => rw [hs] at hl; cases hl
    | ok d =>
        rw [hs] at hl
        cases hl
        obtain ⟨rfl, rfl⟩ := Work.admits_mk_pure.1 hc
        refine ⟨rfl, ?_⟩
        rw [upBlock, hs]
        cases hu : definition.up.compile <;> simp only [hu] <;> rfl

theorem revertBlocks_admits {source : Source} {records : List Record}
    {es : List Exchange} {r : Except MigrateError (List Block)}
    (h : (revertBlocks source records).Admits es r) :
    es = [] ∧ r = downBlocks source records := by
  induction records generalizing es r with
  | nil => exact Work.admits_pure.1 h
  | cons first rest ih =>
      rw [downBlocks_cons]
      rcases Work.admits_mk_pure_bind.1 h with ⟨e, hl, rfl, rfl⟩ | ⟨definition, hl, hc⟩ <;>
        cases hs : source.load first.name <;> rw [hs] at hl <;> cases hl
      · rename_i d
        refine ⟨rfl, ?_⟩
        cases d <;> simp [downBlock, hs, recordedFailure, Except.bind]
      · rcases Work.admits_mk_pure_bind.1 hc with ⟨e, hu, rfl, rfl⟩ | ⟨sts, hu, hb⟩ <;>
          cases hd : definition.down.compile <;> rw [hd] at hu <;> cases hu
        · exact ⟨rfl, by simp [downBlock, hs, hd, Except.bind]⟩
        · rcases Work.admits_bind.1 hb with ⟨e, rfl, hr⟩ | ⟨es₁, bs, es₂, rfl, hr, hp⟩
          · obtain ⟨rfl, hbs⟩ := ih hr
            exact ⟨rfl, by simp [downBlock, hs, hd, Except.bind, ← hbs, Except.map]⟩
          · obtain ⟨rfl, hbs⟩ := ih hr
            obtain ⟨rfl, rfl⟩ := Work.admits_pure.1 hp
            exact ⟨rfl, by simp [downBlock, hs, hd, Except.bind, ← hbs, Except.map]⟩

/-! ## Blocks one after the other -/

/-- The exchanges in which blocks are carried out one after the other. An error in place of
a block stops that, and so does a block that is not committed. -/
inductive Carried (table : String) :
    List (Except MigrateError Block) → List Exchange → Except MigrateError Unit → Prop
  | done : Carried table [] [] (.ok ())
  | next {b : Block} {rest : List (Except MigrateError Block)} {es₁ es₂ : List Exchange}
    {r : Except MigrateError Unit} (committed : b.Committed table es₁)
    (carried : Carried table rest es₂ r) :
    Carried table (.ok b :: rest) (es₁ ++ es₂) r
  | missing {e : MigrateError} {rest : List (Except MigrateError Block)} :
    Carried table (.error e :: rest) [] (.error e)
  | abandoned {b : Block} {rest : List (Except MigrateError Block)} {es : List Exchange}
    {e : MigrateError} (abandoned : b.Abandoned table es e) :
    Carried table (.ok b :: rest) es (.error e)

theorem applyOne_admits {source : Source} {table : String} {batch : Int} {name : Name}
    {es : List Exchange} {r : Except MigrateError Unit}
    (h : (applyOne source table batch name).Admits es r) :
    (∃ e, upBlock source batch name = .error e ∧ es = [] ∧ r = .error e) ∨
      ∃ b, upBlock source batch name = .ok b ∧
        ((r = .ok () ∧ b.Committed table es) ∨ ∃ e, r = .error e ∧ b.Abandoned table es e) := by
  rcases Work.admits_bind.1 h with ⟨e, rfl, hu⟩ | ⟨es₁, sts, es₂, rfl, hu, hb⟩ <;>
    obtain ⟨rfl, hup⟩ := upStatements_admits hu batch
  · exact .inl ⟨e, hup, rfl, rfl⟩
  · refine .inr ⟨_, hup, ?_⟩
    rcases Work.admits_bind.1 hb with ⟨e, rfl, hr⟩ | ⟨es₃, _, es₄, rfl, hr, hm⟩
    · exact Block.run_admits hr
    · obtain ⟨rfl, rfl⟩ := Work.admits_remark.1 hm
      rw [List.append_nil]
      exact Block.run_admits hr

theorem applyAll_admits {source : Source} {table : String} {batch : Int}
    {names : List Name} {es : List Exchange} {r : Except MigrateError Unit}
    (h : (applyAll source table batch names).Admits es r) :
    Carried table (names.map (upBlock source batch)) es r := by
  induction names generalizing es with
  | nil =>
      obtain ⟨rfl, rfl⟩ := Work.admits_pure.1 h
      exact .done
  | cons name rest ih =>
      rw [List.map_cons]
      rcases Work.admits_bind.1 h with ⟨e, rfl, ho⟩ | ⟨es₁, _, es₂, rfl, ho, hrest⟩ <;>
        rcases applyOne_admits ho with
          ⟨d, hup, rfl, hd⟩ | ⟨b, hup, ⟨hd, hc⟩ | ⟨d, hd, ha⟩⟩ <;> cases hd <;> rw [hup]
      · exact .missing
      · exact .abandoned ha
      · exact .next hc (ih hrest)

theorem revertAll_admits {table : String} {bs : List Block} {es : List Exchange}
    {r : Except MigrateError Unit} (h : (revertAll table bs).Admits es r) :
    Carried table (bs.map .ok) es r := by
  induction bs generalizing es with
  | nil =>
      obtain ⟨rfl, rfl⟩ := Work.admits_pure.1 h
      exact .done
  | cons b rest ih =>
      rcases Work.admits_bind.1 h with ⟨e, rfl, hb⟩ | ⟨es₁, _, es₂, rfl, hb, hrest⟩ <;>
        rcases Block.run_admits hb with ⟨hd, hc⟩ | ⟨f, hd, ha⟩ <;> cases hd
      · exact .abandoned ha
      · exact .next hc (ih (Work.admits_remark_bind.1 hrest))

/-! ## The two ways to migrate -/

/-- The exchanges in which the records of a ledger are read that may not be there. -/
inductive Read (table : String) : List Exchange → Except MigrateError (List Record) → Prop
  | refused {e : DatabaseError} :
    Read table [⟨.relationExists table, .error e⟩] (.error (Ledger.refused e))
  | absent : Read table [⟨.relationExists table, .ok false⟩] (.ok [])
  | present {reply : Except DatabaseError (List (List String))} :
    Read table
      [⟨.relationExists table, .ok true⟩, ⟨.queryRows (Ledger.listQuery table), reply⟩]
      (Ledger.recordsOf reply)

theorem recordsIfPresent_admits {table : String} {es : List Exchange}
    {r : Except MigrateError (List Record)} (h : (Ledger.recordsIfPresent table).Admits es r) :
    Read table es r := by
  rcases Work.admits_orFail_bind.1 h with ⟨e, hc, rfl⟩ | ⟨es₁, b, es₂, rfl, hc, hr⟩
  · cases Dialogue.admits_asking.1 hc
    exact .refused
  · cases Dialogue.admits_asking.1 hc
    cases b with
    | false =>
        obtain ⟨rfl, rfl⟩ := Work.admits_pure.1 hr
        exact .absent
    | true =>
        obtain ⟨reply, rfl, rfl⟩ := Ledger.records_admits hr
        exact .present

theorem pendingAfter_admits {source : Source} {records : List Record}
    {es : List Exchange} {r : Except MigrateError (List Name)}
    (h : (pendingAfter source records).Admits es r) :
    es = [] ∧ ((∃ e, source.list = .error e ∧ r = .error (.discovery e)) ∨
      ∃ available, source.list = .ok available ∧ r = .ok (unrecorded available records)) := by
  rcases Work.admits_mk_pure_bind.1 h with ⟨e, hl, rfl, rfl⟩ | ⟨available, hl, hp⟩ <;>
    cases hs : source.list <;> rw [hs] at hl <;> cases hl
  · exact ⟨rfl, .inl ⟨_, rfl, rfl⟩⟩
  · obtain ⟨rfl, rfl⟩ := Work.admits_pure.1 hp
    exact ⟨rfl, .inr ⟨_, rfl, rfl⟩⟩

/-- A question for what is pending calls what it takes to read the ledger. -/
theorem pending_hold {σ : Type} (source : Source) (table : String) (db : Database σ) (s : σ) :
    ((pending source table).hold db s).exchanges =
        ((Ledger.recordsIfPresent table).hold db s).exchanges ∧
      ((pending source table).hold db s).state =
        ((Ledger.recordsIfPresent table).hold db s).state ∧
      ((pending source table).hold db s).result =
        ((Ledger.recordsIfPresent table).hold db s).result.bind fun records =>
          (source.list.mapError .discovery).map fun available =>
            unrecorded available records := by
  refine Work.hold_bind_of_silent (w := Ledger.recordsIfPresent table) (fun h => ?_) db s
  obtain ⟨rfl, ⟨e, listed, rfl⟩ | ⟨available, listed, rfl⟩⟩ := pendingAfter_admits h <;>
    exact ⟨rfl, by rw [listed]; rfl⟩

/-- What applying goes through, and how it ends. -/
inductive ApplyRun (source : Source) (table : String) :
    List Exchange → Except MigrateError ApplyReport → Prop
  | notSetUp {es : List Exchange} {e : MigrateError}
    (setup : Ledger.SetUp table es (.error e)) :
    ApplyRun source table es (.error e)
  | notRead {es : List Exchange} {reply : Except DatabaseError (List (List String))}
    {e : MigrateError} (setup : Ledger.SetUp table es (.ok ()))
    (read : Ledger.recordsOf reply = .error e) :
    ApplyRun source table (es ++ [⟨.queryRows (Ledger.listQuery table), reply⟩]) (.error e)
  | notListed {es : List Exchange} {reply : Except DatabaseError (List (List String))}
    {records : List Record} {e : SourceError} (setup : Ledger.SetUp table es (.ok ()))
    (read : Ledger.recordsOf reply = .ok records) (listed : source.list = .error e) :
    ApplyRun source table (es ++ [⟨.queryRows (Ledger.listQuery table), reply⟩])
      (.error (.discovery e))
  | nothingPending {es : List Exchange} {reply : Except DatabaseError (List (List String))}
    {records : List Record} {available : List Name} (setup : Ledger.SetUp table es (.ok ()))
    (read : Ledger.recordsOf reply = .ok records) (listed : source.list = .ok available)
    (pending : unrecorded available records = []) :
    ApplyRun source table (es ++ [⟨.queryRows (Ledger.listQuery table), reply⟩]) (.ok {})
  | noBatch {es : List Exchange} {reply reply' : Except DatabaseError (List (List String))}
    {records : List Record} {available : List Name} {e : MigrateError}
    (setup : Ledger.SetUp table es (.ok ()))
    (read : Ledger.recordsOf reply = .ok records) (listed : source.list = .ok available)
    (pending : unrecorded available records ≠ [])
    (numbered : Ledger.batchOf reply' = .error e) :
    ApplyRun source table
      (es ++ [⟨.queryRows (Ledger.listQuery table), reply⟩,
        ⟨.queryRows (Ledger.nextBatchQuery table), reply'⟩]) (.error e)
  | carried {es es' : List Exchange}
    {reply reply' : Except DatabaseError (List (List String))}
    {records : List Record} {available : List Name} {batch : Int}
    {r : Except MigrateError Unit} (setup : Ledger.SetUp table es (.ok ()))
    (read : Ledger.recordsOf reply = .ok records) (listed : source.list = .ok available)
    (pending : unrecorded available records ≠ [])
    (numbered : Ledger.batchOf reply' = .ok batch)
    (carried : Carried table ((unrecorded available records).map (upBlock source batch)) es' r) :
    ApplyRun source table
      (es ++ [⟨.queryRows (Ledger.listQuery table), reply⟩,
        ⟨.queryRows (Ledger.nextBatchQuery table), reply'⟩] ++ es')
      (r.map fun _ => ⟨some batch, unrecorded available records⟩)

theorem apply_admits {source : Source} {table : String} {es : List Exchange}
    {r : Except MigrateError ApplyReport} (h : (apply source table).Admits es r) :
    ApplyRun source table es r := by
  rcases Work.admits_bind.1 h with ⟨e, rfl, hs⟩ | ⟨es₁, _, es₂, rfl, hs, hrest⟩
  · exact .notSetUp (Ledger.setup_admits hs)
  · have setup := Ledger.setup_admits hs
    rcases Work.admits_bind.1 hrest with ⟨e, rfl, hl⟩ | ⟨es₃, records, es₄, rfl, hl, hp⟩ <;>
      obtain ⟨reply, rfl, read⟩ := Ledger.records_admits hl
    · exact .notRead setup read.symm
    · rcases Work.admits_bind.1 hp with ⟨e, rfl, hn⟩ | ⟨es₅, names, es₆, rfl, hn, hb⟩ <;>
        obtain ⟨rfl, ⟨d, listed, hd⟩ | ⟨available, listed, hd⟩⟩ := pendingAfter_admits hn <;>
        cases hd
      · exact .notListed setup read.symm listed
      · split at hb
        · next hempty =>
            have hp := Work.admits_remark_bind.1 hb
            obtain ⟨rfl, rfl⟩ := Work.admits_pure.1 hp
            exact .nothingPending setup read.symm listed (List.isEmpty_iff.1 hempty)
        · next hpending =>
            rw [List.isEmpty_iff] at hpending
            rcases Work.admits_bind.1 hb with
              ⟨e, rfl, hq⟩ | ⟨es₇, batch, es₈, rfl, hq, hr⟩ <;>
              obtain ⟨reply', rfl, numbered⟩ := Ledger.nextBatch_admits hq
            · exact .noBatch setup read.symm listed hpending numbered.symm
            · obtain ⟨r', ha, rfl⟩ :=
                Work.admits_bind_pure.1 (Work.admits_remark_bind.1 hr)
              simpa using ApplyRun.carried setup read.symm listed hpending numbered.symm
                (applyAll_admits ha)

/-- What reverting goes through, and how it ends. -/
inductive RevertRun (source : Source) (table : String) :
    List Exchange → Except MigrateError RevertReport → Prop
  | notRead {es : List Exchange} {e : MigrateError} (read : Read table es (.error e)) :
    RevertRun source table es (.error e)
  | nothingApplied {es : List Exchange} {records : List Record}
    (read : Read table es (.ok records)) (newest : newestBatch records = []) :
    RevertRun source table es (.ok {})
  | notCompiled {es : List Exchange} {records : List Record} {e : MigrateError}
    (read : Read table es (.ok records)) (newest : newestBatch records ≠ [])
    (compiled : downBlocks source (newestBatch records) = .error e) :
    RevertRun source table es (.error e)
  | carried {es es' : List Exchange} {records : List Record} {bs : List Block}
    {first : Record} {r : Except MigrateError Unit} (read : Read table es (.ok records))
    (newest : (newestBatch records).head? = some first)
    (compiled : downBlocks source (newestBatch records) = .ok bs)
    (carried : Carried table (bs.map .ok) es' r) :
    RevertRun source table (es ++ es')
      (r.map fun _ => ⟨some first.batch, bs.map (·.name)⟩)

theorem lastBatch_admits {table : String} {es : List Exchange}
    {r : Except MigrateError (List Record)} (h : (lastBatch table).Admits es r) :
    ∃ r', Read table es r' ∧ r = r'.map newestBatch := by
  obtain ⟨r', hr, rfl⟩ := Work.admits_bind_pure.1 h
  exact ⟨r', recordsIfPresent_admits hr, rfl⟩

/-- What reverting does once it knows the records of the last batch. -/
def revertListed (source : Source) (table : String) : List Record → Work RevertReport
  | [] => do
    Work.remark .nothingApplied
    return {}
  | first :: rest => do
    let blocks ← revertBlocks source (first :: rest)
    Work.remark (.reverting first.batch blocks.length)
    revertAll table blocks
    return ⟨some first.batch, blocks.map (·.name)⟩

theorem revert_eq_bind (source : Source) (table : String) :
    revert source table = lastBatch table >>= revertListed source table := by
  unfold revert
  refine congrArg (lastBatch table >>= ·) (funext fun listed => ?_)
  cases listed <;> rfl

/-- The blocks of all of them are there before the first is carried out. Without any record
there are no blocks either, and no batch. -/
theorem revertListed_admits {source : Source} {table : String} {listed : List Record}
    {es : List Exchange} {r : Except MigrateError RevertReport}
    (h : (revertListed source table listed).Admits es r) :
    (∃ e, downBlocks source listed = .error e ∧ es = [] ∧ r = .error e) ∨
      ∃ bs r', downBlocks source listed = .ok bs ∧ Carried table (bs.map .ok) es r' ∧
        r = r'.map fun _ => ⟨listed.head?.map (·.batch), bs.map (·.name)⟩ := by
  cases listed with
  | nil =>
      have hp := Work.admits_remark_bind.1 h
      obtain ⟨rfl, rfl⟩ := Work.admits_pure.1 hp
      exact .inr ⟨[], .ok (), rfl, .done, rfl⟩
  | cons first rest =>
      rcases Work.admits_bind.1 h with ⟨e, rfl, hb⟩ | ⟨es₁, bs, es₂, rfl, hb, hr⟩ <;>
        obtain ⟨rfl, compiled⟩ := revertBlocks_admits hb
      · exact .inl ⟨e, compiled.symm, rfl, rfl⟩
      · obtain ⟨r', ha, rfl⟩ := Work.admits_bind_pure.1 (Work.admits_remark_bind.1 hr)
        exact .inr ⟨bs, r', compiled.symm, revertAll_admits ha, rfl⟩

theorem revert_admits {source : Source} {table : String} {es : List Exchange}
    {r : Except MigrateError RevertReport} (h : (revert source table).Admits es r) :
    RevertRun source table es r := by
  rw [revert_eq_bind] at h
  rcases Work.admits_bind.1 h with ⟨e, rfl, hl⟩ | ⟨es₁, newest, es₂, rfl, hl, hrest⟩ <;>
    obtain ⟨r', read, hr'⟩ := lastBatch_admits hl <;> cases r' <;> cases hr'
  · exact .notRead read
  · rename_i records
    rcases revertListed_admits hrest with ⟨e, compiled, rfl, rfl⟩ | ⟨bs, r', compiled, carried, rfl⟩
    · rw [List.append_nil]
      refine .notCompiled read (fun hnil => ?_) compiled
      rw [hnil] at compiled
      cases compiled
    · cases hlisted : newestBatch records with
      | nil =>
          rw [hlisted] at compiled
          cases compiled
          cases carried with
          | done =>
              rw [List.append_nil]
              exact .nothingApplied read hlisted
      | cons first rest => exact .carried read (by rw [hlisted]; rfl) compiled carried

end Migrate

end SchemaLedger
