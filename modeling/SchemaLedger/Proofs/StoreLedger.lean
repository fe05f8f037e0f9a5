import SchemaLedger.Proofs.LedgerStore
import SchemaLedger.Proofs.StoreReadings

/-!
# A store keeps ledgers

A connection to a store is a database of the kind that `LedgerStore` describes, for every
table whose name is valid. What it holds besides the ledger are its other tables, and its
schemas apart from the one that the table is in.

A connection has what it takes only as long as its rows are in order, `Numbered`: their ids
ascend and stay below the one that is given out next, and their names differ. The number
that is given out next is not taken back when a transaction is rolled back, so the rows that
are gone back to are in order too.
-/

namespace SchemaLedger.Store

/-- A row of a store in a ledger. -/
def Row.inLedger (r : Row) : Ledger.Row :=
  ⟨r.id, r.name, r.batch, Connection.timeText r.id⟩

/-- What is not part of a ledger: schemas, and tables with their rows. -/
structure Others where
  schemas : List String
  tables : List (String × List Row)
  deriving DecidableEq

/-- What tables hold, seen from the ledger of one of them. -/
def Tables.content (t : Tables) (table : String) : Content Others where
  ledger := (t.rows? table).map (·.map Row.inLedger)
  objects :=
    { schemas := t.schemas.filter (· ≠ (Sql.splitQualified table).1)
      tables := t.tables.filter (·.1 ≠ key table) }

/-- Rows are in order below the number that is given out next. -/
structure Numbered (next : Nat) (rows : List Row) : Prop where
  ascending : rows.Pairwise (·.id < ·.id)
  below : ∀ r ∈ rows, r.id < next
  distinct : (rows.map (·.name)).Nodup

/-- The rows of a table, those of a snapshot included, are in order. -/
structure Connection.Sound (table : String) (c : Connection) : Prop where
  current : ∀ rows, c.contents.current.rows? table = some rows →
    Numbered (c.contents.nextId table) rows
  snapshot : ∀ t, c.snapshot = some t → ∀ rows, t.rows? table = some rows →
    Numbered (c.contents.nextId table) rows

/-- The ledger of a table in a connection. -/
def Connection.view (table : String) : LedgerView Connection Others where
  content c := c.contents.current.content table
  saved c := c.snapshot.map (·.content table)
  sound := Connection.Sound table

/-! ## Tables -/

theorem Numbered.mono {n m : Nat} {rows : List Row} (h : Numbered n rows) (hle : n ≤ m) :
    Numbered m rows :=
  ⟨h.ascending, fun r hr => Nat.lt_of_lt_of_le (h.below r hr) hle, h.distinct⟩

theorem Numbered.append {n : Nat} {rows : List Row} (h : Numbered n rows) (name : String)
    (batch : Int) (fresh : ∀ r ∈ rows, r.name ≠ name) :
    Numbered (n + 1) (rows ++ [⟨n, name, batch⟩]) := by
  refine ⟨pairwise_concat h.ascending h.below, fun r hr => ?_, nodup_map_concat h.distinct fresh⟩
  rcases List.mem_append.1 hr with hr | hr
  · exact Nat.lt_succ_of_lt (h.below r hr)
  · rw [List.mem_singleton.1 hr]
    exact Nat.lt_succ_self n

theorem Numbered.filter {n : Nat} {rows : List Row} (h : Numbered n rows) (p : Row → Bool) :
    Numbered n (rows.filter p) :=
  ⟨h.ascending.filter p, fun r hr => h.below r (List.mem_of_mem_filter hr),
    nodup_map_filter h.distinct p⟩

theorem lookup_replaced {k : String} {rows : List Row} {tables : List (String × List Row)}
    (h : (tables.lookup k).isSome = true) :
    (tables.map fun (k', old) => if k' = k then (k', rows) else (k', old)).lookup k =
      some rows := by
  induction tables with
  | nil => cases h
  | cons entry rest ih =>
      obtain ⟨k', old⟩ := entry
      by_cases hk : k' = k
      · simp [hk]
      · have hne : (k == k') = false := by simpa using Ne.symm hk
        rw [List.lookup_cons, hne] at h
        simp only [List.map_cons, if_neg hk, List.lookup_cons, hne]
        exact ih h

theorem Tables.rows?_put (t : Tables) (table : String) (rows : List Row) :
    (t.put table rows).rows? table = some rows := by
  unfold Tables.put
  split
  · next h => exact lookup_replaced h
  · next h =>
      rw [Option.not_isSome_iff_eq_none] at h
      unfold Tables.rows? at h ⊢
      rw [List.lookup_append, h]
      simp

theorem Tables.rows?_addSchema (t : Tables) (schema table : String) :
    (t.addSchema schema).rows? table = t.rows? table := by
  unfold Tables.addSchema Tables.rows?
  split <;> rfl

theorem filter_replaced {k : String} {rows : List Row} (tables : List (String × List Row)) :
    (tables.map fun (k', old) => if k' = k then (k', rows) else (k', old)).filter (·.1 ≠ k) =
      tables.filter (·.1 ≠ k) := by
  induction tables with
  | nil => rfl
  | cons entry rest ih =>
      obtain ⟨k', old⟩ := entry
      by_cases hk : k' = k
      · simp only [List.map_cons, if_pos hk]
        rw [List.filter_cons_of_neg (by simpa using hk),
          List.filter_cons_of_neg (by simpa using hk), ih]
      · simp only [List.map_cons, if_neg hk]
        rw [List.filter_cons_of_pos (by simpa using hk),
          List.filter_cons_of_pos (by simpa using hk), ih]

theorem Tables.content_put (t : Tables) (table : String) (rows : List Row) :
    (t.put table rows).content table =
      { t.content table with ledger := some (rows.map Row.inLedger) } := by
  have htables : (t.put table rows).tables.filter (·.1 ≠ key table) =
      t.tables.filter (·.1 ≠ key table) := by
    unfold Tables.put
    split
    · exact filter_replaced t.tables
    · simp
  unfold Tables.content
  rw [Tables.rows?_put, htables]
  rfl

/-- A name stands for the same table in queries for relations and in statements. -/
theorem key_eq_of_isQualifiedName {table : String} (h : Sql.isQualifiedName table = true) :
    (if (Sql.splitQualified table).1 = Sql.mainSchema then (Sql.splitQualified table).2
      else (Sql.splitQualified table).1 ++ "." ++ (Sql.splitQualified table).2) = key table := by
  have hmain : "main.".toList = "main".toList ++ ['.'] := Text.toList_ofList_append rfl
  have hdot : '.' ∉ "main".toList := Text.notMem_toList_ofList (by decide)
  rcases Sql.isQualifiedName_cases h with h | ⟨schema, name, hname, hs, hn⟩
  · rw [Sql.splitQualified_of_isIdentifierChars h, if_pos rfl, key]
    cases hafter : Text.after? "main.".toList table.toList with
    | none => rfl
    | some rest =>
        have htable := Text.eq_append_of_after? hafter
        refine absurd ?_ (Sql.notMem_of_isIdentifierChars h (c := '.') (by decide))
        rw [htable, hmain]
        simp
  · have hcut {before : List Char} (hbefore : '.' ∉ before) (behind : List Char) :
        Text.cut? ['.'] (before ++ (['.'] ++ behind)) = some (before, behind) :=
      Text.cut?_append rfl hbefore behind
    rw [Sql.splitQualified_of_append hname hn, key]
    cases hafter : Text.after? "main.".toList table.toList with
    | none =>
        rw [if_neg]
        · rw [← String.toList_inj, String.toList_append, String.toList_append,
            String.toList_ofList, String.toList_ofList, hname]
          simp
        · intro heq
          have hschema : schema = "main".toList := by
            rw [← String.toList_ofList (l := schema)]
            exact congrArg String.toList heq
          have hsome : table.toList = "main.".toList ++ name := by
            rw [hname, hschema, hmain, List.append_assoc]
            rfl
          rw [hsome, Text.after?_append] at hafter
          cases hafter
    | some rest =>
        have htable := Text.eq_append_of_after? hafter
        rw [hmain, List.append_assoc, hname] at htable
        have hboth := hcut (Sql.notMem_of_isIdentifierChars hs (by decide)) name
        rw [List.singleton_append, htable, hcut hdot, Option.some.injEq, Prod.mk.injEq] at hboth
        obtain ⟨hschema, hrest⟩ := hboth
        rw [← hschema, ← hrest, String.ofList_toList]
        exact if_pos rfl

theorem Tables.any_key (t : Tables) (table : String) :
    t.tables.any (·.1 = key table) = (t.rows? table).isSome := by
  unfold Tables.rows?
  induction t.tables with
  | nil => rfl
  | cons entry rest ih =>
      obtain ⟨k, rows⟩ := entry
      by_cases hk : k = key table
      · simp [hk]
      · have hne : (key table == k) = false := by simpa using Ne.symm hk
        rw [List.any_cons, List.lookup_cons, hne, ih]
        simp [hk]

/-- The greatest batch of rows is that of the ledger. -/
theorem lastBatch_inLedger (rows : List Row) :
    Ledger.lastBatch (rows.map Row.inLedger) = Connection.lastBatch rows := by
  cases rows with
  | nil => rfl
  | cons r rest =>
      rw [Ledger.lastBatch, List.map_map, List.map_cons, List.max?_cons', Option.getD_some,
        Connection.lastBatch, List.foldl_map]
      rfl

/-! ## Replies -/

namespace Connection

/-- A connection as a database. -/
def database : Database Connection := engine.database

theorem perform_of_execute {sql : String} {st : Statement} {c c' : Connection}
    {reply : Except DatabaseError Nat} (hst : Statement.ofText sql = st)
    (h : database.reply (.execute sql) c = (reply, c')) :
    ∃ r, c.perform st = (r, c') ∧ reply = r.mapError (Engine.statementError sql) := by
  subst hst
  cases h
  exact ⟨_, rfl, rfl⟩

theorem performAll_of_batch {sql : String} {sts : List Statement} {c c' : Connection}
    {reply : Except DatabaseError Unit} (hsts : Statement.ofBatch sql = sts)
    (h : database.reply (.executeBatch sql) c = (reply, c')) :
    ∃ r, c.performAll sts = (r, c') ∧ reply = r.mapError (Engine.statementError sql) := by
  subst hsts
  cases h
  exact ⟨_, rfl, rfl⟩

theorem perform_ok {sql : String} {st : Statement} {c c' : Connection} {n : Nat}
    (hst : Statement.ofText sql = st) (h : database.reply (.execute sql) c = (.ok n, c')) :
    c.perform st = (.ok n, c') := by
  obtain ⟨r, hr, he⟩ := perform_of_execute hst h
  cases r with
  | ok m => cases he; exact hr
  | error e => cases he

theorem perform_error {sql : String} {st : Statement} {c c' : Connection} {e : DatabaseError}
    (hst : Statement.ofText sql = st) (h : database.reply (.execute sql) c = (.error e, c')) :
    ∃ text, c.perform st = (.error text, c') := by
  obtain ⟨r, hr, he⟩ := perform_of_execute hst h
  cases r with
  | ok m => cases he
  | error text => exact ⟨text, hr⟩

variable {table : String} {c c' : Connection} {k k' : Content Others}

/-- What a connection goes back to is known from its snapshot. -/
theorem snapshot_of_within (within : (view table).Within k k' c) :
    ∃ t, c.snapshot = some t ∧ t.content table = k :=
  Option.map_eq_some_iff.1 within.saved

theorem snapshot_of_idle (idle : (view table).Idle k c) : c.snapshot = none :=
  Option.map_eq_none_iff.1 idle.saved

theorem undoes_of_within (within : (view table).Within k k' c) :
    (view table).Undoes database k c := by
  intro reply s' h
  obtain ⟨t, ht, hk⟩ := snapshot_of_within within
  have hst : Statement.ofText "ROLLBACK" = .rollback := rfl
  obtain ⟨r, hr, _⟩ := perform_of_execute hst h
  unfold perform at hr
  simp only [ht] at hr
  obtain ⟨_, rfl⟩ := Prod.mk.inj hr
  exact ⟨⟨within.sound.snapshot t ht, by simp⟩, rfl, hk⟩

/-- Rows stay in order if those of the table are put in order below a number that is given
out no sooner. -/
theorem sound_of_put (sound : Sound table c) (contents : Contents) {rows : List Row}
    (hcurrent : contents.current = c.contents.current.put table rows)
    (hnext : c.contents.nextId table ≤ contents.nextId table)
    (numbered : Numbered (contents.nextId table) rows) : Sound table { c with contents } := by
  constructor
  · intro others h
    rw [hcurrent, Tables.rows?_put] at h
    cases h
    exact numbered
  · intro t ht others h
    exact (sound.snapshot t ht others h).mono hnext

/-- A change of the rows of the table, and of the number that is given out next, leaves a
connection within its transaction. -/
theorem within_of_put (within : (view table).Within k k' c) (contents : Contents)
    {rows : List Row} (hcurrent : contents.current = c.contents.current.put table rows)
    (hnext : c.contents.nextId table ≤ contents.nextId table)
    (numbered : Numbered (contents.nextId table) rows) :
    (view table).Within k { k' with ledger := some (rows.map Row.inLedger) }
      { c with contents } := by
  refine ⟨sound_of_put within.sound contents hcurrent hnext numbered, within.saved, ?_⟩
  show contents.current.content table = _
  rw [hcurrent, Tables.content_put, ← within.content]
  rfl

theorem nextId_count (contents : Contents) (table : String) :
    (contents.count table).nextId table = contents.nextId table + 1 := by
  simp [Contents.count, Contents.nextId]

theorem ledger_of_rows? {rows : Option (List Row)} (content : (view table).content c = k)
    (h : c.contents.current.rows? table = rows) : k.ledger = rows.map (·.map Row.inLedger) := by
  rw [← content, ← h]
  rfl

theorem rows_of_rows? {rows : List Row} (content : (view table).content c = k)
    (h : c.contents.current.rows? table = some rows) : k.rows = rows.map Row.inLedger := by
  rw [Content.rows, ledger_of_rows? content h]
  rfl

theorem within_of_count (within : (view table).Within k k' c) :
    (view table).Within k k' { c with contents := c.contents.count table } := by
  have hle : c.contents.nextId table ≤ (c.contents.count table).nextId table := by
    rw [nextId_count]
    exact Nat.le_succ _
  exact ⟨⟨fun rows h => (within.sound.current rows h).mono hle,
    fun t ht rows h => (within.sound.snapshot t ht rows h).mono hle⟩, within.saved, within.content⟩

/-- An insertion adds a row, or is refused because there is no table or the name is taken;
the transaction goes on. -/
theorem within_of_insert {name : String} {batch : Int} {r : Except String Nat}
    (within : (view table).Within k k' c)
    (h : c.perform (.insert table name batch) = (r, c')) :
    (∃ text, r = .error text ∧ (k'.ledger = none ∨ ∃ q ∈ k'.rows, q.name = name) ∧
      (view table).Within k k' c') ∨
      ∃ id time, r = .ok 1 ∧ (∀ q ∈ k'.rows, q.id < id) ∧ (view table).Within k
        { k' with ledger := some (k'.rows ++ [⟨id, name, batch, time⟩]) } c' := by
  have hperform : c.keep (c.contents.insert table name batch) = (r, c') := h
  unfold Contents.insert at hperform
  split at hperform
  · next hrows =>
      cases hperform
      exact .inl ⟨_, rfl, .inl (ledger_of_rows? within.content hrows), within⟩
  · next rows hrows =>
      have hk := rows_of_rows? within.content hrows
      split at hperform
      · next htaken =>
          cases hperform
          refine .inl ⟨_, rfl, .inr ?_, within_of_count within⟩
          obtain ⟨q, hq, hname⟩ := List.any_eq_true.1 htaken
          rw [hk]
          exact ⟨_, List.mem_map_of_mem hq, of_decide_eq_true hname⟩
      · next hfresh =>
          cases hperform
          have numbered := within.sound.current rows hrows
          refine .inr ⟨c.contents.nextId table, timeText (c.contents.nextId table), rfl, ?_, ?_⟩
          · rw [hk]
            intro q hq
            obtain ⟨p, hp, rfl⟩ := List.mem_map.1 hq
            exact Int.ofNat_lt.2 (numbered.below p hp)
          · have hnext : ((c.contents.count table).withTables (c.contents.current.put table
                (rows ++ [⟨c.contents.nextId table, name, batch⟩]))).nextId table =
                  c.contents.nextId table + 1 := nextId_count c.contents table
            have hput := within_of_put within _ rfl (by rw [hnext]; exact Nat.le_succ _)
              (by rw [hnext]; exact numbered.append name batch (by simpa using hfresh))
            rw [List.map_append, ← hk] at hput
            exact hput

/-- A deletion takes rows away or is refused, and the transaction goes on. -/
theorem within_of_delete {name : String} {r : Except String Nat}
    (within : (view table).Within k k' c) (h : c.perform (.delete table name) = (r, c')) :
    (∃ text, r = .error text ∧ (view table).Within k k' c') ∨
      r = .ok (k'.rows.countP (·.name = name)) ∧ (view table).Within k
        { k' with ledger := some (k'.rows.filter (·.name ≠ name)) } c' := by
  have hperform : c.keep (c.contents.delete table name) = (r, c') := h
  unfold Contents.delete at hperform
  split at hperform
  · cases hperform
    exact .inl ⟨_, rfl, within⟩
  · next rows hrows =>
      have hk := rows_of_rows? within.content hrows
      cases hperform
      have hput := within_of_put within (c.contents.withTables (c.contents.current.put table
        (rows.filter (·.name ≠ name)))) rfl (Nat.le_refl _)
        ((within.sound.current rows hrows).filter _)
      refine .inr ⟨?_, ?_⟩
      · rw [hk, List.countP_map]
        rfl
      · rw [hk, List.filter_map]
        exact hput

theorem fromRows_of_content (t : Tables) (table : String)
    (answer : List Row → List (List Cell)) :
    (t.rows? table = none ∧ ∃ text, fromRows t table answer = .error text) ∨
      ∃ rows, t.rows? table = some rows ∧ fromRows t table answer = .ok (answer rows) := by
  unfold fromRows
  cases t.rows? table with
  | none => exact .inl ⟨rfl, _, rfl⟩
  | some rows => exact .inr ⟨rows, rfl, rfl⟩

theorem countOf_of_le {n : Nat} (h : n ≤ 1) : Engine.countOf n = n := by
  unfold Engine.countOf
  omega

/-- A count leaves a connection as it is, and tells the number of rows. -/
theorem within_of_count_query {name : Name} {reply : Except DatabaseError Nat}
    (valid : Sql.isQualifiedName table = true) (within : (view table).Within k k' c)
    (h : database.reply (.queryCount (Ledger.namedQuery table name)) c = (reply, c')) :
    (view table).Within k k' c' ∧
      ∀ n, reply = .ok n → n = k'.rows.countP (·.name = name.text) := by
  obtain ⟨hreply, rfl⟩ := Prod.mk.inj h
  refine ⟨within, ?_⟩
  rintro n rfl
  rw [Query.ofText_named valid] at hreply
  rcases fromRows_of_content c.contents.current table fun rows =>
    [[.integer (rows.countP (·.name = name.text))]] with
      ⟨_, text, hrows⟩ | ⟨rows, hsome, hrows⟩
  · rw [answer, hrows] at hreply
    cases hreply
  · rw [answer, hrows] at hreply
    have hle := countP_key_le_one (within.sound.current rows hsome).distinct name.text
    have hn : Engine.countOf (rows.countP (·.name = name.text)) = n := Except.ok.inj hreply
    rw [countOf_of_le hle] at hn
    rw [← hn, rows_of_rows? within.content hsome, List.countP_map]
    rfl

theorem idle_of_put (idle : (view table).Idle k c) {rows : List Row}
    (numbered : Numbered (c.contents.nextId table) rows) :
    (view table).Idle { k with ledger := some (rows.map Row.inLedger) }
      (c.withTables (c.contents.current.put table rows)) := by
  refine ⟨sound_of_put idle.sound _ rfl (Nat.le_refl _) numbered, idle.saved, ?_⟩
  show (c.contents.current.put table rows).content table = _
  rw [Tables.content_put, ← idle.content]
  rfl

theorem perform_createSequence (name : String) :
    (∃ text, c.perform (.createSequence name) = (.error text, c) ∧
      c.contents.current.missingSchema? name ≠ none) ∨
      c.perform (.createSequence name) = (.ok 0, c) := by
  show (∃ text, c.change (c.contents.current.withSchema name c.contents.current) = _ ∧ _) ∨
    c.change (c.contents.current.withSchema name c.contents.current) = _
  unfold Tables.withSchema
  split
  · next hmissing => exact .inl ⟨_, rfl, by simp [hmissing]⟩
  · exact .inr rfl

theorem perform_createTable (idle : (view table).Idle k c) :
    (∃ text, c.perform (.createTable table) = (.error text, c) ∧
      c.contents.current.missingSchema? table ≠ none) ∨
      ∃ c', c.perform (.createTable table) = (.ok 0, c') ∧
        (view table).Idle { k with ledger := some k.rows } c' := by
  show (∃ text, c.change (c.contents.current.withSchema table
      (if (c.contents.current.rows? table).isSome then c.contents.current
        else c.contents.current.put table [])) = _ ∧ _) ∨
    ∃ c', c.change (c.contents.current.withSchema table
      (if (c.contents.current.rows? table).isSome then c.contents.current
        else c.contents.current.put table [])) = _ ∧ _
  unfold Tables.withSchema
  split
  · next hmissing => exact .inl ⟨_, rfl, by simp [hmissing]⟩
  · refine .inr ⟨_, rfl, ?_⟩
    cases hrows : c.contents.current.rows? table with
    | some rows =>
        have hledger := ledger_of_rows? idle.content hrows
        have hsame : { k with ledger := some k.rows } = k := by
          rw [Content.rows, hledger]
          obtain ⟨ledger, objects⟩ := k
          cases hledger
          rfl
        rw [hsame]
        exact idle
    | none =>
        have hnil : k.rows = [] := by
          rw [Content.rows, ledger_of_rows? idle.content hrows]
          rfl
        rw [hnil]
        exact idle_of_put idle ⟨.nil, by simp, by simp⟩

/-- The script of the set-up makes the table, unless it needs a schema that is not there;
then it does nothing. -/
theorem idle_of_setupScript {r : Except String Unit} (idle : (view table).Idle k c)
    (h : c.performAll [.createSequence (Ledger.sequenceName table), .createTable table] =
      (r, c')) :
    (∃ text, r = .error text ∧ (view table).Idle k c' ∧
      (c.contents.current.missingSchema? (Ledger.sequenceName table) ≠ none ∨
        c.contents.current.missingSchema? table ≠ none)) ∨
      r = .ok () ∧ (view table).Idle { k with ledger := some k.rows } c' := by
  rw [performAll] at h
  rcases perform_createSequence (c := c) (Ledger.sequenceName table) with ⟨text, hs, hm⟩ | hs <;>
    rw [hs] at h
  · cases h
    exact .inl ⟨text, rfl, idle, .inl hm⟩
  · rcases perform_createTable idle with ⟨text, ht, hm⟩ | ⟨c₁, ht, idle'⟩ <;>
      simp only [performAll, ht] at h <;> cases h
    · exact .inl ⟨text, rfl, idle, .inr hm⟩
    · exact .inr ⟨rfl, idle'⟩

theorem idle_of_createSchema (idle : (view table).Idle k c) :
    (view table).Idle k (c.perform (.createSchema (Sql.splitQualified table).1)).2 := by
  have hrows := c.contents.current.rows?_addSchema (Sql.splitQualified table).1 table
  refine ⟨⟨?_, idle.sound.snapshot⟩, idle.saved, ?_⟩
  · intro rows h
    exact idle.sound.current rows (hrows.symm.trans h)
  · rw [← idle.content]
    show (c.contents.current.addSchema (Sql.splitQualified table).1).content table = _
    unfold Tables.content
    rw [hrows]
    unfold Tables.addSchema
    split
    · rfl
    · simp only [List.filter_append]
      simp [view, Tables.content]

end Connection

/-! ## Ledgers -/

open Connection in
/-- A connection keeps the ledger of any table whose name is valid. -/
def Connection.ledgerStore (table : String) (valid : Sql.isQualifiedName table = true) :
    LedgerStore Connection.database table Others where
  toLedgerView := view table
  ascending := by
    intro c sound
    show (((c.contents.current.rows? table).map (·.map Row.inLedger)).getD []).Pairwise _
    cases h : c.contents.current.rows? table with
    | none => exact .nil
    | some rows =>
        refine List.pairwise_map.2 ((sound.current rows h).ascending.imp ?_)
        intro a b hab
        exact Int.ofNat_lt.2 hab
  begun := by
    intro k c c' n idle h
    have hst : Statement.ofText "BEGIN TRANSACTION" = .begin := rfl
    have hperform := perform_ok hst h
    unfold perform at hperform
    simp only [snapshot_of_idle idle, Option.isSome_none, Bool.false_eq_true, if_false] at hperform
    obtain ⟨_, rfl⟩ := Prod.mk.inj hperform
    refine ⟨⟨idle.sound.current, ?_⟩, ?_, idle.content⟩
    · intro t ht
      cases ht
      exact idle.sound.current
    · rw [← idle.content]
      rfl
  notBegun := by
    intro k c c' e idle h
    have hst : Statement.ofText "BEGIN TRANSACTION" = .begin := rfl
    obtain ⟨text, hperform⟩ := perform_error hst h
    unfold perform at hperform
    simp only [snapshot_of_idle idle, Option.isSome_none, Bool.false_eq_true, if_false] at hperform
    cases (Prod.mk.inj hperform).1
  committed := by
    intro k k' c c' n within h
    have hst : Statement.ofText "COMMIT" = .commit := rfl
    have hperform := perform_ok hst h
    obtain ⟨t, ht, _⟩ := snapshot_of_within within
    unfold perform at hperform
    simp only [ht, Option.isSome_some, if_true] at hperform
    obtain ⟨_, rfl⟩ := Prod.mk.inj hperform
    exact ⟨⟨within.sound.current, by simp⟩, rfl, within.content⟩
  rolledBack := undoes_of_within
  refused := by
    intro k k' c c' call reply within inBlock h refused
    cases inBlock with
    | commit =>
        have hst : Statement.ofText "COMMIT" = .commit := rfl
        obtain ⟨r, hperform, rfl⟩ := perform_of_execute hst h
        obtain ⟨t, ht, _⟩ := snapshot_of_within within
        unfold perform at hperform
        simp only [ht, Option.isSome_some, if_true] at hperform
        obtain ⟨rfl, _⟩ := Prod.mk.inj hperform
        exact absurd ⟨0, rfl⟩ refused
    | count name =>
        exact undoes_of_within (within_of_count_query valid within h).1
    | insert name lo hi =>
        have hst := Statement.ofText_insert valid name lo hi
        obtain ⟨r, hperform, rfl⟩ := perform_of_execute hst h
        rcases within_of_insert within hperform with
          ⟨text, rfl, _, within'⟩ | ⟨id, time, _, _, within'⟩
        · exact undoes_of_within within'
        · exact undoes_of_within within'
    | delete name =>
        have hst := Statement.ofText_delete valid name
        obtain ⟨r, hperform, rfl⟩ := perform_of_execute hst h
        rcases within_of_delete within hperform with ⟨text, rfl, within'⟩ | ⟨rfl, within'⟩
        · exact undoes_of_within within'
        · exact absurd ⟨_, rfl⟩ refused
  schemaMade := by
    intro k c c' reply idle h
    obtain ⟨_, rfl⟩ := Prod.mk.inj h
    show (view table).Idle k (c.perform (.ofText (Engine.schemaStatement _))).2
    rw [Statement.ofText_createSchema]
    exact idle_of_createSchema idle
  tableMade := by
    intro k c c' idle h
    obtain ⟨r, hall, he⟩ := performAll_of_batch (Statement.ofBatch_setupScript valid) h
    rcases idle_of_setupScript idle hall with ⟨text, rfl, _, _⟩ | ⟨_, idle'⟩
    · cases he
    · exact idle'
  tableRefused := by
    intro k c c' e idle h
    obtain ⟨r, hall, he⟩ := performAll_of_batch (Statement.ofBatch_setupScript valid) h
    rcases idle_of_setupScript idle hall with ⟨text, _, idle', _⟩ | ⟨rfl, _⟩
    · exact ⟨k, .refl k, idle'⟩
    · cases he
  present := by
    intro k c c' reply idle h
    obtain ⟨hreply, rfl⟩ := Prod.mk.inj h
    refine ⟨idle, ?_⟩
    rintro b rfl
    rw [Query.ofText_relations, answer, key_eq_of_isQualifiedName valid, Tables.any_key] at hreply
    rw [← idle.content]
    show b = ((c.contents.current.rows? table).map (·.map Row.inLedger)).isSome
    rw [Option.isSome_map]
    cases hrows : c.contents.current.rows? table with
    | none =>
        rw [hrows] at hreply
        exact (Except.ok.inj hreply).symm
    | some rows =>
        rw [hrows] at hreply
        exact (Except.ok.inj hreply).symm
  listed := by
    intro k c c' reply idle h
    obtain ⟨hreply, rfl⟩ := Prod.mk.inj h
    refine ⟨idle, ?_⟩
    rintro texts rfl
    rw [Query.ofText_list valid] at hreply
    rcases fromRows_of_content c.contents.current table (·.map rowCells) with
      ⟨_, text, hrows⟩ | ⟨rows, hsome, hrows⟩
    · rw [answer, hrows] at hreply
      cases hreply
    · rw [answer, hrows] at hreply
      rw [rows_of_rows? idle.content hsome, List.map_map, ← Except.ok.inj hreply]
      exact List.map_map
  numbered := by
    intro k c c' reply idle h
    obtain ⟨hreply, rfl⟩ := Prod.mk.inj h
    refine ⟨idle, ?_⟩
    rintro texts rfl
    rw [Query.ofText_nextBatch] at hreply
    rcases fromRows_of_content c.contents.current table fun rows =>
      [[.integer (lastBatch rows + 1)]] with
      ⟨_, text, hrows⟩ | ⟨rows, hsome, hrows⟩
    · rw [answer, hrows] at hreply
      cases hreply
    · rw [answer, hrows] at hreply
      rw [rows_of_rows? idle.content hsome, lastBatch_inLedger, ← Except.ok.inj hreply]
      rfl
  counted := by
    intro k k' c c' name n within h
    obtain ⟨within', hn⟩ := within_of_count_query valid within h
    exact ⟨within', hn n rfl⟩
  inserted := by
    intro k k' c c' name batch n within lo hi h
    have hperform := perform_ok (Statement.ofText_insert valid name lo hi) h
    rcases within_of_insert within hperform with ⟨text, he, _, _⟩ | ⟨id, time, _, above, within'⟩
    · cases he
    · exact ⟨id, time, above, within'⟩
  deleted := by
    intro k k' c c' name n within h
    have hperform := perform_ok (Statement.ofText_delete valid name) h
    rcases within_of_delete within hperform with ⟨text, he, _⟩ | ⟨hn, within'⟩
    · cases he
    · exact ⟨Except.ok.inj hn, within'⟩

end SchemaLedger.Store
