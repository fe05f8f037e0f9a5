import SchemaLedger.Proofs.RelationEngine

/-!
# A store keeps relations

A connection to a store is an engine of the kind that `RelationEngine` describes. It keeps its
tables by keys, and the names of a relation all have the same key, which no other relation
has. What is done with one table touches nothing that is kept by another key.
-/

namespace SchemaLedger

open Sql (Relation)

namespace Store

/-! ## Keys -/

section

variable {r q : Relation} {t : String}

theorem key_of_namedBy (named : r.NamedBy t) :
    key t = if r.schema = Sql.mainSchema then r.name else r.fullName := by
  rw [← key_eq_of_isQualifiedName named.isQualifiedName, named.split]
  rfl

theorem key_fullName (named : r.NamedBy t) : key r.fullName = key t :=
  (key_of_namedBy .full).trans (key_of_namedBy named).symm

theorem eq_of_key_fullName (h : key q.fullName = key r.fullName) : q = r := by
  rw [key_of_namedBy .full, key_of_namedBy .full] at h
  -- A relation of `main` is kept by its name alone, in which there is no dot.
  split at h
  · next hq =>
      split at h
      · next hr =>
          refine Relation.NamedBy.unique (.bare hq) ?_
          rw [h]
          exact .bare hr
      · exact absurd (h ▸ r.mem_fullName) (Relation.notMem_of_isIdentifier q.isName)
  · split at h
    · exact absurd (h ▸ q.mem_fullName) (Relation.notMem_of_isIdentifier r.isName)
    · exact Relation.NamedBy.unique .full (h ▸ .full)

theorem missingSchema?_of_namedBy {tables : Tables} (named : r.NamedBy t)
    (there : r.schema = Sql.mainSchema ∨ r.schema ∈ tables.schemas) :
    tables.missingSchema? t = none := by
  cases named with
  | bare =>
      rw [Tables.missingSchema?, Text.cut?_eq_none (Relation.notMem_of_isIdentifier r.isName)]
  | full =>
      have hcut : Text.cut? ['.'] r.fullName.toList = some (r.schema.toList, r.name.toList) := by
        rw [r.toList_fullName]
        exact Text.cut?_append rfl (Relation.notMem_of_isIdentifier r.isSchema) _
      simp only [Tables.missingSchema?, hcut, String.ofList_toList]
      exact if_pos (by simpa using there)

end

/-! ## What is touched -/

theorem lookup_filter_ne {α : Type} {k k' : String} (hk : k' ≠ k) (l : List (String × α)) :
    (l.filter (·.1 ≠ k)).lookup k' = l.lookup k' := by
  induction l with
  | nil => rfl
  | cons entry rest ih =>
      by_cases h : entry.1 = k
      · have hne : (k' == entry.1) = false := by rw [h]; exact beq_false_of_ne hk
        rw [List.filter_cons_of_neg (by simpa using h), ih, List.lookup_cons, hne]
      · rw [List.filter_cons_of_pos (by simpa using h), List.lookup_cons, List.lookup_cons, ih]

theorem lookup_put {tables : Tables} {table k : String} (hk : k ≠ key table) (rows : List Row) :
    (tables.put table rows).tables.lookup k = tables.tables.lookup k := by
  have hothers : (tables.put table rows).tables.filter (·.1 ≠ key table) =
      tables.tables.filter (·.1 ≠ key table) :=
    congrArg (·.objects.tables) (tables.content_put table rows)
  rw [← lookup_filter_ne hk, hothers, lookup_filter_ne hk]

namespace Connection

/-- Nothing has changed but what is kept by one key. -/
structure Touches (k : String) (c c' : Connection) : Prop where
  tables : ∀ k', k' ≠ k → c'.contents.current.tables.lookup k' = c.contents.current.tables.lookup k'
  counters : ∀ k', k' ≠ k → c'.contents.counters.lookup k' = c.contents.counters.lookup k'
  schemas : c'.contents.current.schemas = c.contents.current.schemas
  snapshot : c'.snapshot = c.snapshot

variable {c : Connection} {table : String}

theorem Touches.refl {k : String} : Touches k c c :=
  ⟨fun _ _ => rfl, fun _ _ => rfl, rfl, rfl⟩

theorem Touches.trans {k : String} {c' c'' : Connection} (first : Touches k c c')
    (second : Touches k c' c'') : Touches k c c'' where
  tables k' hk := (second.tables k' hk).trans (first.tables k' hk)
  counters k' hk := (second.counters k' hk).trans (first.counters k' hk)
  schemas := second.schemas.trans first.schemas
  snapshot := second.snapshot.trans first.snapshot

theorem touches_put (rows : List Row) :
    Touches (key table) c (c.withTables (c.contents.current.put table rows)) :=
  ⟨fun _ hk => lookup_put hk rows, fun _ _ => rfl, rfl, rfl⟩

theorem touches_count : Touches (key table) c { c with contents := c.contents.count table } := by
  refine ⟨fun _ _ => rfl, fun k hk => ?_, rfl, rfl⟩
  have hne : (k == key table) = false := beq_false_of_ne hk
  show ((key table, _) :: c.contents.counters.filter (·.1 ≠ key table)).lookup k = _
  rw [List.lookup_cons, hne]
  exact lookup_filter_ne hk _

theorem touches_insert {name : String} {batch : Int} :
    Touches (key table) c (c.perform (.insert table name batch)).2 := by
  show Touches (key table) c (c.keep (c.contents.insert table name batch)).2
  unfold Contents.insert
  split
  · exact .refl
  · split
    · exact touches_count
    · exact touches_count.trans (touches_put _)

theorem touches_delete {name : String} :
    Touches (key table) c (c.perform (.delete table name)).2 := by
  show Touches (key table) c (c.keep (c.contents.delete table name)).2
  unfold Contents.delete
  split
  · exact .refl
  · exact touches_put _

/-- How a connection is looked at. The schema `main` is always there. -/
def relationView : RelationView Connection where
  rows c r := (c.contents.current.rows? r.fullName).map (·.map Row.inLedger)
  hasSchema c schema := schema = Sql.mainSchema ∨ schema ∈ c.contents.current.schemas
  sound c := ∀ r : Relation, Sound r.fullName c
  room c r := idsLeft (c.contents.nextId r.fullName)

theorem sound_of_new : relationView.sound {} :=
  fun _ => ⟨nofun, nofun⟩

variable {c' : Connection} {r : Relation} {rows : Option (List Ledger.Row)} {n used : Nat}

theorem sound_of_key {t u : String} (h : key t = key u) (sound : Sound t c) : Sound u c := by
  have hrows (tables : Tables) : tables.rows? u = tables.rows? t := by
    rw [Tables.rows?, Tables.rows?, h]
  have hnext : c.contents.nextId u = c.contents.nextId t := by
    rw [Contents.nextId, Contents.nextId, h]
  constructor
  · intro rows hu
    rw [hnext]
    exact sound.current rows ((hrows _).symm.trans hu)
  · intro tables ht rows hu
    rw [hnext]
    exact sound.snapshot tables ht rows ((hrows _).symm.trans hu)

/-- What is touched by one key leaves the rows of all others in order. -/
theorem Touches.sound {t u : String} (touches : Touches (key t) c c') (hk : key u ≠ key t)
    (sound : Sound u c) : Sound u c' := by
  have hnext : c'.contents.nextId u = c.contents.nextId u := by
    rw [Contents.nextId, touches.counters _ hk, Contents.nextId]
  constructor
  · intro rows hu
    rw [hnext]
    exact sound.current rows ((touches.tables _ hk).symm.trans hu)
  · intro tables ht rows hu
    rw [hnext]
    exact sound.snapshot tables (touches.snapshot ▸ ht) rows hu

/-- What becomes of a table becomes of its relation. -/
theorem becomes_of_touches {t : String} (named : r.NamedBy t) (sound : relationView.sound c)
    (held : (tableView t).Holds rows n c') (touches : Touches (key t) c c')
    (room : relationView.room c r ≤ n + used) : relationView.Becomes r rows used c c' := by
  have hkey := key_fullName named
  refine ⟨⟨fun q => ?_, fun q hq => ?_, ?_⟩, ?_, ?_⟩
  · by_cases hq : q = r
    · rw [hq]
      exact sound_of_key hkey.symm held.sound
    · refine touches.sound (fun h => hq (eq_of_key_fullName ?_)) (sound q)
      rw [h, hkey]
  · refine congrArg (Option.map _) (touches.tables _ fun h => hq (eq_of_key_fullName ?_))
    rw [h, hkey]
  · intro schema h
    show schema = Sql.mainSchema ∨ schema ∈ c'.contents.current.schemas
    rw [touches.schemas]
    exact h
  · rw [← held.rows]
    show Option.map _ (Tables.rows? _ _) = Option.map _ (Tables.rows? _ _)
    rw [Tables.rows?, Tables.rows?, hkey]
  · have hroom : n ≤ idsLeft (c'.contents.nextId t) := held.room
    have hnext : c'.contents.nextId r.fullName = c'.contents.nextId t := by
      rw [Contents.nextId, Contents.nextId, hkey]
    show _ ≤ idsLeft (c'.contents.nextId r.fullName) + used
    rw [hnext]
    omega

theorem rows_eq {t : String} (named : r.NamedBy t) (c : Connection) :
    relationView.rows c r = (c.contents.current.rows? t).map (·.map Row.inLedger) := by
  show Option.map _ (Tables.rows? _ _) = _
  rw [Tables.rows?, key_fullName named]
  rfl

theorem rows?_of_absent {t : String} (named : r.NamedBy t) (absent : relationView.rows c r = none) :
    c.contents.current.rows? t = none := by
  rw [rows_eq named] at absent
  exact Option.map_eq_none_iff.1 absent

/-- A relation that is sound is a table with all the room that there is. -/
theorem holds_of_relation {t : String} (named : r.NamedBy t) (sound : relationView.sound c)
    (hrows : relationView.rows c r = rows) :
    (tableView t).Holds rows (relationView.room c r) c where
  sound := sound_of_key (key_fullName named) (sound r)
  rows := (rows_eq named c).symm.trans hrows
  room := by
    show idsLeft (c.contents.nextId r.fullName) ≤ idsLeft (c.contents.nextId t)
    rw [Contents.nextId, Contents.nextId, key_fullName named]

theorem unchanged_addSchema (sound : relationView.sound c) (schema : String) :
    relationView.Unchanged c (c.withTables (c.contents.current.addSchema schema)) := by
  have hrows := c.contents.current.rows?_addSchema schema
  refine fun r => ⟨⟨fun q => ?_, fun q _ => ?_, ?_⟩, ?_, Nat.le_add_right _ 0⟩
  · exact ⟨fun rows h => (sound q).current rows ((hrows _).symm.trans h), (sound q).snapshot⟩
  · exact congrArg (Option.map _) (hrows q.fullName)
  · intro other h
    refine h.imp_right fun hmem => ?_
    show other ∈ (c.contents.current.addSchema schema).schemas
    unfold Tables.addSchema
    split
    · exact hmem
    · exact List.mem_append_left _ hmem
  · exact congrArg (Option.map _) (hrows r.fullName)

theorem perform_createTable_of_namedBy {t : String} (named : r.NamedBy t)
    (there : relationView.hasSchema c r.schema) : c.perform (.createTable t) =
      (.ok 0, c.withTables (if (c.contents.current.rows? t).isSome then c.contents.current
        else c.contents.current.put t [])) := by
  show c.change (c.contents.current.withSchema _ _) = _
  rw [Tables.withSchema, missingSchema?_of_namedBy named there]
  rfl

/-- A table that is made is there without rows, unless it was there before. -/
theorem becomes_of_createTable {t : String} (named : r.NamedBy t) (sound : relationView.sound c) :
    relationView.Becomes r (some ((relationView.rows c r).getD [])) 0 c
      (c.withTables (if (c.contents.current.rows? t).isSome then c.contents.current
        else c.contents.current.put t [])) := by
  have held := holds_of_relation named sound rfl
  rw [rows_eq named]
  cases hrows : c.contents.current.rows? t with
  | some rows =>
      have hsome : relationView.rows c r = some (rows.map Row.inLedger) := by
        rw [rows_eq named, hrows]
        rfl
      rw [Option.isSome_some, if_pos rfl, Option.map_some, Option.getD_some, ← hsome]
      exact RelationView.Unchanged.refl sound r
  | none =>
      refine becomes_of_touches named sound
        ⟨sound_of_put held.sound _ rfl (Nat.le_refl _) ⟨.nil, by simp, by simp⟩, ?_, held.room⟩
        (touches_put []) (Nat.le_add_right _ 0)
      exact congrArg (Option.map (·.map Row.inLedger)) (Tables.rows?_put _ _ _)

end Connection

open Connection in
/-- A connection does with the texts about relations what they say. -/
def Connection.relationEngine : RelationEngine Connection.engine where
  toRelationView := relationView
  main _ := .inl rfl
  schemaMade := by
    intro sql schema c hsql _ sound
    refine ⟨0, _, ?_, unchanged_addSchema sound schema, .inr (mem_addSchema _ _)⟩
    rw [execute_of_ofText hsql]
    rfl
  tableMade := by
    intro sql sequence table q r c hsql hq hr hasQ hasR sound
    have hsequence : c.perform (.createSequence sequence) = (.ok 0, c) := by
      show c.change (c.contents.current.withSchema _ _) = _
      rw [Tables.withSchema, missingSchema?_of_namedBy hq hasQ]
      rfl
    refine ⟨_, ?_, becomes_of_createTable hr sound⟩
    rw [batch_of_ofBatch hsql, performAll, hsequence]
    simp only [performAll, perform_createTable_of_namedBy hr hasR]
  asked := by
    intro sql r c hsql sound
    have hkey : (if r.schema = Sql.mainSchema then r.name else r.schema ++ "." ++ r.name) =
        key r.fullName := (key_of_namedBy .full).symm
    refine ⟨if (c.contents.current.rows? r.fullName).isSome then 1 else 0, c, ?_, ?_, .refl sound⟩
    · show (answer c.contents.current (.ofText sql), c) = _
      rw [hsql, answer, hkey, Tables.any_key]
      cases (c.contents.current.rows? r.fullName).isSome <;> rfl
    · show _ ↔ (Option.map _ (c.contents.current.rows? r.fullName)).isSome = true
      rw [Option.isSome_map]
      cases (c.contents.current.rows? r.fullName).isSome <;> simp
  listed := by
    intro sql table r rs c hsql named sound hrows
    obtain ⟨c', h, -⟩ := (ledgerEngine table named.isQualifiedName).listed hsql
      (holds_of_relation named sound hrows)
    obtain rfl : c = c' := congrArg Prod.snd h
    exact ⟨c, h, .refl sound⟩
  numbered := by
    intro sql table r rs c hsql named sound hrows small
    obtain ⟨c', h, -⟩ := (ledgerEngine table named.isQualifiedName).numbered hsql
      (holds_of_relation named sound hrows) small
    obtain rfl : c = c' := congrArg Prod.snd h
    exact ⟨c, h, .refl sound⟩
  counted := by
    intro sql table name r rs c hsql named sound hrows
    obtain ⟨c', h, -⟩ := (ledgerEngine table named.isQualifiedName).counted hsql
      (holds_of_relation named sound hrows)
    obtain rfl : c = c' := congrArg Prod.snd h
    exact ⟨c, h, .refl sound⟩
  queryRefused := by
    intro sql table r c about named sound absent
    have hrows := rows?_of_absent named absent
    refine ⟨missingTable table, c, ?_, .refl sound⟩
    show (answer c.contents.current (.ofText sql), c) = _
    cases hq : Query.ofText sql with
    | relations => rw [hq] at about; cases about
    | unknown => rw [hq] at about; cases about
    | rows | nextBatch | named =>
        rw [hq] at about
        cases about
        rw [answer, fromRows, hrows]
  inserted := by
    intro sql table name batch r rs c hsql small named sound hrows room fresh
    obtain ⟨n, hn⟩ := Nat.exists_eq_succ_of_ne_zero (Nat.ne_of_gt room)
    have held := holds_of_relation named sound hrows
    rw [hn] at held
    obtain ⟨affected, id, time, c', h, above, range, moment, held'⟩ :=
      (ledgerEngine table named.isQualifiedName).inserted hsql small held fresh
    refine ⟨affected, id, time, c', h, above, range, moment, ?_⟩
    rw [execute_of_ofText hsql] at h
    obtain rfl : (c.perform _).2 = c' := congrArg Prod.snd h
    exact becomes_of_touches named sound held' touches_insert (Nat.le_of_eq hn)
  deleted := by
    intro sql table name r rs c hsql named sound hrows
    obtain ⟨c', h, held'⟩ := (ledgerEngine table named.isQualifiedName).deleted hsql
      (holds_of_relation named sound hrows)
    refine ⟨c', h, ?_⟩
    rw [execute_of_ofText hsql] at h
    obtain rfl : (c.perform _).2 = c' := congrArg Prod.snd h
    exact becomes_of_touches named sound held' touches_delete (Nat.le_add_right _ 0)
  deletionRefused := by
    intro sql table name r c hsql named sound absent
    refine ⟨missingTable table, c, ?_, .refl sound⟩
    rw [execute_of_ofText hsql]
    show c.keep (c.contents.delete table name) = _
    rw [Contents.delete, rows?_of_absent named absent]
    rfl

end Store

end SchemaLedger
