import SchemaLedger.Ledger.Basic
import SchemaLedger.Proofs.SchemaDemands

/-!
# When two columns draw from one sequence

The sequence behind a column that counts up is named after the table and the column, with
an underscore between them. Both names may hold underscores themselves, so the joint cannot
be found again in the name: `order_item` with the column `id` and `order` with the column
`item_id` both come to `order_item_id_seq`. The sequence is created only if it is absent, so
nothing reports that it is shared.

Cutting one text in two ways leaves a middle part that belongs to the table in one cut and to
the column in the other. `Straddles` names that part, and it is the only way in which two
columns can meet, `Builder.sequenceName_eq_iff`. The sequence of a ledger is that of a column
`id`, and no cut of `id` is possible, so there only one of the two ways is left.
-/

namespace SchemaLedger

/-- A middle part ends the name of the first table and begins the name of the second
column. -/
def Straddles (table column table' column' : String) : Prop :=
  ∃ middle, table = table' ++ "_" ++ middle ∧ column' = middle ++ "_" ++ column

namespace Builder

theorem straddles_of_append {s t c d : List Char} {x : Char} {m : List Char}
    (htable : t = s ++ m) (hcolumn : x :: c = m ++ x :: d) :
    (t = s ∧ c = d) ∨ ∃ middle, t = s ++ x :: middle ∧ c = middle ++ x :: d := by
  cases m with
  | nil =>
      cases hcolumn
      exact .inl ⟨htable.trans (List.append_nil s), rfl⟩
  | cons y middle =>
      cases hcolumn
      exact .inr ⟨middle, htable, rfl⟩

theorem straddles_iff {table column table' column' : String} :
    Straddles table column table' column' ↔
      ∃ middle, table.toList = table'.toList ++ '_' :: middle ∧
        column'.toList = middle ++ '_' :: column.toList := by
  constructor
  · rintro ⟨middle, rfl, rfl⟩
    exact ⟨middle.toList, by simp, by simp⟩
  · rintro ⟨middle, htable, hcolumn⟩
    exact ⟨String.ofList middle, String.toList_inj.1 (by simp [htable]),
      String.toList_inj.1 (by simp [hcolumn])⟩

theorem toList_sequenceName (table column : String) : (sequenceName table column).toList =
    (table.toList ++ '_' :: column.toList) ++ "_seq".toList := by
  unfold sequenceName
  simp

/-- Two columns have the same sequence if they are the same column of the same table, or if
what ends the name of one table begins the name of the other column. -/
theorem sequenceName_eq_iff {table column table' column' : String} :
    sequenceName table column = sequenceName table' column' ↔
      (table = table' ∧ column = column') ∨ Straddles table column table' column' ∨
        Straddles table' column' table column := by
  rw [← String.toList_inj, toList_sequenceName, toList_sequenceName, List.append_left_inj,
    straddles_iff, straddles_iff]
  constructor
  · intro h
    rcases List.append_eq_append_iff.1 h with ⟨m, htable, hcolumn⟩ | ⟨m, htable, hcolumn⟩
    · rcases straddles_of_append htable hcolumn with ⟨ht, hc⟩ | hm
      · exact .inl ⟨String.toList_inj.1 ht.symm, String.toList_inj.1 hc⟩
      · exact .inr (.inr hm)
    · rcases straddles_of_append htable hcolumn with ⟨ht, hc⟩ | hm
      · exact .inl ⟨String.toList_inj.1 ht, String.toList_inj.1 hc.symm⟩
      · exact .inr (.inl hm)
  · rintro (⟨rfl, rfl⟩ | ⟨m, ht, hc⟩ | ⟨m, ht, hc⟩)
    · rfl
    · rw [ht, hc, List.append_assoc, List.cons_append]
    · rw [ht, hc, List.append_assoc, List.cons_append]

/-- The second column takes the joint over. -/
theorem notStraddles_of_notMem {table column table' column' : String} (h : '_' ∉ column'.toList) :
    ¬ Straddles table column table' column' := by
  intro hstraddles
  obtain ⟨middle, _, hcolumn⟩ := straddles_iff.1 hstraddles
  exact h (hcolumn ▸ List.mem_append_right _ List.mem_cons_self)

theorem ledger_sequenceName (ledger : String) :
    Ledger.sequenceName ledger = sequenceName ledger "id" := by
  rw [Ledger.sequenceName, sequenceName, String.append_assoc, String.append_assoc]
  rfl

/-- Another table has the sequence of a ledger just if its name is a beginning of the
ledger's, and its column is the rest with `id` behind. -/
theorem sequenceName_eq_ledger_iff {ledger table column : String} (other : ledger ≠ table) :
    sequenceName table column = Ledger.sequenceName ledger ↔
      Straddles ledger "id" table column := by
  rw [ledger_sequenceName, sequenceName_eq_iff]
  constructor
  · rintro (⟨rfl, _⟩ | h | h)
    · exact absurd rfl other
    · exact absurd h (notStraddles_of_notMem (by decide))
    · exact h
  · exact fun h => .inr (.inr h)

end Builder

/-! ## Columns that count up -/

namespace Schema

/-- The schema change creates the table with the clause, which `increments` introduces and
whose chain leaves its default alone. -/
def CountsUp (schema : Schema) (table : String) (clause : Clause) : Prop :=
  ∃ body links, .createTable (Builder.build table body) ∈ schema ∧
    .column .increments clause.name links ∈ body ∧
    (∀ value, .default value ∉ Link.modifiers links) ∧
    (Call.column .increments clause.name links).clauses table = [clause]

variable {schema : Schema} {table : String} {clause : Clause}

theorem CountsUp.sequence? (h : schema.CountsUp table clause) :
    clause.sequence? = some (Builder.sequenceName table clause.name) := by
  obtain ⟨body, links, _, _, hdefault, hclause⟩ := h
  have heq : clause = .ofModifiers clause.name .integer
      (Introduction.modifiers table clause.name .increments ++ Link.modifiers links) :=
    (List.singleton_inj.1 hclause).symm
  have hlinks : (Link.modifiers links).reverse.findSome? Modifier.defaultValue? = none := by
    rw [List.findSome?_eq_none_iff]
    intro m hm
    cases m with
    | default value => exact absurd (List.mem_reverse.1 hm) (hdefault value)
    | _ => rfl
  rw [Clause.sequence?_eq_some_iff, heq, Clause.defaultValue?_ofModifiers, List.reverse_append,
    List.findSome?_append, hlinks]
  rw [← heq]
  rfl

theorem createSequence_mem_of_compile {statements : List String}
    (compiled : schema.compile = .ok statements) {created : Table}
    (hcreated : .createTable created ∈ schema) {sequence : String}
    (hsequence : sequence ∈ created.sequences) :
    "CREATE SEQUENCE IF NOT EXISTS " ++ sequence ∈ statements := by
  obtain ⟨_, rfl⟩ := schema.compile_settles.ok_iff.1 compiled
  refine List.mem_flatMap.2 ⟨_, hcreated, List.mem_append_left _ ?_⟩
  exact List.mem_map_of_mem hsequence

theorem CountsUp.createSequence_mem (h : schema.CountsUp table clause) {statements : List String}
    (compiled : schema.compile = .ok statements) :
    "CREATE SEQUENCE IF NOT EXISTS " ++ Builder.sequenceName table clause.name ∈ statements := by
  have hsequence := h.sequence?
  obtain ⟨body, links, hcreated, hcall, _, hclause⟩ := h
  refine createSequence_mem_of_compile compiled hcreated
    (Table.mem_sequences.2 ⟨clause, ?_, hsequence⟩)
  rw [Builder.build_eq]
  exact List.mem_flatMap.2 ⟨_, hcall, hclause ▸ List.mem_singleton_self clause⟩

/-- Each column that counts up draws from a sequence that the statements create. Two such
columns draw from the same one just if they are one column of one table, or if a middle part
of the name can be cut off at either end; and one of them draws from the sequence of a ledger
in another table just if the ledger's name can be cut in that way. -/
theorem sequence_shared_iff {first second : Schema} {statements statements' : List String}
    (compiled : first.compile = .ok statements) (compiled' : second.compile = .ok statements')
    {table table' : String} {clause clause' : Clause} (h : first.CountsUp table clause)
    (h' : second.CountsUp table' clause') :
    ∃ sequence sequence', clause.sequence? = some sequence ∧
      clause'.sequence? = some sequence' ∧
      "CREATE SEQUENCE IF NOT EXISTS " ++ sequence ∈ statements ∧
      "CREATE SEQUENCE IF NOT EXISTS " ++ sequence' ∈ statements' ∧
      (sequence = sequence' ↔ (table = table' ∧ clause.name = clause'.name) ∨
        Straddles table clause.name table' clause'.name ∨
        Straddles table' clause'.name table clause.name) ∧
      ∀ ledger, ledger ≠ table →
        (sequence = Ledger.sequenceName ledger ↔ Straddles ledger "id" table clause.name) :=
  ⟨_, _, h.sequence?, h'.sequence?, h.createSequence_mem compiled,
    h'.createSequence_mem compiled', Builder.sequenceName_eq_iff,
    fun _ other => Builder.sequenceName_eq_ledger_iff other⟩

/-- Tables with a column that counts up. -/
def teams : Schema :=
  [.createTable (Builder.build "team_member" [.column .increments "id" []]),
    .createTable (Builder.build "team" [.column .increments "member_id" [.unique]]),
    .createTable (Builder.build "match" [.column .increments "id" []])]

/-- The statements of the tables. The first sequence is created twice. -/
def teamsStatements : List String :=
  ["CREATE SEQUENCE IF NOT EXISTS team_member_id_seq",
    "CREATE TABLE IF NOT EXISTS team_member (" ++
      "id INTEGER DEFAULT nextval('team_member_id_seq') PRIMARY KEY)",
    "CREATE SEQUENCE IF NOT EXISTS team_member_id_seq",
    "CREATE TABLE IF NOT EXISTS team (" ++
      "member_id INTEGER DEFAULT nextval('team_member_id_seq') PRIMARY KEY UNIQUE)",
    "CREATE SEQUENCE IF NOT EXISTS match_id_seq",
    "CREATE TABLE IF NOT EXISTS match (" ++
      "id INTEGER DEFAULT nextval('match_id_seq') PRIMARY KEY)"]

/-- The column that `increments` makes. -/
def counter (table name : String) (ms : List Modifier) : Clause :=
  .ofModifiers name .integer
    ([.default (.nextValue (Builder.sequenceName table name)), .primaryKey] ++ ms)

theorem teams_countsUp : teams.CountsUp "team_member" (counter "team_member" "id" []) ∧
    teams.CountsUp "team" (counter "team" "member_id" [.unique]) ∧
    teams.CountsUp "match" (counter "match" "id" []) := by
  refine ⟨⟨_, [], .head _, .head _, nofun, rfl⟩,
    ⟨_, [.unique], .tail _ (.head _), .head _, ?_, rfl⟩,
    ⟨_, [], .tail _ (.tail _ (.head _)), .head _, nofun, rfl⟩⟩
  intro value hvalue
  cases List.mem_singleton.1 hvalue

theorem sequence_shared_iff_of_teams :
    teams.compile = .ok teamsStatements ∧
      teams.CountsUp "team_member" (counter "team_member" "id" []) ∧
      teams.CountsUp "team" (counter "team" "member_id" [.unique]) ∧
      teams.CountsUp "match" (counter "match" "id" []) ∧
      (counter "team_member" "id" []).sequence? =
        (counter "team" "member_id" [.unique]).sequence? ∧
      (counter "team_member" "id" []).sequence? ≠ (counter "match" "id" []).sequence? ∧
      (counter "match" "id" []).sequence? ≠ some (Ledger.sequenceName "tw_migrations") := by
  have compiled : teams.compile = .ok teamsStatements := by decide +kernel
  obtain ⟨hmember, hteam, hmatch⟩ := teams_countsUp
  obtain ⟨s, s', hs, hs', _, _, hshared, _⟩ :=
    sequence_shared_iff compiled compiled hmember hteam
  obtain ⟨t, t', ht, ht', _, _, hapart, _⟩ :=
    sequence_shared_iff compiled compiled hmember hmatch
  obtain ⟨u, _, hu, _, _, _, _, hledger⟩ :=
    sequence_shared_iff compiled compiled hmatch hmatch
  refine ⟨compiled, hmember, hteam, hmatch, ?_, ?_, ?_⟩
  · rw [hs, hs', hshared.2 (.inr (.inl ⟨"member", rfl, rfl⟩))]
  · rw [ht, ht']
    intro heq
    rcases hapart.1 (Option.some.inj heq) with ⟨hne, _⟩ | h | h
    · exact absurd hne (by decide)
    · exact absurd h (Builder.notStraddles_of_notMem (by decide))
    · exact absurd h (Builder.notStraddles_of_notMem (by decide))
  · rw [hu]
    intro heq
    have h := (hledger "tw_migrations" (by decide)).1 (Option.some.inj heq)
    exact absurd h (Builder.notStraddles_of_notMem (by decide))

/-- Different columns of different tables have one sequence, and so have a column and the
ledger of another table. -/
theorem sequences_not_distinct :
    (∃ table column table' column', Sql.Qualified table ∧ Sql.isIdentifier column = true ∧
      Sql.Qualified table' ∧ Sql.isIdentifier column' = true ∧
      (table, column) ≠ (table', column') ∧
      Builder.sequenceName table column = Builder.sequenceName table' column') ∧
    (teams.compile = .ok teamsStatements ∧
      (counter "team_member" "id" []).sequence? =
        (counter "team" "member_id" [.unique]).sequence?) ∧
    ∃ table column ledger, Sql.Qualified table ∧ Sql.isIdentifier column = true ∧
      Sql.Qualified ledger ∧ ledger ≠ table ∧
      Builder.sequenceName table column = Ledger.sequenceName ledger := by
  refine ⟨⟨"team_member", "id", "team", "member_id", .inl (by decide), by decide,
    .inl (by decide), by decide, by decide, rfl⟩, ⟨by decide +kernel, by decide +kernel⟩,
    ⟨"tw", "migrations_id", "tw_migrations", .inl (by decide), by decide, .inl (by decide),
      by decide, rfl⟩⟩

end Schema

end SchemaLedger
