import SchemaLedger.Proofs.LoadedProject
import SchemaLedger.Proofs.StoreRelations
import SchemaLedger.Source.Registry

/-!
# The ledger of a name is one relation

A ledger is known by the name of its table, and several parts of the program look at that
name: the check before the set-up, the check of a configuration, the statements, the question
whether the table is there. `names_one_relation` says that they agree for every text. One that
the check lets pass stands for one relation, which all work with the ledger is about, and any
other is turned away, by the set-up before anything is called and by the configuration before
there is any work.
-/

namespace SchemaLedger

open Sql (Relation)

/-! ## Names that are turned away -/

theorem Ledger.setup_of_invalid {table : String} {e : SchemaError}
    (invalid : Sql.checkQualifiedName table = .error e) :
    setup table = throw (.ledgerSetup (.invalidTable e)) := by
  rw [setup, invalid]

theorem Migrate.apply_of_invalid {table : String} {e : SchemaError} (source : Source)
    (invalid : Sql.checkQualifiedName table = .error e) :
    apply source table = throw (.ledgerSetup (.invalidTable e)) := by
  rw [apply, Ledger.setup_of_invalid invalid]
  rfl

namespace Configuration

variable {c : Configuration}

theorem check_of_valid (h : c.check = .ok ()) : Sql.isQualifiedName c.ledgerTable = true := by
  unfold check at h
  split at h
  · cases h
  · split at h
    · cases h
    · split at h
      · cases h
      · next hvalid => simpa using hvalid

/-- The name of the table is the last thing that is looked at. -/
theorem check_of_invalid (invalid : Sql.isQualifiedName c.ledgerTable = false) :
    ∃ fault, c.check = .error fault ∧ (c.name ≠ "" → c.migrationsDirectory ≠ "" →
      fault = .invalidLedgerTable c.ledgerTable) := by
  unfold check
  split
  · next hname => exact ⟨_, rfl, fun h => absurd hname h⟩
  · split
    · next hdirectory => exact ⟨_, rfl, fun _ h => absurd hdirectory h⟩
    · rw [invalid]
      exact ⟨_, rfl, fun _ _ => rfl⟩

end Configuration

/-! ## Names that pass -/

namespace Ledger

variable {table : String} {es : List Exchange}

theorem SetUp.ne_invalidTable {r : Except MigrateError Unit} (setUp : SetUp table es r)
    (valid : Sql.checkQualifiedName table = .ok ()) (fault : SchemaError) :
    r ≠ .error (.ledgerSetup (.invalidTable fault)) := by
  cases setUp with
  | invalidName invalid => rw [valid] at invalid; cases invalid
  | schemaRefused => nofun
  | @unqualified reply => cases reply <;> nofun
  | @qualified reply => cases reply <;> nofun

/-- The schema comes first, and only where the name has one. -/
theorem SetUp.schema_first {r : Except MigrateError Unit} {schema : String}
    (setUp : SetUp table es r) (valid : Sql.checkQualifiedName table = .ok ())
    (hschema : (Sql.splitQualified table).1 = schema) :
    ∃ rest, es.map (·.call) =
        (if '.' ∈ table.toList then [.createSchema schema] else []) ++ rest ∧
      ∀ call ∈ rest, call = .executeBatch (setupScript table) := by
  subst hschema
  cases setUp with
  | invalidName invalid => rw [valid] at invalid; cases invalid
  | schemaRefused qualified =>
      rw [if_pos (List.contains_iff_mem.1 qualified)]
      exact ⟨[], rfl, nofun⟩
  | unqualified unqualified =>
      rw [if_neg (by simpa using unqualified)]
      exact ⟨_, rfl, by simp⟩
  | qualified qualified =>
      rw [if_pos (List.contains_iff_mem.1 qualified)]
      exact ⟨_, rfl, by simp⟩

theorem Unchanged.ne_ledgerSetup {name : Name} {change : LedgerChange} {e : MigrateError}
    (unchanged : Unchanged table name change es e) (fault : LedgerSetupFault) :
    e ≠ .ledgerSetup fault := by
  cases unchanged with
  | insertRefused batch e =>
      unfold insertFailure
      split <;> nofun
  | _ => nofun

end Ledger

theorem Block.Abandoned.ne_ledgerSetup {table : String} {b : Block} {es : List Exchange}
    {e : MigrateError} (abandoned : b.Abandoned table es e) (fault : LedgerSetupFault) :
    e ≠ .ledgerSetup fault := by
  cases abandoned with
  | failed fails =>
      cases fails with
      | statement => nofun
      | change unchanged => exact unchanged.ne_ledgerSetup fault
  | _ => nofun

namespace Migrate

variable {source : Source} {table : String} {es : List Exchange}

theorem Carried.ne_ledgerSetup {batch : Int} {names : List Name} {r : Except MigrateError Unit}
    (carried : Carried table (names.map (upBlock source batch)) es r) (fault : LedgerSetupFault) :
    r ≠ .error (.ledgerSetup fault) := by
  induction names generalizing es with
  | nil => cases carried; nofun
  | cons name rest ih =>
      rw [List.map_cons] at carried
      generalize hblock : upBlock source batch name = block at carried
      cases carried with
      | next _ carried => exact ih carried
      | missing =>
          rintro ⟨⟩
          cases upBlock_error hblock
      | abandoned abandoned =>
          rintro ⟨⟩
          exact abandoned.ne_ledgerSetup fault rfl

/-- Behind the set-up, applying fails in other ways. -/
theorem ApplyRun.ne_invalidTable {r : Except MigrateError ApplyReport}
    (run : ApplyRun source table es r) (valid : Sql.checkQualifiedName table = .ok ())
    (fault : SchemaError) : r ≠ .error (.ledgerSetup (.invalidTable fault)) := by
  cases run with
  | notSetUp setup =>
      rintro ⟨⟩
      exact setup.ne_invalidTable valid fault rfl
  | notRead _ read =>
      rintro ⟨⟩
      obtain ⟨f, hf⟩ := Ledger.recordsOf_error read
      cases hf
  | notListed => nofun
  | nothingPending => nofun
  | noBatch _ _ _ _ numbered =>
      rintro ⟨⟩
      obtain ⟨f, hf⟩ := Ledger.batchOf_error numbered
      cases hf
  | @carried _ _ _ _ _ _ _ r _ _ _ _ _ carried =>
      cases r with
      | ok _ => nofun
      | error e =>
          rintro ⟨⟩
          exact carried.ne_ledgerSetup _ rfl

end Migrate

/-! ## Any text as the name of a table -/

namespace Ledger

/-- A text stands for one relation as the table of a ledger. Its parts are those of the name, the
set-up makes the schema if and only if the text has one, the table and the sequence of the script
are in that schema, and over an engine that finds relations by their names all that is done with
the ledger is about this relation. -/
structure StandsFor (table : String) (r : Relation) : Prop where
  split : Sql.splitQualified table = (r.schema, r.name)
  parts : if '.' ∈ table.toList then table = r.schema ++ "." ++ r.name
    else r.schema = Sql.mainSchema ∧ r.name = table
  calls {σ : Type} (db : Database σ) (s : σ) : ∃ rest, ((setup table).hold db s).calls =
      (if '.' ∈ table.toList then [.createSchema r.schema] else []) ++ rest ∧
    ∀ call ∈ rest, call = .executeBatch (setupScript table)
  script : Store.Statement.ofBatch (setupScript table) =
    [.createSequence (sequenceName table), .createTable table]
  draws : ∃ front behind, setupScript table =
    front ++ ("nextval(" ++ Sql.Literal.quote (sequenceName table) ++ behind)
  named : Sql.checkQualifiedName table = .ok () ∧ r.NamedBy table
  sequence : Sql.checkQualifiedName (sequenceName table) = .ok () ∧
    r.sequence.NamedBy (sequenceName table)
  spokenOf {σ : Type} {engine : Engine σ} (E : RelationEngine engine) : E.SpeaksOf table r

/-- A text is turned away as the table of a ledger: by the set-up, and so by applying, before
anything is called, and by the check of a configuration that names it. -/
structure IsTurnedAway (table : String) (fault : SchemaError) : Prop where
  setup {σ : Type} (db : Database σ) (s : σ) : (setup table).hold db s =
    ⟨.error (.ledgerSetup (.invalidTable fault)), s, []⟩
  apply {σ : Type} (db : Database σ) (s : σ) (source : Source) :
    (Migrate.apply source table).hold db s =
      ⟨.error (.ledgerSetup (.invalidTable fault)), s, []⟩
  configuration (content : String) (c : Configuration) :
    Yaml.Decode.run Configuration.read (.ofText content) = .ok c → c.ledgerTable = table →
    ∃ why, Configuration.parse content = .error (.invalid why) ∧
      (c.name ≠ "" → c.migrationsDirectory ≠ "" → why = .invalidLedgerTable table)

variable {table : String}

theorem checkQualifiedName_eq_ok_iff :
    Sql.checkQualifiedName table = .ok () ↔ Sql.isQualifiedName table = true :=
  ⟨Sql.isQualifiedName_of_check, fun valid => if_pos valid⟩

theorem standsFor {r : Relation} (named : r.NamedBy table) : StandsFor table r where
  split := named.split
  parts := named.parts
  calls db s := (setup_admits ((setup table).hold_admits db s)).schema_first
    (checkQualifiedName_eq_ok_iff.2 named.isQualifiedName) (congrArg Prod.fst named.split)
  script := Store.Statement.ofBatch_setupScript named.isQualifiedName
  draws := setupScript_draws named.isQualifiedName
  named := ⟨checkQualifiedName_eq_ok_iff.2 named.isQualifiedName, named⟩
  sequence := ⟨checkQualifiedName_eq_ok_iff.2 named.sequence.isQualifiedName, named.sequence⟩
  spokenOf _ := RelationEngine.speaksOf named

theorem isTurnedAway {fault : SchemaError} (invalid : Sql.checkQualifiedName table = .error fault) :
    IsTurnedAway table fault where
  setup db s := by
    rw [setup_of_invalid invalid]
    rfl
  apply db s source := by
    rw [Migrate.apply_of_invalid source invalid]
    rfl
  configuration := by
    rintro content c hread rfl
    have hinvalid : Sql.isQualifiedName c.ledgerTable = false := by
      rw [Bool.eq_false_iff]
      intro valid
      rw [checkQualifiedName_eq_ok_iff.2 valid] at invalid
      cases invalid
    obtain ⟨why, hwhy, hlast⟩ := Configuration.check_of_invalid hinvalid
    refine ⟨why, ?_, hlast⟩
    rw [Configuration.parse_of_read hread, hwhy]
    rfl

/-- Any text either passes the check of names and stands for one relation, or it does not pass
and is turned away. The configuration of a project that is loaded has one that passes, so
neither the set-up nor applying ever fails because of it. -/
theorem names_one_relation (table : String) :
    (Sql.checkQualifiedName table = .ok () → ∃ r : Relation, StandsFor table r) ∧
    (∀ fault, Sql.checkQualifiedName table = .error fault → IsTurnedAway table fault) ∧
    ∀ (files : FileTree) (root : Path) (given : Option String) (p : Project),
      Project.load files root given = .ok p → p.configuration.ledgerTable = table →
      Sql.checkQualifiedName table = .ok () ∧
      ∀ {σ : Type} (db : Database σ) (s : σ) (source : Source) (fault : SchemaError),
        ((setup table).hold db s).result ≠ .error (.ledgerSetup (.invalidTable fault)) ∧
        ((Migrate.apply source table).hold db s).result ≠
          .error (.ledgerSetup (.invalidTable fault)) := by
  refine ⟨fun passes => ?_, fun fault invalid => isTurnedAway invalid, ?_⟩
  · obtain ⟨r, named⟩ := Relation.exists_namedBy (checkQualifiedName_eq_ok_iff.1 passes)
    exact ⟨r, standsFor named⟩
  · rintro files root given p loaded rfl
    have passes := checkQualifiedName_eq_ok_iff.2
      (Configuration.check_of_valid (Project.check_of_load loaded))
    refine ⟨passes, fun db s source fault => ⟨?_, ?_⟩⟩
    · exact (setup_admits (Work.hold_admits _ _ _)).ne_invalidTable passes fault
    · exact (Migrate.apply_admits (Work.hold_admits _ _ _)).ne_invalidTable passes fault

/-- A project whose ledger is in a schema of its own. -/
def audited : FileTree where
  entries := [(["tablewright.yml"], .file "name: p\nledger_table: audit.applied\n")]

/-- What is done with its ledger once it is set up. -/
def auditing : List LedgerOperation := [.record ⟨"3_pets", by decide⟩ 1, .list, .nextBatch]

/-- A name with one dot is let pass, and one with two is not. -/
theorem names_one_relation_of_audited :
    (∃ r : Relation, Sql.splitQualified "audit.applied" = (r.schema, r.name) ∧
      "audit.applied" = r.schema ++ "." ++ r.name ∧
      (∃ rest, ((setup "audit.applied").hold Store.Connection.engine.database {}).calls =
        .createSchema r.schema :: rest) ∧
      ((isPresent "audit.applied").hold Store.Connection.engine.database {}).result = .ok false ∧
      ((setup "audit.applied" >>= fun _ => isPresent "audit.applied").hold
        Store.Connection.engine.database {}).result = .ok true ∧
      ∃ es, Effects auditing [] (LedgerOperation.runAll Store.Connection.engine.database
        "audit.applied" auditing ((setup "audit.applied").hold
          Store.Connection.engine.database {}).state).1 es) ∧
    (setup "a.b.c").hold Store.Connection.engine.database {} =
      ⟨.error (.ledgerSetup (.invalidTable (.invalidIdentifier "a.b.c"))), {}, []⟩ ∧
    Configuration.parse "name: p\nledger_table: a.b.c\n" =
      .error (.invalid (.invalidLedgerTable "a.b.c")) ∧
    Project.load audited ⟨"."⟩ none =
      .ok ⟨⟨"."⟩, { name := "p", ledgerTable := "audit.applied" }⟩ ∧
    ((setup "audit.applied").hold Store.Connection.engine.database {}).result ≠
      .error (.ledgerSetup (.invalidTable (.invalidIdentifier "audit.applied"))) := by
  have loaded : Project.load audited ⟨"."⟩ none =
      .ok ⟨⟨"."⟩, { name := "p", ledgerTable := "audit.applied" }⟩ := by rfl
  have hread : Yaml.Decode.run Configuration.read (.ofText "name: p\nledger_table: a.b.c\n") =
      .ok { name := "p", ledgerTable := "a.b.c" } := by rfl
  obtain ⟨hpasses, -, hloaded⟩ := names_one_relation "audit.applied"
  obtain ⟨-, hrefused, -⟩ := names_one_relation "a.b.c"
  obtain ⟨passes, hnever⟩ := hloaded audited ⟨"."⟩ none _ loaded rfl
  obtain ⟨r, stands⟩ := hpasses passes
  have away := hrefused (.invalidIdentifier "a.b.c") rfl
  obtain ⟨why, hwhy, hlast⟩ := away.configuration _ _ hread rfl
  have hdot : '.' ∈ "audit.applied".toList := by decide
  have sound : Store.Connection.relationEngine.sound {} := Store.Connection.sound_of_new
  have speaks := stands.spokenOf Store.Connection.relationEngine
  have hparts := stands.parts
  obtain ⟨rest, hcalled, -⟩ := stands.calls Store.Connection.engine.database {}
  obtain ⟨-, becomes⟩ := speaks.ensured {} sound
  have room : auditing.countP (·.needsId) ≤ Store.Connection.idsLeft 1 := by
    unfold Store.Connection.idsLeft
    decide
  have left := becomes.room
  rw [Nat.add_zero] at left
  obtain ⟨rs, es, heffects, -⟩ := speaks.entries _ auditing [] [] becomes.sound becomes.rows .nil
    ⟨.nil, .nil, by simp, by simp⟩ (by decide) (Nat.le_trans room left)
  obtain ⟨hnever', -⟩ := hnever Store.Connection.engine.database {} (Registry.mk []).source
    (.invalidIdentifier "audit.applied")
  rw [if_pos hdot] at hparts hcalled
  refine ⟨⟨r, stands.split, hparts, ⟨rest, hcalled⟩, (speaks.present {} sound).1,
    speaks.presentAfter {} sound, es, heffects⟩,
    away.setup Store.Connection.engine.database {}, ?_, loaded, hnever'⟩
  rw [hwhy, hlast (by decide) (by decide)]

end Ledger

end SchemaLedger
