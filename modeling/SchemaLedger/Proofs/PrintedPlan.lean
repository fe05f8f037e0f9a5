import SchemaLedger.Command.Run
import SchemaLedger.Proofs.Decoding
import SchemaLedger.Proofs.Discovery
import SchemaLedger.Proofs.RunTrace

/-!
# What a dry run prints

A dry run asks the database what is pending, plans it and prints the whole plan, if there is
one. Compiling asks no database, takes migrations one by one, and prints those that it could
compile before the first that fails. The two go separate ways to the same statements. Here it
is shown that they meet: each migration is compiled by both or fails with both for the same
cause, so a list of migrations is planned by one if it is compiled to the end by the other, and
the plan is the same. That a database may have to have its directory made first does not
matter, because the migrations stay the same.
-/

namespace SchemaLedger

/-! ## Compiling a list -/

/-- A dry run and compiling fail at a migration for the same cause. -/
inductive FailsAlike (name : Name) : Failure → Failure → Prop
  | load (e : SourceError) : FailsAlike name (.plan (.load name e)) (.loadMigration name e)
  | compile (e : SchemaError) : FailsAlike name (.plan (.compile name e)) (.compileMigration name e)

namespace Compilation

open Migrate

variable {source : Source} {names : List Name} {name : Name}

theorem planned_of_load {definition : Definition} (h : source.load name = .ok definition) :
    planned source false name =
      (definition.up.compile.mapError (.compileMigration name)).map (⟨name, ·⟩) := by
  rw [planned, h]
  change (do return ⟨name, ← definition.up.compile.mapError (.compileMigration name)⟩ :
    Except Failure Planned) = _
  cases definition.up.compile <;> rfl

theorem upStatements_of_load {definition : Definition} (h : source.load name = .ok definition) :
    (upStatements source name).run = .done (definition.up.compile.mapError (.compile name)) := by
  rw [upStatements, load, h]
  rfl

/-- The statements of one migration are planned and compiled alike. -/
theorem upStatements_cases (source : Source) (name : Name) :
    (∃ statements, planned source false name = .ok ⟨name, statements⟩ ∧
        (upStatements source name).run = .done (.ok statements)) ∨
      ∃ e f, planned source false name = .error f ∧
        (upStatements source name).run = .done (.error e) ∧ FailsAlike name (.plan e) f := by
  cases hload : source.load name with
  | error e =>
      refine .inr ⟨.load name e, .loadMigration name e, ?_, ?_, .load e⟩
      · rw [planned, hload]
        rfl
      · rw [upStatements, load, hload]
        rfl
  | ok definition =>
      rw [planned_of_load hload, upStatements_of_load hload]
      cases definition.up.compile with
      | error e => exact .inr ⟨.compile name e, .compileMigration name e, rfl, rfl, .compile e⟩
      | ok statements => exact .inl ⟨statements, rfl, rfl⟩

theorem planAll_of_ok {rest : List Name} {statements : List String}
    (h : (upStatements source name).run = .done (.ok statements)) :
    (planAll source (name :: rest)).run =
      ((⟨name, statements⟩ :: ·) <$> planAll source rest : Work (List Planned)).run := by
  change (upStatements source name).run >>= ExceptT.bindCont _ = _
  rw [h]
  rfl

theorem planAll_of_error {rest : List Name} {e : MigrateError}
    (h : (upStatements source name).run = .done (.error e)) :
    (planAll source (name :: rest)).run = .done (.error e) := by
  change (upStatements source name).run >>= ExceptT.bindCont _ = _
  rw [h]
  rfl

/-- A list is planned if it is compiled to the end, and then the plan is what was compiled.
Otherwise both fail at the same migration, and those before it were compiled. -/
theorem planAll_cases (source : Source) (names : List Name) :
    (∃ plan, run source false names = (plan, none) ∧
        (planAll source names).run = .done (.ok plan) ∧ plan.map (·.name) = names) ∨
      ∃ before name after plan e f, names = before ++ name :: after ∧
        run source false before = (plan, none) ∧ run source false names = (plan, some f) ∧
        (planAll source names).run = .done (.error e) ∧ FailsAlike name (.plan e) f := by
  induction names with
  | nil => exact .inl ⟨[], rfl, rfl, rfl⟩
  | cons name rest ih =>
      rcases upStatements_cases source name with
        ⟨statements, hplanned, hup⟩ | ⟨e, f, hplanned, hup, alike⟩
      · rcases ih with ⟨plan, hrun, hplan, hnames⟩ |
          ⟨before, bad, after, plan, e, f, rfl, hbefore, hrun, hplan, alike⟩
        · refine .inl ⟨⟨name, statements⟩ :: plan, ?_, ?_, congrArg (List.cons name) hnames⟩
          · rw [run, hplanned, hrun]
          · rw [planAll_of_ok hup]
            change (planAll source rest).run >>= _ = _
            rw [hplan]
            rfl
        · refine .inr ⟨name :: before, bad, after, ⟨name, statements⟩ :: plan, e, f, rfl,
            ?_, ?_, ?_, alike⟩
          · rw [run, hplanned, hbefore]
          · rw [run, hplanned, hrun]
          · rw [planAll_of_ok hup]
            change (planAll source (before ++ bad :: after)).run >>= _ = _
            rw [hplan]
            rfl
      · refine .inr ⟨[], name, rest, [], e, f, rfl, rfl, ?_, ?_, alike⟩
        · rw [run, hplanned]
        · exact planAll_of_error hup

theorem mapM_texts {f : String → Except Failure Name} (h : ∀ name, f name.text = .ok name)
    (names : List Name) : (names.map (·.text)).mapM f = .ok names := by
  induction names with
  | nil => rfl
  | cons name rest ih =>
      rw [List.map_cons, List.mapM_cons, ih, h]
      rfl

/-- The texts of names name them again, if there are any. -/
theorem names_of_texts (source : Source) (hne : names ≠ []) :
    Compilation.names source (names.map (·.text)) = .ok names := by
  obtain ⟨first, rest, rfl⟩ := List.exists_cons_of_ne_nil hne
  exact mapM_texts (fun name => by rw [Name.ofText?_text]) (first :: rest)

end Compilation

/-! ## The two commands -/

namespace Task

theorem planLines_of_ne {plan : List Planned} (h : plan ≠ []) : planLines plan =
    ("Dry run - would apply " ++ toString plan.length ++ " migration(s):") :: "" ::
      listings plan := by
  obtain ⟨first, rest, rfl⟩ := List.exists_cons_of_ne_nil h
  rw [planLines, spacedListings_cons, countText]
  simp [String.append_assoc]

/-- What a task comes to that does some work and then shows its result. -/
theorem result_step {σ α : Type} (db : Database σ) (s : σ) (work : Work α)
    (failure : MigrateError → Failure) (shown : α → List String) :
    ((shown <$> step work failure : Task).run.run db s).result =
      ((work.hold db s).result.mapError failure).map shown := by
  have hstep : ((step work failure).run.run db s).result =
      (work.hold db s).result.mapError failure :=
    (Dialogue.run_bind db work.run (fun r => .done (r.mapError failure)) s).1
  refine (Dialogue.run_bind db (step work failure).run _ s).1.trans ?_
  rw [hstep]
  cases (work.hold db s).result <;> rfl

end Task

namespace Site

variable {site : Site} {settings : Settings} {project : Project} {session : Store.Session}

/-- A project is loaded and its database is opened. -/
structure Opens (site : Site) (settings : Settings) (project : Project)
    (session : Store.Session) : Prop where
  loaded : Project.load site.files ⟨settings.projectDirectory⟩ settings.configuration = .ok project
  opened : ∃ database, project.database settings.target site.environmentTarget settings.database =
      .ok database ∧ (site.makeRoom database.path).1 = .ok () ∧
    Store.Session.start (site.databases.contentsOf database.path) database.path site.rules =
      (.ok (), session)

theorem makeRoom_grown (site : Site) (path : String) :
    site.files.Grown (site.makeRoom path).2.files ∧
      (site.makeRoom path).2 = { site with files := (site.makeRoom path).2.files } := by
  unfold makeRoom
  split
  · exact ⟨.refl _, rfl⟩
  · next parent _ => exact ⟨FileTree.makeDirectories_grown site.files parent, rfl⟩

theorem converse_of_ok {path : String} {task : Task} {lines : List String}
    (opened : Store.Session.start (site.databases.contentsOf path) path site.rules =
      (.ok (), session))
    (h : (task.run.run Store.Session.database session).result = .ok lines) :
    (site.converse path task).printed = lines ∧ (site.converse path task).failure = none := by
  simp only [converse, opened, h, and_self]

theorem converse_of_error {path : String} {task : Task} {failure : Failure}
    (opened : Store.Session.start (site.databases.contentsOf path) path site.rules =
      (.ok (), session))
    (h : (task.run.run Store.Session.database session).result = .error failure) :
    (site.converse path task).printed = [] ∧ (site.converse path task).failure = some failure := by
  simp only [converse, opened, h, and_self]

/-- A dry run holds its task with the database that is opened, and with the migrations that are
there. -/
theorem Opens.exists_converse (opens : site.Opens settings project session)
    (proper : site.files.Proper) {listing : List Name}
    (listed : (project.source site.files).list = .ok listing) :
    ∃ (site' : Site) (path : String),
      Store.Session.start (site'.databases.contentsOf path) path site'.rules =
        (.ok (), session) ∧
      site.run ⟨settings, .migrate true⟩ = site'.converse path
        (Task.plan (project.source site.files) project.configuration.ledgerTable) := by
  obtain ⟨database, chosen, room, started⟩ := opens.opened
  obtain ⟨grown, hsite⟩ := makeRoom_grown site database.path
  have hact : site.run ⟨settings, .migrate true⟩ =
      site.withDatabase project settings (Task.plan · project.configuration.ledgerTable) := by
    rw [run, opens.loaded]
    rfl
  generalize hroom : site.makeRoom database.path = made at grown hsite room
  obtain ⟨made, site'⟩ := made
  simp only [] at grown hsite room
  subst room
  have hsource : project.source site'.files = project.source site.files :=
    MigrationDirectory.source_of_grown proper grown listed
  refine ⟨site', database.path, by rw [hsite]; exact started, ?_⟩
  rw [hact, withDatabase, chosen]
  simp only [hroom, hsource]

theorem run_compile (opens : site.Opens settings project session) {texts : List String}
    {names : List Name} (h : Compilation.names (project.source site.files) texts = .ok names) :
    site.run ⟨settings, .compile texts false⟩ =
      { site
        printed := listings (Compilation.run (project.source site.files) false names).1
        failure := (Compilation.run (project.source site.files) false names).2 } := by
  rw [run, opens.loaded]
  change compile site project texts false = _
  rw [compile, h]

/-- What is pending is what the source lists and the ledger has no record of. -/
theorem listed_of_pending {σ : Type} {source : Source} {table : String} {db : Database σ} {s : σ}
    {pending : List Name}
    (asked : ((Migrate.pending source table).hold db s).result = .ok pending) :
    ∃ records available, ((Ledger.recordsIfPresent table).hold db s).result = .ok records ∧
      source.list = .ok available ∧ pending = Migrate.unrecorded available records := by
  rw [(Migrate.pending_hold source table db s).2.2] at asked
  cases hread : ((Ledger.recordsIfPresent table).hold db s).result with
  | error e =>
      rw [hread] at asked
      cases asked
  | ok records =>
      rw [hread] at asked
      cases hlist : source.list with
      | error e =>
          rw [hlist] at asked
          cases asked
      | ok available =>
          rw [hlist] at asked
          cases asked
          exact ⟨records, available, rfl, rfl, rfl⟩

/-- Where nothing is recorded, compiling without names takes what is pending. -/
theorem names_of_unrecorded {σ : Type} {source : Source} {table : String} {db : Database σ} {s : σ}
    {pending : List Name} (asked : ((Migrate.pending source table).hold db s).result = .ok pending)
    (unrecorded : ((Ledger.recordsIfPresent table).hold db s).result = .ok []) :
    Compilation.names source [] = .ok pending := by
  obtain ⟨records, available, hread, hlist, hpending⟩ := listed_of_pending asked
  rw [unrecorded] at hread
  obtain rfl := Except.ok.inj hread
  have havailable : pending = available := hpending.trans (List.filter_eq_self.2 (by simp))
  rw [Compilation.names, hlist, havailable]
  rfl

theorem result_plan {σ : Type} {source : Source} {table : String} {db : Database σ} {s : σ}
    {pending : List Name} (asked : ((Migrate.pending source table).hold db s).result = .ok pending)
    {r : Except MigrateError (List Planned)} (h : (Migrate.planAll source pending).run = .done r) :
    ((Task.plan source table).run.run db s).result = (r.mapError .plan).map Task.planLines := by
  have hplan := (Work.hold_bind_of_ok (f := Migrate.planAll source) asked).1
  have hdone (s' : σ) : ((Migrate.planAll source pending).hold db s').result = r := by
    rw [Work.hold, h]
    rfl
  rw [Task.plan, Task.result_step, Migrate.plan, hplan, hdone]

/-- A dry run and compiling what is pending agree, in any project and any state of its
database in which something is pending.

One succeeds if the other does. Then the dry run prints one line with the number of
migrations, an empty line, and exactly what compiling prints. If they fail, they do so at the
same migration and for the same cause; the dry run has printed nothing then, and compiling what
it prints for the migrations before that one. Where the ledger is not there or has no records,
compiling without any names is the same as compiling what is pending. -/
theorem printing_commands_agree (opens : site.Opens settings project session)
    (proper : site.files.Proper) {pending : List Name}
    (asked : ((Migrate.pending (project.source site.files) project.configuration.ledgerTable).hold
      Store.Session.database session).result = .ok pending) (nonempty : pending ≠ []) :
    let dry := site.run ⟨settings, .migrate true⟩
    let compiled (names : List Name) :=
      site.run ⟨settings, .compile (names.map (·.text)) false⟩
    (dry.failure = none ↔ (compiled pending).failure = none) ∧
    (dry.failure = none → dry.printed =
      ("Dry run - would apply " ++ toString pending.length ++ " migration(s):") :: "" ::
        (compiled pending).printed) ∧
    (∀ failure, dry.failure = some failure → dry.printed = [] ∧
      ∃ before name after failure', pending = before ++ name :: after ∧
        FailsAlike name failure failure' ∧ (compiled pending).failure = some failure' ∧
        (before = [] → (compiled pending).printed = []) ∧
        (before ≠ [] → (compiled before).failure = none ∧
          (compiled pending).printed = (compiled before).printed)) ∧
    (((Ledger.recordsIfPresent project.configuration.ledgerTable).hold
      Store.Session.database session).result = .ok [] →
      site.run ⟨settings, .compile [] false⟩ = compiled pending) := by
  intro dry compiled
  obtain ⟨_, _, _, hlist, _⟩ := listed_of_pending asked
  obtain ⟨site', path, started, hdry⟩ := opens.exists_converse proper hlist
  have hcompiled := run_compile opens
    (Compilation.names_of_texts (project.source site.files) nonempty)
  have hall (unrecorded : ((Ledger.recordsIfPresent project.configuration.ledgerTable).hold
      Store.Session.database session).result = .ok []) :
      site.run ⟨settings, .compile [] false⟩ = compiled pending :=
    (run_compile opens (names_of_unrecorded asked unrecorded)).trans hcompiled.symm
  rcases Compilation.planAll_cases (project.source site.files) pending with
    ⟨plan, hrun, hplan, hnames⟩ |
      ⟨before, name, after, plan, e, f, hsplit, hbefore, hrun, hplan, alike⟩
  · have hresult := result_plan asked hplan
    obtain ⟨hprinted, hfailure⟩ := converse_of_ok started hresult
    rw [← hdry] at hprinted hfailure
    rw [hrun] at hcompiled
    have hplanned : plan ≠ [] := by
      rintro rfl
      exact nonempty hnames.symm
    refine ⟨⟨fun _ => congrArg Conclusion.failure hcompiled, fun _ => hfailure⟩, fun _ => ?_,
      fun failure h => ?_, hall⟩
    · have hlength : pending.length = plan.length := by rw [← hnames, List.length_map]
      rw [hprinted, Task.planLines_of_ne hplanned, hlength]
      exact congrArg (fun lines => _ :: "" :: lines) (congrArg Conclusion.printed hcompiled).symm
    · rw [hfailure] at h
      cases h
  · have hresult := result_plan asked hplan
    obtain ⟨hprinted, hfailure⟩ := converse_of_error started hresult
    rw [← hdry] at hprinted hfailure
    rw [hrun] at hcompiled
    have hfails : (compiled pending).failure = some f := congrArg Conclusion.failure hcompiled
    have hprints : (compiled pending).printed = listings plan :=
      congrArg Conclusion.printed hcompiled
    refine ⟨⟨fun h => ?_, fun h => ?_⟩, fun h => ?_, fun failure h => ⟨hprinted, ?_⟩, hall⟩
    · rw [hfailure] at h
      cases h
    · rw [hfails] at h
      cases h
    · rw [hfailure] at h
      cases h
    · rw [hfailure] at h
      obtain rfl := Option.some.inj h
      refine ⟨before, name, after, f, hsplit, alike, hfails, ?_, fun hne => ?_⟩
      · rintro rfl
        cases hbefore
        exact hprints
      · have hpart := run_compile opens (Compilation.names_of_texts (project.source site.files) hne)
        rw [hbefore] at hpart
        exact ⟨congrArg Conclusion.failure hpart,
          hprints.trans (congrArg Conclusion.printed hpart).symm⟩

/-! ## A project with two migrations -/

/-- A project whose second migration may be one that does not compile. -/
def workshop (broken : Bool) : Site where
  files := { entries :=
    [(["tablewright.yml"], .file "name: p\n"), (["migrations"], .directory),
      (["migrations", "1_users.yml"], .file "up:\n  - raw: SELECT 1\n"),
      (["migrations", "2_teams.yml"],
        .file (if broken then "up:\n  - drop_table: a-b\n" else "up: []\n"))] }
  now := ⟨2024, 1, 1, 0, 0, 0, 0⟩

/-- The project as it is loaded. -/
def workshopProject : Project := ⟨⟨"."⟩, { name := "p" }⟩

/-- Its migrations. -/
def workshopNames : List Name := [⟨"1_users", by decide⟩, ⟨"2_teams", by decide⟩]

theorem opens_workshop (broken : Bool) : (workshop broken).Opens {} workshopProject
    (Store.Session.start {} memoryPath []).2 where
  loaded := by cases broken <;> rfl
  opened := ⟨{}, by cases broken <;> rfl, by cases broken <;> rfl, by cases broken <;> rfl⟩

theorem proper_workshop (broken : Bool) : (workshop broken).files.Proper :=
  ⟨by cases broken <;> decide, by cases broken <;> decide⟩

/-- What the directory with the migrations yields. -/
def workshopEntries : List DirectoryEntry :=
  [⟨some "1_users.yml", false⟩, ⟨some "2_teams.yml", false⟩]

theorem entries_workshop (broken : Bool) :
    MigrationDirectory.entries (workshop broken).files workshopProject.migrations =
      .ok workshopEntries := by
  refine MigrationDirectory.entries_eq_ok_iff.2 ⟨["migrations"], ?_, ?_, ?_⟩
  · cases broken <;> rfl
  · cases broken <;> rfl
  · have hlist : (workshop broken).files.list ["migrations"] =
        ((workshop broken).files.entries.filterMap (FileTree.listed? ["migrations"])) := by
      rw [FileTree.list_eq]
      refine List.mergeSort_of_pairwise ?_
      cases broken <;> decide +kernel
    rw [MigrationDirectory.yielded, hlist]
    cases broken <;> rfl

theorem alone_workshop : ¬ ∃ name f g, MigrationDirectory.Clash workshopEntries name f g :=
  (MigrationDirectory.nodup_held_iff workshopProject.migrations).1 (by decide +kernel)

theorem listed_workshop (broken : Bool) :
    (workshopProject.source (workshop broken).files).list = .ok workshopNames := by
  refine (MigrationDirectory.names_of_entries (entries_workshop broken)).trans ?_
  rw [MigrationDirectory.namesIn_of_held_perm alone_workshop (.refl _)]
  exact congrArg Except.ok (List.mergeSort_of_pairwise (by decide +kernel))

theorem load_workshop (broken : Bool) {name : Name} {file : String}
    (held : ⟨some file, false⟩ ∈ workshopEntries ∧
      DirectoryEntry.migration? ⟨some file, false⟩ = some (file, name)) :
    (workshopProject.source (workshop broken).files).load name =
      (MigrationFile.load (workshop broken).files (workshopProject.migrations.join file)).map
        (·.definition) :=
  (MigrationDirectory.load_of_entries (entries_workshop broken)).trans
    (MigrationDirectory.loadIn_of_holds alone_workshop held.1
      (DirectoryEntry.migration?_eq_some_iff.1 held.2))

theorem load_workshop_users (broken : Bool) :
    (workshopProject.source (workshop broken).files).load ⟨"1_users", by decide⟩ =
      .ok { up := [.raw "SELECT 1"] } := by
  have held : (⟨some "1_users.yml", false⟩ : DirectoryEntry) ∈ workshopEntries ∧
      DirectoryEntry.migration? ⟨some "1_users.yml", false⟩ =
        some ("1_users.yml", ⟨"1_users", by decide⟩) := by
    decide +kernel
  have hread : (workshop broken).files.read (workshopProject.migrations.join "1_users.yml") =
      .ok "up:\n  - raw: SELECT 1\n" := by
    cases broken <;> rfl
  have hparse : MigrationFile.parse "up:\n  - raw: SELECT 1\n" =
      .ok ⟨none, [.raw "SELECT 1"], []⟩ := by
    rfl
  rw [load_workshop broken held, MigrationDirectory.migrationFile_load_of_read hread hparse]
  rfl

theorem load_workshop_teams (broken : Bool) :
    (workshopProject.source (workshop broken).files).load ⟨"2_teams", by decide⟩ =
      .ok { up := if broken then [.dropTable "a-b"] else [] } := by
  have held : (⟨some "2_teams.yml", false⟩ : DirectoryEntry) ∈ workshopEntries ∧
      DirectoryEntry.migration? ⟨some "2_teams.yml", false⟩ =
        some ("2_teams.yml", ⟨"2_teams", by decide⟩) := by
    decide +kernel
  have hread : (workshop broken).files.read (workshopProject.migrations.join "2_teams.yml") =
      .ok (if broken then "up:\n  - drop_table: a-b\n" else "up: []\n") := by
    cases broken <;> rfl
  have hparse : MigrationFile.parse (if broken then "up:\n  - drop_table: a-b\n" else "up: []\n") =
      .ok ⟨none, if broken then [.dropTable "a-b"] else [], []⟩ := by
    cases broken <;> rfl
  rw [load_workshop broken held, MigrationDirectory.migrationFile_load_of_read hread hparse]
  cases broken <;> rfl

theorem compiled_workshop (broken : Bool) :
    Compilation.run (workshopProject.source (workshop broken).files) false workshopNames =
      if broken then ([⟨⟨"1_users", by decide⟩, ["SELECT 1"]⟩],
        some (.compileMigration ⟨"2_teams", by decide⟩ (.invalidIdentifier "a-b")))
      else ([⟨⟨"1_users", by decide⟩, ["SELECT 1"]⟩, ⟨⟨"2_teams", by decide⟩, []⟩], none) := by
  rw [workshopNames, Compilation.run, Compilation.run, Compilation.run,
    Compilation.planned_of_load (load_workshop_users broken),
    Compilation.planned_of_load (load_workshop_teams broken)]
  cases broken <;> rfl

theorem records_workshop : ((Ledger.recordsIfPresent workshopProject.configuration.ledgerTable).hold
    Store.Session.database (Store.Session.start {} memoryPath []).2).result = .ok [] :=
  eq_ok_of_toOption (by decide +kernel)

theorem pending_workshop (broken : Bool) :
    ((Migrate.pending (workshopProject.source (workshop broken).files)
      workshopProject.configuration.ledgerTable).hold Store.Session.database
        (Store.Session.start {} memoryPath []).2).result = .ok workshopNames := by
  rw [(Migrate.pending_hold _ _ _ _).2.2, listed_workshop, records_workshop]
  rfl

/-- Two migrations that compile are printed alike, and so is the failure of one of them. -/
theorem printing_commands_agree_of_workshop :
    ((workshop false).run ⟨{}, .migrate true⟩).printed =
        ["Dry run - would apply 2 migration(s):", "", "-- 1_users", "SELECT 1;", "", "-- 2_teams"] ∧
      ((workshop false).run ⟨{}, .compile ["1_users", "2_teams"] false⟩).printed =
        ["-- 1_users", "SELECT 1;", "", "-- 2_teams"] ∧
      (workshop false).run ⟨{}, .compile [] false⟩ =
        (workshop false).run ⟨{}, .compile ["1_users", "2_teams"] false⟩ ∧
      ((workshop true).run ⟨{}, .migrate true⟩).printed = [] ∧
      ((workshop true).run ⟨{}, .migrate true⟩).failure ≠ none ∧
      ((workshop true).run ⟨{}, .compile ["1_users", "2_teams"] false⟩).printed =
        ["-- 1_users", "SELECT 1;"] := by
  have hnames : workshopNames ≠ [] := by decide
  have hcompiled (broken : Bool) := run_compile (opens_workshop broken)
    (Compilation.names_of_texts (workshopProject.source (workshop broken).files) hnames)
  simp only [compiled_workshop] at hcompiled
  obtain ⟨hiff, hprinted, -, hall⟩ := printing_commands_agree (opens_workshop false)
    (proper_workshop false) (pending_workshop false) hnames
  obtain ⟨hiff', -, hfailure', -⟩ := printing_commands_agree (opens_workshop true)
    (proper_workshop true) (pending_workshop true) hnames
  have hsucceeds := hiff.2 (congrArg Conclusion.failure (hcompiled false))
  have hfails : ((workshop true).run ⟨{}, .migrate true⟩).failure ≠ none := fun h => by
    cases (congrArg Conclusion.failure (hcompiled true)).symm.trans (hiff'.1 h)
  obtain ⟨failure, hfailure⟩ := Option.ne_none_iff_exists'.1 hfails
  refine ⟨?_, congrArg Conclusion.printed (hcompiled false), hall records_workshop,
    (hfailure' failure hfailure).1, hfails, congrArg Conclusion.printed (hcompiled true)⟩
  refine (hprinted hsucceeds).trans ?_
  exact congrArg ("Dry run - would apply 2 migration(s):" :: "" :: ·)
    (congrArg Conclusion.printed (hcompiled false))

end Site

end SchemaLedger
