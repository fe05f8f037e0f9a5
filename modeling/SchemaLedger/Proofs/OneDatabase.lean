import SchemaLedger.Proofs.PrintedPlan
import SchemaLedger.Proofs.SelectedDatabase
import SchemaLedger.Proofs.StoreRelations

/-!
# A command keeps to one database

A command opens a database at one place only, before it does anything with it, and the path
there is the one that was selected. Whatever is asked later is asked of the database that is
open. So the databases of other paths are as they were when a command has ended, however it has
ended; and where no database is selected, none is opened and nothing has changed.
-/

namespace SchemaLedger

/-! ## Requests behind the opening -/

namespace Engine

variable {σ : Type}

/-- What is asked of a database that is open does not open another one. -/
theorem requests_reply (engine : Engine σ) (call : DatabaseCall) (s : Recorded σ) :
    ∃ r, (engine.recorded.database.reply call s).2.requests = r :: s.requests ∧
      ∀ path, r ≠ .openPath path := by
  cases call with
  | execute sql => exact ⟨.execute sql, rfl, nofun⟩
  | executeBatch sql => exact ⟨.batch sql, rfl, nofun⟩
  | relationExists name => exact ⟨.query (relationQuery name), rfl, nofun⟩
  | queryCount sql => exact ⟨.query (countQuery sql), rfl, nofun⟩
  | queryRows sql => exact ⟨.query sql, rfl, nofun⟩
  | createSchema name => exact ⟨.execute (schemaStatement name), rfl, nofun⟩

theorem requests_run {α : Type} (engine : Engine σ) (d : Dialogue α) (s : Recorded σ) :
    ∃ later, (d.run engine.recorded.database s).state.requests = later ++ s.requests ∧
      ∀ path, .openPath path ∉ later := by
  -- on the dialogue, from any state: what was asked before stays behind what is asked later
  induction d generalizing s with
  | done result => exact ⟨[], rfl, nofun⟩
  | note n rest ih => exact ih s
  | call c next ih =>
      obtain ⟨r, hreply, hr⟩ := requests_reply engine c s
      obtain ⟨later, hrun, hlater⟩ := ih (engine.recorded.database.reply c s).1
        (engine.recorded.database.reply c s).2
      refine ⟨later ++ [r], ?_, fun path => ?_⟩
      · rw [List.append_assoc, List.singleton_append, ← hreply]
        exact hrun
      · rw [List.mem_append, List.mem_singleton]
        exact not_or.2 ⟨hlater path, fun h => hr path h.symm⟩

end Engine

/-! ## Other databases -/

theorem Store.Databases.contentsOf_keep (d : Databases) {path q : String} (hq : q ≠ path)
    (c : Contents) : (d.keep path c).contentsOf q = d.contentsOf q := by
  unfold keep
  split
  · rfl
  · unfold contentsOf
    rw [List.lookup_cons, beq_false_of_ne hq, lookup_filter_ne hq]

namespace Conclusion

/-- A command has opened no database, and all are as they were on the site. -/
structure Spares (c : Conclusion) (site : Site) : Prop where
  requests : c.requests = []
  databases : c.site.databases = site.databases

/-- A command has opened the database of a path, before anything else it asked for and only this
once. All others are as they were on the site. -/
structure KeepsTo (c : Conclusion) (site : Site) (path : String) : Prop where
  opened : ∃ later, c.requests = later ++ [.openPath path] ∧ ∀ q, .openPath q ∉ later
  others : ∀ q, q ≠ path → c.site.databases.contentsOf q = site.databases.contentsOf q

end Conclusion

/-! ## Commands -/

/-- Whether an action is carried out with a database. -/
def Action.usesDatabase : Action → Bool
  | .migrate _ | .rollback _ | .status _ => true
  | .compile .. | .make _ => false

namespace Site

variable {site : Site} {settings : Settings} {project : Project} {action : Action}
  {database : DatabaseSettings} {fault : ConfigurationFault}

theorem converse_keepsTo (site : Site) (path : String) (task : Task) :
    (site.converse path task).KeepsTo site path := by
  have hrequests : (Store.Session.start (site.databases.contentsOf path) path site.rules).2.requests
      = [.openPath path] := by
    unfold Store.Session.start
    cases Rule.openError site.rules path with
    | mk refusal rules => cases refusal <;> rfl
  unfold converse
  generalize Store.Session.start (site.databases.contentsOf path) path site.rules = started
    at hrequests
  obtain ⟨opened, session⟩ := started
  cases opened with
  | error e => exact ⟨⟨[], hrequests, nofun⟩, fun _ _ => rfl⟩
  | ok _ =>
      obtain ⟨later, hrun, hlater⟩ :=
        Engine.requests_run Store.Connection.engine.ruled task.run session
      rw [hrequests] at hrun
      exact ⟨⟨later, hrun, hlater⟩, fun q hq => site.databases.contentsOf_keep hq _⟩

/-- Why a command does not get to open the database of a path: the directory of its file cannot
be made. -/
def Blocked (path : String) (failure : Failure) : Prop :=
  path ≠ memoryPath ∧ ∃ dir fault, (Path.mk path).parent? = some dir ∧
    failure = .makeDirectory dir fault

theorem makeRoom_of_error {path : String} {failure : Failure} {site' : Site}
    (h : site.makeRoom path = (.error failure, site')) : Blocked path failure := by
  unfold makeRoom at h
  by_cases hmemory : path = memoryPath
  · rw [if_pos hmemory] at h
    cases h
  · rw [if_neg hmemory] at h
    cases hparent : (Path.mk path).parent? with
    | none =>
        rw [hparent] at h
        cases h
    | some dir =>
        rw [hparent] at h
        have hmade := congrArg Prod.fst h
        simp only [] at hmade
        cases hfault : (site.files.makeDirectories dir).1 with
        | ok _ =>
            rw [hfault] at hmade
            cases hmade
        | error fault =>
            rw [hfault] at hmade
            cases hmade
            exact ⟨hmemory, dir, fault, hparent, rfl⟩

theorem databases_makeRoom (site : Site) (path : String) :
    (site.makeRoom path).2.databases = site.databases := by
  rw [(makeRoom_grown site path).2]

theorem withDatabase_of_error (task : Source → Task)
    (h : project.database settings.target site.environmentTarget settings.database =
      .error fault) :
    site.withDatabase project settings task = site.fail (.chooseDatabase fault) := by
  rw [withDatabase, h]

theorem withDatabase_cases (task : Source → Task)
    (selected : project.database settings.target site.environmentTarget settings.database =
      .ok database) :
    (site.withDatabase project settings task).KeepsTo site database.path ∨
      (site.withDatabase project settings task).Spares site ∧
        ∃ failure, (site.withDatabase project settings task).failure = some failure ∧
          Blocked database.path failure := by
  have hdatabases := databases_makeRoom site database.path
  cases hmade : site.makeRoom database.path with
  | mk made site' =>
      simp only [withDatabase, selected, hmade]
      rw [hmade] at hdatabases
      cases made with
      | error failure => exact .inr ⟨⟨rfl, hdatabases⟩, failure, rfl, makeRoom_of_error hmade⟩
      | ok _ =>
          -- making room changes the files only, so the others are those of the site before
          have keeps := site'.converse_keepsTo database.path (task (project.source site'.files))
          refine .inl ⟨keeps.opened, fun q hq => ?_⟩
          exact (keeps.others q hq).trans (congrArg (·.contentsOf q) hdatabases)

theorem act_of_usesDatabase (site : Site) (project : Project) (settings : Settings)
    (uses : action.usesDatabase = true) :
    ∃ task, site.act project settings action = site.withDatabase project settings task := by
  cases action with
  | migrate dryRun =>
      cases dryRun with
      | true => exact ⟨(Task.plan · project.configuration.ledgerTable), rfl⟩
      | false => exact ⟨(Task.apply · project.configuration.ledgerTable), rfl⟩
  | rollback dryRun =>
      cases dryRun with
      | true => exact ⟨fun _ => Task.lastBatch project.configuration.ledgerTable, rfl⟩
      | false => exact ⟨(Task.revert · project.configuration.ledgerTable), rfl⟩
  | status form => exact ⟨(Task.status · project.configuration.ledgerTable form), rfl⟩
  | compile names down => cases uses
  | make name => cases uses

theorem act_spares (site : Site) (project : Project) (settings : Settings)
    (spares : action.usesDatabase = false) : (site.act project settings action).Spares site := by
  cases action with
  | compile names down =>
      change (compile site project names down).Spares site
      cases hnames : Compilation.names (project.source site.files) names with
      | error failure =>
          rw [compile, hnames]
          exact ⟨rfl, rfl⟩
      | ok names =>
          rw [compile, hnames]
          exact ⟨rfl, rfl⟩
  | make name =>
      change (scaffold site project name).Spares site
      cases hmade : Scaffold.create site.files project.migrations name site.now with
      | mk made files =>
          rw [scaffold, hmade]
          cases made <;> exact ⟨rfl, rfl⟩
  | migrate dryRun => cases spares
  | rollback dryRun => cases spares
  | status form => cases spares

theorem run_eq_act (action : Action)
    (loaded : Project.load site.files ⟨settings.projectDirectory⟩ settings.configuration =
      .ok project) : site.run ⟨settings, action⟩ = site.act project settings action := by
  rw [run, loaded]

/-- A command opens no database but the one that is selected, in any project that is loaded and
with whatever it is given and finds in its environment.

The target in effect and the database that is selected are those that the rules of `InEffect`
and `Selects` say. There is none just if the target in effect is not one of the configuration,
and no path that is given changes that. A database that was selected from a directory given from
the root is selected again by its path, from wherever. A command that needs a database opens
this one and leaves all others as they are, or fails before it opens any. -/
theorem opens_only_the_selected
    (loaded : Project.load site.files ⟨settings.projectDirectory⟩ settings.configuration =
      .ok project) :
    let target := Configuration.chosenTarget settings.target site.environmentTarget
    let chosen (path : Option String) :=
      project.database settings.target site.environmentTarget path
    let missing (name : String) := target = some name ∧ name ∉ project.configuration.known
    let conclusion (action : Action) := site.run ⟨settings, action⟩
    project.root = ⟨settings.projectDirectory⟩ ∧
    (∀ t, Configuration.InEffect settings.target site.environmentTarget t ↔ t = target) ∧
    (∀ path fault, chosen path = .error fault ↔ ∃ name, missing name ∧
      fault = .unknownTarget name project.configuration.targetNames) ∧
    (∀ path d, chosen path = .ok d ↔ project.Selects target path d) ∧
    (project.root.isAbsolute = true → ∀ path d root, chosen path = .ok d →
      { project with root }.database settings.target site.environmentTarget (some d.path) =
        .ok d) ∧
    (∀ action, action.usesDatabase = false → (conclusion action).Spares site) ∧
    (∀ action name, action.usesDatabase = true → missing name → conclusion action =
      site.fail (.chooseDatabase (.unknownTarget name project.configuration.targetNames))) ∧
    ∀ action d, action.usesDatabase = true → project.Selects target settings.database d →
      (conclusion action).KeepsTo site d.path ∨
        (conclusion action).Spares site ∧ ∃ failure,
          (conclusion action).failure = some failure ∧ Blocked d.path failure := by
  intro target chosen missing conclusion
  have distinct := Project.distinct_of_load loaded
  have hchosen (path d) : chosen path = .ok d ↔ project.Selects target path d :=
    Project.database_eq_ok_iff distinct
  have hfault (path fault) : chosen path = .error fault ↔ ∃ name, missing name ∧
      fault = .unknownTarget name project.configuration.targetNames := by
    simp only [missing, and_assoc]
    exact Project.database_eq_error_iff
  have hact (action) : conclusion action = site.act project settings action :=
    run_eq_act action loaded
  refine ⟨(Project.parse_of_load loaded).1, fun t => Configuration.inEffect_iff, hfault, hchosen,
    fun absolute path d root selected => ?_, fun action spares => ?_,
    fun action name uses hname => ?_, fun action d uses selects => ?_⟩
  · have selects := ((hchosen path d).1 selected).selects_path absolute root
    exact (Project.database_eq_ok_iff (p := { project with root }) distinct).2 selects
  · rw [hact]
    exact act_spares site project settings spares
  · obtain ⟨task, htask⟩ := act_of_usesDatabase site project settings uses
    rw [hact, htask]
    exact withDatabase_of_error task ((hfault settings.database _).2 ⟨name, hname, rfl⟩)
  · obtain ⟨task, htask⟩ := act_of_usesDatabase site project settings uses
    rw [hact, htask]
    exact withDatabase_cases task ((hchosen settings.database d).2 selects)

/-! ## A project with two targets -/

/-- A project with a target that brings no database and one that brings its own. -/
def depot : Site where
  files := { entries :=
    [(["srv"], .directory), (["srv", "app"], .directory),
      (["srv", "app", "tablewright.yml"], .file
        ("name: p\ndatabase:\n  path: data/p.duckdb\n" ++
          "targets:\n  scratch: {}\n  test:\n    database:\n      path: ':memory:'\n"))] }
  environmentTarget := some "scratch"
  now := ⟨2024, 1, 1, 0, 0, 0, 0⟩

/-- The project as it is loaded. -/
def depotProject : Project where
  root := ⟨"/srv/app"⟩
  configuration := {
    name := "p"
    database := { path := "data/p.duckdb" }
    targets := [("scratch", {}), ("test", { database := some {} })] }

theorem load_depot : Project.load depot.files ⟨"/srv/app"⟩ none = .ok depotProject :=
  eq_ok_of_toOption (by decide +kernel)

/-- The target of the environment has the base database. A misspelt target is an error also with
a path, and one that brings its own database is kept to. -/
theorem opens_only_the_selected_of_depot :
    depotProject.database none (some "scratch") none =
      .ok { path := "/srv/app/data/p.duckdb" } ∧
    depotProject.database none (some "scratch") (some "/srv/app/data/p.duckdb") =
      .ok { path := "/srv/app/data/p.duckdb" } ∧
    depot.run
        ⟨{ projectDirectory := "/srv/app", target := some "tset", database := some "q.duckdb" },
          .migrate false⟩ =
      depot.fail (.chooseDatabase (.unknownTarget "tset" ["scratch", "test"])) ∧
    (depot.run ⟨{ projectDirectory := "/srv/app", target := some "test" },
      .migrate false⟩).KeepsTo depot ":memory:" := by
  obtain ⟨-, heffect, -, hchosen, hagain, -⟩ := @opens_only_the_selected depot
    { projectDirectory := "/srv/app" } depotProject load_depot
  obtain ⟨-, -, -, -, -, -, hmissing, -⟩ := @opens_only_the_selected depot
    { projectDirectory := "/srv/app", target := some "tset", database := some "q.duckdb" }
    depotProject load_depot
  obtain ⟨-, -, -, -, -, -, -, hkeeps⟩ := @opens_only_the_selected depot
    { projectDirectory := "/srv/app", target := some "test" } depotProject load_depot
  have hscratch : depotProject.Selects (some "scratch") none { path := "/srv/app/data/p.duckdb" } :=
    .provided (.inherited (by decide)) (Project.leads_iff.2 (by decide +kernel))
  have hown : depotProject.configuration.Provides (some "test") {} := .own (by decide)
  have htest : depotProject.Selects (some "test") none { path := ":memory:" } :=
    .provided hown (.memory rfl)
  rw [(heffect (some "scratch")).1 (.environment (by decide))] at hscratch
  have hbase := (hchosen none _).2 hscratch
  have hnames : depotProject.configuration.targetNames = ["scratch", "test"] :=
    List.mergeSort_of_pairwise (by decide +kernel)
  refine ⟨hbase, hagain (by decide) none _ _ hbase, ?_, ?_⟩
  · rw [← hnames]
    exact hmissing (.migrate false) "tset" rfl ⟨by decide, by decide⟩
  · refine (hkeeps (.migrate false) _ rfl htest).resolve_right ?_
    rintro ⟨-, failure, -, file, -⟩
    exact file rfl

end Site

end SchemaLedger
