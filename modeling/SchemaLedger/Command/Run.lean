import SchemaLedger.Command.Task
import SchemaLedger.Store.Databases

/-!
# Running commands

A command is run on a site: files, databases with the rules before them, the environment and
the clock. It prints lines and leaves the site changed. A failure keeps what was printed and
changed before it.
-/

namespace SchemaLedger

/-- Where a command is run. -/
structure Site where
  files : FileTree
  databases : Store.Databases := {}
  rules : List Rule := []
  environmentTarget : Option String := none
  now : Moment

/-- What has become of a command: what it printed, whether it failed, the site it leaves, and
what happened between it and its database. -/
structure Conclusion where
  site : Site
  printed : List String := []
  failure : Option Failure := none
  events : List Event := []
  requests : List Engine.Request := []

namespace Site

/-- Fails without having done anything. -/
def fail (site : Site) (failure : Failure) : Conclusion := { site, failure := some failure }

/-- Makes the directory that a database file lies in. -/
def makeRoom (site : Site) (path : String) : Except Failure Unit × Site :=
  match (if path = memoryPath then none else (Path.mk path).parent?) with
  | none => (.ok (), site)
  | some parent =>
    let (made, files) := site.files.makeDirectories parent
    (made.mapError (.makeDirectory parent), { site with files })

/-- Holds a task with a database, which is opened before it and closed after it. -/
def converse (site : Site) (path : String) (task : Task) : Conclusion :=
  let (opened, session) := Store.Session.start (site.databases.contentsOf path) path site.rules
  match opened with
  | .error error =>
    { site := { site with rules := session.state.rules }, failure := some (.connect error),
      requests := session.requests }
  | .ok () =>
    let outcome := task.run.run Store.Session.database session
    let ruled := outcome.state.state
    let (printed, failure) := match outcome.result with
      | .ok lines => (lines, none)
      | .error failure => ([], some failure)
    { site := { site with
        databases := site.databases.keep path ruled.state.close
        rules := ruled.rules },
      printed, failure, events := outcome.events, requests := outcome.state.requests }

/-- Does a task of a project with its database. The migrations are those that are there when
the database has been opened. -/
def withDatabase (site : Site) (project : Project) (settings : Settings)
    (task : Source → Task) : Conclusion :=
  match project.database settings.target site.environmentTarget settings.database with
  | .error fault => site.fail (.chooseDatabase fault)
  | .ok database =>
    match site.makeRoom database.path with
    | (.error failure, site) => site.fail failure
    | (.ok (), site) => site.converse database.path (task (project.source site.files))

/-- Compiles migrations of a project. -/
def compile (site : Site) (project : Project) (names : List String) (down : Bool) : Conclusion :=
  let source := project.source site.files
  match Compilation.names source names with
  | .error failure => site.fail failure
  | .ok names =>
    let (plan, failure) := Compilation.run source down names
    { site, printed := listings plan, failure }

/-- Makes a scaffold in a project. -/
def scaffold (site : Site) (project : Project) (name : String) : Conclusion :=
  match Scaffold.create site.files project.migrations name site.now with
  | (.ok path, files) => { site := { site with files }, printed := ["Created " ++ path.text] }
  | (.error fault, files) => { site with files }.fail (.scaffold fault)

/-- Carries out an action on a project. -/
def act (site : Site) (project : Project) (settings : Settings) : Action → Conclusion :=
  let table := project.configuration.ledgerTable
  let withDatabase := site.withDatabase project settings
  fun
  | .migrate true => withDatabase (Task.plan · table)
  | .migrate false => withDatabase (Task.apply · table)
  | .rollback true => withDatabase fun _ => Task.lastBatch table
  | .rollback false => withDatabase (Task.revert · table)
  | .status form => withDatabase (Task.status · table form)
  | .compile names down => site.compile project names down
  | .make name => site.scaffold project name

/-- Runs a command. -/
def run (site : Site) (i : Invocation) : Conclusion :=
  match Project.load site.files ⟨i.settings.projectDirectory⟩ i.settings.configuration with
  | .error error => site.fail (.loadProject error)
  | .ok project => site.act project i.settings i.action

end Site

end SchemaLedger
