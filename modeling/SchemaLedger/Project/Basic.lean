import SchemaLedger.Configuration.Parse
import SchemaLedger.Source.Directory

/-!
# Projects

A project is a directory with a configuration. Relative paths in the configuration are taken
from that directory.
-/

namespace SchemaLedger

/-- A directory and its configuration. -/
structure Project where
  root : Path
  configuration : Configuration
  deriving DecidableEq

namespace Project

/-- Loads a project, from a configuration file that is given or from the one in the
directory. -/
def load (files : FileTree) (root : Path) (configuration : Option String) :
    Except ConfigurationError Project :=
  match configuration with
  | some path => (Configuration.load files ⟨path⟩).map (⟨root, ·⟩)
  | none => (Configuration.loadFrom files root).map (⟨root, ·⟩)

/-- The files that the configuration may be in. -/
def configurationFiles (root : Path) : Option String → List Path
  | some path => [⟨path⟩]
  | none => Configuration.fileNames.map root.join

/-- The directory with the migrations. -/
def migrations (p : Project) : Path := p.configuration.migrationsPath p.root

/-- The migrations as a source. -/
def source (p : Project) (files : FileTree) : Source :=
  MigrationDirectory.source files p.migrations

/-- The path of a database, seen from the directory of the project. -/
def databasePath (p : Project) (path : String) : String :=
  if path = memoryPath then path else (p.root.join path).text

/-- The database of a project: that of the target that is meant, at another path if one is
given. A target that is not there is an error whatever path is given. -/
def database (p : Project) (target environment path : Option String) :
    Except ConfigurationFault DatabaseSettings := do
  let settings ← p.configuration.databaseOf (Configuration.chosenTarget target environment)
  return { settings with path := p.databasePath (path.getD settings.path) }

end Project

end SchemaLedger
