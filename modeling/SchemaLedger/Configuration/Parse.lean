import SchemaLedger.Configuration.Basic
import SchemaLedger.FileTree
import SchemaLedger.Yaml.Decode.Basic
import SchemaLedger.Yaml.Node.OfTokens

/-!
# Reading configurations

A configuration is a document with one mapping. What its fields say is checked once all of
it has been read.
-/

namespace SchemaLedger

namespace Configuration

open Yaml Yaml.Decode

/-- Reads how to find a database. -/
def readDatabase : Spot → Node → Decode DatabaseSettings :=
  record "struct DatabaseConfig" ["type", "path"]
    (fun (settings : DatabaseSettings) name spot n => do
      match name with
      | "type" => return { settings with kind := ← variant [("duckdb", .duckdb)] spot n }
      | _ => return { settings with path := ← text spot n })
    {} pure

/-- Reads a target. -/
def readTarget : Spot → Node → Decode Target :=
  record "struct TargetConfig" ["database"]
    (fun (target : Target) _ spot n => return { target with
      database := ← optional readDatabase spot n })
    {} pure

/-- Reads the targets by their names; of several targets of one name the last one counts. -/
def readTargets : Spot → Node → Decode (List (String × Target)) :=
  mapping "a map" text
    (fun targets name spot n => return addTarget targets name (← readTarget spot n))
    [] pure

/-- Reads a configuration. The name is kept apart until it is known to be there. -/
def read : Spot → Node → Decode Configuration :=
  record "struct Config" ["name", "migrations_dir", "ledger_table", "database", "targets"]
    (fun ((c, title) : Configuration × Option String) name spot n => do
      match name with
      | "name" => return (c, some (← text spot n))
      | "migrations_dir" => return ({ c with migrationsDirectory := ← text spot n }, title)
      | "ledger_table" => return ({ c with ledgerTable := ← text spot n }, title)
      | "database" => return ({ c with database := ← readDatabase spot n }, title)
      | _ => return ({ c with targets := ← readTargets spot n }, title))
    ({ name := "" }, none)
    (fun (c, title) => return { c with name := ← required "name" title })

end Configuration

/-- Why there is no configuration. -/
inductive ConfigurationError where
  | notFound (path : String)
  | invalid (fault : ConfigurationFault)
  | io (path : String) (fault : IoFault)
  | yaml (error : Yaml.Error)

/-- The wording of a configuration error. -/
def ConfigurationError.message : ConfigurationError → String
  | .notFound path => "[E001] Config file not found: " ++ path
  | .invalid fault => "[E002] Invalid config: " ++ fault.message
  | .io path fault => "[E010] Failed to read '" ++ path ++ "': " ++ fault.message
  | .yaml error => "[E011] YAML parse error: " ++ error.message

namespace Configuration

/-- The configuration that a text is. -/
def parse (content : String) : Except ConfigurationError Configuration := do
  let c ← (Yaml.Decode.run read (.ofText content)).mapError .yaml
  c.check.mapError .invalid
  return c

/-- Reads the configuration in a file. -/
def load (files : FileTree) (path : Path) : Except ConfigurationError Configuration :=
  if files.has path then
    match files.read path with
    | .ok content => parse content
    | .error fault => .error (.io path.text fault)
  else .error (.notFound path.text)

/-- The names a configuration file may have, the preferred one first. -/
def fileNames : List String := ["tablewright.yml", "tablewright.yaml"]

/-- The file that a missing configuration is missed as. -/
def preferredFile : String := "tablewright.yml"

/-- Reads the configuration of a project. -/
def loadFrom (files : FileTree) (root : Path) : Except ConfigurationError Configuration :=
  match (fileNames.map root.join).find? files.has with
  | some path => load files path
  | none => .error (.notFound (root.join preferredFile).text)

end Configuration

end SchemaLedger
