/-!
# Switches of the command line

A switch has a long name, perhaps a short one, and takes a value or none. A value may have to
be one of a few words.
-/

namespace SchemaLedger

/-- What can be switched on the command line. -/
inductive Switch where
  | help
  | version
  | verbose
  | projectDirectory
  | configuration
  | target
  | database
  | output
  | dryRun
  | down
  deriving DecidableEq

namespace Switch

/-- The name behind two dashes. -/
def long : Switch → String
  | .help => "help"
  | .version => "version"
  | .verbose => "verbose"
  | .projectDirectory => "project-dir"
  | .configuration => "config"
  | .target => "target"
  | .database => "database"
  | .output => "output"
  | .dryRun => "dry-run"
  | .down => "down"

/-- The letter behind one dash. -/
def short? : Switch → Option Char
  | .help => some 'h'
  | .version => some 'V'
  | .verbose => some 'v'
  | .projectDirectory => some 'p'
  | .configuration => some 'c'
  | .target => some 't'
  | .output => some 'o'
  | .database | .dryRun | .down => none

/-- Whether it takes a value. -/
def takesValue : Switch → Bool
  | .projectDirectory | .configuration | .target | .database | .output => true
  | .help | .version | .verbose | .dryRun | .down => false

/-- The values it can take, if not any. -/
def choices? : Switch → Option (List String)
  | .output => some ["table", "json"]
  | _ => none

/-- Whether a value is one that it can take. -/
def admits (s : Switch) (value : String) : Bool :=
  match s.choices? with
  | some choices => choices.contains value
  | none => true

/-- The switches that every command has. -/
def common : List Switch :=
  [.verbose, .projectDirectory, .configuration, .target, .database, .help]

end Switch

end SchemaLedger
