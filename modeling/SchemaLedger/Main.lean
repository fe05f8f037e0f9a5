import SchemaLedger.Calendar.Clock
import SchemaLedger.Command.Run
import Std.Time.DateTime.Timestamp

/-!
# The program

The files that a command may read are taken from the disk, the command is run on them, and
what it has made is written back. Its databases live in the store, for as long as the program
runs.
-/

namespace SchemaLedger.Program

/-- The location of a path, seen from a directory. -/
def locationFrom (current : Location) (p : Path) : Location :=
  p.steps.foldl (fun l name => if name = ".." then l.dropLast else l ++ [name])
    (if p.isAbsolute then [] else current)

/-- Takes a file from the disk, if it is there. -/
def takeFile (files : FileTree) (p : Path) : IO FileTree := do
  let place := (← IO.currentDir) / p.text
  let l := locationFrom files.current p
  if ← place.isDir then return files.install l .directory
  if ← place.pathExists then
    match String.fromUTF8? (← IO.FS.readBinFile place) with
    | some text => return files.install l (.file text)
    | none => return files.install l .binary
  return files

/-- Takes a directory with its files from the disk, if it is there. -/
def takeDirectory (files : FileTree) (p : Path) : IO FileTree := do
  let files ← takeFile files p
  if files.isDirectory p then
    let found ← ((← IO.currentDir) / p.text).readDir
    found.foldlM (fun files e => takeFile files (p.join e.fileName)) files
  else return files

/-- Writes an entry to the disk. -/
def writeEntry (l : Location) (e : Entry) : IO Unit := do
  match e with
  | .directory => IO.FS.createDirAll (FileTree.pathOf l)
  | .file text => IO.FS.writeFile (FileTree.pathOf l) text
  | .binary => return ()

/-- The files that a command may read. -/
def gather (s : Settings) : IO FileTree := do
  let current := (Path.mk (toString (← IO.currentDir))).steps
  let files := ({ current } : FileTree).install current .directory
  let root : Path := ⟨s.projectDirectory⟩
  let files ← (Project.configurationFiles root s.configuration).foldlM takeFile files
  match Project.load files root s.configuration with
  | .ok project => takeDirectory files project.migrations
  | .error _ => return files

/-- Runs a command and says whether it failed. -/
def perform (i : Invocation) : IO UInt32 := do
  let files ← gather i.settings
  let site : Site := {
    files
    environmentTarget := ← IO.getEnv "TW_TARGET"
    now := Moment.ofSeconds (← Std.Time.Timestamp.now).toSecondsSinceUnixEpoch.val }
  let c := site.run i
  for (l, e) in (FileTree.added files c.site.files).reverse do
    writeEntry l e
  for note in c.events.filterMap Event.note? do
    IO.eprintln note.text
  for line in c.printed do
    IO.println line
  match c.failure with
  | none => return 0
  | some failure =>
    IO.eprintln ("Error: " ++ "\n  caused by: ".intercalate failure.chain)
    return 1

end SchemaLedger.Program

/-- Reads the command line and runs what it says. -/
def main (words : List String) : IO UInt32 := do
  match SchemaLedger.Invocation.read words with
  | .ok i => SchemaLedger.Program.perform i
  | .error e =>
    if e = .help || e = .version then
      IO.println e.message
      return 0
    else
      IO.eprintln e.message
      return 2
