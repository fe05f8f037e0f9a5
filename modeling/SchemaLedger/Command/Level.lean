import SchemaLedger.Command.Verb
import SchemaLedger.Text.Part

/-!
# Words of a command line

A command line has two levels: what stands in front of the verb, and what follows it. Each is
read word by word into a `Level`. A value that stands as a word of its own behind its switch
is looked at only when the next switch or place is, or at the end of its level, so a word that
is wrong in itself is reported before the value in front of it.
-/

namespace SchemaLedger

/-- What is wrong with a command line, or asked for in place of a command. -/
inductive UsageError where
  | help
  | version
  | nothingGiven
  | missingVerb
  | unknownVerb (word : String)
  | unknownArgument (word : String)
  | missingValue (switch : Switch)
  | unexpectedValue (switch : Switch)
  | invalidValue (switch : Switch) (value : String)
  | repeated (switch : Switch)
  | missingName
  deriving DecidableEq

/-- What a user is told about a command line that cannot be carried out. -/
def UsageError.message : UsageError → String
  | .help | .nothingGiven | .missingVerb =>
    "Usage: schema-ledger [OPTIONS] <" ++ "|".intercalate (Verb.all.map Verb.word) ++ ">"
  | .version => "schema-ledger"
  | .unknownVerb word => "unrecognized subcommand '" ++ word ++ "'"
  | .unknownArgument word => "unexpected argument '" ++ word ++ "' found"
  | .missingValue switch => "a value is required for '--" ++ switch.long ++ "'"
  | .unexpectedValue switch => "unexpected value for '--" ++ switch.long ++ "'"
  | .invalidValue switch value =>
    "invalid value '" ++ value ++ "' for '--" ++ switch.long ++ "'"
  | .repeated switch => "the argument '--" ++ switch.long ++ "' cannot be used multiple times"
  | .missingName => "the following required arguments were not provided: <NAME>"

/-- What a level has room for. -/
structure Grammar where
  switches : List Switch
  room : Room

/-- What has been read on a level: the switches in the order they were given, the words, a
switch whose value is still to be looked at or still to come, and whether everything from here
on is a word. -/
structure Level where
  given : List (Switch × String) := []
  words : List String := []
  waiting : Option (Switch × Option String) := none
  wordsOnly : Bool := false
  deriving DecidableEq

namespace Level

/-- Whether a switch was given. -/
def has (l : Level) (s : Switch) : Bool := l.given.any (·.1 = s)

/-- The value of a switch. -/
def value? (l : Level) (s : Switch) : Option String := l.given.lookup s

/-- Takes a switch with its value, which is empty for a switch that takes none. -/
def accept (l : Level) (s : Switch) (value : String) : Except UsageError Level :=
  match s with
  | .help => .error .help
  | .version => .error .version
  | _ =>
    if l.has s then .error (.repeated s)
    else if s.admits value then .ok { l with given := l.given ++ [(s, value)] }
    else .error (.invalidValue s value)

/-- Looks at the value that was put off. -/
def settle (l : Level) : Except UsageError Level :=
  match l.waiting with
  | none => .ok l
  | some (s, none) => .error (.missingValue s)
  | some (s, some value) => { l with waiting := none }.accept s value

/-- The switch that the next word is the value of. -/
def expecting? (l : Level) : Option Switch :=
  match l.waiting with
  | some (s, none) => some s
  | _ => none

/-- A switch that came without a value attached to it. -/
def enter (l : Level) (s : Switch) : Except UsageError Level := do
  let l ← l.settle
  if s.takesValue then return { l with waiting := some (s, none) } else l.accept s ""

/-- A switch with a value attached to it. -/
def enterWith (l : Level) (s : Switch) (value : String) : Except UsageError Level := do
  (← l.settle).accept s value

/-- Reads what stands behind two dashes. -/
def readLong (g : Grammar) (l : Level) (body : List Char) : Except UsageError Level :=
  let (name, value?) : List Char × Option (List Char) :=
    match Text.cut? ['='] body with
    | some (name, value) => (name, some value)
    | none => (body, none)
  match g.switches.find? (·.long.toList = name) with
  | none => .error (.unknownArgument (String.ofList ('-' :: '-' :: body)))
  | some s =>
    match value? with
    | none => l.enter s
    | some value =>
      if s.takesValue then l.enterWith s (String.ofList value)
      else .error (.unexpectedValue s)

/-- Reads the letters behind a single dash. The first one that takes a value takes what is
behind it, if there is anything. -/
def readShort (g : Grammar) (l : Level) : List Char → Except UsageError Level
  | [] => .ok l
  | c :: rest =>
    match g.switches.find? (·.short? = some c) with
    | none => .error (.unknownArgument (String.ofList ['-', c]))
    | some s =>
      if s.takesValue then
        match rest with
        | [] => l.enter s
        | '=' :: value => l.enterWith s (String.ofList value)
        | value => l.enterWith s (String.ofList value)
      else do (← l.enter s).readShort g rest

/-- Puts a word into its place, if there is room. -/
def place (g : Grammar) (l : Level) (word : String) : Except UsageError Level :=
  match g.room with
  | .none => .error (.unknownArgument word)
  | .one =>
    if l.words.isEmpty then do return { ← l.settle with words := [word] }
    else .error (.unknownArgument word)
  | .many => do
    let l ← l.settle
    return { l with words := l.words ++ [word] }

/-- Takes a word that is no switch: as the value of a switch, or into its place. -/
def takeWord (g : Grammar) (l : Level) (word : String) : Except UsageError Level :=
  match l.expecting? with
  | some s => .ok { l with waiting := some (s, some word) }
  | none => l.place g word

/-- Reads a word. -/
def read (g : Grammar) (l : Level) (word : String) : Except UsageError Level :=
  if l.wordsOnly then l.place g word
  else
    match word.toList with
    | ['-', '-'] => .ok { l with wordsOnly := true }
    | '-' :: '-' :: body => l.readLong g body
    | ['-'] => l.takeWord g word
    | '-' :: letters => l.readShort g letters
    | _ => l.takeWord g word

/-- Reads the words of a level that has no verb in it. -/
def readAll (g : Grammar) (words : List String) : Except UsageError Level := do
  (← words.foldlM (read g) {}).settle

end Level

end SchemaLedger
