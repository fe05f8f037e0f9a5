import SchemaLedger.Command.Level

/-!
# Invocations

An invocation is what a command line says: settings that every command has, and an action.
The switches of the settings may stand in front of the verb or behind it. One that stands in
both places counts as it stands behind the verb.
-/

namespace SchemaLedger

/-- What every command can be told. -/
structure Settings where
  verbose : Bool := false
  projectDirectory : String := "."
  configuration : Option String := none
  target : Option String := none
  database : Option String := none
  deriving DecidableEq

/-- The forms in which the status can be shown. -/
inductive StatusForm where
  | table
  | json
  deriving DecidableEq

/-- What is to be done. -/
inductive Action where
  | migrate (dryRun : Bool)
  | status (form : StatusForm)
  | rollback (dryRun : Bool)
  | compile (names : List String) (down : Bool)
  | make (name : String)
  deriving DecidableEq

/-- A command with its settings. -/
structure Invocation where
  settings : Settings
  action : Action
  deriving DecidableEq

namespace Invocation

/-- What may stand in front of the verb. -/
def outerGrammar : Grammar := ⟨Switch.common ++ [.version], .none⟩

/-- What may follow a verb. -/
def innerGrammar (v : Verb) : Grammar := ⟨Switch.common ++ v.switches, v.room⟩

/-- The word that asks for help on the verb behind it. -/
def helpWord : String := "help"

/-- What asking for help by a word comes to. -/
def helpAnswer : List String → UsageError
  | [] => .help
  | word :: rest =>
    if (Verb.ofWord? word).isNone && word ≠ helpWord then .unknownVerb word
    else
      match rest with
      | [] => .help
      | extra :: _ => .unknownVerb extra

/-- What a word in front of the verb is that is neither a switch nor a value. -/
def strayWord (l : Level) (word : String) : UsageError :=
  if l.wordsOnly && ((Verb.ofWord? word).isSome || word = helpWord) then .unknownArgument word
  else .unknownVerb word

/-- The settings that two levels say. -/
def settingsOf (outer inner : Level) : Settings :=
  let value? (s : Switch) : Option String := (inner.value? s).or (outer.value? s)
  { verbose := outer.has .verbose || inner.has .verbose,
    projectDirectory := (value? .projectDirectory).getD ".",
    configuration := value? .configuration,
    target := value? .target,
    database := value? .database }

/-- The action that a verb with its level says. -/
def actionOf (v : Verb) (l : Level) : Except UsageError Action :=
  match v with
  | .migrate => .ok (.migrate (l.has .dryRun))
  | .status => .ok (.status (if l.value? .output = some "json" then .json else .table))
  | .rollback => .ok (.rollback (l.has .dryRun))
  | .compile => .ok (.compile l.words (l.has .down))
  | .make =>
    match l.words with
    | name :: _ => .ok (.make name)
    | [] => .error .missingName

/-- What a command line without a verb comes to. -/
def verbless (l : Level) : UsageError :=
  if l.given.isEmpty then .nothingGiven else .missingVerb

/-- Reads a command line from what was read of it before. -/
def readFrom (l : Level) : List String → Except UsageError Invocation
  | [] => do throw (verbless (← l.settle))
  | word :: rest =>
    if l.wordsOnly then .error (strayWord l word)
    else
      match l.expecting? with
      | some _ => do readFrom (← l.read outerGrammar word) rest
      | none =>
        if word = helpWord then .error (helpAnswer rest)
        else
          match Verb.ofWord? word with
          | some v => do
            let inner ← Level.readAll (innerGrammar v) rest
            let action ← actionOf v inner
            return ⟨settingsOf (← l.settle) inner, action⟩
          | none =>
            if word.toList.head? = some '-' && word ≠ "-" then do
              readFrom (← l.read outerGrammar word) rest
            else .error (strayWord l word)

/-- Reads the words of a command line. -/
def read (words : List String) : Except UsageError Invocation := readFrom {} words

end Invocation

end SchemaLedger
