import SchemaLedger.Proofs.FileMeaning
import SchemaLedger.Source.Error

/-!
# The first fault of a file

Whether a column entry, a step and a file are as they should be is said here without an order
of checks, by `ColumnEntry.WellFormed`, `StepEntry.WellFormed` and the two lists of a file. A
file is accepted just if all of its steps are well-formed, and then it has these steps,
`FileEntry.resolve_eq_ok_iff`.

The order matters for what is told of a file that is not accepted. Columns and steps are gone
through in the same way: one number further while all is well, and the first that is not ends
it. `FirstNot` is that place in a list, and `FileEntry.FirstFault` puts the two lists of steps
behind each other and looks into the table of a step.
-/

namespace SchemaLedger

/-- Number `n` of a list is `x`, and it is the first there that is not good. -/
structure FirstNot {α : Type} (good : α → Prop) (xs : List α) (n : Nat) (x : α) : Prop where
  item : xs[n]? = some x
  before : ∀ y ∈ xs.take n, good y
  bad : ¬ good x

namespace FirstNot

variable {α : Type} {good : α → Prop} {xs : List α} {n : Nat} {x y : α}

theorem head (bad : ¬ good x) (rest : List α) : FirstNot good (x :: rest) 0 x :=
  ⟨rfl, nofun, bad⟩

theorem cons (hy : good y) (h : FirstNot good xs n x) : FirstNot good (y :: xs) (n + 1) x :=
  ⟨h.item, List.forall_mem_cons.2 ⟨hy, h.before⟩, h.bad⟩

end FirstNot

/-! ## Columns -/

namespace ColumnEntry

/-- What a column entry has to be like: the parameters are those of its type, and it has a name
unless it is for the time columns, which have nothing but their type. -/
structure WellFormed (c : ColumnEntry) : Prop where
  length : c.length ≠ none → c.type = .string
  precision : c.precision ≠ none ↔ c.type = .decimal
  scale : c.scale ≠ none ↔ c.type = .decimal
  bare : c.type = .timestamps → c.name = none ∧ c.notNull = false ∧ c.default = none ∧
    c.primary = false ∧ c.unique = false ∧ c.references = none
  named : c.type ≠ .timestamps → ∃ name, c.name = some name ∧ name ≠ ""

/-- The fault is there in the column entry. -/
inductive Faulty (c : ColumnEntry) : ColumnFault → Prop
  | incomplete (type : c.type = .decimal) (h : c.precision = none ∨ c.scale = none) :
    Faulty c .incompleteDecimal
  | length (given : c.length ≠ none) (type : c.type ≠ .string) : Faulty c (.misplaced "length")
  | precision (given : c.precision ≠ none) (type : c.type ≠ .decimal) :
    Faulty c (.misplaced "precision")
  | scale (given : c.scale ≠ none) (type : c.type ≠ .decimal) : Faulty c (.misplaced "scale")
  | decorated (type : c.type = .timestamps) (h : c.name ≠ none ∨ c.hasModifiers = true) :
    Faulty c .decoratedTimestamps
  | unnamed (type : c.type ≠ .timestamps) (h : c.name = none ∨ c.name = some "") :
    Faulty c .unnamed

variable {c : ColumnEntry}

theorem mem_parameters {p : String} : p ∈ c.parameters ↔ (c.length ≠ none ∧ p = "length") ∨
    (c.precision ≠ none ∧ p = "precision") ∨ (c.scale ≠ none ∧ p = "scale") := by
  simp [parameters, Option.isSome_iff_ne_none]

theorem mem_parametersOf {type : ColumnType} {p : String} : p ∈ parametersOf type ↔
    (type = .string ∧ p = "length") ∨ (type = .decimal ∧ (p = "precision" ∨ p = "scale")) := by
  cases type <;> simp [parametersOf]

theorem hasModifiers_eq_false_iff : c.hasModifiers = false ↔ c.notNull = false ∧
    c.default = none ∧ c.primary = false ∧ c.unique = false ∧ c.references = none := by
  simp [hasModifiers, and_assoc]

theorem Faulty.not_wellFormed {fault : ColumnFault} (h : c.Faulty fault) : ¬ c.WellFormed := by
  intro wellFormed
  cases h with
  | incomplete type h =>
      rcases h with h | h
      · exact wellFormed.precision.2 type h
      · exact wellFormed.scale.2 type h
  | length given type => exact type (wellFormed.length given)
  | precision given type => exact type (wellFormed.precision.1 given)
  | scale given type => exact type (wellFormed.scale.1 given)
  | decorated type h =>
      obtain ⟨hname, modifiers⟩ := wellFormed.bare type
      rw [← hasModifiers_eq_false_iff] at modifiers
      rcases h with h | h
      · exact h hname
      · rw [modifiers] at h
        cases h
  | unnamed type h =>
      obtain ⟨name, hname, nonempty⟩ := wellFormed.named type
      rcases h with h | h <;> rw [hname] at h <;> cases h
      exact nonempty rfl

theorem faulty_of_checkParameters {fault : ColumnFault} (h : c.checkParameters = .error fault) :
    c.Faulty fault := by
  unfold checkParameters at h
  split at h
  · next hdecimal =>
      cases h
      simp only [Bool.and_eq_true, Bool.or_eq_true, decide_eq_true_eq,
        Option.isNone_iff_eq_none] at hdecimal
      exact .incomplete hdecimal.1 hdecimal.2
  · split at h
    · next p hfind =>
        cases h
        have hp := mem_parameters.1 (List.mem_of_find?_eq_some hfind)
        have hnot : p ∉ parametersOf c.type := by simpa using List.find?_some hfind
        rw [mem_parametersOf] at hnot
        rcases hp with ⟨given, rfl⟩ | ⟨given, rfl⟩ | ⟨given, rfl⟩
        · exact .length given fun type => hnot (.inl ⟨type, rfl⟩)
        · exact .precision given fun type => hnot (.inr ⟨type, .inl rfl⟩)
        · exact .scale given fun type => hnot (.inr ⟨type, .inr rfl⟩)
    · cases h

theorem faulty_of_checkName {fault : ColumnFault} (h : c.checkName = .error fault) :
    c.Faulty fault := by
  unfold checkName at h
  split at h
  · next type =>
      split at h
      · next hdecorated =>
          cases h
          simp only [Bool.or_eq_true, Option.isSome_iff_ne_none] at hdecorated
          exact .decorated type hdecorated
      · cases h
  · next type =>
      split at h
      · next name hname =>
          split at h
          · next hempty =>
              cases h
              exact .unnamed type (.inr (by rw [hname, String.isEmpty_iff.1 hempty]))
          · cases h
      · next hname =>
          cases h
          exact .unnamed type (.inl hname)

/-- What is told of a column entry is so. -/
theorem faulty_of_check {fault : ColumnFault} (h : c.check = .error fault) : c.Faulty fault := by
  unfold check at h
  cases hparameters : c.checkParameters with
  | error e =>
      rw [hparameters] at h
      cases h
      exact faulty_of_checkParameters hparameters
  | ok _ =>
      rw [hparameters] at h
      exact faulty_of_checkName h

theorem wellFormed_of_check (h : c.check = .ok ()) : c.WellFormed := by
  obtain ⟨hparameters, hname⟩ := of_check h
  obtain ⟨hlength, hprecision, hscale⟩ := parameters_of_check hparameters
  have complete := (mem_parametersOf_of_check hparameters).2
  simp only [Option.isSome_iff_ne_none] at complete
  simp only [mem_parametersOf] at hlength hprecision hscale
  refine ⟨fun given => ?_, ⟨fun given => ?_, fun type => (complete type).1⟩,
    ⟨fun given => ?_, fun type => (complete type).2⟩, fun type => ?_, fun type => ?_⟩
  · by_contra type
    exact given (hlength (by simp [type]))
  · by_contra type
    exact given (hprecision (by simp [type]))
  · by_contra type
    exact given (hscale (by simp [type]))
  · rw [eq_of_check h type]
    exact ⟨rfl, rfl, rfl, rfl, rfl, rfl⟩
  · refine ⟨c.name.getD "", name_of_checkName hname type, fun hempty => ?_⟩
    have hsome := name_of_checkName hname type
    rw [hempty] at hsome
    rw [checkName, if_neg type, hsome] at hname
    cases hname

theorem check_eq_ok_iff : c.check = .ok () ↔ c.WellFormed := by
  constructor
  · exact wellFormed_of_check
  · intro wellFormed
    cases h : c.check with
    | ok _ => rfl
    | error fault => exact absurd wellFormed (faulty_of_check h).not_wellFormed

end ColumnEntry

namespace TableEntry

variable {table : String} {i : Nat} {cs : List ColumnEntry}

theorem checkColumnsFrom_of_wellFormed (h : ∀ c ∈ cs, c.WellFormed) :
    checkColumnsFrom table i cs = .ok () := by
  induction cs generalizing i with
  | nil => rfl
  | cons c rest ih =>
      obtain ⟨hc, hrest⟩ := List.forall_mem_cons.1 h
      rw [checkColumnsFrom, ColumnEntry.check_eq_ok_iff.2 hc]
      exact ih hrest

theorem firstNot_of_checkColumnsFrom {fault : StepFault}
    (h : checkColumnsFrom table i cs = .error fault) :
    ∃ n c reason, FirstNot ColumnEntry.WellFormed cs n c ∧ c.Faulty reason ∧
      fault = .column table (i + n) reason := by
  induction cs generalizing i with
  | nil => cases h
  | cons c rest ih =>
      rw [checkColumnsFrom] at h
      cases hc : c.check with
      | error reason =>
          rw [hc] at h
          cases h
          have faulty := ColumnEntry.faulty_of_check hc
          exact ⟨0, c, reason, .head faulty.not_wellFormed rest, faulty, rfl⟩
      | ok _ =>
          rw [hc] at h
          obtain ⟨n, d, reason, first, faulty, rfl⟩ := ih h
          exact ⟨n + 1, d, reason, first.cons (ColumnEntry.check_eq_ok_iff.1 hc), faulty,
            by rw [Nat.add_right_comm, Nat.add_assoc]⟩

end TableEntry

/-! ## Steps -/

namespace StepEntry

/-- The operations that a step gives. -/
def operations (s : StepEntry) : List Step :=
  (s.createTable.map .createTable).toList ++ (s.dropTable.map .dropTable).toList ++
    (s.raw.map .raw).toList

/-- A step is well-formed if it gives one operation, and its columns are well-formed. -/
structure WellFormed (s : StepEntry) : Prop where
  single : s.operations.length = 1
  columns : ∀ table, s.createTable = some table → ∀ c ∈ table.columns, c.WellFormed

/-- The step is well-formed, and this is its operation. -/
structure Gives (s : StepEntry) (step : Step) : Prop where
  only : s.operations = [step]
  wellFormed : s.WellFormed

/-- The fault is there in the step. One of a column is in the first that is not well-formed. -/
inductive Faulty (s : StepEntry) : StepFault → Prop
  | none (h : s.operations = []) : Faulty s .noOperation
  | several (h : 2 ≤ s.operations.length) : Faulty s .severalOperations
  | column {table : TableEntry} {n : Nat} {c : ColumnEntry} {reason : ColumnFault}
    (only : s.operations = [.createTable table])
    (first : FirstNot ColumnEntry.WellFormed table.columns n c) (faulty : c.Faulty reason) :
    Faulty s (.column table.name n reason)

variable {s : StepEntry} {step : Step} {fault : StepFault}

theorem operation_eq_ok_iff : s.operation = .ok step ↔ s.operations = [step] := by
  obtain ⟨createTable, dropTable, raw⟩ := s
  cases createTable <;> cases dropTable <;> cases raw <;> simp [operation, operations]

theorem faulty_of_operation (h : s.operation = .error fault) : s.Faulty fault := by
  unfold operation at h
  split at h <;> cases h
  · next hc hd hr => exact .none (by rw [operations, hc, hd, hr]; rfl)
  · next hc hd hr hnone =>
      refine .several ?_
      obtain ⟨createTable, dropTable, raw⟩ := s
      cases createTable <;> cases dropTable <;> cases raw <;> simp_all [operations]

theorem createTable_of_operations {table : TableEntry}
    (h : s.operations = [.createTable table]) : s.createTable = some table := by
  rcases operation_ok (operation_eq_ok_iff.2 h) with ⟨_, rfl, heq⟩ | ⟨_, _, heq⟩ | ⟨_, _, heq⟩ <;>
    cases heq
  rfl

theorem Gives.exists_iff : (∃ step, s.Gives step) ↔ s.WellFormed := by
  constructor
  · rintro ⟨step, given⟩
    exact given.wellFormed
  · intro wellFormed
    obtain ⟨step, only⟩ := List.length_eq_one_iff.1 wellFormed.single
    exact ⟨step, only, wellFormed⟩

theorem Faulty.not_wellFormed (h : s.Faulty fault) : ¬ s.WellFormed := by
  intro wellFormed
  have single := wellFormed.single
  cases h with
  | none h =>
      rw [h] at single
      cases single
  | several h => omega
  | column only first faulty =>
      exact faulty.not_wellFormed (wellFormed.columns _ (createTable_of_operations only) _
        (List.mem_of_getElem? first.item))

theorem resolve_eq_ok_iff : s.resolve = .ok step ↔ s.Gives step := by
  constructor
  · intro h
    obtain ⟨hop, checked⟩ := resolve_ok h
    have only := operation_eq_ok_iff.1 hop
    refine ⟨only, by rw [only]; rfl, fun table htable c hc => ?_⟩
    rcases operation_ok hop with ⟨other, rfl, rfl⟩ | ⟨name, rfl, rfl⟩ | ⟨sql, rfl, rfl⟩ <;>
      cases htable
    exact ColumnEntry.check_eq_ok_iff.1 (checked _ rfl c hc)
  · rintro ⟨only, wellFormed⟩
    rw [resolve, operation_eq_ok_iff.2 only]
    cases step with
    | createTable table =>
        have hcolumns : TableEntry.checkColumnsFrom table.name 0 table.columns = .ok () :=
          TableEntry.checkColumnsFrom_of_wellFormed
            (wellFormed.columns table (createTable_of_operations only))
        simp only [bind, Except.bind, hcolumns]
        rfl
    | dropTable name => rfl
    | raw sql => rfl

theorem faulty_of_resolve (h : s.resolve = .error fault) : s.Faulty fault := by
  unfold resolve at h
  cases hop : s.operation with
  | error e =>
      rw [hop] at h
      cases h
      exact faulty_of_operation hop
  | ok step =>
      rw [hop] at h
      cases step with
      | createTable table =>
          cases hcolumns : TableEntry.checkColumnsFrom table.name 0 table.columns with
          | ok _ =>
              simp only [bind, Except.bind, hcolumns] at h
              cases h
          | error e =>
              simp only [bind, Except.bind, hcolumns] at h
              cases h
              obtain ⟨n, c, reason, first, faulty, rfl⟩ :=
                TableEntry.firstNot_of_checkColumnsFrom hcolumns
              rw [Nat.zero_add]
              exact .column (operation_eq_ok_iff.1 hop) first faulty
      | dropTable name => cases h
      | raw sql => cases h

end StepEntry

/-! ## Files -/

section

variable {direction : Direction} {i : Nat} {entries : List StepEntry} {steps : List Step}

theorem resolveFrom_eq_ok_iff :
    resolveFrom direction i entries = .ok steps ↔ List.Forall₂ StepEntry.Gives entries steps := by
  constructor
  · intro h
    exact (resolve_of_resolveFrom h).imp fun _ _ hs => StepEntry.resolve_eq_ok_iff.1 hs
  · intro h
    induction h generalizing i with
    | nil => rfl
    | cons hs _ ih =>
        rw [resolveFrom, StepEntry.resolve_eq_ok_iff.2 hs, ih]
        rfl

theorem firstNot_of_resolveFrom {fault : FileFault}
    (h : resolveFrom direction i entries = .error fault) :
    ∃ n s reason, FirstNot StepEntry.WellFormed entries n s ∧ s.Faulty reason ∧
      fault = ⟨direction, i + n, reason⟩ := by
  induction entries generalizing i with
  | nil => cases h
  | cons s rest ih =>
      rw [resolveFrom] at h
      cases hs : s.resolve with
      | error reason =>
          rw [hs] at h
          cases h
          have faulty := StepEntry.faulty_of_resolve hs
          exact ⟨0, s, reason, .head faulty.not_wellFormed rest, faulty, rfl⟩
      | ok step =>
          cases hrest : resolveFrom direction (i + 1) rest with
          | ok more =>
              rw [hs, hrest] at h
              cases h
          | error e =>
              rw [hs, hrest] at h
              cases h
              obtain ⟨n, t, reason, first, faulty, rfl⟩ := ih hrest
              have wellFormed := (StepEntry.resolve_eq_ok_iff.1 hs).wellFormed
              exact ⟨n + 1, t, reason, first.cons wellFormed, faulty,
                by rw [Nat.add_right_comm, Nat.add_assoc]⟩

theorem StepEntry.forall₂_gives_iff :
    (∃ steps, List.Forall₂ Gives entries steps) ↔ ∀ s ∈ entries, s.WellFormed := by
  induction entries with
  | nil => exact ⟨fun _ => nofun, fun _ => ⟨[], .nil⟩⟩
  | cons s rest ih =>
      rw [List.forall_mem_cons, ← ih, ← Gives.exists_iff]
      constructor
      · rintro ⟨_, _ | ⟨hs, hrest⟩⟩
        exact ⟨⟨_, hs⟩, _, hrest⟩
      · rintro ⟨⟨step, hs⟩, more, hrest⟩
        exact ⟨step :: more, .cons hs hrest⟩

end

namespace FileEntry

/-- The fault is that of the first step that is not well-formed, where all steps up come before
any step down. -/
inductive FirstFault (f : FileEntry) : FileFault → Prop
  | up {n : Nat} {s : StepEntry} {reason : StepFault}
    (first : FirstNot StepEntry.WellFormed f.up n s) (faulty : s.Faulty reason) :
    FirstFault f ⟨.up, n, reason⟩
  | down {n : Nat} {s : StepEntry} {reason : StepFault} (ups : ∀ s ∈ f.up, s.WellFormed)
    (first : FirstNot StepEntry.WellFormed f.down n s) (faulty : s.Faulty reason) :
    FirstFault f ⟨.down, n, reason⟩

variable {f : FileEntry} {file : MigrationFile}

theorem resolve_of_gives {up down : List Step} (hup : List.Forall₂ StepEntry.Gives f.up up)
    (hdown : List.Forall₂ StepEntry.Gives f.down down) :
    f.resolve = .ok ⟨f.description, up, down⟩ := by
  rw [resolve, resolveFrom_eq_ok_iff.2 hup, resolveFrom_eq_ok_iff.2 hdown]
  rfl

/-- An accepted file has the steps of the entries, one for each and in their order. -/
theorem resolve_eq_ok_iff : f.resolve = .ok file ↔ file.description = f.description ∧
    List.Forall₂ StepEntry.Gives f.up file.up ∧
    List.Forall₂ StepEntry.Gives f.down file.down := by
  constructor
  · intro h
    obtain ⟨hup, hdown⟩ := FileEntry.resolve_ok h
    have hup := hup.imp fun _ _ hs => StepEntry.resolve_eq_ok_iff.1 hs
    have hdown := hdown.imp fun _ _ hs => StepEntry.resolve_eq_ok_iff.1 hs
    rw [resolve_of_gives hup hdown] at h
    exact ⟨(congrArg MigrationFile.description (Except.ok.inj h)).symm, hup, hdown⟩
  · obtain ⟨description, up, down⟩ := file
    rintro ⟨rfl, hup, hdown⟩
    exact resolve_of_gives hup hdown

theorem exists_resolve_iff :
    (∃ file, f.resolve = .ok file) ↔ ∀ s ∈ f.up ++ f.down, s.WellFormed := by
  simp only [resolve_eq_ok_iff, List.forall_mem_append, ← StepEntry.forall₂_gives_iff]
  constructor
  · rintro ⟨file, -, hup, hdown⟩
    exact ⟨⟨file.up, hup⟩, file.down, hdown⟩
  · rintro ⟨⟨up, hup⟩, down, hdown⟩
    exact ⟨⟨f.description, up, down⟩, rfl, hup, hdown⟩

theorem firstFault_of_resolve {fault : FileFault} (h : f.resolve = .error fault) :
    f.FirstFault fault := by
  unfold resolve at h
  cases hup : resolveFrom .up 0 f.up with
  | error e =>
      rw [hup] at h
      cases h
      obtain ⟨n, s, reason, first, faulty, rfl⟩ := firstNot_of_resolveFrom hup
      rw [Nat.zero_add]
      exact .up first faulty
  | ok up =>
      cases hdown : resolveFrom .down 0 f.down with
      | error e =>
          rw [hup] at h
          simp only [bind, Except.bind, hdown] at h
          cases h
          obtain ⟨n, s, reason, first, faulty, rfl⟩ := firstNot_of_resolveFrom hdown
          rw [Nat.zero_add]
          exact .down (StepEntry.forall₂_gives_iff.1 ⟨up, resolveFrom_eq_ok_iff.1 hup⟩) first faulty
      | ok down =>
          rw [hup] at h
          simp only [bind, Except.bind, hdown] at h
          cases h

end FileEntry

namespace MigrationFile

theorem parseFrom_of_decode {content : String} {f : FileEntry} (decoded : decode content = .ok f)
    (origin : String) :
    parseFrom content origin = f.resolve.mapError fun fault => .parse origin (.step fault) := by
  rw [parseFrom, parse, decoded]
  change (f.resolve.mapError ParseFault.step).mapError _ = _
  cases f.resolve <;> rfl

/-- A file whose text is read is accepted just if all of its steps are well-formed, and it has
these steps then. Otherwise its first fault is told, with the direction and the number of the
step, and for a fault of a column with the name of the table and the number of the column. -/
theorem parse_accepts_iff (origin : String) {content : String} {f : FileEntry}
    (decoded : decode content = .ok f) :
    ((∃ file, parseFrom content origin = .ok file) ↔ ∀ s ∈ f.up ++ f.down, s.WellFormed) ∧
    (∀ file, parseFrom content origin = .ok file ↔ file.description = f.description ∧
      List.Forall₂ StepEntry.Gives f.up file.up ∧
      List.Forall₂ StepEntry.Gives f.down file.down) ∧
    ∀ e, parseFrom content origin = .error e → ∃ direction index reason,
      f.FirstFault ⟨direction, index, reason⟩ ∧
      e = .parse origin (.step ⟨direction, index, reason⟩) ∧
      e.message = "[E006] Failed to parse migration file " ++ origin ++ ": " ++
        (direction.name ++ "[" ++ toString index ++ "]: " ++ reason.message) ∧
      ∀ table number fault, reason = .column table number fault → reason.message =
        "table '" ++ table ++ "' column " ++ toString number ++ ": " ++ fault.message := by
  have accepted {file : MigrationFile} :
      parseFrom content origin = .ok file ↔ f.resolve = .ok file := by
    rw [parseFrom_of_decode decoded]
    cases f.resolve <;> simp [Except.mapError]
  refine ⟨?_, fun file => accepted.trans FileEntry.resolve_eq_ok_iff, fun e h => ?_⟩
  · simp only [accepted]
    exact FileEntry.exists_resolve_iff
  · rw [parseFrom_of_decode decoded] at h
    cases hresolve : f.resolve with
    | ok file =>
        rw [hresolve] at h
        cases h
    | error fault =>
        rw [hresolve] at h
        cases h
        refine ⟨fault.direction, fault.index, fault.fault, FileEntry.firstFault_of_resolve hresolve,
          rfl, rfl, fun table number reason heq => ?_⟩
        rw [heq]
        rfl

/-- A file with a length on a column of integers, and with two operations in the step behind. -/
def agedPets : String :=
  "down:\n- raw: a\n- create_table:\n    name: pets\n    columns:\n" ++
  "    - type: timestamps\n    - type: integer\n      length: 3\n" ++
  "- raw: b\n  drop_table: c\n"

/-- The steps of the file. -/
def agedPetsSteps : FileEntry where
  down := [{ raw := some "a" },
    { createTable := some ⟨"pets", [{ type := .timestamps },
      { type := .integer, length := some 3 }]⟩ },
    { dropTable := some "c", raw := some "b" }]

/-- The length is told of, as the first fault. A file with one good step is accepted. -/
theorem parse_accepts_iff_of_agedPets :
    (¬ ∃ file, parseFrom agedPets "1_pets.yml" = .ok file) ∧
    (∃ e, parseFrom agedPets "1_pets.yml" = .error e ∧
      agedPetsSteps.FirstFault ⟨.down, 1, .column "pets" 1 (.misplaced "length")⟩ ∧
      e.message = "[E006] Failed to parse migration file 1_pets.yml: down[1]: " ++
        "table 'pets' column 1: 'length' is not valid for this column type") ∧
    ∃ file, parseFrom "up:\n- raw: a\n" "2_pets.yml" = .ok file := by
  have decoded : decode agedPets = .ok agedPetsSteps := by
    have hread : (decode agedPets).toOption = some agedPetsSteps := by decide +kernel
    cases h : decode agedPets with
    | error e =>
        rw [h] at hread
        cases hread
    | ok f =>
        rw [h] at hread
        exact congrArg _ (Option.some.inj hread)
  have decoded' : decode "up:\n- raw: a\n" = .ok { up := [{ raw := some "a" }] } := by rfl
  have told : parseFrom agedPets "1_pets.yml" =
      .error (.parse "1_pets.yml" (.step ⟨.down, 1, .column "pets" 1 (.misplaced "length")⟩)) := by
    rw [parseFrom_of_decode decoded]
    rfl
  obtain ⟨hiff, -, herror⟩ := parse_accepts_iff "1_pets.yml" decoded
  obtain ⟨direction, index, reason, first, heq, hmessage, -⟩ := herror _ told
  cases heq
  refine ⟨fun accepted => ?_, ⟨_, told, first, hmessage.trans (by decide +kernel)⟩,
    (parse_accepts_iff "2_pets.yml" decoded').1.2 ?_⟩
  · have wellFormed := hiff.1 accepted { dropTable := some "c", raw := some "b" }
      (by simp [agedPetsSteps])
    have single := wellFormed.single
    cases single
  · intro step hstep
    rw [List.mem_singleton.1 hstep]
    exact ⟨rfl, nofun⟩

end MigrationFile

end SchemaLedger
