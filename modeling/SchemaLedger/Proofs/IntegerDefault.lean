import SchemaLedger.Proofs.DocumentPaths
import SchemaLedger.Proofs.FileMeaning
import SchemaLedger.Proofs.SchemaDemands
import SchemaLedger.Proofs.SpelledIntegers

/-!
# What becomes of an integer that is given as a default

A default is read as data, and the data are then taken for the first kind of default that they
fit. Data hold integers of up to 64 bits, with a sign or without one. The first kind of default
that takes a number is an integer with a sign, and the next one is a number with a fraction, which
takes any. So an integer that fits only without a sign is rounded to the nearest double. Those of
more than 64 bits are refused, and those of more than 128 have been rounded already, or kept as
texts, when the document was read. `integerDefault?` lists these cases.

The proofs go from the inside to the outside: a default, a column, a table, a step and a file are
each read by a record reader, so what stands in the document at a place is what the entry at this
place holds. An entry that is accepted keeps its default in the clause that it becomes,
`clause_of_default`.
-/

namespace SchemaLedger

/-- The steps of a direction. -/
def FileEntry.steps (f : FileEntry) : Direction → List StepEntry
  | .up => f.up
  | .down => f.down

/-- The steps of a direction. -/
def MigrationFile.steps (f : MigrationFile) : Direction → List Step
  | .up => f.up
  | .down => f.down

/-- The change in a direction. -/
def Definition.change (d : Definition) : Direction → Schema
  | .up => d.up
  | .down => d.down

namespace MigrationFile

open Yaml (Scalar)
open Text (Spells)

/-- What becomes of an integer that is given as a default: up to 64 bits with a sign it stays
one, with up to 128 bits it has no default, and else it is the nearest number with a fraction,
or the text as it stands if there is none. -/
def integerDefault? (text : String) (n : Int) : Option DefaultValue :=
  if Text.int64Min ≤ n ∧ n ≤ Text.int64Max then some (.integer n)
  else if 0 ≤ n ∧ n ≤ Text.uint64Max then some (.float (.ofInt n))
  else if Text.int128Min ≤ n ∧ n ≤ Text.uint128Max then none
  else if (Text.Double.ofInt n).isFinite then some (.float (.ofInt n))
  else some (.text text)

/-- The default that a value is, unless it is an integer of more than 64 bits. -/
def narrowDefault? : Yaml.Value → Option DefaultValue
  | .wide _ => none
  | v => defaultOf? (.value v)

theorem narrowDefault?_plainValue {text : String} {n : Int} (h : Spells text n) :
    narrowDefault? (Scalar.plainValue text) = integerDefault? text n := by
  have hlimits : Text.int64Min = -9223372036854775808 ∧ Text.int64Max = 9223372036854775807 ∧
      Text.uint64Max = 18446744073709551615 ∧
      Text.int128Min = -170141183460469231731687303715884105728 ∧
      Text.uint128Max = 340282366920938463463374607431768211455 := ⟨rfl, rfl, rfl, rfl, rfl⟩
  unfold integerDefault?
  obtain ⟨d, ⟨rfl, rfl⟩ | ⟨rfl, rfl⟩⟩ := h
  · rw [Scalar.plainValue_toString]
    by_cases h64 : d ≤ Text.uint64Max
    · rw [if_pos h64]
      show (if (d : Int) ≤ Text.int64Max then _ else _) = _
      by_cases hsigned : (d : Int) ≤ Text.int64Max
      · rw [if_pos hsigned, if_pos (by omega)]
      · rw [if_neg hsigned, if_neg (by omega), if_pos (by omega), Text.Double.ofInt_natCast]
        rfl
    · by_cases h128 : d ≤ Text.uint128Max
      · rw [if_neg h64, if_pos h128, if_neg (by omega), if_neg (by omega), if_pos (by omega)]
        rfl
      · rw [if_neg h64, if_neg h128]
        split <;> rw [if_neg (by omega), if_neg (by omega), if_neg (by omega)] <;> rfl
  · rw [Scalar.plainValue_minus]
    by_cases h64 : Text.int64Min ≤ -(d : Int)
    · rw [if_pos h64, if_pos (by omega)]
      rfl
    · by_cases h128 : Text.int128Min ≤ -(d : Int)
      · rw [if_neg h64, if_pos h128, if_neg (by omega), if_neg (by omega), if_pos (by omega)]
        rfl
      · rw [if_neg h64, if_neg h128]
        split <;> rw [if_neg (by omega), if_neg (by omega), if_neg (by omega)] <;> rfl

/-! ## Reading a default -/

open Yaml Yaml.Decode

variable {doc : Document} {node v : Node} {text : String} {n : Int}

/-- The default is what a spelled integer becomes. -/
def IsDefault (text : String) (n : Int) (c : ColumnEntry) : Prop :=
  ∃ value, c.default = some value ∧ integerDefault? text n = some value

theorem ensures_readDefault {a : Option Nat}
    (h : node.resolved? doc = some (.scalar a ⟨.plain, none, text⟩)) (spells : Spells text n)
    (spot : Spot) :
    Ensures doc (readDefault spot node) fun value => integerDefault? text n = some value := by
  refine ensures_bind (ensures_data_of_scalar h spot) ?_
  rintro _ ⟨value, hvalue, rfl, hnarrow⟩
  obtain rfl : Scalar.plainValue text = value := Except.ok.inj hvalue
  have hdefault : narrowDefault? (Scalar.plainValue text) =
      defaultOf? (.value (Scalar.plainValue text)) := by
    cases hplain : Scalar.plainValue text with
    | wide k => exact absurd hplain (hnarrow k)
    | _ => rfl
  rw [← narrowDefault?_plainValue spells, hdefault]
  cases hfound : defaultOf? (.value (Scalar.plainValue text)) with
  | none => exact ensures_fail
  | some found => exact ensures_pure rfl

theorem ensures_isLeftOut (spells : Spells text n) :
    Ensures doc (isLeftOut ⟨.plain, none, text⟩) (· = false) := by
  have hends := spells.endsInDigit
  refine ensures_pure (a := text.isEmpty || Scalar.isNullText text) ?_
  rw [Scalar.isEmpty_of_endsInDigit hends, Scalar.isNullText_of_endsInDigit hends]
  rfl

theorem ensures_readColumn (hv : node.field? doc "default" = some v)
    (htext : v.plainText? doc = some text) (spells : Spells text n) (spot : Spot) :
    Ensures doc (readColumn spot node) (IsDefault text n) := by
  obtain ⟨a, hscalar⟩ := Node.resolved?_of_plainText? htext
  have there : ∀ b s, Node.scalar a ⟨.plain, none, text⟩ = .scalar b s →
      Ensures doc (isLeftOut s) (· = false) := by
    rintro _ _ ⟨⟩
    exact ensures_isLeftOut spells
  refine ensures_record_of_field? (P := fun acc => IsDefault text n acc.1) hv ?_ ?_ ?_ spot
  · rintro ⟨c, type⟩ spot
    refine ensures_bind (ensures_optional hscalar there
      (fun spot => ensures_readDefault rfl spells spot) spot) ?_
    rintro _ ⟨value, rfl, hvalue⟩
    exact ensures_pure ⟨value, rfl, hvalue⟩
  · rintro other _ hne ⟨c, type⟩ spot m ⟨value, hdefault, hvalue⟩
    dsimp only
    split <;> first
      | exact absurd rfl hne
      | exact ensures_bind (ensures_true _) fun _ _ => ensures_pure ⟨value, hdefault, hvalue⟩
  · rintro ⟨c, type⟩ hacc
    exact ensures_bind (ensures_true _) fun _ _ => ensures_pure hacc

theorem ensures_readTable {C : ColumnEntry → Prop} {column : Node} {j : Nat}
    (hcolumns : node.field? doc "columns" = some v) (hitem : (v.items doc)[j]? = some column)
    (hcolumn : ∀ spot, Ensures doc (readColumn spot column) C) (spot : Spot) :
    Ensures doc (readTable spot node) fun table => ∃ c, table.columns[j]? = some c ∧ C c := by
  refine ensures_record_of_field?
    (P := fun acc => ∃ cs, acc.2 = some cs ∧ ∃ c, cs[j]? = some c ∧ C c) hcolumns ?_ ?_ ?_ spot
  · rintro ⟨table, columns⟩ spot
    refine ensures_bind (ensures_sequence_of_getElem? hitem hcolumn spot) fun cs hcs => ?_
    exact ensures_pure ⟨cs, rfl, hcs⟩
  · rintro other hknown hne ⟨table, columns⟩ spot m hacc
    obtain rfl : other = "name" := by simpa [hne] using hknown
    exact ensures_bind (ensures_true _) fun _ _ => ensures_pure hacc
  · rintro ⟨table, columns⟩ ⟨cs, rfl, hcs⟩
    exact ensures_bind (ensures_true _) fun _ _ => ensures_pure hcs

theorem ensures_readStep {T : TableEntry → Prop} {table : Node}
    (htable : node.field? doc "create_table" = some table)
    (hcolumns : table.field? doc "columns" = some v)
    (hread : ∀ table : Node, table.field? doc "columns" = some v → ∀ spot,
      Ensures doc (readTable spot table) T) (spot : Spot) :
    Ensures doc (readStep spot node) fun step => ∃ t, step.createTable = some t ∧ T t := by
  refine ensures_record_of_field?
    (P := fun step : StepEntry => ∃ t, step.createTable = some t ∧ T t) htable ?_ ?_ ?_ spot
  · intro step spot
    refine ensures_bind (ensures_optional_of_field? hcolumns hread spot) ?_
    rintro _ ⟨t, rfl, ht⟩
    exact ensures_pure ⟨t, rfl, ht⟩
  · intro other hknown hne step spot m hstep
    obtain rfl | rfl : other = "drop_table" ∨ other = "raw" := by simpa [hne] using hknown
    · exact ensures_bind (ensures_true _) fun _ _ => ensures_pure hstep
    · exact ensures_bind (ensures_true _) fun _ _ => ensures_pure hstep
  · intro step hstep
    exact ensures_pure hstep

theorem ensures_readFile {S : StepEntry → Prop} {direction : Direction} {step : Node} {i : Nat}
    (hsteps : node.field? doc direction.name = some v) (hitem : (v.items doc)[i]? = some step)
    (hstep : ∀ spot, Ensures doc (readStep spot step) S) (spot : Spot) :
    Ensures doc (readFile spot node) fun file =>
      ∃ s, (file.steps direction)[i]? = some s ∧ S s := by
  refine ensures_record_of_field?
    (P := fun file : FileEntry => ∃ s, (file.steps direction)[i]? = some s ∧ S s) hsteps
    ?_ ?_ ?_ spot
  · intro file spot
    cases direction with
    | up =>
        refine ensures_bind (ensures_sequence_of_getElem? hitem hstep spot) fun steps h => ?_
        exact ensures_pure h
    | down =>
        refine ensures_bind (ensures_sequence_of_getElem? hitem hstep spot) fun steps h => ?_
        exact ensures_pure h
  · intro other hknown hne file spot m hfile
    cases direction with
    | up =>
        have hup : other ≠ "up" := hne
        obtain rfl | rfl : other = "description" ∨ other = "down" := by
          simpa [hup] using hknown
        · exact ensures_bind (ensures_true _) fun _ _ => ensures_pure hfile
        · exact ensures_bind (ensures_true _) fun _ _ => ensures_pure hfile
    | down =>
        have hdown : other ≠ "down" := hne
        obtain rfl | rfl : other = "description" ∨ other = "up" := by
          simpa [hdown] using hknown
        · exact ensures_bind (ensures_true _) fun _ _ => ensures_pure hfile
        · exact ensures_bind (ensures_true _) fun _ _ => ensures_pure hfile
  · intro file hfile
    exact ensures_pure hfile

/-- The node of a column entry, by its direction, its step and its number. -/
def columnNode? (doc : Document) (direction : Direction) (i j : Nat) : Option Node := do
  let steps ← doc.root.field? doc direction.name
  let step ← (steps.items doc)[i]?
  let table ← step.field? doc "create_table"
  let columns ← table.field? doc "columns"
  (columns.items doc)[j]?

/-- The text of the default of a column entry, if that is a plain scalar. -/
def defaultText? (doc : Document) (direction : Direction) (i j : Nat) : Option String := do
  let column ← columnNode? doc direction i j
  let value ← column.field? doc "default"
  value.plainText? doc

theorem ensures_readFile_default {direction : Direction} {i j : Nat}
    (given : defaultText? doc direction i j = some text) (spells : Spells text n) (spot : Spot) :
    Ensures doc (readFile spot doc.root) fun file => ∃ s, (file.steps direction)[i]? = some s ∧
      ∃ t, s.createTable = some t ∧ ∃ c, t.columns[j]? = some c ∧ IsDefault text n c := by
  obtain ⟨column, hcolumn, hdefault⟩ := Option.bind_eq_some_iff.1 given
  obtain ⟨value, hvalue, htext⟩ := Option.bind_eq_some_iff.1 hdefault
  obtain ⟨steps, hsteps, hcolumn⟩ := Option.bind_eq_some_iff.1 hcolumn
  obtain ⟨step, hstep, hcolumn⟩ := Option.bind_eq_some_iff.1 hcolumn
  obtain ⟨table, htable, hcolumn⟩ := Option.bind_eq_some_iff.1 hcolumn
  obtain ⟨columns, hcolumns, hitem⟩ := Option.bind_eq_some_iff.1 hcolumn
  refine ensures_readFile hsteps hstep (ensures_readStep htable hcolumns ?_) spot
  intro table hcolumns
  exact ensures_readTable hcolumns hitem (ensures_readColumn hvalue htext spells)

theorem entries_of_parse {content : String} {file : MigrationFile} (h : parse content = .ok file) :
    ∃ entries k, readFile ⟨.root, nestingLimit⟩ (Document.ofText content).root
      (Document.ofText content) 0 = .ok (entries, k) ∧ entries.resolve = .ok file := by
  unfold parse decode run at h
  cases hread : readFile ⟨.root, nestingLimit⟩ (Document.ofText content).root
      (Document.ofText content) 0 with
  | error e =>
      rw [hread] at h
      cases h
  | ok r =>
      rw [hread] at h
      cases hmalformation : (Document.ofText content).malformation with
      | some m =>
          simp only [hmalformation] at h
          cases h
      | none =>
          simp only [hmalformation] at h
          have h : r.1.resolve.mapError ParseFault.step = .ok file := h
          cases hresolve : r.1.resolve with
          | error e =>
              rw [hresolve] at h
              cases h
          | ok found =>
              rw [hresolve] at h
              cases h
              exact ⟨r.1, r.2, rfl, hresolve⟩

theorem exists_getElem?_of_forall₂ {α β : Type} {R : α → β → Prop} {l : List α} {l' : List β}
    (h : List.Forall₂ R l l') {i : Nat} {a : α} (ha : l[i]? = some a) :
    ∃ b, l'[i]? = some b ∧ R a b := by
  obtain ⟨hi, rfl⟩ := List.getElem?_eq_some_iff.1 ha
  exact ⟨_, List.getElem?_eq_getElem (h.length_eq ▸ hi), h.get hi _⟩

/-- A column entry with a default that is accepted becomes a clause with this default. -/
theorem clause_of_default {entries : FileEntry} {file : MigrationFile}
    (resolved : entries.resolve = .ok file) {direction : Direction} {i j : Nat} {s : StepEntry}
    {t : TableEntry} {c : ColumnEntry} {value : DefaultValue}
    (hs : (entries.steps direction)[i]? = some s) (ht : s.createTable = some t)
    (hc : t.columns[j]? = some c) (hdefault : c.default = some value) :
    (file.steps direction)[i]? = some (.createTable t) ∧
      ∃ built clause, (file.definition.change direction)[i]? = some (.createTable built) ∧
        built.name = t.name ∧ clause ∈ built.columns ∧ c.Describes t.name clause ∧
        ∀ v, .default v ∈ clause.modifiers ↔ v = value := by
  have hall : List.Forall₂ (fun s step => s.resolve = .ok step) (entries.steps direction)
      (file.steps direction) := by
    obtain ⟨hup, hdown⟩ := FileEntry.resolve_ok resolved
    cases direction
    · exact hup
    · exact hdown
  have hchange : file.definition.change direction =
      (file.steps direction).map Step.operation := by
    cases direction <;> exact Step.foldl_apply [] _
  obtain ⟨step, hstep, hresolve⟩ := exists_getElem?_of_forall₂ hall hs
  obtain ⟨hoperation, hchecked⟩ := StepEntry.resolve_ok hresolve
  obtain rfl : step = .createTable t := by
    rcases StepEntry.operation_ok hoperation with
      ⟨table, rfl, rfl⟩ | ⟨name, rfl, rfl⟩ | ⟨sql, rfl, rfl⟩
    · cases ht
      rfl
    · cases ht
    · cases ht
  have hcheck := hchecked t rfl c (List.mem_of_getElem? hc)
  obtain ⟨introduction, hi⟩ : ∃ introduction, c.introduction? = some introduction := by
    cases hi : c.introduction? with
    | some introduction => exact ⟨introduction, rfl⟩
    | none =>
        rw [ColumnEntry.eq_of_check hcheck (ColumnEntry.introduction?_eq_none.1 hi)] at hdefault
        cases hdefault
  have hdescribes := ColumnEntry.describes_of_check hcheck hi t.name
  refine ⟨hstep, _, _, by rw [hchange, List.getElem?_map, hstep]; rfl, ?_, ?_, hdescribes, ?_⟩
  · rw [Builder.build_eq]
  · rw [Builder.build_eq]
    refine List.mem_flatMap.2 ⟨c.call, List.mem_map_of_mem (List.mem_of_getElem? hc), ?_⟩
    rw [ColumnEntry.call, hi]
    exact List.mem_singleton_self _
  · intro v
    rw [Clause.default_mem_iff hdescribes.single, hdescribes.default, hdefault, Option.some_or,
      Option.some_inj, eq_comm]

/-- In a file that is accepted, a default that spells an integer is that integer if it has 64
bits with its sign. With 64 bits without one, or with more than 128, it is the nearest number
with a fraction, or a text if there is none; and between them a file is not accepted. -/
theorem spelled_default {content : String} {file : MigrationFile}
    (parsed : parse content = .ok file) {direction : Direction} {i j : Nat} {text : String}
    {n : Int} (given : defaultText? (.ofText content) direction i j = some text)
    (spells : Spells text n) :
    ∃ table c built clause value, (file.steps direction)[i]? = some (.createTable table) ∧
      table.columns[j]? = some c ∧
      (file.definition.change direction)[i]? = some (.createTable built) ∧
      built.name = table.name ∧ clause ∈ built.columns ∧ c.Describes table.name clause ∧
      (∀ v, .default v ∈ clause.modifiers ↔ v = value) ∧
      integerDefault? text n = some value ∧
      (Text.int64Min ≤ n → n ≤ Text.int64Max →
        (Modifier.default value).sql = "DEFAULT " ++ toString n) := by
  obtain ⟨entries, k, hread, hresolve⟩ := entries_of_parse parsed
  obtain ⟨s, hs, t, ht, c, hc, value, hdefault, hvalue⟩ :=
    ensures_readFile_default given spells _ _ _ _ hread
  obtain ⟨hstep, built, clause, hbuilt, hname, hclause, hdescribes, hmodifiers⟩ :=
    clause_of_default hresolve hs ht hc hdefault
  refine ⟨t, c, built, clause, value, hstep, hc, hbuilt, hname, hclause, hdescribes, hmodifiers,
    hvalue, fun hlo hhi => ?_⟩
  unfold integerDefault? at hvalue
  rw [if_pos ⟨hlo, hhi⟩] at hvalue
  cases hvalue
  rfl

/-- A file with the least integer of 64 bits as a default, and the greatest one without a
sign. -/
def gauges : String :=
  "up:\n" ++
  "- create_table:\n" ++
  "    name: gauges\n" ++
  "    columns:\n" ++
  "    - \x7bname: bottom, type: big_integer, default: -9223372036854775808\x7d\n" ++
  "    - \x7bname: top, type: decimal, precision: 20, scale: 0, default: 18446744073709551615\x7d\n"

/-- What the file says. -/
def gaugesFile : MigrationFile where
  description := none
  up :=
    [.createTable
      { name := "gauges"
        columns :=
          [{ name := some "bottom", type := .bigInteger
             default := some (.integer (-9223372036854775808)) },
           { name := some "top", type := .decimal, precision := some 20, scale := some 0
             default := some (.float (.ofInt 18446744073709551615)) }] }]
  down := []

theorem gauges_read : parse gauges = .ok gaugesFile ∧
    defaultText? (.ofText gauges) .up 0 0 = some "-9223372036854775808" ∧
    defaultText? (.ofText gauges) .up 0 1 = some "18446744073709551615" := by
  have hread : ((parse gauges).toOption, defaultText? (.ofText gauges) .up 0 0,
      defaultText? (.ofText gauges) .up 0 1) =
        (some gaugesFile, some "-9223372036854775808", some "18446744073709551615") := by
    decide +kernel
  obtain ⟨hparse, hdefaults⟩ := Prod.mk.inj hread
  exact ⟨eq_ok_of_toOption hparse, Prod.mk.inj hdefaults⟩

theorem spelled_default_of_gauges :
    parse gauges = .ok gaugesFile ∧
      defaultText? (.ofText gauges) .up 0 0 = some "-9223372036854775808" ∧
      Spells "-9223372036854775808" (-9223372036854775808) ∧
      ∃ (c : ColumnEntry) (clause : Clause) (value : DefaultValue),
        c.Describes "gauges" clause ∧ c.name = some "bottom" ∧
        (∀ v, .default v ∈ clause.modifiers ↔ v = value) ∧
        (Modifier.default value).sql = "DEFAULT -9223372036854775808" := by
  obtain ⟨hparse, hbottom, _⟩ := gauges_read
  have spells : Spells "-9223372036854775808" (-9223372036854775808) :=
    ⟨9223372036854775808, .inr ⟨by decide, rfl⟩⟩
  obtain ⟨table, c, built, clause, value, htable, hc, _, _, _, hdescribes, hmodifiers, _, hsql⟩ :=
    spelled_default hparse hbottom spells
  cases htable
  cases hc
  exact ⟨hparse, hbottom, spells, _, clause, value, hdescribes, rfl, hmodifiers,
    hsql (by decide) (by decide)⟩

/-- The greatest integer of 64 bits without a sign is accepted, and another number stands in the
statement. -/
theorem default_replaced :
    parse gauges = .ok gaugesFile ∧
      defaultText? (.ofText gauges) .up 0 1 = some "18446744073709551615" ∧
      Spells "18446744073709551615" 18446744073709551615 ∧
      gaugesFile.definition.up.compile =
        .ok ["CREATE TABLE IF NOT EXISTS gauges (bottom BIGINT DEFAULT -9223372036854775808, " ++
          "top DECIMAL(20, 0) DEFAULT 18446744073709552000)"] := by
  obtain ⟨hparse, _, htop⟩ := gauges_read
  exact ⟨hparse, htop, ⟨18446744073709551615, .inl ⟨by decide, rfl⟩⟩, by decide +kernel⟩

end MigrationFile

end SchemaLedger
