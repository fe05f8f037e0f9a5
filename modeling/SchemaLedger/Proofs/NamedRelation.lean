import SchemaLedger.Proofs.SchemaDemands

/-!
# The relation that a name stands for

A statement names a relation by its name within a schema, with the schema in front of it or,
if that is `main`, by itself. Such names are taken apart in three ways: the check parts them
at the first dot, the splitting at the last, and the set-up asks whether there is any. A name
that passes the check has no more than one dot, and then all three speak of the one relation
that the name stands for.
-/

namespace SchemaLedger

namespace Sql

/-- A name within a schema. -/
structure Relation where
  schema : String
  name : String
  isSchema : isIdentifier schema = true
  isName : isIdentifier name = true
  deriving DecidableEq

namespace Relation

/-- The name that says all. -/
def fullName (r : Relation) : String := r.schema ++ "." ++ r.name

/-- What a relation can be called in a statement. -/
inductive NamedBy (r : Relation) : String → Prop
  | bare (inMain : r.schema = mainSchema) : r.NamedBy r.name
  | full : r.NamedBy r.fullName

/-- The sequence that numbers the rows of a ledger. -/
def sequence (r : Relation) : Relation where
  schema := r.schema
  name := Ledger.sequenceName r.name
  isSchema := r.isSchema
  isName := isIdentifier_append r.isName (by decide)

variable {r q : Relation} {t : String}

theorem notMem_of_isIdentifier {part : String} (h : isIdentifier part = true) :
    '.' ∉ part.toList :=
  notMem_of_isIdentifierChars h (by decide)

theorem toList_fullName (r : Relation) :
    r.fullName.toList = r.schema.toList ++ '.' :: r.name.toList := by
  simp [fullName]

theorem mem_fullName (r : Relation) : '.' ∈ r.fullName.toList := by
  rw [toList_fullName]
  exact List.mem_append_right _ List.mem_cons_self

namespace NamedBy

theorem isQualifiedName (named : r.NamedBy t) : isQualifiedName t = true := by
  refine isQualifiedName_of_qualified ?_
  cases named with
  | bare => exact .inl r.isName
  | full => exact .inr ⟨r.schema, r.name, rfl, r.isSchema, r.isName⟩

theorem split (named : r.NamedBy t) : splitQualified t = (r.schema, r.name) := by
  cases named with
  | bare inMain => rw [splitQualified_of_isIdentifierChars r.isName, inMain]
  | full =>
      rw [splitQualified_of_append r.toList_fullName r.isName, String.ofList_toList,
        String.ofList_toList]

theorem unique (named : r.NamedBy t) (named' : q.NamedBy t) : r = q := by
  obtain ⟨hschema, hname⟩ := Prod.mk.inj (named.split.symm.trans named'.split)
  cases r
  cases q
  cases hschema
  cases hname
  rfl

/-- The dot tells the two sorts of names apart. -/
theorem parts (named : r.NamedBy t) :
    if '.' ∈ t.toList then t = r.schema ++ "." ++ r.name
    else r.schema = mainSchema ∧ r.name = t := by
  cases named with
  | bare inMain =>
      rw [if_neg (notMem_of_isIdentifier r.isName)]
      exact ⟨inMain, rfl⟩
  | full =>
      rw [if_pos r.mem_fullName]
      rfl

/-- Only the last part of a name grows, so the sequence is in the same schema. -/
theorem sequence (named : r.NamedBy t) : r.sequence.NamedBy (Ledger.sequenceName t) := by
  cases named with
  | bare inMain => exact .bare inMain
  | full =>
      have hfull : Ledger.sequenceName r.fullName = r.sequence.fullName := String.append_assoc
      rw [hfull]
      exact .full

end NamedBy

theorem isIdentifier_mainSchema : isIdentifier mainSchema = true := by decide

theorem exists_namedBy (valid : isQualifiedName t = true) : ∃ r : Relation, r.NamedBy t := by
  rcases isQualifiedName_iff.1 valid with h | ⟨schema, name, rfl, hschema, hname⟩
  · exact ⟨⟨mainSchema, t, isIdentifier_mainSchema, h⟩, .bare rfl⟩
  · exact ⟨⟨schema, name, hschema, hname⟩, .full⟩

end Relation

/-! ## Names in the script of the set-up -/

theorem Literal.encode_of_notMem {s : List Char} (h : '\'' ∉ s) : encode s = s := by
  induction s with
  | nil => rfl
  | cons c rest ih =>
      rw [List.mem_cons, not_or] at h
      rw [encode, if_neg (Ne.symm h.1), ih h.2]

end Sql

/-- The rows of the table are numbered by the sequence that the script makes. -/
theorem Ledger.setupScript_draws {table : String} (valid : Sql.isQualifiedName table = true) :
    ∃ front behind, setupScript table =
      front ++ ("nextval(" ++ Sql.Literal.quote (sequenceName table) ++ behind) := by
  have hquote : '\'' ∉ (sequenceName table).toList := by
    rw [sequenceName, String.toList_append, List.mem_append]
    rintro (hm | hm)
    · exact Sql.notMem_of_isQualifiedName valid (by decide) (by decide) hm
    · exact absurd hm (Text.notMem_toList_ofList (by decide))
  have hliteral : Sql.Literal.quote (sequenceName table) = "'" ++ sequenceName table ++ "'" := by
    rw [Sql.Literal.quote, Sql.Literal.escape, Sql.Literal.encode_of_notMem hquote,
      String.ofList_toList]
  have hdefault : "                 id             INTEGER PRIMARY KEY DEFAULT nextval('" =
      "                 id             INTEGER PRIMARY KEY DEFAULT " ++ ("nextval(" ++ "'") := by
    decide
  have hclose : "'),\n" = "'" ++ "),\n" := by decide
  refine ⟨"CREATE SEQUENCE IF NOT EXISTS " ++ sequenceName table ++ ";\n" ++
    "             CREATE TABLE IF NOT EXISTS " ++ table ++ " (\n" ++
    "                 id             INTEGER PRIMARY KEY DEFAULT ", "),\n" ++
    "                 name           VARCHAR NOT NULL UNIQUE,\n" ++
    "                 batch          INTEGER NOT NULL,\n" ++
    "                 migration_time TIMESTAMP NOT NULL DEFAULT current_timestamp\n" ++
    "             );", ?_⟩
  delta setupScript
  rw [hliteral, hdefault, hclose]
  simp only [String.append_assoc]

end SchemaLedger
