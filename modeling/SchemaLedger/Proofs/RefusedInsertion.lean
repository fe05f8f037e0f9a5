import Mathlib.Data.List.Infix
import SchemaLedger.Proofs.BlockTrace
import SchemaLedger.Proofs.StoreReadings

/-!
# What a refused insertion is taken for

A record is added once the ledger has been found to hold none of its name. If the insertion
is refused all the same, somebody else may have been faster, or something quite different may
have gone wrong. Which of the two is read off the wording of the error, and that wording ends
with the statement. So the marks that are looked for may come from the engine, but also from
the name or the table that went into the statement.

The wording is cut at characters that no mark has. Then each mark lies within one piece, and
the pieces are fixed words, the text of the engine, the table, the literal of the name and a
number, `Ledger.infix_message_iff`.
-/

namespace SchemaLedger

/-! ## Marks within pieces of a text -/

namespace Text

theorem isSome_after?_iff {p s : List Char} : (after? p s).isSome = true ↔ p <+: s := by
  constructor
  · intro h
    obtain ⟨rest, hrest⟩ := Option.isSome_iff_exists.1 h
    exact ⟨rest, (eq_append_of_after? hrest).symm⟩
  · rintro ⟨rest, rfl⟩
    rw [after?_append]
    rfl

theorem isSome_cut?_iff {p s : List Char} : (cut? p s).isSome = true ↔ p <:+: s := by
  induction s with
  | nil => rw [cut?, Option.isSome_map, isSome_after?_iff, List.prefix_nil, List.infix_nil]
  | cons c rest ih =>
      rw [List.infix_cons_iff, ← isSome_after?_iff, ← ih, cut?]
      cases after? p (c :: rest) <;> simp

theorem occursIn_iff {part s : String} : occursIn part s = true ↔ part.toList <:+: s.toList :=
  isSome_cut?_iff

variable {m a b s : List Char} {c : Char}

/-- A mark does not reach across a character that it does not have. -/
theorem infix_append_cons_iff (h : c ∉ m) : m <:+: a ++ c :: b ↔ m <:+: a ∨ m <:+: b := by
  constructor
  · intro hm
    rcases List.infix_append_iff.1 hm with hm | hm | ⟨m₁, m₂, rfl, h₁, h₂⟩
    · exact .inl hm
    · rcases List.infix_cons_iff.1 hm with hm | hm
      · rcases List.prefix_cons_iff.1 hm with rfl | ⟨t, rfl, _⟩
        · exact .inl List.nil_infix
        · exact absurd List.mem_cons_self h
      · exact .inr hm
    · rcases List.prefix_cons_iff.1 h₂ with rfl | ⟨t, rfl, _⟩
      · rw [List.append_nil]
        exact .inl h₁.isInfix
      · exact absurd (List.mem_append_right m₁ List.mem_cons_self) h
  · rintro (hm | hm)
    · exact hm.trans (List.prefix_append a (c :: b)).isInfix
    · exact hm.trans ((List.suffix_cons c b).trans (List.suffix_append a (c :: b))).isInfix

/-- A mark does not begin in front of its first character nor end behind its last one. -/
theorem infix_between_iff (hm : m ≠ []) (first : m.head? ∉ a.map some)
    (last : m.getLast? ∉ b.map some) : m <:+: a ++ (s ++ b) ↔ m <:+: s := by
  constructor
  · intro h
    have hs : m <:+: s ++ b := by
      rcases List.infix_append_iff.1 h with h | h | ⟨m₁, m₂, rfl, h₁, h₂⟩
      · have hhead := List.mem_map_of_mem (f := some) (h.subset (List.head_mem hm))
        exact absurd (List.head?_eq_some_head hm ▸ hhead) first
      · exact h
      · cases m₁ with
        | nil => exact h₂.isInfix
        | cons d m₁ => exact absurd (List.mem_map_of_mem (h₁.subset List.mem_cons_self)) first
    rcases List.infix_append_iff.1 hs with h | h | ⟨m₁, m₂, rfl, h₁, h₂⟩
    · exact h
    · have hlast := List.mem_map_of_mem (f := some) (h.subset (List.getLast_mem hm))
      exact absurd (List.getLast?_eq_some_getLast hm ▸ hlast) last
    · rcases m₂.eq_nil_or_concat with rfl | ⟨m₂, d, rfl⟩
      · rw [List.append_nil]
        exact h₁.isInfix
      · have hlast : some d ∈ b.map some := List.mem_map_of_mem (h₂.subset (by simp))
        exact absurd hlast (by simpa using last)
  · exact fun h => h.trans (List.infix_append' a s b)

theorem prefix_encode_iff (h : '\'' ∉ m) : m <+: Sql.Literal.encode s ↔ m <+: s := by
  induction s generalizing m with
  | nil => rfl
  | cons c s ih =>
      cases m with
      | nil => simp
      | cons d m =>
          rw [List.mem_cons, not_or] at h
          by_cases hc : c = '\''
          · subst hc
            simp [Sql.Literal.encode, Ne.symm h.1]
          · rw [Sql.Literal.encode, if_neg hc, List.cons_prefix_cons, List.cons_prefix_cons,
              ih h.2]

/-- Doubled quotes neither make nor hide a mark without quotes. -/
theorem infix_encode_iff (h : '\'' ∉ m) : m <:+: Sql.Literal.encode s ↔ m <:+: s := by
  induction s with
  | nil => rfl
  | cons c s ih =>
      by_cases hc : c = '\''
      · subst hc
        have hquote (s : List Char) : m <:+: '\'' :: s ↔ m <:+: [] ∨ m <:+: s :=
          infix_append_cons_iff (a := []) h
        rw [Sql.Literal.encode, if_pos rfl, hquote, hquote, hquote, ih]
        tauto
      · have hcons := prefix_encode_iff (s := c :: s) h
        rw [Sql.Literal.encode, if_neg hc] at hcons ⊢
        rw [List.infix_cons_iff, List.infix_cons_iff, hcons, ih]

end Text

/-! ## The wording of a refused insertion -/

namespace Ledger

/-- The texts that are looked for. -/
def marks : List (List Char) := ["Duplicate key".toList, "unique constraint".toList]

/-- The text has one of the marks. -/
def Tells (text : String) : Prop := ∃ m ∈ marks, m <:+: text.toList

instance (text : String) : Decidable (Tells text) :=
  inferInstanceAs (Decidable (∃ m ∈ marks, m <:+: text.toList))

theorem tellsOfDuplicate_iff {text : String} : tellsOfDuplicate text = true ↔ Tells text := by
  simp [tellsOfDuplicate, Tells, marks, Text.occursIn_iff]

/-- The wording, cut at the colons, at the bracket and at the quotes. -/
theorem toList_message {table : String} {name : Name} {batch : Int} {text : String} :
    (Engine.statementError (insertStatement table name batch) text).message.toList =
      "[D002] SQL execution failed".toList ++ ':' :: ([' '] ++ (text.toList ++ []) ++
        ':' :: (" INSERT INTO ".toList ++ (table.toList ++ [' ']) ++
          '(' :: ("name, batch) VALUES (".toList ++ '\'' ::
            (Sql.Literal.encode name.text.toList ++ '\'' ::
              (", ".toList ++ (toString batch).toList ++ [')'] ++ ([] ++ [])))))) := by
  have hfront : "[D002] SQL execution failed: ".toList =
      "[D002] SQL execution failed".toList ++ [':', ' '] := by decide
  have hvalues : " (name, batch) VALUES (".toList =
      ' ' :: '(' :: "name, batch) VALUES (".toList := by decide
  have hseams : ": ".toList = [':', ' '] ∧ "'".toList = ['\''] ∧ ")".toList = [')'] := by decide
  have hinsert : " INSERT INTO ".toList = ' ' :: "INSERT INTO ".toList := by decide
  unfold Engine.statementError DatabaseError.message
  simp only [String.toList_append]
  unfold insertStatement Sql.Literal.quote Sql.Literal.escape
  simp only [String.toList_append, String.toList_ofList]
  rw [hfront, hvalues]
  simp only [hseams, hinsert, List.append_assoc, List.cons_append, List.nil_append,
    List.append_nil]

/-- A mark in the wording of the error is in the text of the engine, in the table or in the
name. -/
theorem infix_message_iff {table : String} {name : Name} {batch : Int} {text : String}
    {m : List Char} (h : m ∈ marks) :
    m <:+: (Engine.statementError (insertStatement table name batch) text).message.toList ↔
      m <:+: text.toList ∨ m <:+: table.toList ∨ m <:+: name.text.toList := by
  have seams : ∀ m ∈ marks, ':' ∉ m ∧ '(' ∉ m ∧ '\'' ∉ m := by decide
  have words : ∀ m ∈ marks, ¬ m <:+: "[D002] SQL execution failed".toList ∧
      ¬ m <:+: "name, batch) VALUES (".toList := by decide
  have ends : ∀ m ∈ marks, m ≠ [] ∧ m.head? ∉ [' '].map some ∧ m.getLast? ∉ [' '].map some ∧
      m.head? ∉ " INSERT INTO ".toList.map some ∧ m.head? ∉ ", )-".toList.map some ∧
      m.head?.any Char.isDigit = false := by decide
  obtain ⟨hcolon, hparen, hquote⟩ := seams m h
  obtain ⟨hm, hfirst, hlast, hinsert, hrest, hdigit⟩ := ends m h
  have hnumber : m.head? ∉ (", ".toList ++ (toString batch).toList ++ [')']).map some := by
    intro hmem
    obtain ⟨c, hc, hhead⟩ := List.mem_map.1 hmem
    rw [← hhead] at hrest hdigit
    rw [List.mem_append, List.mem_append] at hc
    rcases hc with (hc | hc) | hc
    · exact hrest (List.mem_map_of_mem (List.mem_append_left _ hc))
    · rcases Text.mem_toList_toString hc with rfl | hc
      · exact hrest (by decide)
      · exact absurd hc (Bool.eq_false_iff.1 hdigit)
    · rw [List.mem_singleton.1 hc] at hrest
      exact hrest (by decide)
  rw [toList_message, Text.infix_append_cons_iff hcolon, Text.infix_append_cons_iff hcolon,
    Text.infix_append_cons_iff hparen, Text.infix_append_cons_iff hquote,
    Text.infix_append_cons_iff hquote, Text.infix_between_iff hm hfirst List.not_mem_nil,
    Text.infix_between_iff hm hinsert hlast, Text.infix_between_iff hm hnumber List.not_mem_nil,
    Text.infix_encode_iff hquote, List.infix_nil]
  simp only [words m h, hm, false_or, or_false]

theorem tellsOfDuplicate_message_iff {table : String} {name : Name} {batch : Int}
    {text : String} :
    tellsOfDuplicate
        (Engine.statementError (insertStatement table name batch) text).message = true ↔
      Tells text ∨ Tells table ∨ Tells name.text := by
  rw [tellsOfDuplicate_iff, Tells, Tells, Tells, Tells]
  constructor
  · rintro ⟨m, hm, h⟩
    rcases (infix_message_iff hm).1 h with h | h | h
    · exact .inl ⟨m, hm, h⟩
    · exact .inr (.inl ⟨m, hm, h⟩)
    · exact .inr (.inr ⟨m, hm, h⟩)
  · rintro (⟨m, hm, h⟩ | ⟨m, hm, h⟩ | ⟨m, hm, h⟩)
    · exact ⟨m, hm, (infix_message_iff hm).2 (.inl h)⟩
    · exact ⟨m, hm, (infix_message_iff hm).2 (.inr (.inl h))⟩
    · exact ⟨m, hm, (infix_message_iff hm).2 (.inr (.inr h))⟩

/-! ## Records that are not added -/

/-- The engine finds no record of the name, and then refuses the insertion with a text. -/
def InsertionRefused {σ : Type} (engine : Engine σ) (table : String) (name : Name) (batch : Int)
    (s : σ) (text : String) : Prop :=
  ∃ s', engine.database.reply (.queryCount (namedQuery table name)) s = (.ok 0, s') ∧
    (engine.execute (insertStatement table name batch) s').1 = .error text

variable {σ : Type} {engine : Engine σ} {table : String} {name : Name} {batch : Int} {s : σ}
  {text : String}

theorem InsertionRefused.result (h : InsertionRefused engine table name batch s text) :
    ((record table name batch).hold engine.database s).result =
      .error (insertFailure name
        (Engine.statementError (insertStatement table name batch) text)) := by
  obtain ⟨s', hcount, hinsert⟩ := h
  have hreply : (engine.database.reply (.execute (insertStatement table name batch)) s').1 =
      .error (Engine.statementError (insertStatement table name batch) text) := by
    show (engine.execute _ s').1.mapError _ = _
    rw [hinsert]
    rfl
  have answers := (record table name batch).hold_answers engine.database s
  have admits := record_admits ((record table name batch).hold_admits engine.database s)
  generalize ((record table name batch).hold engine.database s).exchanges = es at answers admits
  rcases admits with ⟨_, hchanged⟩ | ⟨failure, hresult, hunchanged⟩
  · cases hchanged
    obtain ⟨m, hfirst, hrest⟩ := Database.answers_cons.1 answers
    cases hcount.symm.trans hfirst
    rw [Database.answers_singleton.1 hrest] at hreply
    cases hreply
  · rw [hresult]
    cases hunchanged with
    | countRefused _ e => cases hcount.symm.trans (Database.answers_singleton.1 answers)
    | present _ found =>
        cases hcount.symm.trans (Database.answers_singleton.1 answers)
        exact absurd found (Nat.lt_irrefl 0)
    | insertRefused _ e =>
        obtain ⟨m, hfirst, hrest⟩ := Database.answers_cons.1 answers
        cases hcount.symm.trans hfirst
        rw [Database.answers_singleton.1 hrest] at hreply
        cases hreply
        rfl

theorem InsertionRefused.result_of_marks (h : InsertionRefused engine table name batch s text) :
    ((record table name batch).hold engine.database s).result =
      .error (if Tells text ∨ Tells table ∨ Tells name.text then .duplicateMigration name
        else refused (Engine.statementError (insertStatement table name batch) text)) := by
  rw [h.result, insertFailure]
  simp only [tellsOfDuplicate_message_iff]

theorem not_tells_of_isQualifiedName (h : Sql.isQualifiedName table = true) : ¬ Tells table := by
  have blank : ∀ m ∈ marks, ' ' ∈ m := by decide
  rintro ⟨m, hm, hpart⟩
  exact Sql.notMem_of_isQualifiedName h (by decide) (by decide) (hpart.subset (blank m hm))

/-- An insertion that is refused is taken for a duplicate just if a mark is in the text of the
engine, in the table or in the name, and no proper name of a table has one. So the same text
of the engine means the same for two names only if both of them have a mark or neither has. -/
theorem record_refused (h : InsertionRefused engine table name batch s text) :
    ∃ failure, ((record table name batch).hold engine.database s).result = .error failure ∧
      (failure = .duplicateMigration name ↔ Tells text ∨ Tells table ∨ Tells name.text) ∧
      (failure ≠ .duplicateMigration name → failure =
        .ledger (.database (Engine.statementError (insertStatement table name batch) text))) ∧
      (Sql.isQualifiedName table = true → ¬ Tells table) ∧
      ∀ other batch' s', InsertionRefused engine table other batch' s' text →
        ∃ failure', ((record table other batch').hold engine.database s').result =
          .error failure' ∧
          ((failure = .duplicateMigration name ↔ failure' = .duplicateMigration other) ↔
            Tells text ∨ Tells table ∨ (Tells name.text ↔ Tells other.text)) := by
  have hkind (p : Prop) [Decidable p] (name : Name) (e : DatabaseError) :
      (if p then MigrateError.duplicateMigration name else refused e) =
        .duplicateMigration name ↔ p := by
    split <;> simp [refused, *]
  refine ⟨_, h.result_of_marks, hkind _ name _, ?_, not_tells_of_isQualifiedName, ?_⟩
  · intro hne
    rw [if_neg (mt (hkind _ name _).2 hne)]
    rfl
  · intro other batch' s' h'
    refine ⟨_, h'.result_of_marks, ?_⟩
    rw [hkind, hkind]
    tauto

/-- What an engine says when there is no room left. -/
def noSpace : String := "IO Error: Could not write file: No space left on device"

/-- An engine that has no rows and no room for any. -/
def fullDisk : Engine Unit where
  execute _ s := (.error noSpace, s)
  batch _ s := (.error noSpace, s)
  query _ s := (.ok [[.integer 0]], s)

theorem insertionRefused_fullDisk (name : Name) :
    InsertionRefused fullDisk "tw_migrations" name 1 () noSpace :=
  ⟨(), rfl, rfl⟩

/-- A name with a mark. -/
def markedName : Name := ⟨"2024_01_05_Duplicate key cleanup", by decide⟩

/-- A name without a mark. -/
def plainName : Name := ⟨"2024_01_06_cleanup", by decide⟩

theorem record_refused_of_fullDisk :
    InsertionRefused fullDisk "tw_migrations" plainName 1 () noSpace ∧
      InsertionRefused fullDisk "tw_migrations" markedName 1 () noSpace ∧
      ∃ failure failure',
        ((record "tw_migrations" plainName 1).hold fullDisk.database ()).result = .error failure ∧
        ((record "tw_migrations" markedName 1).hold fullDisk.database ()).result =
          .error failure' ∧
        failure = .ledger (.database
          (Engine.statementError (insertStatement "tw_migrations" plainName 1) noSpace)) ∧
        failure' = .duplicateMigration markedName := by
  have plain := insertionRefused_fullDisk plainName
  have marked := insertionRefused_fullDisk markedName
  have hplain : ¬ (Tells noSpace ∨ Tells "tw_migrations" ∨ Tells plainName.text) := by decide
  obtain ⟨failure, hresult, hkind, hledger, _⟩ := record_refused plain
  obtain ⟨failure', hresult', hkind', _⟩ := record_refused marked
  refine ⟨plain, marked, failure, failure', hresult, hresult', ?_, ?_⟩
  · exact hledger (mt hkind.1 hplain)
  · exact hkind'.2 (.inr (.inr (by decide)))

/-- The engine refuses both insertions with one text, which has no mark. -/
theorem refusal_depends_on_name :
    InsertionRefused fullDisk "tw_migrations" markedName 1 () noSpace ∧
      InsertionRefused fullDisk "tw_migrations" plainName 1 () noSpace ∧
      ¬ Tells noSpace ∧
      ((record "tw_migrations" markedName 1).hold fullDisk.database ()).result =
        .error (.duplicateMigration markedName) ∧
      ((record "tw_migrations" plainName 1).hold fullDisk.database ()).result =
        .error (.ledger (.database
          (Engine.statementError (insertStatement "tw_migrations" plainName 1) noSpace))) := by
  have plain := insertionRefused_fullDisk plainName
  have marked := insertionRefused_fullDisk markedName
  refine ⟨marked, plain, by decide, ?_, ?_⟩
  · rw [marked.result_of_marks, if_pos (.inr (.inr (by decide)))]
  · rw [plain.result_of_marks, if_neg (by decide)]
    rfl

end Ledger

end SchemaLedger
