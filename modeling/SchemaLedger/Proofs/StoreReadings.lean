import Mathlib.Data.List.TakeWhile
import SchemaLedger.Ledger.Basic
import SchemaLedger.Proofs.Decimal
import SchemaLedger.Schema.Compile
import SchemaLedger.Store.Contents

/-!
# A store reads what a ledger writes

A ledger is kept by statements and queries in text form, and a store has to find in each of
them the table, the name and the number that went into it. This file proves that it does.
Tables are identifiers, qualified or not, and so hold none of the marks that end them in a
text. Names can hold anything; they are in literals, whose quotes are doubled, and that is
undone when they are read.
-/

namespace SchemaLedger

/-! ## Parts of texts -/

namespace Text

/-- A mark is found behind a part that does not have its first character. -/
theorem cut?_append {mark before : List Char} {m : Char} (hm : mark.head? = some m)
    (h : m ∉ before) (behind : List Char) :
    cut? mark (before ++ (mark ++ behind)) = some (before, behind) := by
  obtain ⟨rest, rfl⟩ := List.head?_eq_some_iff.1 hm
  induction before with
  | nil => rw [List.nil_append, List.cons_append, cut?, ← List.cons_append, after?_append]
  | cons c before ih =>
      rw [List.mem_cons, not_or] at h
      rw [List.cons_append, cut?, after?, if_neg h.1, ih h.2]
      rfl

theorem eq_append_of_after? {p s rest : List Char} (h : after? p s = some rest) :
    s = p ++ rest := by
  induction p generalizing s with
  | nil =>
      cases h
      rfl
  | cons c p ih =>
      cases s with
      | nil => cases h
      | cons d s =>
          rw [after?] at h
          split at h
          · next hc => rw [hc, ih h, List.cons_append]
          · cases h

theorem cut?_eq_none {mark : List Char} {m : Char} {s : List Char} (h : m ∉ s) :
    cut? (m :: mark) s = none := by
  induction s with
  | nil => rfl
  | cons c rest ih =>
      rw [List.mem_cons, not_or] at h
      rw [cut?, after?, if_neg h.1, ih h.2]
      rfl

/-! Texts that are written out are taken as the lists of their characters here, so that
nothing has to be decoded. -/

theorem notMem_toList_ofList {c : Char} {s : List Char} (h : c ∉ s) :
    c ∉ (String.ofList s).toList := by
  rwa [String.toList_ofList]

theorem toList_ofList_append {p s l : List Char} (h : p ++ s = l) :
    (String.ofList l).toList = (String.ofList p).toList ++ s := by
  rw [String.toList_ofList, String.toList_ofList, h]

theorem after?_ofList {p s : List Char} (h : after? p s = none) :
    after? (String.ofList p).toList (String.ofList s).toList = none := by
  rwa [String.toList_ofList, String.toList_ofList]

/-- A form whose beginning a text does not have is passed over. -/
theorem findSome?_skip {α : Type} {p s : List Char} {read : List Char → Option α}
    {forms : List (String × (List Char → Option α))} {rest : List Char}
    (h : ∀ rest, after? p (s ++ rest) = none) :
    ((String.ofList p, read) :: forms).findSome? (fun (start, read) =>
        (after? start.toList ((String.ofList s).toList ++ rest)).bind read) =
      forms.findSome? fun (start, read) =>
        (after? start.toList ((String.ofList s).toList ++ rest)).bind read := by
  rw [List.findSome?_cons]
  simp only [String.toList_ofList, h, Option.bind_none]

/-- A form whose beginning a text has reads what is behind. -/
theorem findSome?_found {α : Type} {start : String} {read : List Char → Option α} {a : α}
    {forms : List (String × (List Char → Option α))} {rest : List Char}
    (h : read rest = some a) :
    ((start, read) :: forms).findSome? (fun (start', read) =>
      (after? start'.toList (start.toList ++ rest)).bind read) = some a := by
  rw [List.findSome?_cons]
  simp only [after?_append, Option.bind_some, h]

theorem findSome?_taken {α : Type} {start : String} {take : List Char → α}
    {forms : List (String × (List Char → Option α))} {rest : List Char} :
    ((start, fun s => some (take s)) :: forms).findSome? (fun (start', read) =>
      (after? start'.toList (start.toList ++ rest)).bind read) = some (take rest) :=
  findSome?_found rfl

/-- White space in front of a text that begins and ends with other characters. -/
theorem trimChars_append {blanks s : List Char} {first last : Char}
    (hblanks : ∀ c ∈ blanks, isBlank c = true) (hfirst : s.head? = some first)
    (hlast : s.getLast? = some last) (hf : isBlank first = false) (hl : isBlank last = false) :
    trimChars (blanks ++ s) = s := by
  have hfront : (blanks ++ s).dropWhile isBlank = s := by
    obtain ⟨rest, rfl⟩ := List.head?_eq_some_iff.1 hfirst
    rw [List.dropWhile_append_of_pos hblanks, List.dropWhile_cons_of_neg (by simp [hf])]
  have hback : s.reverse.dropWhile isBlank = s.reverse := by
    rw [List.getLast?_eq_head?_reverse] at hlast
    obtain ⟨rest, hrest⟩ := List.head?_eq_some_iff.1 hlast
    rw [hrest, List.dropWhile_cons_of_neg (by simp [hl])]
  rw [trimChars, hfront, hback, List.reverse_reverse]

end Text

namespace Sql

/-- What `encode` writes between quotes is read back, whatever follows the second one. -/
theorem Literal.take?_encode (s : List Char) {rest : List Char} (h : rest.head? ≠ some '\'') :
    take? (encode s ++ '\'' :: rest) = some (s, rest) := by
  induction s with
  | nil =>
      rw [encode, List.nil_append]
      unfold take?
      split
      · next heq => cases heq
      · next heq => cases heq; exact absurd rfl h
      · next heq => cases heq; rfl
  | cons c s ih =>
      by_cases hc : c = '\''
      · subst hc
        rw [encode, if_pos rfl]
        simp [take?, ih]
      · rw [encode, if_neg hc]
        simp [take?, ih, hc]

theorem Literal.toList_quote (s : String) :
    (quote s).toList = '\'' :: (encode s.toList ++ ['\'']) := by
  have hquote : "'".toList = ['\''] := String.toList_ofList
  rw [quote, String.toList_append, String.toList_append, hquote, escape, String.toList_ofList]
  rfl

/-! ## Names of tables -/

theorem isIdentifierRest_of_mem {s : List Char} (h : isIdentifierChars s = true) {c : Char}
    (hc : c ∈ s) : isIdentifierRest c = true := by
  cases s with
  | nil => cases hc
  | cons d rest =>
      rw [isIdentifierChars, Bool.and_eq_true] at h
      rcases List.mem_cons.1 hc with rfl | hc
      · have hstart := h.1
        unfold isIdentifierStart at hstart
        unfold isIdentifierRest Char.isAlphanum
        rcases Bool.or_eq_true_iff.1 hstart with hs | hs <;> simp [hs]
      · exact List.all_eq_true.1 h.2 c hc

theorem notMem_of_isIdentifierChars {s : List Char} (h : isIdentifierChars s = true) {c : Char}
    (hc : isIdentifierRest c = false) : c ∉ s := by
  intro hmem
  rw [isIdentifierRest_of_mem h hmem] at hc
  cases hc

/-- The name of a table is an identifier, or two of them joined by a dot. -/
theorem isQualifiedName_cases {name : String} (h : isQualifiedName name = true) :
    isIdentifierChars name.toList = true ∨
      ∃ schema table, name.toList = schema ++ '.' :: table ∧ isIdentifierChars schema = true ∧
        isIdentifierChars table = true := by
  unfold isQualifiedName isQualifiedChars at h
  split at h
  · exact .inl h
  · next c table hdrop =>
      rw [Bool.and_eq_true] at h
      refine .inr ⟨_, table, ?_, h⟩
      have hc : c = '.' := by
        have hhead := List.head?_dropWhile_not (· != '.') name.toList
        rw [hdrop] at hhead
        simpa using hhead
      rw [← hc, ← hdrop, hc, List.takeWhile_append_dropWhile]

theorem notMem_of_isQualifiedName {name : String} (h : isQualifiedName name = true) {c : Char}
    (hc : isIdentifierRest c = false) (hdot : c ≠ '.') : c ∉ name.toList := by
  rcases isQualifiedName_cases h with h | ⟨schema, table, hname, hs, ht⟩
  · exact notMem_of_isIdentifierChars h hc
  · rw [hname]
    intro hmem
    rcases List.mem_append.1 hmem with hmem | hmem
    · exact notMem_of_isIdentifierChars hs hc hmem
    · rcases List.mem_cons.1 hmem with hmem | hmem
      · exact hdot hmem
      · exact notMem_of_isIdentifierChars ht hc hmem

theorem splitQualified_of_isIdentifierChars {name : String}
    (h : isIdentifierChars name.toList = true) : splitQualified name = (mainSchema, name) := by
  have hdot : ∀ c ∈ name.toList.reverse, (c != '.') = true := by
    intro c hc
    rw [List.mem_reverse] at hc
    rw [bne_iff_ne]
    rintro rfl
    exact notMem_of_isIdentifierChars h (by decide) hc
  unfold splitQualified
  simp only [List.dropWhile_eq_nil_iff.2 hdot]

theorem splitQualified_of_append {name : String} {schema table : List Char}
    (h : name.toList = schema ++ '.' :: table) (ht : isIdentifierChars table = true) :
    splitQualified name = (String.ofList schema, String.ofList table) := by
  have hdot : ∀ c ∈ table.reverse, (c != '.') = true := by
    intro c hc
    rw [List.mem_reverse] at hc
    rw [bne_iff_ne]
    rintro rfl
    exact notMem_of_isIdentifierChars ht (by decide) hc
  unfold splitQualified
  simp only [h, List.reverse_append, List.reverse_cons, List.append_assoc]
  rw [List.dropWhile_append_of_pos hdot, List.takeWhile_append_of_pos hdot]
  simp

end Sql

/-! ## Statements -/

namespace Store

theorem Statement.ofText_of_toList {sql start : String} {rest : List Char}
    (h : sql.toList = start.toList ++ rest)
    (hb : Text.after? start.toList "BEGIN TRANSACTION".toList = none)
    (hc : Text.after? start.toList "COMMIT".toList = none)
    (hr : Text.after? start.toList "ROLLBACK".toList = none) :
    ofText sql = (forms.findSome? fun (start', read) =>
      (Text.after? start'.toList (start.toList ++ rest)).bind read).getD .other := by
  have hne {t : String} (ht : Text.after? start.toList t.toList = none) : sql ≠ t := by
    rintro rfl
    rw [h, Text.after?_append] at ht
    cases ht
  rw [ofText, if_neg (hne hb), if_neg (hne hc), if_neg (hne hr), h]

section

variable {table : String} (h : Sql.isQualifiedName table = true)

include h

theorem Statement.insert?_read (name : Name) {batch : Int} (lo : Text.int64Min ≤ batch)
    (hi : batch ≤ Text.int64Max) :
    insert? (table.toList ++ (" (name, batch) VALUES ('".toList ++
      (Sql.Literal.encode name.text.toList ++ '\'' :: (", ".toList ++
        ((toString batch).toList ++ (")".toList ++ [])))))) =
      some (.insert table name.text batch) := by
  have hclose : ')' ∉ (toString batch).toList := by
    intro hmem
    rcases Text.mem_toList_toString hmem with hc | hc <;> exact absurd hc (by decide)
  have hspace := Sql.notMem_of_isQualifiedName h (c := ' ') (by decide) (by decide)
  have hnumber : Text.integer? 10 Text.int64Min Text.int64Max (toString batch).toList =
      some batch := by
    rw [Text.integer?_toString]
    simp [lo, hi]
  rw [insert?, Text.cut?_append (by simp) hspace]
  simp only [bind, Option.bind]
  rw [Sql.Literal.take?_encode _ (by simp)]
  simp only [Text.after?_append]
  rw [Text.cut?_append (by simp) hclose]
  simp only [hnumber]
  simp

theorem Statement.delete?_read (name : Name) :
    delete? (table.toList ++ (" WHERE name = '".toList ++
      (Sql.Literal.encode name.text.toList ++ ['\'']))) = some (.delete table name.text) := by
  have hspace := Sql.notMem_of_isQualifiedName h (c := ' ') (by decide) (by decide)
  rw [delete?, Text.cut?_append (by simp) hspace]
  simp only [bind, Option.bind]
  rw [Sql.Literal.take?_encode _ (by simp)]
  simp

theorem Statement.ofText_insert (name : Name) {batch : Int} (lo : Text.int64Min ≤ batch)
    (hi : batch ≤ Text.int64Max) :
    ofText (Ledger.insertStatement table name batch) = .insert table name.text batch := by
  have hsql : (Ledger.insertStatement table name batch).toList = "INSERT INTO ".toList ++
      (table.toList ++ (" (name, batch) VALUES ('".toList ++
        (Sql.Literal.encode name.text.toList ++ '\'' :: (", ".toList ++
          ((toString batch).toList ++ (")".toList ++ [])))))) := by
    have hvalues : " (name, batch) VALUES ('".toList = " (name, batch) VALUES (".toList ++ ['\''] :=
      Text.toList_ofList_append rfl
    delta Ledger.insertStatement
    simp only [String.toList_append, Sql.Literal.toList_quote, hvalues, List.append_assoc,
      List.cons_append, List.nil_append, List.append_nil]
  rw [ofText_of_toList hsql (Text.after?_ofList rfl) (Text.after?_ofList rfl)
    (Text.after?_ofList rfl)]
  rw [forms, Text.findSome?_skip, Text.findSome?_skip, Text.findSome?_skip,
    Text.findSome?_skip, Text.findSome?_found (insert?_read h name lo hi),
    Option.getD_some]
  all_goals exact fun _ => rfl

theorem Statement.ofText_delete (name : Name) :
    ofText (Ledger.deleteStatement table name) = .delete table name.text := by
  have hsql : (Ledger.deleteStatement table name).toList = "DELETE FROM ".toList ++
      (table.toList ++ (" WHERE name = '".toList ++
        (Sql.Literal.encode name.text.toList ++ ['\'']))) := by
    have hname : " WHERE name = '".toList = " WHERE name = ".toList ++ ['\''] :=
      Text.toList_ofList_append rfl
    delta Ledger.deleteStatement
    simp only [String.toList_append, Sql.Literal.toList_quote, hname, List.append_assoc,
      List.cons_append, List.nil_append]
  rw [ofText_of_toList hsql (Text.after?_ofList rfl) (Text.after?_ofList rfl)
    (Text.after?_ofList rfl)]
  rw [forms, Text.findSome?_skip, Text.findSome?_skip, Text.findSome?_skip,
    Text.findSome?_skip, Text.findSome?_skip, Text.findSome?_found (delete?_read h name),
    Option.getD_some]
  all_goals exact fun _ => rfl

end

theorem Statement.ofText_createSchema (schema : String) :
    ofText (Engine.schemaStatement schema) = .createSchema schema := by
  have hsql : (Engine.schemaStatement schema).toList =
      "CREATE SCHEMA IF NOT EXISTS ".toList ++ schema.toList := by
    delta Engine.schemaStatement
    rw [String.toList_append]
  rw [ofText_of_toList hsql (Text.after?_ofList rfl) (Text.after?_ofList rfl)
    (Text.after?_ofList rfl)]
  rw [forms, Text.findSome?_taken, Option.getD_some]
  rw [String.ofList_toList]

theorem Statement.ofText_createSequence (name : String) :
    ofText (String.ofList ("CREATE SEQUENCE IF NOT EXISTS ".toList ++ name.toList)) =
      .createSequence name := by
  rw [ofText_of_toList String.toList_ofList (Text.after?_ofList rfl)
    (Text.after?_ofList rfl) (Text.after?_ofList rfl)]
  rw [forms, Text.findSome?_skip, Text.findSome?_taken, Option.getD_some]
  · rw [String.ofList_toList]
  · exact fun _ => rfl

/-- The two statements of the script, and that nothing but their ends is a semicolon. -/
theorem setupScript_parts (table : String) :
    ∃ columns, (Ledger.setupScript table).toList =
        ("CREATE SEQUENCE IF NOT EXISTS ".toList ++ (Ledger.sequenceName table).toList) ++ ';' ::
          ("\n             ".toList ++ ("CREATE TABLE IF NOT EXISTS ".toList ++
            (table.toList ++ (" (".toList ++ columns))) ++ [';']) ∧
      columns.getLast? = some ')' ∧
      ∀ c ∈ columns, c = ';' → ';' ∈ (Ledger.sequenceName table).toList := by
  have hend : ";\n".toList = ";".toList ++ "\n".toList := Text.toList_ofList_append rfl
  have hsemicolon : ";".toList = [';'] := String.toList_ofList
  have hblanks : "\n             ".toList = "\n".toList ++ "             ".toList :=
    Text.toList_ofList_append rfl
  have htable : "             CREATE TABLE IF NOT EXISTS ".toList =
      "             ".toList ++ "CREATE TABLE IF NOT EXISTS ".toList :=
    Text.toList_ofList_append rfl
  have hopen : " (\n".toList = " (".toList ++ "\n".toList := Text.toList_ofList_append rfl
  have hclose : "             );".toList = "             ".toList ++ ([')'] ++ [';']) :=
    Text.toList_ofList_append rfl
  refine ⟨"\n".toList ++
    ("                 id             INTEGER PRIMARY KEY DEFAULT nextval('".toList ++
    ((Ledger.sequenceName table).toList ++ ("'),\n".toList ++
    ("                 name           VARCHAR NOT NULL UNIQUE,\n".toList ++
    ("                 batch          INTEGER NOT NULL,\n".toList ++
    ("                 migration_time TIMESTAMP NOT NULL DEFAULT current_timestamp\n".toList ++
    ("             ".toList ++ [')']))))))), ?_, ?_, ?_⟩
  · delta Ledger.setupScript
    simp only [String.toList_append, List.append_assoc, hend, hsemicolon, hblanks, htable, hopen,
      hclose, List.cons_append, List.nil_append]
  · simp only [List.getLast?_append, List.getLast?_singleton, Option.some_or]
  · rintro c hc rfl
    simp only [List.mem_append] at hc
    rcases hc with hc | hc | hc | hc | hc | hc | hc | hc | hc
    · exact absurd hc (Text.notMem_toList_ofList (by decide))
    · exact absurd hc (Text.notMem_toList_ofList (by decide))
    · exact hc
    · exact absurd hc (Text.notMem_toList_ofList (by decide))
    · exact absurd hc (Text.notMem_toList_ofList (by decide))
    · exact absurd hc (Text.notMem_toList_ofList (by decide))
    · exact absurd hc (Text.notMem_toList_ofList (by decide))
    · exact absurd hc (Text.notMem_toList_ofList (by decide))
    · exact absurd hc (by decide)

section

variable {table : String} (h : Sql.isQualifiedName table = true)

include h

theorem notMem_sequenceName : ';' ∉ (Ledger.sequenceName table).toList := by
  rw [Ledger.sequenceName, String.toList_append, List.mem_append]
  rintro (hm | hm)
  · exact Sql.notMem_of_isQualifiedName h (by decide) (by decide) hm
  · exact absurd hm (Text.notMem_toList_ofList (by decide))

theorem Statement.ofText_createTable (columns : List Char) :
    ofText (String.ofList ("CREATE TABLE IF NOT EXISTS ".toList ++
      (table.toList ++ (" (".toList ++ columns)))) = .createTable table := by
  have hspace := Sql.notMem_of_isQualifiedName h (c := ' ') (by decide) (by decide)
  have hread : createTable? (table.toList ++ (" (".toList ++ columns)) =
      some (.createTable table) := by
    rw [createTable?, Text.cut?_append (by simp) hspace]
    simp
  rw [ofText_of_toList String.toList_ofList (Text.after?_ofList rfl)
    (Text.after?_ofList rfl) (Text.after?_ofList rfl)]
  rw [forms, Text.findSome?_skip, Text.findSome?_skip, Text.findSome?_found hread,
    Option.getD_some]
  all_goals exact fun _ => rfl

theorem Statement.ofBatch_setupScript :
    ofBatch (Ledger.setupScript table) =
      [.createSequence (Ledger.sequenceName table), .createTable table] := by
  obtain ⟨columns, hscript, hlast, hsemicolon⟩ := setupScript_parts table
  have hsequence := notMem_sequenceName h
  have htable := Sql.notMem_of_isQualifiedName h (c := ';') (by decide) (by decide)
  have hfirst : ';' ∉ "CREATE SEQUENCE IF NOT EXISTS ".toList ++
      (Ledger.sequenceName table).toList := by
    rw [List.mem_append]
    rintro (hm | hm)
    · exact absurd hm (Text.notMem_toList_ofList (by decide))
    · exact hsequence hm
  have hsecond : ';' ∉ "\n             ".toList ++ ("CREATE TABLE IF NOT EXISTS ".toList ++
      (table.toList ++ (" (".toList ++ columns))) := by
    simp only [List.mem_append]
    rintro (hm | hm | hm | hm | hm)
    · exact absurd hm (Text.notMem_toList_ofList (by decide))
    · exact absurd hm (Text.notMem_toList_ofList (by decide))
    · exact htable hm
    · exact absurd hm (Text.notMem_toList_ofList (by decide))
    · exact hsequence (hsemicolon _ hm rfl)
  have hlastFirst : ("CREATE SEQUENCE IF NOT EXISTS ".toList ++
      (Ledger.sequenceName table).toList).getLast? = some 'q' := by
    have hseq : "_id_seq".toList.getLast? = some 'q' := by simp
    rw [List.getLast?_append, Ledger.sequenceName, String.toList_append, List.getLast?_append,
      hseq]
    rfl
  have hlastSecond : ("CREATE TABLE IF NOT EXISTS ".toList ++
      (table.toList ++ (" (".toList ++ columns))).getLast? = some ')' := by
    simp only [List.getLast?_append, hlast, Option.some_or]
  have hheadFirst : ("CREATE SEQUENCE IF NOT EXISTS ".toList ++
      (Ledger.sequenceName table).toList).head? = some 'C' := by simp
  have hheadSecond : ("CREATE TABLE IF NOT EXISTS ".toList ++
      (table.toList ++ (" (".toList ++ columns))).head? = some 'C' := by simp
  have hblanks : ∀ c ∈ "\n             ".toList, Text.isBlank c = true := by
    simp [Text.isBlank]
  have htrimFirst : Text.trimChars ("CREATE SEQUENCE IF NOT EXISTS ".toList ++
      (Ledger.sequenceName table).toList) =
        "CREATE SEQUENCE IF NOT EXISTS ".toList ++ (Ledger.sequenceName table).toList := by
    rw [← List.nil_append ("CREATE SEQUENCE IF NOT EXISTS ".toList ++ _)]
    exact Text.trimChars_append (by simp) hheadFirst hlastFirst (by decide) (by decide)
  have htrimSecond : Text.trimChars ("\n             ".toList ++
      ("CREATE TABLE IF NOT EXISTS ".toList ++ (table.toList ++ (" (".toList ++ columns)))) =
        "CREATE TABLE IF NOT EXISTS ".toList ++ (table.toList ++ (" (".toList ++ columns)) :=
    Text.trimChars_append hblanks hheadSecond hlastSecond (by decide) (by decide)
  rw [ofBatch, hscript, Text.splitAt_append hfirst, Text.splitAt_append hsecond]
  simp only [Text.splitAt, List.foldr_nil, List.map_cons, List.map_nil, htrimFirst, htrimSecond]
  rw [List.filter_cons_of_pos (by simp), List.filter_cons_of_pos (by simp),
    List.filter_cons_of_neg (by simp [Text.trimChars]), List.filter_nil, List.map_cons,
    List.map_cons, List.map_nil, ofText_createTable h, ofText_createSequence]

end

/-! ## Queries -/

theorem Query.ofText_of_toList {sql : String} {chars : List Char} (h : sql.toList = chars) :
    ofText sql = (forms.findSome? fun (start, read) =>
      (Text.after? start.toList chars).bind read).getD .unknown := by
  rw [ofText, h]

theorem Query.ofText_relations (name : String) :
    ofText (Engine.relationQuery name) =
      .relations (Sql.splitQualified name).1 (Sql.splitQualified name).2 := by
  have hsql : (Engine.relationQuery name).toList =
      "SELECT COUNT(*) FROM information_schema.tables WHERE table_schema = '".toList ++
        (Sql.Literal.encode (Sql.splitQualified name).1.toList ++ '\'' ::
          (" AND table_name = '".toList ++
            (Sql.Literal.encode (Sql.splitQualified name).2.toList ++ ['\'']))) := by
    have hschema :
        "SELECT COUNT(*) FROM information_schema.tables WHERE table_schema = '".toList =
          "SELECT COUNT(*) FROM information_schema.tables WHERE table_schema = ".toList ++
            ['\''] := Text.toList_ofList_append rfl
    have htable : " AND table_name = '".toList = " AND table_name = ".toList ++ ['\''] :=
      Text.toList_ofList_append rfl
    show ("SELECT COUNT(*) FROM information_schema.tables WHERE table_schema = " ++
      Sql.Literal.quote (Sql.splitQualified name).1 ++ " AND table_name = " ++
      Sql.Literal.quote (Sql.splitQualified name).2).toList = _
    simp only [String.toList_append, Sql.Literal.toList_quote, hschema, htable, List.append_assoc,
      List.cons_append, List.nil_append]
  have hread : relations? (Sql.Literal.encode (Sql.splitQualified name).1.toList ++ '\'' ::
      (" AND table_name = '".toList ++
        (Sql.Literal.encode (Sql.splitQualified name).2.toList ++ ['\'']))) =
          some (.relations (Sql.splitQualified name).1 (Sql.splitQualified name).2) := by
    rw [relations?, Sql.Literal.take?_encode _ (by simp)]
    simp only [bind, Option.bind, Text.after?_append]
    rw [Sql.Literal.take?_encode _ (by simp)]
    simp
  rw [ofText_of_toList hsql]
  rw [forms, Text.findSome?_found hread, Option.getD_some]

section

variable {table : String} (h : Sql.isQualifiedName table = true)

include h

theorem Query.ofText_list : ofText (Ledger.listQuery table) = .rows table := by
  have hspace := Sql.notMem_of_isQualifiedName h (c := ' ') (by decide) (by decide)
  have hsql : (Ledger.listQuery table).toList =
      "SELECT id, name, batch, CAST(migration_time AS VARCHAR) FROM ".toList ++
        (table.toList ++ (" ORDER BY id".toList ++ [])) := by
    delta Ledger.listQuery
    simp only [String.toList_append, List.append_assoc, List.append_nil]
  have hread : rows? (table.toList ++ (" ORDER BY id".toList ++ [])) = some (.rows table) := by
    rw [rows?, Text.cut?_append (by simp) hspace]
    simp
  rw [ofText_of_toList hsql]
  rw [forms, Text.findSome?_skip, Text.findSome?_found hread, Option.getD_some]
  all_goals exact fun _ => rfl

theorem Query.ofText_named (name : Name) :
    ofText (Engine.countQuery (Ledger.namedQuery table name)) = .named table name.text := by
  have hspace := Sql.notMem_of_isQualifiedName h (c := ' ') (by decide) (by decide)
  have hsql : (Engine.countQuery (Ledger.namedQuery table name)).toList =
      "SELECT COUNT(*) FROM (SELECT 1 FROM ".toList ++ (table.toList ++
        (" WHERE name = '".toList ++ (Sql.Literal.encode name.text.toList ++ '\'' :: [')']))) := by
    have hcount : "SELECT COUNT(*) FROM (SELECT 1 FROM ".toList =
        "SELECT COUNT(*) FROM (".toList ++ "SELECT 1 FROM ".toList := Text.toList_ofList_append rfl
    have hname : " WHERE name = '".toList = " WHERE name = ".toList ++ ['\''] :=
      Text.toList_ofList_append rfl
    have hclose : ")".toList = [')'] := String.toList_ofList
    delta Engine.countQuery Ledger.namedQuery
    simp only [String.toList_append, Sql.Literal.toList_quote, hcount, hname, hclose,
      List.append_assoc, List.cons_append, List.nil_append]
  have hread : named? (table.toList ++ (" WHERE name = '".toList ++
      (Sql.Literal.encode name.text.toList ++ '\'' :: [')']))) =
        some (.named table name.text) := by
    rw [named?, Text.cut?_append (by simp) hspace]
    simp only [bind, Option.bind]
    rw [Sql.Literal.take?_encode _ (by simp)]
    simp
  rw [ofText_of_toList hsql]
  rw [forms, Text.findSome?_skip, Text.findSome?_skip, Text.findSome?_skip,
    Text.findSome?_found hread, Option.getD_some]
  all_goals exact fun _ => rfl

omit h in
theorem Query.ofText_nextBatch : ofText (Ledger.nextBatchQuery table) = .nextBatch table := by
  have hsql : (Ledger.nextBatchQuery table).toList =
      "SELECT COALESCE(MAX(batch), 0) + 1 FROM ".toList ++ table.toList := by
    delta Ledger.nextBatchQuery
    rw [String.toList_append]
  rw [ofText_of_toList hsql]
  rw [forms, Text.findSome?_skip, Text.findSome?_skip, Text.findSome?_taken,
    Option.getD_some]
  · rw [String.ofList_toList]
  all_goals exact fun _ => rfl

end

end Store

end SchemaLedger
