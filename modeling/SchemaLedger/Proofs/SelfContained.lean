import SchemaLedger.Proofs.Pieces
import SchemaLedger.Proofs.TableText

/-!
# Each statement of a table keeps to itself

Names go into statements as they are and texts as literals, and both come from whoever
describes a table. The checks leave only names that are harmless without quotes; literals
take care of texts. So whatever a default says, the statement that holds it is one
statement: its literals are closed and read as the defaults that were given, and outside
them nothing ends a statement, opens a name in quotes or begins a comment.

Every part of a statement is a fragment, and the module goes from the smallest ones to
whole statements. The one free text is an expression as a default. A body that gives none
has only those that `id` and `timestamps` bring, and these two are harmless.
-/

namespace SchemaLedger

open Sql (Bare Fragment isBare bare_append bare_cons)

/-! ## Names and numbers -/

namespace Sql

theorem isBare_of_isIdentifierRest {c : Char} (h : isIdentifierRest c = true) :
    isBare c = true := by
  simp [isBare, h]

theorem isBare_of_isDigit {c : Char} (h : c.isDigit = true) : isBare c = true :=
  isBare_of_isIdentifierRest (by simp [isIdentifierRest, Char.isAlphanum, h])

theorem bare_of_isIdentifier {name : String} (h : isIdentifier name = true) :
    Bare name.toList :=
  fun _ hc => isBare_of_isIdentifierRest (isIdentifierRest_of_mem h hc)

theorem bare_of_isQualifiedName {name : String} (h : isQualifiedName name = true) :
    Bare name.toList := by
  intro c hc
  by_cases hrest : isIdentifierRest c = true
  · exact isBare_of_isIdentifierRest hrest
  · by_cases hdot : c = '.'
    · exact hdot ▸ by decide
    · exact absurd hc (notMem_of_isQualifiedName h (Bool.not_eq_true _ ▸ hrest) hdot)

theorem bare_toDigits (n : Nat) : Bare (Nat.toDigits 10 n) :=
  fun _ hc => isBare_of_isDigit (Nat.isDigit_of_mem_toDigits (by decide) (by decide) hc)

theorem Fragment.integer (n : Int) : Fragment (' ' :: (toString n).toList) [] := by
  rcases Int.lt_or_le n 0 with hn | hn
  · rw [Text.toList_toString_of_neg hn]
    exact .dash (bare_toDigits _)
  · rw [Text.toList_toString_of_nonneg hn]
    exact (Fragment.bare (bare_toDigits _)).cons (by decide)

end Sql

namespace Text.Double

theorem bare_positional (digits : Nat) (k : Int) : Bare (positional digits k).toList := by
  have hzeros (n : Nat) : Bare (List.replicate n '0') := by
    intro c hc
    rw [List.eq_of_mem_replicate hc]
    decide
  -- the digits that are set out are among those of the number
  have hdigits : Bare ((Nat.toDigits 10 digits).reverse.dropWhile (· = '0')).reverse := by
    intro d hd
    refine Sql.bare_toDigits digits d (List.mem_reverse.1 ?_)
    exact (List.dropWhile_suffix _).mem (List.mem_reverse.1 hd)
  simp only [positional]
  split
  · rw [String.toList_append]
    refine bare_append.2 ⟨by decide, ?_⟩
    rw [String.toList_ofList]
    exact bare_append.2 ⟨hzeros _, hdigits⟩
  · split
    · rw [String.toList_ofList]
      exact bare_append.2 ⟨hdigits, hzeros _⟩
    · rw [String.toList_ofList, bare_append, bare_cons]
      exact ⟨fun d hd => hdigits d (List.mem_of_mem_take hd), by decide,
        fun d hd => hdigits d (List.mem_of_mem_drop hd)⟩

theorem toText_of_isFinite {d : Double} (h : d.isFinite = true) :
    ∃ negative body, d.toText = (if negative = true then "-" ++ body else body) ∧
      (body = "0" ∨ ∃ digits k, body = positional digits k) := by
  unfold isFinite at h
  unfold toText
  split at h
  · next negative significand exponent hv =>
      rw [hv]
      refine ⟨negative, _, rfl, ?_⟩
      split
      · exact .inl rfl
      · -- a pair is taken apart here, lest the digits be computed
        cases shortest significand exponent with
        | mk digits k => exact .inr ⟨digits, k, rfl⟩
  · cases h

/-- A number that is finite has a sign, digits and a point. -/
theorem fragment {d : Double} (h : d.isFinite = true) :
    Fragment (' ' :: d.toText.toList) [] := by
  obtain ⟨negative, body, htext, hbody⟩ := toText_of_isFinite h
  have hbare : Bare body.toList := by
    rcases hbody with rfl | ⟨digits, k, rfl⟩
    · decide
    · exact bare_positional digits k
  rw [htext]
  cases negative with
  | false => exact (Fragment.bare hbare).cons (by decide)
  | true =>
      rw [if_pos rfl, String.toList_append]
      exact .dash hbare

end Text.Double

/-! ## Types, defaults and references -/

theorem Kind.bare_sql (k : Kind) : Bare k.sql.toList := by
  have hword : Bare k.word.toList := by
    cases k <;> (simp only [word]; decide)
  have hnumber (n : Nat) : Bare (toString n).toList := by
    rw [Text.toList_toString_nat]
    exact Sql.bare_toDigits n
  rw [toList_sql]
  refine bare_append.2 ⟨hword, ?_⟩
  unfold parameters
  split
  · simp only [bare_cons, bare_append]
    exact ⟨by decide, hnumber _, by decide⟩
  · simp only [bare_cons, bare_append]
    exact ⟨by decide, hnumber _, by decide, by decide, hnumber _, by decide⟩
  · decide

namespace DefaultValue

/-- The texts of the literals in a default. -/
def literals : DefaultValue → List String
  | .text s => [s]
  | .nextValue sequence => [sequence]
  | _ => []

/-- The expressions that columns come with. -/
def generators : List String := [uuidGenerator, "current_timestamp"]

/-- The default can stand in a statement: a number is finite, and an expression is not a
free text. -/
def Tame : DefaultValue → Prop
  | .float d => d.isFinite = true
  | .expression sql => sql ∈ generators
  | _ => True

theorem bare_generators : ∀ sql ∈ generators, Bare sql.toList := by
  decide

theorem fragment {value : DefaultValue} (tame : value.Tame) :
    Fragment (' ' :: value.sql.toList) value.literals := by
  cases value with
  | text s => exact (Fragment.quote s).cons (by decide)
  | integer n => exact .integer n
  | float d => exact Text.Double.fragment tame
  | boolean b =>
      refine .bare ?_
      cases b <;> (simp only [sql]; decide)
  | expression sql => exact (Fragment.bare (bare_generators sql tame)).cons (by decide)
  | nextValue sequence =>
      have hclosing : Fragment [')'] [] := .bare (by decide)
      have hliteral := (Fragment.quote sequence).append hclosing (by decide)
      simp only [sql, String.toList_append]
      rw [List.append_assoc]
      exact (hliteral.bare_append (w := "nextval(".toList) (by decide)).cons (by decide)

end DefaultValue

theorem Reference.bare_sql {target : Reference} (named : target.Named) :
    Bare target.sql.toList := by
  obtain ⟨table, column, onDelete⟩ := target
  have htable := Sql.bare_of_isQualifiedName named.1
  have hcolumn := Sql.bare_of_isIdentifier named.2
  have haction : Bare (actionText onDelete).toList := by
    cases onDelete with
    | none => decide
    | some action => cases action <;> decide
  rw [toList_sql, argument]
  simp only [bare_append, bare_cons]
  exact ⟨by decide, by decide, htable, by decide, hcolumn, by decide, haction⟩

/-! ## Columns and tables -/

namespace Modifier

/-- The texts of the literals in a modifier. -/
def literals : Modifier → List String
  | .default value => value.literals
  | _ => []

/-- The modifier can stand in a statement. -/
def Tame : Modifier → Prop
  | .default value => value.Tame
  | .references target => target.Named
  | _ => True

theorem fragment {m : Modifier} (tame : m.Tame) : Fragment (' ' :: m.sql.toList) m.literals := by
  cases m with
  | default value =>
      have hvalue : Fragment (' ' :: value.sql.toList) value.literals :=
        DefaultValue.fragment tame
      rw [toList_sql]
      exact (hvalue.bare_append (w := "DEFAULT".toList) (by decide)).cons (by decide)
  | references target =>
      have htarget : Bare target.sql.toList := Reference.bare_sql tame
      exact (Fragment.bare htarget).cons (by decide)
  | _ => exact .bare (by simp only [sql]; decide)

end Modifier

namespace Clause

/-- The column can stand in a statement. -/
structure Tame (clause : Clause) : Prop where
  name : Sql.isIdentifier clause.name = true
  modifiers : ∀ m ∈ clause.modifiers, m.Tame

/-- The texts of the literals in a column: there are none but in its default. -/
def literals (clause : Clause) : List String :=
  (clause.defaultValue?.map DefaultValue.literals).getD []

theorem flatMap_literals {clause : Clause} (single : clause.Single) :
    clause.modifiers.flatMap Modifier.literals = clause.literals := by
  obtain ⟨name, kind, ms⟩ := clause
  show ms.flatMap Modifier.literals = _
  unfold literals defaultValue?
  unfold Single at single
  dsimp only at single ⊢
  induction ms with
  | nil => rfl
  | cons m rest ih =>
      rw [List.map_cons, List.nodup_cons] at single
      rw [List.flatMap_cons, List.findSome?_cons]
      cases m with
      | default value =>
          -- no other modifier is a default
          have hrest : rest.flatMap Modifier.literals = [] := by
            refine List.flatMap_eq_nil_iff.2 fun p hp => ?_
            cases p with
            | default other => exact absurd (List.mem_map_of_mem hp) single.1
            | _ => rfl
          rw [hrest]
          exact List.append_nil _
      | _ => exact ih single.2

theorem fragment {clause : Clause} (tame : clause.Tame) (single : clause.Single) :
    Fragment clause.sql.toList clause.literals := by
  have hmodifiers : Fragment (Modifier.texts clause.modifiers)
      (clause.modifiers.flatMap Modifier.literals) :=
    .flatMap (by decide) fun m hm => Modifier.fragment (tame.modifiers m hm)
  rw [flatMap_literals single] at hmodifiers
  rw [toList_sql]
  exact ((hmodifiers.bare_append clause.kind.bare_sql).cons (c := ' ') (by decide)).bare_append
    (Sql.bare_of_isIdentifier tame.name)

end Clause

namespace Table

/-- The texts of the literals in the statement of a table, in the order of its columns. -/
def literals (table : Table) : List String := table.columns.flatMap Clause.literals

theorem fragment {table : Table} (hname : Sql.isQualifiedName table.name = true)
    (hne : table.columns ≠ []) (tame : ∀ clause ∈ table.columns, clause.Tame)
    (single : ∀ clause ∈ table.columns, clause.Single) :
    Fragment table.createStatement.toList table.literals := by
  obtain ⟨name, columns⟩ := table
  cases columns with
  | nil => exact absurd rfl hne
  | cons c cs =>
      have hclause : ∀ d ∈ c :: cs, Fragment d.sql.toList d.literals :=
        fun d hd => Clause.fragment (tame d hd) (single d hd)
      have hrest : Fragment (Clause.texts cs ++ [')']) (cs.flatMap Clause.literals) := by
        refine List.append_nil (cs.flatMap Clause.literals) ▸
          Fragment.append ?_ (.bare (by decide)) (by decide)
        exact .flatMap (by decide) fun d hd =>
          ((hclause d (List.mem_cons_of_mem c hd)).cons (c := ' ') (by decide)).cons (by decide)
      have hseam : (Clause.texts cs ++ [')']).head? ≠ some '\'' := by
        obtain ⟨d, rest, heq, hd⟩ := Clause.last_texts cs
        rw [heq]
        rintro ⟨⟩
        exact absurd hd (by decide)
      have hcolumns := (hclause c List.mem_cons_self).append hrest hseam
      rw [toList_createStatement]
      exact (((hcolumns.cons (by decide)).cons (by decide)).bare_append
        (Sql.bare_of_isQualifiedName hname)).bare_append (by decide)

end Table

/-! ## Bodies without free expressions -/

/-- The link gives an expression as a default. -/
def Link.isExpression : Link → Bool
  | .default (.expression _) => true
  | _ => false

/-- No link of the call gives an expression as a default. -/
def Call.Structured : Call → Prop
  | .column _ _ links => ∀ l ∈ links, l.isExpression = false
  | .timestamps => True

/-- The modifier is no default with a free text. -/
def Modifier.Vetted : Modifier → Prop
  | .default (.expression sql) => sql ∈ DefaultValue.generators
  | _ => True

theorem Introduction.vetted_modifiers (introduction : Introduction) (table name : String) :
    ∀ m ∈ introduction.modifiers table name, m.Vetted := by
  have hid : uuidGenerator ∈ DefaultValue.generators := by decide
  cases introduction with
  | typed kind => exact nofun
  | id => exact List.forall_mem_cons.2 ⟨hid, List.forall_mem_singleton.2 trivial⟩
  | increments => exact List.forall_mem_cons.2 ⟨trivial, List.forall_mem_singleton.2 trivial⟩

theorem Link.vetted_of_modifier? {l : Link} (h : l.isExpression = false) {m : Modifier}
    (hm : m ∈ l.modifier?) : m.Vetted := by
  cases l with
  | default value =>
      cases hm
      cases value with
      | expression sql => cases h
      | _ => trivial
  | references column target action =>
      cases target with
      | none => cases hm
      | some target => cases hm; trivial
  | _ => cases hm; trivial

theorem Link.vetted_modifiers {links : List Link} (h : ∀ l ∈ links, l.isExpression = false) :
    ∀ m ∈ Link.modifiers links, m.Vetted := by
  induction links with
  | nil => simp [modifiers]
  | cons l rest ih =>
      obtain ⟨hl, hrest⟩ := List.forall_mem_cons.1 h
      rw [modifiers]
      cases hm : l.modifier? with
      | none => simp
      | some m => exact List.forall_mem_cons.2 ⟨l.vetted_of_modifier? hl hm, ih hrest⟩

theorem Call.vetted_of_structured {table : String} {c : Call} (h : c.Structured) :
    ∀ m ∈ c.modifiers table, m.Vetted := by
  have htime : "current_timestamp" ∈ DefaultValue.generators := by decide
  cases c with
  | timestamps => exact List.forall_mem_cons.2 ⟨trivial, List.forall_mem_singleton.2 htime⟩
  | column introduction name links =>
      exact List.forall_mem_append.2
        ⟨introduction.vetted_modifiers table name, Link.vetted_modifiers h⟩

theorem Table.tame_of_check {name : String} {body : List Call}
    (structured : ∀ c ∈ body, c.Structured) (h : (Builder.build name body).check = .ok ()) :
    ∀ clause ∈ (Builder.build name body).columns, clause.Tame := by
  obtain ⟨_, _, hnamed⟩ := named_of_check h
  intro clause hclause
  have named := hnamed clause hclause
  have single := Builder.single_build name body clause hclause
  have hvetted : ∀ m ∈ clause.modifiers, m.Vetted :=
    (Clause.kept_forall Modifier.Vetted).build
      (fun c hc => c.vetted_of_structured (structured c hc)) clause hclause
  refine ⟨named.column, fun m hm => ?_⟩
  cases m with
  | default value =>
      cases value with
      | float d => exact named.number d (Clause.defaultValue?_of_mem single hm)
      | expression sql => exact hvetted _ hm
      | _ => trivial
  | references target => exact named.reference target (Clause.reference?_of_mem single hm)
  | _ => trivial

/-! ## The literals of a body -/

/-- The default that a call gives its columns: of several the last one counts. -/
def Call.defaultValue? (table : String) (c : Call) : Option DefaultValue :=
  (c.modifiers table).reverse.findSome? Modifier.defaultValue?

/-- The texts of the literals that a call gives, column by column. -/
def Call.literals (table : String) (c : Call) : List String :=
  c.columns.flatMap fun _ => ((c.defaultValue? table).map DefaultValue.literals).getD []

theorem Table.literals_build (name : String) (body : List Call) :
    (Builder.build name body).literals = body.flatMap (Call.literals name) := by
  rw [Builder.build_eq, literals, List.flatMap_assoc]
  refine List.flatMap_congr fun c _ => ?_
  rw [Call.clauses, List.flatMap_map]
  refine List.flatMap_congr fun (column, kind) _ => ?_
  rw [Clause.literals, Clause.defaultValue?_ofModifiers, Call.defaultValue?]

/-! ## Statements -/

namespace Sql

/-- The characters at which a line can end. -/
def lineBreaks : List Char :=
  ['\n', '\r', '\x0b', '\x0c', '\u0085', '\u2028', '\u2029']

/-- The literals of a statement are closed and read as these texts, nothing outside them
ends a statement, opens a name in quotes, breaks the line or begins a comment, and so it is
one statement. -/
structure SelfContained (sql : String) (texts : List String) (ps : List Piece) : Prop where
  closed : pieces? sql.toList = some ps
  literals : literals ps = texts
  semicolon : ';' ∉ outside ps
  doubleQuote : '"' ∉ outside ps
  lines : ∀ c ∈ lineBreaks, c ∉ outside ps
  dashes : ¬ ['-', '-'] <:+: outside ps
  comment : ¬ ['/', '*'] <:+: outside ps
  single : statements? sql = some [sql]

theorem Tidy.notMem {s : List Char} (tidy : Tidy s) {c : Char} (hbare : isBare c = false)
    (hdash : c ≠ '-') (hquote : c ≠ '\'') : c ∉ s := by
  intro hc
  rcases tidy.mem c hc with h | h | h
  · rw [hbare] at h
    cases h
  · exact hdash h
  · exact hquote h

theorem selfContained_of_fragment {sql : String} {texts : List String}
    (h : Fragment sql.toList texts) (hblank : Text.isBlankText sql = false) :
    ∃ ps, SelfContained sql texts ps := by
  obtain ⟨ps, hps, hliterals, tidy⟩ := h
  have hclosed : pieces? sql.toList = some ps := by
    have hall := hps [] (by simp)
    rwa [List.append_nil, pieces?, Option.map_some, List.append_nil] at hall
  have hsemicolon : ';' ∉ outside ps := tidy.notMem (by decide) (by decide) (by decide)
  have hbreaks : lineBreaks.all (fun c => !isBare c && c != '-' && c != '\'') = true := by decide
  have hdouble : '"' ∉ outside ps := tidy.notMem (by decide) (by decide) (by decide)
  refine ⟨ps, hclosed, hliterals, hsemicolon, hdouble, ?_, ?_, ?_,
    statements?_eq_singleton hclosed hsemicolon hblank⟩
  · intro c hc
    have hbreak : (isBare c = false ∧ c ≠ '-') ∧ c ≠ '\'' := by
      simpa using List.all_eq_true.1 hbreaks c hc
    exact tidy.notMem hbreak.1.1 hbreak.1.2 hbreak.2
  · intro hdashes
    have hchain := tidy.dash.infix hdashes
    simp at hchain
  · intro hcomment
    have hslash : '/' ∉ outside ps := tidy.notMem (by decide) (by decide) (by decide)
    exact hslash (hcomment.mem List.mem_cons_self)

end Sql

theorem forall₂_of_mapM_ok {ε α β : Type} {f : α → Except ε β} {as : List α} {bs : List β}
    (h : as.mapM f = .ok bs) : List.Forall₂ (fun a b => f a = .ok b) as bs := by
  induction as generalizing bs with
  | nil => cases h; exact .nil
  | cons a rest ih =>
      rw [List.mapM_cons] at h
      cases ha : f a with
      | error e => rw [ha] at h; cases h
      | ok b =>
          cases hr : rest.mapM f with
          | error e => rw [ha, hr] at h; cases h
          | ok more =>
              rw [ha, hr] at h
              cases h
              exact .cons ha (ih hr)

theorem Text.isBlankText_append (s t : String) :
    isBlankText (s ++ t) = (isBlankText s && isBlankText t) := by
  simp only [isBlankText, String.toList_append, List.all_append]

theorem Sql.selfContained_of_name {keywords name : String}
    (hkeywords : Bare keywords.toList) (hblank : Text.isBlankText keywords = false)
    (hname : isQualifiedName name = true) : ∃ ps, SelfContained (keywords ++ name) [] ps := by
  refine selfContained_of_fragment ?_ ?_
  · rw [String.toList_append]
    exact .bare (bare_append.2 ⟨hkeywords, bare_of_isQualifiedName hname⟩)
  · rw [Text.isBlankText_append, hblank, Bool.false_and]

theorem Table.isBlankText_createStatement (table : Table) :
    Text.isBlankText table.createStatement = false := by
  have hkeywords : Text.isBlankText "CREATE TABLE IF NOT EXISTS " = false := by decide
  unfold createStatement
  simp only [Text.isBlankText_append, hkeywords, Bool.false_and]

theorem Table.selfContained_of_compile {name : String} {body : List Call}
    (structured : ∀ c ∈ body, c.Structured) {sql : String}
    (h : (Builder.build name body).compile = .ok sql) :
    ∃ ps, Sql.SelfContained sql (body.flatMap (Call.literals name)) ps := by
  obtain ⟨hcheck, rfl⟩ := of_compile h
  obtain ⟨hname, hne, _⟩ := named_of_check hcheck
  rw [← literals_build]
  refine Sql.selfContained_of_fragment ?_ (isBlankText_createStatement _)
  exact fragment hname hne (tame_of_check structured hcheck) (Builder.single_build name body)

/-- A call on a schema change that is no raw statement. -/
inductive Declaration where
  | createTable (name : String) (body : List Call)
  | dropTable (name : String)

namespace Declaration

/-- The operation that a declaration adds. -/
def operation : Declaration → Operation
  | .createTable name body => .createTable (Builder.build name body)
  | .dropTable name => .dropTable name

/-- No column of the declaration has an expression as a default. -/
def Structured : Declaration → Prop
  | .createTable _ body => ∀ c ∈ body, c.Structured
  | .dropTable _ => True

/-- The texts of the literals in each statement: only that of a table has any. -/
def literals : Declaration → List (List String)
  | .createTable name body =>
    (Builder.build name body).sequences.map (fun _ => []) ++ [body.flatMap (Call.literals name)]
  | .dropTable _ => [[]]

theorem selfContained_of_compile {d : Declaration} (structured : d.Structured)
    {statements : List String} (h : d.operation.compile = .ok statements) :
    List.Forall₂ (fun sql texts => ∃ ps, Sql.SelfContained sql texts ps) statements
      d.literals := by
  cases d with
  | dropTable name =>
      unfold operation Operation.compile at h
      cases hname : Sql.checkQualifiedName name with
      | error e => simp only [hname] at h; cases h
      | ok _ =>
          simp only [hname] at h
          cases h
          exact .cons (Sql.selfContained_of_name (by decide) (by decide)
            (Sql.isQualifiedName_of_check hname)) .nil
  | createTable name body =>
      unfold operation Operation.compile at h
      cases hcreate : (Builder.build name body).compile with
      | error e => simp only [hcreate] at h; cases h
      | ok create =>
          cases hsequences : (Builder.build name body).sequences.mapM createSequence with
          | error e => simp only [hcreate, hsequences] at h; cases h
          | ok sequences =>
              simp only [hcreate, hsequences] at h
              cases h
              have hall : List.Forall₂ (fun sql texts => ∃ ps, Sql.SelfContained sql texts ps)
                  sequences ((Builder.build name body).sequences.map fun _ => []) := by
                rw [List.forall₂_map_right_iff]
                refine (forall₂_of_mapM_ok hsequences).flip.imp fun sql sequence hs => ?_
                obtain ⟨hname, rfl⟩ := (createSequence_settles sequence).ok_iff.1 hs
                exact Sql.selfContained_of_name (by decide) (by decide)
                  (Sql.isQualifiedName_iff.2 (Demand.allMet_singleton.1 hname))
              exact List.rel_append hall
                (.cons (Table.selfContained_of_compile structured hcreate) .nil)

theorem selfContained_of_compile_map {ds : List Declaration} (structured : ∀ d ∈ ds, d.Structured)
    {statements : List String} (h : Schema.compile (ds.map operation) = .ok statements) :
    List.Forall₂ (fun sql texts => ∃ ps, Sql.SelfContained sql texts ps) statements
      (ds.flatMap literals) := by
  unfold Schema.compile at h
  cases hparts : (ds.map operation).mapM Operation.compile with
  | error e => rw [hparts] at h; cases h
  | ok parts =>
      rw [hparts] at h
      cases h
      have hcompile := List.forall₂_map_left_iff.1 (forall₂_of_mapM_ok hparts)
      have hall := (List.forall₂_and_left _ _).2 ⟨structured, hcompile⟩
      rw [List.flatMap_def]
      refine List.rel_flatten ?_
      rw [List.forall₂_map_right_iff]
      exact hall.flip.imp fun _ d hd => selfContained_of_compile hd.1 hd.2

/-- A schema change that is declared without raw statements and free expressions compiles to
statements each of which keeps to itself, whatever the defaults say: the literals read as the
defaults that were given, column by column, and the batch of a statement executes just it. -/
theorem statements_selfContained {ds : List Declaration} (structured : ∀ d ∈ ds, d.Structured)
    {statements : List String} (h : Schema.compile (ds.map operation) = .ok statements) :
    List.Forall₂ (fun sql texts => ∃ ps, Sql.SelfContained sql texts ps) statements
        (ds.flatMap literals) ∧
      ∀ {σ : Type} (engine : Engine σ), engine.SplitsBatches → ∀ sql ∈ statements, ∀ s,
        engine.database.reply (.executeBatch sql) s =
          (((engine.database.reply (.execute sql) s).1.map fun _ => ()),
            (engine.database.reply (.execute sql) s).2) := by
  have hall := selfContained_of_compile_map structured h
  have hsingle : ∀ sql ∈ statements, Sql.statements? sql = some [sql] := by
    have hboth : List.Forall₂ (fun sql texts => Sql.statements? sql = some [sql] ∧
        ∃ ps, Sql.SelfContained sql texts ps) statements (ds.flatMap literals) :=
      hall.imp fun _ _ ⟨ps, hps⟩ => ⟨hps.single, ps, hps⟩
    exact ((List.forall₂_and_left statements _).1 hboth).1
  refine ⟨hall, fun engine splits sql hsql s => ?_⟩
  exact Engine.executeBatch_of_single splits (hsingle sql hsql) s

/-- A table with a default that has more than one statement in it. -/
def quotedBody : List Call :=
  [.column .increments "id" [],
   .column (.typed .text) "note" [.default (.boolean true), .notNull,
    .default (.text "it's; -- a \"note\" /*\n'); DROP TABLE app.notes; --")],
   .column (.typed (.decimal 10 2)) "price" [.default (.integer (-1))],
   .timestamps]

/-- The table in the place of another one. -/
def quoted : List Declaration := [.dropTable "notes", .createTable "app.notes" quotedBody]

/-- The statements of the change. -/
def quotedStatements : List String :=
  ["DROP TABLE IF EXISTS notes",
    "CREATE SEQUENCE IF NOT EXISTS app.notes_id_seq",
    "CREATE TABLE IF NOT EXISTS app.notes (" ++
      "id INTEGER DEFAULT nextval('app.notes_id_seq') PRIMARY KEY, " ++
      "note TEXT DEFAULT 'it''s; -- a \"note\" /*\n''); DROP TABLE app.notes; --' NOT NULL, " ++
      "price DECIMAL(10, 2) DEFAULT -1, " ++
      "created_at TIMESTAMP NOT NULL DEFAULT current_timestamp, " ++
      "updated_at TIMESTAMP NOT NULL DEFAULT current_timestamp)"]

theorem statements_selfContained_quoted :
    (∀ d ∈ quoted, d.Structured) ∧ Schema.compile (quoted.map operation) = .ok quotedStatements ∧
      List.Forall₂ (fun sql texts => ∃ ps, Sql.SelfContained sql texts ps) quotedStatements
        [[], [], ["app.notes_id_seq",
          "it's; -- a \"note\" /*\n'); DROP TABLE app.notes; --"]] ∧
      ∀ sql ∈ quotedStatements,
        Engine.transcript.database.reply (.executeBatch sql) [] = (.ok (), [sql]) := by
  have structured : ∀ d ∈ quoted, d.Structured := by
    simp [quoted, quotedBody, Structured, Call.Structured, Link.isExpression]
  have h : Schema.compile (quoted.map operation) = .ok quotedStatements := by decide +kernel
  obtain ⟨hall, hbatch⟩ := statements_selfContained structured h
  refine ⟨structured, h, hall, fun sql hsql => ?_⟩
  exact hbatch Engine.transcript Engine.splitsBatches_transcript sql hsql []

end Declaration

end SchemaLedger
