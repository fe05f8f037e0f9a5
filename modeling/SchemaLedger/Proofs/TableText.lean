import SchemaLedger.Proofs.Decimal
import SchemaLedger.Proofs.SchemaDemands

/-!
# The statement of a table determines the table

Two built tables with one statement are one table. The argument goes down the statement:
each part of it, followed by any text that can follow it there, can be cut off in one way
only. So every lemma here has one shape. From `a ++ u = b ++ v`, where `a` and `b` are the
texts of two things of one sort, it infers that the things are the same and that `u = v`.

Words end at a mark: a blank, a comma, a parenthesis or a quote. The keywords of types,
modifiers and defaults differ as words, and this settles most parts. Two need more. The
text of a literal may hold any character, so a literal is cut off by reading it back. And
modifiers stand behind each other with nothing but a blank between them, so a reference
without an action could be taken for one with an action if a modifier began with an O:
none does.
-/

namespace SchemaLedger

/-! ## Words and what follows them -/

namespace Sql

/-- The characters at which a word ends. -/
def marks : List Char := [' ', ',', '(', ')', '\'']

/-- A text without marks. -/
def Word (w : List Char) : Prop := ∀ c ∈ w, c ∉ marks

instance (w : List Char) : Decidable (Word w) :=
  List.decidableBAll _ w

/-- A text at whose beginning no word goes on. -/
def Parted (u : List Char) : Prop := ∀ c ∈ u.head?, c ∈ marks

/-- What stands behind a type, a modifier or a default: a blank, a comma or the closing
parenthesis comes first. -/
def Follows (u : List Char) : Prop := ∃ c rest, u = c :: rest ∧ c ∈ [' ', ',', ')']

theorem parted_cons {c : Char} (h : c ∈ marks) (u : List Char) : Parted (c :: u) :=
  fun _ hd => Option.some.inj hd ▸ h

theorem Follows.parted {u : List Char} (h : Follows u) : Parted u := by
  obtain ⟨c, rest, rfl, hc⟩ := h
  refine parted_cons ?_ rest
  rcases List.mem_cons.1 hc with rfl | hc
  · decide
  · rcases List.mem_cons.1 hc with rfl | hc
    · decide
    · rw [List.mem_singleton.1 hc]; decide

theorem Follows.head?_ne {u : List Char} (h : Follows u) {c : Char} (hc : c ∉ [' ', ',', ')']) :
    u.head? ≠ some c := by
  obtain ⟨d, rest, rfl, hd⟩ := h
  intro heq
  exact hc (Option.some.inj heq ▸ hd)

theorem word_append_inj {a b u v : List Char} (ha : Word a) (hb : Word b) (hu : Parted u)
    (hv : Parted v) (h : a ++ u = b ++ v) : a = b ∧ u = v := by
  induction a generalizing b with
  | nil =>
      cases b with
      | nil => exact ⟨rfl, h⟩
      | cons d b =>
          rw [List.nil_append] at h
          exact absurd (hu d (by rw [h]; rfl)) (hb d List.mem_cons_self)
  | cons c a ih =>
      cases b with
      | nil =>
          rw [List.nil_append] at h
          exact absurd (hv c (by rw [← h]; rfl)) (ha c List.mem_cons_self)
      | cons d b =>
          obtain ⟨rfl, hrest⟩ := List.cons.inj h
          obtain ⟨rfl, huv⟩ := ih (fun e he => ha e (List.mem_cons_of_mem _ he))
            (fun e he => hb e (List.mem_cons_of_mem _ he)) hrest
          exact ⟨rfl, huv⟩

theorem isIdentifierRest_of_mark {c : Char} (h : c ∈ marks) :
    isIdentifierRest c = false ∧ c ≠ '.' := by
  have hall : marks.all (fun c => !isIdentifierRest c && c != '.') = true := by decide
  simpa using List.all_eq_true.1 hall c h

theorem word_of_isIdentifier {name : String} (h : isIdentifier name = true) :
    Word name.toList :=
  fun _ hc hmark =>
    notMem_of_isIdentifierChars h (isIdentifierRest_of_mark hmark).1 hc

theorem word_of_isQualifiedName {name : String} (h : isQualifiedName name = true) :
    Word name.toList :=
  fun _ hc hmark =>
    notMem_of_isQualifiedName h (isIdentifierRest_of_mark hmark).1
      (isIdentifierRest_of_mark hmark).2 hc

theorem word_of_digits {w : List Char} (h : ∀ c ∈ w, c = '-' ∨ c.isDigit = true) : Word w := by
  have hall : marks.all (fun c => c != '-' && !c.isDigit) = true := by decide
  intro c hc hmark
  have hne : c ≠ '-' ∧ c.isDigit = false := by simpa using List.all_eq_true.1 hall c hmark
  rcases h c hc with rfl | hdigit
  · exact hne.1 rfl
  · rw [hne.2] at hdigit; cases hdigit

theorem word_toString_int (n : Int) : Word (toString n).toList :=
  word_of_digits fun _ hc => Text.mem_toList_toString hc

theorem word_toString_nat (n : Nat) : Word (toString n).toList := by
  rw [Text.toList_toString_nat]
  exact word_of_digits fun _ hc => .inr (Nat.isDigit_of_mem_toDigits (by decide) (by decide) hc)

theorem eq_of_toString_nat {n m : Nat} (h : (toString n).toList = (toString m).toList) :
    n = m := by
  rw [Text.toList_toString_nat, Text.toList_toString_nat] at h
  have hn := Text.digits?_toDigits n
  rw [h, Text.digits?_toDigits] at hn
  exact (Option.some.inj hn).symm

theorem eq_of_toString_int {n m : Int} (h : (toString n).toList = (toString m).toList) :
    n = m := by
  have hn : Text.integer? 10 n n (toString n).toList = some n := by
    rw [Text.integer?_toString]
    simp
  rw [h, Text.integer?_toString] at hn
  exact (Option.some.inj (Option.filter_eq_some_iff.1 hn).1).symm

theorem Literal.quote_append_inj {s t : String} {u v : List Char} (hu : u.head? ≠ some '\'')
    (hv : v.head? ≠ some '\'') (h : (quote s).toList ++ u = (quote t).toList ++ v) :
    s = t ∧ u = v := by
  rw [toList_quote, toList_quote, List.cons_append, List.cons_append, List.append_assoc,
    List.append_assoc] at h
  have hs := take?_encode s.toList hu
  have ht := take?_encode t.toList hv
  have heq : encode s.toList ++ '\'' :: u = encode t.toList ++ '\'' :: v := (List.cons.inj h).2
  rw [heq, ht] at hs
  obtain ⟨hst, huv⟩ := Prod.mk.inj (Option.some.inj hs)
  exact ⟨(String.toList_inj.1 hst).symm, huv.symm⟩

end Sql

open Sql (Word Parted Follows word_append_inj parted_cons)

/-! ## Types -/

namespace Kind

/-- The keyword of a type. -/
def word : Kind → String
  | .string _ => "VARCHAR"
  | .text => "TEXT"
  | .integer => "INTEGER"
  | .bigInteger => "BIGINT"
  | .decimal _ _ => "DECIMAL"
  | .boolean => "BOOLEAN"
  | .json => "JSON"
  | .uuid => "UUID"
  | .date => "DATE"
  | .timestamp => "TIMESTAMP"

/-- The parameters of a type, with their parentheses. -/
def parameters : Kind → List Char
  | .string (some n) => '(' :: ((toString n).toList ++ [')'])
  | .decimal precision scale =>
    '(' :: ((toString precision).toList ++ ',' :: ' ' :: ((toString scale).toList ++ [')']))
  | _ => []

theorem toList_sql (k : Kind) : k.sql.toList = k.word.toList ++ k.parameters := by
  cases k with
  | string n => cases n <;> simp [sql, word, parameters]
  | decimal p s => simp [sql, word, parameters]
  | _ => exact (List.append_nil _).symm

theorem word_word (k : Kind) : Word k.word.toList := by
  cases k <;> (simp only [word]; decide)

theorem parted_parameters (k : Kind) {u : List Char} (hu : Follows u) :
    Parted (k.parameters ++ u) := by
  cases k with
  | string n =>
      cases n with
      | none => exact hu.parted
      | some n => exact parted_cons (by decide) _
  | decimal => exact parted_cons (by decide) _
  | _ => exact hu.parted

theorem length_append_inj {n m : Option Nat} {u v : List Char} (hu : Follows u) (hv : Follows v)
    (h : (string n).parameters ++ u = (string m).parameters ++ v) : n = m ∧ u = v := by
  cases n with
  | none =>
      cases m with
      | none => exact ⟨rfl, h⟩
      | some m => exact absurd (by rw [show u = _ from h]; rfl) (hu.head?_ne (c := '(') (by decide))
  | some n =>
      cases m with
      | none =>
          exact absurd (by rw [show v = _ from h.symm]; rfl) (hv.head?_ne (c := '(') (by decide))
      | some m =>
          simp only [parameters, List.cons_append, List.append_assoc, List.cons.injEq, true_and]
            at h
          obtain ⟨hnm, hrest⟩ := word_append_inj (Sql.word_toString_nat n)
            (Sql.word_toString_nat m) (parted_cons (by decide) _) (parted_cons (by decide) _) h
          exact ⟨congrArg some (Sql.eq_of_toString_nat hnm), (List.cons.inj hrest).2⟩

theorem precision_append_inj {p s p' s' : Nat} {u v : List Char}
    (h : (decimal p s).parameters ++ u = (decimal p' s').parameters ++ v) :
    p = p' ∧ s = s' ∧ u = v := by
  simp only [parameters, List.cons_append, List.append_assoc, List.cons.injEq, true_and] at h
  obtain ⟨hp, hrest⟩ := word_append_inj (Sql.word_toString_nat p) (Sql.word_toString_nat p')
    (parted_cons (by decide) _) (parted_cons (by decide) _) h
  obtain ⟨hs, hrest⟩ := word_append_inj (Sql.word_toString_nat s) (Sql.word_toString_nat s')
    (parted_cons (by decide) _) (parted_cons (by decide) _)
    (List.cons.inj (List.cons.inj hrest).2).2
  exact ⟨Sql.eq_of_toString_nat hp, Sql.eq_of_toString_nat hs, (List.cons.inj hrest).2⟩

/-- Types of one keyword are equal, or differ in their parameters. -/
theorem cases_of_word {k l : Kind} (h : k.word = l.word) :
    (∃ n m, k = string n ∧ l = string m) ∨
      (∃ p s p' s', k = decimal p s ∧ l = decimal p' s') ∨ (k = l ∧ k.parameters = []) := by
  cases k <;> cases l <;> simp [word, parameters] at h ⊢

theorem append_inj {k l : Kind} {u v : List Char} (hu : Follows u) (hv : Follows v)
    (h : k.sql.toList ++ u = l.sql.toList ++ v) : k = l ∧ u = v := by
  rw [toList_sql, toList_sql, List.append_assoc, List.append_assoc] at h
  obtain ⟨hword, hrest⟩ := word_append_inj k.word_word l.word_word (k.parted_parameters hu)
    (l.parted_parameters hv) h
  rcases cases_of_word (String.toList_inj.1 hword) with
    ⟨n, m, rfl, rfl⟩ | ⟨p, s, p', s', rfl, rfl⟩ | ⟨rfl, hk⟩
  · obtain ⟨rfl, huv⟩ := length_append_inj hu hv hrest
    exact ⟨rfl, huv⟩
  · obtain ⟨rfl, rfl, huv⟩ := precision_append_inj hrest
    exact ⟨rfl, huv⟩
  · rw [hk] at hrest
    exact ⟨rfl, hrest⟩

end Kind

/-! ## Defaults -/

namespace DefaultValue

/-- The default is a text, an integer, a truth value or a next value. -/
def Plain : DefaultValue → Prop
  | .float _ => False
  | .expression _ => False
  | _ => True

instance : DecidablePred Plain
  | .float _ => isFalse id
  | .expression _ => isFalse id
  | .text _ => isTrue trivial
  | .integer _ => isTrue trivial
  | .boolean _ => isTrue trivial
  | .nextValue _ => isTrue trivial

/-- The text of a plain default up to its first mark. -/
def word : DefaultValue → String
  | .integer n => toString n
  | .boolean b => if b then "true" else "false"
  | .nextValue _ => "nextval"
  | _ => ""

/-- The text of a plain default from its first mark on. -/
def argument : DefaultValue → List Char
  | .text s => (Sql.Literal.quote s).toList
  | .nextValue sequence => '(' :: ((Sql.Literal.quote sequence).toList ++ [')'])
  | _ => []

theorem toList_sql {value : DefaultValue} (plain : value.Plain) :
    value.sql.toList = value.word.toList ++ value.argument := by
  cases value with
  | text s => exact (List.nil_append _).symm
  | integer n => exact (List.append_nil _).symm
  | float d => cases plain
  | boolean b => exact (List.append_nil _).symm
  | expression sql => cases plain
  | nextValue sequence => simp [sql, word, argument]

theorem word_word (value : DefaultValue) : Word value.word.toList := by
  cases value with
  | integer n => exact Sql.word_toString_int n
  | boolean b => cases b <;> (simp only [word]; decide)
  | _ => simp only [word]; decide

theorem parted_argument (value : DefaultValue) {u : List Char} (hu : Follows u) :
    Parted (value.argument ++ u) := by
  cases value with
  | text s =>
      rw [argument, Sql.Literal.toList_quote]
      exact parted_cons (by decide) _
  | nextValue sequence => exact parted_cons (by decide) _
  | _ => exact hu.parted

/-- The texts of integers consist of digits and signs, unlike the other words. -/
theorem toString_ne (n : Int) {w : String}
    (h : w = "" ∨ w.toList.any (fun c => c != '-' && !c.isDigit) = true) : toString n ≠ w := by
  rintro rfl
  rcases h with h | h
  · have hn := Text.integer?_toString n n n
    rw [h] at hn
    simp [Text.integer?, Text.digits?, Option.filter_some] at hn
  · obtain ⟨c, hc, hdigit⟩ := List.any_eq_true.1 h
    rcases Text.mem_toList_toString hc with rfl | hc <;> simp_all

theorem nextValue_append_inj {s t : String} {u v : List Char}
    (h : (nextValue s).argument ++ u = (nextValue t).argument ++ v) : s = t ∧ u = v := by
  simp only [argument, List.cons_append, List.append_assoc, List.cons.injEq, true_and] at h
  obtain ⟨hst, hrest⟩ := Sql.Literal.quote_append_inj (by simp) (by simp) h
  exact ⟨hst, (List.cons.inj hrest).2⟩

/-- Plain defaults of one word are equal, or differ in their literals. -/
theorem cases_of_word {a b : DefaultValue} (ha : a.Plain) (hb : b.Plain) (h : a.word = b.word) :
    (∃ s t, a = text s ∧ b = text t) ∨ (∃ s t, a = nextValue s ∧ b = nextValue t) ∨
      (a = b ∧ a.argument = []) := by
  have hempty (n : Int) : toString n ≠ "" := toString_ne n (.inl rfl)
  have hnext (n : Int) : toString n ≠ "nextval" := toString_ne n (.inr (by decide))
  have htruth (n : Int) (c : Bool) : toString n ≠ (boolean c).word := by
    cases c <;> exact toString_ne n (.inr (by decide))
  cases a with
  | text s =>
      cases b with
      | text t => exact .inl ⟨s, t, rfl, rfl⟩
      | integer n => exact absurd h.symm (hempty n)
      | boolean c => cases c <;> simp [word] at h
      | nextValue t => simp [word] at h
      | _ => cases hb
  | integer n =>
      cases b with
      | text t => exact absurd h (hempty n)
      | integer m =>
          obtain rfl := Sql.eq_of_toString_int (congrArg String.toList h)
          exact .inr (.inr ⟨rfl, rfl⟩)
      | boolean c => exact absurd h (htruth n c)
      | nextValue t => exact absurd h (hnext n)
      | _ => cases hb
  | boolean c =>
      cases b with
      | text t => cases c <;> simp [word] at h
      | integer n => exact absurd h.symm (htruth n c)
      | boolean d => cases c <;> cases d <;> simp [word, argument] at h ⊢
      | nextValue t => cases c <;> simp [word] at h
      | _ => cases hb
  | nextValue s =>
      cases b with
      | text t => simp [word] at h
      | integer n => exact absurd h.symm (hnext n)
      | boolean c => cases c <;> simp [word] at h
      | nextValue t => exact .inr (.inl ⟨s, t, rfl, rfl⟩)
      | _ => cases hb
  | _ => cases ha

theorem append_inj {a b : DefaultValue} (ha : a.Plain) (hb : b.Plain) {u v : List Char}
    (hu : Follows u) (hv : Follows v) (h : a.sql.toList ++ u = b.sql.toList ++ v) :
    a = b ∧ u = v := by
  rw [toList_sql ha, toList_sql hb, List.append_assoc, List.append_assoc] at h
  obtain ⟨hword, hrest⟩ := word_append_inj a.word_word b.word_word (a.parted_argument hu)
    (b.parted_argument hv) h
  rcases cases_of_word ha hb (String.toList_inj.1 hword) with
    ⟨s, t, rfl, rfl⟩ | ⟨s, t, rfl, rfl⟩ | ⟨rfl, hargument⟩
  · obtain ⟨rfl, huv⟩ := Sql.Literal.quote_append_inj (hu.head?_ne (by decide))
      (hv.head?_ne (by decide)) hrest
    exact ⟨rfl, huv⟩
  · obtain ⟨rfl, huv⟩ := nextValue_append_inj hrest
    exact ⟨rfl, huv⟩
  · rw [hargument] at hrest
    exact ⟨rfl, hrest⟩

end DefaultValue

/-! ## References -/

theorem OnDelete.append_inj {a b : OnDelete} {u v : List Char}
    (h : a.sql.toList ++ u = b.sql.toList ++ v) : a = b ∧ u = v := by
  cases a <;> cases b <;> simp [sql] at h ⊢ <;> exact h

namespace Reference

/-- The names of a reference can stand in a statement. -/
def Named (target : Reference) : Prop :=
  Sql.isQualifiedName target.table = true ∧ Sql.isIdentifier target.column = true

/-- The action of a reference behind its column. -/
def actionText : Option OnDelete → String
  | none => ""
  | some action => " ON DELETE " ++ action.sql

/-- The text of a reference behind its keyword. -/
def argument (target : Reference) : List Char :=
  ' ' :: (target.table.toList ++
    '(' :: (target.column.toList ++ ')' :: (actionText target.onDelete).toList))

theorem toList_sql (target : Reference) :
    target.sql.toList = "REFERENCES".toList ++ target.argument := by
  obtain ⟨table, column, onDelete⟩ := target
  cases onDelete <;> simp [sql, argument, actionText]

/-- No action of a reference begins here. -/
def Ends (u : List Char) : Prop := ∀ rest, u ≠ ' ' :: 'O' :: rest

theorem actionText_append_inj {a b : Option OnDelete} {u v : List Char} (hu : Ends u)
    (hv : Ends v) (h : (actionText a).toList ++ u = (actionText b).toList ++ v) :
    a = b ∧ u = v := by
  cases a with
  | none =>
      cases b with
      | none => exact ⟨rfl, h⟩
      | some b =>
          simp only [actionText, String.toList_append] at h
          exact absurd h (hu _)
  | some a =>
      cases b with
      | none =>
          simp only [actionText, String.toList_append] at h
          exact absurd h.symm (hv _)
      | some b =>
          simp only [actionText, String.toList_append, List.append_assoc,
            List.append_cancel_left_eq] at h
          obtain ⟨rfl, huv⟩ := OnDelete.append_inj h
          exact ⟨rfl, huv⟩

theorem argument_append_inj {a b : Reference} (ha : a.Named) (hb : b.Named) {u v : List Char}
    (hu : Ends u) (hv : Ends v) (h : a.argument ++ u = b.argument ++ v) : a = b ∧ u = v := by
  obtain ⟨table, column, action⟩ := a
  obtain ⟨table', column', action'⟩ := b
  simp only [argument, List.cons_append, List.append_assoc, List.cons.injEq, true_and] at h
  obtain ⟨htable, hrest⟩ := word_append_inj (Sql.word_of_isQualifiedName ha.1)
    (Sql.word_of_isQualifiedName hb.1) (parted_cons (by decide) _) (parted_cons (by decide) _) h
  obtain ⟨hcolumn, hrest⟩ := word_append_inj (Sql.word_of_isIdentifier ha.2)
    (Sql.word_of_isIdentifier hb.2) (parted_cons (by decide) _) (parted_cons (by decide) _)
    (List.cons.inj hrest).2
  obtain ⟨rfl, huv⟩ := actionText_append_inj hu hv (List.cons.inj hrest).2
  cases String.toList_inj.1 htable
  cases String.toList_inj.1 hcolumn
  exact ⟨rfl, huv⟩

end Reference

/-! ## Modifiers -/

namespace Modifier

/-- The keyword of a sort of modifiers. -/
def Sort.word : Modifier.Sort → String
  | notNull => "NOT"
  | default => "DEFAULT"
  | primaryKey => "PRIMARY"
  | unique => "UNIQUE"
  | references => "REFERENCES"

/-- The text of a modifier behind its keyword. -/
def argument : Modifier → List Char
  | .notNull => [' ', 'N', 'U', 'L', 'L']
  | .default value => ' ' :: value.sql.toList
  | .primaryKey => [' ', 'K', 'E', 'Y']
  | .unique => []
  | .references target => target.argument

/-- The modifier can be read off its text: a default is plain, and a reference has names
that can stand in a statement. -/
def Legible : Modifier → Prop
  | .default value => value.Plain
  | .references target => target.Named
  | _ => True

theorem toList_sql (m : Modifier) : m.sql.toList = m.sort.word.toList ++ m.argument := by
  cases m with
  | references target => exact target.toList_sql
  | default value => simp [sql, argument, sort, Sort.word]
  | _ => simp [sql, argument, sort, Sort.word]

theorem word_word (s : Modifier.Sort) : Word s.word.toList := by
  cases s <;> decide

theorem eq_of_word {s t : Modifier.Sort} (h : s.word = t.word) : s = t := by
  cases s <;> cases t <;> first
    | rfl
    | exact absurd h (by decide)

theorem parted_argument (m : Modifier) {u : List Char} (hu : Follows u) :
    Parted (m.argument ++ u) := by
  cases m with
  | unique => exact hu.parted
  | _ => exact parted_cons (by decide) _

/-- What follows a modifier, and begins no action of a reference. -/
def Behind (u : List Char) : Prop := Follows u ∧ Reference.Ends u

theorem append_inj {m n : Modifier} (hm : m.Legible) (hn : n.Legible) {u v : List Char}
    (hu : Behind u) (hv : Behind v) (h : m.sql.toList ++ u = n.sql.toList ++ v) :
    m = n ∧ u = v := by
  rw [toList_sql, toList_sql, List.append_assoc, List.append_assoc] at h
  obtain ⟨hword, hrest⟩ := word_append_inj (word_word m.sort) (word_word n.sort)
    (m.parted_argument hu.1) (n.parted_argument hv.1) h
  have hsort := eq_of_word (String.toList_inj.1 hword)
  cases m with
  | default value =>
      cases n with
      | default value' =>
          obtain ⟨rfl, huv⟩ := DefaultValue.append_inj hm hn hu.1 hv.1 (List.cons.inj hrest).2
          exact ⟨rfl, huv⟩
      | _ => cases hsort
  | references target =>
      cases n with
      | references target' =>
          obtain ⟨rfl, huv⟩ := Reference.argument_append_inj hm hn hu.2 hv.2 hrest
          exact ⟨rfl, huv⟩
      | _ => cases hsort
  | _ =>
      cases n <;> cases hsort
      exact ⟨rfl, List.append_cancel_left hrest⟩

/-- The text of modifiers, each behind a blank. -/
def texts (ms : List Modifier) : List Char := ms.flatMap fun m => ' ' :: m.sql.toList

theorem texts_cons_append (m : Modifier) (ms : List Modifier) (u : List Char) :
    texts (m :: ms) ++ u = ' ' :: (m.sql.toList ++ (texts ms ++ u)) := by
  simp [texts]

/-- What follows the last modifier of a column: a comma or the closing parenthesis. -/
def Last (u : List Char) : Prop := ∃ c rest, u = c :: rest ∧ c ∈ [',', ')']

theorem ends_blank_sql (m : Modifier) (u : List Char) :
    Reference.Ends (' ' :: (m.sql.toList ++ u)) := by
  intro rest h
  rw [toList_sql, List.append_assoc] at h
  cases hs : m.sort <;> rw [hs] at h <;> simp [Sort.word] at h

theorem Last.behind {u : List Char} (h : Last u) (ms : List Modifier) : Behind (texts ms ++ u) := by
  cases ms with
  | nil =>
      obtain ⟨c, rest, rfl, hc⟩ := h
      refine ⟨⟨c, rest, rfl, List.mem_cons_of_mem _ hc⟩, fun rest' heq => ?_⟩
      rw [(List.cons.inj heq).1] at hc
      exact absurd hc (by decide)
  | cons m ms =>
      rw [texts_cons_append]
      exact ⟨⟨' ', _, rfl, by decide⟩, ends_blank_sql m _⟩

theorem texts_append_inj {ms ns : List Modifier} (hm : ∀ m ∈ ms, m.Legible)
    (hn : ∀ n ∈ ns, n.Legible) {u v : List Char} (hu : Last u) (hv : Last v)
    (h : texts ms ++ u = texts ns ++ v) : ms = ns ∧ u = v := by
  induction ms generalizing ns with
  | nil =>
      cases ns with
      | nil => exact ⟨rfl, h⟩
      | cons n ns =>
          obtain ⟨c, rest, rfl, hc⟩ := hu
          rw [texts_cons_append] at h
          rw [(List.cons.inj h).1] at hc
          exact absurd hc (by decide)
  | cons m ms ih =>
      cases ns with
      | nil =>
          obtain ⟨c, rest, rfl, hc⟩ := hv
          rw [texts_cons_append] at h
          rw [← (List.cons.inj h).1] at hc
          exact absurd hc (by decide)
      | cons n ns =>
          rw [texts_cons_append, texts_cons_append] at h
          obtain ⟨rfl, hrest⟩ := append_inj (hm m List.mem_cons_self) (hn n List.mem_cons_self)
            (hu.behind ms) (hv.behind ns) (List.cons.inj h).2
          obtain ⟨rfl, huv⟩ := ih (fun p hp => hm p (List.mem_cons_of_mem _ hp))
            (fun p hp => hn p (List.mem_cons_of_mem _ hp)) hrest
          exact ⟨rfl, huv⟩

end Modifier

/-! ## Columns -/

namespace Clause

/-- The column can be read off its text. -/
structure Legible (clause : Clause) : Prop where
  name : Sql.isIdentifier clause.name = true
  modifiers : ∀ m ∈ clause.modifiers, m.Legible

theorem toList_foldl (ms : List Modifier) (start : String) :
    (ms.foldl (fun text m => text ++ " " ++ m.sql) start).toList =
      start.toList ++ Modifier.texts ms := by
  induction ms generalizing start with
  | nil => exact (List.append_nil _).symm
  | cons m ms ih =>
      rw [List.foldl_cons, ih, String.toList_append, String.toList_append]
      simp [Modifier.texts]

theorem toList_sql (clause : Clause) :
    clause.sql.toList = clause.name.toList ++
      ' ' :: (clause.kind.sql.toList ++ Modifier.texts clause.modifiers) := by
  rw [sql, toList_foldl, String.toList_append, String.toList_append]
  simp

theorem append_inj {c d : Clause} (hc : c.Legible) (hd : d.Legible) {u v : List Char}
    (hu : Modifier.Last u) (hv : Modifier.Last v)
    (h : c.sql.toList ++ u = d.sql.toList ++ v) : c = d ∧ u = v := by
  obtain ⟨name, kind, ms⟩ := c
  obtain ⟨name', kind', ms'⟩ := d
  rw [toList_sql, toList_sql] at h
  simp only [List.append_assoc, List.cons_append] at h
  obtain ⟨hname, hrest⟩ := word_append_inj (Sql.word_of_isIdentifier hc.name)
    (Sql.word_of_isIdentifier hd.name) (parted_cons (by decide) _) (parted_cons (by decide) _) h
  obtain ⟨rfl, htexts⟩ := Kind.append_inj (hu.behind ms).1 (hv.behind ms').1
    (List.cons.inj hrest).2
  obtain ⟨rfl, huv⟩ := Modifier.texts_append_inj hc.modifiers hd.modifiers hu hv htexts
  cases String.toList_inj.1 hname
  exact ⟨rfl, huv⟩

/-- The text of the columns behind the first one. -/
def texts (cs : List Clause) : List Char := cs.flatMap fun c => ',' :: ' ' :: c.sql.toList

theorem texts_cons_append (c : Clause) (cs : List Clause) (u : List Char) :
    texts (c :: cs) ++ u = ',' :: ' ' :: (c.sql.toList ++ (texts cs ++ u)) := by
  simp [texts]

theorem last_texts (cs : List Clause) : Modifier.Last (texts cs ++ [')']) := by
  cases cs with
  | nil => exact ⟨')', [], rfl, by decide⟩
  | cons c cs => exact ⟨',', _, texts_cons_append c cs _, by decide⟩

theorem toList_intercalate (c : Clause) (cs : List Clause) :
    (", ".intercalate ((c :: cs).map sql)).toList = c.sql.toList ++ texts cs := by
  rw [String.toList_intercalate]
  induction cs generalizing c with
  | nil => simp [texts]
  | cons d cs ih =>
      have hd := ih d
      simp only [List.map_cons] at hd ⊢
      rw [List.intercalate_cons_cons, hd]
      simp [texts]

theorem texts_inj {cs ds : List Clause} (hc : ∀ c ∈ cs, c.Legible) (hd : ∀ d ∈ ds, d.Legible)
    (h : texts cs ++ [')'] = texts ds ++ [')']) : cs = ds := by
  induction cs generalizing ds with
  | nil =>
      cases ds with
      | nil => rfl
      | cons d ds => rw [texts_cons_append] at h; cases (List.cons.inj h).1
  | cons c cs ih =>
      cases ds with
      | nil => rw [texts_cons_append] at h; cases (List.cons.inj h).1
      | cons d ds =>
          rw [texts_cons_append, texts_cons_append] at h
          obtain ⟨rfl, hrest⟩ := append_inj (hc c List.mem_cons_self) (hd d List.mem_cons_self)
            (last_texts cs) (last_texts ds) (List.cons.inj (List.cons.inj h).2).2
          rw [ih (fun e he => hc e (List.mem_cons_of_mem _ he))
            (fun e he => hd e (List.mem_cons_of_mem _ he)) hrest]

end Clause

/-! ## Tables -/

namespace Table

/-- All defaults of the table are texts, integers, truth values or next values. -/
def Plain (table : Table) : Prop :=
  ∀ clause ∈ table.columns, ∀ value ∈ clause.defaultValue?, value.Plain

instance (table : Table) : Decidable table.Plain :=
  inferInstanceAs (Decidable
    (∀ clause ∈ table.columns, ∀ value ∈ clause.defaultValue?, value.Plain))

/-- The table can be read off its statement. -/
structure Legible (table : Table) : Prop where
  name : Sql.isQualifiedName table.name = true
  nonempty : table.columns ≠ []
  columns : ∀ clause ∈ table.columns, clause.Legible

/-- The check of a table looks at the one default and the one reference of each clause, so
a built table that passes it can be read off its statement. -/
theorem legible_of_check {name : String} {body : List Call}
    (plain : (Builder.build name body).Plain) (h : (Builder.build name body).check = .ok ()) :
    (Builder.build name body).Legible := by
  obtain ⟨hname, hne, hnamed⟩ := named_of_check h
  refine ⟨hname, hne, fun clause hclause => ⟨(hnamed clause hclause).column, fun m hm => ?_⟩⟩
  have single := Builder.single_build name body clause hclause
  cases m with
  | default value => exact plain clause hclause value (Clause.defaultValue?_of_mem single hm)
  | references target =>
      exact (hnamed clause hclause).reference target (Clause.reference?_of_mem single hm)
  | _ => trivial

theorem toList_createStatement (name : String) (c : Clause) (cs : List Clause) :
    (createStatement { name, columns := c :: cs }).toList =
      "CREATE TABLE IF NOT EXISTS ".toList ++ (name.toList ++
        ' ' :: '(' :: (c.sql.toList ++ (Clause.texts cs ++ [')']))) := by
  have hopen : " (".toList = [' ', '('] := rfl
  have hclose : ")".toList = [')'] := rfl
  delta createStatement
  simp only [String.toList_append, Clause.toList_intercalate, hopen, hclose,
    List.append_assoc, List.cons_append, List.nil_append]

theorem eq_of_createStatement {a b : Table} (ha : a.Legible) (hb : b.Legible)
    (h : a.createStatement = b.createStatement) : a = b := by
  obtain ⟨name, columns⟩ := a
  obtain ⟨name', columns'⟩ := b
  cases columns with
  | nil => exact absurd rfl ha.nonempty
  | cons c cs =>
      cases columns' with
      | nil => exact absurd rfl hb.nonempty
      | cons d ds =>
          have h := congrArg String.toList h
          rw [toList_createStatement, toList_createStatement] at h
          obtain ⟨hname, hrest⟩ := word_append_inj (Sql.word_of_isQualifiedName ha.name)
            (Sql.word_of_isQualifiedName hb.name) (parted_cons (by decide) _)
            (parted_cons (by decide) _) (List.append_cancel_left h)
          obtain ⟨rfl, htexts⟩ := Clause.append_inj (ha.columns c List.mem_cons_self)
            (hb.columns d List.mem_cons_self) (Clause.last_texts cs) (Clause.last_texts ds)
            (List.cons.inj (List.cons.inj hrest).2).2
          cases String.toList_inj.1 hname
          rw [Clause.texts_inj (fun e he => ha.columns e (List.mem_cons_of_mem _ he))
            (fun e he => hb.columns e (List.mem_cons_of_mem _ he)) htexts]

theorem of_compile {table : Table} {text : String} (h : table.compile = .ok text) :
    table.check = .ok () ∧ table.createStatement = text := by
  unfold compile at h
  cases hcheck : table.check with
  | error e => rw [hcheck] at h; cases h
  | ok _ => rw [hcheck] at h; cases h; exact ⟨rfl, rfl⟩

/-- Two built tables with plain defaults that compile to one statement are one table. -/
theorem eq_of_compile {name name' : String} {body body' : List Call} {text : String}
    (plain : (Builder.build name body).Plain) (plain' : (Builder.build name' body').Plain)
    (h : (Builder.build name body).compile = .ok text)
    (h' : (Builder.build name' body').compile = .ok text) :
    Builder.build name body = Builder.build name' body' := by
  obtain ⟨hcheck, htext⟩ := of_compile h
  obtain ⟨hcheck', htext'⟩ := of_compile h'
  exact eq_of_createStatement (legible_of_check plain hcheck) (legible_of_check plain' hcheck')
    (htext.trans htext'.symm)

/-- A default with a column inside it, given at once. -/
def noted : List Call :=
  [.column (.typed .text) "note" [.default (.text "x', b TEXT DEFAULT 'y"), .notNull,
    .references "id" (some "app.users") (some .setDefault)],
   .column (.typed (.decimal 10 2)) "price" [.default (.integer (-1)), .unique]]

/-- The same default in the place of an earlier one. -/
def renoted : List Call :=
  [.column (.typed .text) "note" [.default (.boolean true), .notNull, .notNull,
    .references "name" (some "people") none, .references "id" (some "app.users") (some .setDefault),
    .default (.text "x', b TEXT DEFAULT 'y")],
   .column (.typed (.decimal 10 2)) "price" [.default (.integer (-1)), .unique]]

/-- The statement of either body. -/
def notedStatement : String :=
  "CREATE TABLE IF NOT EXISTS notes (" ++
    "note TEXT DEFAULT 'x'', b TEXT DEFAULT ''y' NOT NULL " ++
      "REFERENCES app.users(id) ON DELETE SET DEFAULT, " ++
    "price DECIMAL(10, 2) DEFAULT -1 UNIQUE)"

theorem eq_of_compile_noted :
    (Builder.build "notes" noted).compile = .ok notedStatement ∧
      (Builder.build "notes" renoted).compile = .ok notedStatement ∧
      Builder.build "notes" noted = Builder.build "notes" renoted := by
  have h : (Builder.build "notes" noted).compile = .ok notedStatement := by decide +kernel
  have h' : (Builder.build "notes" renoted).compile = .ok notedStatement := by decide +kernel
  exact ⟨h, h', eq_of_compile (by decide) (by decide) h h'⟩

end Table

end SchemaLedger
