import Mathlib.Data.List.Chain
import SchemaLedger.Database.Engine
import SchemaLedger.Proofs.StoreReadings

/-!
# Statements in pieces

A quote opens a literal, which ends at the next quote that no other quote follows. So a
text falls into pieces, which are literals and single characters between them, unless a
literal is left open. A semicolon between literals ends a statement of a batch; one inside
a literal does not.

Statements are put together from fragments, and a fragment is to read the same wherever it
stands. Only one thing can go wrong at a seam: a quote behind a literal makes the literal go
on. So a fragment promises its pieces for all texts behind it that do not begin with a quote,
and what follows a fragment must not begin with one. Characters between literals promise
theirs for any text.
-/

namespace SchemaLedger

namespace Sql

theorem Literal.eq_of_take? {s t behind : List Char} (h : take? s = some (t, behind)) :
    s = encode t ++ '\'' :: behind := by
  fun_induction take? s generalizing t with
  | case1 => cases h
  | case2 rest ih =>
      obtain ⟨⟨t', behind'⟩, hrest, heq⟩ := Option.map_eq_some_iff.1 h
      cases heq
      simp [encode, ← ih hrest]
  | case3 rest =>
      cases h
      rfl
  | case4 c rest _ hc ih =>
      obtain ⟨⟨t', behind'⟩, hrest, heq⟩ := Option.map_eq_some_iff.1 h
      cases heq
      simp [encode, hc, ← ih hrest]

theorem Literal.length_lt_of_take? {s t behind : List Char} (h : take? s = some (t, behind)) :
    behind.length < s.length := by
  rw [eq_of_take? h]
  simp
  omega

/-- A piece of a statement. -/
inductive Piece where
  | plain (c : Char)
  | literal (text : String)
  deriving DecidableEq

/-- The pieces of a text; none if it leaves a literal open. -/
def pieces? : List Char → Option (List Piece)
  | [] => some []
  | c :: rest =>
    if c = '\'' then
      match _h : Literal.take? rest with
      | some (text, behind) => (pieces? behind).map (.literal (String.ofList text) :: ·)
      | none => none
    else (pieces? rest).map (.plain c :: ·)
termination_by s => s.length
decreasing_by
  · exact (Literal.length_lt_of_take? ‹_›).trans (Nat.lt_succ_self _)
  · exact Nat.lt_succ_self _

theorem pieces?_cons {c : Char} (h : c ≠ '\'') (u : List Char) :
    pieces? (c :: u) = (pieces? u).map (.plain c :: ·) := by
  rw [pieces?, if_neg h]

theorem pieces?_quote (s : String) {u : List Char} (hu : u.head? ≠ some '\'') :
    pieces? ((Literal.quote s).toList ++ u) = (pieces? u).map (.literal s :: ·) := by
  rw [Literal.toList_quote, List.cons_append, List.append_assoc, List.singleton_append, pieces?,
    if_pos rfl]
  split
  · next text behind h =>
      rw [Literal.take?_encode s.toList hu] at h
      cases h
      rw [String.ofList_toList]
  · next h =>
      rw [Literal.take?_encode s.toList hu] at h
      cases h

namespace Piece

/-- A piece as it is written. -/
def text : Piece → List Char
  | plain c => [c]
  | literal s => (Literal.quote s).toList

/-- The text of a literal. -/
def literal? : Piece → Option String
  | plain _ => none
  | literal s => some s

/-- A piece with no more left of a literal than a quote. -/
def mark : Piece → Char
  | plain c => c
  | literal _ => '\''

/-- The piece ends a statement. -/
def isSemicolon : Piece → Bool
  | plain c => c = ';'
  | literal _ => false

/-- The piece is white space between literals. -/
def isBlank : Piece → Bool
  | plain c => Text.isBlank c
  | literal _ => false

end Piece

/-- Nothing is lost: the pieces of a text are the text. -/
theorem text_of_pieces? {s : List Char} {ps : List Piece} (h : pieces? s = some ps) :
    ps.flatMap Piece.text = s := by
  fun_induction pieces? s generalizing ps with
  | case1 => cases h; rfl
  | case2 rest text behind htake ih =>
      obtain ⟨qs, hqs, rfl⟩ := Option.map_eq_some_iff.1 h
      rw [List.flatMap_cons, ih hqs, Piece.text, Literal.toList_quote, String.toList_ofList,
        Literal.eq_of_take? htake]
      simp
  | case3 => cases h
  | case4 c rest hc ih =>
      obtain ⟨qs, hqs, rfl⟩ := Option.map_eq_some_iff.1 h
      rw [List.flatMap_cons, ih hqs]
      rfl

/-- The texts of the literals, in order. -/
def literals (ps : List Piece) : List String := ps.filterMap Piece.literal?

/-- What stands outside the literals, with a quote for each of them. -/
def outside (ps : List Piece) : List Char := ps.map Piece.mark

/-- The statements of a batch: semicolons outside literals part them, and blank ones do not
count. None if the batch leaves a literal open. -/
def statements? (batch : String) : Option (List String) :=
  (pieces? batch.toList).map fun ps =>
    ((ps.splitOnP Piece.isSemicolon).filter fun group => !group.all Piece.isBlank).map
      fun group => String.ofList (group.flatMap Piece.text)

theorem Piece.blank_of_isBlank {p : Piece} (h : p.isBlank = true) :
    ∀ c ∈ p.text, Text.isBlank c = true := by
  cases p with
  | plain c => exact List.forall_mem_singleton.2 h
  | literal s => cases h

/-- A text without a semicolon outside its literals is one statement. -/
theorem statements?_eq_singleton {sql : String} {ps : List Piece}
    (h : pieces? sql.toList = some ps) (hsemicolon : ';' ∉ outside ps)
    (hblank : Text.isBlankText sql = false) : statements? sql = some [sql] := by
  have hsplit : ps.splitOnP Piece.isSemicolon = [ps] := by
    refine List.splitOnP_eq_singleton fun p hp => ?_
    cases p with
    | literal s => rfl
    | plain c =>
        refine decide_eq_false fun hc => hsemicolon ?_
        exact hc ▸ List.mem_map_of_mem (f := Piece.mark) hp
  have hkept : ps.all Piece.isBlank = false := by
    refine Bool.eq_false_iff.2 fun hall => Bool.eq_false_iff.1 hblank ?_
    rw [Text.isBlankText, ← text_of_pieces? h]
    refine List.all_eq_true.2 fun c hc => ?_
    obtain ⟨p, hp, hcp⟩ := List.mem_flatMap.1 hc
    exact Piece.blank_of_isBlank (List.all_eq_true.1 hall p hp) c hcp
  rw [statements?, h, Option.map_some, hsplit]
  simp [hkept, text_of_pieces? h]

end Sql

/-! ## Batches -/

namespace Engine

variable {σ : Type}

/-- Executes statements up to the first that is refused. -/
def executeAll (engine : Engine σ) : List String → σ → Except String Unit × σ
  | [], s => (.ok (), s)
  | sql :: rest, s =>
    match engine.execute sql s with
    | (.ok _, s) => engine.executeAll rest s
    | (.error e, s) => (.error e, s)

/-- The engine carries out a batch statement by statement, as semicolons outside literals
part them. -/
def SplitsBatches (engine : Engine σ) : Prop :=
  ∀ batch statements s, Sql.statements? batch = some statements →
    engine.batch batch s = engine.executeAll statements s

/-- A batch that is one statement is that statement. -/
theorem executeBatch_of_single {engine : Engine σ} (splits : engine.SplitsBatches) {sql : String}
    (h : Sql.statements? sql = some [sql]) (s : σ) :
    engine.database.reply (.executeBatch sql) s =
      (((engine.database.reply (.execute sql) s).1.map fun _ => ()),
        (engine.database.reply (.execute sql) s).2) := by
  show ((engine.batch sql s).1.mapError (statementError sql), (engine.batch sql s).2) =
    (((engine.execute sql s).1.mapError (statementError sql)).map fun _ => (),
      (engine.execute sql s).2)
  rw [splits sql [sql] s h, executeAll]
  cases engine.execute sql s with
  | mk r s' =>
      cases r with
      | ok n => rfl
      | error e => rfl

/-- An engine that writes down what it executes. -/
def transcript : Engine (List String) where
  execute sql s := (.ok 0, s ++ [sql])
  batch batch s :=
    match Sql.statements? batch with
    | some statements => (.ok (), s ++ statements)
    | none => (.error "unterminated literal", s)
  query _ s := (.ok [], s)

theorem splitsBatches_transcript : transcript.SplitsBatches := by
  intro batch statements s h
  have hall (s : List String) : transcript.executeAll statements s = (.ok (), s ++ statements) := by
    clear h
    induction statements generalizing s with
    | nil => simp [executeAll]
    | cons sql rest ih =>
        show transcript.executeAll rest (s ++ [sql]) = _
        rw [ih, List.append_assoc]
        rfl
  rw [hall]
  simp [transcript, h]

end Engine

namespace Sql

/-! ## Fragments -/

/-- The text has these pieces wherever it stands, if no quote follows it. -/
def Reads (w : List Char) (ps : List Piece) : Prop :=
  ∀ u, u.head? ≠ some '\'' → pieces? (w ++ u) = (pieces? u).map (ps ++ ·)

theorem Reads.append {a b : List Char} {ps qs : List Piece} (ha : Reads a ps) (hb : Reads b qs)
    (hseam : b.head? ≠ some '\'') : Reads (a ++ b) (ps ++ qs) := by
  intro u hu
  have hbu : (b ++ u).head? ≠ some '\'' := by
    cases b with
    | nil => exact hu
    | cons c b => exact hseam
  rw [List.append_assoc, ha _ hbu, hb u hu, Option.map_map]
  exact congrArg (Option.map · _) (funext fun rs => (List.append_assoc ps qs rs).symm)

theorem Reads.cons {b : List Char} {qs : List Piece} (hb : Reads b qs) {c : Char}
    (hc : c ≠ '\'') : Reads (c :: b) (.plain c :: qs) := by
  intro u hu
  rw [List.cons_append, pieces?_cons hc, hb u hu, Option.map_map]
  rfl

theorem Reads.nil : Reads [] [] := fun u _ => by
  show pieces? u = (pieces? u).map id
  rw [Option.map_id_fun, id]

theorem Reads.quote (s : String) : Reads (Literal.quote s).toList [.literal s] :=
  fun _ hu => pieces?_quote s hu

/-- The characters that fragments have outside literals, the dash apart. -/
def isBare (c : Char) : Bool :=
  isIdentifierRest c || [' ', ',', '.', '(', ')'].contains c

/-- A text of such characters. -/
def Bare (w : List Char) : Prop := ∀ c ∈ w, isBare c = true

instance (w : List Char) : Decidable (Bare w) :=
  List.decidableBAll _ w

theorem bare_append {a b : List Char} : Bare (a ++ b) ↔ Bare a ∧ Bare b :=
  List.forall_mem_append

theorem bare_cons {c : Char} {w : List Char} : Bare (c :: w) ↔ isBare c = true ∧ Bare w :=
  List.forall_mem_cons

theorem ne_quote_of_isBare {c : Char} (h : isBare c = true) : c ≠ '\'' := by
  rintro rfl
  exact absurd h (by decide)

/-- Outside literals there are bare characters only, and dashes, each behind a blank. -/
structure Tidy (s : List Char) : Prop where
  mem : ∀ c ∈ s, isBare c = true ∨ c = '-' ∨ c = '\''
  dash : s.IsChain fun c d => d = '-' → c = ' '
  head : s.head? ≠ some '-'

theorem Tidy.nil : Tidy [] where
  mem c hc := by cases hc
  dash := List.isChain_nil
  head := nofun

theorem Tidy.append {a b : List Char} (ha : Tidy a) (hb : Tidy b) : Tidy (a ++ b) where
  mem c hc := (List.mem_append.1 hc).elim (ha.mem c) (hb.mem c)
  dash := by
    refine List.isChain_append.2 ⟨ha.dash, hb.dash, fun c _ d hd heq => ?_⟩
    exact absurd (heq ▸ hd) hb.head
  head := by
    cases a with
    | nil => exact hb.head
    | cons c a => exact ha.head

/-- A part of a statement with these texts in its literals. -/
def Fragment (w : List Char) (texts : List String) : Prop :=
  ∃ ps, Reads w ps ∧ literals ps = texts ∧ Tidy (outside ps)

namespace Fragment

theorem nil : Fragment [] [] := ⟨[], .nil, rfl, .nil⟩

theorem quote (s : String) : Fragment (Literal.quote s).toList [s] :=
  ⟨[.literal s], .quote s, rfl, ⟨by simp [outside, Piece.mark], List.isChain_singleton _,
    by simp [outside, Piece.mark]⟩⟩

theorem append {a b : List Char} {s t : List String} (ha : Fragment a s) (hb : Fragment b t)
    (hseam : b.head? ≠ some '\'') : Fragment (a ++ b) (s ++ t) := by
  obtain ⟨ps, hps, rfl, hp⟩ := ha
  obtain ⟨qs, hqs, rfl, hq⟩ := hb
  refine ⟨ps ++ qs, hps.append hqs hseam, List.filterMap_append, ?_⟩
  rw [outside, List.map_append]
  exact hp.append hq

theorem cons {b : List Char} {t : List String} (hb : Fragment b t) {c : Char}
    (hc : isBare c = true) : Fragment (c :: b) t := by
  obtain ⟨qs, hqs, rfl, hq⟩ := hb
  refine ⟨.plain c :: qs, hqs.cons (ne_quote_of_isBare hc), rfl, ?_⟩
  have hsingle : Tidy [c] := by
    refine ⟨fun d hd => .inl (List.mem_singleton.1 hd ▸ hc), List.isChain_singleton _, ?_⟩
    intro h
    rw [Option.some.inj h] at hc
    exact absurd hc (by decide)
  exact hsingle.append hq

/-- Bare characters stand in front of anything, a literal too. -/
theorem bare_append {w b : List Char} {t : List String} (hw : Bare w) (hb : Fragment b t) :
    Fragment (w ++ b) t := by
  induction w with
  | nil => exact hb
  | cons c w ih =>
      obtain ⟨hc, hw⟩ := bare_cons.1 hw
      exact (ih hw).cons hc

theorem bare {w : List Char} (hw : Bare w) : Fragment w [] :=
  List.append_nil w ▸ nil.bare_append hw

/-- A number behind a blank may have a sign. -/
theorem dash {w : List Char} (hw : Bare w) : Fragment (' ' :: '-' :: w) [] := by
  obtain ⟨ps, hps, hl, hp⟩ := bare hw
  refine ⟨.plain ' ' :: .plain '-' :: ps, (hps.cons (by decide)).cons (by decide), hl, ?_⟩
  have hsign : Tidy [' ', '-'] := by
    refine ⟨fun c hc => ?_, by simp, by simp⟩
    rcases List.mem_cons.1 hc with rfl | hc
    · exact .inl (by decide)
    · exact .inr (.inl (List.mem_singleton.1 hc))
  exact hsign.append hp

/-- Fragments that all begin with one bare character stand behind each other. -/
theorem flatMap {α : Type} {f : α → List Char} {g : α → List String} {c : Char}
    (hc : isBare c = true) {l : List α} (h : ∀ a ∈ l, Fragment (c :: f a) (g a)) :
    Fragment (l.flatMap fun a => c :: f a) (l.flatMap g) := by
  induction l with
  | nil => exact nil
  | cons a rest ih =>
      rw [List.flatMap_cons, List.flatMap_cons]
      refine (h a List.mem_cons_self).append (ih fun b hb => h b (List.mem_cons_of_mem a hb)) ?_
      cases rest with
      | nil => exact nofun
      | cons b rest => exact fun hhead => ne_quote_of_isBare hc (Option.some.inj hhead)

end Fragment

end Sql

end SchemaLedger
