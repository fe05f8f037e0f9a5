import SchemaLedger.Proofs.PlainWords

/-!
# Steps of the scanner

The scanner works in steps, one for a token that is written. Here are those that it takes through
a line of a block mapping, which has a key and behind it a scalar or an empty sequence. Between
lines the invariant is `Scanner.AtLines`. It speaks of what the scanner finds once it has passed
the gap in front of it, because behind an empty sequence the line break has not been passed yet,
and behind a scalar it has. Within a line, behind the colon of the key, it is `Scanner.AtValue`.

A key becomes one only at its colon, which puts tokens in front of the word that was read. So the
step that reads the word and the step that reads the colon are told together, `AtLines.key`.
-/

namespace SchemaLedger.Yaml

/-! ## Gaps -/

namespace Scanner

section

variable {inFlow keyAllowed : Bool}

/-- A printable character of the first 128. -/
def isPrintable (c : Char) : Bool := ' ' ≤ c && c ≤ '~'

theorem isBreak_of_isPrintable {c : Char} (h : isPrintable c = true) : isBreak c = false := by
  unfold isBreak
  simp only [Bool.or_eq_false_iff, beq_eq_false_iff_ne]
  refine ⟨⟨?_, ?_⟩, ?_⟩ <;> rintro rfl <;> exact absurd h (by decide)

theorem gapFrom_of_isLiteral {c : Char} (h : isLiteral c = true) (m : Mark) (rest : List Char) :
    gapFrom inFlow false keyAllowed m (c :: rest) = (⟨m, c :: rest⟩, keyAllowed) := by
  have hhash : c ≠ '#' := ne_of_isLiteral h (by decide)
  have hblank : c ≠ ' ' := ne_of_isLiteral h (by decide)
  have htab : c ≠ '\t' := ne_of_isLiteral h (by decide)
  have hmark : c ≠ '\ufeff' := ne_of_isLiteral h (by decide)
  rw [gapFrom, if_neg (by simp [isBreak_of_isLiteral h]), if_neg (by simp [hhash]),
    if_neg (by simp [hblank, htab, hmark])]

theorem gapFrom_blanks {blanks : List Char} (h : ∀ c ∈ blanks, c = ' ') (m : Mark)
    (rest : List Char) : gapFrom inFlow false keyAllowed m (blanks ++ rest) =
      gapFrom inFlow false keyAllowed (m.past blanks.length) rest := by
  induction blanks generalizing m with
  | nil => rfl
  | cons c blanks ih =>
      obtain ⟨rfl, hblanks⟩ := List.forall_mem_cons.1 h
      have hstep : gapFrom inFlow false keyAllowed m (' ' :: (blanks ++ rest)) =
          gapFrom inFlow false keyAllowed (m.past 1) (blanks ++ rest) := rfl
      rw [List.cons_append, hstep, ih hblanks, Mark.past_past, Nat.add_comm]
      rfl

/-- Behind a line break keys are allowed again. -/
theorem gapFrom_newline (m : Mark) (rest : List Char) :
    gapFrom false false keyAllowed m ('\n' :: rest) =
      gapFrom false false true (m.after '\n') rest := by
  rw [gapFrom, if_pos (by decide), Bool.not_false, Bool.or_true]

/-- A comment is passed with its line. -/
theorem gapFrom_comment {text : List Char} (h : ∀ c ∈ text, isPrintable c = true) (m : Mark)
    (rest : List Char) : ∃ m' : Mark, m'.column = 0 ∧
      gapFrom false false keyAllowed m ('#' :: (text ++ '\n' :: rest)) =
        gapFrom false false true m' rest := by
  have inside : ∀ m : Mark, ∃ m' : Mark, m'.column = 0 ∧
      gapFrom false true keyAllowed m (text ++ '\n' :: rest) =
        gapFrom false false true m' rest := by
    induction text with
    | nil => exact fun m => ⟨m.after '\n', rfl, by rw [List.nil_append, gapFrom, if_pos (by decide),
        Bool.not_false, Bool.or_true]⟩
    | cons c text ih =>
        intro m
        obtain ⟨hc, htext⟩ := List.forall_mem_cons.1 h
        obtain ⟨m', hcolumn, heq⟩ := ih htext (m.after c)
        refine ⟨m', hcolumn, ?_⟩
        rw [List.cons_append, gapFrom, if_neg (by simp [isBreak_of_isPrintable hc]),
          if_pos (by rfl), heq]
  exact inside (m.after '#')

end

/-! ## Steps of the scanner -/

/-- One step of the scanner. -/
def advance (s : Scanner) : Except Malformation Scanner := do (← s.settle).fetch

/-- A number of steps lead from one state to another, and the text has not ended with any. -/
inductive Leads : Nat → Scanner → Scanner → Prop
  | none {s : Scanner} : Leads 0 s s
  | next {n : Nat} {s t u : Scanner} (step : s.advance = .ok t)
    (goes : t.tokens.head?.map Sign.token ≠ some .streamEnd) (rest : Leads n t u) :
    Leads (n + 1) s u

theorem Leads.trans {n k : Nat} {s t u : Scanner} (h : Leads n s t) (h' : Leads k t u) :
    Leads (k + n) s u := by
  induction h with
  | none => exact h'
  | next step goes _ ih => exact .next step goes (ih h')

theorem run_of_leads {n : Nat} {s t : Scanner} (h : Leads n s t) (fuel ready : Nat) :
    ∃ ready', run (fuel + n) s ready = run fuel t ready' := by
  induction h generalizing ready with
  | none => exact ⟨ready, rfl⟩
  | @next n s t u step goes _ ih =>
      unfold advance at step
      cases hsettle : s.settle with
      | error m =>
          rw [hsettle] at step
          cases step
      | ok s' =>
          rw [hsettle] at step
          obtain ⟨ready', heq⟩ := ih s'.settledCount
          refine ⟨ready', ?_⟩
          have step : s'.fetch = .ok t := step
          rw [← Nat.add_assoc, run, hsettle]
          simp only [step]
          rw [if_neg goes, heq]

/-- The scanner is in no flow collection and waits for no colon. Here are the tokens that it has
found, and a mapping may have begun at the first column. -/
structure Found (s : Scanner) (begun : Bool) (tokens : List Token) : Prop where
  candidate : s.candidate = none
  outer : s.outer = []
  indents : s.indents = if begun then [0] else []
  count : s.count = s.tokens.length
  tokens : s.tokens.reverse.map Sign.token = tokens

/-- Behind the gap in front of the scanner the text goes on as from the beginning of a line. -/
structure AtLines (s : Scanner) (begun : Bool) (tokens : List Token) (text : List Char) : Prop
    extends Found s begun tokens where
  gap : ∃ m : Mark, m.column = 0 ∧
    gapFrom false false s.keyAllowed s.cursor.mark s.cursor.rest = gapFrom false false true m text

/-- The scanner is behind the colon of a key. -/
structure AtValue (s : Scanner) (tokens : List Token) (text : List Char) : Prop
    extends Found s true tokens where
  keyAllowed : s.keyAllowed = false
  rest : s.cursor.rest = text
  column : 1 ≤ s.cursor.mark.column

variable {s : Scanner} {begun : Bool} {tokens : List Token}

/-- Nothing is settled where the only candidate for a key has not lapsed. -/
theorem settle_eq_self (outer : s.outer = [])
    (fresh : ∀ c ∈ s.candidate, lapsed s.mark c = false) : s.settle = .ok s := by
  obtain ⟨cursor, found, count, candidate, _, indents, keyAllowed⟩ := s
  cases outer
  cases candidate with
  | none => rfl
  | some c =>
      have hfresh := fresh c rfl
      have hone : settleOne cursor.mark (some c) = .ok (some c) := by
        rw [settleOne]
        exact if_neg (by rw [show lapsed cursor.mark c = false from hfresh]; decide)
      unfold settle
      simp only [mark, hone]
      rfl

/-- Nothing is closed in a column that the innermost collection reaches. -/
theorem closeBlocks_eq_self {column : Int} (h : ∀ n ∈ s.indents.head?, (n : Int) ≤ column) :
    s.closeBlocks column = s := by
  unfold closeBlocks
  have hopen : s.indents.takeWhile (fun n : Nat => decide (column < (n : Int))) = [] := by
    cases hindents : s.indents with
    | nil => rfl
    | cons n rest =>
        have hn := h n (by rw [hindents]; rfl)
        rw [List.takeWhile_cons_of_neg (by simpa using hn)]
  split
  · rfl
  · simp only [hopen]
    rfl

/-- A step passes the gap and then reads what begins behind it. -/
theorem advance_eq (outer : s.outer = [])
    (indents : s.indents.head? = none ∨ s.indents.head? = some 0)
    {c : Cursor} {keyAllowed : Bool}
    (gap : gapFrom false false s.keyAllowed s.cursor.mark s.cursor.rest = (c, keyAllowed))
    (fresh : ∀ d ∈ s.candidate, lapsed s.mark d = false ∧ lapsed c.mark d = false) :
    s.advance = fetchHere { s with cursor := c, keyAllowed := keyAllowed } := by
  have inFlow : s.inFlow = false := by rw [Scanner.inFlow, outer]; rfl
  have passed : s.skipGap = { s with cursor := c, keyAllowed := keyAllowed } := by
    rw [skipGap, inFlow, gap]
  have settled : s.advance = s.fetch := by
    rw [advance, settle_eq_self outer fun d hd => (fresh d hd).1]
    rfl
  rw [settled, fetch, passed, settle_eq_self (s := { s with cursor := c, keyAllowed := keyAllowed })
    outer fun d hd => (fresh d hd).2]
  refine congrArg fetchHere (closeBlocks_eq_self fun n hn => ?_)
  rcases indents with h | h <;> rw [h] at hn <;> cases hn
  exact Int.natCast_nonneg c.mark.column

theorem Found.advance (h : Found s begun tokens) {c : Cursor} {keyAllowed : Bool}
    (gap : gapFrom false false s.keyAllowed s.cursor.mark s.cursor.rest = (c, keyAllowed)) :
    s.advance = fetchHere { s with cursor := c, keyAllowed := keyAllowed } := by
  refine advance_eq h.outer ?_ gap ?_
  · rw [h.indents]
    cases begun
    · exact .inl rfl
    · exact .inr rfl
  · rw [h.candidate]
    exact nofun

theorem fetchHere_of_isLiteral {c : Char} {rest : List Char} (hrest : s.cursor.rest = c :: rest)
    (hc : isLiteral c = true) : s.fetchHere = s.fetchPlain := by
  have hne (d : Char) (hd : isLiteral d = false) : c ≠ d := ne_of_isLiteral hc hd
  have hbegins : beginsPlain s.inFlow c rest = true := by
    simp [beginsPlain, isSpacing_of_isLiteral hc, isBreak_of_isLiteral hc,
      isIndicator_of_isLiteral hc]
  unfold fetchHere
  rw [hrest]
  simp [hbegins, atDocumentMark_of_isLiteral hc, hne '%' rfl, hne '[' rfl, hne '\x7b' rfl,
    hne ']' rfl, hne '\x7d' rfl, hne ',' rfl, hne '-' rfl, hne '?' rfl, hne ':' rfl, hne '*' rfl,
    hne '&' rfl, hne '!' rfl, hne '|' rfl, hne '>' rfl, hne '\'' rfl, hne '"' rfl]

theorem fetchPlain_of_read {s' : Scanner} {r : Plain.Reading} (marked : s.markCandidate = .ok s')
    (read : Plain.read s'.inFlow (s'.indent + 1).toNat s'.cursor = .ok r) :
    s.fetchPlain =
      .ok { (s'.emit (.scalar .plain r.text)).moveTo r.after with keyAllowed := r.brokeLine } := by
  rw [fetchPlain, marked]
  change (Plain.read s'.inFlow (s'.indent + 1).toNat s'.cursor).bind _ = _
  rw [read]
  rfl

theorem fetchHere_colon {rest : List Char} (hrest : s.cursor.rest = ':' :: ' ' :: rest) :
    s.fetchHere = s.fetchValue := by
  unfold fetchHere
  rw [hrest]
  simp [Cursor.atDocumentMark, atGap, isSpacing]

/-- The first key of a mapping begins it. -/
def opening (begun : Bool) : List Token := if begun then [] else [.blockMapping]

/-- A key is read with the colon behind it. -/
theorem AtLines.key {key rest : List Char}
    (h : AtLines s begun tokens (key ++ ':' :: ' ' :: rest)) (nonempty : key ≠ [])
    (literal : ∀ c ∈ key, isLiteral c = true) (short : key.length ≤ 1024) :
    ∃ t, Leads 2 s t ∧ AtValue t
      (tokens ++ (opening begun ++ [.key, .scalar .plain (String.ofList key), .value]))
      (' ' :: rest) := by
  obtain ⟨found, m, hcolumn, gap⟩ := h
  have hc := literal (key.head nonempty) (List.head_mem nonempty)
  have hhead : key ++ ':' :: ' ' :: rest =
      key.head nonempty :: (key.tail ++ ':' :: ' ' :: rest) := by
    rw [← List.cons_append, List.cons_head_tail]
  rw [hhead, gapFrom_of_isLiteral hc, ← hhead] at gap
  have hstep := found.advance gap
  rw [fetchHere_of_isLiteral (s := { s with cursor := _, keyAllowed := true }) hhead hc] at hstep
  obtain ⟨cursor, read, count, candidate, outer, indents, keyAllowed⟩ := s
  obtain ⟨rfl, rfl, hindents, hcount, htokens⟩ := found
  change indents = _ at hindents
  have hindent : ((indent ⟨cursor, read, count, none, [], indents, true⟩) + 1).toNat ≤ 1 := by
    rw [hindents]
    cases begun <;> simp [indent]
  let place : Cursor := ⟨m, key ++ ':' :: ' ' :: rest⟩
  let required := decide (indent ⟨cursor, read, count, none, [], indents, true⟩ = m.column)
  have marked : markCandidate ⟨place, read, count, none, [], indents, true⟩ =
      .ok ⟨place, read, count, some ⟨count, required, m⟩, [], indents, true⟩ :=
    rfl
  let t : Scanner := ⟨⟨m.past key.length, ':' :: ' ' :: rest⟩,
    ⟨.scalar .plain (String.ofList key), m⟩ :: read, count + 1, some ⟨count, required, m⟩, [],
    indents, false⟩
  have first : advance ⟨cursor, read, count, none, [], indents, keyAllowed⟩ = .ok t :=
    hstep.trans (fetchPlain_of_read marked (Plain.read_word literal hindent m rest))
  have fresh : lapsed t.mark ⟨count, required, m⟩ = false := by
    have hindex : ¬ m.index + 1024 < m.index + key.length := by omega
    simp [lapsed, t, mark, Mark.past, hindex]
  have second : t.advance = t.fetchValue := by
    refine (advance_eq rfl ?_ rfl ?_).trans (fetchHere_colon rfl)
    · change indents.head? = none ∨ indents.head? = some 0
      rw [hindents]
      cases begun
      · exact .inl rfl
      · exact .inr rfl
    · rintro _ ⟨⟩
      exact ⟨fresh, fresh⟩
  have third : t.fetchValue = .ok ⟨⟨(m.past key.length).past 1, ' ' :: rest⟩,
      ⟨.value, m.past key.length⟩ :: ⟨.scalar .plain (String.ofList key), m⟩ :: ⟨.key, m⟩ ::
        ((opening begun).map (Sign.mk · m) ++ read), count + 3 + (opening begun).length, none, [],
      [0], false⟩ := by
    have hlater : count + 1 + 1 - count = 2 := by omega
    cases begun <;> cases hindents <;> simp [fetchValue, t, emitAt, openBlock, inFlow, indent,
      hcolumn, emitPast, emit, moveTo, opening, Cursor.drop, Cursor.next, Mark.past, Mark.after,
      isBreak, mark, hlater]
  refine ⟨_, .next first ?_ (.next (second.trans third) ?_ .none), ⟨rfl, rfl, rfl, ?_, ?_⟩, rfl,
    rfl, Nat.le_add_left 1 _⟩
  · rintro ⟨⟩
  · rintro ⟨⟩
  · change count = read.length at hcount
    cases begun <;> simp [opening, hcount]
  · change read.reverse.map Sign.token = tokens at htokens
    cases begun <;> simp [opening, ← htokens]

theorem AtLines.comment {text rest : List Char}
    (h : AtLines s begun tokens ('#' :: (text ++ '\n' :: rest)))
    (printable : ∀ c ∈ text, isPrintable c = true) : AtLines s begun tokens rest := by
  obtain ⟨found, m, -, gap⟩ := h
  obtain ⟨m', hcolumn, passed⟩ := @gapFrom_comment true text printable m rest
  exact ⟨found, m', hcolumn, gap.trans passed⟩

theorem fetchHere_flowSequence {rest : List Char} (hrest : s.cursor.rest = '[' :: rest) :
    s.fetchHere = s.fetchFlowStart .flowSequence := by
  unfold fetchHere
  rw [hrest]
  simp [Cursor.atDocumentMark]

theorem fetchHere_flowSequenceEnd {rest : List Char} (hrest : s.cursor.rest = ']' :: rest) :
    s.fetchHere = s.fetchFlowEnd .flowSequenceEnd := by
  unfold fetchHere
  rw [hrest]
  simp [Cursor.atDocumentMark]

/-- An empty sequence is read as a value, and the line behind it is over. -/
theorem AtValue.list {text : List Char} (h : AtValue s tokens (' ' :: '[' :: ']' :: '\n' :: text)) :
    ∃ t, Leads 2 s t ∧
      AtLines t true (tokens ++ [.flowSequence, .flowSequenceEnd]) text := by
  obtain ⟨found, hkey, hrest, -⟩ := h
  obtain ⟨⟨m, _⟩, read, count, candidate, outer, indents, keyAllowed⟩ := s
  cases hkey
  cases hrest
  have gap : gapFrom false false false m (' ' :: '[' :: ']' :: '\n' :: text) =
      (⟨m.past 1, '[' :: ']' :: '\n' :: text⟩, false) := rfl
  have first := found.advance gap
  obtain ⟨rfl, rfl, rfl, hcount, htokens⟩ := found
  let t : Scanner := ⟨⟨(m.past 1).past 1, ']' :: '\n' :: text⟩, ⟨.flowSequence, m.past 1⟩ :: read,
    count + 1, none, [none], [0], true⟩
  let u : Scanner := ⟨⟨((m.past 1).past 1).past 1, '\n' :: text⟩,
    ⟨.flowSequenceEnd, (m.past 1).past 1⟩ :: ⟨.flowSequence, m.past 1⟩ :: read,
    count + 1 + 1, none, [], [0], false⟩
  have second : t.advance = t.fetchHere := rfl
  refine ⟨u, .next (t := t) (first.trans (fetchHere_flowSequence rfl)) nofun
    (.next (second.trans (fetchHere_flowSequenceEnd rfl)) nofun .none),
    ⟨rfl, rfl, rfl, ?_, ?_⟩, (((m.past 1).past 1).past 1).after '\n', rfl, gapFrom_newline _ text⟩
  · change count = read.length at hcount
    simp [u, hcount]
  · change read.reverse.map Sign.token = tokens at htokens
    simp [u, ← htokens]

/-- The words of a scalar, without the blanks in front of them and behind them. -/
def stripped (words : List Char) : List Char :=
  (words.dropWhile (· = ' ')).rdropWhile (· = ' ')

/-- The token of the scalar that some words are, if there are any. -/
def scalarTokens (words : List Char) : List Token :=
  if words.dropWhile (· = ' ') = [] then [] else [.scalar .plain (String.ofList (stripped words))]

/-- Words and blanks are read as a value, and the line behind them is over. -/
theorem AtValue.scalar {words text : List Char}
    (h : AtValue s tokens (' ' :: (words ++ '\n' :: text)))
    (plain : ∀ c ∈ words, c = ' ' ∨ isLiteral c = true) (begins : Plain.BeginsLine text) :
    ∃ n t, n ≤ 1 ∧ Leads n s t ∧ AtLines t true (tokens ++ scalarTokens words) text := by
  obtain ⟨found, hkey, hrest, hcolumn⟩ := h
  obtain ⟨⟨m, _⟩, read, count, candidate, outer, indents, keyAllowed⟩ := s
  cases hkey
  cases hrest
  have hblanks : ∀ c ∈ ' ' :: words.takeWhile (· = ' '), c = ' ' :=
    List.forall_mem_cons.2 ⟨rfl, fun c hc => by simpa using List.mem_takeWhile_imp hc⟩
  have hparts : ' ' :: (words ++ '\n' :: text) =
      (' ' :: words.takeWhile (· = ' ')) ++ (words.dropWhile (· = ' ') ++ '\n' :: text) := by
    rw [← List.append_assoc, List.cons_append, List.takeWhile_append_dropWhile]
    rfl
  have gap := @gapFrom_blanks false false _ hblanks m (words.dropWhile (· = ' ') ++ '\n' :: text)
  rw [← hparts] at gap
  generalize m.past (' ' :: words.takeWhile (· = ' ')).length = m' at gap
  unfold scalarTokens
  cases hwords : words.dropWhile (· = ' ') with
  | nil =>
      rw [hwords, List.nil_append, gapFrom_newline] at gap
      refine ⟨0, _, Nat.zero_le 1, .none, ?_⟩
      rw [if_pos rfl, List.append_nil]
      exact ⟨found, m'.after '\n', rfl, gap⟩
  | cons c rest =>
      have hplain : ∀ d ∈ c :: rest, d = ' ' ∨ isLiteral d = true := fun d hd =>
        plain d ((List.dropWhile_sublist _).subset (hwords ▸ hd))
      have hblank : c ≠ ' ' := by
        have hhead := List.head?_dropWhile_not (fun c => decide (c = ' ')) words
        rw [hwords] at hhead
        simpa using hhead
      have hc : isLiteral c = true := (hplain c List.mem_cons_self).resolve_left hblank
      rw [hwords, List.cons_append, gapFrom_of_isLiteral hc] at gap
      let place : Cursor := ⟨m', c :: (rest ++ '\n' :: text)⟩
      let here : Scanner := ⟨place, read, count, candidate, outer, indents, false⟩
      have hstep := (found.advance gap).trans (fetchHere_of_isLiteral (s := here) rfl hc)
      obtain ⟨rfl, rfl, rfl, hcount, htokens⟩ := found
      have marked : markCandidate ⟨place, read, count, none, [], [0], false⟩ =
          .ok ⟨place, read, count, none, [], [0], false⟩ :=
        rfl
      have hread := fetchPlain_of_read marked (Plain.read_words hplain m' begins)
      refine ⟨1, _, Nat.le_refl 1, .next (hstep.trans hread) nofun .none, ⟨rfl, rfl, rfl, ?_, ?_⟩,
        (m'.past (c :: rest).length).after '\n', rfl, rfl⟩
      · change count = read.length at hcount
        exact congrArg (· + 1) hcount
      · change read.reverse.map Sign.token = tokens at htokens
        rw [if_neg nofun, stripped, hwords, ← htokens]
        simp [emit, moveTo]

/-- At the end of the text the mapping is closed. -/
theorem AtLines.end (h : AtLines s true tokens []) :
    ∃ t, s.advance = .ok t ∧ t.tokens.head?.map Sign.token = some .streamEnd ∧
      t.settle = .ok t ∧
      (t.firstTokens t.count).map Sign.token = tokens ++ [.blockEnd, .streamEnd] := by
  obtain ⟨found, ⟨index, line, column⟩, hcolumn, gap⟩ := h
  cases hcolumn
  have hstep := found.advance gap
  obtain ⟨cursor, read, count, candidate, outer, indents, keyAllowed⟩ := s
  obtain ⟨rfl, rfl, rfl, hcount, htokens⟩ := found
  change read.reverse.map Sign.token = tokens at htokens
  let m : Mark := ⟨index, line, 0⟩
  let t : Scanner := ⟨⟨m, []⟩, ⟨.streamEnd, m⟩ :: ⟨.blockEnd, m⟩ :: read, count + 1 + 1, none, [],
    [], false⟩
  have ended : fetchEnd ⟨⟨m, []⟩, read, count, none, [], [0], true⟩ = .ok t := rfl
  refine ⟨t, hstep.trans ended, rfl, rfl, ?_⟩
  rw [firstTokens, Nat.sub_self]
  simp [t, ← htokens]

end Scanner

end SchemaLedger.Yaml
