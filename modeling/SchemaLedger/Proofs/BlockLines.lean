import SchemaLedger.Proofs.ScannerSteps
import SchemaLedger.Yaml.Node.OfTokens

/-!
# Lines of a block mapping

The simplest documents are mappings with an entry on each line: a key and a scalar behind it, or
a key and an empty sequence. Comments may stand between them. What such lines mean is plain,
`Line.binding?`, and the reader of documents finds just that, `Document.ofText_lines`, whatever
the words of the scalars are.

The scanner takes a few steps through each line, no more than the line has characters. The
composer takes the tokens of one line after the other, and between them waits for a key or the
end; where a scalar has no words, the key may come in its place.
-/

namespace SchemaLedger.Yaml

/-! ## Lines -/

/-- A line of a block mapping. -/
inductive Line where
  | comment (text : List Char)
  | scalar (key words : List Char)
  | list (key : List Char)

namespace Line

/-- The line as it is written. -/
def text : Line → List Char
  | .comment text => '#' :: (text ++ ['\n'])
  | .scalar key words => key ++ ':' :: ' ' :: (words ++ ['\n'])
  | .list key => key ++ ':' :: ' ' :: ['[', ']', '\n']

/-- The line has an entry of the mapping. -/
def isEntry : Line → Bool
  | .comment _ => false
  | .scalar .. | .list _ => true

/-- The entry of a line. -/
def binding? : Line → Option (Node × Node)
  | .comment _ => none
  | .scalar key words => some (.scalar none ⟨.plain, none, String.ofList key⟩,
      .scalar none ⟨.plain, none, String.ofList (Scanner.stripped words)⟩)
  | .list key => some (.scalar none ⟨.plain, none, String.ofList key⟩, .sequence none none [])

/-- The tokens of a line. -/
def tokens (begun : Bool) : Line → List Token
  | .comment _ => []
  | .scalar key words => Scanner.opening begun ++
      [.key, .scalar .plain (String.ofList key), .value] ++ Scanner.scalarTokens words
  | .list key => Scanner.opening begun ++
      [.key, .scalar .plain (String.ofList key), .value] ++ [.flowSequence, .flowSequenceEnd]

/-- Keys are words that are not too long, and scalars are words with blanks between them. -/
inductive Proper : Line → Prop
  | comment {text : List Char} (printable : ∀ c ∈ text, Scanner.isPrintable c = true) :
    Proper (.comment text)
  | scalar {key words : List Char} (nonempty : key ≠ []) (literal : ∀ c ∈ key, isLiteral c = true)
    (short : key.length ≤ 1024) (plain : ∀ c ∈ words, c = ' ' ∨ isLiteral c = true) :
    Proper (.scalar key words)
  | list {key : List Char} (nonempty : key ≠ []) (literal : ∀ c ∈ key, isLiteral c = true)
    (short : key.length ≤ 1024) : Proper (.list key)

/-- The lines of a text, one behind the other. -/
def textOf (lines : List Line) : List Char := lines.flatMap text

/-- The tokens of lines, where the first entry begins the mapping. -/
def tokensOf (begun : Bool) : List Line → List Token
  | [] => []
  | line :: rest => line.tokens begun ++ tokensOf (begun || line.isEntry) rest

theorem beginsLine_of_proper {line : Line} (h : line.Proper) (rest : List Char) :
    Plain.BeginsLine (line.text ++ rest) := by
  have literal {key : List Char} (nonempty : key ≠ []) (literal : ∀ c ∈ key, isLiteral c = true)
      (rest : List Char) : Plain.BeginsLine (key ++ rest) := by
    intro c hc
    rw [List.head?_append_of_ne_nil _ nonempty] at hc
    have hliteral := literal c (List.mem_of_mem_head? hc)
    exact ⟨isSpacing_of_isLiteral hliteral, isBreak_of_isLiteral hliteral⟩
  cases h with
  | comment printable =>
      rintro _ ⟨⟩
      exact ⟨rfl, rfl⟩
  | scalar nonempty hkey _ _ | list nonempty hkey _ =>
      rw [text, List.append_assoc]
      exact literal nonempty hkey _

theorem beginsLine_textOf {lines : List Line} (h : ∀ line ∈ lines, line.Proper) :
    Plain.BeginsLine (textOf lines) := by
  cases lines with
  | nil => exact nofun
  | cons line rest => exact beginsLine_of_proper (h line List.mem_cons_self) (textOf rest)

end Line

namespace Scanner

open Line

variable {s : Scanner} {begun : Bool} {tokens : List Token}

/-- A line is read to the beginning of the next one, in no more steps than it has characters. -/
theorem AtLines.line {line : Line} {rest : List Char}
    (h : AtLines s begun tokens (line.text ++ rest)) (proper : line.Proper)
    (begins : Plain.BeginsLine rest) : ∃ n t, n ≤ line.text.length ∧ Leads n s t ∧
      AtLines t (begun || line.isEntry) (tokens ++ line.tokens begun) rest := by
  cases proper with
  | @comment words printable =>
      refine ⟨0, s, Nat.zero_le _, .none, ?_⟩
      rw [text, List.cons_append, List.append_assoc] at h
      rw [Line.tokens, List.append_nil, isEntry, Bool.or_false]
      exact h.comment printable
  | @scalar key words nonempty literal short plain =>
      rw [text, List.append_assoc, List.cons_append, List.cons_append, List.append_assoc,
        List.singleton_append] at h
      obtain ⟨t, hkey, atValue⟩ := AtLines.key h nonempty literal short
      obtain ⟨n, u, hn, hwords, atLines⟩ := atValue.scalar plain begins
      refine ⟨n + 2, u, ?_, hkey.trans hwords, ?_⟩
      · rw [text, List.length_append]
        simp only [List.length_cons, List.length_append]
        omega
      · rw [isEntry, Bool.or_true, Line.tokens]
        rwa [List.append_assoc] at atLines
  | @list key nonempty literal short =>
      rw [text, List.append_assoc] at h
      obtain ⟨t, hkey, atValue⟩ := AtLines.key h nonempty literal short
      obtain ⟨u, hlist, atLines⟩ := atValue.list
      refine ⟨2 + 2, u, ?_, hkey.trans hlist, ?_⟩
      · rw [text, List.length_append]
        simp only [List.length_cons, List.length_nil]
        omega
      · rw [isEntry, Bool.or_true, Line.tokens]
        rwa [List.append_assoc] at atLines

theorem AtLines.lines {lines : List Line} (h : AtLines s begun tokens (textOf lines))
    (proper : ∀ line ∈ lines, line.Proper) : ∃ n t, n ≤ (textOf lines).length ∧ Leads n s t ∧
      AtLines t (begun || lines.any isEntry) (tokens ++ tokensOf begun lines) [] := by
  induction lines generalizing s begun tokens with
  | nil =>
      rw [tokensOf, List.append_nil, List.any_nil, Bool.or_false]
      exact ⟨0, s, Nat.zero_le _, .none, h⟩
  | cons line rest ih =>
      obtain ⟨hline, hrest⟩ := List.forall_mem_cons.1 proper
      obtain ⟨n, t, hn, first, atRest⟩ := AtLines.line h hline (beginsLine_textOf hrest)
      obtain ⟨k, u, hk, second, atEnd⟩ := ih atRest hrest
      refine ⟨k + n, u, ?_, first.trans second, ?_⟩
      · change k + n ≤ (line.text ++ textOf rest).length
        rw [List.length_append]
        omega
      · rw [tokensOf, List.any_cons, ← Bool.or_assoc, ← List.append_assoc]
        exact atEnd

/-- The tokens of lines are those of each, within a mapping. -/
theorem run_lines {lines : List Line} (proper : ∀ line ∈ lines, line.Proper)
    (entries : lines.any isEntry = true) : ∃ signs,
      run ((textOf lines).length + 1) { cursor := { rest := textOf lines } } 0 = ⟨signs, none⟩ ∧
      signs.map Sign.token = tokensOf false lines ++ [.blockEnd, .streamEnd] := by
  have start : AtLines { cursor := { rest := textOf lines } } false [] (textOf lines) :=
    ⟨⟨rfl, rfl, rfl, rfl, rfl⟩, {}, rfl, rfl⟩
  obtain ⟨n, s, hn, leads, atEnd⟩ := start.lines proper
  rw [entries, Bool.or_true, List.nil_append] at atEnd
  have settled : s.settle = .ok s :=
    settle_eq_self atEnd.outer (by rw [atEnd.candidate]; exact nofun)
  obtain ⟨t, step, stops, hsettle, htokens⟩ := atEnd.end
  have fetched : s.fetch = .ok t := by
    rw [advance, settled] at step
    exact step
  obtain ⟨ready, hrun⟩ := run_of_leads leads ((textOf lines).length - n + 1) 0
  refine ⟨t.firstTokens t.count, ?_, htokens⟩
  rw [show (textOf lines).length + 1 = (textOf lines).length - n + 1 + n by omega, hrun, run,
    settled]
  simp only [fetched, hsettle]
  rw [if_pos stops]

end Scanner

/-! ## Entries -/

namespace Compose

open Line

/-- The composer waits for an entry of a mapping, of which it has some already, in reverse order.
The mapping may not have begun, and the value of the last entry may be left out. -/
inductive Awaits : Bool → State → List (Node × Node) → Prop
  | start : Awaits false { stack := [] } []
  | key {m : Mark} {done : List (Node × Node)} :
    Awaits true { stack := [.key .block { mark := m } done], stage := .between } done
  | value {m : Mark} {done : List (Node × Node)} {key : Node} :
    Awaits true { stack := [.value .block { mark := m } done key] } ((key, .empty) :: done)

variable {s : State} {begun : Bool} {done : List (Node × Node)}

theorem exists_of_map_token {signs : List Sign} {t : Token} {ts : List Token}
    (h : signs.map Sign.token = t :: ts) :
    ∃ m more, signs = ⟨t, m⟩ :: more ∧ more.map Sign.token = ts := by
  obtain ⟨⟨_, m⟩, more, rfl, rfl, hmore⟩ := List.map_eq_cons_iff.1 h
  exact ⟨m, more, rfl, hmore⟩

theorem Awaits.content_key (h : Awaits begun s done) {key : String} {signs : List Sign}
    (hsigns : signs.map Sign.token = Scanner.opening begun ++ [.key, .scalar .plain key, .value])
    (rest : List Sign) : ∃ m, content none s (signs ++ rest) = content none
      { stack := [.value .block { mark := m } done (.scalar none ⟨.plain, none, key⟩)] } rest := by
  cases h with
  | start =>
      obtain ⟨m, more, rfl, hopened⟩ := exists_of_map_token hsigns
      obtain ⟨_, more, rfl, hkey⟩ := exists_of_map_token hopened
      obtain ⟨_, more, rfl, hscalar⟩ := exists_of_map_token hkey
      obtain ⟨_, more, rfl, hvalue⟩ := exists_of_map_token hscalar
      cases List.map_eq_nil_iff.1 hvalue
      exact ⟨m, rfl⟩
  | @key m _ | @value m _ _ =>
      obtain ⟨_, more, rfl, hkey⟩ := exists_of_map_token hsigns
      obtain ⟨_, more, rfl, hscalar⟩ := exists_of_map_token hkey
      obtain ⟨_, more, rfl, hvalue⟩ := exists_of_map_token hscalar
      cases List.map_eq_nil_iff.1 hvalue
      exact ⟨m, rfl⟩

/-- The tokens of a line make its entry. -/
theorem Awaits.content_line (h : Awaits begun s done) {line : Line} {signs : List Sign}
    (hsigns : signs.map Sign.token = line.tokens begun) (rest : List Sign) : ∃ t,
      Awaits (begun || line.isEntry) t (line.binding?.toList ++ done) ∧
      content none s (signs ++ rest) = content none t rest := by
  cases line with
  | comment text =>
      cases List.map_eq_nil_iff.1 hsigns
      rw [isEntry, Bool.or_false]
      exact ⟨s, h, rfl⟩
  | list key =>
      obtain ⟨first, more, rfl, hfirst, hmore⟩ := List.map_eq_append_iff.1 hsigns
      obtain ⟨m, hkey⟩ := h.content_key hfirst (more ++ rest)
      rw [isEntry, Bool.or_true, List.append_assoc, hkey]
      obtain ⟨_, more, rfl, hopened⟩ := exists_of_map_token hmore
      obtain ⟨_, more, rfl, hclosed⟩ := exists_of_map_token hopened
      cases List.map_eq_nil_iff.1 hclosed
      exact ⟨_, .key, rfl⟩
  | scalar key words =>
      obtain ⟨first, more, rfl, hfirst, hmore⟩ := List.map_eq_append_iff.1 hsigns
      obtain ⟨m, hkey⟩ := h.content_key hfirst (more ++ rest)
      rw [isEntry, Bool.or_true, List.append_assoc, hkey]
      unfold Scanner.scalarTokens at hmore
      split at hmore
      · next hnone =>
          cases List.map_eq_nil_iff.1 hmore
          have hempty : Scanner.stripped words = [] := by rw [Scanner.stripped, hnone]; rfl
          rw [binding?, hempty]
          exact ⟨_, .value, rfl⟩
      · obtain ⟨_, more, rfl, hscalar⟩ := exists_of_map_token hmore
        cases List.map_eq_nil_iff.1 hscalar
        exact ⟨_, .key, rfl⟩

theorem Awaits.content_end (h : Awaits true s done) {signs : List Sign}
    (hsigns : signs.map Sign.token = [.blockEnd, .streamEnd]) :
    content none s signs = ⟨.mapping none none done.reverse, none⟩ := by
  obtain ⟨_, more, rfl, hclosed⟩ := exists_of_map_token hsigns
  obtain ⟨_, more, rfl, hended⟩ := exists_of_map_token hclosed
  cases List.map_eq_nil_iff.1 hended
  cases h <;> rfl

theorem Awaits.content_lines (h : Awaits begun s done) {lines : List Line} {signs : List Sign}
    (hsigns : signs.map Sign.token = tokensOf begun lines ++ [.blockEnd, .streamEnd])
    (entries : (begun || lines.any isEntry) = true) :
    content none s signs =
      ⟨.mapping none none (done.reverse ++ lines.filterMap binding?), none⟩ := by
  induction lines generalizing begun s done signs with
  | nil =>
      rw [List.any_nil, Bool.or_false] at entries
      cases entries
      rw [List.filterMap_nil, List.append_nil]
      exact h.content_end hsigns
  | cons line more ih =>
      rw [tokensOf, List.append_assoc] at hsigns
      obtain ⟨first, rest, rfl, hfirst, hrest⟩ := List.map_eq_append_iff.1 hsigns
      obtain ⟨t, ht, heq⟩ := h.content_line hfirst rest
      rw [heq, ih ht hrest (by rwa [Bool.or_assoc, ← List.any_cons])]
      cases hentry : line.binding? with
      | none => rw [List.filterMap_cons_none hentry]; rfl
      | some entry =>
          rw [List.filterMap_cons_some hentry, Option.toList_some, List.reverse_append,
            List.append_assoc]
          rfl

end Compose

/-! ## Documents -/

namespace Line

theorem head?_tokensOf {lines : List Line} (entries : lines.any isEntry = true) :
    (tokensOf false lines).head? = some .blockMapping := by
  induction lines with
  | nil => cases entries
  | cons line rest ih =>
      cases line with
      | comment text => exact ih entries
      | scalar key words | list key => rfl

theorem isPrintable_of_isLiteral {c : Char} (h : isLiteral c = true) :
    Scanner.isPrintable c = true :=
  of_isLiteral (p := fun c => Scanner.isPrintable c = true) (by decide +kernel) h

theorem Proper.printable {line : Line} (h : line.Proper) :
    ∀ c ∈ line.text, Scanner.isPrintable c = true ∨ c = '\n' := by
  have hkey {key : List Char} (literal : ∀ c ∈ key, isLiteral c = true) :
      ∀ c ∈ key, Scanner.isPrintable c = true ∨ c = '\n' :=
    fun c hc => .inl (isPrintable_of_isLiteral (literal c hc))
  cases h with
  | comment printable =>
      refine List.forall_mem_cons.2 ⟨.inl (by decide), List.forall_mem_append.2 ⟨?_, ?_⟩⟩
      · exact fun c hc => .inl (printable c hc)
      · exact List.forall_mem_singleton.2 (.inr rfl)
  | scalar _ literal _ plain =>
      refine List.forall_mem_append.2 ⟨hkey literal, List.forall_mem_cons.2 ⟨.inl (by decide),
        List.forall_mem_cons.2 ⟨.inl (by decide), List.forall_mem_append.2 ⟨?_, ?_⟩⟩⟩⟩
      · intro c hc
        rcases plain c hc with rfl | hliteral
        · exact .inl (by decide)
        · exact .inl (isPrintable_of_isLiteral hliteral)
      · exact List.forall_mem_singleton.2 (.inr rfl)
  | list _ literal _ =>
      have hsigns : ∀ c ∈ [':', ' ', '[', ']', '\n'],
          (Scanner.isPrintable c || c == '\n') = true := List.all_eq_true.1 rfl
      refine List.forall_mem_append.2 ⟨hkey literal, fun c hc => ?_⟩
      simpa only [Bool.or_eq_true, beq_iff_eq] using hsigns c hc

end Line

theorem unreadableAt?_eq_none {text : List Char} (h : ∀ c ∈ text, isReadable c = true)
    (octets : Nat) : unreadableAt? octets text = none := by
  induction text generalizing octets with
  | nil => rfl
  | cons c rest ih =>
      obtain ⟨hc, hrest⟩ := List.forall_mem_cons.1 h
      rw [unreadableAt?, if_pos hc, ih hrest]

theorem unifyBreaks_eq_self {text : List Char} (h : ∀ c ∈ text, c ≠ '\x0d' ∧ c ≠ '\u0085') :
    unifyBreaks text = text := by
  induction text with
  | nil => rfl
  | cons c rest ih =>
      obtain ⟨⟨hreturn, hnext⟩, hrest⟩ := List.forall_mem_cons.1 h
      unfold unifyBreaks
      split
      · next heq => exact absurd (List.cons.inj heq).1 hreturn
      · next heq => exact absurd (List.cons.inj heq).1 hreturn
      · next heq => exact absurd (List.cons.inj heq).1 hnext
      · next heq =>
          obtain ⟨rfl, rfl⟩ := List.cons.inj heq
          rw [ih hrest]
      · next heq => cases heq

/-- Lines with entries of a mapping are read as that mapping. -/
theorem Document.ofText_lines {lines : List Line} (proper : ∀ line ∈ lines, line.Proper)
    (entries : lines.any Line.isEntry = true) :
    Document.ofText (String.ofList (Line.textOf lines)) =
      ⟨.mapping none none (lines.filterMap Line.binding?), none⟩ := by
  have printable : ∀ c ∈ Line.textOf lines, Scanner.isPrintable c = true ∨ c = '\n' := by
    intro c hc
    obtain ⟨line, hline, hc⟩ := List.mem_flatMap.1 hc
    exact (proper line hline).printable c hc
  have readable : unreadableAt? 0 (Line.textOf lines) = none := by
    refine unreadableAt?_eq_none (fun c hc => ?_) 0
    rcases printable c hc with h | rfl
    · unfold Scanner.isPrintable at h
      simp [isReadable, h]
    · rfl
  have unified : unifyBreaks (Line.textOf lines) = Line.textOf lines := by
    refine unifyBreaks_eq_self fun c hc => ?_
    rcases printable c hc with h | rfl
    · constructor <;> rintro rfl <;> exact absurd h (by decide)
    · decide
  obtain ⟨signs, hrun, hsigns⟩ := Scanner.run_lines proper entries
  have hscan : Scan.ofText (String.ofList (Line.textOf lines)) = ⟨signs, none⟩ := by
    rw [Scan.ofText, String.toList_ofList, readable]
    change Scanner.run _ { cursor := { rest := unifyBreaks (Line.textOf lines) } } 0 = _
    rw [unified, String.length_ofList, hrun]
  have hhead : signs.head?.map Sign.token = some .blockMapping := by
    have hopens := Line.head?_tokensOf entries
    rw [← List.head?_map, hsigns, List.head?_append, hopens]
    rfl
  rw [Document.ofText, hscan, ofScan]
  simp only [hhead]
  exact Compose.Awaits.start.content_lines hsigns entries

end SchemaLedger.Yaml
