import Mathlib.Data.List.DropRight
import SchemaLedger.Yaml.Token.Scan

/-!
# Words of plain scalars

Letters, digits and underscores mean nothing but themselves in a YAML text, wherever they stand.
So words of them with blanks between are read as they are written. In front of a colon a word is
a scalar, `Plain.read_word`, and words that end with their line are one without the blanks at the
end, `Plain.read_words`: `Plain.Holds` is the invariant, that what has been read and the gap
behind it are the text so far.
-/

namespace SchemaLedger.Yaml

/-! ## Characters -/

/-- A letter, a digit or an underscore. These mean nothing but themselves wherever they stand. -/
def isLiteral (c : Char) : Bool := c.isAlphanum || c == '_'

/-- What holds of the literal characters among the first 128 holds of them all. -/
theorem of_isLiteral {p : Char → Prop}
    (ascii : ∀ n < 128, isLiteral (Char.ofNat n) = true → p (Char.ofNat n)) {c : Char}
    (h : isLiteral c = true) : p c := by
  have hc : c.toNat < 128 := by
    have below (last : Char) (hlast : last.toNat < 128) (hle : c.val ≤ last.val) : c.toNat < 128 :=
      Nat.lt_of_le_of_lt (UInt32.le_iff_toNat_le.1 hle) hlast
    rcases Bool.or_eq_true_iff.1 h with h | h
    · rcases Bool.or_eq_true_iff.1 h with h | h
      · rcases Bool.or_eq_true_iff.1 h with h | h
        · exact below 'Z' (by decide) (of_decide_eq_true h).2
        · exact below 'z' (by decide) (of_decide_eq_true (Bool.and_eq_true_iff.1 h).2)
      · exact below '9' (by decide) (of_decide_eq_true (Bool.and_eq_true_iff.1 h).2)
    · rw [eq_of_beq h]
      decide
  have hp := ascii c.toNat hc
  rw [Char.ofNat_toNat] at hp
  exact hp h

theorem ne_of_isLiteral {c : Char} (h : isLiteral c = true) {d : Char} (hd : isLiteral d = false) :
    c ≠ d := by
  rintro rfl
  rw [h] at hd
  cases hd

theorem isSpacing_of_isLiteral {c : Char} (h : isLiteral c = true) : isSpacing c = false :=
  of_isLiteral (p := fun c => isSpacing c = false) (by decide) h

theorem isBreak_of_isLiteral {c : Char} (h : isLiteral c = true) : isBreak c = false :=
  of_isLiteral (p := fun c => isBreak c = false) (by decide) h

theorem isIndicator_of_isLiteral {c : Char} (h : isLiteral c = true) :
    Scanner.isIndicator c = false :=
  of_isLiteral (p := fun c => Scanner.isIndicator c = false) (by decide +kernel) h

theorem atDocumentMark_of_isLiteral {c : Char} (h : isLiteral c = true) (column : Nat)
    (rest : List Char) : Cursor.atDocumentMark column (c :: rest) = false := by
  have hdash : c ≠ '-' := ne_of_isLiteral h (by decide)
  have hdot : c ≠ '.' := ne_of_isLiteral h (by decide)
  unfold Cursor.atDocumentMark
  split
  · next heq => exact absurd (List.cons.inj heq).1 hdash
  · next heq => exact absurd (List.cons.inj heq).1 hdot
  · exact Bool.and_false _

/-! ## Places -/

/-- The place a number of characters further in the line. -/
def Mark.past (m : Mark) (n : Nat) : Mark := ⟨m.index + n, m.line, m.column + n⟩

theorem Mark.past_past (m : Mark) (n k : Nat) : (m.past n).past k = m.past (n + k) := by
  simp [past, Nat.add_assoc]

theorem Mark.after_eq_past (m : Mark) {c : Char} (h : isBreak c = false) :
    m.after c = m.past 1 := by
  rw [after, if_neg (by simp [h])]
  rfl

/-! ## Plain scalars -/

namespace Plain

/-- What has been read and the gap behind it make up a text, in reverse order. The gap has no
line break, and all blanks at the end of the text are in it. -/
structure Holds (gap : Gap) (out text : List Char) : Prop where
  inLine : gap.hasBreak = false
  blanks : gap.folded = text.takeWhile (· = ' ')
  words : out = text.dropWhile (· = ' ')

theorem Holds.start : Holds .none [] [] := ⟨rfl, rfl, rfl⟩

theorem Holds.blank {gap : Gap} {out text : List Char} (h : Holds gap out text) :
    Holds (gap.spacing ' ') out (' ' :: text) := by
  obtain ⟨inLine, blanks, words⟩ := h
  refine ⟨?_, ?_, words⟩
  · cases gap <;> first | rfl | cases inLine
  · rw [List.takeWhile_cons_of_pos rfl, ← blanks]
    cases gap <;> first | rfl | cases inLine

theorem Holds.append {gap : Gap} {out text : List Char} (h : Holds gap out text) :
    gap.folded ++ out = text := by
  rw [h.blanks, h.words, List.takeWhile_append_dropWhile]

theorem Holds.literal {gap : Gap} {out text : List Char} (h : Holds gap out text) {c : Char}
    (hc : c ≠ ' ') : Holds .none (c :: (gap.folded ++ out)) (c :: text) := by
  rw [h.append]
  refine ⟨rfl, ?_, ?_⟩
  · rw [List.takeWhile_cons_of_neg (by simpa using hc)]
    rfl
  · rw [List.dropWhile_cons_of_neg (by simpa using hc)]

section

variable {indent : Nat} {start m : Mark} {gap : Gap} {out text : List Char}

/-- Words and blanks are read to their end, as long as they stay in their line. -/
theorem readFrom_append {s : List Char} (plain : ∀ c ∈ s, c = ' ' ∨ isLiteral c = true)
    (hindent : indent ≤ 1) (holds : Holds gap out text) (place : gap = .none ∨ 1 ≤ m.column)
    (rest : List Char) : ∃ gap' out', Holds gap' out' (s.reverse ++ text) ∧
      readFrom false indent start m gap out (s ++ rest) =
        readFrom false indent start (m.past s.length) gap' out' rest := by
  induction s generalizing m gap out text with
  | nil => exact ⟨gap, out, holds, rfl⟩
  | cons c s ih =>
      obtain ⟨hc, hs⟩ := List.forall_mem_cons.1 plain
      rcases hc with rfl | hc
      · obtain ⟨gap', out', holds', heq⟩ := ih hs (m := m.past 1) holds.blank
          (.inr (Nat.le_add_left 1 m.column))
        refine ⟨gap', out', by simpa using holds', ?_⟩
        rw [Mark.past_past, Nat.add_comm] at heq
        rw [List.cons_append, readFrom, if_pos (by decide), holds.inLine]
        exact heq
      · have hblank : c ≠ ' ' := fun heq => by rw [heq] at hc; exact absurd hc (by decide)
        have hhash : c ≠ '#' := fun heq => by rw [heq] at hc; exact absurd hc (by decide)
        have hcolon : c ≠ ':' := fun heq => by rw [heq] at hc; exact absurd hc (by decide)
        obtain ⟨gap', out', holds', heq⟩ := ih hs (m := m.past 1) (holds.literal hblank) (.inl rfl)
        refine ⟨gap', out', by simpa using holds', ?_⟩
        have hword : endsBeforeWord false indent m gap (c :: (s ++ rest)) = false := by
          unfold endsBeforeWord
          rw [atDocumentMark_of_isLiteral hc]
          rcases place with rfl | place
          · simp [hhash]
          · have hcolumn : ¬ m.column < indent := by omega
            simp [hhash, hcolumn]
        rw [List.cons_append, readFrom, if_neg (by simp [isSpacing_of_isLiteral hc]),
          if_neg (by simp [isBreak_of_isLiteral hc]), hword, Bool.and_false, if_neg (by decide),
          if_neg (by simp [isMisplacedColon]), if_neg (by simp [endsWord, hcolon]),
          m.after_eq_past (isBreak_of_isLiteral hc), heq, Mark.past_past, Nat.add_comm]
        rfl

theorem readFrom_colon (inLine : gap.hasBreak = false) (rest : List Char) :
    readFrom false indent start m gap out (':' :: ' ' :: rest) =
      .ok ⟨String.ofList out.reverse, ⟨m, ':' :: ' ' :: rest⟩, false⟩ := by
  have hodd : ¬ isMisplacedColon false ':' (' ' :: rest) = true := by simp [isMisplacedColon]
  have hends : endsWord false ':' (' ' :: rest) = true := rfl
  rw [readFrom, if_neg (by decide), if_neg (by decide), if_neg hodd, if_pos hends, inLine, ite_self]

/-- Nothing, or what begins with neither a blank nor a line break. -/
def BeginsLine (text : List Char) : Prop :=
  ∀ c ∈ text.head?, isSpacing c = false ∧ isBreak c = false

theorem readFrom_newline (inLine : gap.hasBreak = false) {rest : List Char}
    (begins : BeginsLine rest) : readFrom false 1 start m gap out ('\n' :: rest) =
      .ok ⟨String.ofList out.reverse, ⟨m.after '\n', rest⟩, true⟩ := by
  have hnewline : gap.newline '\n' = .breaks (some '\n') [] := by
    cases gap with
    | breaks first more => cases inLine
    | _ => rfl
  rw [readFrom, if_neg (by decide), if_pos (by decide), hnewline]
  cases rest with
  | nil => rfl
  | cons c rest =>
      obtain ⟨hspacing, hbreak⟩ := begins c rfl
      have hends : (betweenWords (.breaks (some '\n') []) out && endsBeforeWord false 1
          (m.after '\n') (.breaks (some '\n') []) (c :: rest)) = true :=
        rfl
      rw [readFrom, if_neg (by simp [hspacing]), if_neg (by simp [hbreak]), if_pos hends]
      rfl

/-- A word in front of a colon is a scalar. -/
theorem read_word {word : List Char} (literal : ∀ c ∈ word, isLiteral c = true)
    (hindent : indent ≤ 1) (m : Mark) (rest : List Char) :
    read false indent ⟨m, word ++ ':' :: ' ' :: rest⟩ =
      .ok ⟨String.ofList word, ⟨m.past word.length, ':' :: ' ' :: rest⟩, false⟩ := by
  obtain ⟨gap, out, holds, heq⟩ := @readFrom_append indent m m _ _ _ word
    (fun c hc => .inr (literal c hc)) hindent .start (.inl rfl) (':' :: ' ' :: rest)
  have hout : out = word.reverse := by
    rw [holds.words, List.append_nil]
    cases hword : word.reverse with
    | nil => rfl
    | cons c more =>
        have hc : c ∈ word := List.mem_reverse.1 (by rw [hword]; exact List.mem_cons_self)
        have hblank : c ≠ ' ' := ne_of_isLiteral (literal c hc) (by decide)
        rw [List.dropWhile_cons_of_neg (by simpa using hblank)]
  rw [read, heq, readFrom_colon holds.inLine, hout, List.reverse_reverse]

/-- Words and blanks to the end of a line are a scalar without the blanks at the end, if the
next line begins further out. -/
theorem read_words {words : List Char} (plain : ∀ c ∈ words, c = ' ' ∨ isLiteral c = true)
    (m : Mark) {rest : List Char} (begins : BeginsLine rest) :
    read false 1 ⟨m, words ++ '\n' :: rest⟩ =
      .ok ⟨String.ofList (words.rdropWhile (· = ' ')),
        ⟨(m.past words.length).after '\n', rest⟩, true⟩ := by
  obtain ⟨gap, out, holds, heq⟩ := @readFrom_append 1 m m _ _ _ words plain (Nat.le_refl 1) .start
    (.inl rfl) ('\n' :: rest)
  rw [read, heq, readFrom_newline holds.inLine begins, holds.words, List.append_nil]
  rfl

end

end Plain

end SchemaLedger.Yaml
