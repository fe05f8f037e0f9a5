/-!
# Parts of texts

Texts as lists of characters: what is behind a beginning, and what is on either side of the
first occurrence of a mark.
-/

namespace SchemaLedger.Text

/-- What follows a given beginning. -/
def after? : List Char → List Char → Option (List Char)
  | [], s => some s
  | _ :: _, [] => none
  | p :: ps, c :: rest => if p = c then after? ps rest else none

/-- What stands before and behind the first occurrence of a mark. -/
def cut? (mark : List Char) : List Char → Option (List Char × List Char)
  | [] => (after? mark []).map ([], ·)
  | c :: rest =>
    match after? mark (c :: rest) with
    | some behind => some ([], behind)
    | none => (cut? mark rest).map fun (before, behind) => (c :: before, behind)

/-- Whether a text occurs in another one. -/
def occursIn (part s : String) : Bool :=
  (cut? part.toList s.toList).isSome

/-- The parts of a text between the occurrences of a character. -/
def splitAt (mark : Char) (s : List Char) : List (List Char) :=
  s.foldr (fun c parts =>
    match parts with
    | part :: rest => if c = mark then [] :: part :: rest else (c :: part) :: rest
    | [] => [[c]]) [[]]

theorem after?_append (p s : List Char) : after? p (p ++ s) = some s := by
  induction p with
  | nil => rfl
  | cons c p ih => simp [after?, ih]

theorem splitAt_ne_nil (mark : Char) (s : List Char) : splitAt mark s ≠ [] := by
  cases s with
  | nil => simp [splitAt]
  | cons c rest =>
      unfold splitAt
      rw [List.foldr_cons]
      split
      · split <;> simp
      · simp

theorem splitAt_cons_mark (mark : Char) (s : List Char) :
    splitAt mark (mark :: s) = [] :: splitAt mark s := by
  cases hs : splitAt mark s with
  | nil => exact absurd hs (splitAt_ne_nil mark s)
  | cons part rest =>
      unfold splitAt at hs ⊢
      rw [List.foldr_cons, hs]
      simp

theorem splitAt_of_notMem {mark : Char} {s : List Char} (h : mark ∉ s) : splitAt mark s = [s] := by
  induction s with
  | nil => rfl
  | cons c rest ih =>
      rw [List.mem_cons, not_or] at h
      have hrest := ih h.2
      unfold splitAt at hrest ⊢
      rw [List.foldr_cons, hrest]
      exact if_neg (Ne.symm h.1)

/-- A mark parts a text, whatever other marks are in it. -/
theorem splitAt_append_mark (mark : Char) (before behind : List Char) :
    splitAt mark (before ++ mark :: behind) = splitAt mark before ++ splitAt mark behind := by
  induction before with
  | nil => rw [List.nil_append, splitAt_cons_mark]; rfl
  | cons c rest ih =>
      obtain ⟨part, more, hparts⟩ := List.exists_cons_of_ne_nil (splitAt_ne_nil mark rest)
      rw [hparts] at ih
      unfold splitAt at ih hparts ⊢
      rw [List.cons_append, List.foldr_cons, ih, List.foldr_cons, hparts]
      simp only [List.cons_append]
      split <;> rfl

theorem splitAt_append {mark : Char} {before : List Char} (h : mark ∉ before)
    (behind : List Char) :
    splitAt mark (before ++ mark :: behind) = before :: splitAt mark behind := by
  rw [splitAt_append_mark, splitAt_of_notMem h, List.singleton_append]

/-- The parts do not have the mark in them. -/
theorem notMem_of_mem_splitAt {mark : Char} {s part : List Char}
    (h : part ∈ splitAt mark s) : mark ∉ part := by
  induction s generalizing part with
  | nil =>
      rw [List.mem_singleton.1 h]
      exact List.not_mem_nil
  | cons c rest ih =>
      by_cases hc : c = mark
      · rw [hc, splitAt_cons_mark] at h
        rcases List.mem_cons.1 h with rfl | h
        · exact List.not_mem_nil
        · exact ih h
      · obtain ⟨first, more, hparts⟩ := List.exists_cons_of_ne_nil (splitAt_ne_nil mark rest)
        have hsplit : splitAt mark (c :: rest) = (c :: first) :: more := by
          unfold splitAt at hparts ⊢
          rw [List.foldr_cons, hparts]
          exact if_neg hc
        rw [hparts] at ih
        rw [hsplit] at h
        rcases List.mem_cons.1 h with rfl | h
        · rw [List.mem_cons, not_or]
          exact ⟨Ne.symm hc, ih List.mem_cons_self⟩
        · exact ih (List.mem_cons_of_mem _ h)

end SchemaLedger.Text
