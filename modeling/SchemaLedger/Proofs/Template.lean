import SchemaLedger.Project.Scaffold
import SchemaLedger.Proofs.BlockLines

/-!
# What a scaffold says

The text of a scaffold is made of lines of a block mapping: a description, which is the name
with blanks for its underscores, and two empty lists, with comments between them. The name is
put there without quotes, so what it is read as is a matter of the name. Its letters and digits
are words of a plain scalar, however they are arranged, and blanks around them are no part of
it. A name of underscores only, or one like `null`, leaves the description out; that is the one
difference a name makes.
-/

namespace SchemaLedger

/-! ## Reading without aliases -/

namespace Yaml.Decode

variable {α β σ : Type} {doc : Document}

/-- The reader reads this in a document, and follows no alias for it. -/
def Reads (doc : Document) (d : Decode α) (a : α) : Prop := ∀ k, d doc k = .ok (a, k)

theorem reads_pure (a : α) : Reads doc (pure a) a := fun _ => rfl

theorem reads_bind {d : Decode α} {f : α → Decode β} {a : α} {b : β} (hd : Reads doc d a)
    (hf : Reads doc (f a) b) : Reads doc (d >>= f) b := by
  intro k
  change (d doc k).bind (fun r => f r.1 doc r.2) = _
  rw [hd k]
  exact hf k

theorem reads_located {d : Decode α} {a : α} (h : Reads doc d a) (place : Place) :
    Reads doc (located place d) a := by
  intro k
  rw [located, h k]

theorem reads_enter {spot : Spot} (h : 0 < spot.depth) :
    Reads doc (enter spot) { spot with depth := spot.depth - 1 } := by
  obtain ⟨place, depth⟩ := spot
  cases depth with
  | zero => cases h
  | succ n => exact reads_pure _

theorem reads_textAs (expected : String) (spot : Spot) (anchor : Option Nat) (s : Scalar) :
    Reads doc (textAs expected spot (.scalar anchor s)) s.text :=
  reads_located (reads_bind (reads_pure _) (reads_pure _)) _

/-- A plain word is a text, unless it spells nothing. -/
theorem reads_optional_text (spot : Spot) (words : String) :
    Reads doc (optional text spot (.scalar none ⟨.plain, none, words⟩))
      (if words.isEmpty || Scalar.isNullText words then none else some words) := by
  refine reads_bind (reads_pure _) (reads_bind (reads_pure _) ?_)
  dsimp only
  split
  · exact reads_pure none
  · exact reads_bind (reads_textAs "a string" spot none _) (reads_pure _)

theorem reads_sequence_empty (d : Spot → Node → Decode α) {spot : Spot} (h : 0 < spot.depth) :
    Reads doc (sequence d spot (.sequence none none [])) [] :=
  reads_located (reads_bind (a := Node.sequence none none []) (reads_pure _)
    (reads_bind (reads_enter h) (reads_pure []))) _

/-- Fields that are read one after the other bring a record from one state to another. -/
inductive Fills (doc : Document) (depth : Nat) (field : σ → String → Spot → Node → Decode σ) :
    σ → List (String × Node) → σ → Prop
  | done (acc : σ) : Fills doc depth field acc [] acc
  | next {acc acc' out : σ} {name : String} {n : Node} {rest : List (String × Node)}
    (read : ∀ place, Reads doc (field acc name ⟨place, depth⟩ n) acc')
    (fills : Fills doc depth field acc' rest out) :
    Fills doc depth field acc ((name, n) :: rest) out

/-- A field as it is written, with a plain word for its name. -/
def entryOf (v : String × Node) : Node × Node := (.scalar none ⟨.plain, none, v.1⟩, v.2)

/-- The name of a field of a record. -/
def fieldName (known : List String) (spot : Spot) (n : Node) : Decode String := do
  let name ← textAs "field identifier" spot n
  if name ∈ known then return name else fail (.unknownField name known)

/-- Adds a field to what was read of a record, unless it was read before. -/
def addField (field : σ → String → Spot → Node → Decode σ) (acc : σ × List String) (name : String)
    (spot : Spot) (n : Node) : Decode (σ × List String) := do
  if name ∈ acc.2 then fail (.duplicateField name)
  else return (← field acc.1 name spot n, name :: acc.2)

theorem reads_entriesFrom {known : List String} {field : σ → String → Spot → Node → Decode σ}
    {acc out : σ} {values : List (String × Node)} {spot : Spot} {seen : List String}
    (isKnown : ∀ v ∈ values, v.1 ∈ known) (distinct : (values.map (·.1)).Nodup)
    (fresh : ∀ name ∈ values.map (·.1), name ∉ seen)
    (fills : Fills doc spot.depth field acc values out) :
    Reads doc (entriesFrom (fieldName known) (addField field) spot (acc, seen) (values.map entryOf))
      (out, (values.map (·.1)).reverse ++ seen) := by
  induction fills generalizing seen with
  | done acc => exact reads_pure _
  | @next acc acc' out name n rest read fills ih =>
      obtain ⟨hname, hrest⟩ := List.forall_mem_cons.1 isKnown
      obtain ⟨hfresh, later⟩ := List.forall_mem_cons.1 fresh
      rw [List.map_cons, List.nodup_cons] at distinct
      rw [List.map_cons, List.map_cons, List.reverse_cons, List.append_assoc, List.singleton_append]
      have hkey : Reads doc (fieldName known spot (entryOf (name, n)).1) name := by
        refine reads_bind (reads_textAs "field identifier" spot none _) ?_
        rw [if_pos hname]
        exact reads_pure name
      have hadd (place : Place) :
          Reads doc (addField field (acc, seen) name ⟨place, spot.depth⟩ n)
            (acc', name :: seen) := by
        unfold addField
        rw [if_neg hfresh]
        exact reads_bind (read place) (reads_pure _)
      refine reads_bind hkey (reads_bind (hadd _) (ih hrest distinct.2 fun other hother => ?_))
      rw [List.mem_cons, not_or]
      exact ⟨fun heq => distinct.1 (heq ▸ hother), later other hother⟩

/-- A record is read if its fields are, each of them once. -/
theorem reads_record {expected : String} {known : List String}
    {field : σ → String → Spot → Node → Decode σ} {start out : σ} {finish : σ → Decode α} {a : α}
    {values : List (String × Node)} {spot : Spot} (room : 0 < spot.depth)
    (isKnown : ∀ v ∈ values, v.1 ∈ known) (distinct : (values.map (·.1)).Nodup)
    (fills : Fills doc (spot.depth - 1) field start values out)
    (finished : Reads doc (finish out) a) :
    Reads doc (record expected known field start finish spot
      (.mapping none none (values.map entryOf))) a :=
  have entries : Reads doc (entriesFrom (fieldName known) (addField field)
      { spot with depth := spot.depth - 1 } (start, []) (values.map entryOf))
      (out, (values.map (·.1)).reverse ++ []) :=
    reads_entriesFrom isKnown distinct (fun _ _ => List.not_mem_nil) fills
  reads_located (reads_bind (a := Node.mapping none none (values.map entryOf)) (reads_pure _)
    (reads_bind (reads_enter room) (reads_bind entries finished))) _

end Yaml.Decode

/-! ## Scaffolds -/

theorem Sql.isLiteral_of_isIdentifier {name : String} (h : isIdentifier name = true) :
    ∀ c ∈ name.toList, Yaml.isLiteral c = true := by
  unfold isIdentifier at h
  cases hname : name.toList with
  | nil => exact fun c hc => nomatch hc
  | cons first rest =>
      rw [hname, isIdentifierChars, Bool.and_eq_true] at h
      refine List.forall_mem_cons.2 ⟨?_, List.all_eq_true.1 h.2⟩
      have hfirst := h.1
      unfold isIdentifierStart at hfirst
      rw [Yaml.isLiteral, Char.isAlphanum]
      simp only [Bool.or_eq_true] at hfirst ⊢
      exact hfirst.imp_left .inl

namespace Scaffold

open Yaml Yaml.Decode MigrationFile

/-- The example in a scaffold. -/
def hints : List String :=
  [" up:", "   - create_table:", "       name: example", "       columns:",
    "         - \x7b name: id, type: id \x7d", "         - \x7b type: timestamps \x7d"]

/-- The lines of a scaffold with a title. -/
def lines (title : List Char) : List Line :=
  .scalar "description".toList title :: .list "up".toList ::
    (hints.map (.comment ·.toList) ++ [.list "down".toList])

theorem template_eq (name : String) :
    template name = String.ofList (Line.textOf (lines (title name).toList)) := by
  apply String.toList_injective
  rw [String.toList_ofList]
  unfold template
  generalize title name = words
  simp [lines, hints, Line.textOf, Line.text]

theorem plain_title {name : String} (accepted : Sql.isIdentifier name = true) :
    ∀ c ∈ (title name).toList, c = ' ' ∨ isLiteral c = true := by
  intro c hc
  rw [title, String.toList_ofList] at hc
  obtain ⟨d, hd, rfl⟩ := List.mem_map.1 hc
  split
  · exact .inl rfl
  · exact .inr (Sql.isLiteral_of_isIdentifier accepted d hd)

theorem proper_lines {title : List Char} (plain : ∀ c ∈ title, c = ' ' ∨ isLiteral c = true) :
    ∀ line ∈ lines title, line.Proper := by
  have hkey : ∀ key ∈ ["description", "up", "down"], key.toList ≠ [] ∧
      key.toList.all isLiteral = true ∧ key.toList.length ≤ 1024 := by decide +kernel
  have hlist (key : String) (h : key ∈ ["description", "up", "down"]) :
      (Line.list key.toList).Proper :=
    .list (hkey key h).1 (List.all_eq_true.1 (hkey key h).2.1) (hkey key h).2.2
  have hhints : ∀ hint ∈ hints, hint.toList.all Scanner.isPrintable = true := by decide +kernel
  obtain ⟨nonempty, literal, short⟩ := hkey "description" (by decide)
  refine List.forall_mem_cons.2 ⟨.scalar nonempty (List.all_eq_true.1 literal) short plain,
    List.forall_mem_cons.2 ⟨hlist "up" (by decide), List.forall_mem_append.2 ⟨?_, ?_⟩⟩⟩
  · refine List.forall_mem_map.2 fun hint hhint => ?_
    exact .comment (List.all_eq_true.1 (hhints hint hhint))
  · exact List.forall_mem_singleton.2 (hlist "down" (by decide))

/-- What the description of a scaffold is read as: the words of its name, unless there are none
or they spell nothing. -/
def description? (name : String) : Option String :=
  let words := String.ofList (Scanner.stripped (title name).toList)
  if words.isEmpty || Scalar.isNullText words then none else some words

/-- The fields of a scaffold. -/
def fields (name : String) : List (String × Node) :=
  [("description", .scalar none ⟨.plain, none,
      String.ofList (Scanner.stripped (title name).toList)⟩),
    ("up", .sequence none none []), ("down", .sequence none none [])]

theorem filterMap_lines (name : String) :
    (lines (title name).toList).filterMap Line.binding? = (fields name).map entryOf := by
  have hhints : (hints.map (Line.comment ·.toList)).filterMap Line.binding? = [] := by
    rw [List.filterMap_map, List.filterMap_eq_nil_iff]
    exact fun _ _ => rfl
  simp only [lines, List.filterMap_cons, List.filterMap_append, hhints, Line.binding?,
    String.ofList_toList]
  rfl

theorem reads_fields (name : String) (doc : Document) :
    Reads doc (readFile ⟨.root, nestingLimit⟩ (.mapping none none ((fields name).map entryOf)))
      { description := description? name } := by
  have room : 0 < nestingLimit - 1 := by decide
  refine reads_record (by decide) ?_ ?_ ?_ (reads_pure _)
  · simp [fields]
  · simp [fields]
  · refine .next (fun place => reads_bind (reads_optional_text _ _) (reads_pure _)) ?_
    apply Fills.next
    · intro place
      dsimp only
      exact reads_bind (reads_sequence_empty _ room) (reads_pure _)
    refine .next (fun place => ?_) (.done _)
    dsimp only
    exact reads_bind (reads_sequence_empty _ room) (reads_pure _)

/-- Whatever the name, a scaffold is a migration file with no step in either direction. -/
theorem parse_template {name : String} (accepted : Sql.isIdentifier name = true) :
    parse (template name) = .ok ⟨description? name, [], []⟩ := by
  have hdocument : Document.ofText (template name) =
      ⟨.mapping none none ((fields name).map entryOf), none⟩ := by
    rw [template_eq, Document.ofText_lines (proper_lines (plain_title accepted)) rfl,
      filterMap_lines]
  have hdecode : decode (template name) = .ok { description := description? name } := by
    rw [decode, hdocument, run]
    simp only []
    rw [reads_fields name _ 0]
  generalize description? name = description at hdecode ⊢
  rw [parse, hdecode]
  rfl

end Scaffold

end SchemaLedger
