import SchemaLedger.Schema.Basic

/-!
# A chain of modifiers stays with its column

A builder holds many clauses, and a chain finds its own by a position. As a call appends its
clause at the end and a chain changes none but the clause at its position, what a call adds
is known from the call alone. Each link gives its column one modifier; a reference is
recorded without its action first, but that is as good as recording it with the action.

So a clause is what its modifiers make of a new one, and a table is what its calls make one
after the other, `build_eq`. What is true of every clause of a table can be proved then of
one modifier that is applied, without a builder.
-/

namespace SchemaLedger

/-- The modifier that a link gives; none if the link drops its reference and ends the chain. -/
def Link.modifier? : Link → Option Modifier
  | .notNull => some .notNull
  | .default value => some (.default value)
  | .primary => some .primaryKey
  | .unique => some .unique
  | .references column table onDelete =>
    table.map fun table => .references { table, column, onDelete }

/-- The modifiers that a chain gives up to the link that ends it. -/
def Link.modifiers : List Link → List Modifier
  | [] => []
  | l :: rest =>
    match l.modifier? with
    | some m => m :: modifiers rest
    | none => []

/-- The kind of a column that is introduced. -/
def Introduction.kind : Introduction → Kind
  | .id => .uuid
  | .increments => .integer
  | .typed kind => kind

/-- The modifiers that a column begins with, in a table of some name. -/
def Introduction.modifiers (table name : String) : Introduction → List Modifier
  | .id => [.default (.expression uuidGenerator), .primaryKey]
  | .increments => [.default (.nextValue (Builder.sequenceName table name)), .primaryKey]
  | .typed _ => []

/-- What modifiers make of a new column. -/
def Clause.ofModifiers (name : String) (kind : Kind) (ms : List Modifier) : Clause :=
  ms.foldl apply { name, kind }

/-- The names and kinds of the columns of a call. -/
def Call.columns : Call → List (String × Kind)
  | .column introduction name _ => [(name, introduction.kind)]
  | .timestamps => [("created_at", .timestamp), ("updated_at", .timestamp)]

/-- The modifiers that a call gives each of its columns, in a table of some name. -/
def Call.modifiers (table : String) : Call → List Modifier
  | .column introduction name links =>
    introduction.modifiers table name ++ Link.modifiers links
  | .timestamps => [.notNull, .default (.expression "current_timestamp")]

/-- The clauses that a call makes, in a table of some name. -/
def Call.clauses (table : String) (c : Call) : List Clause :=
  c.columns.map fun (name, kind) => .ofModifiers name kind (c.modifiers table)

/-- The action of a reference may be set afterwards. -/
theorem Clause.setOnDelete_apply (clause : Clause) (table column : String) (action : OnDelete) :
    ((clause.apply (.references ⟨table, column, none⟩)).setOnDelete action).2 =
      clause.apply (.references ⟨table, column, some action⟩) := by
  refine congrArg (Clause.mk clause.name clause.kind) ?_
  show setOnDeleteIn action (applyTo clause.modifiers _) = applyTo clause.modifiers _
  induction clause.modifiers with
  | nil => rfl
  | cons p rest ih =>
      cases p with
      | references target => rfl
      | _ => exact congrArg _ ih

theorem modify_concat {α : Type} (before : List α) (a : α) (f : α → α) :
    (before ++ [a]).modify before.length f = before ++ [f a] := by
  induction before with
  | nil => rfl
  | cons b rest ih => simp [ih]

namespace Builder

variable {table : String} {before : List Clause}

theorem apply_last (clause : Clause) (m : Modifier) :
    (⟨table, before ++ [clause]⟩ : Builder).apply ⟨before.length⟩ m =
      ⟨table, before ++ [clause.apply m]⟩ :=
  congrArg (Builder.mk table) (modify_concat before clause (·.apply m))

theorem onDelete_last (clause : Clause) (action : OnDelete) :
    ((⟨table, before ++ [clause]⟩ : Builder).onDelete ⟨before.length⟩ action).2 =
      ⟨table, before ++ [(clause.setOnDelete action).2]⟩ :=
  congrArg (Builder.mk table) (modify_concat before clause fun c => (c.setOnDelete action).2)

theorem link?_last (clause : Clause) (l : Link) :
    (⟨table, before ++ [clause]⟩ : Builder).link? ⟨before.length⟩ l =
      l.modifier?.map fun m => ⟨table, before ++ [clause.apply m]⟩ := by
  cases l with
  | references column target action =>
      cases target with
      | none => rfl
      | some target =>
          have hreference : (⟨table, before ++ [clause]⟩ : Builder).apply ⟨before.length⟩ _ = _ :=
            apply_last clause (.references ⟨target, column, none⟩)
          cases action with
          | none => exact congrArg some hreference
          | some action =>
              refine congrArg some ?_
              rw [inTable, hreference, onDelete_last, Clause.setOnDelete_apply]
  | _ => exact congrArg some (apply_last clause _)

theorem chain_last (clause : Clause) (links : List Link) :
    (⟨table, before ++ [clause]⟩ : Builder).chain ⟨before.length⟩ links =
      ⟨table, before ++ [(Link.modifiers links).foldl Clause.apply clause]⟩ := by
  induction links generalizing clause with
  | nil => rfl
  | cons l rest ih =>
      rw [chain, link?_last, Link.modifiers]
      cases l.modifier? with
      | none => rfl
      | some m => exact ih (clause.apply m)

theorem introduce_eq (b : Builder) (introduction : Introduction) (name : String) :
    b.introduce introduction name =
      (⟨b.table, b.columns ++ [.ofModifiers name introduction.kind
        (introduction.modifiers b.table name)]⟩, ⟨b.columns.length⟩) := by
  cases introduction with
  | typed kind => rfl
  | id | increments =>
      refine congrArg (·, Handle.mk b.columns.length) ?_
      show (Builder.apply (Builder.apply ⟨b.table, b.columns ++ [_]⟩ ⟨b.columns.length⟩ _)
        ⟨b.columns.length⟩ _) = _
      rw [apply_last, apply_last]
      rfl

theorem call_eq (b : Builder) (c : Call) :
    b.call c = ⟨b.table, b.columns ++ c.clauses b.table⟩ := by
  cases c with
  | timestamps => rfl
  | column introduction name links =>
      rw [call, introduce_eq]
      show Builder.chain ⟨b.table, b.columns ++ [_]⟩ ⟨b.columns.length⟩ links = _
      rw [chain_last, Clause.ofModifiers, ← List.foldl_append]
      rfl

theorem foldl_call (b : Builder) (body : List Call) :
    body.foldl call b = ⟨b.table, b.columns ++ body.flatMap (Call.clauses b.table)⟩ := by
  induction body generalizing b with
  | nil => simp
  | cons c rest ih =>
      rw [List.foldl_cons, ih, call_eq, List.flatMap_cons, List.append_assoc]

/-- A table is what its calls make, one after the other. -/
theorem build_eq (name : String) (body : List Call) :
    build name body = ⟨name, body.flatMap (Call.clauses name)⟩ := by
  rw [build, foldl_call]
  rfl

end Builder

/-! ## What every clause of a table has -/

namespace Clause

/-- A new clause has `P`, and applying a modifier that has `Q` keeps it. -/
structure Kept (P : Clause → Prop) (Q : Modifier → Prop) : Prop where
  new (name : String) (kind : Kind) : P { name, kind }
  apply {clause : Clause} {m : Modifier} : P clause → Q m → P (clause.apply m)

namespace Kept

variable {P : Clause → Prop} {Q : Modifier → Prop} (kept : Kept P Q)

include kept

theorem foldl {clause : Clause} {ms : List Modifier} (h : P clause) (hq : ∀ m ∈ ms, Q m) :
    P (ms.foldl Clause.apply clause) := by
  induction ms generalizing clause with
  | nil => exact h
  | cons m rest ih =>
      obtain ⟨hm, hrest⟩ := List.forall_mem_cons.1 hq
      exact ih (kept.apply h hm) hrest

/-- So every clause of a table has it whose calls give only such modifiers. -/
theorem build {name : String} {body : List Call} (hq : ∀ c ∈ body, ∀ m ∈ c.modifiers name, Q m) :
    ∀ clause ∈ (Builder.build name body).columns, P clause := by
  rw [Builder.build_eq]
  intro clause hclause
  obtain ⟨c, hc, hmem⟩ := List.mem_flatMap.1 hclause
  obtain ⟨⟨column, kind⟩, _, rfl⟩ := List.mem_map.1 hmem
  exact kept.foldl (kept.new column kind) (hq c hc)

end Kept

theorem forall_applyTo {Q : Modifier → Prop} {ms : List Modifier} {m : Modifier}
    (h : ∀ p ∈ ms, Q p) (hm : Q m) : ∀ p ∈ applyTo ms m, Q p := by
  induction ms with
  | nil => exact List.forall_mem_singleton.2 hm
  | cons q rest ih =>
      obtain ⟨hq, hrest⟩ := List.forall_mem_cons.1 h
      rw [applyTo]
      split
      · exact List.forall_mem_cons.2 ⟨hm, hrest⟩
      · exact List.forall_mem_cons.2 ⟨hq, ih hrest⟩

/-- What is true of the modifiers that are given is true of those that a clause has. -/
theorem kept_forall (Q : Modifier → Prop) : Kept (fun clause => ∀ m ∈ clause.modifiers, Q m) Q where
  new _ _ := by simp
  apply h hm := forall_applyTo h hm

end Clause

/-! ## The modifier of a sort -/

namespace Clause

/-- The modifier of a sort that the clause has. -/
def modifier? (clause : Clause) (s : Modifier.Sort) : Option Modifier :=
  clause.modifiers.find? fun m => m.sort = s

theorem has_eq {flag : Modifier} (h : ∀ m : Modifier, m.sort = flag.sort → m = flag)
    (clause : Clause) : clause.has flag = (clause.modifier? flag.sort).isSome := by
  rw [Bool.eq_iff_iff, has, List.contains_iff_mem, modifier?, List.find?_isSome]
  constructor
  · intro hmem
    exact ⟨flag, hmem, decide_eq_true rfl⟩
  · rintro ⟨m, hmem, hm⟩
    exact h m (of_decide_eq_true hm) ▸ hmem

theorem findSome?_eq {α : Type} {f : Modifier → Option α} {s : Modifier.Sort}
    (h : ∀ m, m.sort = s ↔ (f m).isSome = true) (ms : List Modifier) :
    ms.findSome? f = (ms.find? fun m => m.sort = s).bind f := by
  induction ms with
  | nil => rfl
  | cons m rest ih =>
      rw [List.findSome?_cons]
      cases hm : f m with
      | none =>
          have hs : m.sort ≠ s := by simp [h, hm]
          simp [hs, ih]
      | some a =>
          have hs : m.sort = s := (h m).2 (by rw [hm]; rfl)
          simp [hs, hm]

theorem isNotNull_eq (clause : Clause) :
    clause.isNotNull = (clause.modifier? .notNull).isSome :=
  has_eq (fun m h => by cases m <;> first | rfl | cases h) clause

theorem isPrimaryKey_eq (clause : Clause) :
    clause.isPrimaryKey = (clause.modifier? .primaryKey).isSome :=
  has_eq (fun m h => by cases m <;> first | rfl | cases h) clause

theorem isUnique_eq (clause : Clause) :
    clause.isUnique = (clause.modifier? .unique).isSome :=
  has_eq (fun m h => by cases m <;> first | rfl | cases h) clause

theorem sort_eq_default (m : Modifier) :
    m.sort = .default ↔ m.defaultValue?.isSome = true := by
  cases m <;> simp [Modifier.sort, Modifier.defaultValue?]

theorem defaultValue?_eq (clause : Clause) :
    clause.defaultValue? = (clause.modifier? .default).bind Modifier.defaultValue? :=
  findSome?_eq sort_eq_default _

theorem reference?_eq (clause : Clause) :
    clause.reference? = (clause.modifier? .references).bind Modifier.reference? :=
  findSome?_eq (fun m => by cases m <;> simp [Modifier.sort, Modifier.reference?]) _

theorem modifier?_apply (clause : Clause) (m : Modifier) (s : Modifier.Sort) :
    (clause.apply m).modifier? s = if m.sort = s then some m else clause.modifier? s := by
  show (applyTo clause.modifiers m).find? _ = _
  unfold modifier?
  induction clause.modifiers with
  | nil => by_cases hs : m.sort = s <;> simp [applyTo, hs]
  | cons p rest ih =>
      rw [applyTo]
      by_cases hp : p.sort = m.sort
      · rw [if_pos hp]
        by_cases hs : m.sort = s
        · simp [hs]
        · have hps : p.sort ≠ s := hp ▸ hs
          simp [hs, hps]
      · rw [if_neg hp]
        by_cases hps : p.sort = s
        · have hs : m.sort ≠ s := fun h => hp (hps.trans h.symm)
          simp [hs, hps]
        · rw [List.find?_cons_of_neg (by simpa using hps), ih,
            List.find?_cons_of_neg (by simpa using hps)]

theorem defaultValue?_apply (clause : Clause) (m : Modifier) :
    (clause.apply m).defaultValue? = m.defaultValue?.or clause.defaultValue? := by
  rw [defaultValue?_eq, defaultValue?_eq, modifier?_apply]
  cases m <;> rfl

theorem reference?_apply (clause : Clause) (m : Modifier) :
    (clause.apply m).reference? = m.reference?.or clause.reference? := by
  rw [reference?_eq, reference?_eq, modifier?_apply]
  cases m <;> rfl

theorem ofModifiers_eq (name : String) (kind : Kind) (ms : List Modifier) :
    ofModifiers name kind ms = { name, kind, modifiers := ms.foldl applyTo [] } := by
  have hfold (acc : List Modifier) : ms.foldl apply { name, kind, modifiers := acc } =
      { name, kind, modifiers := ms.foldl applyTo acc } := by
    induction ms generalizing acc with
    | nil => rfl
    | cons m rest ih => exact ih (applyTo acc m)
  exact hfold []

/-- Of the modifiers of a sort the one given last counts. -/
theorem modifier?_ofModifiers (name : String) (kind : Kind) (ms : List Modifier)
    (s : Modifier.Sort) :
    (ofModifiers name kind ms).modifier? s = ms.reverse.find? fun m => m.sort = s := by
  have hfold (clause : Clause) : (ms.foldl apply clause).modifier? s =
      (ms.reverse.find? fun m => m.sort = s).or (clause.modifier? s) := by
    induction ms generalizing clause with
    | nil => rfl
    | cons m rest ih =>
        rw [List.foldl_cons, ih, modifier?_apply, List.reverse_cons, List.find?_append,
          Option.or_assoc]
        by_cases hs : m.sort = s <;> simp [hs]
  rw [ofModifiers, hfold]
  exact Option.or_none

theorem defaultValue?_ofModifiers (name : String) (kind : Kind) (ms : List Modifier) :
    (ofModifiers name kind ms).defaultValue? = ms.reverse.findSome? Modifier.defaultValue? := by
  rw [defaultValue?_eq, modifier?_ofModifiers, findSome?_eq sort_eq_default]

end Clause

end SchemaLedger
