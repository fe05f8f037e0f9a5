import Mathlib.Logic.Relation
import SchemaLedger.Proofs.ColumnChain

/-!
# Chains, step by step

A chain is more than its links. A reference is begun, then it gets its table, then perhaps an
action, and the chain may be left at any of these points. So there are states between two
links, and what is promised of a chain has to hold in them as well: that its handle is the
position of a clause, of the one that began the chain, that no other clause changes, and
that an action finds a reference.

`Step` has one constructor for each thing that can be done next. The invariant of a run of
steps is that the builder is the one before the call with one clause behind, and that this
clause has a reference when an action may follow. What it takes for the last part is that a
modifier that was applied is there.
-/

namespace SchemaLedger

open Relation (ReflTransGen)

namespace Builder

/-- How far a chain has come. Modifiers may follow, or a reference still has no table, or it
has one and an action may follow. -/
inductive Stage where
  | ready (h : Handle)
  | pending (p : PendingReference)
  | referred (h : Handle)

/-- The handle of a chain. -/
def Stage.handle : Stage → Handle
  | .ready h | .referred h => h
  | .pending p => p.handle

/-- One step of a chain. -/
inductive Step : Builder × Stage → Builder × Stage → Prop
  | notNull {b : Builder} {h : Handle} : Step (b, .ready h) (b.notNull h, .ready h)
  | defaultTo {b : Builder} {h : Handle} (value : DefaultValue) :
    Step (b, .ready h) (b.defaultTo h value, .ready h)
  | primary {b : Builder} {h : Handle} : Step (b, .ready h) (b.primary h, .ready h)
  | unique {b : Builder} {h : Handle} : Step (b, .ready h) (b.unique h, .ready h)
  | references {b : Builder} {h : Handle} (column : String) :
    Step (b, .ready h) (b, .pending ⟨h, column⟩)
  | inTable {b : Builder} {p : PendingReference} (table : String) :
    Step (b, .pending p) (b.inTable p table, .referred p.handle)
  | onDelete {b : Builder} {h : Handle} (action : OnDelete) :
    Step (b, .referred h) ((b.onDelete h action).2, .ready h)
  | withoutAction {b : Builder} {h : Handle} : Step (b, .referred h) (b, .ready h)

/-- Steps one after the other. -/
abbrev Steps : Builder × Stage → Builder × Stage → Prop := ReflTransGen Step

/-! ## Calls are runs of steps -/

theorem link?_steps {b b' : Builder} {h : Handle} {l : Link} (hl : b.link? h l = some b') :
    Steps (b, .ready h) (b', .ready h) := by
  cases l with
  | notNull => cases hl; exact .single .notNull
  | default value => cases hl; exact .single (.defaultTo value)
  | primary => cases hl; exact .single .primary
  | unique => cases hl; exact .single .unique
  | references column table action =>
      cases table with
      | none => cases hl
      | some table =>
          have referred : Steps (b, .ready h) (b.inTable ⟨h, column⟩ table, .referred h) :=
            .tail (.single (.references column)) (.inTable table)
          cases action with
          | none => cases hl; exact referred.tail .withoutAction
          | some action => cases hl; exact referred.tail (.onDelete action)

/-- A chain is a run of steps. If it drops a reference it ends where this has no table. -/
theorem chain_steps (b : Builder) (h : Handle) (links : List Link) :
    ∃ stage, Steps (b, .ready h) (b.chain h links, stage) := by
  induction links generalizing b with
  | nil => exact ⟨_, .refl⟩
  | cons l rest ih =>
      rw [chain]
      cases hl : b.link? h l with
      | none => exact ⟨_, .refl⟩
      | some b' =>
          obtain ⟨stage, steps⟩ := ih b'
          exact ⟨stage, (link?_steps hl).trans steps⟩

/-- A column that begins with modifiers has got them in steps. -/
theorem introduce_steps (b : Builder) (introduction : Introduction) (name : String) :
    Steps ((b.column name introduction.kind).1, .ready (b.column name introduction.kind).2)
      ((b.introduce introduction name).1, .ready (b.introduce introduction name).2) := by
  cases introduction with
  | typed kind => exact .refl
  | id => exact .tail (.single (.defaultTo (.expression uuidGenerator))) .primary
  | increments =>
      exact .tail (.single (.defaultTo (.nextValue (sequenceName b.table name)))) .primary

theorem call_steps (b : Builder) (introduction : Introduction) (name : String)
    (links : List Link) :
    ∃ stage, Steps
      ((b.column name introduction.kind).1, .ready (b.column name introduction.kind).2)
      (b.call (.column introduction name links), stage) := by
  obtain ⟨stage, steps⟩ := chain_steps (b.introduce introduction name).1
    (b.introduce introduction name).2 links
  exact ⟨stage, (introduce_steps b introduction name).trans steps⟩

/-- A chain that drops a reference has done what it had done before. -/
theorem chain_dropped (b : Builder) (h : Handle) (before : List Link) (column : String)
    (action : Option OnDelete) (behind : List Link) :
    b.chain h (before ++ .references column none action :: behind) = b.chain h before := by
  induction before generalizing b with
  | nil => rfl
  | cons l rest ih =>
      rw [List.cons_append, chain, chain]
      cases b.link? h l with
      | none => rfl
      | some b' => exact ih b'

/-! ## What steps keep -/

/-- The builder is `b` with one more clause, of this name and kind, and the handle is its
position. If an action may follow, the clause has a reference. -/
structure Holds (b : Builder) (name : String) (kind : Kind) (state : Builder × Stage)
    (clause : Clause) : Prop where
  builder : state.1 = ⟨b.table, b.columns ++ [clause]⟩
  handle : state.2.handle = ⟨b.columns.length⟩
  name : clause.name = name
  kind : clause.kind = kind
  referred : ∀ h, state.2 = .referred h → clause.reference?.isSome = true

theorem Holds.step {b : Builder} {name : String} {kind : Kind} {state state' : Builder × Stage}
    {clause : Clause} (holds : Holds b name kind state clause) (step : Step state state') :
    ∃ clause', Holds b name kind state' clause' := by
  obtain ⟨hbuilder, hhandle, hname, hkind, hreferred⟩ := holds
  have applied (m : Modifier) : (⟨b.table, b.columns ++ [clause]⟩ : Builder).apply
      ⟨b.columns.length⟩ m = ⟨b.table, b.columns ++ [clause.apply m]⟩ := apply_last clause m
  cases step with
  | @notNull _ h | @defaultTo _ h value | @primary _ h | @unique _ h =>
      obtain rfl : h = _ := hhandle
      cases hbuilder
      exact ⟨clause.apply _, applied _, rfl, hname, hkind, fun h hh => by cases hh⟩
  | references column => exact ⟨clause, hbuilder, hhandle, hname, hkind, fun h hh => by cases hh⟩
  | @inTable _ p table =>
      obtain ⟨h, column⟩ := p
      obtain rfl : h = _ := hhandle
      cases hbuilder
      refine ⟨clause.apply (.references ⟨table, column, none⟩), applied _, rfl, hname, hkind, ?_⟩
      intro h _
      rw [Clause.reference?_apply]
      rfl
  | @onDelete _ h action =>
      obtain rfl : h = _ := hhandle
      cases hbuilder
      exact ⟨_, onDelete_last clause action, rfl, hname, hkind, fun h hh => by cases hh⟩
  | withoutAction => exact ⟨clause, hbuilder, hhandle, hname, hkind, fun h hh => by cases hh⟩

theorem Holds.steps {b : Builder} {name : String} {kind : Kind} {state : Builder × Stage}
    (steps : Steps ((b.column name kind).1, .ready (b.column name kind).2) state) :
    ∃ clause, Holds b name kind state clause := by
  induction steps with
  | refl => exact ⟨{ name, kind }, rfl, rfl, rfl, rfl, fun h hh => by cases hh⟩
  | tail _ step ih =>
      obtain ⟨clause, holds⟩ := ih
      exact holds.step step

/-- What holds at every step of a chain that began with a new column of `b`: the handle is the
position that the column was given, there is a clause at that position, with the name and the
kind of the column, all others are those of `b`, and an action that may follow finds a
reference. -/
structure KeepsTo (b : Builder) (name : String) (kind : Kind) (state : Builder × Stage) :
    Prop where
  handle : state.2.handle = (b.column name kind).2
  inRange : state.2.handle.index < state.1.columns.length
  own : ∃ clause, state.1.clause? state.2.handle = some clause ∧ clause.name = name ∧
    clause.kind = kind
  others : ∀ i, i ≠ state.2.handle.index → state.1.columns[i]? = b.columns[i]?
  table : state.1.table = b.table
  recorded : ∀ h, state.2 = .referred h → ∀ action, (state.1.onDelete h action).1 = true

theorem Holds.keepsTo {b : Builder} {name : String} {kind : Kind} {state : Builder × Stage}
    {clause : Clause} (holds : Holds b name kind state clause) : KeepsTo b name kind state := by
  obtain ⟨b', stage⟩ := state
  obtain ⟨hbuilder, hhandle, hname, hkind, hreferred⟩ := holds
  dsimp only at hbuilder hhandle hreferred
  subst hbuilder
  have own : (⟨b.table, b.columns ++ [clause]⟩ : Builder).clause? ⟨b.columns.length⟩ =
      some clause := List.getElem?_concat_length
  refine ⟨hhandle, ?_, ⟨clause, ?_, hname, hkind⟩, ?_, rfl, ?_⟩
  · rw [hhandle]
    simp
  · rw [hhandle]
    exact own
  · intro i hi
    rw [hhandle] at hi
    dsimp only at hi ⊢
    rcases Nat.lt_or_gt_of_ne hi with hlt | hgt
    · exact List.getElem?_append_left hlt
    · rw [List.getElem?_eq_none (Nat.le_of_lt hgt)]
      exact List.getElem?_eq_none (by simpa using Nat.succ_le_of_lt hgt)
  · rintro h rfl action
    obtain rfl : h = _ := hhandle
    have hreference := hreferred _ rfl
    show ((Builder.clause? _ _).map _).getD false = true
    rw [own]
    exact hreference

/-! ## The law -/

theorem build_append (table : String) (body : List Call) :
    (build table body).columns = body.flatMap fun c => (build table [c]).columns := by
  simp only [build_eq, List.flatMap_singleton]

/-- Chains keep to their columns. The columns of a table are those that each call makes alone
in a table of the same name, one behind the other. In any builder, a call with a chain is a
run of steps, and at every step of every such run the chain keeps to its column. A chain that
drops a reference ends with what it had done before. -/
theorem chains_keep_to_their_columns :
    (∀ table body, (build table body).columns =
        body.flatMap fun c => (build table [c]).columns) ∧
      (∀ (b : Builder) introduction name links,
        (∃ stage, Steps
          ((b.column name introduction.kind).1, .ready (b.column name introduction.kind).2)
          (b.call (.column introduction name links), stage)) ∧
        ∀ state, Steps
          ((b.column name introduction.kind).1, .ready (b.column name introduction.kind).2) state →
          KeepsTo b name introduction.kind state) ∧
      ∀ (b : Builder) h before column action behind,
        b.chain h (before ++ .references column none action :: behind) = b.chain h before := by
  refine ⟨build_append, fun b introduction name links => ?_, chain_dropped⟩
  refine ⟨call_steps b introduction name links, fun state steps => ?_⟩
  obtain ⟨clause, holds⟩ := Holds.steps steps
  exact holds.keepsTo

/-- A builder with a primary key and the two time columns. -/
def posts : Builder := [.column .id "id" [], .timestamps].foldl call { table := "posts" }

/-- The builder within the chain of a fourth column: it refuses nulls and refers to a table. -/
def postsReferred : Builder :=
  ((posts.column "author_id" .uuid).1.notNull ⟨3⟩).inTable ⟨⟨3⟩, "id"⟩ "users"

theorem chains_keep_to_their_columns_of_posts :
    Steps ((posts.column "author_id" .uuid).1, .ready (posts.column "author_id" .uuid).2)
        (postsReferred, .referred ⟨3⟩) ∧
      KeepsTo posts "author_id" .uuid (postsReferred, .referred ⟨3⟩) ∧
      (postsReferred.onDelete ⟨3⟩ .cascade).1 = true := by
  have steps : Steps
      ((posts.column "author_id" .uuid).1, .ready (posts.column "author_id" .uuid).2)
      (postsReferred, .referred ⟨3⟩) :=
    .tail (.tail (.single .notNull) (.references "id")) (.inTable "users")
  have keeps := (chains_keep_to_their_columns.2.1 posts (.typed .uuid) "author_id" []).2 _ steps
  exact ⟨steps, keeps, keeps.recorded _ rfl .cascade⟩

end Builder

end SchemaLedger
