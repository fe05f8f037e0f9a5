import Mathlib.Data.List.Induction
import SchemaLedger.Proofs.BuiltTable

/-!
# What a clause says after any number of changes

A clause is changed in two ways: a modifier is applied, or the action of its reference is
set. The list of its modifiers shows three policies at once. A flag that is repeated is
ignored, a default or a reference takes the place of an earlier one, and an action goes
into a reference that is there. So neither the order of the list nor what stands in it can
be read off the last change.

Here both are read off the whole sequence. The order is that in which the sorts were
applied first, and what stands in a place is what was applied last, `normalForm`. The
induction goes along the sequence from its end: what one more change does to the list is
known from the sort that it applies, and what it does to the default and to the reference
is known one by one. As no sort is there twice, these determine the list.
-/

namespace SchemaLedger

namespace Clause

/-- A change of a clause. -/
inductive Change where
  | apply (m : Modifier)
  | setOnDelete (action : OnDelete)
  deriving DecidableEq

/-- Makes a change. -/
def change (clause : Clause) : Change → Clause
  | .apply m => clause.apply m
  | .setOnDelete action => (clause.setOnDelete action).2

/-- What changes make of a new clause. -/
def changed (name : String) (kind : Kind) (cs : List Change) : Clause :=
  cs.foldl change { name, kind }

namespace Change

/-- The modifier that a change applies. -/
def applied? : Change → Option Modifier
  | .apply m => some m
  | .setOnDelete _ => none

/-- The action that a change sets. -/
def action? : Change → Option OnDelete
  | .apply _ => none
  | .setOnDelete action => some action

/-- The default that a change applies. -/
def defaultValue? (c : Change) : Option DefaultValue :=
  c.applied?.bind Modifier.defaultValue?

/-- The reference that a change applies. -/
def reference? (c : Change) : Option Reference :=
  c.applied?.bind Modifier.reference?

/-- The sorts that are applied, in the order in which each of them is applied first. -/
def sorts (cs : List Change) : List Modifier.Sort :=
  ((cs.filterMap applied?).map Modifier.sort).eraseDups

/-- The default that is applied last. -/
def lastDefault? (cs : List Change) : Option DefaultValue :=
  cs.reverse.findSome? defaultValue?

/-- The reference that is applied last. Its action is the one that is set last behind it, or
else the one that it was applied with. -/
def lastReference? (cs : List Change) : Option Reference :=
  (cs.reverse.findSome? reference?).map fun target =>
    let behind := cs.reverse.takeWhile (·.reference?.isNone)
    { target with onDelete := (behind.findSome? action?).or target.onDelete }

end Change

/-- The modifier of a sort, if a default and a reference are known. -/
def modifierOf (value : Option DefaultValue) (target : Option Reference) :
    Modifier.Sort → Option Modifier
  | .notNull => some .notNull
  | .default => value.map .default
  | .primaryKey => some .primaryKey
  | .unique => some .unique
  | .references => target.map .references

/-- The modifiers that changes come to: each sort where it was applied first, with what was
applied last. -/
def normalForm (cs : List Change) : List Modifier :=
  (Change.sorts cs).filterMap (modifierOf (Change.lastDefault? cs) (Change.lastReference? cs))

/-! ## One change -/

theorem map_sort_setOnDeleteIn (action : OnDelete) (ms : List Modifier) :
    (setOnDeleteIn action ms).map Modifier.sort = ms.map Modifier.sort := by
  induction ms with
  | nil => rfl
  | cons m rest ih =>
      cases m with
      | references target => rfl
      | _ => exact congrArg (List.cons _) ih

theorem defaultValue?_setOnDelete (clause : Clause) (action : OnDelete) :
    (clause.setOnDelete action).2.defaultValue? = clause.defaultValue? := by
  show (setOnDeleteIn action clause.modifiers).findSome? Modifier.defaultValue? =
    clause.modifiers.findSome? Modifier.defaultValue?
  induction clause.modifiers with
  | nil => rfl
  | cons m rest ih =>
      cases m with
      | references target => rfl
      | default value => rfl
      | _ => exact ih

theorem reference?_setOnDelete (clause : Clause) (action : OnDelete) :
    (clause.setOnDelete action).2.reference? =
      clause.reference?.map fun target => { target with onDelete := some action } := by
  show (setOnDeleteIn action clause.modifiers).findSome? Modifier.reference? =
    (clause.modifiers.findSome? Modifier.reference?).map _
  induction clause.modifiers with
  | nil => rfl
  | cons m rest ih =>
      cases m with
      | references target => rfl
      | _ => exact ih

/-- Without a reference there is nothing to set. -/
theorem setOnDelete_of_none {clause : Clause} (h : clause.reference? = none)
    (action : OnDelete) : clause.setOnDelete action = (false, clause) := by
  have hin : setOnDeleteIn action clause.modifiers = clause.modifiers := by
    unfold reference? at h
    generalize clause.modifiers = ms at h
    induction ms with
    | nil => rfl
    | cons m rest ih =>
        cases m with
        | references target => cases h
        | _ => exact congrArg (List.cons _) (ih h)
  rw [setOnDelete, hin, h]
  rfl

/-! ## All changes -/

theorem eraseDups_concat {α : Type} [DecidableEq α] (l : List α) (a : α) :
    (l ++ [a]).eraseDups = if a ∈ l then l.eraseDups else l.eraseDups ++ [a] := by
  rw [List.eraseDups_append]
  by_cases ha : a ∈ l
  · simp [List.removeAll, ha]
  · simp [List.removeAll, ha, List.eraseDups_cons]

theorem changed_concat (name : String) (kind : Kind) (cs : List Change) (c : Change) :
    changed name kind (cs ++ [c]) = (changed name kind cs).change c := by
  rw [changed, List.foldl_append]
  rfl

theorem map_sort_changed (name : String) (kind : Kind) (cs : List Change) :
    (changed name kind cs).modifiers.map Modifier.sort = Change.sorts cs := by
  induction cs using List.reverseRecOn with
  | nil => rfl
  | append_singleton cs c ih =>
      rw [changed_concat, Change.sorts, List.filterMap_append, List.map_append]
      cases c with
      | setOnDelete action =>
          refine (map_sort_setOnDeleteIn action _).trans (ih.trans ?_)
          exact congrArg List.eraseDups (List.append_nil _).symm
      | apply m =>
          refine (map_sort_applyTo _ m).trans ?_
          show _ = (((cs.filterMap Change.applied?).map Modifier.sort) ++ [m.sort]).eraseDups
          rw [ih, eraseDups_concat]
          simp only [Change.sorts, List.mem_eraseDups]

theorem single_changed (name : String) (kind : Kind) (cs : List Change) :
    (changed name kind cs).Single := by
  induction cs using List.reverseRecOn with
  | nil => exact List.nodup_nil
  | append_singleton cs c ih =>
      rw [changed_concat]
      cases c with
      | apply m => exact single_apply ih m
      | setOnDelete action =>
          show ((setOnDeleteIn action (changed name kind cs).modifiers).map Modifier.sort).Nodup
          rw [map_sort_setOnDeleteIn]
          exact ih

theorem defaultValue?_changed (name : String) (kind : Kind) (cs : List Change) :
    (changed name kind cs).defaultValue? = Change.lastDefault? cs := by
  induction cs using List.reverseRecOn with
  | nil => rfl
  | append_singleton cs c ih =>
      rw [changed_concat, Change.lastDefault?, List.reverse_append, List.reverse_singleton,
        List.singleton_append, List.findSome?_cons, ← Change.lastDefault?, ← ih]
      cases c with
      | setOnDelete action => exact defaultValue?_setOnDelete _ action
      | apply m =>
          refine (defaultValue?_apply _ m).trans ?_
          cases m <;> rfl

theorem reference?_changed (name : String) (kind : Kind) (cs : List Change) :
    (changed name kind cs).reference? = Change.lastReference? cs := by
  induction cs using List.reverseRecOn with
  | nil => rfl
  | append_singleton cs c ih =>
      rw [changed_concat]
      have hreverse : (cs ++ [c]).reverse = c :: cs.reverse := by simp
      cases c with
      | setOnDelete action =>
          refine (reference?_setOnDelete _ action).trans ?_
          rw [ih, Change.lastReference?, Change.lastReference?, hreverse, Option.map_map]
          rfl
      | apply m =>
          refine (reference?_apply _ m).trans ?_
          rw [ih, Change.lastReference?, Change.lastReference?, hreverse]
          cases m <;> rfl

/-- A clause that has no sort twice is known from the sorts, the default and the reference. -/
theorem modifiers_eq_filterMap {clause : Clause} (single : clause.Single) :
    clause.modifiers = (clause.modifiers.map Modifier.sort).filterMap
      (modifierOf clause.defaultValue? clause.reference?) := by
  have own : ∀ m ∈ clause.modifiers,
      modifierOf clause.defaultValue? clause.reference? m.sort = some m := by
    intro m hm
    cases m with
    | default value =>
        rw [defaultValue?_of_mem single hm]
        rfl
    | references target =>
        rw [reference?_of_mem single hm]
        rfl
    | _ => rfl
  rw [List.filterMap_map]
  exact ((List.filterMap_congr own).trans List.filterMap_some).symm

theorem changed_eq (name : String) (kind : Kind) (cs : List Change) :
    changed name kind cs = { name, kind, modifiers := normalForm cs } := by
  have hnames : (changed name kind cs).name = name ∧ (changed name kind cs).kind = kind := by
    induction cs using List.reverseRecOn with
    | nil => exact ⟨rfl, rfl⟩
    | append_singleton cs c ih =>
        rw [changed_concat]
        cases c <;> exact ih
  have hmodifiers := modifiers_eq_filterMap (single_changed name kind cs)
  rw [map_sort_changed, defaultValue?_changed, reference?_changed, ← normalForm] at hmodifiers
  generalize changed name kind cs = clause at hnames hmodifiers
  obtain ⟨rfl, rfl⟩ := hnames
  rw [← hmodifiers]

/-! ## The text of a clause -/

theorem intercalate_cons (mark start : String) (parts : List String) :
    mark.intercalate (start :: parts) =
      parts.foldl (fun text part => text ++ mark ++ part) start := by
  induction parts generalizing start with
  | nil => rfl
  | cons part rest ih => exact ih (start ++ mark ++ part)

/-- A clause is written as its name, its type and its modifiers, with blanks between them. -/
theorem sql_eq_intercalate (clause : Clause) :
    clause.sql =
      " ".intercalate (clause.name :: clause.kind.sql :: clause.modifiers.map Modifier.sql) := by
  rw [intercalate_cons, List.foldl_cons, List.foldl_map]
  rfl

/-! ## The law -/

theorem Change.eq_of_reference? {c : Change} {target : Reference}
    (h : c.reference? = some target) : c = .apply (.references target) := by
  cases c with
  | setOnDelete action => cases h
  | apply m => cases m <;> cases h; rfl

/-- Setting an action succeeds just if a reference was applied, and else it changes nothing. -/
theorem setOnDelete_changed (name : String) (kind : Kind) (cs : List Change) (action : OnDelete) :
    (∃ target, .apply (.references target) ∈ cs) ∧
        ((changed name kind cs).setOnDelete action).1 = true ∨
      (∀ target, .apply (.references target) ∉ cs) ∧
        (changed name kind cs).setOnDelete action = (false, changed name kind cs) := by
  cases h : (changed name kind cs).reference? with
  | none =>
      refine .inr ⟨fun target hmem => ?_, setOnDelete_of_none h action⟩
      rw [reference?_changed, Change.lastReference?, Option.map_eq_none_iff,
        List.findSome?_eq_none_iff] at h
      cases h _ (List.mem_reverse.2 hmem)
  | some target =>
      refine .inl ⟨?_, by rw [setOnDelete, h]; rfl⟩
      rw [reference?_changed, Change.lastReference?, Option.map_eq_some_iff] at h
      obtain ⟨applied, happlied, _⟩ := h
      obtain ⟨c, hc, hreference⟩ := List.exists_of_findSome?_eq_some happlied
      exact ⟨applied, Change.eq_of_reference? hreference ▸ List.mem_reverse.1 hc⟩

/-- A second reference takes the place of the first one and has none of its action. -/
example : normalForm
    [.setOnDelete .restrict, .apply (.references ⟨"a", "x", none⟩), .setOnDelete .cascade,
      .apply .notNull, .apply (.default (.integer 1)), .apply (.references ⟨"b", "y", none⟩),
      .apply .notNull, .apply (.default (.boolean true))] =
    [.references ⟨"b", "y", none⟩, .notNull, .default (.boolean true)] := by decide

end Clause

end SchemaLedger
