import Mathlib.Data.List.Nodup
import SchemaLedger.Proofs.ColumnChain
import SchemaLedger.Schema.Compile

/-!
# What is true of tables that were built

A clause has each sort of modifier at most once, because a second one of a sort takes the
place of the first. No call of a table body breaks this. So the default of a clause and its
reference are the only ones it has, and a check that looks at these two, `Named`, leaves
nothing out.
-/

namespace SchemaLedger

/-! ## Each sort of modifier at most once -/

/-- Each sort of modifier occurs at most once. -/
def Clause.Single (clause : Clause) : Prop :=
  (clause.modifiers.map Modifier.sort).Nodup

namespace Clause

/-- A modifier takes the place of the one of its sort, or comes last. -/
theorem map_sort_applyTo (ms : List Modifier) (m : Modifier) :
    (applyTo ms m).map Modifier.sort =
      if m.sort ∈ ms.map Modifier.sort then ms.map Modifier.sort
      else ms.map Modifier.sort ++ [m.sort] := by
  induction ms with
  | nil => rfl
  | cons p rest ih =>
      rw [applyTo]
      by_cases hp : p.sort = m.sort
      · rw [if_pos hp, if_pos (by simp [hp]), List.map_cons, List.map_cons, hp]
      · rw [if_neg hp, List.map_cons, List.map_cons, ih]
        by_cases hm : m.sort ∈ rest.map Modifier.sort
        · rw [if_pos hm, if_pos (List.mem_cons_of_mem _ hm)]
        · rw [if_neg hm, if_neg, List.cons_append]
          intro hmem
          rcases List.mem_cons.1 hmem with heq | hmem
          · exact hp heq.symm
          · exact hm hmem

theorem single_apply {clause : Clause} (h : clause.Single) (m : Modifier) :
    (clause.apply m).Single := by
  show ((applyTo clause.modifiers m).map Modifier.sort).Nodup
  rw [map_sort_applyTo]
  split
  · exact h
  · next hm =>
      rw [List.nodup_append]
      refine ⟨h, List.nodup_singleton _, ?_⟩
      intro a ha b hb hab
      rw [List.mem_singleton.1 hb] at hab
      exact hm (hab ▸ ha)

theorem modifier?_of_mem {clause : Clause} (h : clause.Single) {m : Modifier}
    (hm : m ∈ clause.modifiers) : clause.modifier? m.sort = some m := by
  obtain ⟨name, kind, ms⟩ := clause
  unfold Single at h
  unfold modifier?
  dsimp only at h hm ⊢
  induction ms with
  | nil => cases hm
  | cons p rest ih =>
      rw [List.map_cons, List.nodup_cons] at h
      rcases List.mem_cons.1 hm with rfl | hm
      · exact List.find?_cons_of_pos (decide_eq_true rfl)
      · have hp : p.sort ≠ m.sort := fun hp => h.1 (hp ▸ List.mem_map_of_mem hm)
        rw [List.find?_cons_of_neg (by simpa using hp)]
        exact ih h.2 hm

theorem reference?_of_mem {clause : Clause} (h : clause.Single) {target : Reference}
    (hm : .references target ∈ clause.modifiers) : clause.reference? = some target := by
  rw [reference?_eq, show clause.modifier? .references = _ from modifier?_of_mem h hm]
  rfl

theorem defaultValue?_of_mem {clause : Clause} (h : clause.Single) {value : DefaultValue}
    (hm : .default value ∈ clause.modifiers) : clause.defaultValue? = some value := by
  rw [defaultValue?_eq, show clause.modifier? .default = _ from modifier?_of_mem h hm]
  rfl

end Clause

theorem Clause.kept_single : Kept Single fun _ => True where
  new _ _ := List.nodup_nil
  apply h _ := single_apply h _

theorem Clause.single_ofModifiers (name : String) (kind : Kind) (ms : List Modifier) :
    (ofModifiers name kind ms).Single :=
  kept_single.foldl (kept_single.new name kind) fun _ _ => trivial

/-- Whatever the body of a table is, its clauses have each sort of modifier at most once. -/
theorem Builder.single_build (name : String) (body : List Call) :
    ∀ clause ∈ (build name body).columns, clause.Single :=
  Clause.kept_single.build fun _ _ _ _ => trivial

/-! ## What is looked at in a clause -/

/-- The names in a clause can stand in a statement, and so can a number. -/
structure Clause.Named (clause : Clause) : Prop where
  column : Sql.isIdentifier clause.name = true
  number : ∀ d, clause.defaultValue? = some (.float d) → d.isFinite = true
  reference : ∀ target, clause.reference? = some target →
    Sql.isQualifiedName target.table = true ∧ Sql.isIdentifier target.column = true

end SchemaLedger
