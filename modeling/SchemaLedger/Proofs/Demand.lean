import Mathlib.Data.List.Basic

/-!
# Checks that decide a list of demands

A check that stops at the first fault decides more than whether there is one. So its demands
are set down as a list in the order in which they count, each with its error, and `Settles`
says that the check succeeds if all are met and else reports the first that is not. Checks
that follow one another have their lists appended, `Settles.bind`, and a check of each member
of a sequence has those of the members one behind the other, `Settles.mapM`. What a whole
check decides is put together from these two.
-/

namespace SchemaLedger

/-- A condition, with the error that reports that it is not met. -/
structure Demand (ε : Type) where
  met : Prop
  error : ε

namespace Demand

variable {ε α β : Type} {ds ds' : List (Demand ε)} {e e' : ε}

/-- Each demand is met. -/
def AllMet (ds : List (Demand ε)) : Prop := ∀ d ∈ ds, d.met

/-- The error is that of the first demand that is not met. -/
inductive FirstUnmet : List (Demand ε) → ε → Prop
  | here {d : Demand ε} {ds : List (Demand ε)} (unmet : ¬ d.met) : FirstUnmet (d :: ds) d.error
  | later {d : Demand ε} {ds : List (Demand ε)} {e : ε} (met : d.met)
    (rest : FirstUnmet ds e) : FirstUnmet (d :: ds) e

/-- A check with a value decides the demands: it succeeds if all are met, and else it fails
with the error of the first that is not. -/
inductive Settles (ds : List (Demand ε)) (value : α) : Except ε α → Prop
  | met (h : AllMet ds) : Settles ds value (.ok value)
  | unmet {e : ε} (h : FirstUnmet ds e) : Settles ds value (.error e)

theorem FirstUnmet.not_allMet (h : FirstUnmet ds e) : ¬ AllMet ds := by
  induction h with
  | here unmet => exact fun all => unmet (all _ List.mem_cons_self)
  | later _ _ ih => exact fun all => ih fun d hd => all d (List.mem_cons_of_mem _ hd)

theorem FirstUnmet.unique (h : FirstUnmet ds e) (h' : FirstUnmet ds e') : e = e' := by
  induction h with
  | here unmet =>
      cases h' with
      | here => rfl
      | later met => exact absurd met unmet
  | later met _ ih =>
      cases h' with
      | here unmet => exact absurd met unmet
      | later _ rest => exact ih rest

theorem allMet_singleton {d : Demand ε} : AllMet [d] ↔ d.met :=
  List.forall_mem_singleton

theorem allMet_append : AllMet (ds ++ ds') ↔ AllMet ds ∧ AllMet ds' :=
  List.forall_mem_append

theorem allMet_flatMap {as : List α} {f : α → List (Demand ε)} :
    AllMet (as.flatMap f) ↔ ∀ a ∈ as, AllMet (f a) :=
  List.forall_mem_flatMap

theorem firstUnmet_append :
    FirstUnmet (ds ++ ds') e ↔ FirstUnmet ds e ∨ AllMet ds ∧ FirstUnmet ds' e := by
  induction ds with
  | nil => exact ⟨fun h => .inr ⟨nofun, h⟩, fun h => h.elim nofun And.right⟩
  | cons d ds ih =>
      constructor
      · intro h
        cases h with
        | here unmet => exact .inl (.here unmet)
        | later met rest =>
            rcases ih.1 rest with h | ⟨all, h⟩
            · exact .inl (.later met h)
            · exact .inr ⟨List.forall_mem_cons.2 ⟨met, all⟩, h⟩
      · rintro (h | ⟨all, h⟩)
        · cases h with
          | here unmet => exact .here unmet
          | later met rest => exact .later met (ih.2 (.inl rest))
        · obtain ⟨met, all⟩ := List.forall_mem_cons.1 all
          exact .later met (ih.2 (.inr ⟨all, h⟩))

/-- The first fault of a sequence is that of the first member with a fault. -/
theorem firstUnmet_flatMap {as : List α} {f : α → List (Demand ε)} :
    FirstUnmet (as.flatMap f) e ↔ ∃ before a after, as = before ++ a :: after ∧
      (∀ b ∈ before, AllMet (f b)) ∧ FirstUnmet (f a) e := by
  induction as with
  | nil => exact ⟨nofun, fun ⟨before, a, after, h, _⟩ => by simp at h⟩
  | cons a as ih =>
      rw [List.flatMap_cons, firstUnmet_append, ih]
      constructor
      · rintro (h | ⟨met, before, b, after, rfl, all, h⟩)
        · exact ⟨[], a, as, rfl, nofun, h⟩
        · exact ⟨a :: before, b, after, rfl, List.forall_mem_cons.2 ⟨met, all⟩, h⟩
      · rintro ⟨before, b, after, heq, all, h⟩
        cases before with
        | nil => cases heq; exact .inl h
        | cons c before =>
            cases heq
            obtain ⟨met, all⟩ := List.forall_mem_cons.1 all
            exact .inr ⟨met, before, b, after, rfl, all, h⟩

namespace Settles

variable {value : α} {r : Except ε α}

theorem ok_iff (h : Settles ds value r) {a : α} : r = .ok a ↔ AllMet ds ∧ a = value := by
  cases h with
  | met all => exact ⟨fun heq => ⟨all, (Except.ok.inj heq).symm⟩, fun ⟨_, heq⟩ => heq ▸ rfl⟩
  | unmet first => exact ⟨nofun, fun ⟨all, _⟩ => absurd all first.not_allMet⟩

theorem error_iff (h : Settles ds value r) : r = .error e ↔ FirstUnmet ds e := by
  cases h with
  | met all => exact ⟨nofun, fun first => absurd all first.not_allMet⟩
  | unmet first =>
      exact ⟨fun heq => Except.error.inj heq ▸ first, fun h => congrArg _ (first.unique h)⟩

theorem of_ite {p : Prop} [Decidable p] : Settles [⟨p, e⟩] () (if p then .ok () else .error e) := by
  by_cases hp : p
  · rw [if_pos hp]
    exact .met (allMet_singleton.2 hp)
  · rw [if_neg hp]
    exact .unmet (.here (d := ⟨p, e⟩) hp)

/-- The demands of the second check come behind those of the first. -/
theorem bind {f : α → Except ε β} {b : β} (h : Settles ds value r)
    (k : Settles ds' b (f value)) : Settles (ds ++ ds') b (r >>= f) := by
  cases h with
  | met all =>
      show Settles _ b (f value)
      cases hf : f value with
      | ok a => obtain ⟨all', rfl⟩ := k.ok_iff.1 hf; exact .met (allMet_append.2 ⟨all, all'⟩)
      | error e => exact .unmet (firstUnmet_append.2 (.inr ⟨all, k.error_iff.1 hf⟩))
  | unmet first => exact .unmet (firstUnmet_append.2 (.inl first))

theorem andThen {r : Except ε Unit} {r' : Except ε β} {b : β}
    (h : Settles ds () r) (k : Settles ds' b r') : Settles (ds ++ ds') b (r >>= fun _ => r') :=
  h.bind k

theorem map {g : α → β} (h : Settles ds value r) : Settles ds (g value) (g <$> r) := by
  cases h with
  | met all => exact .met all
  | unmet first => exact .unmet first

theorem mapM {f : α → Except ε β} {demands : α → List (Demand ε)} {g : α → β}
    (h : ∀ a, Settles (demands a) (g a) (f a)) (as : List α) :
    Settles (as.flatMap demands) (as.map g) (as.mapM f) := by
  induction as with
  | nil => exact .met nofun
  | cons a as ih =>
      rw [List.mapM_cons, List.flatMap_cons]
      have hrest : Settles (as.flatMap demands) (g a :: as.map g)
          ((g a :: ·) <$> as.mapM f) := ih.map
      rw [map_eq_pure_bind] at hrest
      exact (h a).bind hrest

end Settles

end Demand

end SchemaLedger
