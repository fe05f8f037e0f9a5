import Mathlib.Data.List.Nodup
import SchemaLedger.Project.Basic
import SchemaLedger.Proofs.Decoding

/-!
# Loaded projects

However a project is loaded, its configuration is what one text was parsed to. So what holds of
everything that can be parsed holds of it: it has passed the check, and no two of its targets
have the same name, because a target takes the place of one of its name that was read before.
-/

namespace SchemaLedger

namespace Configuration

variable {c : Configuration} {content : String}

theorem parse_of_read (h : Yaml.Decode.run read (.ofText content) = .ok c) :
    parse content = (c.check.mapError .invalid).map fun _ => c := by
  rw [parse, h]
  show (c.check.mapError ConfigurationError.invalid >>= fun _ => pure c) = _
  cases c.check <;> rfl

theorem parse_eq_ok_iff : parse content = .ok c ↔
    Yaml.Decode.run read (.ofText content) = .ok c ∧ c.check = .ok () := by
  constructor
  · intro h
    cases hread : Yaml.Decode.run read (.ofText content) with
    | error e => rw [parse, hread] at h; cases h
    | ok c' =>
        rw [parse_of_read hread] at h
        cases hcheck : c'.check with
        | error fault => rw [hcheck] at h; cases h
        | ok _ => rw [hcheck] at h; cases h; exact ⟨rfl, hcheck⟩
  · rintro ⟨hread, hcheck⟩
    rw [parse_of_read hread, hcheck]
    rfl

theorem exists_parse_of_load {files : FileTree} {path : Path} (h : load files path = .ok c) :
    ∃ content, parse content = .ok c := by
  unfold load at h
  split at h
  · split at h
    · exact ⟨_, h⟩
    · cases h
  · cases h

theorem exists_parse_of_loadFrom {files : FileTree} {root : Path}
    (h : loadFrom files root = .ok c) : ∃ content, parse content = .ok c := by
  unfold loadFrom at h
  split at h
  · exact exists_parse_of_load h
  · cases h

/-! ## Names of targets -/

/-- No two targets have the same name. -/
def Distinct (targets : List (String × Target)) : Prop := (targets.map (·.1)).Nodup

theorem distinct_addTarget {targets : List (String × Target)} (distinct : Distinct targets)
    (name : String) (target : Target) : Distinct (addTarget targets name target) := by
  rw [Distinct, addTarget, List.map_append, List.map_singleton]
  refine List.Nodup.append (distinct.sublist (List.Sublist.map _ List.filter_sublist))
    (List.nodup_singleton name) (List.disjoint_singleton.2 ?_)
  simp

theorem ensures_readTargets (doc : Yaml.Document) (spot : Yaml.Spot) (n : Yaml.Node) :
    Yaml.Decode.Ensures doc (readTargets spot n) Distinct := by
  unfold readTargets
  refine Yaml.Decode.ensures_mapping (R := fun _ _ => True) (P := Distinct) ?_
    (fun _ _ => Yaml.Decode.ensures_true _) ?_ (fun _ => Yaml.Decode.ensures_pure) spot
  · exact List.nodup_nil
  · intro e _ name _ targets spot distinct
    exact Yaml.Decode.ensures_bind (Yaml.Decode.ensures_true _) fun target _ =>
      Yaml.Decode.ensures_pure (distinct_addTarget distinct name target)

theorem ensures_read (doc : Yaml.Document) (spot : Yaml.Spot) (n : Yaml.Node) :
    Yaml.Decode.Ensures doc (read spot n) fun c => Distinct c.targets := by
  unfold read
  refine Yaml.Decode.ensures_record (P := fun acc => Distinct acc.1.targets) ?_ ?_ ?_ spot
  · exact List.nodup_nil
  · rintro e - name - ⟨c, title⟩ spot distinct
    dsimp only
    split
    -- only the last field touches the targets, and puts what was read in their place
    case h_5 =>
      exact Yaml.Decode.ensures_bind (ensures_readTargets doc spot e.2) fun _ hread =>
        Yaml.Decode.ensures_pure hread
    all_goals
      exact Yaml.Decode.ensures_bind (Yaml.Decode.ensures_true _) fun _ _ =>
        Yaml.Decode.ensures_pure distinct
  · intro acc distinct
    exact Yaml.Decode.ensures_bind (Yaml.Decode.ensures_true _) fun _ _ =>
      Yaml.Decode.ensures_pure distinct

theorem distinct_of_parse (h : parse content = .ok c) : Distinct c.targets :=
  Yaml.Decode.of_run (Q := fun c => Distinct c.targets) (fun spot => ensures_read _ spot _)
    (parse_eq_ok_iff.1 h).1

end Configuration

namespace Project

variable {files : FileTree} {root : Path} {given : Option String} {p : Project}

theorem parse_of_load (h : load files root given = .ok p) :
    p.root = root ∧ ∃ content, Configuration.parse content = .ok p.configuration := by
  unfold load at h
  split at h
  · next path =>
      cases hc : Configuration.load files ⟨path⟩ with
      | error e => rw [hc] at h; cases h
      | ok c => rw [hc] at h; cases h; exact ⟨rfl, Configuration.exists_parse_of_load hc⟩
  · cases hc : Configuration.loadFrom files root with
    | error e => rw [hc] at h; cases h
    | ok c => rw [hc] at h; cases h; exact ⟨rfl, Configuration.exists_parse_of_loadFrom hc⟩

theorem check_of_load (h : load files root given = .ok p) : p.configuration.check = .ok () :=
  have ⟨_, _, hparse⟩ := parse_of_load h
  (Configuration.parse_eq_ok_iff.1 hparse).2

theorem distinct_of_load (h : load files root given = .ok p) :
    Configuration.Distinct p.configuration.targets :=
  have ⟨_, _, hparse⟩ := parse_of_load h
  Configuration.distinct_of_parse hparse

end Project

end SchemaLedger
