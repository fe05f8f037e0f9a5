import SchemaLedger.Proofs.FileLookup
import SchemaLedger.Proofs.LoadedProject

/-!
# The database that is selected

Four things have a say in which database is meant: the target that a command is given, the one
of the environment, what the configuration has for a target, and a path that a command is
given. Here is said by rules what they come to, and shown that choosing follows the rules: there
is a database exactly for no target and for the targets that are there, so a word that is no
target is an error and never stands for the base database, whatever path comes with it.

Once a path has been taken from a directory given from the root, it no longer depends on where
it is taken from. Given again, it selects the same database.
-/

namespace SchemaLedger

/-! ## Paths below a directory -/

namespace Path

variable {p : Path} {q result : String}

/-- A path below a directory: what they are called, one behind the other, with a slash between
them unless the directory has one at its end or no name at all. -/
inductive Below (dir : Path) (q : String) : String → Prop
  | unnamed (h : dir.text = "") : Below dir q q
  | closed (front : String) (h : dir.text = front ++ "/") : Below dir q (dir.text ++ q)
  | unclosed (named : dir.text ≠ "") (h : ∀ front, dir.text ≠ front ++ "/") :
    Below dir q (dir.text ++ "/" ++ q)

theorem join_of_isAbsolute (p : Path) (absolute : isAbsolute ⟨q⟩ = true) : p.join q = ⟨q⟩ :=
  if_pos absolute

theorem endsInSlash_iff : p.text.toList.getLast? = some '/' ↔ ∃ front, p.text = front ++ "/" := by
  rw [List.getLast?_eq_some_iff]
  constructor
  · rintro ⟨front, h⟩
    refine ⟨String.ofList front, String.toList_injective ?_⟩
    rw [h, String.toList_append, String.toList_ofList]
    rfl
  · rintro ⟨front, h⟩
    exact ⟨front.toList, by rw [h, String.toList_append]; rfl⟩

theorem Below.unique {other : String} (below : p.Below q result) (below' : p.Below q other) :
    result = other := by
  have named {front : String} (h : p.text = front ++ "/") : p.text ≠ "" := by
    rw [h]
    simp
  cases below with
  | unnamed h =>
      cases below' with
      | unnamed => rfl
      | closed front h' => exact absurd h (named h')
      | unclosed named => exact absurd h named
  | closed front h =>
      cases below' with
      | unnamed h' => exact absurd h' (named h)
      | closed => rfl
      | unclosed _ h' => exact absurd h (h' front)
  | unclosed named h =>
      cases below' with
      | unnamed h' => exact absurd h' named
      | closed front h' => exact absurd h' (h front)
      | unclosed => rfl

theorem below_join (p : Path) (relative : isAbsolute ⟨q⟩ = false) :
    p.Below q (p.join q).text := by
  rw [join, relative, if_neg (by decide)]
  split
  · next c hlast =>
      have named : p.text ≠ "" := by
        intro h
        rw [h] at hlast
        cases hlast
      split
      · next hc =>
          obtain ⟨front, hfront⟩ := endsInSlash_iff.1 (hc ▸ hlast)
          exact .closed front hfront
      · next hc =>
          refine .unclosed named fun front hfront => hc ?_
          exact Option.some.inj (hlast.symm.trans (endsInSlash_iff.2 ⟨front, hfront⟩))
  · next hempty =>
      exact .unnamed (String.toList_eq_nil_iff.1 (List.getLast?_eq_none_iff.1 hempty))

theorem Below.isAbsolute (below : p.Below q result) (absolute : p.isAbsolute = true) :
    Path.isAbsolute ⟨result⟩ = true := by
  obtain ⟨rest, hrest⟩ := List.head?_eq_some_iff.1 (of_decide_eq_true absolute)
  cases below with
  | unnamed h =>
      rw [h] at hrest
      cases hrest
  | closed | unclosed => simp [Path.isAbsolute, hrest]

end Path

/-! ## The target in effect -/

namespace Configuration

/-- The target in effect: the one that is given, and if none is given the one of the
environment. An empty one that is given hides that of the environment all the same. -/
inductive InEffect : (given environment target : Option String) → Prop
  | given {name : String} (environment : Option String) (h : name ≠ "") :
    InEffect (some name) environment (some name)
  | givenEmpty (environment : Option String) : InEffect (some "") environment none
  | environment {name : String} (h : name ≠ "") : InEffect none (some name) (some name)
  | environmentEmpty : InEffect none (some "") none
  | nowhere : InEffect none none none

variable {c : Configuration} {target : Option String} {settings : DatabaseSettings}
  {fault : ConfigurationFault}

theorem inEffect_iff {given environment : Option String} :
    InEffect given environment target ↔ target = chosenTarget given environment := by
  have named {name : String} (h : name ≠ "") : (some name).filter (· ≠ "") = some name :=
    Option.filter_some_pos (by simpa using h)
  constructor
  · rintro (⟨-, h⟩ | - | ⟨h⟩ | - | -)
    · exact (named h).symm
    · rfl
    · exact (named h).symm
    · rfl
    · rfl
  · rintro rfl
    cases given with
    | some name =>
        by_cases h : name = ""
        · subst h
          exact .givenEmpty environment
        · rw [chosenTarget, Option.some_or, named h]
          exact .given environment h
    | none =>
        cases environment with
        | none => exact .nowhere
        | some name =>
            by_cases h : name = ""
            · subst h
              exact .environmentEmpty
            · rw [chosenTarget, Option.none_or, named h]
              exact .environment h

/-- What a configuration provides for the target in effect: the base database if there is none,
and for a target that is there its own database, or the base database if it brings none. -/
inductive Provides (c : Configuration) : Option String → DatabaseSettings → Prop
  | base : Provides c none c.database
  | own {name : String} {settings : DatabaseSettings}
    (mem : (name, { database := some settings }) ∈ c.targets) : Provides c (some name) settings
  | inherited {name : String} (mem : (name, { database := none }) ∈ c.targets) :
    Provides c (some name) c.database

theorem databaseOf_eq_ok_iff (distinct : Distinct c.targets) :
    c.databaseOf target = .ok settings ↔ c.Provides target settings := by
  constructor
  · intro h
    cases target with
    | none =>
        cases h
        exact .base
    | some name =>
        cases hlookup : c.targets.lookup name with
        | none =>
            rw [databaseOf, hlookup] at h
            cases h
        | some found =>
            -- the first target of a name is the only one, so it is the one the rules speak of
            have mem := (lookup_eq_some_iff_mem distinct).1 hlookup
            rw [databaseOf, hlookup] at h
            obtain ⟨own⟩ := found
            cases own with
            | none =>
                cases h
                exact .inherited mem
            | some own =>
                cases h
                exact .own mem
  · intro h
    cases h with
    | base => rfl
    | own mem =>
        rw [databaseOf, (lookup_eq_some_iff_mem distinct).2 mem]
        rfl
    | inherited mem =>
        rw [databaseOf, (lookup_eq_some_iff_mem distinct).2 mem]
        rfl

/-- The names that the configuration has targets for. -/
def known (c : Configuration) : List String := c.targets.map (·.1)

theorem lookup_eq_none_iff {name : String} :
    c.targets.lookup name = none ↔ name ∉ c.known := by
  rw [List.lookup_eq_none_iff, known, List.mem_map]
  constructor
  · rintro h ⟨p, hp, rfl⟩
    exact bne_iff_ne.1 (h p hp) rfl
  · intro h p hp
    exact bne_iff_ne.2 fun heq => h ⟨p, hp, heq.symm⟩

theorem databaseOf_eq_error_iff : c.databaseOf target = .error fault ↔
    ∃ name, target = some name ∧ name ∉ c.known ∧ fault = .unknownTarget name c.targetNames := by
  constructor
  · intro h
    cases target with
    | none => cases h
    | some name =>
        cases hlookup : c.targets.lookup name with
        | none =>
            rw [databaseOf, hlookup] at h
            cases h
            exact ⟨name, rfl, lookup_eq_none_iff.1 hlookup, rfl⟩
        | some found =>
            rw [databaseOf, hlookup] at h
            cases h
  · rintro ⟨name, rfl, unknown, rfl⟩
    rw [databaseOf, lookup_eq_none_iff.2 unknown]

end Configuration

/-! ## The database of a project -/

namespace Project

variable {p : Project} {given environment path : Option String} {q result : String}
  {d : DatabaseSettings}

/-- Where a path leads that was chosen for a database: to memory or to a place given from the
root as it stands, and otherwise below the directory of the project. -/
inductive Leads (p : Project) (q : String) : String → Prop
  | memory (h : q = ":memory:") : Leads p q q
  | absolute (h : Path.isAbsolute ⟨q⟩ = true) : Leads p q q
  | relative {result : String} (file : q ≠ ":memory:") (h : Path.isAbsolute ⟨q⟩ = false)
    (below : p.root.Below q result) : Leads p q result

theorem leads_iff : p.Leads q result ↔ result = p.databasePath q := by
  constructor
  · rintro (h | h | ⟨file, h, below⟩)
    · exact (if_pos h).symm
    · rw [databasePath, Path.join_of_isAbsolute p.root h, ite_self]
    · rw [databasePath, if_neg (show q ≠ memoryPath from file)]
      exact below.unique (p.root.below_join h)
  · rintro rfl
    by_cases hmemory : q = memoryPath
    · rw [databasePath, if_pos hmemory]
      exact .memory hmemory
    · rw [databasePath, if_neg hmemory]
      cases h : Path.isAbsolute ⟨q⟩ with
      | true =>
          rw [Path.join_of_isAbsolute p.root h]
          exact .absolute h
      | false => exact .relative hmemory h (p.root.below_join h)

/-- The database that a project selects for the target in effect and a path that is given or
not. The path takes the place of the one that is provided; all else is as it is provided. -/
inductive Selects (p : Project) (target : Option String) : Option String → DatabaseSettings → Prop
  | given {settings : DatabaseSettings} {q result : String}
    (provides : p.configuration.Provides target settings) (leads : p.Leads q result) :
    Selects p target (some q) { settings with path := result }
  | provided {settings : DatabaseSettings} {result : String}
    (provides : p.configuration.Provides target settings)
    (leads : p.Leads settings.path result) :
    Selects p target none { settings with path := result }

/-- From a directory given from the root, every path leads to a place that does not depend on
where it is looked at from. -/
theorem Leads.leads_self (leads : p.Leads q result) (absolute : p.root.isAbsolute = true)
    (p' : Project) : p'.Leads result result := by
  cases leads with
  | memory h => exact .memory h
  | absolute h => exact .absolute h
  | relative file h below => exact .absolute (below.isAbsolute absolute)

/-- A database that is selected from a directory given from the root is selected by its path,
too, wherever the project is then. -/
theorem Selects.selects_path {target : Option String} (selects : p.Selects target path d)
    (absolute : p.root.isAbsolute = true) (root : Path) :
    { p with root }.Selects target (some d.path) d := by
  cases selects with
  | given provides leads => exact .given provides (leads.leads_self absolute _)
  | provided provides leads => exact .given provides (leads.leads_self absolute _)

/-- From a directory that is not given from the root, a path is taken anew each time. -/
example : (Project.mk ⟨"app"⟩ { name := "p" }).databasePath "p.db" = "app/p.db" ∧
    (Project.mk ⟨"app"⟩ { name := "p" }).databasePath "app/p.db" = "app/app/p.db" := by
  decide +kernel

theorem database_eq (p : Project) (given environment path : Option String) :
    p.database given environment path =
      (p.configuration.databaseOf (Configuration.chosenTarget given environment)).map
        fun settings => { settings with path := p.databasePath (path.getD settings.path) } := by
  rw [database]
  cases p.configuration.databaseOf (Configuration.chosenTarget given environment) <;> rfl

theorem database_eq_ok_iff (distinct : Configuration.Distinct p.configuration.targets) :
    p.database given environment path = .ok d ↔
      p.Selects (Configuration.chosenTarget given environment) path d := by
  rw [database_eq]
  constructor
  · intro h
    cases hprovided :
        p.configuration.databaseOf (Configuration.chosenTarget given environment) with
    | error fault =>
        rw [hprovided] at h
        cases h
    | ok settings =>
        rw [hprovided] at h
        obtain rfl := Except.ok.inj h
        have provides := (Configuration.databaseOf_eq_ok_iff distinct).1 hprovided
        cases path with
        | none => exact .provided provides (leads_iff.2 rfl)
        | some q => exact .given provides (leads_iff.2 rfl)
  · rintro (⟨provides, leads⟩ | ⟨provides, leads⟩)
    all_goals
      rw [(Configuration.databaseOf_eq_ok_iff distinct).2 provides, leads_iff.1 leads]
      rfl

theorem database_eq_error_iff {fault : ConfigurationFault} :
    p.database given environment path = .error fault ↔
      ∃ name, Configuration.chosenTarget given environment = some name ∧
        name ∉ p.configuration.known ∧ fault = .unknownTarget name p.configuration.targetNames := by
  rw [database_eq, ← Configuration.databaseOf_eq_error_iff]
  cases p.configuration.databaseOf (Configuration.chosenTarget given environment) with
  | error e => exact Iff.rfl
  | ok settings => simp [Except.map]

end Project

end SchemaLedger
