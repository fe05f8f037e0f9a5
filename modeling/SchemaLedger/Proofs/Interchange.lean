import SchemaLedger.Migrate.Revert
import SchemaLedger.Migrate.Status
import SchemaLedger.Proofs.Discovery
import SchemaLedger.Proofs.Exchange

/-!
# A registry in place of a directory

Migrations can be kept in files or registered by a program that has read the same texts
itself. A registry reads nothing again and keeps the definition that a name was first
registered for; a directory is scanned for each question and reads a file whenever it is
asked for. But if the names and texts are the same, the two are the same source: they list the
same names and load the same definitions, and so nothing that is done with a database can
tell them apart.
-/

namespace SchemaLedger

/-! ## Registering -/

namespace Registry

variable {r : Registry} {name : Name} {definition : Definition}

/-- Tries to register a definition. The registry stays as it is if that is rejected. -/
def attempt (r : Registry) (a : Name × Definition) : Registry :=
  match r.register a.1 a.2 with
  | .ok r' => r'
  | .error _ => r

/-- The registry that some attempts leave. -/
def ofAttempts (attempts : List (Name × Definition)) : Registry := attempts.foldl attempt {}

theorem register_of_taken (taken : (r.find? name).isSome) (definition : Definition) :
    r.register name definition = .error (.duplicateMigration name.text placeName placeName) :=
  if_pos taken

theorem register_of_free (free : r.find? name = none) (definition : Definition) :
    r.register name definition = .ok ⟨r.entries ++ [(name, definition)]⟩ := by
  rw [register, free]
  rfl

theorem find?_attempt (r : Registry) (a : Name × Definition) (name : Name) :
    (r.attempt a).find? name = (r.find? name).or ([a].lookup name) := by
  rw [attempt]
  cases hfind : r.find? a.1 with
  | some first =>
      rw [register_of_taken (by rw [hfind]; rfl)]
      simp only []
      by_cases hname : name = a.1
      · rw [hname, hfind, Option.some_or]
      · have hbeq : (name == a.1) = false := beq_eq_false_iff_ne.2 hname
        rw [List.lookup_cons, hbeq]
        exact (Option.or_none).symm
  | none =>
      rw [register_of_free hfind]
      exact List.lookup_append

theorem find?_foldl_attempt (r : Registry) (attempts : List (Name × Definition)) (name : Name) :
    (attempts.foldl attempt r).find? name = (r.find? name).or (attempts.lookup name) := by
  induction attempts generalizing r with
  | nil => exact (Option.or_none).symm
  | cons a rest ih =>
      rw [List.foldl_cons, ih, find?_attempt, Option.or_assoc, ← List.lookup_append,
        List.singleton_append]

theorem Registered.attempt (h : r.Registered) (a : Name × Definition) :
    (r.attempt a).Registered := by
  rw [Registry.attempt]
  split
  · next r' added => exact .register h added
  · exact h

theorem registered_ofAttempts (attempts : List (Name × Definition)) :
    (ofAttempts attempts).Registered := by
  have hall (r : Registry) (h : r.Registered) : (attempts.foldl attempt r).Registered := by
    induction attempts generalizing r with
    | nil => exact h
    | cons a rest ih => exact ih _ (h.attempt a)
  exact hall {} .empty

/-- A name has the definition that it was first tried with. -/
theorem find?_ofAttempts (attempts : List (Name × Definition)) (name : Name) :
    (ofAttempts attempts).find? name = attempts.lookup name := by
  rw [ofAttempts, find?_foldl_attempt]
  rfl

theorem mem_names_iff : name ∈ r.names ↔ (r.find? name).isSome := by
  rw [names, Name.sort, List.mem_mergeSort, find?, ← not_iff_not, Option.not_isSome_iff_eq_none,
    List.lookup_eq_none_iff]
  simp only [List.mem_map, not_exists, not_and, bne_iff_ne, ne_comm]

end Registry

/-! ## Texts in files -/

/-- A migration as it is written: its name, the ending of the file it is in, and its text. The
last is what the text reads as. -/
structure Written where
  name : Name
  ending : String
  text : String
  file : MigrationFile

/-- The name of the file. -/
def Written.fileName (w : Written) : String := w.name.text ++ "." ++ w.ending

/-- What is registered for the migration. -/
def Written.entry (w : Written) : Name × Definition := (w.name, w.file.definition)

/-- A directory holds some written migrations, each in a file of its own, and no others. -/
structure MigrationDirectory.Holds (files : FileTree) (dir : Path) (place : Location)
    (ws : List Written) :
    Prop where
  proper : files.Proper
  located : files.locate dir = .ok place
  directory : files.get? place = some .directory
  distinct : (ws.map (·.name)).Nodup
  visible : ∀ w ∈ ws, w.name.text.toList.head? ≠ some '.'
  ending : ∀ w ∈ ws, w.ending ∈ ["yml", "yaml"]
  parsed : ∀ w ∈ ws, MigrationFile.parse w.text = .ok w.file
  present : ∀ w ∈ ws, (place ++ [w.fileName], .file w.text) ∈ files.entries
  only : ∀ file e, (file, e) ∈ files.list place → ∀ name,
    (⟨some file, e = .directory⟩ : DirectoryEntry).Holds name file →
      ∃ w ∈ ws, w.name = name ∧ w.fileName = file

namespace MigrationDirectory.Holds

variable {files : FileTree} {dir : Path} {place : Location} {ws : List Written}

theorem entries_eq (h : Holds files dir place ws) : entries files dir = .ok (yielded files place) :=
  entries_eq_ok_iff.2 ⟨place, h.located, h.directory, rfl⟩

theorem holds_of_mem (h : Holds files dir place ws) {w : Written} (hw : w ∈ ws) :
    ∃ e ∈ yielded files place, e.Holds w.name w.fileName := by
  refine ⟨⟨some w.fileName, false⟩, ?_, rfl, rfl, ⟨w.ending, h.ending w hw, rfl⟩, h.visible w hw⟩
  exact List.mem_map.2 ⟨(w.fileName, .file w.text), FileTree.mem_list.2 (h.present w hw), rfl⟩

theorem mem_of_holds (h : Holds files dir place ws) {e : DirectoryEntry}
    (he : e ∈ yielded files place) {name : Name} {file : String} (holds : e.Holds name file) :
    ∃ w ∈ ws, w.name = name ∧ w.fileName = file := by
  obtain ⟨⟨file', entry⟩, hmem, rfl⟩ := List.mem_map.1 he
  obtain rfl : file' = file := Option.some.inj holds.named
  exact h.only file' entry hmem name holds

theorem eq_of_name (h : Holds files dir place ws) {w w' : Written} (hw : w ∈ ws) (hw' : w' ∈ ws)
    (hname : w.name = w'.name) : w = w' :=
  List.inj_on_of_nodup_map h.distinct hw hw' hname

/-- No two files hold one migration, because no two migrations have one name and no two
entries of a directory do. -/
theorem alone (h : Holds files dir place ws) :
    ¬ ∃ name f g, Clash (yielded files place) name f g := by
  rintro ⟨name, f, g, a, b, hpair, hf, hg⟩
  obtain ⟨w, hw, hname, rfl⟩ := h.mem_of_holds (hpair.subset (by simp)) hf
  obtain ⟨w', hw', hname', rfl⟩ := h.mem_of_holds (hpair.subset (by simp)) hg
  obtain rfl := h.eq_of_name hw hw' (hname.trans hname'.symm)
  have distinct : ((yielded files place).map (·.name)).Nodup := by
    have hnames := (h.proper.nodup_list place).map fun _ _ => Option.some.inj
    rw [List.map_map] at hnames
    rw [yielded, List.map_map]
    exact hnames
  have htwice := hpair.map (·.name)
  rw [List.map_cons, List.map_singleton, hf.named, hg.named] at htwice
  exact List.nodup_iff_sublist.1 distinct _ htwice

theorem parse_of_mem (h : Holds files dir place ws) {w : Written} (hw : w ∈ ws) :
    MigrationFile.load files (dir.join w.fileName) = .ok w.file := by
  have hmem := FileTree.mem_list.2 (h.present w hw)
  exact migrationFile_load_of_read (FileTree.read_join h.located h.directory
    (h.proper.of_mem_list hmem) (h.proper.get?_of_mem_list hmem)) (h.parsed w hw)

/-- The names that the directory lists are those of the migrations, and for each of them the
definition that its text means is loaded. -/
theorem source_eq (h : Holds files dir place ws) :
    ∃ names, (source files dir).list = .ok names ∧ names.Pairwise (·.bytes < ·.bytes) ∧
      (∀ name, name ∈ names ↔ ∃ w ∈ ws, w.name = name) ∧
      (∀ w ∈ ws, (source files dir).load w.name = .ok w.file.definition) ∧
      ∀ name ∉ names, (source files dir).load name = .error (.migrationNotFound name.text) := by
  obtain ⟨names, hsorted, hmem, found⟩ := discovers files dir h.alone
  have hfound := found _ (.refl _)
  have hnames (name : Name) : name ∈ names ↔ ∃ w ∈ ws, w.name = name := by
    rw [hmem]
    constructor
    · rintro ⟨e, he, file, holds⟩
      obtain ⟨w, hw, hname, -⟩ := h.mem_of_holds he holds
      exact ⟨w, hw, hname⟩
    · rintro ⟨w, hw, rfl⟩
      obtain ⟨e, he, holds⟩ := h.holds_of_mem hw
      exact ⟨e, he, w.fileName, holds⟩
  refine ⟨names, (names_of_entries h.entries_eq).trans hfound.listed, hsorted, hnames,
    fun w hw => ?_, fun name hname => ?_⟩
  · obtain ⟨e, he, holds⟩ := h.holds_of_mem hw
    have hload : loadIn files dir (yielded files place) w.name = _ :=
      loadIn_of_holds h.alone he holds
    rw [h.parse_of_mem hw] at hload
    exact (load_of_entries h.entries_eq).trans hload
  · refine (load_of_entries h.entries_eq).trans (loadIn_of_not_holds h.alone ?_)
    exact fun e he file holds => hname ((hmem name).2 ⟨e, he, file, holds⟩)

end MigrationDirectory.Holds

/-! ## Interchanging the two -/

namespace Registry

variable {files : FileTree} {dir : Path} {place : Location} {ws : List Written}
  {attempts : List (Name × Definition)}

/-- A registry whose names were first tried with what the texts of a directory read as is the
same source as the directory. -/
theorem source_ofAttempts (h : MigrationDirectory.Holds files dir place ws)
    (registered : ∀ name, attempts.lookup name = (ws.map Written.entry).lookup name) :
    (ofAttempts attempts).source = MigrationDirectory.source files dir := by
  obtain ⟨names, hlist, hsorted, hmem, hload, hunknown⟩ := h.source_eq
  have distinct : ((ws.map Written.entry).map (·.1)).Nodup := by
    rw [List.map_map]
    exact h.distinct
  have hfind {name : Name} {definition : Definition} :
      (ofAttempts attempts).find? name = some definition ↔
        ∃ w ∈ ws, w.name = name ∧ w.file.definition = definition := by
    rw [find?_ofAttempts, registered, lookup_eq_some_iff_mem distinct, List.mem_map]
    simp only [Written.entry, Prod.mk.injEq]
  have hnames : (ofAttempts attempts).names = names := by
    refine List.Perm.eq_of_pairwise (fun a b _ _ hab hba => absurd hba (List.lt_asymm hab))
      (Name.pairwise_sort (registered_ofAttempts attempts).distinct) hsorted ?_
    refine (List.perm_ext_iff_of_nodup ?_ ?_).2 fun name => ?_
    · exact (Registry.ordered (registered_ofAttempts attempts)).nodup rfl
    · exact (MigrationDirectory.ordered files dir).nodup hlist
    · rw [mem_names_iff, hmem, Option.isSome_iff_exists]
      constructor
      · rintro ⟨definition, hdefinition⟩
        obtain ⟨w, hw, hname, -⟩ := hfind.1 hdefinition
        exact ⟨w, hw, hname⟩
      · rintro ⟨w, hw, hname⟩
        exact ⟨w.file.definition, hfind.2 ⟨w, hw, hname, rfl⟩⟩
  have hloads : (ofAttempts attempts).load = MigrationDirectory.load files dir := by
    funext name
    by_cases hname : name ∈ names
    · obtain ⟨w, hw, rfl⟩ := (hmem name).1 hname
      rw [load, hfind.2 ⟨w, hw, rfl, rfl⟩]
      exact (hload w hw).symm
    · have hnone : (ofAttempts attempts).find? name = none := by
        refine Option.eq_none_iff_forall_ne_some.2 fun definition hdefinition => hname ?_
        obtain ⟨w, hw, hw', -⟩ := hfind.1 hdefinition
        exact (hmem name).2 ⟨w, hw, hw'⟩
      rw [load, hnone]
      exact (hunknown name hname).symm
  rw [source, hnames, hloads, ← hlist]
  rfl

open Migrate in
/-- A directory of migrations and a registry of what their texts read as are interchangeable.
The registry comes about by any attempts to register, in any order, as long as each name is
tried first with what its text reads as. What is tried with a name that is taken is rejected,
and leaves the registry as it is, and the name with its first definition.

Both list the same names in ascending order, and load definitions that compile to the same in
either direction; a name that is not there is missed in the same way. So with any database and
from any state of it, applying, planning, reverting and showing the status go through the same
calls and end with the same result. -/
theorem sources_interchangeable (h : MigrationDirectory.Holds files dir place ws)
    (registered : ∀ name, attempts.lookup name = (ws.map Written.entry).lookup name) :
    (∃ names, (ofAttempts attempts).source.list = .ok names ∧
      (MigrationDirectory.source files dir).list = .ok names ∧
      names.Pairwise (·.bytes < ·.bytes) ∧ ∀ name, name ∈ names ↔ ∃ w ∈ ws, w.name = name) ∧
    (∀ w ∈ ws, ∃ d d', (ofAttempts attempts).source.load w.name = .ok d ∧
      (MigrationDirectory.source files dir).load w.name = .ok d' ∧
      d.up.compile = d'.up.compile ∧ d.down.compile = d'.down.compile) ∧
    (∀ name, (ofAttempts attempts).source.load name =
      (MigrationDirectory.source files dir).load name) ∧
    (∀ before name definition, (before.lookup name).isSome →
      (ofAttempts before).register name definition =
          .error (.duplicateMigration name.text placeName placeName) ∧
        ofAttempts (before ++ [(name, definition)]) = ofAttempts before ∧
        (ofAttempts before).find? name = before.lookup name) ∧
    ∀ {σ : Type} (db : Database σ) (s : σ) (table : String),
      (apply (ofAttempts attempts).source table).hold db s =
          (apply (MigrationDirectory.source files dir) table).hold db s ∧
        (plan (ofAttempts attempts).source table).hold db s =
          (plan (MigrationDirectory.source files dir) table).hold db s ∧
        (status (ofAttempts attempts).source table).hold db s =
          (status (MigrationDirectory.source files dir) table).hold db s ∧
        (revert (ofAttempts attempts).source table).hold db s =
          (revert (MigrationDirectory.source files dir) table).hold db s := by
  have hsource := source_ofAttempts h registered
  obtain ⟨names, hlist, hsorted, hmem, hload, -⟩ := h.source_eq
  rw [hsource]
  refine ⟨⟨names, hlist, hlist, hsorted, hmem⟩,
    fun w hw => ⟨_, _, hload w hw, hload w hw, rfl, rfl⟩,
    fun _ => rfl, fun before name definition taken => ?_, fun _ _ _ => ⟨rfl, rfl, rfl, rfl⟩⟩
  rw [← find?_ofAttempts] at taken
  have hreject := register_of_taken taken definition
  refine ⟨hreject, ?_, find?_ofAttempts before name⟩
  rw [ofAttempts, List.foldl_append, List.foldl_cons, List.foldl_nil]
  change attempt (ofAttempts before) (name, definition) = _
  rw [attempt, hreject]

/-- Two migrations in files, and a note. -/
def shelf : FileTree where
  entries := [(["m"], .directory), (["m", "001_users.yml"], .file "up:\n  - raw: SELECT 1\n"),
    (["m", "002_teams.yaml"], .file "up: []\n"), (["m", "notes.txt"], .file "")]

/-- The same two migrations as they are written. -/
def shelved : List Written :=
  [⟨⟨"001_users", by decide⟩, "yml", "up:\n  - raw: SELECT 1\n", ⟨none, [.raw "SELECT 1"], []⟩⟩,
    ⟨⟨"002_teams", by decide⟩, "yaml", "up: []\n", ⟨none, [], []⟩⟩]

theorem holds_shelf : MigrationDirectory.Holds shelf ⟨"m"⟩ ["m"] shelved where
  proper := ⟨by decide, by decide⟩
  located := rfl
  directory := rfl
  distinct := by decide
  visible := by decide
  ending := by decide
  parsed w hw := by
    rcases List.mem_pair.1 hw with rfl | rfl <;> rfl
  present := by decide
  only file e hmem name holds := by
    have hheld := DirectoryEntry.migration?_eq_some_iff.2 holds
    have hentry := FileTree.mem_list.1 hmem
    simp only [shelf, List.mem_cons, Prod.mk.injEq, List.singleton_append, List.cons.injEq,
      List.not_mem_nil, reduceCtorEq, and_false, false_and, false_or, or_false, true_and,
      and_true] at hentry
    rcases hentry with ⟨rfl, rfl⟩ | ⟨rfl, rfl⟩ | ⟨rfl, rfl⟩
    · have ha : DirectoryEntry.migration? ⟨some "001_users.yml", false⟩ =
          some ("001_users.yml", (⟨"001_users", by decide⟩ : Name)) := by decide +kernel
      cases ha.symm.trans hheld
      exact ⟨_, List.mem_cons_self, rfl, rfl⟩
    · have hb : DirectoryEntry.migration? ⟨some "002_teams.yaml", false⟩ =
          some ("002_teams.yaml", (⟨"002_teams", by decide⟩ : Name)) := by decide +kernel
      cases hb.symm.trans hheld
      exact ⟨_, List.mem_cons_of_mem _ List.mem_cons_self, rfl, rfl⟩
    · have hnone : DirectoryEntry.migration? ⟨some "notes.txt", false⟩ = none := by decide +kernel
      cases hnone.symm.trans hheld

/-- The two are registered in the other order, and one of them is tried again with something
else. Applying goes the same way as from the files. -/
theorem sources_interchangeable_of_shelf :
    let attempts : List (Name × Definition) :=
      [(⟨"002_teams", by decide⟩, { up := [] }),
        (⟨"001_users", by decide⟩, { up := [.raw "SELECT 1"] }),
        (⟨"002_teams", by decide⟩, { up := [.raw "SELECT 2"] })]
    (∃ e, (ofAttempts (attempts.take 2)).register ⟨"002_teams", by decide⟩
        { up := [.raw "SELECT 2"] } =
        .error e) ∧
      (ofAttempts attempts).source.load ⟨"002_teams", by decide⟩ =
        (MigrationDirectory.source shelf ⟨"m"⟩).load ⟨"002_teams", by decide⟩ ∧
      ∀ {σ : Type} (db : Database σ) (s : σ),
        (Migrate.apply (ofAttempts attempts).source "m").hold db s =
        (Migrate.apply (MigrationDirectory.source shelf ⟨"m"⟩) "m").hold db s := by
  intro attempts
  have registered (name : Name) :
      attempts.lookup name = (shelved.map Written.entry).lookup name := by
    by_cases ha : name = ⟨"001_users", by decide⟩
    · rw [ha]
      rfl
    by_cases hb : name = ⟨"002_teams", by decide⟩
    · rw [hb]
      rfl
    rw [List.lookup_eq_none_iff.2, List.lookup_eq_none_iff.2]
    · simp [shelved, Written.entry, ha, hb]
    · simp [attempts, ha, hb]
  obtain ⟨-, -, hload, hreject, hsame⟩ := sources_interchangeable holds_shelf registered
  exact ⟨⟨_, (hreject (attempts.take 2) _ _ (by decide)).1⟩, hload _,
    fun db s => (hsame db s "m").1⟩

end Registry

end SchemaLedger
