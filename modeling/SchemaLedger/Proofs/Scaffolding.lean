import SchemaLedger.Command.Run
import SchemaLedger.Proofs.Discovery
import SchemaLedger.Proofs.Template
import SchemaLedger.Proofs.WrittenMoment

/-!
# Scaffolds among other migrations

A scaffold is put into the directory of migrations under a name that begins with a number and
ends like a migration file. So the directory lists it, and since its text is a migration file
with no steps, it is a migration that does nothing. It is put only where there is no file yet.
Where the directory could be listed before, the new one is listed besides, and nothing else is
listed or loaded in another way than before.
-/

namespace SchemaLedger

/-! ## Names -/

theorem Moment.isDigit_of_mem_stamp {m : Moment} {c : Char} (h : c ∈ m.stamp.toList) :
    c.isDigit = true ∨ c = '-' ∨ c = '+' := by
  have hyear : ∀ c ∈ (yearText m.year).toList, c.isDigit = true ∨ c = '-' ∨ c = '+' := by
    intro c hc
    unfold yearText at hc
    split at hc
    · exact .inl (Text.isDigit_of_mem_zeroPadded hc)
    · rw [String.toList_append] at hc
      rcases List.mem_append.1 hc with hc | hc
      · split at hc
        · exact .inr (.inl (List.mem_singleton.1 hc))
        · exact .inr (.inr (List.mem_singleton.1 hc))
      · exact .inl (Text.isDigit_of_mem_zeroPadded hc)
  simp only [stamp, String.toList_append, List.mem_append] at h
  rcases h with ((((h | h) | h) | h) | h) | h
  · exact hyear c h
  all_goals exact .inl (Text.isDigit_of_mem_zeroPadded h)

namespace Scaffold

variable {now : Moment} {name : String}

theorem mem_identifier (accepted : Sql.isIdentifier name = true) {c : Char}
    (h : c ∈ (identifier now name).toList) : Yaml.isLiteral c = true ∨ c = '-' ∨ c = '+' := by
  simp only [identifier, String.toList_append, List.mem_append] at h
  rcases h with (h | h) | h
  · refine (Moment.isDigit_of_mem_stamp h).imp_left fun hdigit => ?_
    simp [Yaml.isLiteral, Char.isAlphanum, hdigit]
  · rw [List.mem_singleton.1 h]
    exact .inl rfl
  · exact .inl (Sql.isLiteral_of_isIdentifier accepted c h)

theorem identifier_ne (now : Moment) (name : String) : identifier now name ≠ "" := by
  simp [identifier]

/-- The migration that a scaffold is made for. -/
def migration (now : Moment) (name : String) : Name := ⟨identifier now name, identifier_ne now name⟩

theorem proper_fileName (accepted : Sql.isIdentifier name = true) :
    FileName.Proper (fileName now name) := by
  have hlong : (fileName now name).toList.getLast? = some 'l' := by
    simp [fileName]
  refine ⟨fun h => ?_, ?_, ?_, ?_⟩
  · rw [fileName, String.toList_append, List.mem_append] at h
    rcases h with h | h
    · rcases mem_identifier accepted h with h | h | h <;> exact absurd h (by decide)
    · exact absurd h (by decide)
  all_goals
    intro h
    rw [h] at hlong
    exact absurd hlong (by decide)

theorem holds_fileName (accepted : Sql.isIdentifier name = true) :
    DirectoryEntry.Holds ⟨some (fileName now name), false⟩ (migration now name)
      (fileName now name) := by
  refine ⟨rfl, rfl, ⟨"yml", by decide, ?_⟩, fun h => ?_⟩
  · rw [migration, String.append_assoc]
    rfl
  · rcases mem_identifier accepted (List.mem_of_mem_head? h) with h | h | h <;>
      exact absurd h (by decide)

/-! ## Making a scaffold -/

variable {files after : FileTree} {dir path : Path}

theorem create_of_has (accepted : Sql.isIdentifier name = true)
    (h : files.has (dir.join (fileName now name)) = true) :
    create files dir name now = (.error (.exists (dir.join (fileName now name))), files) := by
  obtain ⟨place, hplace, hdir⟩ := FileTree.exists_reach_of_has (proper_fileName accepted) h
  simp only [create, accepted, FileTree.makeDirectories_of_reach hplace hdir, h]
  rfl

theorem create_eq_ok_iff : create files dir name now = (.ok path, after) ↔
    Sql.isIdentifier name = true ∧ path = dir.join (fileName now name) ∧
      ∃ ready, files.makeDirectories dir = (.ok (), ready) ∧ ready.has path = false ∧
        ready.write path (template name) = .ok after := by
  constructor
  · intro h
    unfold create at h
    split at h
    · cases h
    · next accepted =>
        split at h
        · cases h
        · next ready made =>
            simp only [] at h
            split at h
            · cases h
            · next fresh =>
                split at h
                · next written =>
                    obtain ⟨hpath, rfl⟩ := Prod.mk.inj h
                    obtain rfl := Except.ok.inj hpath
                    exact ⟨by simpa using accepted, rfl, ready, made, eq_false_of_ne_true fresh,
                      written⟩
                · cases h
  · rintro ⟨accepted, rfl, ready, made, fresh, written⟩
    simp only [create, accepted, made, fresh, written]
    rfl

/-- A scaffold in a directory that could be listed is listed besides, does nothing, and changes
nothing for other names. -/
theorem source_of_create {names : List Name} (proper : files.Proper)
    (listed : (MigrationDirectory.source files dir).list = .ok names)
    (created : create files dir name now = (.ok path, after))
    (unlisted : migration now name ∉ names) :
    after.Proper ∧
      (MigrationDirectory.source after dir).list = .ok (Name.sort (migration now name :: names)) ∧
      MigrationDirectory.pathOf after dir (migration now name) = .ok path ∧
      (MigrationDirectory.source after dir).load (migration now name) =
        .ok { up := [], down := [] } ∧
      ∀ other, other ≠ migration now name →
        MigrationDirectory.pathOf after dir other = MigrationDirectory.pathOf files dir other ∧
        (MigrationDirectory.source after dir).load other =
          (MigrationDirectory.source files dir).load other := by
  obtain ⟨accepted, rfl, ready, made, fresh, written⟩ := create_eq_ok_iff.1 created
  have hfile : FileName.Proper (fileName now name) := proper_fileName accepted
  obtain ⟨place, hplace, hdir, hnone, rfl⟩ := FileTree.write_join_of_not_has hfile fresh written
  obtain ⟨place', hplace', hdir', -⟩ := MigrationDirectory.find_of_listed listed
  obtain rfl : files = ready := by
    have hkept := FileTree.makeDirectories_of_isDirectory
      (FileTree.isDirectory_iff.2 ⟨place', hplace', hdir'⟩)
    exact (Prod.mk.inj (hkept.symm.trans made)).2
  obtain rfl : place' = place :=
    Except.ok.inj ((FileTree.reach_of_locate hplace').symm.trans hplace)
  have keeps : files.Keeps (files.put (place' ++ [fileName now name]) (.file (template name))) :=
    .of_put hnone _
  obtain ⟨hlist, hpath, hothers⟩ := MigrationDirectory.source_of_put proper listed hplace' hnone
    (holds_fileName accepted) unlisted
  have hread := FileTree.read_join (keeps.locate hplace') (keeps.entries hdir') hfile
    (FileTree.get?_put hnone _)
  have hload := MigrationDirectory.migrationFile_load_of_read hread (parse_template accepted)
  have named : ∀ part ∈ place' ++ [fileName now name], FileName.Proper part :=
    List.forall_mem_append.2 ⟨proper.named_of_get? hdir', List.forall_mem_singleton.2 hfile⟩
  exact ⟨proper.put hnone named _, hlist, hpath,
    MigrationDirectory.load_of_pathOf hpath hload, hothers⟩

end Scaffold

variable {site : Site} {settings : Settings} {project : Project} {name : String}

theorem Site.run_make
    (loaded : Project.load site.files ⟨settings.projectDirectory⟩ settings.configuration =
      .ok project) :
    site.run ⟨settings, .make name⟩ = site.scaffold project name := by
  rw [run, loaded]
  rfl

/-- Every scaffold is a migration that can be used, whatever the name that is accepted and
whatever the moment.

If a file of that name is there, making the scaffold fails and changes nothing. Otherwise, where
the directory can be made and the file be written, the scaffold is the one new file, directly in
the directory, and there is a migration file in it that compiles to no statement in either
direction. If the migrations could be listed before, and the new one was not among them, they
are listed with it afterwards; it is loaded from the new file, and every other name has the same
file as before, or none, and the same migration. -/
theorem scaffold_usable
    (loaded : Project.load site.files ⟨settings.projectDirectory⟩ settings.configuration =
      .ok project)
    (proper : site.files.Proper) (accepted : Sql.isIdentifier name = true) :
    let dir := project.migrations
    let file := Scaffold.fileName site.now name
    let made := Scaffold.migration site.now name
    let conclusion := site.run ⟨settings, .make name⟩
    (site.files.has (dir.join file) = true →
      conclusion.failure = some (.scaffold (.exists (dir.join file))) ∧ conclusion.site = site) ∧
    ∀ ready after, site.files.makeDirectories dir = (.ok (), ready) →
      ready.has (dir.join file) = false →
      ready.write (dir.join file) (Scaffold.template name) = .ok after →
      conclusion.failure = none ∧ conclusion.printed = ["Created " ++ (dir.join file).text] ∧
      conclusion.site = { site with files := after } ∧
      (∃ place, after.reach dir = .ok place ∧ after.get? place = some .directory ∧
        after.locate (dir.join file) = .ok (place ++ [file]) ∧
        after.get? (place ++ [file]) = some (.file (Scaffold.template name)) ∧
        ∀ l, l ≠ place ++ [file] → after.get? l = ready.get? l) ∧
      (∃ f, MigrationFile.parse (Scaffold.template name) = .ok f ∧ f.up = [] ∧ f.down = [] ∧
        f.definition.up.compile = .ok [] ∧ f.definition.down.compile = .ok []) ∧
      ∀ names, (project.source site.files).list = .ok names → made ∉ names →
        ready = site.files ∧
        (project.source after).list = .ok (Name.sort (made :: names)) ∧
        MigrationDirectory.pathOf after dir made = .ok (dir.join file) ∧
        (project.source after).load made = .ok { up := [], down := [] } ∧
        ∀ other, other ≠ made →
          MigrationDirectory.pathOf after dir other =
            MigrationDirectory.pathOf site.files dir other ∧
          (project.source after).load other = (project.source site.files).load other := by
  intro dir file made conclusion
  have hconclusion : conclusion = site.scaffold project name := Site.run_make loaded
  have hfile : FileName.Proper file := Scaffold.proper_fileName accepted
  have parsed := Scaffold.parse_template accepted
  refine ⟨fun there => ?_, fun ready after hmade fresh written => ?_⟩
  · have hcreate := Scaffold.create_of_has accepted there
    rw [hconclusion, Site.scaffold, hcreate]
    exact ⟨rfl, rfl⟩
  · have hcreate := Scaffold.create_eq_ok_iff.2 ⟨accepted, rfl, ready, hmade, fresh, written⟩
    obtain ⟨place, hplace, hdir, hnone, hafter⟩ :=
      FileTree.write_join_of_not_has hfile fresh written
    rw [hconclusion, Site.scaffold, hcreate]
    refine ⟨rfl, rfl, rfl, ⟨place, ?_⟩, ⟨_, parsed, rfl, rfl, rfl, rfl⟩,
      fun names listed unlisted => ?_⟩
    · subst hafter
      have keeps : ready.Keeps (ready.put (place ++ [file]) (.file (Scaffold.template name))) :=
        .of_put hnone _
      have hlocate := (FileTree.locate_join_eq_ok_iff hfile).2
        ⟨place, keeps.reach hplace, keeps.entries hdir, rfl⟩
      exact ⟨keeps.reach hplace, keeps.entries hdir, hlocate, FileTree.get?_put hnone _,
        fun l hl => FileTree.get?_put_of_ne hnone _ hl⟩
    · obtain ⟨place', hplace', hdir', -⟩ := MigrationDirectory.find_of_listed listed
      have hkept := FileTree.makeDirectories_of_isDirectory
        (FileTree.isDirectory_iff.2 ⟨place', hplace', hdir'⟩)
      obtain ⟨-, htold⟩ := Scaffold.source_of_create proper listed hcreate unlisted
      exact ⟨(Prod.mk.inj (hmade.symm.trans hkept)).2, htold⟩

/-- A project with one migration. -/
def kennel : FileTree where
  entries := [(["tablewright.yml"], .file "name: kennel\n"), (["migrations"], .directory),
    (["migrations", "1_pets.yml"], .file "up: []")]

theorem list_kennel : MigrationDirectory.names kennel ⟨"./migrations"⟩ =
    .ok [⟨"1_pets", by decide⟩] := by
  have hlist : kennel.list ["migrations"] = [("1_pets.yml", .file "up: []")] := by
    rw [FileTree.list]
    exact List.mergeSort_of_pairwise (List.pairwise_singleton _ _)
  have hentries : MigrationDirectory.entries kennel ⟨"./migrations"⟩ =
      .ok [⟨some "1_pets.yml", false⟩] := by
    refine MigrationDirectory.entries_eq_ok_iff.2 ⟨["migrations"], by rfl, by rfl, ?_⟩
    rw [MigrationDirectory.yielded, hlist]
    rfl
  rw [MigrationDirectory.names_of_entries hentries, MigrationDirectory.namesIn,
    MigrationDirectory.scan_of_nodup (by decide +kernel)]
  exact congrArg Except.ok (List.mergeSort_of_pairwise (List.pairwise_singleton _ _))

/-- A scaffold called `null` has no description; it is listed behind the one migration there is,
and does nothing. The same command in the same second fails and changes nothing. -/
theorem scaffold_usable_of_kennel :
    ∃ (site : Site) (a b : Name), site.files = kennel ∧ a.text = "1_pets" ∧
      b.text = "20240305070809_null" ∧
      let first := site.run ⟨{}, .make "null"⟩
      first.failure = none ∧ first.printed = ["Created ./migrations/20240305070809_null.yml"] ∧
        (MigrationDirectory.source first.site.files ⟨"./migrations"⟩).list = .ok [a, b] ∧
        (MigrationDirectory.source first.site.files ⟨"./migrations"⟩).load b =
          .ok { up := [], down := [] } ∧
        let second := first.site.run ⟨{}, .make "null"⟩
        second.failure = some (.scaffold (.exists ⟨"./migrations/20240305070809_null.yml"⟩)) ∧
          second.site = first.site := by
  let site : Site := { files := kennel, now := ⟨2024, 3, 5, 7, 8, 9, 0⟩ }
  let project : Project := ⟨⟨"."⟩, { name := "kennel" }⟩
  let place : Location := ["migrations", "20240305070809_null.yml"]
  let after := kennel.put place (.file (Scaffold.template "null"))
  have proper : kennel.Proper := ⟨by decide +kernel, by decide +kernel⟩
  have hnone : kennel.get? place = none := by decide +kernel
  have made : kennel.makeDirectories ⟨"./migrations"⟩ = (.ok (), kennel) :=
    FileTree.makeDirectories_of_reach (show kennel.reach _ = .ok ["migrations"] by rfl) (by rfl)
  have hdir : project.migrations = ⟨"./migrations"⟩ := by decide +kernel
  have hfile : Scaffold.fileName site.now "null" = "20240305070809_null.yml" := by decide +kernel
  have hjoin : Path.join ⟨"./migrations"⟩ "20240305070809_null.yml" =
      ⟨"./migrations/20240305070809_null.yml"⟩ := by decide +kernel
  have usable (files : FileTree) (hfiles : files.Proper)
      (loaded : Project.load files ⟨"."⟩ none = .ok project) :=
    @scaffold_usable { site with files } {} project "null" loaded hfiles (by decide)
  simp only [hdir, hfile, hjoin, Project.source] at usable
  obtain ⟨-, hwrite⟩ := usable kennel proper (by rfl)
  obtain ⟨succeeds, prints, leaves, -, -, lists⟩ :=
    hwrite kennel after made (by decide +kernel) (by rfl)
  obtain ⟨-, hlist, -, hload, -⟩ := lists _ list_kennel (by decide +kernel)
  obtain ⟨there, -⟩ := usable after (proper.put hnone (by decide +kernel) _) (by rfl)
  obtain ⟨fails, same⟩ := there (by decide +kernel)
  refine ⟨site, ⟨"1_pets", by decide⟩, Scaffold.migration site.now "null", rfl, rfl,
    by decide +kernel, succeeds, prints, ?_, ?_, ?_⟩
  · rw [leaves]
    refine hlist.trans (congrArg Except.ok ?_)
    rw [Name.sort_eq_of_perm (by decide +kernel) (List.Perm.swap _ _ _)]
    exact List.mergeSort_of_pairwise (by decide +kernel)
  · rw [leaves]
    exact hload
  · rw [leaves]
    exact ⟨fails, same⟩

end SchemaLedger
