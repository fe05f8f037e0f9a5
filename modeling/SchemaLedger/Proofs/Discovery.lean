import Mathlib.Data.List.Pairwise
import Mathlib.Data.List.Perm.Basic
import Mathlib.Data.List.TakeWhile
import SchemaLedger.Proofs.FileLookup
import SchemaLedger.Proofs.SourceOrder

/-!
# What a directory of migrations holds

A directory yields its entries in no particular order, and it is read once to list the
migrations and again for each that is loaded. So listing and loading are taken here for
entries in any order, and for entries that are no migrations as well as for those that are.
What counts is just which entries hold which migrations: an entry does if it is no directory
and is called as the migration, with one of two endings and no dot in front. If two entries
hold one migration, there is nothing to list. Otherwise every order gives the same names, and
each of them stands for one file.
-/

namespace SchemaLedger

/-! ## Names of files -/

namespace FileName

/-- A name has an extension if it has a dot with something in front of it. -/
theorem parts_eq_some_iff {file stem extension : String} :
    parts file = (stem, some extension) ↔
      file = stem ++ "." ++ extension ∧ stem ≠ "" ∧ '.' ∉ extension.toList ∧ file ≠ ".." := by
  have hdots : (".." : String).toList = ['.', '.'] := rfl
  constructor
  · intro h
    have hsplit := List.takeWhile_append_dropWhile (p := (· ≠ '.')) (l := file.toList.reverse)
    unfold parts at h
    simp only [] at h
    split at h
    · cases h
    · next c before hdrop =>
        split at h
        · cases h
        · next hproper =>
            obtain ⟨rfl, hext⟩ := Prod.mk.inj h
            obtain rfl := Option.some.inj hext
            have hc : c = '.' := by
              have hhead := List.head?_dropWhile_not (· ≠ '.') file.toList.reverse
              rw [hdrop] at hhead
              simpa using hhead
            simp only [Bool.or_eq_true, List.isEmpty_iff, decide_eq_true_eq, not_or] at hproper
            refine ⟨?_, ?_, ?_, hproper.2⟩
            · apply String.toList_injective
              rw [hdrop, hc] at hsplit
              have := congrArg List.reverse hsplit
              simpa using this.symm
            · simpa using hproper.1
            · intro hmem
              rw [String.toList_ofList, List.mem_reverse] at hmem
              simpa using List.mem_takeWhile_imp hmem
  · rintro ⟨rfl, hstem, hext, hne⟩
    have hall : ∀ c ∈ extension.toList.reverse, decide (c ≠ '.') = true := fun c hc =>
      decide_eq_true fun h => hext (h ▸ List.mem_reverse.1 hc)
    have hreverse : (stem ++ "." ++ extension).toList.reverse =
        extension.toList.reverse ++ '.' :: stem.toList.reverse := by
      simp
    unfold parts
    simp only [hreverse, List.dropWhile_append_of_pos hall, List.takeWhile_append_of_pos hall]
    simp [hstem, hne]

end FileName

/-! ## Entries -/

theorem Name.ofText?_eq_some_iff {s : String} {name : Name} :
    ofText? s = some name ↔ name.text = s := by
  constructor
  · intro h
    unfold ofText? at h
    split at h
    · cases h
    · cases h
      rfl
  · rintro rfl
    exact ofText?_text name

/-- An entry holds a migration if it is no directory, and is called as the migration with one
of the two endings, and is not hidden. -/
structure DirectoryEntry.Holds (e : DirectoryEntry) (name : Name) (file : String) : Prop where
  isFile : e.isDirectory = false
  named : e.name = some file
  ending : ∃ extension ∈ ["yml", "yaml"], file = name.text ++ "." ++ extension
  visible : name.text.toList.head? ≠ some '.'

namespace DirectoryEntry

theorem parts_of_mem_extensions (name : Name) {extension : String} (h : extension ∈ extensions) :
    FileName.parts (name.text ++ "." ++ extension) = (name.text, some extension) := by
  rw [FileName.parts_eq_some_iff]
  rcases List.mem_pair.1 h with rfl | rfl
  · exact ⟨rfl, name.nonempty, by decide, fun h => by
      simpa using congrArg (·.toList.getLast?) h⟩
  · exact ⟨rfl, name.nonempty, by decide, fun h => by
      simpa using congrArg (·.toList.getLast?) h⟩

theorem migration?_eq_some_iff {e : DirectoryEntry} {file : String} {name : Name} :
    e.migration? = some (file, name) ↔ e.Holds name file := by
  unfold migration?
  constructor
  · intro h
    split at h
    · cases h
    · next hfile =>
        obtain ⟨file', hnamed, h⟩ := Option.bind_eq_some_iff.1 h
        simp only [Bool.and_eq_true, decide_eq_true_eq] at h
        split at h
        · next hcond =>
            obtain ⟨name', hname, hpair⟩ := Option.map_eq_some_iff.1 h
            obtain ⟨rfl, rfl⟩ := Prod.mk.inj hpair
            obtain ⟨extension, hparts, hext⟩ := (Option.any_eq_true _ _).1 hcond.1
            have hstem := Name.ofText?_eq_some_iff.1 hname
            have hfile' := (FileName.parts_eq_some_iff.1 (Prod.ext hstem.symm hparts :
              FileName.parts file' = (name'.text, some extension))).1
            exact ⟨eq_false_of_ne_true hfile, hnamed,
              ⟨extension, List.contains_iff_mem.1 hext, hfile'⟩, hstem ▸ hcond.2⟩
        · cases h
  · rintro ⟨hfile, hnamed, ⟨extension, hmem, rfl⟩, hvisible⟩
    have hparts := parts_of_mem_extensions name hmem
    rw [hfile, hnamed]
    simp only [Option.bind_some, FileName.stem, FileName.extension?, hparts, Option.any_some]
    rw [if_neg (by decide), if_pos, Name.ofText?_text]
    · rfl
    · simpa [extensions, hvisible] using hmem

end DirectoryEntry

theorem Name.sort_eq_of_perm {names names' : List Name} (distinct : names'.Nodup)
    (perm : names.Perm names') : Name.sort names = Name.sort names' := by
  have hsorted := Name.pairwise_sort (perm.nodup_iff.2 distinct)
  refine List.Perm.eq_of_pairwise (fun a b _ _ hab hba => ?_) hsorted (Name.pairwise_sort distinct)
    (((List.mergeSort_perm names Name.le).trans perm).trans
      (List.mergeSort_perm names' Name.le).symm)
  exact absurd hba (List.lt_asymm hab)

/-! ## Scanning -/

namespace MigrationDirectory

/-- The migrations that entries hold, in the order of the entries. -/
def held (dir : Path) (es : List DirectoryEntry) : List (Name × Path) :=
  es.filterMap fun e => e.migration?.map fun m => (m.2, dir.join m.1)

variable {dir : Path} {es order : List DirectoryEntry} {name : Name}

theorem held_cons_of_none {e : DirectoryEntry} (h : e.migration? = none) :
    held dir (e :: es) = held dir es := by
  simp [held, h]

theorem held_cons_of_some {e : DirectoryEntry} {file : String}
    (h : e.migration? = some (file, name)) :
    held dir (e :: es) = (name, dir.join file) :: held dir es := by
  simp [held, h]

theorem mem_held_iff {path : Path} :
    (name, path) ∈ held dir es ↔ ∃ e ∈ es, ∃ file, e.Holds name file ∧ path = dir.join file := by
  simp only [held, List.mem_filterMap, Option.map_eq_some_iff, Prod.exists,
    DirectoryEntry.migration?_eq_some_iff, Prod.mk.injEq]
  constructor
  · rintro ⟨e, he, file, _, h, rfl, rfl⟩
    exact ⟨e, he, file, h, rfl⟩
  · rintro ⟨e, he, file, h, rfl⟩
    exact ⟨e, he, file, name, h, rfl, rfl⟩

/-- Scanning finds what the entries hold, unless it comes upon a name for the second time. -/
theorem scanFrom_cases {found : List (Name × Path)} (distinct : (found.map (·.1)).Nodup) :
    (scanFrom dir found es = .ok (found ++ held dir es) ∧
        ((found ++ held dir es).map (·.1)).Nodup) ∨
      ∃ name first second, [(name, first), (name, second)].Sublist (found ++ held dir es) ∧
        scanFrom dir found es = .error (.duplicateMigration name.text first.text second.text) := by
  induction es generalizing found with
  | nil => exact .inl ⟨by rw [held, List.filterMap_nil, List.append_nil]; rfl, by simpa [held]⟩
  | cons e rest ih =>
      unfold scanFrom
      split
      · next hnone =>
          rw [held_cons_of_none hnone]
          exact ih distinct
      · next file name hsome =>
          rw [held_cons_of_some hsome]
          simp only []
          split
          · next first hfirst =>
              obtain ⟨before, after, rfl, -⟩ := List.lookup_eq_some_iff.1 hfirst
              refine .inr ⟨name, first, dir.join file, ?_, rfl⟩
              have hfirst : [(name, first)].Sublist (before ++ (name, first) :: after) := by simp
              exact hfirst.append (by simp)
          · next hfresh =>
              simpa using ih (nodup_append_of_lookup distinct hfresh)

/-- Two entries hold one migration: the one that comes first as `f`, the other one as `g`. -/
def Clash (es : List DirectoryEntry) (name : Name) (f g : String) : Prop :=
  ∃ a b, [a, b].Sublist es ∧ a.Holds name f ∧ b.Holds name g

theorem pair_sublist_held_iff {first second : Path} :
    [(name, first), (name, second)].Sublist (held dir es) ↔
      ∃ f g, Clash es name f g ∧ first = dir.join f ∧ second = dir.join g := by
  have hmap {e : DirectoryEntry} {file : String} (h : e.Holds name file) :
      e.migration?.map (fun m => (m.2, dir.join m.1)) = some (name, dir.join file) := by
    rw [DirectoryEntry.migration?_eq_some_iff.2 h, Option.map_some]
  have hholds {e : DirectoryEntry} {path : Path}
      (h : e.migration?.map (fun m => (m.2, dir.join m.1)) = some (name, path)) :
      ∃ file, e.Holds name file ∧ path = dir.join file := by
    obtain ⟨⟨file, name'⟩, hm, hpair⟩ := Option.map_eq_some_iff.1 h
    obtain ⟨rfl, rfl⟩ := Prod.mk.inj hpair
    exact ⟨file, DirectoryEntry.migration?_eq_some_iff.1 hm, rfl⟩
  constructor
  · intro h
    obtain ⟨part, hpart, heq⟩ := List.sublist_filterMap_iff.1 h
    obtain ⟨_, a, behind, rfl, -, ha, hbehind⟩ := List.filterMap_eq_cons_iff.1 heq.symm
    obtain ⟨_, b, _, rfl, -, hb, -⟩ := List.filterMap_eq_cons_iff.1 hbehind
    obtain ⟨f, hf, rfl⟩ := hholds ha
    obtain ⟨g, hg, rfl⟩ := hholds hb
    refine ⟨f, g, ⟨a, b, List.Sublist.trans ?_ hpart, hf, hg⟩, rfl, rfl⟩
    exact (List.Sublist.cons_cons a (by simp)).trans (List.sublist_append_right ..)
  · rintro ⟨f, g, ⟨a, b, hab, ha, hb⟩, rfl, rfl⟩
    refine List.sublist_filterMap_iff.2 ⟨[a, b], hab, ?_⟩
    simp only [List.filterMap_cons, hmap ha, hmap hb, List.filterMap_nil]

theorem Clash.not_nodup {f g : String} (h : Clash es name f g) :
    ¬ ((held dir es).map (·.1)).Nodup := by
  have hpair : [(name, dir.join f), (name, dir.join g)].Sublist (held dir es) :=
    pair_sublist_held_iff.2 ⟨f, g, h, rfl, rfl⟩
  exact fun distinct => List.nodup_iff_sublist.1 distinct name (hpair.map Prod.fst)

/-- Either no two entries hold one migration, or scanning fails for two that do. -/
theorem scan_cases (dir : Path) (es : List DirectoryEntry) :
    (scan dir es = .ok (held dir es) ∧ ((held dir es).map (·.1)).Nodup) ∨
      ∃ name f g, Clash es name f g ∧ scan dir es =
        .error (.duplicateMigration name.text (dir.join f).text (dir.join g).text) := by
  have hcases := @scanFrom_cases dir es [] List.nodup_nil
  rcases hcases with ⟨hscan, distinct⟩ | ⟨name, first, second, hpair, hscan⟩
  · exact .inl ⟨hscan, distinct⟩
  · obtain ⟨f, g, clash, rfl, rfl⟩ := pair_sublist_held_iff.1 hpair
    exact .inr ⟨name, f, g, clash, hscan⟩

theorem nodup_held_iff (dir : Path) :
    ((held dir es).map (·.1)).Nodup ↔ ¬ ∃ name f g, Clash es name f g := by
  constructor
  · rintro distinct ⟨name, f, g, clash⟩
    exact clash.not_nodup distinct
  · intro h
    rcases scan_cases dir es with ⟨-, distinct⟩ | ⟨name, f, g, clash, -⟩
    · exact distinct
    · exact absurd ⟨name, f, g, clash⟩ h

theorem scan_of_nodup (distinct : ((held dir es).map (·.1)).Nodup) :
    scan dir es = .ok (held dir es) := by
  rcases scan_cases dir es with ⟨hscan, -⟩ | ⟨name, f, g, clash, -⟩
  · exact hscan
  · exact absurd distinct clash.not_nodup

theorem held_perm (dir : Path) (perm : order.Perm es) : (held dir order).Perm (held dir es) :=
  perm.filterMap _

/-- Where no two entries hold one migration, at most one holds a given one. -/
theorem holds_unique (alone : ¬ ∃ name f g, Clash es name f g) {a b : DirectoryEntry}
    {f g : String} (ha : a ∈ es) (hb : b ∈ es) (hf : a.Holds name f) (hg : b.Holds name g) :
    a = b := by
  have hpair : es.Pairwise fun a b => ∀ f g, a.Holds name f → ¬ b.Holds name g :=
    List.pairwise_iff_forall_sublist.2 fun {a b} hab f g hf hg =>
      alone ⟨name, f, g, a, b, hab, hf, hg⟩
  have symm : Std.Symm fun a b : DirectoryEntry => ∀ f g, a.Holds name f → ¬ b.Holds name g :=
    ⟨fun _ _ h f g hf hg => h g f hg hf⟩
  exact Decidable.byContradiction fun hne => hpair.forall ha hb hne f g hf hg

/-! ## Listing and loading -/

/-- The names that a directory lists if these are its entries. -/
def namesIn (dir : Path) (es : List DirectoryEntry) : Except SourceError (List Name) :=
  (scan dir es).map fun found => Name.sort (found.map (·.1))

/-- What a directory loads for a name if these are its entries. -/
def loadIn (files : FileTree) (dir : Path) (es : List DirectoryEntry) (name : Name) :
    Except SourceError Definition :=
  (scan dir es).bind fun found =>
    match found.lookup name with
    | some path => (MigrationFile.load files path).map (·.definition)
    | none => .error (.migrationNotFound name.text)

variable {files : FileTree}

/-- The entries of a directory among other files. -/
def yielded (files : FileTree) (place : Location) : List DirectoryEntry :=
  (files.list place).map fun (file, e) => ⟨some file, e = .directory⟩

theorem entries_eq_ok_iff : entries files dir = .ok es ↔ ∃ place, files.locate dir = .ok place ∧
    files.get? place = some .directory ∧ yielded files place = es := by
  unfold entries
  cases hplace : files.locate dir with
  | error fault => simp
  | ok place =>
      have hdir : files.isDirectory dir = true ↔ files.get? place = some .directory := by
        rw [FileTree.isDirectory_iff, hplace]
        simp
      simp only [hdir, Except.ok.injEq, exists_eq_left']
      split
      · next h => simp [h, yielded]
      · next h => simp [h]

theorem find_of_entries (h : entries files dir = .ok es) : find files dir = scan dir es := by
  rw [find, h]
  rfl

theorem names_of_entries (h : entries files dir = .ok es) : names files dir = namesIn dir es := by
  rw [names, find_of_entries h, namesIn]

theorem load_of_entries (h : entries files dir = .ok es) :
    load files dir name = loadIn files dir es name := by
  rw [load, pathOf, find_of_entries h, loadIn]
  cases scan dir es with
  | error e => rfl
  | ok found =>
      simp only [bind, Except.bind]
      cases found.lookup name with
      | none => rfl
      | some path => cases MigrationFile.load files path <;> rfl

theorem migrationFile_load_of_read {path : Path} {text : String} {file : MigrationFile}
    (read : files.read path = .ok text) (parsed : MigrationFile.parse text = .ok file) :
    MigrationFile.load files path = .ok file := by
  unfold MigrationFile.load
  rw [read]
  exact congrArg (Except.mapError _) parsed

/-- Reading a file has other failures than that there is no such migration. -/
theorem migrationFile_load_ne (path : Path) (text : String) :
    (MigrationFile.load files path).map (·.definition) ≠ .error (.migrationNotFound text) := by
  unfold MigrationFile.load
  cases files.read path with
  | error fault => exact fun h => by cases h
  | ok content =>
      simp only [MigrationFile.parseFrom]
      cases MigrationFile.parse content <;> exact fun h => by cases h

/-- What comes of entries in some order: the names are listed, a name is unknown exactly if
it is not among them, and for each of them there is one entry whose file is read. -/
structure Discovers (files : FileTree) (dir : Path) (es order : List DirectoryEntry)
    (names : List Name) : Prop where
  listed : namesIn dir order = .ok names
  unknown (name : Name) :
    (∃ text, loadIn files dir order name = .error (.migrationNotFound text)) ↔ name ∉ names
  loaded (name : Name) (h : name ∈ names) : ∃ e ∈ es, ∃ file, e.Holds name file ∧
    (∀ e' ∈ es, ∀ file', e'.Holds name file' → e' = e) ∧
      loadIn files dir order name =
        (MigrationFile.load files (dir.join file)).map (·.definition)

/-- What is listed depends on what the entries hold, but not on their order. -/
theorem namesIn_of_held_perm {es' : List DirectoryEntry} (alone : ¬ ∃ name f g, Clash es name f g)
    (perm : (held dir es').Perm (held dir es)) :
    namesIn dir es' = .ok (Name.sort ((held dir es).map (·.1))) := by
  have distinct := (nodup_held_iff dir).2 alone
  have hkeys := perm.map (·.1)
  rw [namesIn, scan_of_nodup (hkeys.nodup_iff.2 distinct), Except.map,
    Name.sort_eq_of_perm distinct hkeys]

theorem loadIn_of_held_perm {es' : List DirectoryEntry} (alone : ¬ ∃ name f g, Clash es name f g)
    (perm : (held dir es').Perm (held dir es)) :
    loadIn files dir es' name = loadIn files dir es name := by
  have distinct := (nodup_held_iff dir).2 alone
  have hkeys := perm.map (·.1)
  rw [loadIn, loadIn, scan_of_nodup (hkeys.nodup_iff.2 distinct), scan_of_nodup distinct,
    Except.bind, Except.bind, lookup_eq_of_perm distinct perm]

/-- A name that one of the entries holds is loaded from there. -/
theorem loadIn_of_holds (alone : ¬ ∃ name f g, Clash es name f g) {e : DirectoryEntry}
    {file : String} (he : e ∈ es) (holds : e.Holds name file) :
    loadIn files dir es name = (MigrationFile.load files (dir.join file)).map (·.definition) := by
  have distinct := (nodup_held_iff dir).2 alone
  have hlookup : (held dir es).lookup name = some (dir.join file) :=
    (lookup_eq_some_iff_mem distinct).2 (mem_held_iff.2 ⟨e, he, file, holds, rfl⟩)
  rw [loadIn, scan_of_nodup distinct, Except.bind, hlookup]

theorem loadIn_of_not_holds (alone : ¬ ∃ name f g, Clash es name f g)
    (absent : ∀ e ∈ es, ∀ file, ¬ e.Holds name file) :
    loadIn files dir es name = .error (.migrationNotFound name.text) := by
  have distinct := (nodup_held_iff dir).2 alone
  have hlookup : (held dir es).lookup name = none := by
    refine Option.eq_none_iff_forall_ne_some.2 fun path hpath => ?_
    obtain ⟨e, he, file, holds, -⟩ := mem_held_iff.1 ((lookup_eq_some_iff_mem distinct).1 hpath)
    exact absent e he file holds
  rw [loadIn, scan_of_nodup distinct, Except.bind, hlookup]

theorem discovers (files : FileTree) (dir : Path) (alone : ¬ ∃ name f g, Clash es name f g) :
    ∃ names, names.Pairwise (·.bytes < ·.bytes) ∧
      (∀ name, name ∈ names ↔ ∃ e ∈ es, ∃ file, e.Holds name file) ∧
      ∀ order, order.Perm es → Discovers files dir es order names := by
  have distinct := (nodup_held_iff dir).2 alone
  have hmem (name : Name) : name ∈ Name.sort ((held dir es).map (·.1)) ↔
      ∃ e ∈ es, ∃ file, e.Holds name file := by
    rw [Name.sort, List.mem_mergeSort, List.mem_map]
    constructor
    · rintro ⟨⟨_, path⟩, hp, rfl⟩
      obtain ⟨e, he, file, holds, -⟩ := mem_held_iff.1 hp
      exact ⟨e, he, file, holds⟩
    · rintro ⟨e, he, file, holds⟩
      exact ⟨(name, dir.join file), mem_held_iff.2 ⟨e, he, file, holds, rfl⟩, rfl⟩
  refine ⟨Name.sort ((held dir es).map (·.1)), Name.pairwise_sort distinct, hmem,
    fun order perm => ⟨namesIn_of_held_perm alone (held_perm dir perm),
      fun name => ⟨?_, ?_⟩, fun name h => ?_⟩⟩
  · rintro ⟨text, hload⟩ h
    obtain ⟨e, he, file, holds⟩ := (hmem name).1 h
    rw [loadIn_of_held_perm alone (held_perm dir perm), loadIn_of_holds alone he holds] at hload
    exact migrationFile_load_ne _ _ hload
  · intro h
    refine ⟨name.text, (loadIn_of_held_perm alone (held_perm dir perm)).trans ?_⟩
    exact loadIn_of_not_holds alone fun e he file holds => h ((hmem name).2 ⟨e, he, file, holds⟩)
  · obtain ⟨e, he, file, holds⟩ := (hmem name).1 h
    refine ⟨e, he, file, holds,
      fun e' he' file' holds' => holds_unique alone he' he holds' holds, ?_⟩
    rw [loadIn_of_held_perm alone (held_perm dir perm), loadIn_of_holds alone he holds]

/-- Entries that hold no migration do not matter, not even for which failure there is. -/
theorem scanFrom_filter {keep : DirectoryEntry → Bool} {found : List (Name × Path)}
    (kept : ∀ e ∈ es, ∀ name file, e.Holds name file → keep e = true) :
    scanFrom dir found (es.filter keep) = scanFrom dir found es := by
  induction es generalizing found with
  | nil => rfl
  | cons e rest ih =>
      have hrest (found : List (Name × Path)) :
          scanFrom dir found (rest.filter keep) = scanFrom dir found rest :=
        ih fun e he => kept e (List.mem_cons_of_mem _ he)
      cases hm : e.migration? with
      | none =>
          have hskip (es : List DirectoryEntry) :
              scanFrom dir found (e :: es) = scanFrom dir found es := by
            rw [scanFrom, hm]
          rw [hskip, ← hrest, List.filter_cons]
          split
          · exact hskip _
          · rfl
      | some m =>
          obtain ⟨file, name⟩ := m
          rw [List.filter_cons_of_pos (kept e List.mem_cons_self name file
            (DirectoryEntry.migration?_eq_some_iff.1 hm)), scanFrom, scanFrom, hm]
          simp only []
          cases found.lookup name with
          | some first => rfl
          | none => exact hrest _

/-- What a directory lists and loads depends on which of its entries hold which migrations,
and on nothing else. What the directory yields as its entries is `es`, in some `order`.

If two entries hold one migration, listing fails because of that in every order. Otherwise
there is a list of names, strictly ascending, of all that an entry holds, and every order
lists these and loads them from the one file that holds each. And any entries that hold no
migration may be left out, or added, without any difference. -/
theorem discovery_well_defined (files : FileTree) (dir : Path) (es : List DirectoryEntry) :
    (entries files dir = .ok es → names files dir = namesIn dir es ∧
      ∀ name, load files dir name = loadIn files dir es name) ∧
    (∀ order, order.Perm es →
      ((∃ text first second,
          namesIn dir order = .error (.duplicateMigration text first second)) ↔
        ∃ name f g, Clash es name f g)) ∧
    ((¬ ∃ name f g, Clash es name f g) → ∃ names, names.Pairwise (·.bytes < ·.bytes) ∧
      (∀ name, name ∈ names ↔ ∃ e ∈ es, ∃ file, e.Holds name file) ∧
      ∀ order, order.Perm es → Discovers files dir es order names) ∧
    ∀ keep : DirectoryEntry → Bool,
      (∀ e ∈ es, ∀ name file, e.Holds name file → keep e = true) →
      namesIn dir (es.filter keep) = namesIn dir es ∧
        ∀ name, loadIn files dir (es.filter keep) name = loadIn files dir es name := by
  refine ⟨fun h => ⟨names_of_entries h, fun _ => load_of_entries h⟩, fun order perm => ?_,
    discovers files dir, fun keep kept => ?_⟩
  · rw [← not_iff_not, ← nodup_held_iff dir,
      ← ((held_perm dir perm).map (·.1)).nodup_iff]
    constructor
    · intro h
      rcases scan_cases dir order with ⟨-, distinct⟩ | ⟨name, f, g, -, hscan⟩
      · exact distinct
      · exact absurd
          ⟨name.text, (dir.join f).text, (dir.join g).text, by rw [namesIn, hscan]; rfl⟩ h
    · rintro distinct ⟨text, first, second, h⟩
      rw [namesIn, scan_of_nodup distinct] at h
      cases h
  · have hscan : scan dir (es.filter keep) = scan dir es := scanFrom_filter kept
    exact ⟨by rw [namesIn, hscan, namesIn], fun name => by rw [loadIn, hscan, loadIn]⟩

/-- A directory with two migrations among other things. -/
def mixed : FileTree where
  entries := [(["m"], .directory), (["m", ".hidden.yml"], .file "up: []"),
    (["m", "pets.v2.yml"], .file "up: []"), (["m", "users.yaml"], .file "up: []"),
    (["m", "visits.txt"], .file ""), (["m", "x.yml"], .directory)]

/-- What that directory yields. -/
def mixedEntries : List DirectoryEntry :=
  [⟨some ".hidden.yml", false⟩, ⟨some "pets.v2.yml", false⟩, ⟨some "users.yaml", false⟩,
    ⟨some "visits.txt", false⟩, ⟨some "x.yml", true⟩]

theorem entries_mixed : entries mixed ⟨"m"⟩ = .ok mixedEntries := by
  have hlist : mixed.list ["m"] = [(".hidden.yml", .file "up: []"), ("pets.v2.yml", .file "up: []"),
      ("users.yaml", .file "up: []"), ("visits.txt", .file ""), ("x.yml", .directory)] := by
    rw [FileTree.list]
    exact List.mergeSort_of_pairwise (by decide +kernel)
  have hplace : mixed.locate ⟨"m"⟩ = .ok ["m"] := rfl
  rw [entries, hplace]
  simp only []
  rw [if_pos (by decide +kernel), hlist]
  rfl

/-- The two migrations are listed in every order, and also without the other entries. One is
loaded from its file, and one that is not there is not found. With another file for the same
migration nothing is listed. -/
theorem discovery_well_defined_of_mixed :
    ∃ a b : Name, a.text = "pets.v2" ∧ b.text = "users" ∧ names mixed ⟨"m"⟩ = .ok [a, b] ∧
      namesIn ⟨"m"⟩ mixedEntries.reverse = .ok [a, b] ∧
      namesIn ⟨"m"⟩ (mixedEntries.filter (·.migration?.isSome)) = .ok [a, b] ∧
      load mixed ⟨"m"⟩ b = (MigrationFile.load mixed ⟨"m/users.yaml"⟩).map (·.definition) ∧
      (∃ text, load mixed ⟨"m"⟩ ⟨"x", by decide⟩ = .error (.migrationNotFound text)) ∧
      ∃ text first second, namesIn ⟨"m"⟩ (mixedEntries ++ [⟨some "users.yml", false⟩]) =
        .error (.duplicateMigration text first second) := by
  let a : Name := ⟨"pets.v2", by decide⟩
  let b : Name := ⟨"users", by decide⟩
  have hdistinct : ((held ⟨"m"⟩ mixedEntries).map (·.1)).Nodup := by decide +kernel
  have hboth : namesIn ⟨"m"⟩ mixedEntries = .ok [a, b] := by
    rw [namesIn, scan_of_nodup hdistinct]
    exact congrArg Except.ok (List.mergeSort_of_pairwise (by decide +kernel))
  obtain ⟨same, -, alone, keep⟩ := discovery_well_defined mixed ⟨"m"⟩ mixedEntries
  obtain ⟨listing, -, -, found⟩ := alone ((nodup_held_iff ⟨"m"⟩).1 hdistinct)
  obtain rfl : listing = [a, b] :=
    Except.ok.inj ((found mixedEntries (.refl _)).listed.symm.trans hboth)
  have hkept := keep (·.migration?.isSome) fun e _ name file holds => by
    rw [DirectoryEntry.migration?_eq_some_iff.2 holds]
    rfl
  refine ⟨a, b, rfl, rfl, (same entries_mixed).1.trans hboth,
    (found mixedEntries.reverse (List.reverse_perm _)).listed, hkept.1.trans hboth, ?_, ?_, ?_⟩
  · obtain ⟨e, -, file, holds, hunique, hload⟩ :=
      (found mixedEntries (.refl _)).loaded b (by decide)
    have he := hunique ⟨some "users.yaml", false⟩ (by decide) "users.yaml"
      (DirectoryEntry.migration?_eq_some_iff.1 (by decide +kernel))
    obtain rfl : "users.yaml" = file := Option.some.inj (by rw [← holds.named, ← he])
    rw [(same entries_mixed).2, hload]
    rfl
  · rw [(same entries_mixed).2]
    exact ((found mixedEntries (.refl _)).unknown _).2 (by decide)
  · refine ((discovery_well_defined mixed ⟨"m"⟩ (mixedEntries ++ [⟨some "users.yml", false⟩])).2.1 _
      (.refl _)).2 ⟨b, "users.yaml", "users.yml", ⟨some "users.yaml", false⟩,
        ⟨some "users.yml", false⟩, ?_, ?_, ?_⟩
    · decide
    · exact DirectoryEntry.migration?_eq_some_iff.1 (by decide +kernel)
    · exact DirectoryEntry.migration?_eq_some_iff.1 (by decide +kernel)

/-! ## Directories with more in them -/

theorem held_append (before after : List DirectoryEntry) :
    held dir (before ++ after) = held dir before ++ held dir after := List.filterMap_append

theorem held_of_directories (h : ∀ e ∈ es, e.isDirectory = true) : held dir es = [] := by
  refine List.filterMap_eq_nil_iff.2 fun e he => ?_
  rw [DirectoryEntry.migration?, if_pos (h e he)]
  rfl

theorem pathOf_of_find {found : List (Name × Path)} (h : find files dir = .ok found) :
    pathOf files dir name =
      match found.lookup name with
      | some path => .ok path
      | none => .error (.migrationNotFound name.text) := by
  rw [pathOf, h]
  rfl

theorem load_of_pathOf {path : Path} {file : MigrationFile}
    (h : pathOf files dir name = .ok path) (loaded : MigrationFile.load files path = .ok file) :
    load files dir name = .ok file.definition := by
  rw [load, h]
  change (MigrationFile.load files path).bind _ = _
  rw [loaded]
  rfl

theorem find_of_listed {names : List Name} (listed : (source files dir).list = .ok names) :
    ∃ place, files.locate dir = .ok place ∧ files.get? place = some .directory ∧
      find files dir = .ok (held dir (yielded files place)) ∧
      ((held dir (yielded files place)).map (·.1)).Nodup ∧
      names = Name.sort ((held dir (yielded files place)).map (·.1)) := by
  cases hentries : entries files dir with
  | error e =>
      rw [source, MigrationDirectory.names, find, hentries] at listed
      cases listed
  | ok es =>
      obtain ⟨place, hplace, hdir, rfl⟩ := entries_eq_ok_iff.1 hentries
      rcases scan_cases dir (yielded files place) with ⟨hscan, distinct⟩ | ⟨_, _, _, -, hscan⟩
      · have hfind := (find_of_entries hentries).trans hscan
        rw [source, MigrationDirectory.names, hfind] at listed
        exact ⟨place, hplace, hdir, hfind, distinct, (Except.ok.inj listed).symm⟩
      · rw [source, MigrationDirectory.names, (find_of_entries hentries).trans hscan] at listed
        cases listed

/-- What can be loaded is listed. -/
theorem mem_of_load {names : List Name} {definition : Definition}
    (listed : (source files dir).list = .ok names)
    (loaded : (source files dir).load name = .ok definition) : name ∈ names := by
  obtain ⟨place, -, -, hfind, distinct, rfl⟩ := find_of_listed listed
  change load files dir name = _ at loaded
  rw [load, pathOf_of_find hfind] at loaded
  cases hlookup : (held dir (yielded files place)).lookup name with
  | none =>
      rw [hlookup] at loaded
      cases loaded
  | some path =>
      rw [Name.sort, List.mem_mergeSort]
      exact List.mem_map_of_mem ((lookup_eq_some_iff_mem distinct).1 hlookup)

theorem migrationFile_load_of_keeps {files' : FileTree} {place : Location} {path : Path}
    (proper : files.Proper) (keeps : files.Keeps files')
    (hplace : files.locate dir = .ok place) (hdir : files.get? place = some .directory)
    (hmem : (name, path) ∈ held dir (yielded files place)) :
    MigrationFile.load files' path = MigrationFile.load files path := by
  obtain ⟨e, he, file, holds, rfl⟩ := mem_held_iff.1 hmem
  obtain ⟨⟨file', entry⟩, hentry, rfl⟩ := List.mem_map.1 he
  obtain rfl : file' = file := Option.some.inj holds.named
  have hfile := proper.of_mem_list hentry
  have hget := proper.get?_of_mem_list hentry
  have hfind := FileTree.find_join hplace hdir hfile hget
  have hfind' := FileTree.find_join (keeps.locate hplace) (keeps.entries hdir) hfile
    (keeps.entries hget)
  rw [MigrationFile.load, MigrationFile.load, FileTree.read, FileTree.read, hfind, hfind']

/-- Where migrations have come to a directory they are listed with those of before, which are
loaded from their files as before. -/
theorem source_of_held_perm {files' : FileTree} {names : List Name} {place : Location}
    {more : List (Name × Path)} (proper : files.Proper) (keeps : files.Keeps files')
    (listed : (source files dir).list = .ok names) (hplace : files.locate dir = .ok place)
    (perm : (held dir (yielded files' place)).Perm (more ++ held dir (yielded files place)))
    (distinct : (more.map (·.1) ++ names).Nodup) :
    (source files' dir).list = .ok (Name.sort (more.map (·.1) ++ names)) ∧
      (∀ name path, (name, path) ∈ more → pathOf files' dir name = .ok path) ∧
      ∀ name, name ∉ more.map (·.1) → pathOf files' dir name = pathOf files dir name ∧
        (source files' dir).load name = (source files dir).load name := by
  obtain ⟨place', hplace', hdir, hfind, distinct₀, rfl⟩ := find_of_listed listed
  obtain rfl : place = place' := Except.ok.inj (hplace.symm.trans hplace')
  have hnames : ((held dir (yielded files' place)).map (·.1)).Perm
      (more.map (·.1) ++ Name.sort ((held dir (yielded files place)).map (·.1))) := by
    have hkeys := perm.map (·.1)
    rw [List.map_append] at hkeys
    exact hkeys.trans ((List.mergeSort_perm _ _).symm.append_left _)
  have distinct' := hnames.nodup_iff.2 distinct
  have hfind' : find files' dir = .ok (held dir (yielded files' place)) :=
    (find_of_entries (entries_eq_ok_iff.2
      ⟨place, keeps.locate hplace, keeps.entries hdir, rfl⟩)).trans (scan_of_nodup distinct')
  refine ⟨?_, fun name path hmem => ?_, fun name hname => ?_⟩
  · change (find files' dir).map _ = _
    rw [hfind']
    exact congrArg Except.ok (Name.sort_eq_of_perm distinct hnames)
  · rw [pathOf_of_find hfind', (lookup_eq_some_iff_mem distinct').2
      (perm.mem_iff.2 (List.mem_append_left _ hmem))]
  · have hlookup : (held dir (yielded files' place)).lookup name =
        (held dir (yielded files place)).lookup name := by
      refine Option.ext fun path => ?_
      rw [lookup_eq_some_iff_mem distinct', lookup_eq_some_iff_mem distinct₀, perm.mem_iff,
        List.mem_append]
      exact or_iff_right fun hmem => hname (List.mem_map_of_mem hmem)
    have hpath : pathOf files' dir name = pathOf files dir name := by
      rw [pathOf_of_find hfind', pathOf_of_find hfind, hlookup]
    refine ⟨hpath, ?_⟩
    change load files' dir name = load files dir name
    rw [load, load, hpath, pathOf_of_find hfind]
    cases hfound : (held dir (yielded files place)).lookup name with
    | none => rfl
    | some path =>
        have hload := migrationFile_load_of_keeps proper keeps hplace hdir
          ((lookup_eq_some_iff_mem distinct₀).1 hfound)
        simp only [bind, Except.bind, hload]

theorem held_yielded_of_grown {files' : FileTree} (grown : files.Grown files') (place : Location) :
    (held dir (yielded files' place)).Perm (held dir (yielded files place)) := by
  obtain ⟨made, perm⟩ := grown.list_perm place
  refine (held_perm dir (perm.map _)).trans (.of_eq ?_)
  rw [List.map_append, held_append, held_of_directories, List.nil_append, yielded]
  intro e he
  obtain ⟨entry, hentry, rfl⟩ := List.mem_map.1 he
  obtain ⟨name, -, rfl⟩ := List.mem_map.1 hentry
  rfl

/-- A directory from which something can be listed is the same source when directories have been
made. -/
theorem source_of_grown {files' : FileTree} {listing : List Name} (proper : files.Proper)
    (grown : files.Grown files') (listed : (source files dir).list = .ok listing) :
    source files' dir = source files dir := by
  obtain ⟨place, hplace, -⟩ := find_of_listed listed
  have perm : (held dir (yielded files' place)).Perm ([] ++ held dir (yielded files place)) :=
    held_yielded_of_grown grown place
  have distinct := (ordered files dir).nodup listed
  obtain ⟨hlist, -, hload⟩ := source_of_held_perm proper grown.keeps listed hplace perm distinct
  have hsorted : Name.sort listing = listing := by
    obtain ⟨_, -, -, -, hkeys, rfl⟩ := find_of_listed listed
    exact Name.sort_eq_of_perm hkeys (List.mergeSort_perm _ _)
  have hnames : names files' dir = names files dir :=
    (hlist.trans (congrArg Except.ok hsorted)).trans listed.symm
  have hloads : load files' dir = load files dir := funext fun name => (hload name nofun).2
  rw [source, source, hnames, hloads]

theorem held_yielded_of_put {place : Location} {file text : String}
    (fresh : files.get? (place ++ [file]) = none)
    (holds : DirectoryEntry.Holds ⟨some file, false⟩ name file) :
    (held dir (yielded (files.put (place ++ [file]) (.file text)) place)).Perm
      ((name, dir.join file) :: held dir (yielded files place)) := by
  have perm := (FileTree.list_put_perm fresh (.file text)).map fun (entry : String × Entry) =>
    (⟨some entry.1, entry.2 = .directory⟩ : DirectoryEntry)
  refine (held_perm dir perm).trans (.of_eq ?_)
  exact held_cons_of_some (DirectoryEntry.migration?_eq_some_iff.2 holds)

/-- A new file in a directory adds its migration to those that are listed, unless it is one of
them, and all others are loaded from their files as before. -/
theorem source_of_put {names : List Name} {place : Location} {file text : String}
    (proper : files.Proper) (listed : (source files dir).list = .ok names)
    (hplace : files.locate dir = .ok place) (fresh : files.get? (place ++ [file]) = none)
    (holds : DirectoryEntry.Holds ⟨some file, false⟩ name file) (unlisted : name ∉ names) :
    let files' := files.put (place ++ [file]) (.file text)
    (source files' dir).list = .ok (Name.sort (name :: names)) ∧
      pathOf files' dir name = .ok (dir.join file) ∧
      ∀ other, other ≠ name → pathOf files' dir other = pathOf files dir other ∧
        (source files' dir).load other = (source files dir).load other := by
  intro files'
  have perm : (held dir (yielded files' place)).Perm
      ([(name, dir.join file)] ++ held dir (yielded files place)) := held_yielded_of_put fresh holds
  have distinct := List.nodup_cons.2 ⟨unlisted, (ordered files dir).nodup listed⟩
  obtain ⟨hlist, hpath, hothers⟩ :=
    source_of_held_perm proper (.of_put fresh _) listed hplace perm distinct
  exact ⟨hlist, hpath name _ List.mem_cons_self,
    fun other hother => hothers other (mt List.mem_singleton.1 hother)⟩

end MigrationDirectory

end SchemaLedger
