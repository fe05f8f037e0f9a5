import SchemaLedger.Proofs.Resume
import SchemaLedger.Proofs.Scaffolding
import SchemaLedger.Proofs.Stamps
import SchemaLedger.Proofs.StoreAccepts
import SchemaLedger.Proofs.Unrefused

/-!
# Migrations in the order they were made

Scaffolds that were made in different seconds have identifiers in the order of these seconds. A
directory lists its migrations in the order of their identifiers, and applying goes through
them in that order. So whatever else is in the directory, and whatever became of the files
since, the migrations come in the order in which their scaffolds were made.

A directory in which nothing but scaffolds were made lists just these. They do nothing yet, so
applying them to an empty ledger records them one after the other, as far as it gets; it gets to
the end if no call is refused.
-/

namespace SchemaLedger

/-- Names that are ascending, and all in a list that is, are there in the same order. -/
theorem Name.filter_mem_eq_self {listing names : List Name}
    (sorted : listing.Pairwise (·.bytes < ·.bytes))
    (ascending : names.Pairwise (·.bytes < ·.bytes)) (mem : ∀ name ∈ names, name ∈ listing) :
    listing.filter (· ∈ names) = names := by
  refine List.Perm.eq_of_pairwise (fun a b _ _ hab hba => absurd hba (List.lt_asymm hab))
    (sorted.filter _) ascending ?_
  rw [List.perm_ext_iff_of_nodup ((Name.nodup_of_ascending sorted).filter _)
    (Name.nodup_of_ascending ascending)]
  intro name
  rw [List.mem_filter, decide_eq_true_iff]
  exact ⟨fun h => h.2, fun h => ⟨mem name h, h⟩⟩

/-! ## Applying what is listed -/

/-- A source lists some names in this order, among others perhaps. Applying it to an empty
ledger records names in the order in which they are listed, as far as it gets. -/
structure Source.Follows (source : Source) (listing names : List Name) : Prop where
  listed : source.list = .ok listing
  order : listing.filter (· ∈ names) = names
  recorded {σ ω : Type} {db : Database σ} {table : String} (L : LedgerStore db table ω)
    {c : Content ω} {s : σ} : L.Idle c s → c.rows = [] → L.Confines source →
    let run := (Migrate.apply source table).hold db s
    ∃ c' k, L.Idle c' run.state ∧ Ledger.namesOf c'.rows = (listing.take k).map (·.text) ∧
      ∀ report, run.result = .ok report → k = listing.length ∧ report.applied = listing

namespace LedgerStore

variable {σ ω : Type} {db : Database σ} {table : String} {L : LedgerStore db table ω}
  {source : Source} {listing : List Name} {c : Content ω} {s : σ}

theorem outstanding_of_empty (listed : source.list = .ok listing) (empty : c.rows = []) :
    Migrate.outstanding source c.rows = listing := by
  rw [Migrate.outstanding_of_list listed, empty]
  exact List.filter_eq_self.2 (by simp)

/-- However applying to an empty ledger ends, the names in the ledger are the first of those
that are listed, in the order of the list. -/
theorem namesOf_of_empty (idle : L.Idle c s) (empty : c.rows = [])
    (listed : source.list = .ok listing) (confines : L.Confines source) :
    let run := (Migrate.apply source table).hold db s
    ∃ c' k, L.Idle c' run.state ∧ Ledger.namesOf c'.rows = (listing.take k).map (·.text) ∧
      ∀ report, run.result = .ok report → k = listing.length ∧ report.applied = listing := by
  obtain ⟨c', done, idle', progress⟩ := apply_progress idle confines
  have hnames := progress.namesOf
  have succeeded (report : ApplyReport) := @progress.succeeded report
  rw [outstanding_of_empty listed empty] at hnames succeeded
  rw [empty] at hnames
  exact ⟨c', done.length, idle', hnames, fun report h =>
    ⟨(succeeded report h).1, (succeeded report h).2.1⟩⟩

/-- Migrations that do nothing confine themselves to that. -/
theorem confines_of_idle
    (loads : ∀ name definition, source.load name = .ok definition →
      definition = { up := [], down := [] }) : L.Confines source := by
  constructor
  all_goals
    intro name definition statements hload hcompile sql hsql
    rw [loads name definition hload] at hcompile
    cases hcompile
    cases hsql

end LedgerStore

namespace Scaffold

/-- The migration of a scaffold, given by its moment and its name. -/
def made (m : Moment × String) : Name := migration m.1 m.2

/-- Scaffolds are made one after the other in a directory, each at its moment and with its
name. -/
inductive Makes (dir : Path) : FileTree → List (Moment × String) → FileTree → Prop
  | done (files : FileTree) : Makes dir files [] files
  | next {files files' after : FileTree} {now : Moment} {name : String} {path : Path}
    {rest : List (Moment × String)} (created : create files dir name now = (.ok path, files'))
    (makes : Makes dir files' rest after) : Makes dir files ((now, name) :: rest) after

variable {files ready after : FileTree} {dir : Path} {names : List Name}
  {scaffolds : List (Moment × String)}

theorem Makes.listed (makes : Makes dir files scaffolds after) (proper : files.Proper)
    (listed : (MigrationDirectory.source files dir).list = .ok names)
    (distinct : (scaffolds.map made).Nodup) (unlisted : ∀ m ∈ scaffolds, made m ∉ names) :
    ∃ listing, (MigrationDirectory.source after dir).list = .ok listing ∧
      listing.Perm (scaffolds.map made ++ names) ∧
      (∀ m ∈ scaffolds, (MigrationDirectory.source after dir).load (made m) =
        .ok { up := [], down := [] }) ∧
      ∀ other, (∀ m ∈ scaffolds, other ≠ made m) →
        (MigrationDirectory.source after dir).load other =
          (MigrationDirectory.source files dir).load other := by
  induction makes generalizing names with
  | done files =>
      exact ⟨names, listed, .refl _, fun _ h => absurd h List.not_mem_nil, fun _ _ => rfl⟩
  | @next files files' after now name path rest created makes ih =>
      obtain ⟨hnow, hrest⟩ := List.forall_mem_cons.1 unlisted
      rw [List.map_cons, List.nodup_cons] at distinct
      obtain ⟨proper', listed', -, hload, others⟩ := source_of_create proper listed created hnow
      have perm' : (Name.sort (migration now name :: names)).Perm (migration now name :: names) :=
        List.mergeSort_perm _ _
      have fresh : ∀ m ∈ rest, made m ≠ made (now, name) := fun m hm heq =>
        distinct.1 (heq ▸ List.mem_map_of_mem hm)
      obtain ⟨listing, hlisting, perm, loads, same⟩ := ih proper' listed' distinct.2
        fun m hm hmem => by
          rcases List.mem_cons.1 (perm'.mem_iff.1 hmem) with heq | hmem
          · exact fresh m hm heq
          · exact hrest m hm hmem
      refine ⟨listing, hlisting, perm.trans ?_, List.forall_mem_cons.2 ⟨?_, loads⟩,
        fun other hother => ?_⟩
      · exact (perm'.append_left _).trans List.perm_middle
      · exact (same _ fun m hm => (fresh m hm).symm).trans hload
      · obtain ⟨hne, hothers⟩ := List.forall_mem_cons.1 hother
        exact (same other hothers).trans (others other hne).2

/-- Scaffolds can be made in a directory that is there as well as in one that is missing. -/
theorem Makes.of_makeDirectories (makes : Makes dir files scaffolds after)
    (nonempty : scaffolds ≠ []) (prepared : files.makeDirectories dir = (.ok (), ready))
    (isDirectory : ready.isDirectory dir = true) : Makes dir ready scaffolds after := by
  cases makes with
  | done => exact absurd rfl nonempty
  | @next _ files' _ now name path rest created makes =>
      obtain ⟨accepted, hpath, ready', prepared', fresh, written⟩ := create_eq_ok_iff.1 created
      obtain rfl : ready' = ready := (Prod.mk.inj (prepared'.symm.trans prepared)).2
      exact .next (create_eq_ok_iff.2 ⟨accepted, hpath, ready',
        FileTree.makeDirectories_of_isDirectory isDirectory, fresh, written⟩) makes

/-- Scaffolds of different seconds can be put in the order of these. -/
theorem exists_chronological (distinct : scaffolds.Pairwise fun m n => m.1.clock ≠ n.1.clock) :
    ∃ ordered : List (Moment × String), ordered.Perm scaffolds ∧
      ordered.Pairwise fun m n => m.1.clock < n.1.clock := by
  let le (m n : Moment × String) : Bool := decide ¬ n.1.clock < m.1.clock
  have trans (a b c : Moment × String) (hab : le a b = true) (hbc : le b c = true) :
      le a c = true :=
    decide_eq_true (List.not_lt.2 (List.le_trans (List.not_lt.1 (of_decide_eq_true hab))
      (List.not_lt.1 (of_decide_eq_true hbc))))
  have total (a b : Moment × String) : (le a b || le b a) = true := by
    rw [Bool.or_eq_true]
    exact (List.le_total a.1.clock b.1.clock).imp (fun h => decide_eq_true (List.not_lt.2 h))
      fun h => decide_eq_true (List.not_lt.2 h)
  have hsorted : (scaffolds.mergeSort le).Pairwise (le · ·) :=
    List.pairwise_mergeSort trans total scaffolds
  have hdistinct := (List.mergeSort_perm scaffolds le).symm.pairwise distinct fun h => h.symm
  refine ⟨scaffolds.mergeSort le, List.mergeSort_perm _ _,
    (hsorted.and hdistinct).imp fun {m n} ⟨hle, hne⟩ => ?_⟩
  refine Decidable.byContradiction fun hge => hne (List.le_antisymm ?_ (List.not_lt.1 hge))
  exact List.not_lt.1 (of_decide_eq_true hle)

theorem pairwise_made (ordinary : ∀ m ∈ scaffolds, m.1.Ordinary)
    (chronological : scaffolds.Pairwise fun m n => m.1.clock < n.1.clock) :
    (scaffolds.map made).Pairwise (·.bytes < ·.bytes) := by
  rw [List.pairwise_map]
  exact chronological.imp_of_mem fun {m n} hm hn hlt =>
    bytes_identifier_lt (ordinary m hm) (ordinary n hn) hlt m.2 n.2

/-- A directory follows the order of scaffolds that are in it. -/
theorem follows_of_listed {listing : List Name}
    (listed : (MigrationDirectory.source files dir).list = .ok listing)
    (ordinary : ∀ m ∈ scaffolds, m.1.Ordinary) (mem : ∀ m ∈ scaffolds, made m ∈ listing)
    (chronological : scaffolds.Pairwise fun m n => m.1.clock < n.1.clock) :
    (MigrationDirectory.source files dir).Follows listing (scaffolds.map made) where
  listed := listed
  order := Name.filter_mem_eq_self (MigrationDirectory.ordered files dir listing listed)
    (pairwise_made ordinary chronological) (List.forall_mem_map.2 mem)
  recorded _ _ _ idle empty confines := LedgerStore.namesOf_of_empty idle empty listed confines

/-- A directory with nothing but scaffolds does nothing, and that succeeds if no call is
refused. -/
theorem apply_of_alone {σ ω : Type} {db : Database σ} {table : String}
    (L : LedgerStore db table ω) {c : Content ω} {s : σ} (idle : L.Idle c s) (empty : c.rows = [])
    (valid : Sql.isQualifiedName table = true) {listing : List Name} (nonempty : listing ≠ [])
    (listed : (MigrationDirectory.source files dir).list = .ok listing)
    (loads : ∀ name ∈ listing, (MigrationDirectory.source files dir).load name =
      .ok { up := [], down := [] }) :
    L.Confines (MigrationDirectory.source files dir) ∧
      let run := (Migrate.apply (MigrationDirectory.source files dir) table).hold db s
      (∀ x ∈ run.exchanges, x.accepted) → run.result = .ok ⟨some 1, listing⟩ := by
  have confines : L.Confines (MigrationDirectory.source files dir) := by
    refine LedgerStore.confines_of_idle fun name definition hload => ?_
    rw [loads name (MigrationDirectory.mem_of_load listed hload)] at hload
    exact (Except.ok.inj hload).symm
  refine ⟨confines, fun accepted => ?_⟩
  obtain ⟨before, after, done, _, hsplit, -, -, -, -, hend⟩ :=
    LedgerStore.apply_of_accepted idle valid confines listed
      ((MigrationDirectory.ordered files dir).nodup listed) (by rw [empty]; rfl)
      (by rw [empty]; decide) accepted
  rw [LedgerStore.outstanding_of_empty listed empty] at hsplit hend
  rw [empty] at hend
  rcases hend with ⟨-, hresult⟩ | ⟨name, more, e, rfl, hup, -⟩
  · rw [hresult, if_neg nonempty]
    rfl
  · rw [Migrate.upBlock, loads name (by simp [hsplit])] at hup
    cases hup

end Scaffold

/-- Scaffolds come in the order in which they were made.

Of two moments in years of four digits the earlier one gives the smaller identifier if it is in
an earlier second, and if the seconds are the same the names decide. So a directory follows the
order of all the scaffolds in it that were made in different seconds, whatever else it lists and
whatever the files say.

Scaffolds made in a directory in different seconds are all in it then, besides what was listed
before; the directory may have to be made for the first of them. If nothing was listed before,
the scaffolds are listed alone, in the order of their seconds, and they are applied to an empty
ledger in this order, all of them if no call is refused. -/
theorem creation_order :
    (∀ (a b : Moment) (m n : String), a.Ordinary → b.Ordinary →
      (a.clock < b.clock →
        (Scaffold.migration a m).bytes < (Scaffold.migration b n).bytes) ∧
      (a.clock = b.clock →
        ((Scaffold.migration a m).bytes < (Scaffold.migration b n).bytes ↔
          Text.bytes m < Text.bytes n))) ∧
    (∀ (files : FileTree) (dir : Path) (listing : List Name) (scaffolds : List (Moment × String)),
      (MigrationDirectory.source files dir).list = .ok listing →
      (∀ m ∈ scaffolds, m.1.Ordinary) → (∀ m ∈ scaffolds, Scaffold.made m ∈ listing) →
      (scaffolds.Pairwise fun m n => m.1.clock < n.1.clock) →
      (MigrationDirectory.source files dir).Follows listing (scaffolds.map Scaffold.made)) ∧
    ∀ (files ready after : FileTree) (dir : Path) (before : List Name)
      (scaffolds : List (Moment × String)), files.Proper →
      (∀ part ∈ files.current, FileName.Proper part) →
      files.makeDirectories dir = (.ok (), ready) →
      (MigrationDirectory.source ready dir).list = .ok before →
      Scaffold.Makes dir files scaffolds after → scaffolds ≠ [] →
      (∀ m ∈ scaffolds, m.1.Ordinary) → (∀ m ∈ scaffolds, Scaffold.made m ∉ before) →
      (scaffolds.Pairwise fun m n => m.1.clock ≠ n.1.clock) →
      ∃ (ordered : List (Moment × String)) (listing : List Name), ordered.Perm scaffolds ∧
        (ordered.Pairwise fun m n => m.1.clock < n.1.clock) ∧
        listing.Perm (ordered.map Scaffold.made ++ before) ∧
        (MigrationDirectory.source after dir).Follows listing (ordered.map Scaffold.made) ∧
        (before = [] → listing = ordered.map Scaffold.made ∧
          (∀ name ∈ listing, (MigrationDirectory.source after dir).load name =
            .ok { up := [], down := [] }) ∧
          ∀ {σ ω : Type} {db : Database σ} {table : String} (L : LedgerStore db table ω)
            {c : Content ω} {s : σ}, L.Idle c s → c.rows = [] →
            Sql.isQualifiedName table = true →
            L.Confines (MigrationDirectory.source after dir) ∧
              let run := (Migrate.apply (MigrationDirectory.source after dir) table).hold db s
              (∀ x ∈ run.exchanges, x.accepted) → run.result = .ok ⟨some 1, listing⟩) := by
  refine ⟨fun a b m n ha hb => ⟨fun h => Scaffold.bytes_identifier_lt ha hb h m n,
    fun h => Scaffold.bytes_identifier_lt_iff h m n⟩,
    fun files dir listing scaffolds listed ordinary mem chronological =>
      Scaffold.follows_of_listed listed ordinary mem chronological, ?_⟩
  intro files ready after dir before scaffolds proper home prepared listed makes nonempty ordinary
    unlisted distinct
  obtain ⟨ordered, perm, chronological⟩ := Scaffold.exists_chronological distinct
  have ordinary' : ∀ m ∈ ordered, m.1.Ordinary := fun m hm => ordinary m (perm.mem_iff.1 hm)
  have ascending := Scaffold.pairwise_made ordinary' chronological
  have hproper : ready.Proper := by
    have := FileTree.makeDirectories_proper (p := dir) proper home
    rwa [prepared] at this
  have hdir : ready.isDirectory dir = true := by
    obtain ⟨place, hplace, hget, -⟩ := MigrationDirectory.find_of_listed listed
    exact FileTree.isDirectory_iff.2 ⟨place, hplace, hget⟩
  have hnodup : (scaffolds.map Scaffold.made).Nodup := by
    rw [← (perm.map Scaffold.made).nodup_iff]
    exact Name.nodup_of_ascending ascending
  obtain ⟨listing, hlisting, hperm, loads, -⟩ :=
    (makes.of_makeDirectories nonempty prepared hdir).listed hproper listed hnodup unlisted
  have hperm' : listing.Perm (ordered.map Scaffold.made ++ before) :=
    hperm.trans ((perm.map _).symm.append_right _)
  have follows := Scaffold.follows_of_listed hlisting ordinary'
    (fun m hm => hperm'.mem_iff.2 (List.mem_append_left _ (List.mem_map_of_mem hm))) chronological
  refine ⟨ordered, listing, perm, chronological, hperm', follows, ?_⟩
  rintro rfl
  rw [List.append_nil] at hperm'
  have alone : listing = ordered.map Scaffold.made := by
    rw [← follows.order]
    exact (List.filter_eq_self.2 fun name hname => decide_eq_true (hperm'.mem_iff.1 hname)).symm
  have idle : ∀ name ∈ listing, (MigrationDirectory.source after dir).load name =
      .ok { up := [], down := [] } := by
    intro name hname
    obtain ⟨m, hm, rfl⟩ := List.mem_map.1 (hperm'.mem_iff.1 hname)
    exact loads m (perm.mem_iff.1 hm)
  have some : listing ≠ [] := by
    rintro rfl
    exact nonempty (List.map_eq_nil_iff.1 ((perm.map _).symm.trans hperm'.symm).eq_nil)
  exact ⟨alone, idle, fun L _ _ hidle empty valid =>
    Scaffold.apply_of_alone L hidle empty valid some hlisting idle⟩

/-- A project without a directory for its migrations. -/
def emptyKennel : FileTree where
  entries := [(["tablewright.yml"], .file "name: kennel\n")]

/-- What is made in it: first one scaffold, and then, with a clock that was put back by a second,
another one whose name comes later. -/
def whelped : List (Moment × String) :=
  [(⟨2024, 3, 5, 7, 8, 10, 0⟩, "add_pets"), (⟨2024, 3, 5, 7, 8, 9, 0⟩, "add_visits")]

theorem makes_whelped : ∃ ready after,
    emptyKennel.makeDirectories ⟨"./migrations"⟩ = (.ok (), ready) ∧
    (MigrationDirectory.source ready ⟨"./migrations"⟩).list = .ok [] ∧
    Scaffold.Makes ⟨"./migrations"⟩ emptyKennel whelped after := by
  let pets : Location := ["migrations", "20240305070810_add_pets.yml"]
  let visits : Location := ["migrations", "20240305070809_add_visits.yml"]
  let ready := emptyKennel.put ["migrations"] .directory
  let between := ready.put pets (.file (Scaffold.template "add_pets"))
  let after := between.put visits (.file (Scaffold.template "add_visits"))
  have hmake : emptyKennel.makeDirectory ⟨"./migrations"⟩ = .ok ready := by rfl
  have prepared : emptyKennel.makeDirectories ⟨"./migrations"⟩ = (.ok (), ready) := by
    rw [FileTree.makeDirectories, if_neg (by decide), hmake]
    simp only [FileTree.makeOrKeepDirectory, hmake]
  have kept : between.makeDirectories ⟨"./migrations"⟩ = (.ok (), between) :=
    FileTree.makeDirectories_of_reach (show between.reach _ = .ok ["migrations"] by rfl) (by rfl)
  have hentries : MigrationDirectory.entries ready ⟨"./migrations"⟩ = .ok [] := by
    refine MigrationDirectory.entries_eq_ok_iff.2 ⟨["migrations"], by rfl, by rfl, ?_⟩
    have hlist : ready.list ["migrations"] = [] := List.mergeSort_of_pairwise .nil
    rw [MigrationDirectory.yielded, hlist]
    rfl
  have hpets : ⟨"./migrations/20240305070810_add_pets.yml"⟩ = Path.join ⟨"./migrations"⟩
      (Scaffold.fileName ⟨2024, 3, 5, 7, 8, 10, 0⟩ "add_pets") := by decide +kernel
  have hvisits : ⟨"./migrations/20240305070809_add_visits.yml"⟩ = Path.join ⟨"./migrations"⟩
      (Scaffold.fileName ⟨2024, 3, 5, 7, 8, 9, 0⟩ "add_visits") := by decide +kernel
  refine ⟨ready, after, prepared, ?_, ?_⟩
  · refine (MigrationDirectory.names_of_entries hentries).trans ?_
    exact congrArg Except.ok (List.mergeSort_of_pairwise .nil)
  · have first : Scaffold.create emptyKennel ⟨"./migrations"⟩ "add_pets"
        ⟨2024, 3, 5, 7, 8, 10, 0⟩ =
        (.ok ⟨"./migrations/20240305070810_add_pets.yml"⟩, between) :=
      Scaffold.create_eq_ok_iff.2
        ⟨by decide, hpets, ready, prepared, by decide +kernel, by rfl⟩
    have second : Scaffold.create between ⟨"./migrations"⟩ "add_visits"
        ⟨2024, 3, 5, 7, 8, 9, 0⟩ =
        (.ok ⟨"./migrations/20240305070809_add_visits.yml"⟩, after) :=
      Scaffold.create_eq_ok_iff.2
        ⟨by decide, hvisits, between, kept, by decide +kernel, by rfl⟩
    exact .next first (.next second (.done _))

/-- The scaffold of the earlier second comes first, though it was made last and its name is
greater. In a new database both are applied in this order. -/
theorem creation_order_of_whelped :
    ∃ (after : FileTree) (a b : Name), a.text = "20240305070809_add_visits" ∧
      b.text = "20240305070810_add_pets" ∧ a.bytes < b.bytes ∧
      Scaffold.Makes ⟨"./migrations"⟩ emptyKennel whelped after ∧
      (MigrationDirectory.source after ⟨"./migrations"⟩).Follows [a, b] [a, b] ∧
      ((Migrate.apply (MigrationDirectory.source after ⟨"./migrations"⟩) "m").hold
        Store.Connection.database {}).result = .ok ⟨some 1, [a, b]⟩ := by
  obtain ⟨identifiers, directory, chain⟩ := creation_order
  obtain ⟨ready, after, prepared, listed, makes⟩ := makes_whelped
  have ordinary : ∀ m ∈ whelped, m.1.Ordinary := by decide
  have chronological : whelped.reverse.Pairwise fun m n => m.1.clock < n.1.clock := by decide
  obtain ⟨ordered, listing, perm, inOrder, -, follows, alone⟩ :=
    chain emptyKennel ready after ⟨"./migrations"⟩ [] whelped ⟨by decide +kernel, by decide +kernel⟩
      (by decide) prepared listed makes (by decide) ordinary (by simp) (by decide)
  obtain rfl : ordered = whelped.reverse :=
    List.Perm.eq_of_pairwise (fun _ _ _ _ hab hba => absurd hba (List.lt_asymm hab)) inOrder
      chronological (perm.trans (List.reverse_perm _).symm)
  obtain ⟨rfl, idle, applies⟩ := alone rfl
  have hidle := Store.Connection.idle_empty "m"
  obtain ⟨confines, succeeds⟩ := applies Store.Connection.smallStore hidle rfl (by decide)
  have accepted := Store.Connection.apply_accepted (by decide) hidle confines
    fun batch name b hup sql hsql => by
      unfold Migrate.upBlock at hup
      split at hup
      · cases hup
      · next definition hload =>
          rw [idle name (MigrationDirectory.mem_of_load follows.listed hload)] at hload
          cases hload
          cases hup
          cases hsql
  refine ⟨after, Scaffold.made (⟨2024, 3, 5, 7, 8, 9, 0⟩, "add_visits"),
    Scaffold.made (⟨2024, 3, 5, 7, 8, 10, 0⟩, "add_pets"), by decide +kernel, by decide +kernel,
    (identifiers _ _ _ _ (by decide) (by decide)).1 (by decide), makes, ?_, succeeds accepted⟩
  exact directory after _ _ whelped.reverse follows.listed (by decide)
    (fun m hm => List.mem_map_of_mem hm) chronological

end SchemaLedger
