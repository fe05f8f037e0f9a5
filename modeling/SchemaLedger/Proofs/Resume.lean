import Mathlib.Data.List.Nodup
import SchemaLedger.Proofs.StoreAccepts

/-!
# Failures leave whole migrations, and a later call goes on from there

A call of `apply` that fails has applied some of the migrations that were outstanding, in
their order, and of the others there is nothing. So the next call over the same names has
the others to apply, in the same order, and it does not matter how often this happens: once
a call succeeds, the ledger has the names in the order in which one call alone would have
put them there.

The argument is about lists of names. A call turns the names `xs` of the ledger and the
names `ys` that are outstanding into `xs ++ ys.take k` and `ys.drop k`, and their
concatenation stays what it was.
-/

namespace SchemaLedger

namespace Ledger

/-- The names of rows, in the order of the rows. -/
def namesOf (rows : List Row) : List String := rows.map (·.name)

theorem lacking_congr {rows rows' : List Row} {names : List Name}
    (h : namesOf rows' = namesOf rows) : lacking rows' names = lacking rows names := by
  unfold namesOf at h
  rw [lacking, lacking, h]

/-- Rows that are added take their names away from those that are lacking. -/
theorem lacking_append {rows new : List Row} {names added : List Name}
    (h : namesOf new = added.map (·.text)) :
    lacking (rows ++ new) names = (lacking rows names).filter (· ∉ added) := by
  unfold namesOf at h
  rw [lacking, lacking, List.filter_filter, List.map_append, h]
  refine List.filter_congr fun name _ => ?_
  have hmem : name.text ∈ added.map (·.text) ↔ name ∈ added := by
    constructor
    · intro hm
      obtain ⟨other, hother, ht⟩ := List.mem_map.1 hm
      rwa [← Name.eq_of_text ht]
    · exact List.mem_map_of_mem
  rw [Bool.eq_iff_iff, Bool.and_eq_true]
  simp only [decide_eq_true_eq, List.mem_append, hmem, not_or, and_comm]

end Ledger

/-- What remains of a list of different things without some of the first ones. -/
theorem filter_notMem_take {α : Type} [DecidableEq α] {l : List α} (h : l.Nodup) (k : Nat) :
    l.filter (· ∉ l.take k) = l.drop k := by
  have hsplit := List.take_append_drop k l
  have hdisjoint := List.disjoint_take_drop h (Nat.le_refl k)
  calc l.filter (· ∉ l.take k)
      = (l.take k ++ l.drop k).filter (· ∉ l.take k) := by rw [hsplit]
    _ = [] ++ l.drop k := by
        rw [List.filter_append]
        congr 1
        · rw [List.filter_eq_nil_iff]
          intro a ha
          simpa using ha
        · rw [List.filter_eq_self]
          intro a ha
          simpa using fun hmem => hdisjoint hmem ha
    _ = l.drop k := List.nil_append _

namespace LedgerStore

open Migrate

variable {σ ω : Type} {db : Database σ} {table : String} {L : LedgerStore db table ω}

namespace Progress

variable {source : Source} {c c' : Content ω} {done : List Block} {es : List Exchange}
  {r : Except MigrateError ApplyReport}

theorem newRows (h : L.Progress source c c' done es r) :
    ∃ new, c'.rows = c.rows ++ new ∧ Ledger.NewRows (Ledger.lastBatch c.rows + 1)
      ((outstanding source c.rows).take done.length) c.rows new := by
  obtain ⟨hnames, hchanges⟩ := names_of_blocks upBlock_ok h.blocks
  rw [← hnames]
  exact h.effects.newRows hchanges

theorem namesOf (h : L.Progress source c c' done es r) :
    Ledger.namesOf c'.rows = Ledger.namesOf c.rows ++
      ((outstanding source c.rows).take done.length).map (·.text) := by
  obtain ⟨new, hrows, hnew⟩ := h.newRows
  rw [Ledger.namesOf, hrows, List.map_append, hnew.names]
  rfl

theorem outstanding_filter (h : L.Progress source c c' done es r) {other : Source}
    (same : other.list = source.list) :
    outstanding other c'.rows = (outstanding source c.rows).filter
      (· ∉ (outstanding source c.rows).take done.length) := by
  obtain ⟨new, hrows, hnew⟩ := h.newRows
  cases hl : source.list with
  | error e =>
      rw [hl] at same
      rw [outstanding, outstanding, same, hl]
      rfl
  | ok available =>
      rw [hl] at same
      rw [outstanding_of_list same, hrows, Ledger.lacking_append hnew.names,
        ← outstanding_of_list hl]

theorem outstanding_drop (h : L.Progress source c c' done es r) {other : Source}
    (same : other.list = source.list) (distinct : (outstanding source c.rows).Nodup) :
    outstanding other c'.rows = (outstanding source c.rows).drop done.length := by
  rw [h.outstanding_filter same, filter_notMem_take distinct]

/-- A call that succeeds has applied all that was outstanding, without any repetition. -/
theorem namesOf_of_ok {report : ApplyReport} (h : L.Progress source c c' done es (.ok report)) :
    Ledger.namesOf c'.rows = Ledger.namesOf c.rows ++ (outstanding source c.rows).map (·.text) ∧
      (outstanding source c.rows).Nodup := by
  obtain ⟨hlength, _, _⟩ := h.succeeded rfl
  obtain ⟨new, _, hnew⟩ := h.newRows
  have hnames := h.namesOf
  have hdistinct := hnew.distinct
  rw [hnew.names] at hdistinct
  rw [hlength, List.take_length] at hnames hdistinct
  exact ⟨hnames, List.Nodup.of_map _ hdistinct⟩

/-- A failure that is about a migration comes when those before it have been applied. -/
theorem namesOf_of_failed {e : MigrateError} {before after : List Name} {name : Name}
    (h : L.Progress source c c' done es (.error e)) (he : e.migration? = some name)
    (pending : outstanding source c.rows = before ++ name :: after)
    (distinct : (before ++ name :: after).Nodup) :
    Ledger.namesOf c'.rows = Ledger.namesOf c.rows ++ before.map (·.text) := by
  have hget := h.failed rfl he
  rw [pending] at hget
  have hlength : done.length = before.length := by
    refine (List.getElem?_inj ?_ distinct).1 ?_
    · exact (List.getElem?_eq_some_iff.1 hget).1
    · rw [hget, List.getElem?_append_right (Nat.le_refl _), Nat.sub_self]
      rfl
  rw [h.namesOf, pending, hlength, List.take_left']
  rfl

end Progress

/-- A call of `apply` leads from one state to another one, with some result. Its source lists
the names `available` unless it fails to list any. -/
inductive Applies (L : LedgerStore db table ω) (available : List Name) (s : σ) :
    Except MigrateError ApplyReport → σ → Prop
  | intro {source : Source} (confines : L.Confines source)
    (listed : ∀ names, source.list = .ok names → names = available) :
    Applies L available s ((apply source table).hold db s).result
      ((apply source table).hold db s).state

/-- Calls of `apply` that fail, one after the other, lead from one state to another one. -/
inductive FailedRuns (L : LedgerStore db table ω) (available : List Name) (s : σ) : σ → Prop
  | none : FailedRuns L available s s
  | more {m s' : σ} {e : MigrateError} (runs : FailedRuns L available s m)
    (failed : L.Applies available m (.error e) s') : FailedRuns L available s s'

theorem listed_of_ok {source : Source} {es : List Exchange} {report : ApplyReport}
    (h : ApplyRun source table es (.ok report)) : ∃ names, source.list = .ok names := by
  generalize hr : (Except.ok report : Except MigrateError ApplyReport) = r at h
  cases h with
  | notSetUp | notRead | notListed | noBatch => cases hr
  | nothingPending setUp read listed pending => exact ⟨_, listed⟩
  | carried setUp read listed pending numbered carried => exact ⟨_, listed⟩

/-- Failing does not change what the names of the ledger and those it is lacking are taken
together. -/
theorem Applies.names_of_error {available : List Name} {c : Content ω} {s s' : σ}
    {e : MigrateError} (h : L.Applies available s (.error e) s') (idle : L.Idle c s)
    (distinct : (Ledger.lacking c.rows available).Nodup) :
    ∃ c', L.Idle c' s' ∧ (Ledger.lacking c'.rows available).Nodup ∧
      Ledger.namesOf c'.rows ++ (Ledger.lacking c'.rows available).map (·.text) =
        Ledger.namesOf c.rows ++ (Ledger.lacking c.rows available).map (·.text) := by
  generalize (Except.error e : Except MigrateError ApplyReport) = r at h
  obtain @⟨source, confines, listed⟩ := h
  obtain ⟨c', done, idle', progress⟩ := apply_progress idle confines
  refine ⟨c', idle', ?_⟩
  have htake := progress.namesOf
  cases hl : source.list with
  | error f =>
      rw [outstanding, hl, List.take_nil, List.map_nil, List.append_nil] at htake
      rw [Ledger.lacking_congr htake, htake]
      exact ⟨distinct, rfl⟩
  | ok names =>
      obtain rfl := listed names hl
      have hdrop := progress.outstanding_drop rfl (by rwa [outstanding_of_list hl])
      rw [outstanding_of_list hl, outstanding_of_list hl] at hdrop
      rw [outstanding_of_list hl] at htake
      rw [hdrop, htake, List.append_assoc, ← List.map_append, List.take_append_drop]
      exact ⟨distinct.sublist (List.drop_sublist _ _), rfl⟩

theorem Applies.names_of_ok {available : List Name} {c : Content ω} {s s' : σ}
    {report : ApplyReport} (h : L.Applies available s (.ok report) s') (idle : L.Idle c s) :
    Ledger.namesOf (L.content s').rows =
        Ledger.namesOf c.rows ++ (Ledger.lacking c.rows available).map (·.text) ∧
      (Ledger.lacking c.rows available).Nodup := by
  generalize hr : (Except.ok report : Except MigrateError ApplyReport) = r at h
  obtain @⟨source, confines, listed⟩ := h
  have run := apply_admits ((apply source table).hold_admits db s)
  obtain ⟨c', done, idle', progress⟩ := apply_progress idle confines
  rw [← hr] at run progress
  obtain ⟨names, hl⟩ := listed_of_ok run
  obtain rfl := listed names hl
  rw [idle'.content, ← outstanding_of_list hl]
  exact progress.namesOf_of_ok

theorem FailedRuns.names {available : List Name} {c : Content ω} {s m : σ}
    (h : L.FailedRuns available s m) (idle : L.Idle c s)
    (distinct : (Ledger.lacking c.rows available).Nodup) :
    ∃ c', L.Idle c' m ∧
      Ledger.namesOf c'.rows ++ (Ledger.lacking c'.rows available).map (·.text) =
        Ledger.namesOf c.rows ++ (Ledger.lacking c.rows available).map (·.text) := by
  suffices ∃ c', L.Idle c' m ∧ (Ledger.lacking c'.rows available).Nodup ∧
      Ledger.namesOf c'.rows ++ (Ledger.lacking c'.rows available).map (·.text) =
        Ledger.namesOf c.rows ++ (Ledger.lacking c.rows available).map (·.text) by
    obtain ⟨c', idle', _, hnames⟩ := this
    exact ⟨c', idle', hnames⟩
  induction h with
  | none => exact ⟨c, idle, distinct, rfl⟩
  | more runs failed ih =>
      obtain ⟨c₁, idle₁, distinct₁, hnames₁⟩ := ih
      obtain ⟨c₂, idle₂, distinct₂, hnames₂⟩ := failed.names_of_error idle₁ distinct₁
      exact ⟨c₂, idle₂, distinct₂, hnames₂.trans hnames₁⟩

/-- A call of `apply` that fails leaves exactly the effect of the first migrations that were
outstanding, all of one batch, has attempted at most one more, and names that one if it names
any. A call after it, over any source that lists the same, has the others to apply in the
same order. So after any number of calls that fail and one that succeeds the ledger has the
same names in the same order as after a single call that succeeds, wherever that is made. -/
theorem failed_apply_resumes (L : LedgerStore db table ω) {c : Content ω} {s : σ}
    (idle : L.Idle c s) :
    (∀ source e, L.Confines source → ((apply source table).hold db s).result = .error e →
      ∃ c' done new, L.Idle c' ((apply source table).hold db s).state ∧
        L.Progress source c c' done ((apply source table).hold db s).exchanges (.error e) ∧
        c'.rows = c.rows ++ new ∧
        Ledger.NewRows (Ledger.lastBatch c.rows + 1) ((outstanding source c.rows).take done.length)
          c.rows new ∧
        ∀ source' o, L.Confines source' → source'.list = source.list →
          o = (apply source' table).hold db ((apply source table).hold db s).state →
          (∃ c'' done', L.Idle c'' o.state ∧
            L.Progress source' c' c'' done' o.exchanges o.result) ∧
          outstanding source' c'.rows = (outstanding source c.rows).filter
            (· ∉ (outstanding source c.rows).take done.length) ∧
          ((outstanding source c.rows).Nodup →
            outstanding source' c'.rows = (outstanding source c.rows).drop done.length)) ∧
    ∀ available m s' report, L.FailedRuns available s m → L.Applies available m (.ok report) s' →
      ∀ {σ' ω' : Type} (db' : Database σ') (table' : String) (L' : LedgerStore db' table' ω')
        (d : Content ω') (t t' : σ') (report' : ApplyReport),
        L'.Idle d t → Ledger.namesOf d.rows = Ledger.namesOf c.rows →
        L'.Applies available t (.ok report') t' →
        Ledger.namesOf (L.content s').rows = Ledger.namesOf (L'.content t').rows := by
  constructor
  · intro source e confines he
    obtain ⟨c', done, idle', progress⟩ := apply_progress idle confines
    rw [he] at progress
    obtain ⟨new, hrows, hnew⟩ := progress.newRows
    refine ⟨c', done, new, idle', progress, hrows, hnew, ?_⟩
    rintro source' o confines' same rfl
    exact ⟨apply_progress idle' confines', progress.outstanding_filter same,
      progress.outstanding_drop same⟩
  · intro available m s' report runs applies σ' ω' db' table' L' d t t' report' idle' same applies'
    obtain ⟨hsingle, distinct⟩ := applies'.names_of_ok idle'
    rw [Ledger.lacking_congr same] at hsingle distinct
    obtain ⟨c', idle', htogether⟩ := runs.names idle distinct
    rw [(applies.names_of_ok idle').1, htogether, hsingle, same]

open Store Connection in
/-- On an empty store a registry fails whose second migration does not compile: the first
one stays. A registry that does not compile at first, and does so in the next call, leaves
the names that the call alone leaves that compiles. -/
theorem failed_apply_resumes_of_empty_store :
    (∃ c' done, smallStore.Progress (Registry.source ⟨[(first, asking), (second, broken)]⟩)
        ⟨none, ⟨[], []⟩⟩ c' done
        ((apply (Registry.source ⟨[(first, asking), (second, broken)]⟩) "m").hold
          Connection.database {}).exchanges
        (.error (.compile second (.invalidIdentifier ""))) ∧
      Ledger.namesOf c'.rows = ["a"]) ∧
    ∃ e m s' t' report report', smallStore.Applies [first] {} (.error e) m ∧
      smallStore.Applies [first] m (.ok report) s' ∧
      smallStore.Applies [first] {} (.ok report') t' ∧
      Ledger.namesOf (smallStore.content s').rows =
        Ledger.namesOf (smallStore.content t').rows := by
  have valid : Sql.isQualifiedName "m" = true := by decide
  have confines (r : Registry) (h : ∀ entry ∈ r.entries, entry.2 = asking ∨ entry.2 = broken) :=
    confines_of_passesAll valid (passesAll_of_asking h)
  constructor
  · let r : Registry := ⟨[(first, asking), (second, broken)]⟩
    have hnames : r.names = [first, second] := names_of_both asking broken
    have failed := (apply_registry (r := r) valid (idle_empty "m") rfl (by rw [hnames]; decide)
      (passesAll_of_asking (by simp [r]))).2.of_broken second (by rw [hnames]; decide)
      rfl (by rw [hnames]; decide)
    obtain ⟨c', done, new, _, progress, _⟩ := (failed_apply_resumes smallStore
      (idle_empty "m")).1 _ _ (confines r (by simp [r])) failed
    have pending : outstanding (Registry.source ⟨[(first, asking), (second, broken)]⟩) [] =
        [first] ++ second :: [] := outstanding_of_both asking broken
    exact ⟨c', done, progress, progress.namesOf_of_failed rfl pending (by decide)⟩
  · have applies (definition : Definition) (h : definition = asking ∨ definition = broken)
        (s : Connection) := Applies.intro (L := smallStore) (s := s)
      (confines ⟨[(first, definition)]⟩ (by simpa using h))
      (fun names listed => by cases listed; exact names_of_first definition)
    have depends (definition : Definition) (h : definition = asking ∨ definition = broken)
        {k : Content Others} {s : Connection} (idle : smallStore.Idle k s) (empty : k.rows = []) :=
      (apply_registry (r := ⟨[(first, definition)]⟩) valid idle empty
        (by rw [names_of_first]; decide) (passesAll_of_asking (by simpa using h))).2
    have ask {k : Content Others} {s : Connection} (idle : smallStore.Idle k s)
        (empty : k.rows = []) :=
      (depends asking (.inl rfl) idle empty).of_asking (by rw [names_of_first]; decide)
    have failed := (depends broken (.inr rfl) (idle_empty "m") rfl).of_broken first
      (by rw [names_of_first]; decide) rfl (by rw [names_of_first]; decide)
    obtain ⟨c', done, idle, progress⟩ := apply_progress (L := smallStore) (idle_empty "m")
      (confines ⟨[(first, broken)]⟩ (by simp))
    rw [failed] at progress
    have pending : outstanding (Registry.source ⟨[(first, broken)]⟩) [] = [] ++ first :: [] := by
      rw [outstanding_of_list (congrArg Except.ok (names_of_first broken))]
      decide
    have empty : c'.rows = [] :=
      List.map_eq_nil_iff.1 (progress.namesOf_of_failed rfl pending (by decide))
    obtain ⟨report, hagain⟩ := ask idle empty
    obtain ⟨report', honce⟩ := ask (idle_empty "m") rfl
    have applies₁ := applies broken (.inr rfl) {}
    have applies₂ := applies asking (.inl rfl)
      ((apply (Registry.source ⟨[(first, broken)]⟩) "m").hold Connection.database {}).state
    have applies₃ := applies asking (.inl rfl) {}
    rw [failed] at applies₁
    rw [hagain] at applies₂
    rw [honce] at applies₃
    exact ⟨_, _, _, _, report, report', applies₁, applies₂, applies₃,
      (failed_apply_resumes smallStore (idle_empty "m")).2 _ _ _ _ (.more .none applies₁) applies₂
        _ _ smallStore _ _ _ _ (idle_empty "m") rfl applies₃⟩

end LedgerStore

end SchemaLedger
