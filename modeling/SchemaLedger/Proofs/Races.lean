import Mathlib.Data.List.Chain
import SchemaLedger.Proofs.Interleaving
import SchemaLedger.Proofs.StoreAccepts

/-!
# Nothing is applied twice, however calls race

Calls of `apply` and `revert` that work on one ledger in turns decide what to do by what they
have read, and by the time they do it this may not be so any more. What keeps them from doing
a thing twice is in the blocks: a block that applies a migration is committed only if the
migration has no record at that moment, and one that reverts it only if there is one.

So the blocks of a migration that are committed take turns, the ones that apply it and the
ones that revert it, whoever they are from, and a record is there just when the last of them
has applied it.
-/

namespace SchemaLedger

/-! ## A block is known by its calls -/

namespace Ledger

variable {table : String}

theorem namedQuery_inj {n m : Name} (h : namedQuery table n = namedQuery table m) : n = m := by
  unfold namedQuery at h
  rw [String.append_right_inj] at h
  exact Name.eq_of_text (Sql.Literal.quote_inj h)

theorem deleteStatement_inj {n m : Name} (h : deleteStatement table n = deleteStatement table m) :
    n = m := by
  unfold deleteStatement at h
  rw [String.append_right_inj] at h
  exact Name.eq_of_text (Sql.Literal.quote_inj h)

theorem insertStatement_inj {name : Name} {n m : Int}
    (h : insertStatement table name n = insertStatement table name m) : n = m := by
  unfold insertStatement at h
  rw [String.append_left_inj, String.append_right_inj] at h
  exact Text.toString_inj h

theorem changeCalls_inj {n m : Name} {x y : LedgerChange}
    (h : changeCalls table n x = changeCalls table m y) : n = m ∧ x = y := by
  cases x with
  | record i =>
      cases y with
      | record j =>
          rw [changeCalls, changeCalls, List.cons.injEq, List.cons.injEq,
            DatabaseCall.queryCount.injEq, DatabaseCall.execute.injEq] at h
          obtain ⟨hquery, hinsert, _⟩ := h
          obtain rfl := namedQuery_inj hquery
          rw [insertStatement_inj hinsert]
          exact ⟨rfl, rfl⟩
      | remove => cases congrArg List.length h
  | remove =>
      cases y with
      | record j => cases congrArg List.length h
      | remove =>
          rw [changeCalls, changeCalls, List.cons.injEq, DatabaseCall.execute.injEq] at h
          exact ⟨deleteStatement_inj h.1, rfl⟩

theorem executeBatch_notMem_changeCalls (n : Name) (x : LedgerChange) (sql : String) :
    .executeBatch sql ∉ changeCalls table n x := by
  cases x <;> simp [changeCalls]

end Ledger

namespace Block

variable {table : String}

/-- Statements end where the first call is that is none. -/
theorem statements_inj {sts sts' : List String} {xs ys : List DatabaseCall}
    (hx : ∀ sql, .executeBatch sql ∉ xs) (hy : ∀ sql, .executeBatch sql ∉ ys)
    (h : sts.map .executeBatch ++ xs = sts'.map .executeBatch ++ ys) : sts = sts' ∧ xs = ys := by
  induction sts generalizing sts' with
  | nil =>
      cases sts' with
      | nil => exact ⟨rfl, h⟩
      | cons sql rest => exact absurd (by rw [show xs = _ from h]; simp) (hx sql)
  | cons sql sts ih =>
      cases sts' with
      | nil => exact absurd (by rw [show ys = _ from h.symm]; simp) (hy sql)
      | cons sql' sts' =>
          rw [List.map_cons, List.map_cons, List.cons_append, List.cons_append, List.cons.injEq,
            DatabaseCall.executeBatch.injEq] at h
          obtain ⟨rfl, hrest⟩ := h
          obtain ⟨rfl, rfl⟩ := ih hrest
          exact ⟨rfl, rfl⟩

theorem calls_inj {b d : Block} (h : b.calls table = d.calls table) : b = d := by
  obtain ⟨name, statements, change⟩ := b
  obtain ⟨name', statements', change'⟩ := d
  rw [calls, calls, List.cons.injEq, List.append_left_inj] at h
  obtain ⟨rfl, hchange⟩ := statements_inj (Ledger.executeBatch_notMem_changeCalls name change)
    (Ledger.executeBatch_notMem_changeCalls name' change') h.2
  obtain ⟨rfl, rfl⟩ := Ledger.changeCalls_inj hchange
  rfl

/-- What is sent and answered while a block is committed can be of no other block. -/
theorem Committed.unique {b d : Block} {es : List Exchange} (h : b.Committed table es)
    (h' : d.Committed table es) : b = d :=
  calls_inj (h.calls.symm.trans h'.calls)

end Block

/-! ## What turns have committed -/

/-- A transaction was begun and committed in a turn. -/
def Exchange.commit (es : List Exchange) : Bool :=
  es.filterMap control? = [(.begin, true), (.commit, true)]

/-- The turns in which something was committed, with the block that it was. -/
def CarriedOut {ι : Type} (table : String) (turns : List (ι × List Exchange))
    (bs : List (ι × Block)) : Prop :=
  List.Forall₂ (fun t p => t.1 = p.1 ∧ p.2.Committed table t.2)
    (turns.filter fun t => Exchange.commit t.2) bs

namespace CarriedOut

variable {ι : Type} {table : String} {turns : List (ι × List Exchange)} {bs bs' : List (ι × Block)}

theorem unique (h : CarriedOut table turns bs) (h' : CarriedOut table turns bs') : bs = bs' := by
  unfold CarriedOut at h h'
  generalize turns.filter (fun t => Exchange.commit t.2) = commits at h h'
  induction h generalizing bs' with
  | nil => cases h'; rfl
  | @cons t p commits bs ht _ ih =>
      cases h' with
      | @cons _ p' _ bs' ht' hbs' =>
          rw [ih hbs', Prod.ext (ht.1.symm.trans ht'.1) (ht.2.unique ht'.2)]

theorem append_commit {i : ι} {b : Block} {es : List Exchange} (h : CarriedOut table turns bs)
    (committed : b.Committed table es) :
    CarriedOut table (turns ++ [(i, es)]) (bs ++ [(i, b)]) := by
  have hcommit : Exchange.commit es = true := by
    rw [Exchange.commit, filterMap_control?_committed committed]
    rfl
  rw [CarriedOut, List.filter_append,
    List.filter_cons_of_pos (p := fun t : ι × List Exchange => Exchange.commit t.2) hcommit]
  exact List.rel_append h (.cons ⟨rfl, committed⟩ .nil)

theorem append_other {i : ι} {es : List Exchange} (h : CarriedOut table turns bs)
    (hcommit : Exchange.commit es = false) : CarriedOut table (turns ++ [(i, es)]) bs := by
  rwa [CarriedOut, List.filter_append, List.filter_cons_of_neg (by rw [hcommit]; simp),
    List.filter_nil, List.append_nil]

end CarriedOut

theorem commit_upkeep {table : String} {x : Exchange} (h : Ledger.IsUpkeep table x.call) :
    Exchange.commit [x] = false := by
  rw [Exchange.commit, filterMap_control?_upkeep (List.forall_mem_singleton.2 h)]
  rfl

theorem commit_abandoned {table : String} {b : Block} {es : List Exchange} {e : MigrateError}
    (h : b.Abandoned table es e) : Exchange.commit es = false := by
  rcases filterMap_control?_abandoned h with hc | ⟨accepted, hc | hc⟩ <;>
    rw [Exchange.commit, hc] <;> simp

/-! ## Changes that take turns -/

/-- The change adds a record. -/
def LedgerChange.records : LedgerChange → Bool
  | .record _ => true
  | .remove => false

/-- Changes of one record take turns, beginning with an addition just when there is no record
`before`; there is one `after` just when the last of them was an addition, or without any
change if there was one. -/
structure Alternates (before : Prop) (changes : List LedgerChange) (after : Prop) : Prop where
  turns : changes.IsChain (·.records ≠ ·.records)
  first : ∀ x ∈ changes.head?, x.records = true ↔ ¬before
  last : ∀ x ∈ changes.getLast?, x.records = true ↔ after
  unchanged : changes = [] → (before ↔ after)

namespace Alternates

theorem refl (p : Prop) : Alternates p [] p :=
  ⟨.nil, by simp, by simp, fun _ => Iff.rfl⟩

theorem append_singleton {p q q' : Prop} {xs : List LedgerChange} {x : LedgerChange}
    (h : Alternates p xs q) (fits : x.records = true ↔ ¬q) (after : x.records = true ↔ q') :
    Alternates p (xs ++ [x]) q' where
  turns := by
    refine List.isChain_append.2 ⟨h.turns, .singleton x, fun y hy z hz heq => ?_⟩
    cases hz
    have hlast := h.last y hy
    rw [heq] at hlast
    exact iff_not_self (hlast.symm.trans fits)
  first := by
    intro y hy
    cases xs with
    | nil =>
        cases hy
        rw [h.unchanged rfl]
        exact fits
    | cons z zs => exact h.first y hy
  last := by
    intro y hy
    rw [List.getLast?_concat] at hy
    cases hy
    exact after
  unchanged := by simp

theorem congr {p q q' : Prop} {xs : List LedgerChange} (h : Alternates p xs q) (hq : q ↔ q') :
    Alternates p xs q' :=
  propext hq ▸ h

theorem length_le_one {p q : Prop} {xs : List LedgerChange} (h : Alternates p xs q)
    (adds : ∀ x ∈ xs, x.records = true) : xs.length ≤ 1 := by
  match xs, h.turns with
  | [], _ => simp
  | [_], _ => simp
  | x :: y :: _, .cons_cons hne _ =>
      exact absurd ((adds x (by simp)).trans (adds y (by simp)).symm) hne

end Alternates

namespace Ledger

/-- There is a record of a name. -/
def Recorded (rows : List Row) (name : Name) : Prop := ∃ r ∈ rows, r.name = name.text

/-- A change of the record of a name fits, and it makes of the record what it says. -/
theorem Updated.recorded_iff {name : Name} {change : LedgerChange} {rows rows' : List Row}
    (h : Updated name change rows rows') :
    (change.records = true ↔ ¬Recorded rows name) ∧
      (change.records = true ↔ Recorded rows' name) := by
  cases h with
  | @recorded _ id batch time fresh above =>
      refine ⟨⟨fun _ ⟨r, hr, hname⟩ => fresh r hr hname, fun _ => rfl⟩, fun _ => ?_, fun _ => rfl⟩
      exact ⟨⟨id, name.text, batch, time⟩, by simp, rfl⟩
  | removed found =>
      refine ⟨⟨fun h => absurd h Bool.false_ne_true, fun h => absurd found h⟩,
        fun h => absurd h Bool.false_ne_true, ?_⟩
      rintro ⟨r, hr, hname⟩
      exact absurd hname (of_decide_eq_true (List.mem_filter.1 hr).2)

theorem Updated.recorded_other {name other : Name} {change : LedgerChange}
    {rows rows' : List Row} (h : Updated name change rows rows') (ne : name ≠ other) :
    Recorded rows other ↔ Recorded rows' other := by
  have hne : other.text ≠ name.text := fun heq => ne (Name.eq_of_text heq.symm)
  cases h with
  | recorded fresh above =>
      simp only [Recorded, List.mem_append, List.mem_singleton, or_and_right, exists_or,
        exists_eq_left, hne.symm, or_false]
  | removed found =>
      simp only [Recorded, List.mem_filter, decide_eq_true_eq]
      constructor
      · rintro ⟨r, hr, hname⟩
        exact ⟨r, ⟨hr, by rw [hname]; exact hne⟩, hname⟩
      · rintro ⟨r, ⟨hr, _⟩, hname⟩
        exact ⟨r, hr, hname⟩

theorem Updated.distinct {name : Name} {change : LedgerChange} {rows rows' : List Row}
    (h : Updated name change rows rows') (distinct : (rows.map (·.name)).Nodup) :
    (rows'.map (·.name)).Nodup := by
  cases h with
  | recorded fresh above => exact nodup_map_concat distinct fresh
  | removed found => exact nodup_map_filter distinct _

end Ledger

/-- The changes of the record of a name among blocks of several parties. -/
def changesOf {ι : Type} (name : Name) (bs : List (ι × Block)) : List LedgerChange :=
  (bs.filter (·.2.name = name)).map (·.2.change)

theorem changesOf_append {ι : Type} (name : Name) (bs : List (ι × Block)) (i : ι) (b : Block) :
    changesOf name (bs ++ [(i, b)]) =
      changesOf name bs ++ if b.name = name then [b.change] else [] := by
  rw [changesOf, List.filter_append, List.map_append]
  by_cases h : b.name = name
  · rw [if_pos h, List.filter_cons_of_pos (by simpa using h)]
    rfl
  · rw [if_neg h, List.filter_cons_of_neg (by simpa using h)]
    rfl

/-- A change that fits makes the next turn of its name, and leaves those of all others. -/
theorem alternates_of_updated {ι : Type} {start rows rows' : List Ledger.Row}
    {bs : List (ι × Block)} {b : Block} (h : ∀ name, Alternates (Ledger.Recorded start name)
      (changesOf name bs) (Ledger.Recorded rows name))
    (updated : Ledger.Updated b.name b.change rows rows') (i : ι) (name : Name) :
    Alternates (Ledger.Recorded start name) (changesOf name (bs ++ [(i, b)]))
      (Ledger.Recorded rows' name) := by
  rw [changesOf_append]
  by_cases hname : b.name = name
  · subst hname
    obtain ⟨fits, after⟩ := updated.recorded_iff
    rw [if_pos rfl]
    exact (h b.name).append_singleton fits after
  · rw [if_neg hname, List.append_nil]
    exact (h name).congr (updated.recorded_other hname)

/-! ## Races -/

namespace LedgerStore

variable {σ ω ι : Type} {db : Database σ} {table : String} {L : LedgerStore db table ω}

/-- Looking after a ledger does not touch its rows. -/
theorem idle_of_upkeep {c : Content ω} {s s' : σ} {x : Exchange}
    (upkeep : Ledger.IsUpkeep table x.call) (idle : L.Idle c s) (answers : db.Answers s [x] s') :
    ∃ c', c.Like c' ∧ L.Idle c' s' := by
  obtain ⟨call, reply⟩ := x
  rw [Database.answers_singleton] at answers
  rcases upkeep with h | h
  · rcases List.mem_append.1 h with h | h
    · split at h
      · cases List.mem_singleton.1 h
        exact ⟨c, .refl c, L.schemaMade idle answers⟩
      · cases h
    · cases List.mem_singleton.1 h
      cases reply with
      | ok _ => exact ⟨{ c with ledger := some c.rows }, ⟨rfl, rfl⟩, L.tableMade idle answers⟩
      | error e => exact L.tableRefused idle answers
  · simp only [Ledger.readCalls, List.mem_cons, List.not_mem_nil, or_false] at h
    refine ⟨c, .refl c, ?_⟩
    rcases h with rfl | rfl | rfl
    · exact (L.present idle answers).1
    · exact (L.listed idle answers).1
    · exact (L.numbered idle answers).1

theorem admissible_of_has {errand : Errand} {b : Block} (confines : L.Confines errand.source)
    (h : errand.Has b) : L.Admissible b := by
  cases errand with
  | apply source =>
      obtain ⟨batch, lo, hi, hup⟩ := h
      exact admissible_of_upBlock confines lo hi hup
  | revert source => exact admissible_of_downBlock confines h

/-- What races keep: the database is in order, no name has two records, all that is left of
the errands is orderly, and the blocks `bs` that were committed take turns. -/
structure Kept (L : LedgerStore db table ω) (errands : ι → Errand) (c c' : Content ω)
    (m : Meeting σ ι) (bs : List (ι × Block)) : Prop where
  idle : L.Idle c' m.state
  distinct : (c'.rows.map (·.name)).Nodup
  orderly : ∀ i, (m.dialogues i).Orderly table (errands i).Has
  carriedOut : CarriedOut table m.turns bs
  known : ∀ p ∈ bs, (errands p.1).Has p.2
  alternates : ∀ name,
    Alternates (Ledger.Recorded c.rows name) (changesOf name bs) (Ledger.Recorded c'.rows name)

theorem kept_of_opening {errands : ι → Errand} {c : Content ω} {s : σ} (idle : L.Idle c s)
    (distinct : (c.rows.map (·.name)).Nodup) :
    L.Kept errands c c (Meeting.opening table errands s) [] where
  idle := idle
  distinct := distinct
  orderly i := (errands i).orderly_dialogue table
  carriedOut := .nil
  known := by simp
  alternates name := .refl _

variable [DecidableEq ι]

theorem orderly_of_turn (db : Database σ) {errands : ι → Errand} {m : Meeting σ ι}
    (h : ∀ j, (m.dialogues j).Orderly table (errands j).Has) (i j : ι) :
    ((m.turn db i).dialogues j).Orderly table (errands j).Has := by
  by_cases hj : j = i
  · subst hj
    simpa [Meeting.turn] using ((h j).takeTurn db m.state).2
  · simpa [Meeting.turn, Function.update_of_ne hj] using h j

theorem Kept.turn {errands : ι → Errand} {c c' : Content ω} {m : Meeting σ ι}
    {bs : List (ι × Block)} (h : L.Kept errands c c' m bs)
    (confines : ∀ i, L.Confines (errands i).source) (i : ι) :
    ∃ c'' bs', L.Kept errands c c'' (m.turn db i) bs' := by
  have answers := (m.dialogues i).takeTurn_answers db m.state
  have whole := ((h.orderly i).takeTurn db m.state).1
  have orderly' := orderly_of_turn db h.orderly i
  have turns : (m.turn db i).turns =
      m.turns ++ [(i, ((m.dialogues i).takeTurn db m.state).exchanges)] := rfl
  -- a turn in which nothing is committed leaves the rows
  have quiet {c'' : Content ω} (like : c'.Like c'') (idle : L.Idle c'' (m.turn db i).state)
      (hcommit : Exchange.commit ((m.dialogues i).takeTurn db m.state).exchanges = false) :
      L.Kept errands c c'' (m.turn db i) bs := by
    refine ⟨idle, ?_, orderly', ?_, h.known, ?_⟩
    · rw [like.rows]
      exact h.distinct
    · rw [turns]
      exact h.carriedOut.append_other hcommit
    · rw [like.rows]
      exact h.alternates
  generalize ((m.dialogues i).takeTurn db m.state).exchanges = es at answers whole turns quiet
  cases whole with
  | nothing =>
      refine ⟨c', bs, quiet (.refl c') ?_ rfl⟩
      show L.Idle c' ((m.dialogues i).takeTurn db m.state).state
      rw [Database.answers_nil.1 answers]
      exact h.idle
  | upkeep upkeep =>
      obtain ⟨c'', like, idle⟩ := idle_of_upkeep upkeep h.idle answers
      exact ⟨c'', bs, quiet like idle (commit_upkeep upkeep)⟩
  | abandoned known abandoned =>
      have idle := idle_of_abandoned (admissible_of_has (confines i) known) abandoned h.idle answers
      exact ⟨c', bs, quiet (.refl c') idle (commit_abandoned abandoned)⟩
  | @committed b _ known committed =>
      obtain ⟨c'', idle, effect⟩ :=
        effect_of_committed (admissible_of_has (confines i) known) committed h.idle answers
      refine ⟨c'', bs ++ [(i, b)], idle, effect.rows.distinct h.distinct, orderly', ?_, ?_,
        alternates_of_updated h.alternates effect.rows i⟩
      · rw [turns]
        exact h.carriedOut.append_commit committed
      · exact List.forall_mem_append.2 ⟨h.known, List.forall_mem_singleton.2 known⟩

theorem Kept.run {errands : ι → Errand} {c c' : Content ω} {m : Meeting σ ι}
    {bs : List (ι × Block)} (h : L.Kept errands c c' m bs)
    (confines : ∀ i, L.Confines (errands i).source) (order : List ι) :
    ∃ c'' bs', L.Kept errands c c'' (m.run db order) bs' := by
  induction order generalizing m c' bs with
  | nil => exact ⟨c', bs, h⟩
  | cons i rest ih =>
      obtain ⟨c'', bs', h'⟩ := h.turn confines i
      exact ih h'

/-- Any number of calls of `apply` and `revert`, each with a source of its own, work on one
ledger and take turns in any order. Then no name ever has two records, and the blocks of a
migration that are committed, whoever they are from, apply and revert it in turns; it is
recorded just when the last of them has applied it. What the blocks are is known for certain
from what was sent and answered. -/
theorem races_apply_once (L : LedgerStore db table ω) {c : Content ω} {s : σ} (idle : L.Idle c s)
    (distinct : (c.rows.map (·.name)).Nodup) (errands : ι → Errand)
    (confines : ∀ i, L.Confines (errands i).source) (order : List ι) :
    let m := (Meeting.opening table errands s).run db order
    ∃ c' bs, L.Idle c' m.state ∧ (c'.rows.map (·.name)).Nodup ∧
      CarriedOut table m.turns bs ∧ (∀ bs', CarriedOut table m.turns bs' → bs' = bs) ∧
      (∀ p ∈ bs, (errands p.1).Has p.2) ∧
      ∀ name, Alternates (Ledger.Recorded c.rows name) (changesOf name bs)
        (Ledger.Recorded c'.rows name) := by
  intro m
  obtain ⟨c', bs, kept⟩ := (kept_of_opening idle distinct).run confines order
  exact ⟨c', bs, kept.idle, kept.distinct, kept.carriedOut,
    fun bs' h => h.unique kept.carriedOut, kept.known, kept.alternates⟩

open Store Connection in
/-- Two calls of `apply` with one migration, on an empty store. Both read that nothing is
applied before one of them goes on with its block. At most one block is committed. -/
theorem races_apply_once_of_two :
    ∃ c' bs, smallStore.Idle c' ((Meeting.opening "m" (fun _ : Bool =>
        .apply (Registry.source ⟨[(first, asking)]⟩)) {}).run database
          [false, true, false, true, false, true, false, true]).state ∧
      CarriedOut "m" ((Meeting.opening "m" (fun _ : Bool =>
        .apply (Registry.source ⟨[(first, asking)]⟩)) {}).run database
          [false, true, false, true, false, true, false, true]).turns bs ∧
      (changesOf first bs).length ≤ 1 := by
  have valid : Sql.isQualifiedName "m" = true := by decide
  have passes : PassesAll ⟨[(first, asking)]⟩ := passesAll_of_asking (by simp)
  have confines := confines_of_passesAll valid passes
  obtain ⟨c', bs, idle, _, carriedOut, _, known, alternates⟩ :=
    races_apply_once smallStore (idle_empty "m") (by simp [Content.rows])
      (fun _ : Bool => .apply (Registry.source ⟨[(first, asking)]⟩)) (fun _ => confines)
      [false, true, false, true, false, true, false, true]
  refine ⟨c', bs, idle, carriedOut, (alternates first).length_le_one fun x hx => ?_⟩
  obtain ⟨p, hp, rfl⟩ := List.mem_map.1 hx
  obtain ⟨batch, _, _, hup⟩ := known p (List.mem_of_mem_filter hp)
  rw [(Migrate.upBlock_ok hup).2]
  rfl

end LedgerStore

end SchemaLedger
