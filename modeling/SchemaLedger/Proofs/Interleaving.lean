import Mathlib.Logic.Function.Basic
import SchemaLedger.Proofs.Decimal
import SchemaLedger.Proofs.Discipline

/-!
# Dialogues with one database in turns

Several dialogues with one database are held at a time. They take turns, in any order, and
one that has said something waits for as long as the others like. A turn is a call with its
reply; where the call begins a transaction, the turn goes on until that transaction has
ended. So blocks are not divided, but between its blocks a dialogue may go by what was read
long ago.

The order in which a dialogue uses transactions is known, `Disciplined`, and it is kept by
what is left of a dialogue behind a turn. So a turn of a call of `apply` or `revert` is one
of three things: a call that looks after the ledger, a block that is committed, or one that
is abandoned.
-/

namespace SchemaLedger

/-! ## Turns -/

namespace Exchange

/-- A transaction begins. -/
def begins (x : Exchange) : Bool := x.control? = some (.begin, true)

/-- A transaction ends: it is committed, or it is rolled back, whatever that is answered. -/
def ends (x : Exchange) : Bool :=
  match x.control? with
  | some (.commit, true) | some (.rollback, _) => true
  | _ => false

theorem begins_of_control? {x : Exchange} (h : x.control? = none) : x.begins = false := by
  rw [begins, h]
  rfl

theorem ends_of_control? {x : Exchange} (h : x.control? = none) : x.ends = false := by
  rw [ends, h]

/-- Exchanges up to the one that ends a transaction. -/
def upToEnd : List Exchange → List Exchange
  | [] => []
  | x :: es => if x.ends then [x] else x :: upToEnd es

/-- The first turn of some exchanges. -/
def firstTurn : List Exchange → List Exchange
  | [] => []
  | x :: es => if x.begins then x :: upToEnd es else [x]

theorem upToEnd_append {es rest : List Exchange} {x : Exchange} (h : ∀ y ∈ es, y.ends = false)
    (hx : x.ends = true) : upToEnd (es ++ x :: rest) = es ++ [x] := by
  induction es with
  | nil => rw [List.nil_append, upToEnd, if_pos hx, List.nil_append]
  | cons y es ih =>
      rw [List.cons_append, upToEnd, if_neg (by rw [h y List.mem_cons_self]; simp),
        ih fun z hz => h z (List.mem_cons_of_mem y hz), List.cons_append]

end Exchange

/-- A turn that was taken: what was said, what is left of the dialogue, and the state of the
database. -/
structure Turn (σ α : Type) where
  exchanges : List Exchange
  rest : Dialogue α
  state : σ

namespace Dialogue

variable {σ α : Type}

/-- Goes on until a transaction has ended. -/
def finishTurn (db : Database σ) : Dialogue α → σ → Turn σ α
  | .done a, s => ⟨[], .done a, s⟩
  | .note _ rest, s => rest.finishTurn db s
  | .call c next, s =>
    let (reply, s) := db.reply c s
    if Exchange.ends ⟨c, reply⟩ then ⟨[⟨c, reply⟩], next reply, s⟩
    else
      let t := (next reply).finishTurn db s
      { t with exchanges := ⟨c, reply⟩ :: t.exchanges }

/-- Takes a turn. A dialogue that is over has nothing to say. -/
def takeTurn (db : Database σ) : Dialogue α → σ → Turn σ α
  | .done a, s => ⟨[], .done a, s⟩
  | .note _ rest, s => rest.takeTurn db s
  | .call c next, s =>
    let (reply, s) := db.reply c s
    if Exchange.begins ⟨c, reply⟩ then
      let t := (next reply).finishTurn db s
      { t with exchanges := ⟨c, reply⟩ :: t.exchanges }
    else ⟨[⟨c, reply⟩], next reply, s⟩

theorem finishTurn_answers (db : Database σ) (d : Dialogue α) (s : σ) :
    db.Answers s (d.finishTurn db s).exchanges (d.finishTurn db s).state := by
  induction d generalizing s with
  | done a => exact rfl
  | note n rest ih => exact ih s
  | call c next ih =>
      unfold finishTurn
      by_cases h : Exchange.ends ⟨c, (db.reply c s).1⟩
      · simp only [if_pos h]
        exact ⟨rfl, rfl⟩
      · simp only [if_neg h]
        exact ⟨rfl, ih _ (db.reply c s).2⟩

theorem takeTurn_answers (db : Database σ) (d : Dialogue α) (s : σ) :
    db.Answers s (d.takeTurn db s).exchanges (d.takeTurn db s).state := by
  induction d generalizing s with
  | done a => exact rfl
  | note n rest ih => exact ih s
  | call c next ih =>
      unfold takeTurn
      by_cases h : Exchange.begins ⟨c, (db.reply c s).1⟩
      · simp only [if_pos h]
        exact ⟨rfl, finishTurn_answers db _ _⟩
      · simp only [if_neg h]
        exact ⟨rfl, rfl⟩

/-- What is left of a dialogue goes on from where the turn has ended. -/
theorem finishTurn_admits (db : Database σ) {d : Dialogue α} {s : σ} {es : List Exchange} {r : α}
    (h : (d.finishTurn db s).rest.Admits es r) :
    d.Admits ((d.finishTurn db s).exchanges ++ es) r ∧
      Exchange.upToEnd ((d.finishTurn db s).exchanges ++ es) =
        (d.finishTurn db s).exchanges := by
  induction d generalizing s with
  | done a =>
      obtain ⟨rfl, rfl⟩ := h
      exact ⟨⟨rfl, rfl⟩, rfl⟩
  | note n rest ih => exact ih h
  | call c next ih =>
      unfold finishTurn at h ⊢
      by_cases hends : Exchange.ends ⟨c, (db.reply c s).1⟩
      · simp only [if_pos hends] at h ⊢
        refine ⟨⟨_, es, rfl, h⟩, ?_⟩
        rw [List.singleton_append, Exchange.upToEnd, if_pos hends]
      · simp only [if_neg hends] at h ⊢
        obtain ⟨admits, upTo⟩ := ih _ h
        refine ⟨⟨_, _, rfl, admits⟩, ?_⟩
        rw [List.cons_append, Exchange.upToEnd, if_neg hends, upTo]

theorem takeTurn_admits (db : Database σ) {d : Dialogue α} {s : σ} {es : List Exchange} {r : α}
    (h : (d.takeTurn db s).rest.Admits es r) :
    d.Admits ((d.takeTurn db s).exchanges ++ es) r ∧
      Exchange.firstTurn ((d.takeTurn db s).exchanges ++ es) = (d.takeTurn db s).exchanges := by
  induction d generalizing s with
  | done a =>
      obtain ⟨rfl, rfl⟩ := h
      exact ⟨⟨rfl, rfl⟩, rfl⟩
  | note n rest ih => exact ih h
  | call c next ih =>
      unfold takeTurn at h ⊢
      by_cases hbegins : Exchange.begins ⟨c, (db.reply c s).1⟩
      · simp only [if_pos hbegins] at h ⊢
        obtain ⟨admits, upTo⟩ := finishTurn_admits db h
        refine ⟨⟨_, _, rfl, admits⟩, ?_⟩
        rw [List.cons_append, Exchange.firstTurn, if_pos hbegins, upTo]
      · simp only [if_neg hbegins] at h ⊢
        refine ⟨⟨_, es, rfl, h⟩, ?_⟩
        rw [List.singleton_append, Exchange.firstTurn, if_neg hbegins]

end Dialogue

/-! ## Turns of a dialogue with discipline -/

namespace Exchange

theorem begins_begin {n : Nat} : begins ⟨.execute "BEGIN TRANSACTION", .ok n⟩ = true := by
  rw [begins, control?_begin]
  rfl

theorem ends_of_filterMap {es : List Exchange} (h : es.filterMap control? = []) :
    ∀ x ∈ es, x.ends = false :=
  fun x hx => ends_of_control? (List.filterMap_eq_nil_iff.1 h x hx)

theorem firstTurn_upkeep {table : String} {x : Exchange} (h : Ledger.IsUpkeep table x.call)
    (rest : List Exchange) : firstTurn (x :: rest) = [x] := by
  rw [firstTurn, begins_of_control? (control?_upkeep h)]
  rfl

theorem firstTurn_begin {n : Nat} {es rest : List Exchange} {x : Exchange}
    (h : ∀ y ∈ es, y.ends = false) (hx : x.ends = true) :
    firstTurn (⟨.execute "BEGIN TRANSACTION", .ok n⟩ :: (es ++ x :: rest)) =
      ⟨.execute "BEGIN TRANSACTION", .ok n⟩ :: (es ++ [x]) := by
  rw [firstTurn, if_pos begins_begin, upToEnd_append h hx]

theorem firstTurn_committed {table : String} {b : Block} {es : List Exchange}
    (h : b.Committed table es) (rest : List Exchange) : firstTurn (es ++ rest) = es := by
  obtain @⟨n, m, es, changed⟩ := h
  rw [List.cons_append, List.append_assoc, List.singleton_append, firstTurn_begin]
  · refine List.forall_mem_append.2 ⟨ends_of_filterMap filterMap_control?_executed, ?_⟩
    exact ends_of_filterMap (filterMap_control?_changed changed)
  · rw [ends, control?_commit]
    rfl

theorem firstTurn_abandoned {table : String} {b : Block} {es : List Exchange} {e : MigrateError}
    (h : b.Abandoned table es e) : firstTurn es = es := by
  cases h with
  | notBegun =>
      rw [firstTurn, begins, control?_begin]
      rfl
  | failed fails =>
      rw [firstTurn_begin (ends_of_filterMap (filterMap_control?_fails fails))]
      rw [ends, control?_rollback]
  | commitRefused changed =>
      rw [List.append_cons, firstTurn_begin]
      · refine List.forall_mem_append.2 ⟨List.forall_mem_append.2 ⟨?_, ?_⟩, ?_⟩
        · exact ends_of_filterMap filterMap_control?_executed
        · exact ends_of_filterMap (filterMap_control?_changed changed)
        · refine List.forall_mem_singleton.2 ?_
          rw [ends, control?_commit]
          rfl
      · rw [ends, control?_rollback]

end Exchange

/-- A turn of a dialogue whose blocks are of some kind: there is nothing left to say, the
ledger is looked after, or a block is carried out as a whole. -/
inductive Whole (table : String) (P : Block → Prop) : List Exchange → Prop
  | nothing : Whole table P []
  | upkeep {x : Exchange} (upkeep : Ledger.IsUpkeep table x.call) : Whole table P [x]
  | committed {b : Block} {es : List Exchange} (known : P b) (committed : b.Committed table es) :
    Whole table P es
  | abandoned {b : Block} {es : List Exchange} {e : MigrateError} (known : P b)
    (abandoned : b.Abandoned table es e) : Whole table P es

/-- A dialogue uses transactions with discipline, with blocks of some kind only. -/
def Dialogue.Orderly {α : Type} (table : String) (P : Block → Prop) (d : Dialogue α) : Prop :=
  ∀ es r, d.Admits es r → ∃ bs, (∀ b ∈ bs, P b) ∧ Disciplined table bs es

/-- The first turn of exchanges with discipline is whole, and behind it there is discipline. -/
theorem Disciplined.firstTurn {table : String} {P : Block → Prop} {bs : List Block}
    {es : List Exchange} (h : Disciplined table bs es) (known : ∀ b ∈ bs, P b) :
    Whole table P (Exchange.firstTurn es) ∧ ∀ rest, es = Exchange.firstTurn es ++ rest →
      ∃ bs', (∀ b ∈ bs', P b) ∧ Disciplined table bs' rest := by
  cases h with
  | outside upkeep =>
      cases es with
      | nil =>
          refine ⟨.nothing, fun rest h => ⟨[], by simp, ?_⟩⟩
          rw [show rest = [] from h.symm]
          exact .outside upkeep
      | cons x es =>
          rw [Exchange.firstTurn_upkeep (upkeep x List.mem_cons_self)]
          refine ⟨.upkeep (upkeep x List.mem_cons_self), fun rest h => ⟨[], by simp, .outside ?_⟩⟩
          cases h
          exact fun y hy => upkeep y (List.mem_cons_of_mem x hy)
  | @committed b bs es₁ es₂ es₃ upkeep committed disciplined =>
      cases es₁ with
      | nil =>
          rw [List.nil_append, Exchange.firstTurn_committed committed]
          refine ⟨.committed (known b List.mem_cons_self) committed, fun rest h => ?_⟩
          rw [← List.append_cancel_left h]
          exact ⟨bs, fun d hd => known d (List.mem_cons_of_mem b hd), disciplined⟩
      | cons x es₁ =>
          rw [List.cons_append, List.cons_append,
            Exchange.firstTurn_upkeep (upkeep x List.mem_cons_self)]
          refine ⟨.upkeep (upkeep x List.mem_cons_self), fun rest h => ?_⟩
          cases h
          exact ⟨b :: bs, known,
            .committed (fun y hy => upkeep y (List.mem_cons_of_mem x hy)) committed disciplined⟩
  | @abandoned b es₁ es₂ e upkeep abandoned =>
      cases es₁ with
      | nil =>
          rw [List.nil_append, Exchange.firstTurn_abandoned abandoned]
          refine ⟨.abandoned (known b List.mem_cons_self) abandoned, fun rest h => ?_⟩
          rw [List.self_eq_append_right.1 h]
          exact ⟨[], by simp, .outside (by simp)⟩
      | cons x es₁ =>
          rw [List.cons_append, Exchange.firstTurn_upkeep (upkeep x List.mem_cons_self)]
          refine ⟨.upkeep (upkeep x List.mem_cons_self), fun rest h => ?_⟩
          cases h
          have upkeep' := fun y hy => upkeep y (List.mem_cons_of_mem x hy)
          exact ⟨[b], known, .abandoned upkeep' abandoned⟩

theorem Dialogue.Orderly.takeTurn {σ α : Type} {table : String} {P : Block → Prop}
    {d : Dialogue α} (h : d.Orderly table P) (db : Database σ) (s : σ) :
    Whole table P (d.takeTurn db s).exchanges ∧ (d.takeTurn db s).rest.Orderly table P := by
  constructor
  · -- the turn is the first one of whatever the rest of the dialogue goes through
    have admits := run_admits db (d.takeTurn db s).rest s
    obtain ⟨whole, first⟩ := takeTurn_admits db admits
    obtain ⟨bs, known, disciplined⟩ := h _ _ whole
    rw [← first]
    exact (disciplined.firstTurn known).1
  · intro es r admits
    obtain ⟨whole, first⟩ := takeTurn_admits db admits
    obtain ⟨bs, known, disciplined⟩ := h _ _ whole
    exact (disciplined.firstTurn known).2 es (by rw [first])

/-! ## Calls of `apply` and `revert` -/

/-- One of the ways to migrate, with a source. -/
inductive Errand where
  | apply (source : Source)
  | revert (source : Source)

namespace Errand

open Migrate

def source : Errand → Source
  | .apply source | .revert source => source

/-- The dialogue of an errand, without its result. -/
def dialogue (table : String) : Errand → Dialogue Unit
  | .apply source => (Migrate.apply source table).run >>= fun _ => pure ()
  | .revert source => (Migrate.revert source table).run >>= fun _ => pure ()

/-- The blocks that an errand can carry out. -/
def Has : Errand → Block → Prop
  | .apply source, b => ∃ batch, Text.int64Min ≤ batch ∧ batch ≤ Text.int64Max ∧
      upBlock source batch b.name = .ok b
  | .revert source, b => downBlock source b.name = .ok b

theorem orderly_dialogue (table : String) (errand : Errand) :
    (errand.dialogue table).Orderly table errand.Has := by
  intro es r h
  cases errand with
  | apply source =>
      obtain ⟨es, result, _, rfl, admits, rfl, _⟩ := Dialogue.admits_bind.1 h
      obtain ⟨bs, hbs, disciplined⟩ := numbered_of_applyRun (apply_admits admits)
      rw [List.append_nil]
      refine ⟨bs, fun b hb => ?_, disciplined⟩
      obtain ⟨value, batch, hvalue, hup⟩ := hbs b hb
      obtain ⟨lo, hi⟩ := Text.int64?_bounds hvalue
      exact ⟨batch, lo, hi, hup⟩
  | revert source =>
      obtain ⟨es, result, _, rfl, admits, rfl, _⟩ := Dialogue.admits_bind.1 h
      rw [List.append_nil]
      exact disciplined_of_revertRun (revert_admits admits)

end Errand

/-! ## Dialogues side by side -/

/-- Some dialogues with one database, at a moment: the state of the database, what is left of
every dialogue, and the turns that were taken. -/
structure Meeting (σ ι : Type) where
  state : σ
  dialogues : ι → Dialogue Unit
  turns : List (ι × List Exchange)

namespace Meeting

variable {σ ι : Type} [DecidableEq ι]

/-- A dialogue takes a turn. -/
def turn (db : Database σ) (m : Meeting σ ι) (i : ι) : Meeting σ ι :=
  let t := (m.dialogues i).takeTurn db m.state
  { state := t.state
    dialogues := Function.update m.dialogues i t.rest
    turns := m.turns ++ [(i, t.exchanges)] }

/-- Dialogues take turns in some order. -/
def run (db : Database σ) (m : Meeting σ ι) (order : List ι) : Meeting σ ι :=
  order.foldl (turn db) m

/-- Errands before any turn. -/
def opening (table : String) (errands : ι → Errand) (s : σ) : Meeting σ ι :=
  ⟨s, fun i => (errands i).dialogue table, []⟩

end Meeting

end SchemaLedger
