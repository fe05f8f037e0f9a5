import SchemaLedger.Migrate.Dialogue

/-!
# Exchanges: what a dialogue can say, and what a database answers

Holding a dialogue with a database has two sides. The dialogue decides which call comes
next after which replies, and the database decides the replies. Here the two are told
apart. `Dialogue.Admits` is the language of a dialogue: the exchanges it may go through,
whoever answers, and the result it then ends with. `Database.Answers` says that a database
gives certain replies in a row, and in which state that leaves it.

A dialogue that is held goes through exchanges that both sides agree on, `run_admits` and
`run_answers`. So what is proved of the language of a dialogue holds over every database,
and what a particular database adds is reasoning about lists of exchanges, without a look
at the dialogue that produced them.
-/

namespace SchemaLedger

/-- A call and the reply it was given. -/
structure Exchange where
  call : DatabaseCall
  reply : call.Reply

/-- The exchanges among what happened. -/
def Event.exchange? : Event → Option Exchange
  | .note _ => none
  | .answered c reply => some ⟨c, reply⟩

/-- The exchanges of a dialogue that was held, in order. -/
def Outcome.exchanges {σ α : Type} (o : Outcome σ α) : List Exchange :=
  o.events.filterMap Event.exchange?

/-- The calls of a dialogue that was held, in order. -/
def Outcome.calls {σ α : Type} (o : Outcome σ α) : List DatabaseCall :=
  o.exchanges.map (·.call)

/-- A reply that is no error. -/
def DatabaseCall.accepts : (c : DatabaseCall) → c.Reply → Prop
  | .execute _, r => ∃ n, r = .ok n
  | .executeBatch _, r => r = .ok ()
  | .relationExists _, r => ∃ b, r = .ok b
  | .queryCount _, r => ∃ n, r = .ok n
  | .queryRows _, r => ∃ rows, r = .ok rows
  | .createSchema _, r => r = .ok ()

/-- The call was answered without an error. -/
def Exchange.accepted (x : Exchange) : Prop := x.call.accepts x.reply

namespace Database

variable {σ : Type}

/-- A database that is in state `s` answers calls as some exchanges say, and is in state
`s'` after them. -/
def Answers (db : Database σ) : σ → List Exchange → σ → Prop
  | s, [], s' => s' = s
  | s, x :: es, s' =>
    (db.reply x.call s).1 = x.reply ∧ db.Answers (db.reply x.call s).2 es s'

@[simp] theorem answers_nil {db : Database σ} {s s' : σ} :
    db.Answers s [] s' ↔ s' = s := Iff.rfl

theorem answers_cons {db : Database σ} {s s' : σ} {c : DatabaseCall} {r : c.Reply}
    {es : List Exchange} :
    db.Answers s (⟨c, r⟩ :: es) s' ↔ ∃ m, db.reply c s = (r, m) ∧ db.Answers m es s' := by
  constructor
  · rintro ⟨hr, hs⟩
    exact ⟨_, Prod.ext hr rfl, hs⟩
  · rintro ⟨m, hr, hs⟩
    rw [Answers, hr]
    exact ⟨rfl, hs⟩

theorem answers_singleton {db : Database σ} {s s' : σ} {c : DatabaseCall} {r : c.Reply} :
    db.Answers s [⟨c, r⟩] s' ↔ db.reply c s = (r, s') := by
  rw [answers_cons]
  constructor
  · rintro ⟨m, hr, rfl⟩
    exact hr
  · intro hr
    exact ⟨s', hr, rfl⟩

theorem answers_append {db : Database σ} {s s' : σ} {es₁ es₂ : List Exchange} :
    db.Answers s (es₁ ++ es₂) s' ↔
      ∃ m, db.Answers s es₁ m ∧ db.Answers m es₂ s' := by
  induction es₁ generalizing s with
  | nil => simp
  | cons x es ih =>
      simp only [List.cons_append, Answers, ih]
      constructor
      · rintro ⟨hr, m, h₁, h₂⟩
        exact ⟨m, ⟨hr, h₁⟩, h₂⟩
      · rintro ⟨m, ⟨hr, h₁⟩, h₂⟩
        exact ⟨hr, m, h₁, h₂⟩

end Database

namespace Dialogue

variable {σ α β : Type}

theorem andThen_done (d : Dialogue α) : d.andThen .done = d := by
  induction d with
  | done a => rfl
  | note n rest ih => rw [andThen, ih]
  | call c next ih => simp only [andThen, ih]

theorem andThen_assoc {γ : Type} (d : Dialogue α) (f : α → Dialogue β)
    (g : β → Dialogue γ) :
    (d.andThen f).andThen g = d.andThen fun a => (f a).andThen g := by
  induction d with
  | done a => rfl
  | note n rest ih => simp only [andThen, ih]
  | call c next ih => simp only [andThen, ih]

instance : LawfulMonad Dialogue :=
  LawfulMonad.mk' Dialogue andThen_done (fun _ _ => rfl) andThen_assoc

/-- A dialogue may go through some exchanges and then end with a result. Remarks are not
part of it. -/
def Admits : Dialogue α → List Exchange → α → Prop
  | .done a, es, r => es = [] ∧ r = a
  | .note _ rest, es, r => rest.Admits es r
  | .call c next, es, r =>
    ∃ reply es', es = ⟨c, reply⟩ :: es' ∧ (next reply).Admits es' r

theorem admits_pure {a r : α} {es : List Exchange} :
    (pure a : Dialogue α).Admits es r ↔ es = [] ∧ r = a := Iff.rfl

theorem admits_asking {c : DatabaseCall} {es : List Exchange} {r : c.Reply} :
    (asking c).Admits es r ↔ es = [⟨c, r⟩] := by
  constructor
  · rintro ⟨reply, es', rfl, rfl, rfl⟩
    rfl
  · rintro rfl
    exact ⟨r, [], rfl, rfl, rfl⟩

theorem admits_remarking {n : Note} {es : List Exchange} {r : Unit} :
    (remarking n).Admits es r ↔ es = [] :=
  and_iff_left rfl

/-- One dialogue after the other goes through the exchanges of both. -/
theorem admits_bind {d : Dialogue α} {f : α → Dialogue β} {es : List Exchange}
    {r : β} :
    (d >>= f).Admits es r ↔
      ∃ es₁ a es₂, es = es₁ ++ es₂ ∧ d.Admits es₁ a ∧ (f a).Admits es₂ r := by
  show (d.andThen f).Admits es r ↔ _
  induction d generalizing es with
  | done a =>
      constructor
      · intro h
        exact ⟨[], a, es, rfl, ⟨rfl, rfl⟩, h⟩
      · rintro ⟨_, _, es₂, rfl, ⟨rfl, rfl⟩, h⟩
        exact h
  | note n rest ih => exact ih
  | call c next ih =>
      simp only [andThen, Admits, ih]
      constructor
      · rintro ⟨reply, _, rfl, es₁, a, es₂, rfl, h₁, h₂⟩
        exact ⟨_, a, es₂, rfl, ⟨reply, es₁, rfl, h₁⟩, h₂⟩
      · rintro ⟨_, a, es₂, rfl, ⟨reply, es₁, rfl, h₁⟩, h₂⟩
        exact ⟨reply, _, rfl, es₁, a, es₂, rfl, h₁, h₂⟩

/-- What is held with a database is something that the dialogue admits. -/
theorem run_admits (db : Database σ) (d : Dialogue α) (s : σ) :
    d.Admits (d.run db s).exchanges (d.run db s).result := by
  induction d generalizing s with
  | done a => exact ⟨rfl, rfl⟩
  | note n rest ih => exact ih s
  | call c next ih =>
      exact ⟨(db.reply c s).1, _, rfl, ih _ (db.reply c s).2⟩

/-- What is held with a database is answered by it. -/
theorem run_answers (db : Database σ) (d : Dialogue α) (s : σ) :
    db.Answers s (d.run db s).exchanges (d.run db s).state := by
  induction d generalizing s with
  | done a => exact rfl
  | note n rest ih => exact ih s
  | call c next ih => exact ⟨rfl, ih _ (db.reply c s).2⟩

/-- The calls of a dialogue that was held lead to the state that it has left. -/
theorem state_of_run (db : Database σ) (d : Dialogue α) (s : σ) :
    (d.run db s).state = (d.run db s).calls.foldl (fun s call => (db.reply call s).2) s := by
  induction d generalizing s with
  | done a => rfl
  | note n rest ih => exact ih s
  | call c next ih => exact ih _ (db.reply c s).2

/-- Holding one dialogue after the other is to hold the second with what the first has left. -/
theorem run_bind (db : Database σ) (d : Dialogue α) (f : α → Dialogue β) (s : σ) :
    ((d >>= f).run db s).result = ((f (d.run db s).result).run db (d.run db s).state).result ∧
      ((d >>= f).run db s).state = ((f (d.run db s).result).run db (d.run db s).state).state ∧
      ((d >>= f).run db s).exchanges =
        (d.run db s).exchanges ++
          ((f (d.run db s).result).run db (d.run db s).state).exchanges := by
  induction d generalizing s with
  | done a => exact ⟨rfl, rfl, rfl⟩
  | note n rest ih => exact ih s
  | call c next ih =>
      obtain ⟨hresult, hstate, hexchanges⟩ := ih (db.reply c s).1 (db.reply c s).2
      exact ⟨hresult, hstate, congrArg (List.cons (Exchange.mk c (db.reply c s).1)) hexchanges⟩

end Dialogue

namespace Work

variable {σ α β : Type}

/-- Holds some work with a database. -/
def hold (db : Database σ) (w : Work α) (s : σ) : Outcome σ (Except MigrateError α) :=
  w.run.run db s

/-- Some work may go through some exchanges and then end with a result or a failure. -/
def Admits (w : Work α) (es : List Exchange) (r : Except MigrateError α) : Prop :=
  Dialogue.Admits w.run es r

theorem hold_admits (db : Database σ) (w : Work α) (s : σ) :
    w.Admits (w.hold db s).exchanges (w.hold db s).result :=
  w.run.run_admits db s

theorem hold_answers (db : Database σ) (w : Work α) (s : σ) :
    db.Answers s (w.hold db s).exchanges (w.hold db s).state :=
  w.run.run_answers db s

theorem state_of_hold (db : Database σ) (w : Work α) (s : σ) :
    (w.hold db s).state = (w.hold db s).calls.foldl (fun s call => (db.reply call s).2) s :=
  w.run.state_of_run db s

/-- Work that succeeds is followed by what comes after it. -/
theorem hold_bind_of_ok {db : Database σ} {w : Work α} {f : α → Work β} {s : σ} {a : α}
    (h : (w.hold db s).result = .ok a) :
    ((w >>= f).hold db s).result = ((f a).hold db (w.hold db s).state).result ∧
      ((w >>= f).hold db s).state = ((f a).hold db (w.hold db s).state).state ∧
      ((w >>= f).hold db s).exchanges =
        (w.hold db s).exchanges ++ ((f a).hold db (w.hold db s).state).exchanges := by
  have both := Dialogue.run_bind db w.run (ExceptT.bindCont f) s
  have hresult : (w.run.run db s).result = .ok a := h
  rw [hresult] at both
  exact both

/-- Work that fails is followed by nothing. -/
theorem hold_bind_of_error {db : Database σ} {w : Work α} {f : α → Work β} {s : σ}
    {e : MigrateError} (h : (w.hold db s).result = .error e) :
    ((w >>= f).hold db s).result = .error e ∧
      ((w >>= f).hold db s).state = (w.hold db s).state ∧
      ((w >>= f).hold db s).exchanges = (w.hold db s).exchanges := by
  have both := Dialogue.run_bind db w.run (ExceptT.bindCont f) s
  have hresult : (w.run.run db s).result = .error e := h
  rw [hresult] at both
  exact ⟨both.1, both.2.1, both.2.2.trans (List.append_nil _)⟩

/-- Where nothing is called behind some work, only its result is put into another form. -/
theorem hold_bind_of_silent {w : Work α} {f : α → Work β} {g : α → Except MigrateError β}
    (silent : ∀ {a es r}, (f a).Admits es r → es = [] ∧ r = g a) (db : Database σ) (s : σ) :
    ((w >>= f).hold db s).exchanges = (w.hold db s).exchanges ∧
      ((w >>= f).hold db s).state = (w.hold db s).state ∧
      ((w >>= f).hold db s).result = (w.hold db s).result.bind g := by
  cases h : (w.hold db s).result with
  | error e =>
      obtain ⟨hresult, hstate, hexchanges⟩ := hold_bind_of_error (f := f) h
      exact ⟨hexchanges, hstate, hresult⟩
  | ok a =>
      obtain ⟨hresult, hstate, hexchanges⟩ := hold_bind_of_ok (f := f) h
      obtain ⟨hnil, hvalue⟩ := silent ((f a).hold_admits db (w.hold db s).state)
      have answers := (f a).hold_answers db (w.hold db s).state
      rw [hnil, Database.answers_nil] at answers
      rw [hnil, List.append_nil] at hexchanges
      exact ⟨hexchanges, hstate.trans answers, hresult.trans hvalue⟩

theorem admits_pure {a : α} {es : List Exchange} {r : Except MigrateError α} :
    (pure a : Work α).Admits es r ↔ es = [] ∧ r = .ok a := Iff.rfl

theorem admits_throw {e : MigrateError} {es : List Exchange}
    {r : Except MigrateError α} :
    (throw e : Work α).Admits es r ↔ es = [] ∧ r = .error e := Iff.rfl

theorem admits_mk_pure {x r : Except MigrateError α} {es : List Exchange} :
    Work.Admits (ExceptT.mk (pure x) : Work α) es r ↔ es = [] ∧ r = x := Iff.rfl

theorem admits_remark {n : Note} {es : List Exchange} {r : Except MigrateError Unit} :
    (remark n).Admits es r ↔ es = [] ∧ r = .ok () := Iff.rfl

theorem admits_orFail {d : Dialogue (Except DatabaseError α)}
    {failure : DatabaseError → MigrateError} {es : List Exchange}
    {r : Except MigrateError α} :
    (orFail d failure).Admits es r ↔
      ∃ x, d.Admits es x ∧ r = x.mapError failure := by
  constructor
  · intro h
    obtain ⟨es₁, x, es₂, rfl, h₁, h₂⟩ := Dialogue.admits_bind.1 h
    cases x with
    | ok a =>
        obtain ⟨rfl, rfl⟩ := h₂
        exact ⟨.ok a, by rwa [List.append_nil], rfl⟩
    | error e =>
        obtain ⟨rfl, rfl⟩ := h₂
        exact ⟨.error e, by rwa [List.append_nil], rfl⟩
  · rintro ⟨x, h, rfl⟩
    refine Dialogue.admits_bind.2 ⟨es, x, [], (List.append_nil es).symm, h, ?_⟩
    cases x <;> exact ⟨rfl, rfl⟩

/-- One piece of work after the other: a failure of the first is all there is. -/
theorem admits_bind {w : Work α} {f : α → Work β} {es : List Exchange}
    {r : Except MigrateError β} :
    (w >>= f).Admits es r ↔
      (∃ e, r = .error e ∧ w.Admits es (.error e)) ∨
      ∃ es₁ a es₂, es = es₁ ++ es₂ ∧ w.Admits es₁ (.ok a) ∧ (f a).Admits es₂ r := by
  constructor
  · intro h
    obtain ⟨es₁, x, es₂, rfl, h₁, h₂⟩ := Dialogue.admits_bind.1 h
    cases x with
    | ok a => exact .inr ⟨es₁, a, es₂, rfl, h₁, h₂⟩
    | error e =>
        obtain ⟨rfl, rfl⟩ := h₂
        exact .inl ⟨e, rfl, by rwa [List.append_nil]⟩
  · rintro (⟨e, rfl, h⟩ | ⟨es₁, a, es₂, rfl, h₁, h₂⟩)
    · exact Dialogue.admits_bind.2
        ⟨es, .error e, [], (List.append_nil es).symm, h, rfl, rfl⟩
    · exact Dialogue.admits_bind.2 ⟨es₁, .ok a, es₂, rfl, h₁, h₂⟩

/-- A call whose refusal is a failure, and what comes after it. -/
theorem admits_orFail_bind {d : Dialogue (Except DatabaseError α)}
    {failure : DatabaseError → MigrateError} {f : α → Work β} {es : List Exchange}
    {r : Except MigrateError β} :
    (orFail d failure >>= f).Admits es r ↔
      (∃ e, d.Admits es (.error e) ∧ r = .error (failure e)) ∨
      ∃ es₁ a es₂, es = es₁ ++ es₂ ∧ d.Admits es₁ (.ok a) ∧ (f a).Admits es₂ r := by
  rw [admits_bind]
  constructor
  · rintro (⟨e, rfl, hw⟩ | ⟨es₁, a, es₂, rfl, hw, hf⟩) <;>
      obtain ⟨x, hx, hr⟩ := admits_orFail.1 hw <;> cases x <;> cases hr
    · exact .inl ⟨_, hx, rfl⟩
    · exact .inr ⟨es₁, a, es₂, rfl, hx, hf⟩
  · rintro (⟨e, hx, rfl⟩ | ⟨es₁, a, es₂, rfl, hx, hf⟩)
    · exact .inl ⟨_, rfl, admits_orFail.2 ⟨_, hx, rfl⟩⟩
    · exact .inr ⟨es₁, a, es₂, rfl, admits_orFail.2 ⟨_, hx, rfl⟩, hf⟩

theorem admits_mk_pure_bind {x : Except MigrateError α} {f : α → Work β}
    {es : List Exchange} {r : Except MigrateError β} :
    Work.Admits ((ExceptT.mk (pure x) : Work α) >>= f) es r ↔
      (∃ e, x = .error e ∧ es = [] ∧ r = .error e) ∨
      ∃ a, x = .ok a ∧ (f a).Admits es r := by
  rw [admits_bind]
  constructor
  · rintro (⟨e, rfl, rfl, rfl⟩ | ⟨_, a, es₂, rfl, ⟨rfl, rfl⟩, hf⟩)
    · exact .inl ⟨e, rfl, rfl, rfl⟩
    · exact .inr ⟨a, rfl, hf⟩
  · rintro (⟨e, rfl, rfl, rfl⟩ | ⟨a, rfl, hf⟩)
    · exact .inl ⟨e, rfl, rfl, rfl⟩
    · exact .inr ⟨[], a, es, rfl, ⟨rfl, rfl⟩, hf⟩

theorem admits_remark_bind {n : Note} {f : Unit → Work β} {es : List Exchange}
    {r : Except MigrateError β} :
    (remark n >>= f).Admits es r ↔ (f ()).Admits es r := Iff.rfl

/-- Work whose result is only put into another form. -/
theorem admits_bind_pure {w : Work α} {g : α → β} {es : List Exchange}
    {r : Except MigrateError β} :
    (w >>= fun a => pure (g a)).Admits es r ↔ ∃ r', w.Admits es r' ∧ r = r'.map g := by
  rw [admits_bind]
  constructor
  · rintro (⟨e, rfl, hw⟩ | ⟨es₁, a, _, rfl, hw, rfl, rfl⟩)
    · exact ⟨_, hw, rfl⟩
    · exact ⟨.ok a, by rwa [List.append_nil], rfl⟩
  · rintro ⟨r', hw, rfl⟩
    cases r' with
    | ok a => exact .inr ⟨es, a, [], (List.append_nil es).symm, hw, rfl, rfl⟩
    | error e => exact .inl ⟨e, rfl, hw⟩

end Work

end SchemaLedger
