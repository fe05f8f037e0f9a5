import SchemaLedger.Yaml.Decode.Basic

/-!
# What readers of documents ensure

A reader may fail for many reasons, and what it reads is the matter only where it succeeds.
`Ensures` says that all it can read of a document has a property, and passes through the
parts that readers are made of. A record is read entry by entry, so an invariant of what has
been read so far is enough; each entry is known by the text of its key, which an alias may
stand for.
-/

namespace SchemaLedger

/-- Faults need not be compared to see what is read where there is none. -/
theorem eq_ok_of_toOption {ε α : Type} {r : Except ε α} {a : α} (h : r.toOption = some a) :
    r = .ok a := by
  cases r with
  | error e => cases h
  | ok b => exact congrArg Except.ok (Option.some.inj h)

namespace Yaml

namespace Node

/-- What stands in the place of a node: an alias is resolved once. -/
def resolved? (doc : Document) : Node → Option Node
  | .alias anchor => doc.target? anchor
  | n => some n

/-- The text that a node is. -/
def text? (doc : Document) (n : Node) : Option String :=
  match n.resolved? doc with
  | some (.scalar _ s) => some s.text
  | _ => none

/-- The entries that a node has. -/
def entries (doc : Document) (n : Node) : List (Node × Node) :=
  match n.resolved? doc with
  | some (.mapping _ _ entries) => entries
  | _ => []

/-- The node has an entry of this key. -/
def HasKey (doc : Document) (n : Node) (key : String) : Prop :=
  ∃ e ∈ n.entries doc, e.1.text? doc = some key

end Node

namespace Decode

variable {α β σ : Type} {doc : Document}

/-- Whatever the reader reads in a document has `Q`. -/
def Ensures (doc : Document) (d : Decode α) (Q : α → Prop) : Prop :=
  ∀ k a k', d doc k = .ok (a, k') → Q a

theorem ensures_pure {a : α} {Q : α → Prop} (h : Q a) : Ensures doc (pure a) Q := by
  rintro k b k' ⟨⟩
  exact h

theorem ensures_throw {e : Error} {Q : α → Prop} : Ensures doc (throw e) Q := by
  rintro k a k' ⟨⟩

theorem ensures_fail {cause : Cause} {Q : α → Prop} : Ensures doc (fail cause) Q :=
  ensures_throw

theorem ensures_ite {p : Prop} [Decidable p] {d d' : Decode α} {Q : α → Prop}
    (h : Ensures doc d Q) (h' : Ensures doc d' Q) : Ensures doc (if p then d else d') Q := by
  split
  · exact h
  · exact h'

theorem ensures_true (d : Decode α) : Ensures doc d fun _ => True :=
  fun _ _ _ _ => trivial

theorem ensures_bind {d : Decode α} {f : α → Decode β} {P : α → Prop} {Q : β → Prop}
    (hd : Ensures doc d P) (hf : ∀ a, P a → Ensures doc (f a) Q) : Ensures doc (d >>= f) Q := by
  intro k b k' h
  have heq : (d >>= f) doc k = (d doc k).bind fun r => f r.1 doc r.2 := rfl
  rw [heq] at h
  cases hk : d doc k with
  | error e => rw [hk] at h; cases h
  | ok r =>
      rw [hk] at h
      exact hf r.1 (hd k r.1 r.2 hk) r.2 b k' h

theorem ensures_located {d : Decode α} {Q : α → Prop} (h : Ensures doc d Q) (place : Place) :
    Ensures doc (located place d) Q := by
  intro k a k' hk
  unfold located at hk
  cases hd : d doc k with
  | error e => rw [hd] at hk; cases hk
  | ok r =>
      rw [hd] at hk
      cases hk
      exact h k a k' hd

theorem ensures_breakOff {Q : α → Prop} : Ensures doc breakOff Q := by
  rintro k a k' ⟨⟩

theorem ensures_wrongType {n : Node} {expected : String} {Q : α → Prop} :
    Ensures doc (wrongType n expected) Q := by
  unfold wrongType
  split
  · split
    · exact ensures_fail
    · exact ensures_fail
  · exact ensures_fail
  · exact ensures_fail
  · exact ensures_breakOff
  · exact ensures_breakOff

theorem ensures_read : Ensures doc (read : Decode Document) (· = doc) := by
  rintro k a k' ⟨⟩
  rfl

theorem ensures_follow (n : Node) :
    Ensures doc (follow n) fun target => n.resolved? doc = some target := by
  cases n with
  | «alias» anchor =>
      refine ensures_bind ensures_read fun d hd => ?_
      subst hd
      refine ensures_bind (ensures_true get) fun _ _ => ensures_bind (ensures_true _) fun _ _ => ?_
      refine ensures_ite (ensures_bind (P := fun _ => False) ensures_throw fun _ h => h.elim) ?_
      cases htarget : d.target? anchor with
      | none => exact ensures_breakOff
      | some target => exact ensures_pure htarget
  | broken => exact ensures_breakOff
  | _ => exact ensures_pure rfl

theorem ensures_textAs (expected : String) (spot : Spot) (n : Node) :
    Ensures doc (textAs expected spot n) fun s => n.text? doc = some s := by
  refine ensures_located (ensures_bind (ensures_follow n) fun target htarget => ?_) _
  unfold Node.text?
  rw [htarget]
  split
  · exact ensures_pure rfl
  · exact ensures_wrongType

theorem ensures_entriesFrom {key : Spot → Node → Decode String}
    {add : σ → String → Spot → Node → Decode σ} {spot : Spot} {entries : List (Node × Node)}
    {R : Node → String → Prop} {P : σ → Prop}
    (hkey : ∀ n, Ensures doc (key spot n) (R n))
    (hadd : ∀ e ∈ entries, ∀ name, R e.1 name → ∀ acc spot, P acc →
      Ensures doc (add acc name spot e.2) P) {acc : σ} (hacc : P acc) :
    Ensures doc (entriesFrom key add spot acc entries) P := by
  induction entries generalizing acc with
  | nil => exact ensures_pure hacc
  | cons e rest ih =>
      refine ensures_bind (hkey e.1) fun name hname => ?_
      refine ensures_bind (hadd e List.mem_cons_self name hname acc _ hacc) fun acc' hacc' => ?_
      exact ih (fun e' he' => hadd e' (List.mem_cons_of_mem e he')) hacc'

/-- What is true at the start, and is kept by each entry, is true at the end. -/
theorem ensures_mapping {expected : String} {key : Spot → Node → Decode String}
    {add : σ → String → Spot → Node → Decode σ} {start : σ} {finish : σ → Decode α}
    {R : Node → String → Prop} {P : σ → Prop} {Q : α → Prop} {n : Node} (hstart : P start)
    (hkey : ∀ spot n, Ensures doc (key spot n) (R n))
    (hadd : ∀ e ∈ n.entries doc, ∀ name, R e.1 name → ∀ acc spot, P acc →
      Ensures doc (add acc name spot e.2) P)
    (hfinish : ∀ acc, P acc → Ensures doc (finish acc) Q) (spot : Spot) :
    Ensures doc (mapping expected key add start finish spot n) Q := by
  refine ensures_located (ensures_bind (ensures_follow n) fun target htarget => ?_) _
  unfold Node.entries at hadd
  rw [htarget] at hadd
  cases target with
  | mapping a t entries =>
      refine ensures_bind (ensures_true _) fun inner _ => ?_
      exact ensures_bind (ensures_entriesFrom (hkey inner) hadd hstart) hfinish
  | scalar a s => exact ensures_ite (hfinish _ hstart) ensures_wrongType
  | _ => exact ensures_wrongType

/-- What is true of the fields at the start, and is kept by each entry, is true at the end. -/
theorem ensures_record {expected : String} {known : List String}
    {field : σ → String → Spot → Node → Decode σ} {start : σ} {finish : σ → Decode α}
    {P : σ → Prop} {Q : α → Prop} {n : Node} (hstart : P start)
    (hfield : ∀ e ∈ n.entries doc, ∀ name, e.1.text? doc = some name → ∀ acc spot, P acc →
      Ensures doc (field acc name spot e.2) P)
    (hfinish : ∀ acc, P acc → Ensures doc (finish acc) Q) (spot : Spot) :
    Ensures doc (record expected known field start finish spot n) Q := by
  refine ensures_mapping (R := fun n name => n.text? doc = some name) (P := fun acc => P acc.1)
    hstart (fun spot m => ?_) (fun e he name hname acc spot hacc => ?_)
    (fun acc => hfinish acc.1) spot
  · refine ensures_bind (ensures_textAs _ _ m) fun name hname => ?_
    exact ensures_ite (ensures_pure hname) ensures_fail
  · refine ensures_ite ensures_fail ?_
    refine ensures_bind (hfield e he name hname acc.1 spot hacc) fun acc' hacc' => ?_
    exact ensures_pure hacc'

theorem of_run {d : Spot → Node → Decode α} {Q : α → Prop} {a : α}
    (h : ∀ spot, Ensures doc (d spot doc.root) Q) (hrun : run d doc = .ok a) : Q a := by
  unfold run at hrun
  split at hrun
  · next hread =>
      split at hrun
      · cases hrun
      · cases hrun
        exact h _ _ _ _ hread
  · cases hrun

end Decode

end Yaml

end SchemaLedger
