import SchemaLedger.Proofs.Decoding
import SchemaLedger.Yaml.Decode.Open

/-!
# What stands at a place of a document is read

The parts of a document are found by keys and numbers. If such a part is there, a reader that
succeeds has read it: a record has read each of its entries and takes no key twice, so what the
entry of a key sets is kept; a sequence has read each of its items; and a part that may be left
out has been read unless it is.
-/

namespace SchemaLedger.Yaml

namespace Node

/-- What stands behind a key. -/
def field? (doc : Document) (key : String) (n : Node) : Option Node :=
  ((n.entries doc).find? fun e => e.1.text? doc = some key).map (·.2)

/-- The items that a node has. -/
def items (doc : Document) (n : Node) : List Node :=
  match n.resolved? doc with
  | some (.sequence _ _ items) => items
  | _ => []

/-- The text of a plain scalar without a tag. -/
def plainText? (doc : Document) (n : Node) : Option String :=
  match n.resolved? doc with
  | some (.scalar _ ⟨.plain, none, text⟩) => some text
  | _ => none

variable {doc : Document} {n v : Node}

theorem exists_entry_of_field? {key : String} (h : n.field? doc key = some v) :
    ∃ e ∈ n.entries doc, e.1.text? doc = some key ∧ e.2 = v := by
  obtain ⟨e, he, hv⟩ := Option.map_eq_some_iff.1 h
  have hkey := List.find?_some he
  exact ⟨e, List.mem_of_find?_eq_some he, of_decide_eq_true hkey, hv⟩

/-- A node with a key is a mapping, or an alias of one. -/
theorem resolved?_of_field? {key : String} (h : n.field? doc key = some v) :
    ∃ a tag entries, n.resolved? doc = some (.mapping a tag entries) ∧
      (Node.mapping a tag entries).field? doc key = some v := by
  obtain ⟨e, he, _⟩ := exists_entry_of_field? h
  unfold field? at h
  unfold entries at he h
  split at he
  · next a tag entries htarget =>
      rw [htarget] at h
      exact ⟨a, tag, entries, htarget, h⟩
  · cases he

theorem resolved?_of_plainText? {text : String} (h : n.plainText? doc = some text) :
    ∃ a, n.resolved? doc = some (.scalar a ⟨.plain, none, text⟩) := by
  unfold plainText? at h
  split at h
  · next a text' htarget =>
      cases h
      exact ⟨a, htarget⟩
  · cases h

end Node

namespace Decode

variable {α σ : Type} {doc : Document} {n : Node}

/-- What one of the entries establishes, whatever was read before it, and the others keep is
true at the end. -/
theorem ensures_entriesFrom_of_mem {key : Spot → Node → Decode String}
    {add : σ → String → Spot → Node → Decode σ} {spot : Spot} {entries : List (Node × Node)}
    {R : Node → String → Prop} {P : σ → Prop} {e : Node × Node} (he : e ∈ entries)
    (hkey : ∀ n, Ensures doc (key spot n) (R n))
    (hadd : ∀ name, R e.1 name → ∀ acc spot, Ensures doc (add acc name spot e.2) P)
    (hkeep : ∀ e ∈ entries, ∀ name, R e.1 name → ∀ acc spot, P acc →
      Ensures doc (add acc name spot e.2) P) (acc : σ) :
    Ensures doc (entriesFrom key add spot acc entries) P := by
  induction entries generalizing acc with
  | nil => cases he
  | cons e' rest ih =>
      have hrest := fun e he => hkeep e (List.mem_cons_of_mem e' he)
      rcases List.mem_cons.1 he with rfl | he
      · refine ensures_bind (hkey e.1) fun name hname => ?_
        refine ensures_bind (hadd name hname acc _) fun acc' hacc' => ?_
        exact ensures_entriesFrom hkey hrest hacc'
      · refine ensures_bind (ensures_true _) fun name _ => ?_
        exact ensures_bind (ensures_true _) fun acc' _ => ih he hrest acc'

/-- The field of a key that is there is read, and no other one touches what it sets. -/
theorem ensures_record_of_field? {expected : String} {known : List String}
    {field : σ → String → Spot → Node → Decode σ} {start : σ} {finish : σ → Decode α}
    {P : σ → Prop} {Q : α → Prop} {name : String} {v : Node} (hv : n.field? doc name = some v)
    (hread : ∀ acc spot, Ensures doc (field acc name spot v) P)
    (hkeep : ∀ other ∈ known, other ≠ name → ∀ acc spot m, P acc →
      Ensures doc (field acc other spot m) P)
    (hfinish : ∀ acc, P acc → Ensures doc (finish acc) Q) (spot : Spot) :
    Ensures doc (record expected known field start finish spot n) Q := by
  obtain ⟨e, he, hname, rfl⟩ := Node.exists_entry_of_field? hv
  refine ensures_located (ensures_bind (ensures_follow n) fun target htarget => ?_) _
  unfold Node.entries at he
  rw [htarget] at he
  cases target with
  | mapping a tag entries =>
      refine ensures_bind (ensures_true _) fun inner _ => ?_
      refine ensures_bind (P := fun acc => P acc.1 ∧ name ∈ acc.2) ?_
        fun acc hacc => hfinish acc.1 hacc.1
      refine ensures_entriesFrom_of_mem
        (R := fun n name => n.text? doc = some name ∧ name ∈ known) he ?_ ?_ ?_ _
      · intro m
        refine ensures_bind (ensures_textAs _ _ m) fun name hname => ?_
        by_cases hknown : name ∈ known
        · rw [if_pos hknown]
          exact ensures_pure ⟨hname, hknown⟩
        · rw [if_neg hknown]
          exact ensures_fail
      · intro name' hname' acc spot
        cases Option.some.inj (hname.symm.trans hname'.1)
        refine ensures_ite ensures_fail (ensures_bind (hread acc.1 spot) fun acc' hacc' => ?_)
        exact ensures_pure ⟨hacc', List.mem_cons_self⟩
      · intro e' _ other hknown acc spot hacc
        by_cases hother : other ∈ acc.2
        · rw [if_pos hother]
          exact ensures_fail
        · rw [if_neg hother]
          have hne : other ≠ name := fun heq => hother (heq ▸ hacc.2)
          refine ensures_bind (hkeep other hknown.2 hne acc.1 spot e'.2 hacc.1) fun acc' hacc' => ?_
          exact ensures_pure ⟨hacc', List.mem_cons_of_mem other hacc.2⟩
  | _ => cases he

theorem ensures_itemsFrom_of_getElem? {d : Spot → Node → Decode α} {spot : Spot}
    {items : List Node} {i : Nat} {m : Node} {Q : α → Prop} (hm : items[i]? = some m)
    (hd : ∀ spot, Ensures doc (d spot m) Q) (first : Nat) :
    Ensures doc (itemsFrom d spot first items) fun as => ∃ a, as[i]? = some a ∧ Q a := by
  induction items generalizing i first with
  | nil => cases hm
  | cons m' rest ih =>
      cases i with
      | zero =>
          cases hm
          refine ensures_bind (hd _) fun a ha => ensures_bind (ensures_true _) fun as _ => ?_
          exact ensures_pure ⟨a, rfl, ha⟩
      | succ i =>
          refine ensures_bind (ensures_true _) fun a' _ => ?_
          exact ensures_bind (ih hm (first + 1)) fun as has => ensures_pure has

/-- An item that is there is read. -/
theorem ensures_sequence_of_getElem? {d : Spot → Node → Decode α} {i : Nat} {m : Node}
    {Q : α → Prop} (hm : (n.items doc)[i]? = some m) (hd : ∀ spot, Ensures doc (d spot m) Q)
    (spot : Spot) :
    Ensures doc (sequence d spot n) fun as => ∃ a, as[i]? = some a ∧ Q a := by
  refine ensures_located (ensures_bind (ensures_follow n) fun target htarget => ?_) _
  unfold Node.items at hm
  rw [htarget] at hm
  cases target with
  | sequence a tag items =>
      exact ensures_bind (ensures_true _) fun inner _ => ensures_itemsFrom_of_getElem? hm hd 0
  | _ => cases hm

/-- A part that is not left out is read. -/
theorem ensures_optional {d : Spot → Node → Decode α} {target : Node} {Q : α → Prop}
    (htarget : n.resolved? doc = some target)
    (there : ∀ a s, target = .scalar a s → Ensures doc (isLeftOut s) (· = false))
    (hd : ∀ spot, Ensures doc (d spot target) Q) (spot : Spot) :
    Ensures doc (optional d spot n) fun r => ∃ a, r = some a ∧ Q a := by
  have hread : Ensures doc (some <$> d spot target) fun r => ∃ a, r = some a ∧ Q a :=
    ensures_bind (hd spot) fun a ha => ensures_pure ⟨a, rfl, ha⟩
  refine ensures_bind (ensures_follow n) fun target' htarget' => ?_
  cases Option.some.inj (htarget.symm.trans htarget')
  cases target with
  | scalar a s =>
      refine ensures_bind (there a s rfl) fun left hleft => ?_
      cases hleft
      exact hread
  | _ => exact hread

theorem ensures_optional_of_field? {d : Spot → Node → Decode α} {key : String} {v : Node}
    {Q : α → Prop} (hv : n.field? doc key = some v)
    (hd : ∀ n, n.field? doc key = some v → ∀ spot, Ensures doc (d spot n) Q) (spot : Spot) :
    Ensures doc (optional d spot n) fun r => ∃ a, r = some a ∧ Q a := by
  obtain ⟨a, tag, entries, htarget, hfield⟩ := Node.resolved?_of_field? hv
  exact ensures_optional htarget nofun (hd _ hfield) spot

/-- A scalar is read as the value that it stands for, if that has at most 64 bits. -/
theorem ensures_data_of_scalar {a : Option Nat} {s : Scalar}
    (h : n.resolved? doc = some (.scalar a s)) (spot : Spot) :
    Ensures doc (data spot n) fun r =>
      ∃ v, s.value = .ok v ∧ r = .value v ∧ ∀ k, v ≠ .wide k := by
  have hscalar : Ensures doc (scalarData s) fun r =>
      ∃ v, s.value = .ok v ∧ r = .value v ∧ ∀ k, v ≠ .wide k := by
    unfold scalarData
    cases hvalue : s.value with
    | error demanded => exact ensures_fail
    | ok v =>
        cases v with
        | wide k => exact ensures_fail
        | _ => exact ensures_pure ⟨_, rfl, rfl, nofun⟩
  have hfollowed : Ensures doc (follow n) fun target => target = .scalar a s := by
    intro k target k' hk
    exact Option.some.inj ((ensures_follow n k target k' hk).symm.trans h)
  unfold data
  cases spot.depth with
  | zero =>
      refine ensures_located (ensures_bind hfollowed ?_) _
      rintro _ rfl
      exact ensures_bind (ensures_true _) fun _ _ => hscalar
  | succ depth =>
      refine ensures_located (ensures_bind hfollowed ?_) _
      rintro _ rfl
      exact ensures_bind (ensures_true _) fun _ _ => hscalar

end Decode

end SchemaLedger.Yaml
