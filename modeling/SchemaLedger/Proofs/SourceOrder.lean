import Mathlib.Data.List.Nodup
import SchemaLedger.Source.Directory
import SchemaLedger.Source.Registry

/-!
# The order of names, and of what sources list

Texts are compared character by character, and what is meant is a comparison of bytes. The
two agree, because of how UTF-8 spells characters: of two characters the greater one has the
spelling that is greater at the first byte in which the spellings differ, and neither
spelling is a beginning of the other.

Both kinds of sources sort the names they have and have no name twice. So what they list is
strictly ascending in the order of bytes.
-/

namespace SchemaLedger

/-! ## Bytes of texts -/

namespace Text

/-- The bytes of a text. -/
def bytes (s : String) : List UInt8 := s.toByteArray.data.toList

theorem bytes_eq_flatMap (s : String) : bytes s = s.toList.flatMap String.utf8EncodeChar := by
  rw [bytes, ← String.utf8Encode_toList, List.utf8Encode, List.toList_data_toByteArray]

/-- Of two numbers the greater one has the greater digit where they first differ. The digits
are those that are spelled by four bytes. -/
theorem digits_lt {n m : Nat} (h : n < m) (hm : m < 0x110000) {p : Prop} :
    n / 262144 % 8 < m / 262144 % 8 ∨ n / 262144 % 8 = m / 262144 % 8 ∧
      (n / 4096 % 64 < m / 4096 % 64 ∨ n / 4096 % 64 = m / 4096 % 64 ∧
        (n / 64 % 64 < m / 64 % 64 ∨ n / 64 % 64 = m / 64 % 64 ∧
          (n % 64 < m % 64 ∨ n % 64 = m % 64 ∧ p))) := by
  rw [Nat.mod_eq_of_lt (show n / 262144 < 8 by omega),
    Nat.mod_eq_of_lt (show m / 262144 < 8 by omega)]
  omega

theorem ofNat_cons_lt_iff {a b : Nat} (ha : a < 256) (hb : b < 256) {xs ys : List UInt8} :
    UInt8.ofNat a :: xs < UInt8.ofNat b :: ys ↔ a < b ∨ a = b ∧ xs < ys := by
  rw [List.cons_lt_cons_iff, UInt8.lt_iff_toNat_lt, ← UInt8.toNat_inj, UInt8.toNat_ofNat',
    UInt8.toNat_ofNat', Nat.mod_eq_of_lt ha, Nat.mod_eq_of_lt hb]

/-- The spelling of a greater character is greater, whatever comes behind the two. -/
theorem utf8EncodeChar_append_lt {c d : Char} (h : c < d) (xs ys : List UInt8) :
    String.utf8EncodeChar c ++ xs < String.utf8EncodeChar d ++ ys := by
  have hlt : c.val.toNat < d.val.toNat := UInt32.lt_iff_toNat_lt.1 h
  have hd : d.val.toNat < 0x110000 := by
    rcases d.valid with hd | ⟨_, hd⟩
    · exact Nat.lt_trans hd (by decide)
    · exact hd
  simp only [String.utf8EncodeChar]
  generalize c.val.toNat = n at hlt ⊢
  generalize d.val.toNat = m at hlt hd ⊢
  -- One case for each pair of lengths. Where these differ, the first bytes do too.
  split_ifs <;> simp only [List.cons_append, List.nil_append] <;>
    simp (disch := omega) only [ofNat_cons_lt_iff, Nat.add_lt_add_iff_right,
      Nat.add_right_cancel_iff] <;>
    first
      | exact digits_lt hlt hd
      | omega

theorem flatMap_utf8EncodeChar_lt {xs ys : List Char} (h : xs < ys) :
    xs.flatMap String.utf8EncodeChar < ys.flatMap String.utf8EncodeChar := by
  induction h with
  | @nil d ys =>
      rw [List.flatMap_nil, List.flatMap_cons]
      cases hd : String.utf8EncodeChar d with
      | nil => exact absurd hd String.utf8EncodeChar_ne_nil
      | cons b bs => exact List.nil_lt_cons b _
  | rel hcd =>
      rw [List.flatMap_cons, List.flatMap_cons]
      exact utf8EncodeChar_append_lt hcd _ _
  | cons _ ih =>
      rw [List.flatMap_cons, List.flatMap_cons]
      exact List.append_left_lt ih

/-- The order of texts is the order of their bytes. -/
theorem lt_iff_bytes_lt {s t : String} : s < t ↔ bytes s < bytes t := by
  have forward {s t : String} (h : s < t) : bytes s < bytes t := by
    rw [bytes_eq_flatMap, bytes_eq_flatMap]
    exact flatMap_utf8EncodeChar_lt h
  refine ⟨forward, fun h => ?_⟩
  by_cases hst : s = t
  · rw [hst] at h
    exact absurd h (List.lt_irrefl _)
  · refine Decidable.byContradiction fun hlt => ?_
    have hts : t < s := String.not_le.1 fun hle =>
      hst (String.le_antisymm hle (String.not_lt.1 hlt))
    exact List.lt_asymm h (forward hts)

end Text

namespace Name

/-- The bytes of a name. -/
def bytes (name : Name) : List UInt8 := Text.bytes name.text

/-- Different names are strictly ascending once they are sorted. -/
theorem pairwise_sort {names : List Name} (distinct : names.Nodup) :
    (sort names).Pairwise (·.bytes < ·.bytes) := by
  have trans (a b c : Name) (hab : le a b = true) (hbc : le b c = true) : le a c = true :=
    decide_eq_true (String.le_trans (of_decide_eq_true hab) (of_decide_eq_true hbc))
  have total (a b : Name) : (le a b || le b a) = true := by
    rw [Bool.or_eq_true]
    exact (String.le_total a.text b.text).imp decide_eq_true decide_eq_true
  have hsorted : (sort names).Pairwise (le · ·) := List.pairwise_mergeSort trans total names
  have hdistinct : (sort names).Nodup := (List.mergeSort_perm names le).nodup_iff.2 distinct
  refine (hsorted.and hdistinct).imp fun {a b} ⟨hle, hne⟩ => Text.lt_iff_bytes_lt.1 ?_
  exact String.not_le.1 fun hge =>
    hne (eq_of_text (String.le_antisymm (of_decide_eq_true hle) hge))

end Name

/-! ## Sources -/

theorem Name.nodup_of_ascending {names : List Name}
    (ascending : names.Pairwise (·.bytes < ·.bytes)) : names.Nodup :=
  ascending.imp fun {a b} hlt hab => by
    rw [hab] at hlt
    exact List.lt_irrefl _ hlt

/-- What a source lists is strictly ascending in the order of bytes. -/
def Source.Ordered (source : Source) : Prop :=
  ∀ names, source.list = .ok names → names.Pairwise (·.bytes < ·.bytes)

theorem Source.Ordered.nodup {source : Source} {names : List Name} (h : source.Ordered)
    (listed : source.list = .ok names) : names.Nodup :=
  Name.nodup_of_ascending (h names listed)

/-- A name that is not among others is different from them. -/
theorem nodup_append_of_lookup {β : Type} {entries : List (Name × β)} {name : Name} {b : β}
    (distinct : (entries.map (·.1)).Nodup) (fresh : entries.lookup name = none) :
    ((entries ++ [(name, b)]).map (·.1)).Nodup := by
  rw [List.map_append, List.map_singleton, List.nodup_append]
  refine ⟨distinct, List.nodup_singleton name, fun a ha c hc => ?_⟩
  obtain ⟨entry, hentry, rfl⟩ := List.mem_map.1 ha
  obtain rfl := List.mem_singleton.1 hc
  rintro rfl
  simpa using List.lookup_eq_none_iff.1 fresh entry hentry

namespace Registry

/-- A registry comes about by registering definitions, one after the other. -/
inductive Registered : Registry → Prop
  | empty : Registered {}
  | register {r r' : Registry} {name : Name} {definition : Definition} (before : Registered r)
    (added : r.register name definition = .ok r') : Registered r'

theorem Registered.distinct {r : Registry} (h : Registered r) : (r.entries.map (·.1)).Nodup := by
  induction h with
  | empty => exact .nil
  | @register r r' name definition before added ih =>
      unfold Registry.register at added
      split at added
      · cases added
      · next hfresh =>
          cases added
          rw [Option.not_isSome_iff_eq_none, Registry.find?] at hfresh
          exact nodup_append_of_lookup ih hfresh

theorem ordered {r : Registry} (h : Registered r) : r.source.Ordered := by
  intro names listed
  cases listed
  exact Name.pairwise_sort h.distinct

end Registry

namespace MigrationDirectory

theorem scanFrom_distinct {dir : Path} {found found' : List (Name × Path)}
    {entries : List DirectoryEntry} (distinct : (found.map (·.1)).Nodup)
    (h : scanFrom dir found entries = .ok found') : (found'.map (·.1)).Nodup := by
  induction entries generalizing found with
  | nil =>
      cases h
      exact distinct
  | cons e rest ih =>
      unfold scanFrom at h
      split at h
      · exact ih distinct h
      · next file name _ =>
          simp only [] at h
          split at h
          · cases h
          · next hfresh => exact ih (nodup_append_of_lookup distinct hfresh) h

theorem ordered (files : FileTree) (dir : Path) : (source files dir).Ordered := by
  intro listing listed
  have hfound : ∃ found, find files dir = .ok found ∧ listing = Name.sort (found.map (·.1)) := by
    cases h : find files dir with
    | error e => simp [source, names, h, Except.map] at listed
    | ok found => exact ⟨found, rfl, by simpa [source, names, h, Except.map] using listed.symm⟩
  obtain ⟨found, hfind, rfl⟩ := hfound
  refine Name.pairwise_sort ?_
  unfold find at hfind
  cases hentries : entries files dir with
  | error e => rw [hentries] at hfind; cases hfind
  | ok es =>
      rw [hentries] at hfind
      refine scanFrom_distinct ?_ hfind
      exact List.nodup_nil

end MigrationDirectory

/-- The sources there are: registries and directories. -/
inductive Source.Provided : Source → Prop
  | registry {r : Registry} (registered : r.Registered) : Provided r.source
  | directory (files : FileTree) (dir : Path) : Provided (MigrationDirectory.source files dir)

/-- Whatever source it is, it lists different names in ascending order. -/
theorem Source.Provided.ordered {source : Source} (h : source.Provided) : source.Ordered := by
  cases h with
  | registry registered => exact Registry.ordered registered
  | directory files dir => exact MigrationDirectory.ordered files dir

end SchemaLedger
