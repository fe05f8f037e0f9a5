import Mathlib.Data.List.Forall2
import SchemaLedger.Project.Scaffold
import SchemaLedger.Proofs.SourceOrder
import SchemaLedger.Proofs.WrittenMoment

/-!
# The order of stamps

Of two numbers with the same number of digits the smaller one has the smaller text. A stamp is
a row of such numbers, from the year down to the second, so stamps are ordered as their moments
are, and whatever stands behind them makes no difference. Where it does make one is for moments
of one second, for they have the same stamp.

A year has four digits up to the year 9999; later ones have more, and a sign.
-/

namespace SchemaLedger

/-! ## Numbers of a fixed width -/

namespace Text

theorem Numeral.of_cons {width n : Nat} {c : Char} {s : List Char}
    (h : Numeral (width + 1) n (c :: s)) :
    ∃ k, Numeral width k s ∧ n = 10 ^ width * (c.toNat - 48) + k := by
  obtain ⟨length, digits, value⟩ := h
  have hlength : s.length = width := Nat.succ.inj length
  refine ⟨Nat.ofDigitChars 10 s 0, ⟨hlength, fun d hd => digits d (List.mem_cons_of_mem c hd),
    rfl⟩, ?_⟩
  rw [← value, Nat.ofDigitChars_cons, Nat.ofDigitChars_eq_ofDigitChars_zero, hlength, Nat.mul_zero,
    Nat.zero_add]
  rfl

theorem Numeral.lt_pow {width n : Nat} {s : List Char} (h : Numeral width n s) :
    n < 10 ^ width := by
  induction width generalizing n s with
  | zero =>
      obtain ⟨length, -, rfl⟩ := h
      rw [List.length_eq_zero_iff.1 length]
      decide
  | succ width ih =>
      obtain ⟨c, s, rfl, hc⟩ := h.exists_cons
      obtain ⟨k, hk, rfl⟩ := h.of_cons
      have hdigit : c.toNat ≤ 57 := (Char.isDigit_iff_toNat.1 hc).2
      have hle : 10 ^ width * (c.toNat - 48) ≤ 10 ^ width * 9 := Nat.mul_le_mul_left _ (by omega)
      have := ih hk
      rw [Nat.pow_succ]
      omega

/-- The digits of the smaller number come first, whatever is behind the two. -/
theorem Numeral.append_lt {width n k : Nat} {s t : List Char} (hs : Numeral width n s)
    (ht : Numeral width k t) (h : n < k) (xs ys : List Char) : s ++ xs < t ++ ys := by
  induction width generalizing n k s t with
  | zero =>
      have := ht.lt_pow
      omega
  | succ width ih =>
      obtain ⟨c, s, rfl, hc⟩ := hs.exists_cons
      obtain ⟨d, t, rfl, hd⟩ := ht.exists_cons
      obtain ⟨n, hn, rfl⟩ := hs.of_cons
      obtain ⟨k, hk, rfl⟩ := ht.of_cons
      have hc : 48 ≤ c.toNat := (Char.isDigit_iff_toNat.1 hc).1
      have hd : 48 ≤ d.toNat := (Char.isDigit_iff_toNat.1 hd).1
      rw [List.cons_append, List.cons_append, List.cons_lt_cons_iff]
      rcases Nat.lt_trichotomy c.toNat d.toNat with hlt | heq | hgt
      · exact .inl hlt
      · rw [heq] at h
        exact .inr ⟨Char.toNat_inj.1 heq, ih hn hk (by omega)⟩
      · -- the greater first digit counts more than all that can be behind the other
        have hle : 10 ^ width * (d.toNat - 48 + 1) ≤ 10 ^ width * (c.toNat - 48) :=
          Nat.mul_le_mul_left _ (by omega)
        have := hk.lt_pow
        rw [Nat.mul_succ] at hle
        omega

/-- Numbers in digits, each of them with its width. -/
def digitsOf (parts : List (Nat × Nat)) : List Char :=
  parts.flatMap fun part => (zeroPadded part.1 part.2).toList

/-- Two parts have the same width, and there is room for both. -/
def Alike (p q : Nat × Nat) : Prop :=
  p.1 = q.1 ∧ 0 < p.1 ∧ p.2 < 10 ^ p.1 ∧ q.2 < 10 ^ p.1

theorem digitsOf_append_lt {ps qs : List (Nat × Nat)} (alike : List.Forall₂ Alike ps qs)
    (h : (ps.map fun p => (p.2 : Int)) < qs.map fun q => (q.2 : Int)) (xs ys : List Char) :
    digitsOf ps ++ xs < digitsOf qs ++ ys := by
  induction alike with
  | nil => exact absurd h (List.lt_irrefl _)
  | @cons p q ps qs hpq _ ih =>
      obtain ⟨pw, p⟩ := p
      obtain ⟨qw, q⟩ := q
      obtain ⟨rfl, positive, hp, hq⟩ := hpq
      rw [List.map_cons, List.map_cons, List.cons_lt_cons_iff] at h
      rw [digitsOf, digitsOf, List.flatMap_cons, List.flatMap_cons, List.append_assoc,
        List.append_assoc]
      rcases h with hlt | ⟨heq, hrest⟩
      · exact (numeral_zeroPadded positive hp).append_lt (numeral_zeroPadded positive hq)
          (Int.ofNat_lt.1 hlt) _ _
      · obtain rfl := Int.ofNat_inj.1 heq
        exact List.append_left_lt (ih hrest)

theorem append_lt_append_left_iff (s : List Char) {xs ys : List Char} :
    s ++ xs < s ++ ys ↔ xs < ys := by
  induction s with
  | nil => rfl
  | cons c s ih => simp [ih]

end Text

/-! ## Moments -/

namespace Moment

/-- The date and the time of day, from the year down to the second. -/
def clock (m : Moment) : List Int := [m.year, m.month, m.day, m.hour, m.minute, m.second]

/-- The calendar and the clock have the moment, and its year has four digits. -/
structure Ordinary (m : Moment) : Prop extends Possible m where
  fromYear : 0 ≤ m.year
  toYear : m.year ≤ 9999

instance (m : Moment) : Decidable m.Ordinary :=
  decidable_of_iff (m.Possible ∧ 0 ≤ m.year ∧ m.year ≤ 9999)
    ⟨fun ⟨possible, fromYear, toYear⟩ => ⟨possible, fromYear, toYear⟩,
      fun ⟨possible, fromYear, toYear⟩ => ⟨possible, fromYear, toYear⟩⟩

/-- The parts of a stamp. -/
def stampParts (m : Moment) : List (Nat × Nat) :=
  [(4, m.year.toNat), (2, m.month), (2, m.day), (2, m.hour), (2, m.minute), (2, m.second)]

variable {a b : Moment}

theorem toList_stamp (h : a.Ordinary) : a.stamp.toList = Text.digitsOf a.stampParts := by
  have hyear : yearText a.year = Text.zeroPadded 4 a.year.toNat := by
    rw [yearText, if_pos (by simp [h.fromYear, h.toYear])]
  simp [stamp, hyear, Text.digitsOf, stampParts]

theorem clock_eq (h : a.Ordinary) : a.clock = a.stampParts.map fun part => (part.2 : Int) := by
  simp only [clock, stampParts, List.map_cons, List.map_nil, Int.toNat_of_nonneg h.fromYear]

theorem stampParts_alike (ha : a.Ordinary) (hb : b.Ordinary) :
    List.Forall₂ Text.Alike a.stampParts b.stampParts := by
  have narrow {m : Moment} (h : m.Ordinary) : m.year.toNat < 10 ^ 4 ∧ m.month < 10 ^ 2 ∧
      m.day < 10 ^ 2 ∧ m.hour < 10 ^ 2 ∧ m.minute < 10 ^ 2 ∧ m.second < 10 ^ 2 := by
    obtain ⟨-, -, -, hmonth, -, hday⟩ := isDate_iff.1 h.date
    have := daysIn_le m.year m.month
    have := h.toYear
    have := h.hour
    have := h.minute
    have := h.second
    omega
  have := narrow ha
  have := narrow hb
  simp only [stampParts, List.forall₂_cons, List.forall₂_nil_left_iff, Text.Alike, true_and,
    and_true]
  omega

/-- The stamp of the earlier moment is smaller, whatever is behind the two. -/
theorem stamp_append_lt (ha : a.Ordinary) (hb : b.Ordinary) (h : a.clock < b.clock)
    (xs ys : List Char) : a.stamp.toList ++ xs < b.stamp.toList ++ ys := by
  rw [toList_stamp ha, toList_stamp hb]
  rw [clock_eq ha, clock_eq hb] at h
  exact Text.digitsOf_append_lt (stampParts_alike ha hb) h xs ys

/-- Moments of one second have the same stamp. -/
theorem stamp_eq_of_clock_eq (h : a.clock = b.clock) : a.stamp = b.stamp := by
  simp only [clock, List.cons.injEq, Int.ofNat_inj, and_true] at h
  obtain ⟨hyear, hmonth, hday, hhour, hminute, hsecond⟩ := h
  rw [stamp, stamp, hyear, hmonth, hday, hhour, hminute, hsecond]

end Moment

/-! ## Identifiers -/

namespace Scaffold

variable {a b : Moment}

theorem bytes_identifier_lt (ha : a.Ordinary) (hb : b.Ordinary) (h : a.clock < b.clock)
    (m n : String) : Text.bytes (identifier a m) < Text.bytes (identifier b n) := by
  refine Text.lt_iff_bytes_lt.1 ?_
  rw [String.lt_iff, identifier, identifier]
  simp only [String.toList_append, List.append_assoc]
  exact Moment.stamp_append_lt ha hb h _ _

theorem bytes_identifier_lt_iff (h : a.clock = b.clock) (m n : String) :
    Text.bytes (identifier a m) < Text.bytes (identifier b n) ↔ Text.bytes m < Text.bytes n := by
  rw [← Text.lt_iff_bytes_lt, ← Text.lt_iff_bytes_lt, String.lt_iff,
    String.lt_iff, identifier, identifier, Moment.stamp_eq_of_clock_eq h]
  simp only [String.toList_append, Text.append_lt_append_left_iff]

end Scaffold

end SchemaLedger
