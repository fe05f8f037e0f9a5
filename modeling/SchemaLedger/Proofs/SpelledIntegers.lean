import Mathlib.Data.List.TakeWhile
import SchemaLedger.Proofs.Decimal
import SchemaLedger.Yaml.Scalar

/-!
# The value of a spelled integer

A scalar without quotes stands for the first kind of value that its text can be read as. A text
that spells an integer, with a minus sign or without one, ends in a digit, and none of the words
for an absent value, for truth or for the special numbers does. It has no zero in front either,
which would make it a text.

So only the size of the integer counts. It is an integer of 64 bits if it is one with or without
a sign, and else one of 128 bits; beyond that it is the nearest double, or the text itself if the
nearest one is not finite, `Yaml.Scalar.plainValue_toString` and `Yaml.Scalar.plainValue_minus`.
-/

namespace SchemaLedger

/-! ## Digits -/

namespace Text

/-- The text spells an integer: a minus sign or none, then digits without a zero in front. -/
def Spells (text : String) (n : Int) : Prop :=
  ∃ d : Nat, (text = toString d ∧ n = d) ∨ (text = "-" ++ toString d ∧ n = -d)

/-- The text ends in a digit. -/
def EndsInDigit (s : String) : Prop := s.toList.getLast?.any Char.isDigit = true

instance (s : String) : Decidable (EndsInDigit s) :=
  inferInstanceAs (Decidable (s.toList.getLast?.any Char.isDigit = true))

theorem EndsInDigit.ne {s t : String} (h : EndsInDigit s) (ht : ¬ EndsInDigit t) : s ≠ t :=
  fun heq => ht (heq ▸ h)

theorem EndsInDigit.forall_ne {s : String} (h : EndsInDigit s) (words : List String)
    (hwords : ∀ t ∈ words, ¬ EndsInDigit t) : ∀ t ∈ words, s ≠ t :=
  fun t ht => h.ne (hwords t ht)

theorem endsInDigit_toString (d : Nat) (sign : String) : EndsInDigit (sign ++ toString d) := by
  have hne := Nat.toDigits_ne_nil (b := 10) (n := d)
  unfold EndsInDigit
  rw [String.toList_append, toList_toString_nat, List.getLast?_append,
    List.getLast?_eq_some_getLast hne]
  exact Nat.isDigit_of_mem_toDigits (by decide) (by decide) (List.getLast_mem hne)

theorem Spells.endsInDigit {text : String} {n : Int} (h : Spells text n) : EndsInDigit text := by
  obtain ⟨d, ⟨rfl, _⟩ | ⟨rfl, _⟩⟩ := h
  · have hends := endsInDigit_toString d ""
    rwa [String.empty_append] at hends
  · exact endsInDigit_toString d "-"

theorem toList_minus_toString (d : Nat) :
    ("-" ++ toString d).toList = '-' :: Nat.toDigits 10 d := by
  rw [String.toList_append, toList_toString_nat]
  rfl

theorem head?_toDigits_ne_zero {d : Nat} (h : 0 < d) : (Nat.toDigits 10 d).head? ≠ some '0' := by
  induction d using Nat.strongRecOn with
  | _ d ih =>
      rw [Nat.toDigits_eq_if (by decide)]
      split
      · have hdigit : ∀ d < 10, 0 < d → d.digitChar ≠ '0' := by decide
        intro heq
        exact hdigit d (by omega) h (Option.some.inj heq)
      · obtain ⟨c, rest, heq⟩ :=
          List.exists_cons_of_ne_nil (Nat.toDigits_ne_nil (b := 10) (n := d / 10))
        have hhead := ih (d / 10) (by omega) (by omega)
        rw [heq] at hhead ⊢
        exact hhead

/-- Digits with a zero in front are a single zero. -/
theorem toDigits_cases (d : Nat) : Nat.toDigits 10 d = ['0'] ∨
    ∃ c rest, Nat.toDigits 10 d = c :: rest ∧ c ≠ '0' ∧ c ≠ '-' ∧ c ≠ '+' := by
  rcases Nat.eq_zero_or_pos d with rfl | hd
  · exact .inl rfl
  · obtain ⟨c, rest, heq⟩ := List.exists_cons_of_ne_nil (Nat.toDigits_ne_nil (b := 10) (n := d))
    have hdigit : c.isDigit = true :=
      Nat.isDigit_of_mem_toDigits (by decide) (by decide) (heq ▸ List.mem_cons_self)
    refine .inr ⟨c, rest, heq, ?_, ?_, ?_⟩
    · rintro rfl
      exact head?_toDigits_ne_zero hd (by rw [heq]; rfl)
    · rintro rfl
      cases hdigit
    · rintro rfl
      cases hdigit

end Text

/-! ## Integers -/

namespace Yaml.Scalar

theorem isPaddedDigits_toDigits (d : Nat) : isPaddedDigits (Nat.toDigits 10 d) = false := by
  rcases Text.toDigits_cases d with h | ⟨c, rest, h, hzero, hminus, hplus⟩
  · rw [h]
    rfl
  · rw [h]
    unfold isPaddedDigits
    simp [hzero, hminus, hplus]

theorem isPaddedDigits_minus_toDigits (d : Nat) :
    isPaddedDigits ('-' :: Nat.toDigits 10 d) = false := by
  rcases Text.toDigits_cases d with h | ⟨c, rest, h, hzero, hminus, hplus⟩
  · rw [h]
    rfl
  · rw [h]
    unfold isPaddedDigits
    simp [hzero]

theorem natural?_toString (hi d : Nat) :
    natural? hi (toString d) = (some d).filter (· ≤ hi) := by
  have hdigits := Text.digits?_toDigits d
  have hpadded := isPaddedDigits_toDigits d
  unfold natural? Text.natural?
  rw [Text.toList_toString_nat]
  rcases Text.toDigits_cases d with h | ⟨c, rest, h, hzero, hminus, hplus⟩
  · rw [h] at hdigits ⊢
    simp [beginsWithSign, isPaddedDigits, hdigits]
  · rw [h] at hdigits hpadded ⊢
    simp [hzero, hminus, hplus, hpadded, beginsWithSign, hdigits]

theorem natural?_minus (hi d : Nat) : natural? hi ("-" ++ toString d) = none := by
  unfold natural?
  rw [Text.toList_minus_toString]
  simp [beginsWithSign]

theorem integer?_toString (lo hi : Int) (d : Nat) :
    integer? lo hi (toString d) = (some (d : Int)).filter fun n => lo ≤ n && n ≤ hi := by
  have hdecimal := Text.integer?_toString lo hi d
  rw [Text.toList_toString_of_nonneg (by omega), Int.toNat_natCast] at hdecimal
  have hpadded := isPaddedDigits_toDigits d
  unfold integer?
  simp only [Text.toList_toString_nat, hpadded, hdecimal]
  rcases Text.toDigits_cases d with h | ⟨c, rest, h, hzero, hminus, hplus⟩
  · rw [h]
    rfl
  · rw [h]
    simp [hminus]

theorem integer?_minus (lo hi : Int) (d : Nat) :
    integer? lo hi ("-" ++ toString d) = (some (-(d : Int))).filter fun n => lo ≤ n && n ≤ hi := by
  have hpadded := isPaddedDigits_minus_toDigits d
  have hdigits := Text.digits?_toDigits d
  unfold integer? Text.integer?
  rw [Text.toList_minus_toString]
  rcases Text.toDigits_cases d with h | ⟨c, rest, h, hzero, hminus, hplus⟩
  · rw [h] at hdigits hpadded ⊢
    simp [hpadded, hdigits]
  · rw [h] at hdigits hpadded ⊢
    simp [hpadded, hdigits, hzero]

end Yaml.Scalar

/-! ## Doubles -/

namespace Text.Double

theorem magnitude?_toDigits (negative : Bool) (d : Nat) :
    magnitude? negative (Nat.toDigits 10 d) = some (ofScaled negative d 0) := by
  have hdigit : ∀ c ∈ Nat.toDigits 10 d, c.isDigit = true := fun c hc =>
    Nat.isDigit_of_mem_toDigits (by decide) (by decide) hc
  have htake : (Nat.toDigits 10 d).takeWhile Char.isDigit = Nat.toDigits 10 d :=
    List.takeWhile_eq_self_iff.2 hdigit
  have hdrop : (Nat.toDigits 10 d).dropWhile Char.isDigit = [] := List.dropWhile_eq_nil_iff.2 hdigit
  unfold magnitude?
  rw [htake, hdrop]
  simp [exponent?, digits?_toDigits, Nat.toDigits_ne_nil]

theorem isFinite_infinity (negative : Bool) : (infinity negative).isFinite = false := by
  cases negative <;> rfl

/-- Beyond the range of exponents there is only infinity. -/
theorem isFinite_ofRatio_of_log2 {d : Nat} (negative : Bool) (h : 1200 ≤ d.log2) :
    (ofRatio negative d 1).isFinite = false := by
  have hd : d ≠ 0 := by
    rintro rfl
    exact absurd h (by decide)
  have hone : Nat.log2 1 = 0 := by decide
  unfold ofRatio
  rw [if_neg hd, hone]
  simp only
  generalize hguess : max ((d.log2 : Int) - (0 : Nat) - 53) (-1074) = guess
  generalize hexponent : (if needsCoarser d 1 guess then guess + 1 else guess) = e
  -- all bits of the exponent are set at 2047 steps above the least one
  have he : 2047 ≤ (e + 1074).toNat := by
    split at hexponent <;> omega
  rw [if_pos (Nat.le_trans (Nat.mul_le_mul_right _ he) (Nat.le_add_right _ _))]
  exact isFinite_infinity negative

theorem le_log2_of_length_toDigits {d k : Nat} (hk : 0 < k)
    (h : k < (Nat.toDigits 10 d).length) : 3 * k ≤ d.log2 := by
  have hle : 10 ^ k ≤ d := Nat.not_lt.1 fun hlt =>
    absurd ((Nat.length_toDigits_le_iff (by decide) hk).2 hlt) (Nat.not_le.2 h)
  -- a decimal digit is worth more than three binary ones
  have hpow : 2 ^ (3 * k) ≤ 10 ^ k := by
    rw [Nat.pow_mul]
    exact Nat.pow_le_pow_left (by decide) k
  have hd : 0 < d := Nat.lt_of_lt_of_le (Nat.pow_pos (by decide)) hle
  exact (Nat.le_log2 hd.ne').2 (Nat.le_trans hpow hle)

theorem ofScaled_zero {d : Nat} (negative : Bool) (h : 0 < d) :
    (some (ofScaled negative d 0)).filter (·.isFinite) =
      (some (ofRatio negative d 1)).filter (·.isFinite) := by
  have hsmall : ¬ (decide (d = 0) ||
      decide (((Nat.toDigits 10 d).length : Int) + 0 < -330)) = true := by
    rw [Bool.or_eq_true, decide_eq_true_eq, decide_eq_true_eq]
    omega
  unfold ofScaled
  dsimp only
  rw [if_neg hsmall]
  -- with so many digits the quotient is not even taken, and it would not be finite either
  by_cases hsize : 400 < (Nat.toDigits 10 d).length
  · have hlog := isFinite_ofRatio_of_log2 negative (le_log2_of_length_toDigits (by decide) hsize)
    rw [if_pos (by omega)]
    simp only [Option.filter_some, hlog, isFinite_infinity, Bool.false_eq_true, if_false]
  · rw [if_neg (by omega), if_pos (Int.le_refl 0)]
    show (some (ofRatio negative (d * 1) 1)).filter _ = _
    rw [Nat.mul_one]

theorem ofInt_natCast (d : Nat) : ofInt d = ofRatio false d 1 := by
  unfold ofInt
  rw [decide_eq_false (by omega), Int.natAbs_natCast]

theorem ofInt_neg_natCast {d : Nat} (h : 0 < d) : ofInt (-d) = ofRatio true d 1 := by
  unfold ofInt
  rw [decide_eq_true (by omega), Int.natAbs_neg, Int.natAbs_natCast]

theorem toLower_of_isDigit {c : Char} (h : c.isDigit = true) : c.toLower = c := by
  rw [Char.isDigit, Bool.and_eq_true, decide_eq_true_eq, decide_eq_true_eq] at h
  refine dif_neg ?_
  rintro ⟨hupper, _⟩
  exact absurd (UInt32.le_trans hupper h.2) (by decide)

theorem endsInDigit_toLower (d : Nat) :
    EndsInDigit (String.ofList ((Nat.toDigits 10 d).map Char.toLower)) := by
  have hdigits : (Nat.toDigits 10 d).map Char.toLower = Nat.toDigits 10 d :=
    List.map_congr_left (g := id) (fun c hc => toLower_of_isDigit
      (Nat.isDigit_of_mem_toDigits (by decide) (by decide) hc)) |>.trans (List.map_id _)
  rw [hdigits, ← toList_toString_nat, String.ofList_toList]
  exact endsInDigit_toString d ""

/-- Digits are not the name of a special value. -/
theorem unnamed_toDigits (negative : Bool) (d : Nat) :
    (if String.ofList ((Nat.toDigits 10 d).map Char.toLower) = "inf" ||
        String.ofList ((Nat.toDigits 10 d).map Char.toLower) = "infinity" then
      some (infinity negative)
    else if String.ofList ((Nat.toDigits 10 d).map Char.toLower) = "nan" then some nan
    else magnitude? negative (Nat.toDigits 10 d)) = some (ofScaled negative d 0) := by
  have hname := endsInDigit_toLower d
  rw [decide_eq_false (hname.ne (by decide)), decide_eq_false (hname.ne (by decide)),
    if_neg (by decide), if_neg (hname.ne (by decide)), magnitude?_toDigits]

theorem ofText?_toString (d : Nat) : ofText? (toString d) = some (ofScaled false d 0) := by
  have hunnamed := unnamed_toDigits false d
  unfold ofText?
  rw [toList_toString_nat]
  rcases toDigits_cases d with h | ⟨c, rest, h, _, hminus, hplus⟩
  · rw [h] at hunnamed ⊢
    exact hunnamed
  · rw [h] at hunnamed ⊢
    simp only [List.cons.injEq, hminus, hplus, false_and, imp_self, implies_true]
    exact hunnamed

theorem ofText?_minus (d : Nat) : ofText? ("-" ++ toString d) = some (ofScaled true d 0) := by
  unfold ofText?
  rw [String.toList_append, toList_toString_nat]
  exact unnamed_toDigits true d

end Text.Double

/-! ## Values -/

namespace Yaml.Scalar

open Text (EndsInDigit)

theorem float?_of_endsInDigit {s : String} (h : EndsInDigit s) (hplus : s.toList.head? ≠ some '+') :
    float? s = (Text.Double.ofText? s).filter (·.isFinite) := by
  have hdots := h.forall_ne [".inf", ".Inf", ".INF", "-.inf", "-.Inf", "-.INF", ".nan", ".NaN",
    ".NAN"] (by decide)
  have hname : String.ofList s.toList = s := String.ofList_toList
  unfold float?
  cases hs : s.toList with
  | nil =>
      unfold EndsInDigit at h
      rw [hs] at h
      cases h
  | cons c rest =>
      rw [hs] at hname hplus
      have hc : c ≠ '+' := fun heq => hplus (heq ▸ rfl)
      simp only [List.forall_mem_cons] at hdots
      simp only [hc, hname, List.cons.injEq, false_and, imp_self, implies_true]
      simp [hdots]

theorem isEmpty_of_endsInDigit {s : String} (h : EndsInDigit s) : s.isEmpty = false := by
  rw [← Bool.not_eq_true, String.isEmpty_iff]
  exact h.ne (by decide)

theorem isNullText_of_endsInDigit {s : String} (h : EndsInDigit s) : isNullText s = false := by
  have hne := h.forall_ne ["null", "Null", "NULL", "~"] (by decide)
  simp only [List.forall_mem_cons] at hne
  unfold isNullText
  simp [hne]

theorem boolean?_of_endsInDigit {s : String} (h : EndsInDigit s) : boolean? s = none := by
  have hne := h.forall_ne ["true", "True", "TRUE", "false", "False", "FALSE"] (by decide)
  simp only [List.forall_mem_cons] at hne
  unfold boolean?
  simp [hne]

theorem plainValue_of_endsInDigit {s : String} (h : EndsInDigit s) :
    plainValue s =
      match anyInteger? s with
      | some v => v
      | none =>
        if isPaddedDigits s.toList then .text s
        else
          match float? s with
          | some d => .float d
          | none => .text s := by
  unfold plainValue
  rw [isEmpty_of_endsInDigit h, isNullText_of_endsInDigit h, boolean?_of_endsInDigit h]
  rfl

theorem anyInteger?_toString (d : Nat) : anyInteger? (toString d) =
    if d ≤ Text.uint64Max then some (.unsigned d)
    else if d ≤ Text.uint128Max then some (.wide d)
    else none := by
  unfold anyInteger?
  simp only [natural?_toString, integer?_toString, Option.filter_some, decide_eq_true_eq,
    Bool.and_eq_true]
  by_cases h64 : d ≤ Text.uint64Max
  · simp only [if_pos h64]
  · have hsigned : ¬ (Text.int64Min ≤ (d : Int) ∧ (d : Int) ≤ Text.int64Max) := by
      unfold Text.uint64Max at h64
      unfold Text.int64Max
      omega
    simp only [if_neg h64, if_neg hsigned]
    by_cases h128 : d ≤ Text.uint128Max
    · simp only [if_pos h128]
    · have hsigned : ¬ (Text.int128Min ≤ (d : Int) ∧ (d : Int) ≤ Text.int128Max) := by
        unfold Text.uint128Max at h128
        unfold Text.int128Max
        omega
      simp only [if_neg h128, if_neg hsigned, Option.map_none]

theorem anyInteger?_minus (d : Nat) : anyInteger? ("-" ++ toString d) =
    if Text.int64Min ≤ -d then some (.signed (-d))
    else if Text.int128Min ≤ -d then some (.wide (-d))
    else none := by
  have h64 : (Text.int64Min ≤ -(d : Int) ∧ -(d : Int) ≤ Text.int64Max) ↔
      Text.int64Min ≤ -(d : Int) := and_iff_left (by rw [Text.int64Max]; omega)
  have h128 : (Text.int128Min ≤ -(d : Int) ∧ -(d : Int) ≤ Text.int128Max) ↔
      Text.int128Min ≤ -(d : Int) := and_iff_left (by rw [Text.int128Max]; omega)
  unfold anyInteger?
  simp only [natural?_minus, integer?_minus, Option.filter_some, decide_eq_true_eq,
    Bool.and_eq_true, h64, h128]
  split <;> split <;> simp_all

theorem float_or_text {s : String} {d : Text.Double}
    (h : float? s = (some d).filter (·.isFinite)) :
    (match float? s with
      | some d => Value.float d
      | none => .text s) = if d.isFinite then .float d else .text s := by
  rw [h, Option.filter_some]
  cases d.isFinite <;> rfl

theorem plainValue_toString (d : Nat) : plainValue (toString d) =
    if d ≤ Text.uint64Max then .unsigned d
    else if d ≤ Text.uint128Max then .wide d
    else if (Text.Double.ofInt d).isFinite then .float (.ofInt d)
    else .text (toString d) := by
  have hends : EndsInDigit (toString d) := Text.Spells.endsInDigit ⟨d, .inl ⟨rfl, rfl⟩⟩
  rw [plainValue_of_endsInDigit hends, anyInteger?_toString, Text.toList_toString_nat,
    isPaddedDigits_toDigits]
  by_cases h64 : d ≤ Text.uint64Max
  · simp only [if_pos h64]
  · by_cases h128 : d ≤ Text.uint128Max
    · simp only [if_neg h64, if_pos h128]
    · have hplus : (toString d).toList.head? ≠ some '+' := by
        rw [Text.toList_toString_nat]
        rcases Text.toDigits_cases d with h | ⟨c, rest, h, _, _, hplus⟩
        · rw [h]
          decide
        · rw [h]
          exact fun heq => hplus (Option.some.inj heq)
      have hfloat : float? (toString d) = (some (.ofInt d)).filter (·.isFinite) := by
        unfold Text.uint64Max at h64
        rw [float?_of_endsInDigit hends hplus, Text.Double.ofText?_toString,
          Text.Double.ofScaled_zero _ (by omega), Text.Double.ofInt_natCast]
      simp only [if_neg h64, if_neg h128, Bool.false_eq_true, if_false, float_or_text hfloat]

theorem plainValue_minus (d : Nat) : plainValue ("-" ++ toString d) =
    if Text.int64Min ≤ -d then .signed (-d)
    else if Text.int128Min ≤ -d then .wide (-d)
    else if (Text.Double.ofInt (-d)).isFinite then .float (.ofInt (-d))
    else .text ("-" ++ toString d) := by
  have hends := Text.endsInDigit_toString d "-"
  rw [plainValue_of_endsInDigit hends, anyInteger?_minus, Text.toList_minus_toString,
    isPaddedDigits_minus_toDigits]
  by_cases h64 : Text.int64Min ≤ -(d : Int)
  · simp only [if_pos h64]
  · by_cases h128 : Text.int128Min ≤ -(d : Int)
    · simp only [if_neg h64, if_pos h128]
    · have hfloat : float? ("-" ++ toString d) = (some (.ofInt (-d))).filter (·.isFinite) := by
        unfold Text.int64Min at h64
        rw [float?_of_endsInDigit hends (by simp), Text.Double.ofText?_minus,
          Text.Double.ofScaled_zero _ (by omega), Text.Double.ofInt_neg_natCast (by omega)]
      simp only [if_neg h64, if_neg h128, Bool.false_eq_true, if_false, float_or_text hfloat]

end Yaml.Scalar

end SchemaLedger
