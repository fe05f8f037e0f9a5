import Mathlib.Algebra.Group.Nat.Defs
import Mathlib.Logic.Basic
import SchemaLedger.Calendar.Reading
import SchemaLedger.Proofs.Decimal

/-!
# Moments in writing

In writing each part of a moment has its number of digits, zeros in front included, and
behind the seconds there may be a fraction of up to nine more. `Moment.Written` says so of any
digits, and so also of texts that look like a moment and are none: the thirteenth month, the
29 February of a common year, the hour 24. The reader of moments takes more than these texts,
but about these it is exact, `Moment.ofText_of_written`: it reads the parts as they are
written if the calendar and the clock have them, and otherwise finds them out of range.
-/

namespace SchemaLedger

/-! ## Numbers of a fixed width -/

namespace Text

/-- What holds of the ten digits holds of any character that is a digit. -/
theorem of_isDigit {p : Char → Prop} (digits : ∀ n < 10, p (Char.ofNat (48 + n))) {c : Char}
    (h : c.isDigit = true) : p c := by
  have hc : 48 ≤ c.toNat ∧ c.toNat ≤ 57 := Char.isDigit_iff_toNat.1 h
  have hp := digits (c.toNat - 48) (by omega)
  rwa [show 48 + (c.toNat - 48) = c.toNat by omega, Char.ofNat_toNat] at hp

theorem isBlank_of_isDigit {c : Char} (h : c.isDigit = true) : isBlank c = false :=
  of_isDigit (p := fun c => isBlank c = false) (by decide) h

/-- The text is a number in so many digits. -/
structure Numeral (width n : Nat) (s : List Char) : Prop where
  length : s.length = width
  digits : ∀ c ∈ s, c.isDigit = true
  value : Nat.ofDigitChars 10 s 0 = n

instance (width n : Nat) (s : List Char) : Decidable (Numeral width n s) :=
  decidable_of_iff
    (s.length = width ∧ s.all Char.isDigit = true ∧ Nat.ofDigitChars 10 s 0 = n)
    ⟨fun ⟨length, digits, value⟩ => ⟨length, List.all_eq_true.1 digits, value⟩,
      fun ⟨length, digits, value⟩ => ⟨length, List.all_eq_true.2 digits, value⟩⟩

theorem Numeral.exists_cons {width n : Nat} {s : List Char} (h : Numeral (width + 1) n s) :
    ∃ c rest, s = c :: rest ∧ c.isDigit = true := by
  obtain ⟨c, rest, rfl⟩ := List.exists_cons_of_length_eq_add_one h.length
  exact ⟨c, rest, rfl, h.digits c List.mem_cons_self⟩

theorem toList_zeroPadded (width n : Nat) : (zeroPadded width n).toList =
    List.replicate (width - (Nat.toDigits 10 n).length) '0' ++ Nat.toDigits 10 n := by
  rw [zeroPadded, String.toList_append, String.toList_ofList, toList_toString_nat,
    ← String.length_toList, toList_toString_nat]

theorem isDigit_of_mem_zeroPadded {width n : Nat} {c : Char}
    (h : c ∈ (zeroPadded width n).toList) : c.isDigit = true := by
  rw [toList_zeroPadded] at h
  rcases List.mem_append.1 h with h | h
  · rw [List.eq_of_mem_replicate h]
    rfl
  · exact Nat.isDigit_of_mem_toDigits (by decide) (by decide) h

/-- A number with leading zeros is one in so many digits, if it is small enough. -/
theorem numeral_zeroPadded {width n : Nat} (positive : 0 < width) (h : n < 10 ^ width) :
    Numeral width n (zeroPadded width n).toList := by
  refine ⟨?_, fun _ => isDigit_of_mem_zeroPadded, ?_⟩
  · have hle := (Nat.length_toDigits_le_iff (b := 10) (by decide) positive).2 h
    rw [toList_zeroPadded, List.length_append, List.length_replicate]
    omega
  · rw [toList_zeroPadded, Nat.ofDigitChars_append, Nat.ofDigitChars_replicate_zero, Nat.mul_zero,
      Nat.ofDigitChars_ten_toDigits]

end Text

/-! ## Readers -/

namespace Moment

namespace Reader

variable {α β : Type} {s rest : List Char}

theorem bind_ok {x : Reader α} {f : α → Reader β} {a : α} (h : x s = .ok (a, rest)) :
    (x >>= f) s = f a rest := by
  change StateT.bind x f s = _
  unfold StateT.bind
  rw [h]
  rfl

theorem bind_error {x : Reader α} {f : α → Reader β} {fault : MomentFault}
    (h : x s = .error fault) : (x >>= f) s = .error fault := by
  change StateT.bind x f s = _
  unfold StateT.bind
  rw [h]
  rfl

/-- What has gone well has gone well from part to part. -/
theorem of_bind_ok {x : Reader α} {f : α → Reader β} {b : β}
    (h : (x >>= f) s = .ok (b, rest)) : ∃ a s', x s = .ok (a, s') ∧ f a s' = .ok (b, rest) := by
  cases hx : x s with
  | error fault =>
      rw [bind_error hx] at h
      cases h
  | ok p =>
      rw [bind_ok hx] at h
      exact ⟨p.1, p.2, rfl, h⟩

theorem skipBlanks_of_digit {c : Char} (h : c.isDigit = true) (rest : List Char) :
    skipBlanks (c :: rest) = .ok ((), c :: rest) := by
  change Except.ok ((), (c :: rest).dropWhile Text.isBlank) = _
  rw [List.dropWhile_cons_of_neg (by simp [Text.isBlank_of_isDigit h])]

theorem valueOf_eq (s : List Char) : valueOf s = Nat.ofDigitChars 10 s 0 := by
  unfold valueOf Nat.ofDigitChars
  congr 1
  funext n c
  rw [Nat.mul_comm]

/-- All digits are taken where the width ends with them, or nothing but them is left. -/
theorem digits_append {width : Nat} (nonempty : s ≠ []) (isDigit : ∀ c ∈ s, c.isDigit = true)
    (ends : s.length = width ∨ s.length ≤ width ∧ rest = []) :
    digits (some width) (s ++ rest) = .ok (s, rest) := by
  have htaken : ((s ++ rest).takeWhile Char.isDigit).take width = s := by
    rw [List.takeWhile_append_of_pos isDigit]
    rcases ends with rfl | ⟨hle, rfl⟩
    · exact List.take_left' rfl
    · rw [List.takeWhile_nil, List.append_nil, List.take_of_length_le hle]
  obtain ⟨c, text, htext⟩ :=
    List.exists_cons_of_ne_nil (List.append_ne_nil_of_left_ne_nil nonempty rest)
  rw [htext] at htaken ⊢
  unfold digits
  simp only [htaken]
  rw [if_neg (by simpa using nonempty), ← htext, List.drop_left]

/-- A number of two digits is read if it lies within the limits. -/
theorem field_numeral {n lo hi : Nat} (h : Text.Numeral 2 n s) (rest : List Char) :
    field lo hi (s ++ rest) = if lo ≤ n ∧ n ≤ hi then .ok (n, rest) else .error .outOfRange := by
  obtain ⟨c, s', hs, hc⟩ := h.exists_cons
  have hdigits : digits (some 2) (s ++ rest) = .ok (s, rest) :=
    digits_append (by simp [hs]) h.digits (.inl h.length)
  have hblanks : skipBlanks (s ++ rest) = .ok ((), s ++ rest) := by
    rw [hs]
    exact skipBlanks_of_digit hc _
  rw [field, bind_ok hblanks, bind_ok hdigits, valueOf_eq, h.value]
  by_cases hn : lo ≤ n ∧ n ≤ hi
  · rw [if_pos hn, if_pos (by simpa using hn)]
    rfl
  · rw [if_neg hn, if_neg (by simpa using hn)]
    rfl

theorem limits_of_field {n lo hi : Nat} (h : field lo hi s = .ok (n, rest)) :
    lo ≤ n ∧ n ≤ hi := by
  obtain ⟨_, _, _, h⟩ := of_bind_ok h
  obtain ⟨taken, s', _, h⟩ := of_bind_ok h
  by_cases hn : lo ≤ valueOf taken ∧ valueOf taken ≤ hi
  · rw [if_pos (by simpa using hn)] at h
    cases h
    exact hn
  · rw [if_neg (by simpa using hn)] at h
    cases h

theorem year_numeral {n : Nat} (h : Text.Numeral 4 n s) (rest : List Char) :
    year (s ++ rest) = .ok ((n : Int), rest) := by
  obtain ⟨c, s', hs, hc⟩ := h.exists_cons
  have hdigits : digits (some 4) (s ++ rest) = .ok (s, rest) :=
    digits_append (by simp [hs]) h.digits (.inl h.length)
  have hblanks : skipBlanks (s ++ rest) = .ok ((), s ++ rest) := by
    rw [hs]
    exact skipBlanks_of_digit hc _
  have hget : (get : Reader (List Char)) (s ++ rest) = .ok (s ++ rest, s ++ rest) := rfl
  have hsign : (s ++ rest).head? ≠ some '-' ∧ (s ++ rest).head? ≠ some '+' := by
    rw [hs]
    constructor <;> intro heq <;> cases heq <;> cases hc
  rw [year, bind_ok hblanks, bind_ok hget]
  generalize (s ++ rest).head? = head at hsign
  split
  · exact absurd rfl hsign.1
  · exact absurd rfl hsign.2
  · rw [bind_ok hdigits, valueOf_eq, h.value]
    rfl

theorem expect_cons (c : Char) (rest : List Char) : expect c (c :: rest) = .ok ((), rest) :=
  if_pos rfl

end Reader

/-! ## Moments -/

/-- A fraction of a second in nanoseconds: nothing at all, or a point and up to nine digits, which
are those of a decimal fraction. -/
inductive Fraction : Nat → List Char → Prop
  | none : Fraction 0 []
  | digits {s : List Char} {nanosecond : Nat} (nonempty : s ≠ []) (short : s.length ≤ 9)
    (isDigit : ∀ c ∈ s, c.isDigit = true)
    (value : nanosecond * 10 ^ s.length = Nat.ofDigitChars 10 s 0 * 10 ^ 9) :
    Fraction nanosecond ('.' :: s)

/-- The text is `YYYY-MM-DD HH:MM:SS`, with or without a fraction, and these are its numbers. -/
inductive Written (m : Moment) : List Char → Prop
  | text {year month day hour minute second fraction : List Char} {n : Nat}
    (hyear : Text.Numeral 4 n year) (heq : m.year = n) (hmonth : Text.Numeral 2 m.month month)
    (hday : Text.Numeral 2 m.day day) (hhour : Text.Numeral 2 m.hour hour)
    (hminute : Text.Numeral 2 m.minute minute) (hsecond : Text.Numeral 2 m.second second)
    (hfraction : Fraction m.nanosecond fraction) :
    Written m (year ++ '-' :: (month ++ '-' :: (day ++ ' ' :: (hour ++ ':' :: (minute ++
      ':' :: (second ++ fraction))))))

/-- The calendar has the date and the clock has the time of day. -/
structure Possible (m : Moment) : Prop where
  date : m.isDate = true
  hour : m.hour ≤ 23
  minute : m.minute ≤ 59
  second : m.second ≤ 60

instance (m : Moment) : Decidable m.Possible :=
  decidable_of_iff (m.isDate = true ∧ m.hour ≤ 23 ∧ m.minute ≤ 59 ∧ m.second ≤ 60)
    ⟨fun ⟨date, hour, minute, second⟩ => ⟨date, hour, minute, second⟩,
      fun ⟨date, hour, minute, second⟩ => ⟨date, hour, minute, second⟩⟩

theorem isDate_iff {m : Moment} : m.isDate = true ↔ firstYear ≤ m.year ∧ m.year ≤ lastYear ∧
    1 ≤ m.month ∧ m.month ≤ 12 ∧ 1 ≤ m.day ∧ m.day ≤ daysIn m.year m.month := by
  simp [isDate, and_assoc]

theorem daysIn_le (year : Int) (month : Nat) : daysIn year month ≤ 31 := by
  unfold daysIn
  split
  · split <;> decide
  · split <;> decide

namespace Reader

theorem fraction_of_fraction {nanosecond : Nat} {s : List Char} (h : Fraction nanosecond s) :
    fraction s = .ok (nanosecond, []) := by
  cases h with
  | none => rfl
  | @digits s nanosecond nonempty short isDigit value =>
      have hdigits : digits (some 9) (s ++ []) = .ok (s, []) :=
        digits_append nonempty isDigit (.inr ⟨short, rfl⟩)
      rw [List.append_nil] at hdigits
      have hvalue : valueOf s * Nat.pow 10 (9 - s.length) = nanosecond := by
        have hpow : (10 : Nat) ^ 9 = 10 ^ s.length * 10 ^ (9 - s.length) := by
          rw [← Nat.pow_add, Nat.add_sub_cancel' short]
        rw [hpow, Nat.mul_left_comm, Nat.mul_comm nanosecond] at value
        rw [valueOf_eq]
        exact (Nat.eq_of_mul_eq_mul_left (Nat.pow_pos (by decide)) value).symm
      change ((do
        expect '.'
        let nine ← digits (some 9)
        modify (·.dropWhile Char.isDigit)
        return valueOf nine * Nat.pow 10 (9 - nine.length) : Reader Nat) ('.' :: s)) = _
      rw [bind_ok (expect_cons '.' s), bind_ok hdigits]
      change Except.ok (valueOf s * Nat.pow 10 (9 - s.length), []) = _
      rw [hvalue]

theorem bind_field {n lo hi : Nat} {s : List Char} (h : Text.Numeral 2 n s)
    (f : Nat → Reader Moment) (rest : List Char) : (field lo hi >>= f) (s ++ rest) =
      if lo ≤ n ∧ n ≤ hi then f n rest else .error .outOfRange := by
  have hfield : field lo hi (s ++ rest) =
      if lo ≤ n ∧ n ≤ hi then .ok (n, rest) else .error .outOfRange := field_numeral h rest
  split at hfield
  · next hn => rw [bind_ok hfield, if_pos hn]
  · next hn => rw [bind_error hfield, if_neg hn]

/-- The parts of a text are read one by one, up to the first that is out of its limits. -/
theorem moment_of_written {m : Moment} {s : List Char} (h : Written m s) :
    moment s = if (1 ≤ m.month ∧ m.month ≤ 12) ∧ (1 ≤ m.day ∧ m.day ≤ 31) ∧ m.hour ≤ 23 ∧
      m.minute ≤ 59 ∧ m.second ≤ 60 then .ok (m, []) else .error .outOfRange := by
  obtain ⟨hyear, heq, hmonth, hday, hhour, hminute, hsecond, hfraction⟩ := h
  have hblank {hour : List Char} (hhour : Text.Numeral 2 m.hour hour) (rest : List Char) :
      skipBlanks (' ' :: (hour ++ rest)) = .ok ((), hour ++ rest) := by
    obtain ⟨c, hour, rfl, hc⟩ := hhour.exists_cons
    exact skipBlanks_of_digit hc _
  rw [moment, bind_ok (year_numeral hyear _), bind_ok (expect_cons ..), bind_field hmonth,
    bind_ok (expect_cons ..), bind_field hday, bind_ok (hblank hhour _), bind_field hhour,
    bind_ok (expect_cons ..), bind_field hminute, bind_ok (expect_cons ..), bind_field hsecond,
    bind_ok (fraction_of_fraction hfraction), ← heq]
  simp only [Nat.zero_le, true_and, ite_and]
  rfl

end Reader

/-- Whatever is read as a moment, the calendar and the clock have it. -/
theorem possible_of_ofText {m : Moment} {s : String} (h : ofText s = .ok m) : m.Possible := by
  unfold ofText at h
  split at h
  · cases h
  · next m' rest hread =>
      split at h
      · cases h
      · split at h
        · next hdate =>
            cases h
            obtain ⟨_, _, _, hread⟩ := Reader.of_bind_ok hread
            obtain ⟨_, _, _, hread⟩ := Reader.of_bind_ok hread
            obtain ⟨_, _, _, hread⟩ := Reader.of_bind_ok hread
            obtain ⟨_, _, _, hread⟩ := Reader.of_bind_ok hread
            obtain ⟨_, _, _, hread⟩ := Reader.of_bind_ok hread
            obtain ⟨_, _, _, hread⟩ := Reader.of_bind_ok hread
            obtain ⟨hour, _, hhour, hread⟩ := Reader.of_bind_ok hread
            obtain ⟨_, _, _, hread⟩ := Reader.of_bind_ok hread
            obtain ⟨minute, _, hminute, hread⟩ := Reader.of_bind_ok hread
            obtain ⟨_, _, _, hread⟩ := Reader.of_bind_ok hread
            obtain ⟨second, _, hsecond, hread⟩ := Reader.of_bind_ok hread
            obtain ⟨_, _, _, hread⟩ := Reader.of_bind_ok hread
            cases hread
            exact ⟨hdate, (Reader.limits_of_field hhour).2, (Reader.limits_of_field hminute).2,
              (Reader.limits_of_field hsecond).2⟩
        · cases h

theorem ofText_of_written {m : Moment} {s : String} (h : Written m s.toList) :
    ofText s = if m.Possible then .ok m else .error .outOfRange := by
  rw [ofText, Reader.moment_of_written h]
  have hday := daysIn_le m.year m.month
  by_cases possible : m.Possible
  · obtain ⟨_, _, hmonth, hmonth', hday, hday'⟩ := isDate_iff.1 possible.date
    rw [if_pos possible, if_pos ⟨⟨hmonth, hmonth'⟩, ⟨hday, by omega⟩, possible.hour,
      possible.minute, possible.second⟩]
    simp [possible.date]
  · rw [if_neg possible]
    by_cases limits : (1 ≤ m.month ∧ m.month ≤ 12) ∧ (1 ≤ m.day ∧ m.day ≤ 31) ∧ m.hour ≤ 23 ∧
        m.minute ≤ 59 ∧ m.second ≤ 60
    · rw [if_pos limits]
      obtain ⟨_, _, hhour, hminute, hsecond⟩ := limits
      have hdate : ¬ m.isDate = true := fun hdate => possible ⟨hdate, hhour, hminute, hsecond⟩
      simp [hdate]
    · rw [if_neg limits]

end Moment

end SchemaLedger
