import SchemaLedger.Text.Integer

/-!
# Decimal texts are read back

An integer is written by `toString` and read by `integer?`, and ledgers use both: numbers go
into statements as texts and come out of rows as texts. What is written is read back, and
only a limit on the range can get in the way. So a number that does come back is the one
that was written.
-/

namespace SchemaLedger.Text

theorem digitValue?_of_isDigit {c : Char} (h : c.isDigit = true) :
    digitValue? 10 c = some (c.toNat - '0'.toNat) := by
  have hc : '0' ≤ c ∧ c ≤ '9' := by
    simpa [Char.isDigit, Char.le_def, UInt32.le_iff_toNat_le] using h
  have hn : c.toNat ≤ 57 := by
    simpa [Char.le_def, UInt32.le_iff_toNat_le] using hc.2
  rw [digitValue?, if_pos (by simpa using hc)]
  exact Option.filter_some_pos (by simp; omega)

theorem digitsFrom?_of_isDigit {s : List Char} (h : ∀ c ∈ s, c.isDigit = true) (acc : Nat) :
    digitsFrom? 10 acc s = some (Nat.ofDigitChars 10 s acc) := by
  induction s generalizing acc with
  | nil => simp [digitsFrom?]
  | cons c rest ih =>
      rw [digitsFrom?, digitValue?_of_isDigit (h c List.mem_cons_self), Option.bind_some,
        ih fun d hd => h d (List.mem_cons_of_mem c hd), Nat.ofDigitChars_cons, Nat.mul_comm]

theorem digits?_toDigits (n : Nat) : digits? 10 (Nat.toDigits 10 n) = some n := by
  rw [digits?, if_neg (by simp [Nat.toDigits_ne_nil]),
    digitsFrom?_of_isDigit fun c hc => Nat.isDigit_of_mem_toDigits (by decide) (by decide) hc,
    Nat.ofDigitChars_ten_toDigits]

theorem toList_toString_nat (n : Nat) : (toString n).toList = Nat.toDigits 10 n :=
  Nat.toList_repr

theorem toList_toString_of_nonneg {n : Int} (h : 0 ≤ n) :
    (toString n).toList = Nat.toDigits 10 n.toNat := by
  rw [Int.toString_eq_repr, Int.repr_eq_if, if_pos h, Nat.toList_repr]

theorem toList_toString_of_neg {n : Int} (h : n < 0) :
    (toString n).toList = '-' :: Nat.toDigits 10 (-n).toNat := by
  rw [Int.toString_eq_repr, Int.repr_eq_if, if_neg (by omega), String.toList_append,
    Nat.toList_repr]
  rfl

theorem mem_toList_toString {n : Int} {c : Char} (h : c ∈ (toString n).toList) :
    c = '-' ∨ c.isDigit = true := by
  rcases Int.lt_or_le n 0 with hn | hn
  · rw [toList_toString_of_neg hn] at h
    rcases List.mem_cons.1 h with rfl | hd
    · exact .inl rfl
    · exact .inr (Nat.isDigit_of_mem_toDigits (by decide) (by decide) hd)
  · rw [toList_toString_of_nonneg hn] at h
    exact .inr (Nat.isDigit_of_mem_toDigits (by decide) (by decide) h)

/-- Digits alone are a number without a sign. -/
theorem integer?_of_isDigit {s : List Char} {lo hi : Int} (h : ∀ c ∈ s, c.isDigit = true) :
    integer? 10 lo hi s =
      ((digits? 10 s).map fun n => (n : Int)).filter fun n => lo ≤ n && n ≤ hi := by
  unfold integer?
  split
  · exact absurd (h '-' List.mem_cons_self) (by decide)
  · exact absurd (h '+' List.mem_cons_self) (by decide)
  · rfl

theorem integer?_toString (lo hi n : Int) :
    integer? 10 lo hi (toString n).toList = (some n).filter fun n => lo ≤ n && n ≤ hi := by
  rcases Int.lt_or_le n 0 with hn | hn
  · rw [toList_toString_of_neg hn]
    simp only [integer?, digits?_toDigits]
    show (some (-((-n).toNat : Int))).filter _ = _
    rw [show -((-n).toNat : Int) = n by omega]
  · rw [toList_toString_of_nonneg hn, integer?_of_isDigit fun c hc =>
      Nat.isDigit_of_mem_toDigits (by decide) (by decide) hc, digits?_toDigits]
    show (some (n.toNat : Int)).filter _ = _
    rw [Int.toNat_of_nonneg hn]

theorem toString_inj {n m : Int} (h : toString n = toString m) : n = m := by
  have hn := integer?_toString n n n
  rw [h, integer?_toString] at hn
  simp only [Option.filter_some, Bool.and_eq_true, decide_eq_true_eq] at hn
  split at hn
  · next hm => omega
  · simp at hn

theorem integer?_bounds {radix : Nat} {lo hi n : Int} {s : List Char}
    (h : integer? radix lo hi s = some n) : lo ≤ n ∧ n ≤ hi := by
  obtain ⟨_, hn⟩ := Option.filter_eq_some_iff.1 h
  simpa using hn

theorem int64?_toString (n : Int) :
    int64? (toString n) = (some n).filter fun n => int64Min ≤ n && n ≤ int64Max :=
  integer?_toString int64Min int64Max n

theorem eq_of_int64?_toString {n m : Int} (h : int64? (toString n) = some m) : n = m := by
  rw [int64?_toString] at h
  exact Option.some.inj (Option.filter_eq_some_iff.1 h).1

theorem int64?_bounds {s : String} {n : Int} (h : int64? s = some n) :
    int64Min ≤ n ∧ n ≤ int64Max :=
  integer?_bounds h

/-! ## What is an integer of 64 bits -/

theorem isDigit_of_digitValue? {c : Char} {v : Nat} (h : digitValue? 10 c = some v) :
    c.isDigit = true := by
  obtain ⟨hv, hlt⟩ := Option.filter_eq_some_iff.1 h
  simp only [decide_eq_true_eq] at hlt
  split at hv
  · next hc =>
      simpa [Char.isDigit, Char.le_def, UInt32.le_iff_toNat_le] using hc
  · split at hv
    · cases hv
      omega
    · split at hv
      · cases hv
        omega
      · cases hv

theorem isDigit_of_digitsFrom? {s : List Char} {acc n : Nat} (h : digitsFrom? 10 acc s = some n) :
    ∀ c ∈ s, c.isDigit = true := by
  induction s generalizing acc with
  | nil => exact nofun
  | cons c rest ih =>
      obtain ⟨v, hv, hrest⟩ := Option.bind_eq_some_iff.1 h
      exact List.forall_mem_cons.2 ⟨isDigit_of_digitValue? hv, ih hrest⟩

/-- A number is read from digits, at least one, and from nothing else. -/
theorem digits?_eq_some_iff {s : List Char} {n : Nat} : digits? 10 s = some n ↔
    s ≠ [] ∧ (∀ c ∈ s, c.isDigit = true) ∧ n = Nat.ofDigitChars 10 s 0 := by
  unfold digits?
  cases s with
  | nil => simp
  | cons c rest =>
      constructor
      · intro h
        have digits := isDigit_of_digitsFrom? h
        rw [List.isEmpty_cons, if_neg Bool.false_ne_true, digitsFrom?_of_isDigit digits] at h
        exact ⟨List.cons_ne_nil c rest, digits, (Option.some.inj h).symm⟩
      · rintro ⟨_, digits, rfl⟩
        exact digitsFrom?_of_isDigit digits 0

/-- The text is an integer in decimal digits, with or without a sign. -/
inductive Decimal : List Char → Int → Prop
  | unsigned {s : List Char} (nonempty : s ≠ []) (digits : ∀ c ∈ s, c.isDigit = true) :
    Decimal s (Nat.ofDigitChars 10 s 0)
  | plus {s : List Char} (nonempty : s ≠ []) (digits : ∀ c ∈ s, c.isDigit = true) :
    Decimal ('+' :: s) (Nat.ofDigitChars 10 s 0)
  | minus {s : List Char} (nonempty : s ≠ []) (digits : ∀ c ∈ s, c.isDigit = true) :
    Decimal ('-' :: s) (-(Nat.ofDigitChars 10 s 0 : Int))

/-- The text is a decimal integer of 64 bits. -/
structure Int64 (s : String) (n : Int) : Prop where
  decimal : Decimal s.toList n
  least : int64Min ≤ n
  greatest : n ≤ int64Max

theorem integer?_eq_some_iff {s : List Char} {lo hi n : Int} :
    integer? 10 lo hi s = some n ↔ Decimal s n ∧ lo ≤ n ∧ n ≤ hi := by
  unfold integer?
  rw [Option.filter_eq_some_iff, Bool.and_eq_true, decide_eq_true_eq, decide_eq_true_eq]
  refine and_congr_left fun _ => ?_
  constructor
  · intro h
    split at h <;> obtain ⟨_, hk, rfl⟩ := Option.map_eq_some_iff.1 h <;>
      obtain ⟨k, hdigits, hcast⟩ := Option.bind_eq_some_iff.1 hk <;> cases hcast <;>
      obtain ⟨nonempty, digits, rfl⟩ := digits?_eq_some_iff.1 hdigits
    · exact .minus nonempty digits
    · exact .plus nonempty digits
    · exact .unsigned nonempty digits
  · intro h
    cases h with
    | unsigned nonempty digits =>
        have hk := digits?_eq_some_iff.2 ⟨nonempty, digits, rfl⟩
        split
        · exact absurd (digits '-' List.mem_cons_self) (by decide)
        · exact absurd (digits '+' List.mem_cons_self) (by decide)
        · rw [hk]
          rfl
    | plus nonempty digits | minus nonempty digits =>
        simp only [digits?_eq_some_iff.2 ⟨nonempty, digits, rfl⟩]
        rfl

theorem int64?_eq_some_iff {s : String} {n : Int} : int64? s = some n ↔ Int64 s n := by
  rw [int64?, integer?_eq_some_iff]
  exact ⟨fun ⟨decimal, least, greatest⟩ => ⟨decimal, least, greatest⟩,
    fun ⟨decimal, least, greatest⟩ => ⟨decimal, least, greatest⟩⟩

end SchemaLedger.Text
