namespace Reconciliation.Text

def digits : (width : Nat) → Nat → List Char
  | 0, _ => []
  | width + 1, n => digits width (n / 10) ++ [Nat.digitChar (n % 10)]

/-- Appends a decimal digit to a number, unless the result is too large. -/
def appendDigit? (bound n : Nat) (c : Char) : Option Nat :=
  let next := 10 * n + (c.toNat - 48)
  if next < bound then some next else none

/-- The number below a bound that a text of at least one decimal digit stands for. -/
def decimal? (bound : Nat) (chars : List Char) : Option Nat :=
  if !chars.isEmpty && chars.all Char.isDigit then chars.foldlM (appendDigit? bound) 0 else none

/-- The number that a text of at least one decimal digit stands for, if it fits 64 bits. -/
def unsigned64? (chars : List Char) : Option Nat :=
  decimal? 18446744073709551616 chars

theorem le_ofDigitChars (chars : List Char) (n : Nat) : n ≤ Nat.ofDigitChars 10 chars n := by
  induction chars generalizing n with
  | nil => simp
  | cons c rest ih =>
    rw [Nat.ofDigitChars_cons]
    have hle := ih (10 * n + (c.toNat - '0'.toNat))
    omega

theorem foldlM_appendDigit? {bound n : Nat} (chars : List Char) (h : n < bound) :
    chars.foldlM (appendDigit? bound) n =
      if Nat.ofDigitChars 10 chars n < bound then some (Nat.ofDigitChars 10 chars n) else none := by
  induction chars generalizing n with
  | nil => simp [h]
  | cons c rest ih =>
    rw [List.foldlM_cons, Nat.ofDigitChars_cons, appendDigit?]
    by_cases hnext : 10 * n + (c.toNat - 48) < bound
    · simpa [hnext] using ih hnext
    · have hle := le_ofDigitChars rest (10 * n + (c.toNat - 48))
      have hnot : ¬Nat.ofDigitChars 10 rest (10 * n + (c.toNat - 48)) < bound := by omega
      simp [hnext, hnot]

/-- Decimal digits are read if there are any, nothing else is there, and the number is below the
bound. -/
theorem decimal?_eq_some_iff {bound n : Nat} {chars : List Char} (h : 0 < bound) :
    decimal? bound chars = some n ↔
      chars ≠ [] ∧ (∀ c ∈ chars, c.isDigit = true) ∧
        Nat.ofDigitChars 10 chars 0 = n ∧ n < bound := by
  rw [decimal?, foldlM_appendDigit? chars h]
  simp only [Option.ite_none_right_eq_some, Bool.and_eq_true, Bool.not_eq_true',
    List.isEmpty_eq_false_iff, List.all_eq_true, Option.some.injEq]
  constructor
  · rintro ⟨⟨hne, hall⟩, hlt, rfl⟩
    exact ⟨hne, hall, rfl, hlt⟩
  · rintro ⟨hne, hall, rfl, hlt⟩
    exact ⟨⟨hne, hall⟩, hlt, rfl⟩

@[simp] theorem length_digits (width n : Nat) : (digits width n).length = width := by
  induction width generalizing n with
  | zero => rfl
  | succ width ih => rw [digits, List.length_append, ih]; rfl

theorem isDigit_of_mem_digits {width n : Nat} {c : Char} (h : c ∈ digits width n) :
    c.isDigit = true := by
  induction width generalizing n with
  | zero => simp [digits] at h
  | succ width ih =>
    rw [digits, List.mem_append] at h
    rcases h with h | h
    · exact ih h
    · obtain rfl := List.mem_singleton.1 h
      rw [Nat.isDigit_digitChar, decide_eq_true_eq]
      exact Nat.mod_lt n (by decide)

/-- The digits of a number stand for what is left of it after the digits that have been dropped. -/
theorem ofDigitChars_digits (width n : Nat) :
    Nat.ofDigitChars 10 (digits width n) 0 = n % Nat.pow 10 width := by
  induction width generalizing n with
  | zero => simp [digits, Nat.ofDigitChars, Nat.mod_one]
  | succ width ih =>
    have hdigit : (Nat.digitChar (n % 10)).toNat = 48 + n % 10 :=
      Nat.toNat_digitChar_of_lt_ten (Nat.mod_lt n (by decide))
    have hpow : Nat.pow 10 (width + 1) = 10 * Nat.pow 10 width := Nat.pow_succ'
    rw [digits, Nat.ofDigitChars_append, ih, Nat.ofDigitChars_cons, hdigit, hpow,
      Nat.mod_mul]
    simp [Nat.ofDigitChars]
    omega

end Reconciliation.Text
