import Mathlib.Algebra.Group.Nat.Defs
import Reconciliation.Proofs.Results
import Reconciliation.Proofs.Time.Calendar
import Reconciliation.Time.Rfc3339

/-!
What is written as an RFC 3339 text is read back: `read_write` for every instant in the range of
readable ones, and `eq_of_read_write` for every instant at all.
-/
namespace Reconciliation

namespace Text

theorem isBlank_eq_false_of_isDigit {c : Char} (h : c.isDigit = true) : isBlank c = false := by
  have hRange : 48 ≤ c.toNat ∧ c.toNat ≤ 57 := Char.isDigit_iff_toNat.1 h
  simp only [isBlank, Bool.or_eq_false_iff, Bool.and_eq_false_iff, decide_eq_false_iff_not,
    beq_eq_false_iff_ne]
  omega

theorem trimStart_append_of_isDigit {first rest : List Char} (hFirst : first ≠ [])
    (h : ∀ c ∈ first, c.isDigit = true) : trimStart (first ++ rest) = first ++ rest := by
  cases first with
  | nil => exact absurd rfl hFirst
  | cons c first =>
      have hBlank := isBlank_eq_false_of_isDigit (h c (by simp))
      simp [trimStart, hBlank]

theorem digits_ne_nil {width n : Nat} (h : width ≠ 0) : digits width n ≠ [] := by
  intro hNil
  have hLength := length_digits width n
  rw [hNil] at hLength
  exact h hLength.symm

end Text

namespace Rfc3339

open Text (digits)

/-- Digits that fill the limit, or that no digit follows, are read as one number. -/
theorem number_append {limit : Nat} {found rest : List Char} (hFound : found ≠ [])
    (hDigits : ∀ c ∈ found, c.isDigit = true) (hLength : found.length ≤ limit)
    (hStop : found.length = limit ∨ ∀ c ∈ rest.head?, c.isDigit = false) :
    number limit (found ++ rest) =
      if Nat.ofDigitChars 10 found 0 < 9223372036854775808 then
        .ok (Nat.ofDigitChars 10 found 0, rest)
      else .error .outOfRange := by
  have hTaken : ((found ++ rest).take limit).takeWhile Char.isDigit = found := by
    rw [List.take_append, List.take_of_length_le hLength, List.takeWhile_append_of_pos hDigits]
    rcases hStop with hFull | hNext
    · simp [hFull]
    · cases rest with
      | nil => simp
      | cons c rest =>
          have hNot : c.isDigit = false := hNext c (by simp)
          cases limit - found.length <;> simp [hNot]
  have hRest : (found ++ rest).drop found.length = rest := by simp
  obtain ⟨c, chars, rfl⟩ := List.exists_cons_of_ne_nil hFound
  have hFirst : c.isDigit = true := hDigits c (by simp)
  rw [List.cons_append, number, if_pos hFirst, ← List.cons_append, hTaken]
  by_cases hBound : Nat.ofDigitChars 10 (c :: chars) 0 < 9223372036854775808
  · have hRead : Text.decimal? 9223372036854775808 (c :: chars) =
        some (Nat.ofDigitChars 10 (c :: chars) 0) :=
      (Text.decimal?_eq_some_iff (by decide)).2 ⟨hFound, hDigits, rfl, hBound⟩
    simp only [hRead, hRest, if_pos hBound]
  · have hRead : Text.decimal? 9223372036854775808 (c :: chars) = none := by
      rw [Option.eq_none_iff_forall_ne_some]
      intro n hSome
      obtain ⟨-, -, rfl, hLt⟩ := (Text.decimal?_eq_some_iff (by decide)).1 hSome
      exact hBound hLt
    simp only [hRead, if_neg hBound]

/-- Written digits are read as the number that they were written for. -/
theorem number_digits {limit width n : Nat} {rest : List Char} (hWidth : width ≠ 0)
    (hLimit : width ≤ limit) (hBound : n < 9223372036854775808) (hFit : n < 10 ^ width)
    (hStop : width = limit ∨ ∀ c ∈ rest.head?, c.isDigit = false) :
    number limit (digits width n ++ rest) = .ok (n, rest) := by
  have hValue : Nat.ofDigitChars 10 (digits width n) 0 = n := by
    rw [Text.ofDigitChars_digits]
    exact Nat.mod_eq_of_lt hFit
  rw [number_append (Text.digits_ne_nil hWidth) (fun _ h => Text.isDigit_of_mem_digits h)
    (by simpa using hLimit) (by simpa using hStop), hValue, if_pos hBound]

theorem part_digits {low high n : Nat} (rest : List Char) (hLow : low ≤ n) (hHigh : n ≤ high)
    (hFit : n < 100) : part low high (digits 2 n ++ rest) = .ok (n, rest) := by
  have hTrim : Text.trimStart (digits 2 n ++ rest) = digits 2 n ++ rest :=
    Text.trimStart_append_of_isDigit (Text.digits_ne_nil (by decide))
      fun _ h => Text.isDigit_of_mem_digits h
  rw [part, hTrim, number_digits (by decide) (Nat.le_refl 2) (by omega) (by omega) (.inl rfl)]
  simp [bind, Except.bind, hLow, hHigh]
  rfl

theorem literal_cons {c : Char} (rest : List Char) (h : Text.isBlank c = false) :
    literal c (c :: rest) = .ok rest := by
  simp [literal, Text.trimStart, h]

theorem lt_pow_yearWidth (n : Nat) : n < 10 ^ yearWidth n :=
  (Nat.length_toDigits_le_iff (by decide) (by unfold yearWidth; omega)).1 (Nat.le_max_right _ _)

/-- A text that starts with a digit gives its year in the first four digits. -/
theorem year_of_digits {n : Nat} (rest : List Char) (h : n ≤ 9999) :
    year (digits 4 n ++ rest) = .ok ((n : Int), rest) := by
  have hTrim : Text.trimStart (digits 4 n ++ rest) = digits 4 n ++ rest :=
    Text.trimStart_append_of_isDigit (Text.digits_ne_nil (by decide))
      fun _ h => Text.isDigit_of_mem_digits h
  have hNumber : number 4 (digits 4 n ++ rest) = .ok (n, rest) :=
    number_digits (by decide) (Nat.le_refl 4) (by omega) (by omega) (.inl rfl)
  obtain ⟨c, chars, hChars⟩ := List.exists_cons_of_ne_nil
    (Text.digits_ne_nil (show 4 ≠ 0 by decide) : digits 4 n ≠ [])
  have hFirst : c ∈ digits 4 n := by simp [hChars]
  have hDigit : c.isDigit = true := Text.isDigit_of_mem_digits hFirst
  have hRange : -2147483648 ≤ (n : Int) ∧ (n : Int) ≤ 2147483647 := by omega
  rw [hChars, List.cons_append] at hTrim hNumber ⊢
  rw [year, hTrim]
  split
  · next heq => cases heq; simp at hDigit
  · next heq => cases heq; simp at hDigit
  · simp only [hNumber, bind, Except.bind, pure, Except.pure, if_pos hRange]

/-- A sign takes all digits that follow into the year. -/
theorem number_signed {n : Nat} (rest : List Char) (h : n ≤ 2147483648) :
    number (digits (yearWidth n) n ++ '-' :: rest).length (digits (yearWidth n) n ++ '-' :: rest) =
      .ok (n, '-' :: rest) :=
  number_digits (by unfold yearWidth; omega) (by simp) (by omega) (lt_pow_yearWidth n)
    (.inr (by simp))

/-- A year that fits 32 bits is read back, whatever its number of digits. -/
theorem year_writeYear {value : Int} (rest : List Char)
    (h : -2147483648 ≤ value ∧ value ≤ 2147483647) :
    year (writeYear value ++ '-' :: rest) = .ok (value, '-' :: rest) := by
  by_cases hFour : 0 ≤ value ∧ value ≤ 9999
  · have hCast : (value.toNat : Int) = value := by omega
    rw [writeYear, if_pos hFour, year_of_digits _ (by omega), hCast]
  · have hNatAbs : value.natAbs ≤ 2147483648 := by omega
    have hNumber := number_signed rest hNatAbs
    rw [writeYear, if_neg hFour]
    by_cases hNegative : value < 0
    · have hCast : -(value.natAbs : Int) = value := by omega
      have hTrim (chars : List Char) : Text.trimStart ('-' :: chars) = '-' :: chars := rfl
      simp only [if_pos hNegative, List.cons_append, year, hTrim, hNumber, bind, Except.bind, pure,
        Except.pure, hCast, if_pos h]
    · have hCast : (value.natAbs : Int) = value := by omega
      have hTrim (chars : List Char) : Text.trimStart ('+' :: chars) = '+' :: chars := rfl
      simp only [if_neg hNegative, List.cons_append, year, hTrim, hNumber, bind, Except.bind, pure,
        Except.pure, hCast, if_pos h]

/-- No other year is read back, whether its digits make a 64-bit number or not. -/
theorem year_writeYear_of_not {value : Int} (rest : List Char)
    (h : ¬(-2147483648 ≤ value ∧ value ≤ 2147483647)) :
    year (writeYear value ++ '-' :: rest) = .error .outOfRange := by
  have hFour : ¬(0 ≤ value ∧ value ≤ 9999) := by omega
  have hWidth : yearWidth value.natAbs ≠ 0 := by unfold yearWidth; omega
  have hValue : Nat.ofDigitChars 10 (digits (yearWidth value.natAbs) value.natAbs) 0 =
      value.natAbs := by
    rw [Text.ofDigitChars_digits]
    exact Nat.mod_eq_of_lt (lt_pow_yearWidth _)
  have hNumber : number (digits (yearWidth value.natAbs) value.natAbs ++ '-' :: rest).length
      (digits (yearWidth value.natAbs) value.natAbs ++ '-' :: rest) =
        if value.natAbs < 9223372036854775808 then .ok (value.natAbs, '-' :: rest)
        else .error .outOfRange := by
    rw [number_append (Text.digits_ne_nil hWidth) (fun _ h => Text.isDigit_of_mem_digits h)
      (by simp) (.inr (by simp)), hValue]
  rw [writeYear, if_neg hFour]
  by_cases hNegative : value < 0
  · have hCast : -(value.natAbs : Int) = value := by omega
    have hTrim (chars : List Char) : Text.trimStart ('-' :: chars) = '-' :: chars := rfl
    simp only [if_pos hNegative, List.cons_append, year, hTrim, hNumber]
    split
    · simp only [bind, Except.bind, pure, Except.pure, hCast, if_neg h]
      rfl
    · rfl
  · have hCast : (value.natAbs : Int) = value := by omega
    have hTrim (chars : List Char) : Text.trimStart ('+' :: chars) = '+' :: chars := rfl
    simp only [if_neg hNegative, List.cons_append, year, hTrim, hNumber]
    split
    · simp only [bind, Except.bind, pure, Except.pure, hCast, if_neg h]
      rfl
    · rfl

/-- A written fraction is read back. -/
theorem fraction_digits {width part : Nat} {rest : List Char} (hWidth : 0 < width ∧ width ≤ 9)
    (hFit : part < 10 ^ width) (hRest : ∀ c ∈ rest.head?, c.isDigit = false) :
    fraction ('.' :: (digits width part ++ rest)) = .ok (part * 10 ^ (9 - width), rest) := by
  have hBound : part < 9223372036854775808 := by
    have hPow : 10 ^ width ≤ 10 ^ 9 := Nat.pow_le_pow_right (by decide) hWidth.2
    omega
  have hNumber : number 9 (digits width part ++ rest) = .ok (part, rest) :=
    number_digits (by omega) hWidth.2 hBound hFit (.inr hRest)
  have hDrop : rest.dropWhile Char.isDigit = rest := by
    cases rest with
    | nil => rfl
    | cons c rest => simp [hRest c (by simp)]
  simp [fraction, hNumber, bind, Except.bind, pure, Except.pure, hDrop]

/-- Each way of grouping the fraction is read back as the same number of nanoseconds. -/
theorem fraction_writeFraction {nanos : Nat} {rest : List Char} (h : nanos < 1000000000)
    (hRest : ∀ c ∈ rest.head?, c.isDigit = false ∧ c ≠ '.') :
    fraction (writeFraction nanos ++ rest) = .ok (nanos, rest) := by
  have hDigit : ∀ c ∈ rest.head?, c.isDigit = false := fun c hc => (hRest c hc).1
  by_cases hZero : nanos = 0
  · subst hZero
    cases rest with
    | nil => rfl
    | cons c rest =>
        have hPoint : c ≠ '.' := (hRest c (by simp)).2
        simp only [writeFraction, if_pos, List.nil_append, fraction]
        split
        · next heq => cases heq; exact absurd rfl hPoint
        · rfl
  by_cases hMillis : nanos % 1000000 = 0
  · rw [writeFraction, if_neg hZero, if_pos hMillis, List.cons_append,
      fraction_digits (by decide) (by omega) hDigit]
    simp only [Except.ok.injEq, Prod.mk.injEq, and_true]
    omega
  by_cases hMicros : nanos % 1000 = 0
  · rw [writeFraction, if_neg hZero, if_neg hMillis, if_pos hMicros, List.cons_append,
      fraction_digits (by decide) (by omega) hDigit]
    simp only [Except.ok.injEq, Prod.mk.injEq, and_true]
    omega
  · rw [writeFraction, if_neg hZero, if_neg hMillis, if_neg hMicros, List.cons_append,
      fraction_digits (by decide) (by omega) hDigit]
    simp

/-- The time of day of an instant, a leap second counted as the sixtieth. -/
theorem timeOfDay_bounds (t : Timestamp) :
    t.secondOfDay / 3600 ≤ 23 ∧ t.secondOfDay / 60 % 60 ≤ 59 ∧
      t.secondOfDay % 60 + t.nanos / 1000000000 ≤ 60 := by
  have hDay : t.secondOfDay < 86400 := by unfold Timestamp.secondOfDay; omega
  have hNanos := t.nanos_lt
  omega

/-- The parts of a written instant are read back, whatever form the offset has. -/
theorem read_writeLocal (t : Timestamp) {zone : List Char} (hZone : offset zone = .ok (0, []))
    (hHead : ∀ c ∈ zone.head?, c.isDigit = false ∧ c ≠ '.')
    (hYear : -2147483648 ≤ t.date.year ∧ t.date.year ≤ 2147483647) :
    read (String.ofList (writeLocal t ++ zone)) =
      instant t.date (t.secondOfDay / 3600) (t.secondOfDay / 60 % 60)
        (t.secondOfDay % 60 + t.nanos / 1000000000) (t.nanos % 1000000000) 0 := by
  obtain ⟨hMonth, hMonth', hDay, hDay'⟩ : t.date.Valid := Date.ofDays_valid _
  have hLength := Date.monthLength_le t.date.year t.date.month
  obtain ⟨hHour, hMinute, hSecond⟩ := timeOfDay_bounds t
  have hFraction := fraction_writeFraction
    (Nat.mod_lt t.nanos (show 0 < 1000000000 by decide)) hHead
  have hDash : Text.isBlank '-' = false := by decide
  have hColon : Text.isBlank ':' = false := by decide
  have hMark (chars : List Char) : separator ('T' :: chars) = .ok chars := rfl
  have hNil : Text.trimStart [] = [] := rfl
  simp only [read, String.toList_ofList, writeLocal, List.append_assoc, List.cons_append,
    year_writeYear _ hYear, bind, Except.bind, literal_cons _ hDash, literal_cons _ hColon, hMark,
    part_digits _ hMonth hMonth' (by omega : t.date.month < 100),
    part_digits _ hDay (by omega : t.date.day ≤ 31) (by omega : t.date.day < 100),
    part_digits _ (Nat.zero_le _) hHour (by omega : t.secondOfDay / 3600 < 100),
    part_digits _ (Nat.zero_le _) hMinute (by omega : t.secondOfDay / 60 % 60 < 100),
    part_digits _ (Nat.zero_le _) hSecond
      (by omega : t.secondOfDay % 60 + t.nanos / 1000000000 < 100),
    hFraction, hZone, hNil]
  simp

/-- Day and time of day make up the instant again. -/
theorem instant_parts (t : Timestamp) :
    instant t.date (t.secondOfDay / 3600) (t.secondOfDay / 60 % 60)
        (t.secondOfDay % 60 + t.nanos / 1000000000) (t.nanos % 1000000000) 0 =
      if ¬(-262143 ≤ t.date.year ∧ t.date.year ≤ 262142 ∧ t.date.Valid) then .error .outOfRange
      else if ¬(secondsRange.1 ≤ t.seconds ∧ t.seconds ≤ secondsRange.2) then .error .impossible
      else .ok t := by
  have hNanos := t.nanos_lt
  have hLeap := t.leap
  have hDays : t.date.toDays = t.seconds / 86400 := Date.toDays_ofDays _
  have hSecond : (t.secondOfDay : Int) = t.seconds % 86400 := by
    unfold Timestamp.secondOfDay
    omega
  have hExtra : (t.secondOfDay % 60 + t.nanos / 1000000000) / 60 = t.nanos / 1000000000 := by omega
  have hSeconds : t.date.toDays * 86400 + (t.secondOfDay / 3600 : Nat) * 3600 +
      (t.secondOfDay / 60 % 60 : Nat) * 60 +
      (t.secondOfDay % 60 + t.nanos / 1000000000 - t.nanos / 1000000000 : Nat) - 0 = t.seconds := by
    rw [hDays]
    omega
  have hFraction : t.nanos % 1000000000 + t.nanos / 1000000000 * 1000000000 = t.nanos := by omega
  have hOffset : ¬¬((-86400 : Int) < 0 ∧ (0 : Int) < 86400) := by omega
  have hFit : t.nanos < 2000000000 ∧ (1000000000 ≤ t.nanos → t.seconds % 60 = 59) :=
    ⟨hNanos, hLeap⟩
  rw [instant]
  by_cases hYear : -262143 ≤ t.date.year ∧ t.date.year ≤ 262142 ∧ t.date.Valid
  · rw [if_neg (not_not_intro hYear), if_neg (not_not_intro hYear), if_neg hOffset]
    simp only [hExtra, hSeconds, hFraction, dif_pos hFit]
  · rw [if_pos hYear, if_pos hYear]

/-- No instant is read back as another one. -/
theorem eq_of_read_write {t t' : Timestamp} (h : read (write t) = .ok t') : t' = t := by
  by_cases hYear : -2147483648 ≤ t.date.year ∧ t.date.year ≤ 2147483647
  · rw [write, read_writeLocal t rfl (by simp) hYear, instant_parts] at h
    split at h
    · cases h
    · split at h
      · cases h
      · exact (Except.ok.inj h).symm
  · have hFault (rest : List Char) := year_writeYear_of_not rest hYear
    simp [read, write, writeLocal, hFault, bind, Except.bind] at h

/-- The range of readable instants is a span of whole years. -/
theorem seconds_mem_iff_year {t : Timestamp} :
    (secondsRange.1 ≤ t.seconds ∧ t.seconds ≤ secondsRange.2) ↔
      -262143 ≤ t.date.year ∧ t.date.year ≤ 262142 := by
  have hDays : t.date.toDays = t.seconds / 86400 := Date.toDays_ofDays _
  have hValid : t.date.Valid := Date.ofDays_valid _
  unfold secondsRange
  constructor
  · rintro ⟨hFirst, hLast⟩
    exact Date.year_bounds_of_toDays hValid (by omega) (by omega)
  · rintro ⟨hFirst, hLast⟩
    obtain ⟨hLow, hHigh⟩ := Date.toDays_bounds_of_year hValid hFirst hLast
    constructor <;> omega

/-- Every instant in the range of readable ones is read back. -/
theorem read_writeLocal_zone {t : Timestamp}
    (h : secondsRange.1 ≤ t.seconds ∧ t.seconds ≤ secondsRange.2) {zone : List Char}
    (hZone : offset zone = .ok (0, [])) (hHead : ∀ c ∈ zone.head?, c.isDigit = false ∧ c ≠ '.') :
    read (String.ofList (writeLocal t ++ zone)) = .ok t := by
  have hYear := seconds_mem_iff_year.1 h
  rw [read_writeLocal t hZone hHead (by omega), instant_parts,
    if_neg (not_not_intro ⟨hYear.1, hYear.2, Date.ofDays_valid _⟩), if_neg (not_not_intro h)]

/-- An instant that can be read is read back from its text. -/
theorem read_write {t : Timestamp}
    (h : secondsRange.1 ≤ t.seconds ∧ t.seconds ≤ secondsRange.2) : read (write t) = .ok t :=
  read_writeLocal_zone h rfl (by simp)

/-- The same holds if the offset is written in digits. -/
theorem read_writeWithOffset {t : Timestamp}
    (h : secondsRange.1 ≤ t.seconds ∧ t.seconds ≤ secondsRange.2) :
    read (writeWithOffset t) = .ok t :=
  read_writeLocal_zone h rfl (by simp)

/-- No other instants are read. -/
theorem seconds_mem_of_instant {date : Date} {hour minute second nanos : Nat} {offset : Int}
    {t : Timestamp} (h : instant date hour minute second nanos offset = .ok t) :
    secondsRange.1 ≤ t.seconds ∧ t.seconds ≤ secondsRange.2 := by
  rw [instant] at h
  split at h
  · cases h
  · split at h
    · cases h
    · dsimp only at h
      split at h
      · cases h
      · next hRange =>
          split at h
          · cases h
            exact Classical.not_not.1 hRange
          · cases h

/-- Whatever is read lies in the range of readable instants, so it is read back when written. -/
theorem seconds_mem_of_read {text : String} {t : Timestamp} (h : read text = .ok t) :
    secondsRange.1 ≤ t.seconds ∧ t.seconds ≤ secondsRange.2 := by
  simp only [read, Except.bind_eq_ok_iff] at h
  obtain ⟨_, -, _, -, _, -, _, -, _, -, _, -, _, -, _, -, _, -, _, -, _, -, _, -, _, -, hEnd⟩ := h
  split at hEnd
  · cases hEnd
  · exact seconds_mem_of_instant hEnd

end Rfc3339

end Reconciliation
