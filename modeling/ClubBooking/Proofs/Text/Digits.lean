import ClubBooking.Text.Characters
import ClubBooking.Text.Hex
import ClubBooking.Text.Numeral
import Mathlib.Data.List.TakeWhile

/-! Rows of digits: how long a number is when it is written to a width, and that reading it gives it
back. A row is read to its end if no further digit follows it. A numeral is a row of digits that may
carry a plus sign; those below a limit are the only texts that are read as numbers below it. -/

namespace ClubBooking.Text
variable {width n : Nat} {c : Char} {cs ds : List Char}

theorem digits_ne_nil (n : Nat) : digits n ≠ [] := Nat.toDigits_ne_nil

theorem length_digits_le (hwidth : 0 < width) (h : n < 10 ^ width) :
    (digits n).length ≤ width := (Nat.length_toDigits_le_iff (by decide) hwidth).2 h

theorem eq_zero_of_head?_digits (h : (digits n).head? = some '0') : n = 0 := by
  induction n using Nat.strong_induction_on with
  | h n ih =>
    rw [digits, Nat.toDigits_eq_if (by decide)] at h
    split at h
    · simpa using h
    · next hn =>
      have hhead : (digits (n / 10)).head? = some '0' := by
        obtain ⟨d, ds, hds⟩ := List.exists_cons_of_ne_nil (digits_ne_nil (n / 10))
        rw [← digits, hds] at h
        rw [hds]
        exact h
      have hzero := ih (n / 10) (by omega) hhead
      omega

theorem padded_ne_nil (width n : Nat) : padded width n ≠ [] := by
  simp [padded, digits_ne_nil]

theorem length_padded (hwidth : 0 < width) (h : n < 10 ^ width) :
    (padded width n).length = width := by
  have hle := length_digits_le hwidth h
  simp only [padded, List.length_append, List.length_replicate]
  omega

theorem le_length_padded (width n : Nat) : width ≤ (padded width n).length := by
  simp only [padded, List.length_append, List.length_replicate]
  omega

theorem isDigit_of_mem_padded (hc : c ∈ padded width n) : isDigit c := by
  rcases List.mem_append.1 hc with hc | hc
  · rw [List.eq_of_mem_replicate hc]
    decide
  · exact isDigit_of_mem_digits hc

theorem ofDigitChars_padded (width n : Nat) : Nat.ofDigitChars 10 (padded width n) 0 = n := by
  rw [padded, Nat.ofDigitChars_append, Nat.ofDigitChars_replicate_zero, Nat.mul_zero,
    ofDigitChars_digits]

theorem ne_of_isDigit {d : Char} (hd : isDigit d) (hc : isDigit c = false) : d ≠ c := by
  rintro rfl
  rw [hd] at hc
  cases hc

theorem exists_cons_of_digits (hne : ds ≠ []) (hds : ∀ c ∈ ds, isDigit c) :
    ∃ d rest, ds = d :: rest ∧ isDigit d := by
  obtain ⟨d, rest, rfl⟩ := List.exists_cons_of_ne_nil hne
  exact ⟨d, rest, rfl, hds d (List.mem_cons_self ..)⟩

theorem isBlank_of_isDigit (h : isDigit c) : isBlank c = false := by
  simp only [isDigit, Bool.and_eq_true, decide_eq_true_eq, Char.le_def] at h
  have hleast : 48 ≤ c.toNat := h.1
  have hmost : c.toNat ≤ 57 := h.2
  simp only [isBlank, Bool.or_eq_false_iff, Bool.and_eq_false_iff, decide_eq_false_iff_not,
    beq_eq_false_iff_ne]
  omega

theorem trimLeft_cons (h : isBlank c = false) : trimLeft (c :: cs) = c :: cs := by
  simp [trimLeft, h]

theorem trimLeft_digits (hne : ds ≠ []) (hds : ∀ c ∈ ds, isDigit c) :
    trimLeft (ds ++ cs) = ds ++ cs := by
  obtain ⟨d, rest, rfl, hd⟩ := exists_cons_of_digits hne hds
  exact trimLeft_cons (isBlank_of_isDigit hd)

def NoDigit (cs : List Char) : Prop := ∀ c ∈ cs.head?, isDigit c = false

theorem noDigit_nil : NoDigit [] := by simp [NoDigit]

theorem noDigit_cons : NoDigit (c :: cs) ↔ isDigit c = false := by simp [NoDigit]

theorem NoDigit.takeWhile_eq (h : NoDigit cs) : cs.takeWhile isDigit = [] := by
  cases cs with
  | nil => rfl
  | cons c cs => simp [noDigit_cons.1 h]

theorem NoDigit.dropWhile_eq (h : NoDigit cs) : cs.dropWhile isDigit = cs := by
  cases cs with
  | nil => rfl
  | cons c cs => simp [noDigit_cons.1 h]

theorem takeWhile_digits (hds : ∀ c ∈ ds, isDigit c) (h : NoDigit cs) :
    (ds ++ cs).takeWhile isDigit = ds := by
  rw [List.takeWhile_append_of_pos hds, h.takeWhile_eq, List.append_nil]

theorem dropWhile_digits (hds : ∀ c ∈ ds, isDigit c) (h : NoDigit cs) :
    (ds ++ cs).dropWhile isDigit = cs := by
  rw [List.dropWhile_append_of_pos hds, h.dropWhile_eq]

theorem isDigit_iff_le : isDigit c ↔ '0' ≤ c ∧ c ≤ '9' := by simp [isDigit]

structure IsDigitRow (ds : List Char) (n : Nat) : Prop where
  ne_nil : ds ≠ []
  digits : ∀ c ∈ ds, '0' ≤ c ∧ c ≤ '9'
  value : Nat.ofDigitChars 10 ds 0 = n

inductive IsNumeral : List Char → Nat → Prop where
  | bare {ds : List Char} {n : Nat} (h : IsDigitRow ds n) : IsNumeral ds n
  | signed {ds : List Char} {n : Nat} (h : IsDigitRow ds n) : IsNumeral ('+' :: ds) n

theorem isDigitRow_iff :
    IsDigitRow ds n ↔ ds ≠ [] ∧ ds.all isDigit ∧ Nat.ofDigitChars 10 ds 0 = n := by
  simp only [List.all_eq_true, isDigit_iff_le]
  exact ⟨fun h => ⟨h.ne_nil, h.digits, h.value⟩, fun ⟨hne, hds, hvalue⟩ => ⟨hne, hds, hvalue⟩⟩

instance (ds : List Char) (n : Nat) : Decidable (IsDigitRow ds n) :=
  decidable_of_iff' _ isDigitRow_iff

theorem isDigitRow_padded (width n : Nat) : IsDigitRow (padded width n) n :=
  ⟨padded_ne_nil width n, fun _ hc => isDigit_iff_le.1 (isDigit_of_mem_padded hc),
    ofDigitChars_padded width n⟩

theorem not_isDigitRow_plus : ¬ IsDigitRow ('+' :: ds) n :=
  fun h => absurd (h.digits '+' (List.mem_cons_self ..)) (by decide)

theorem isNumeral_plus : IsNumeral ('+' :: ds) n ↔ IsDigitRow ds n := by
  constructor
  · intro h
    cases h with
    | bare h => exact absurd h not_isDigitRow_plus
    | signed h => exact h
  · exact .signed

theorem isNumeral_of_ne_plus (hplus : ∀ ds, cs ≠ '+' :: ds) :
    IsNumeral cs n ↔ IsDigitRow cs n := by
  constructor
  · intro h
    cases h with
    | bare h => exact h
    | signed h => exact absurd rfl (hplus _)
  · exact .bare

theorem IsNumeral.eq_plus_or_digit (h : IsNumeral cs n) (hc : c ∈ cs) :
    c = '+' ∨ '0' ≤ c ∧ c ≤ '9' := by
  cases h with
  | bare h => exact .inr (h.digits c hc)
  | signed h => exact (List.mem_cons.1 hc).imp_right (h.digits c)

theorem bounded_zero_eq_ok_iff {limit : Nat} (hlimit : 0 < limit) (hne : ds ≠ []) :
    bounded limit 0 ds = .ok n ↔ IsDigitRow ds n ∧ n < limit := by
  rw [bounded_eq_ok_iff hlimit, isDigitRow_iff, List.all_eq_true]
  simp only [ne_eq, hne, not_false_eq_true, true_and, and_assoc]

theorem unsigned_eq_ok_iff {limit : Nat} (hlimit : 0 < limit) :
    unsigned limit cs = .ok n ↔ IsNumeral cs n ∧ n < limit := by
  unfold unsigned
  split
  · have hempty : ¬ IsNumeral [] n := by
      rw [isNumeral_of_ne_plus (by simp)]
      exact fun h => h.ne_nil rfl
    simp [hempty]
  · have hsign : ¬ IsNumeral ['+'] n := fun h => (isNumeral_plus.1 h).ne_nil rfl
    simp [hsign]
  · next ds hne =>
    rw [isNumeral_plus, bounded_zero_eq_ok_iff hlimit hne]
  · next hne _ hplus =>
    rw [isNumeral_of_ne_plus hplus, bounded_zero_eq_ok_iff hlimit hne]

theorem hexValue?_digitChar (h : n < 16) : hexValue? n.digitChar = some n := by
  have hall : ∀ m < 16, hexValue? m.digitChar = some m := by decide
  exact hall n h

theorem hexNumber_toDigits (n : Nat) : hexNumber 0 (Nat.toDigits 16 n) = some n := by
  induction n using Nat.strong_induction_on with
  | h n ih =>
    rw [Nat.toDigits_eq_if (by decide)]
    split
    · next hn => simp [hexNumber, hexValue?_digitChar hn]
    · next hn =>
      have hmod : n % 16 < 16 := Nat.mod_lt n (by decide)
      rw [hexNumber_append, ih (n / 16) (by omega)]
      simp only [Option.bind_some, hexNumber, hexValue?_digitChar hmod, bind]
      rw [Nat.div_add_mod]

theorem hexNumber_replicate_zero (k : Nat) : hexNumber 0 (List.replicate k '0') = some 0 := by
  induction k with
  | zero => rfl
  | succ k ih =>
    rw [List.replicate_succ, hexNumber, show hexValue? '0' = some 0 from rfl]
    exact ih

theorem hexNumber_hexPadded (width n : Nat) : hexNumber 0 (hexPadded width n) = some n := by
  rw [hexPadded, hexNumber_append, hexNumber_replicate_zero]
  exact hexNumber_toDigits n

theorem length_hexPadded (hwidth : 0 < width) (h : n < 16 ^ width) :
    (hexPadded width n).length = width := by
  have hle : (Nat.toDigits 16 n).length ≤ width :=
    (Nat.length_toDigits_le_iff (by decide) hwidth).2 h
  simp only [hexPadded, List.length_append, List.length_replicate]
  omega

end ClubBooking.Text
