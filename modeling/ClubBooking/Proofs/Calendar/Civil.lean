import ClubBooking.Calendar.Date

/-! A day number has a year, a month and a day, and these have that day number. Years are taken to
start in March; a day of an era of 400 years lies in a century of it, in a group of four years of
that, and in a year of the group, the last of which alone may be a day longer. -/

namespace ClubBooking.Civil

/-- A day of an era: its century, the group of years in that, the year of the group, and the day of
that year. -/
structure Splits (day century group year rest : Int) : Prop where
  sum : day = 36524 * century + 1461 * group + 365 * year + rest
  century_nonneg : 0 ≤ century
  century_le : century ≤ 3
  group_nonneg : 0 ≤ group
  group_le : group ≤ 24
  year_nonneg : 0 ≤ year
  year_le : year ≤ 3
  rest_nonneg : 0 ≤ rest
  rest_le : rest ≤ 364 ∨ rest = 365 ∧ year = 3 ∧ (group ≤ 23 ∨ century = 3)

variable {day c g y d : Int}

theorem exists_splits (hday : 0 ≤ day) (hera : day ≤ 146096) : ∃ c g y d, Splits day c g y d := by
  obtain ⟨c, r, hr, hc, hc', hr₀, hr₁⟩ : ∃ c r, day = 36524 * c + r ∧ 0 ≤ c ∧ c ≤ 3 ∧ 0 ≤ r ∧
      (r ≤ 36523 ∨ r = 36524 ∧ c = 3) := by
    by_cases h : day = 146096
    · exact ⟨3, 36524, by omega⟩
    · exact ⟨day / 36524, day % 36524, by omega⟩
  obtain ⟨g, t, ht, hg, hg', ht₀, ht₁⟩ : ∃ g t, r = 1461 * g + t ∧ 0 ≤ g ∧ g ≤ 24 ∧ 0 ≤ t ∧
      (t ≤ 1459 ∨ t = 1460 ∧ (g ≤ 23 ∨ c = 3)) :=
    ⟨r / 1461, r % 1461, by omega⟩
  obtain ⟨y, d, hd, hy, hy', hd₀, hd₁⟩ : ∃ y d, t = 365 * y + d ∧ 0 ≤ y ∧ y ≤ 3 ∧ 0 ≤ d ∧
      (d ≤ 364 ∨ d = 365 ∧ y = 3 ∧ t = 1460) := by
    by_cases h : t = 1460
    · exact ⟨3, 365, by omega⟩
    · exact ⟨t / 365, t % 365, by omega⟩
  exact ⟨c, g, y, d, by omega, hc, hc', hg, hg', hy, hy', hd₀, by omega⟩

theorem Splits.year_eq (h : Splits day c g y d) :
    (day - day / 1460 + day / 36524 - day / 146096) / 365 = 100 * c + 4 * g + y := by
  obtain ⟨hsum, hc, hc', hg, hg', hy, hy', hd, hd'⟩ := h
  have hcases : c = 0 ∨ c = 1 ∨ c = 2 ∨ c = 3 := by omega
  have hcentury : day / 36524 - day / 146096 = c := by
    have hlast : day ≤ 36524 * c + 36523 ∨ c = 3 ∧ day = 146096 := by omega
    rcases hcases with rfl | rfl | rfl | rfl <;> omega
  -- near the end of a group its leap day may be counted a little early, within its last year
  obtain ⟨w, hw⟩ : ∃ w, day / 1460 = w := ⟨_, rfl⟩
  have hgroup : w = 25 * c + g ∨ w = 25 * c + g + 1 ∧ 1364 ≤ 365 * y + d := by omega
  have hleap : w = 25 * c + g + 1 ∨ d ≤ 364 := by omega
  rw [show day - day / 1460 + day / 36524 - day / 146096 = day - w + c by omega]
  clear hcentury
  omega

def ofMarch (y d : Int) : Civil :=
  let m := (5 * d + 2) / 153
  let month := (if m < 10 then m + 3 else m - 9).toNat
  ⟨if month ≤ 2 then y + 1 else y, month, (d - (153 * m + 2) / 5 + 1).toNat⟩

theorem ofDayNumber_eq_ofMarch {n : Int} (h : Splits (n % 146097) c g y d) :
    ofDayNumber n = ofMarch (400 * (n / 146097) + (100 * c + 4 * g + y)) d := by
  have hrest : n % 146097 - (365 * (100 * c + 4 * g + y) + (100 * c + 4 * g + y) / 4 -
      (100 * c + 4 * g + y) / 100) = d := by
    obtain ⟨hsum, hc, hc', hg, hg', hy, hy', -, -⟩ := h
    omega
  simp only [ofDayNumber, ofMarch, h.year_eq, hrest]

theorem dayNumber_ofMarch (y : Int) (hd : 0 ≤ d) (hd' : d ≤ 365) :
    (ofMarch y d).dayNumber = 365 * y + y / 4 - y / 100 + y / 400 + d := by
  obtain ⟨m, hm⟩ : ∃ m, (5 * d + 2) / 153 = m := ⟨_, rfl⟩
  simp only [ofMarch, dayNumber, hm]
  have hmonth : m < 10 ∨ m = 10 ∨ m = 11 := by omega
  rcases hmonth with hlow | rfl | rfl
  · rw [if_pos hlow]
    have hyear : ¬ (m + 3).toNat ≤ 2 := by omega
    have hback : ((((m + 3).toNat + 9) % 12 : Nat) : Int) = m := by omega
    rw [if_neg hyear, if_neg hyear, hback]
    omega
  · simp
    omega
  · simp
    omega

theorem monthLength_le (year : Int) (month : Nat) : monthLength year month ≤ 31 := by
  unfold monthLength
  split
  · split <;> omega
  · split <;> omega

theorem isValid_ofMarch (y : Int) (hd : 0 ≤ d) (hd' : d ≤ 364 ∨ d = 365 ∧ isLeap (y + 1)) :
    (ofMarch y d).IsValid := by
  obtain ⟨m, hm⟩ : ∃ m, (5 * d + 2) / 153 = m := ⟨_, rfl⟩
  have hmonth : m = 0 ∨ m = 1 ∨ m = 2 ∨ m = 3 ∨ m = 4 ∨ m = 5 ∨ m = 6 ∨ m = 7 ∨ m = 8 ∨ m = 9 ∨
      m = 10 ∨ m = 11 := by omega
  simp only [ofMarch, hm, IsValid]
  rcases hmonth with rfl | rfl | rfl | rfl | rfl | rfl | rfl | rfl | rfl | rfl | rfl | rfl
  case inr.inr.inr.inr.inr.inr.inr.inr.inr.inr.inr =>
    have hlength : d ≤ 364 ∨ d = 365 ∧ monthLength (y + 1) 2 = 29 :=
      hd'.imp_right fun h => ⟨h.1, by simp [monthLength, h.2]⟩
    have hleast : 28 ≤ monthLength (y + 1) 2 := by
      rw [monthLength, if_pos rfl]
      split <;> omega
    simp
    omega
  all_goals
    simp [monthLength]
    omega

theorem Splits.isLeap (h : Splits day c g y d) (hd : d = 365) (e : Int) :
    isLeap (400 * e + (100 * c + 4 * g + y) + 1) := by
  obtain ⟨-, hc, hc', hg, hg', -, -, -, hrest⟩ := h
  have hfour : (400 * e + (100 * c + 4 * g + y) + 1) % 4 = 0 := by omega
  have hcentury : (400 * e + (100 * c + 4 * g + y) + 1) % 100 ≠ 0 ∨
      (400 * e + (100 * c + 4 * g + y) + 1) % 400 = 0 := by omega
  simp only [Civil.isLeap, hfour, beq_self_eq_true, Bool.true_and, Bool.or_eq_true, bne_iff_ne,
    beq_iff_eq]
  exact hcentury

theorem exists_splits_era (n : Int) : ∃ c g y d, Splits (n % 146097) c g y d :=
  exists_splits (by omega) (by omega)

theorem dayNumber_ofDayNumber (n : Int) : (ofDayNumber n).dayNumber = n := by
  obtain ⟨c, g, y, d, h⟩ := exists_splits_era n
  have hd : d ≤ 365 := by
    have hle := h.rest_le
    omega
  rw [ofDayNumber_eq_ofMarch h, dayNumber_ofMarch _ h.rest_nonneg hd]
  obtain ⟨hsum, hc, hc', hg, hg', hy, hy', -, -⟩ := h
  omega

theorem isValid_ofDayNumber (n : Int) : (ofDayNumber n).IsValid := by
  obtain ⟨c, g, y, d, h⟩ := exists_splits_era n
  rw [ofDayNumber_eq_ofMarch h]
  exact isValid_ofMarch _ h.rest_nonneg (h.rest_le.imp_right fun hd => ⟨hd.1, h.isLeap hd.1 _⟩)

end ClubBooking.Civil

theorem ClubBooking.Date.ofCivil?_civil (d : Date) : ofCivil? d.civil = some d := by
  rw [ofCivil?, civil, if_pos (Civil.isValid_ofDayNumber d.day), Civil.dayNumber_ofDayNumber,
    ofDay?_day]
