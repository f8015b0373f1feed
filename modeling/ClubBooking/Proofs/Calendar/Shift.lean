import ClubBooking.Interval.DateRange

/-! Moving ahead along the calendar. An instant moved by whole seconds has the position one
computes, whether or not it starts from a leap second, and it exists unless its date would lie past
the last one. So to ask whether another instant is reached by then is to compare numbers of
nanoseconds, and the end of the calendar is never felt. -/

namespace ClubBooking

theorem TimeOfDay.isLeap_eq_false_iff {t : TimeOfDay} : t.isLeap = false ↔ t.nano < 1000000000 := by
  rw [isLeap, decide_eq_false_iff_not, Nat.not_le]

namespace DateTime
variable {t u : DateTime} {m n : Int}

theorem ofSeconds?_eq_some_iff {day seconds : Int} {nano : Nat} {h : nano < 1000000000} :
    ofSeconds? day seconds nano h = some u ↔
      u.date.day = day + seconds / 86400 ∧ u.time.second = (seconds % 86400).toNat ∧
        u.time.nano = nano := by
  rw [ofSeconds?, Option.map_eq_some_iff]
  constructor
  · rintro ⟨d, hd, rfl⟩
    exact ⟨Date.ofDay?_eq_some_iff.1 hd, rfl, rfl⟩
  · rintro ⟨hday, hsecond, rfl⟩
    refine ⟨u.date, Date.ofDay?_eq_some_iff.2 hday, ?_⟩
    obtain ⟨date, second, nano, _, _⟩ := u
    simp only at hsecond
    subst hsecond
    rfl

theorem rank_of_ofSeconds? {day seconds : Int} {nano : Nat} {h : nano < 1000000000}
    (hu : ofSeconds? day seconds nano h = some u) :
    u.rank = (86400 * day + seconds) * 2000000000 + nano := by
  obtain ⟨hday, hsecond, hnano⟩ := ofSeconds?_eq_some_iff.1 hu
  unfold rank TimeOfDay.rank
  omega

theorem exists_ofSeconds?_of_le {day l k : Int} {nano : Nat} {h : nano < 1000000000}
    (hday : -95745824 ≤ day) (hl : 0 ≤ l) (hlk : l ≤ k)
    (hu : ofSeconds? day k nano h = some u) : ∃ v, ofSeconds? day l nano h = some v := by
  have hk := (ofSeconds?_eq_some_iff.1 hu).1
  have hlast := u.date.le_last
  have hdate : Date.ofDay? (day + l / 86400) =
      some ⟨day + l / 86400, by omega, by omega⟩ := Date.ofDay?_eq_some_iff.2 rfl
  rw [ofSeconds?, hdate]
  exact ⟨_, rfl⟩

theorem addSeconds?_mono (hm : 0 ≤ m) (hmn : m ≤ n) (hu : t.addSeconds? n = some u) :
    ∃ v, t.addSeconds? m = some v ∧ v ≤ u := by
  have hfirst := t.date.first_le
  unfold addSeconds? at hu ⊢
  by_cases hnano : t.time.nano < 1000000000
  · rw [dif_pos hnano] at hu ⊢
    obtain ⟨v, hv⟩ := exists_ofSeconds?_of_le hfirst (l := t.time.second + m) (by omega)
      (by omega) hu
    refine ⟨v, hv, ?_⟩
    rw [le_iff, rank_of_ofSeconds? hu, rank_of_ofSeconds? hv]
    omega
  -- from a leap second a step of zero stays, and any other one starts a second earlier
  rw [dif_neg hnano] at hu ⊢
  by_cases hm0 : m = 0
  · rw [if_pos hm0]
    refine ⟨t, rfl, ?_⟩
    by_cases hn0 : n = 0
    · rw [if_pos hn0] at hu
      cases hu
      exact Int.le_refl _
    · rw [if_neg hn0, if_neg (by omega : ¬ n < 0)] at hu
      rw [le_iff, rank_of_ofSeconds? hu]
      unfold rank TimeOfDay.rank
      omega
  · rw [if_neg (by omega : ¬ n = 0), if_neg (by omega : ¬ n < 0)] at hu
    rw [if_neg hm0, if_neg (by omega : ¬ m < 0)]
    obtain ⟨v, hv⟩ := exists_ofSeconds?_of_le hfirst (l := t.time.second + m + 0) (by omega)
      (by omega) hu
    refine ⟨v, hv, ?_⟩
    rw [le_iff, rank_of_ofSeconds? hu, rank_of_ofSeconds? hv]
    omega

/-- Nanoseconds from the midnight that begins day 0, on a clock without leap seconds. -/
def nanos (t : DateTime) : Int :=
  (t.date.day * 86400 + t.time.second) * 1000000000 + t.time.nano

section Exact
variable (ht : t.time.isLeap = false) (hu : u.time.isLeap = false)
include ht

theorem nanos_of_addSeconds? (h : t.addSeconds? n = some u) :
    u.nanos = t.nanos + n * 1000000000 ∧ u.time.isLeap = false := by
  have hnano := TimeOfDay.isLeap_eq_false_iff.1 ht
  rw [addSeconds?, dif_pos hnano] at h
  obtain ⟨hday, hsecond, hsame⟩ := ofSeconds?_eq_some_iff.1 h
  refine ⟨?_, TimeOfDay.isLeap_eq_false_iff.2 (hsame ▸ hnano)⟩
  unfold nanos
  omega

include hu

theorem le_iff_nanos_le : t ≤ u ↔ t.nanos ≤ u.nanos := by
  have htNano := TimeOfDay.isLeap_eq_false_iff.1 ht
  have huNano := TimeOfDay.isLeap_eq_false_iff.1 hu
  have htSecond := t.time.second_lt
  have huSecond := u.time.second_lt
  rw [le_iff]
  unfold rank TimeOfDay.rank nanos
  omega

theorem lt_iff_nanos_lt : t < u ↔ t.nanos < u.nanos := by
  rw [lt_iff, ← Int.not_le, ← le_iff, le_iff_nanos_le hu ht, Int.not_le]

theorem eq_iff_nanos_eq : t = u ↔ t.nanos = u.nanos := by
  constructor
  · rintro rfl
    rfl
  · intro h
    have hle := (le_iff_nanos_le ht hu).2 (Int.le_of_eq h)
    have hge := (le_iff_nanos_le hu ht).2 (Int.le_of_eq h.symm)
    exact rank_inj (Int.le_antisymm hle hge)

theorem nanos_lt_of_addSeconds?_eq_none (hn : 0 ≤ n) (h : t.addSeconds? n = none) :
    u.nanos < t.nanos + n * 1000000000 := by
  have htNano := TimeOfDay.isLeap_eq_false_iff.1 ht
  have huNano := TimeOfDay.isLeap_eq_false_iff.1 hu
  have hfirst := t.date.first_le
  have hlast := u.date.le_last
  have hsecond := u.time.second_lt
  rw [addSeconds?, dif_pos htNano, ofSeconds?, Option.map_eq_none_iff] at h
  have hpast : 95745704 < t.date.day + (t.time.second + n) / 86400 := by
    refine Int.not_le.1 fun hle => ?_
    have hdate : Date.ofDay? (t.date.day + (t.time.second + n) / 86400) =
        some ⟨_, by omega, hle⟩ := Date.ofDay?_eq_some_iff.2 rfl
    rw [hdate] at h
    cases h
  unfold nanos
  omega

theorem exists_addSeconds?_le_iff (hn : 0 ≤ n) :
    (∃ v, t.addSeconds? n = some v ∧ v ≤ u) ↔ t.nanos + n * 1000000000 ≤ u.nanos := by
  constructor
  · rintro ⟨v, hv, hle⟩
    obtain ⟨hnanos, hvLeap⟩ := nanos_of_addSeconds? ht hv
    rw [← hnanos]
    exact (le_iff_nanos_le hvLeap hu).1 hle
  · intro hle
    cases hv : t.addSeconds? n with
    | none =>
      have hlt := nanos_lt_of_addSeconds?_eq_none ht hu hn hv
      omega
    | some v =>
      obtain ⟨hnanos, hvLeap⟩ := nanos_of_addSeconds? ht hv
      exact ⟨v, rfl, (le_iff_nanos_le hvLeap hu).2 (hnanos ▸ hle)⟩

theorem forall_le_addSeconds?_iff (hn : 0 ≤ n) :
    (∀ v, t.addSeconds? n = some v → u ≤ v) ↔ u.nanos ≤ t.nanos + n * 1000000000 := by
  constructor
  · intro h
    cases hv : t.addSeconds? n with
    | none => exact Int.le_of_lt (nanos_lt_of_addSeconds?_eq_none ht hu hn hv)
    | some v =>
      obtain ⟨hnanos, hvLeap⟩ := nanos_of_addSeconds? ht hv
      rw [← hnanos]
      exact (le_iff_nanos_le hu hvLeap).1 (h v hv)
  · intro hle v hv
    obtain ⟨hnanos, hvLeap⟩ := nanos_of_addSeconds? ht hv
    exact (le_iff_nanos_le hu hvLeap).2 (hnanos ▸ hle)

end Exact

end DateTime

namespace DateRange
variable {r : DateRange} {d : Date} {m n : UInt32}

theorem first_extendedBy (r : DateRange) (n : UInt32) : (r.extendedBy n).first = r.first := by
  unfold extendedBy
  split <;> rfl

theorem day_last_extendedBy (r : DateRange) (n : UInt32) :
    (r.extendedBy n).last.day = min (r.last.day + n.toNat) 95745704 := by
  have hlast := r.last.le_last
  have hfirst := r.last.first_le
  unfold extendedBy
  split
  · next d h =>
    have hd := Date.day_of_addDays? h
    have := d.le_last
    show d.day = _
    omega
  · next h =>
    have hout : ¬ r.last.day + n.toNat ≤ 95745704 := by
      intro hle
      have hdate := Date.ofDay?_eq_some_iff (n := r.last.day + n.toNat)
        (d := ⟨r.last.day + n.toNat, by omega, hle⟩)
      rw [Date.addDays?, hdate.2 rfl] at h
      cases h
    show (95745704 : Int) = _
    omega

theorem contains_extendedBy_iff (r : DateRange) (n : UInt32) (d : Date) :
    (r.extendedBy n).contains d ↔ r.first.day ≤ d.day ∧ d.day ≤ r.last.day + n.toNat := by
  have hlast := d.le_last
  rw [contains_iff, first_extendedBy, Date.le_iff, Date.le_iff, day_last_extendedBy]
  omega

theorem contains_extendedBy_mono (hmn : m ≤ n) (h : (r.extendedBy m).contains d) :
    (r.extendedBy n).contains d := by
  rw [UInt32.le_iff_toNat_le] at hmn
  rw [contains_extendedBy_iff] at h ⊢
  omega

end DateRange
end ClubBooking
