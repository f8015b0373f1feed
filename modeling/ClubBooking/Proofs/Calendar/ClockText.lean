import ClubBooking.Document.EligibilityPlan
import ClubBooking.Proofs.Calendar.Text
import ClubBooking.Proofs.Refusal

/-! The texts that tell a time of day: two numerals, of hours below 24 and of minutes below 60, with
a colon between. Exactly these are read, as the start of the minute that they tell. -/

namespace ClubBooking.TimeOfDay
variable {s : String} {t : TimeOfDay} {hour minute : Nat}

structure IsClockText (s : String) (hour minute : Nat) : Prop where
  parts : ∃ hs ms, s.toList = hs ++ ':' :: ms ∧ Text.IsNumeral hs hour ∧ Text.IsNumeral ms minute
  hour_lt : hour < 24
  minute_lt : minute < 60

structure IsAt (t : TimeOfDay) (hour minute : Nat) : Prop where
  hour_eq : t.hour = hour
  minute_eq : t.minute = minute
  second_eq : t.second % 60 = 0
  nano_eq : t.nano = 0

def IsToldBy (t : TimeOfDay) (s : String) : Prop :=
  ∃ hour minute, IsClockText s hour minute ∧ t.IsAt hour minute

theorem ofHourMinute?_eq_some_iff :
    ofHourMinute? hour minute = some t ↔ (hour < 24 ∧ minute < 60) ∧ t.IsAt hour minute := by
  obtain ⟨second, nano, hsecond, hnano⟩ := t
  unfold ofHourMinute?
  split
  · next hbounds =>
    simp only [Option.some.injEq, mk.injEq, hbounds, true_and]
    constructor
    · rintro ⟨rfl, rfl⟩
      constructor <;> simp only [TimeOfDay.hour, TimeOfDay.minute] <;> omega
    · rintro ⟨hhour, hminute, hwhole, hzero⟩
      simp only [TimeOfDay.hour, TimeOfDay.minute] at hhour hminute hwhole hzero
      omega
  · next hbounds => simp [hbounds]

theorem exists_isAt (hhour : hour < 24) (hminute : minute < 60) :
    ∃ t : TimeOfDay, t.IsAt hour minute :=
  ⟨_, (ofHourMinute?_eq_some_iff.1 (dif_pos ⟨hhour, hminute⟩)).2⟩

theorem exists_isToldBy_iff :
    (∃ t : TimeOfDay, t.IsToldBy s) ↔ ∃ hour minute, IsClockText s hour minute := by
  constructor
  · rintro ⟨t, hour, minute, htext, -⟩
    exact ⟨hour, minute, htext⟩
  · rintro ⟨hour, minute, htext⟩
    obtain ⟨t, ht⟩ := exists_isAt htext.hour_lt htext.minute_lt
    exact ⟨t, hour, minute, htext, ht⟩

theorem clockPart_eq_ok_iff {cs : List Char} {fault : Misconfiguration} {n : Nat} :
    clockPart cs fault = .ok n ↔ Text.IsNumeral cs n ∧ n < 4294967296 := by
  rw [← Text.unsigned_eq_ok_iff (by decide)]
  cases h : Text.unsigned 4294967296 cs <;> simp [clockPart, h]

theorem ofClockText_of_splitOn {hs ms : List Char} (hsplit : s.toList.splitOn ':' = [hs, ms]) :
    ofClockText s = .ok t ↔ ∃ hour minute, (Text.IsNumeral hs hour ∧ Text.IsNumeral ms minute) ∧
      (hour < 24 ∧ minute < 60) ∧ t.IsAt hour minute := by
  simp only [ofClockText, hsplit, bind_eq_ok_iff, clockPart_eq_ok_iff]
  constructor
  · rintro ⟨hour, ⟨hhs, -⟩, minute, ⟨hms, -⟩, h⟩
    refine ⟨hour, minute, ⟨hhs, hms⟩, ofHourMinute?_eq_some_iff.1 ?_⟩
    split at h
    · cases h
    · split at h
      · next hfound =>
        cases h
        exact hfound
      · cases h
  · rintro ⟨hour, minute, ⟨hhs, hms⟩, ⟨hhour, hminute⟩, hat⟩
    refine ⟨hour, ⟨hhs, by omega⟩, minute, ⟨hms, by omega⟩, ?_⟩
    rw [if_neg (by omega), ofHourMinute?_eq_some_iff.2 ⟨⟨hhour, hminute⟩, hat⟩]

theorem eq_of_splitOn {c : Char} {cs as bs : List Char} (h : cs.splitOn c = [as, bs]) :
    cs = as ++ c :: bs := by
  have hjoined : [c].intercalate (cs.splitOn c) = cs := List.intercalate_splitOn c
  rw [h] at hjoined
  simpa using hjoined.symm

theorem splitOn_colon {hs ms : List Char} (hhs : Text.IsNumeral hs hour)
    (hms : Text.IsNumeral ms minute) : (hs ++ ':' :: ms).splitOn ':' = [hs, ms] := by
  -- no numeral has a colon, so the one between them is the only one
  have hnone {cs : List Char} {n : Nat} (h : Text.IsNumeral cs n) : ':' ∉ cs := fun hmem =>
    absurd (h.eq_plus_or_digit hmem) (by decide)
  rw [List.splitOn_append_cons_self_of_not_mem (hnone hhs), List.splitOn_eq_singleton (hnone hms)]

theorem ofClockText_eq_ok_iff : ofClockText s = .ok t ↔ t.IsToldBy s := by
  constructor
  · intro h
    obtain ⟨hs, ms, hsplit⟩ : ∃ hs ms, s.toList.splitOn ':' = [hs, ms] := by
      unfold ofClockText at h
      split at h
      · next hs ms hsplit => exact ⟨hs, ms, hsplit⟩
      · cases h
    obtain ⟨hour, minute, hparts, hbounds, hat⟩ := (ofClockText_of_splitOn hsplit).1 h
    exact ⟨hour, minute, ⟨⟨hs, ms, eq_of_splitOn hsplit, hparts⟩, hbounds.1, hbounds.2⟩, hat⟩
  · rintro ⟨hour, minute, ⟨⟨hs, ms, htext, hparts⟩, hhour, hminute⟩, hat⟩
    have hsplit : s.toList.splitOn ':' = [hs, ms] := by
      rw [htext, splitOn_colon hparts.1 hparts.2]
    exact (ofClockText_of_splitOn hsplit).2 ⟨hour, minute, hparts, ⟨hhour, hminute⟩, hat⟩

theorem exists_ofClockText_iff :
    (∃ t, ofClockText s = .ok t) ↔ ∃ hour minute, IsClockText s hour minute := by
  simp only [ofClockText_eq_ok_iff, exists_isToldBy_iff]

theorem isClockText_hourMinute (t : TimeOfDay) : IsClockText t.hourMinute t.hour t.minute :=
  ⟨⟨_, _, String.toList_ofList, .bare (Text.isDigitRow_padded 2 _),
    .bare (Text.isDigitRow_padded 2 _)⟩, t.hour_lt, t.minute_lt⟩

theorem ofClockText_hourMinute (hsecond : t.second % 60 = 0) (hnano : t.nano = 0) :
    ofClockText t.hourMinute = .ok t :=
  ofClockText_eq_ok_iff.2 ⟨_, _, t.isClockText_hourMinute, rfl, rfl, hsecond, hnano⟩

end ClubBooking.TimeOfDay
