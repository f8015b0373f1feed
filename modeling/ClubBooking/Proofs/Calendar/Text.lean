import ClubBooking.Calendar.Reader
import ClubBooking.Proofs.Calendar.Civil
import ClubBooking.Proofs.Text.Digits

/-! Dates, times and instants are read back from their texts, years of any size and sign and
fractions of a second included. -/

namespace ClubBooking

namespace Calendar
open Text
variable {width n : Nat} {c : Char} {cs ds rest : List Char}

theorem field_append (hne : ds ≠ []) (hds : ∀ c ∈ ds, isDigit c) (hlength : ds.length ≤ width)
    (hrest : NoDigit rest) : field width (ds ++ rest) = some (Nat.ofDigitChars 10 ds 0, rest) := by
  rw [field, trimLeft_digits hne hds, takeWhile_digits hds hrest]
  simp only [List.take_of_length_le hlength, hne, if_false, List.drop_left]

theorem field_padded (hwidth : 0 < width) (h : n < 10 ^ width) (hrest : NoDigit rest) :
    field width (padded width n ++ rest) = some (n, rest) := by
  rw [field_append (padded_ne_nil width n) (fun _ => isDigit_of_mem_padded)
    (Nat.le_of_eq (length_padded hwidth h)) hrest, ofDigitChars_padded]

theorem separator_cons (hc : isBlank c = false) : separator c (c :: cs) = some cs := by
  rw [separator, trimLeft_cons hc]
  exact if_pos rfl

theorem unlimited_append (hne : ds ≠ []) (hds : ∀ c ∈ ds, isDigit c) (hrest : NoDigit rest) :
    unlimited (ds ++ rest) = some (Nat.ofDigitChars 10 ds 0, rest) := by
  rw [unlimited, takeWhile_digits hds hrest, dropWhile_digits hds hrest, if_neg hne]

theorem unlimited_padded (hrest : NoDigit rest) :
    unlimited (padded width n ++ rest) = some (n, rest) := by
  rw [unlimited_append (padded_ne_nil width n) (fun _ => isDigit_of_mem_padded) hrest,
    ofDigitChars_padded]

def yearChars (y : Int) : List Char :=
  if y < 0 then '-' :: padded 4 y.natAbs
  else if 9999 < y then '+' :: padded 4 y.natAbs
  else padded 4 y.natAbs

theorem year_of_digit {d : Char} (hd : isDigit d) :
    year (d :: cs) = (field 4 (d :: cs)).map fun (n, rest) => ((n : Int), rest) := by
  have hminus : d ≠ '-' := ne_of_isDigit hd rfl
  have hplus : d ≠ '+' := ne_of_isDigit hd rfl
  simp [year, trimLeft_cons (isBlank_of_isDigit hd), hminus, hplus]

theorem year_append (y : Int) (hrest : NoDigit rest) :
    year (yearChars y ++ rest) = some (y, rest) := by
  have hminus : isBlank '-' = false := rfl
  have hplus : isBlank '+' = false := rfl
  unfold yearChars
  split
  · next hneg =>
    simp only [year, List.cons_append, trimLeft_cons hminus, unlimited_padded hrest,
      Option.map_some]
    rw [show -(y.natAbs : Int) = y by omega]
  · next hnonneg =>
    split
    · next hlong =>
      simp only [year, List.cons_append, trimLeft_cons hplus, unlimited_padded hrest,
        Option.map_some]
      rw [show (y.natAbs : Int) = y by omega]
    · next hshort =>
      have hfield := field_padded (show 0 < 4 by decide) (show y.natAbs < 10 ^ 4 by omega) hrest
      obtain ⟨d, ds, hdigits, hd⟩ := exists_cons_of_digits (padded_ne_nil 4 y.natAbs) fun _ =>
        isDigit_of_mem_padded
      rw [hdigits, List.cons_append] at hfield ⊢
      simp only [year_of_digit hd, hfield, Option.map_some]
      rw [show (y.natAbs : Int) = y by omega]

theorem noDigit_dash (cs : List Char) : NoDigit ('-' :: cs) := noDigit_cons.2 rfl

theorem noDigit_colon (cs : List Char) : NoDigit (':' :: cs) := noDigit_cons.2 rfl

def dateChars (d : Date) : List Char :=
  yearChars d.civil.year ++ '-' :: padded 2 d.civil.month ++ '-' :: padded 2 d.civil.day

theorem datePart_append (d : Date) (hrest : NoDigit rest) :
    datePart (dateChars d ++ rest) = some (d, rest) := by
  obtain ⟨hmonth, hmonth', hday, hday'⟩ : d.civil.IsValid := Civil.isValid_ofDayNumber d.day
  have hlength := Civil.monthLength_le d.civil.year d.civil.month
  have hafter := field_padded (show 0 < 2 by decide) (show d.civil.day < 10 ^ 2 by omega) hrest
  have hmonths := field_padded (show 0 < 2 by decide) (show d.civil.month < 10 ^ 2 by omega)
    (noDigit_dash (padded 2 d.civil.day ++ rest))
  have hyears := year_append d.civil.year
    (noDigit_dash (padded 2 d.civil.month ++ '-' :: (padded 2 d.civil.day ++ rest)))
  have hdate : Date.ofCivil? ⟨d.civil.year, d.civil.month, d.civil.day⟩ = some d := d.ofCivil?_civil
  have hminus : isBlank '-' = false := rfl
  simp only [datePart, dateChars, List.append_assoc, List.cons_append, hyears,
    separator_cons hminus, hmonths, hafter, hdate, bind, Option.bind_some, pure]

theorem fraction_padded (hwidth : 0 < width) (hwidth' : width ≤ 9) (h : n < 10 ^ width) :
    fraction ('.' :: padded width n) = some (n * 10 ^ (9 - width), []) := by
  have hlength := length_padded hwidth h
  have hdigits : ∀ c ∈ padded width n, isDigit c := fun _ => isDigit_of_mem_padded
  have htake := takeWhile_digits hdigits noDigit_nil
  have hdrop := dropWhile_digits hdigits noDigit_nil
  rw [List.append_nil] at htake hdrop
  simp only [fraction, htake, hdrop, List.take_of_length_le (hlength ▸ hwidth'), padded_ne_nil,
    if_false, ofDigitChars_padded, hlength]

theorem fraction_fractionChars (h : n < 1000000000) :
    fraction (TimeOfDay.fractionChars n) = some (n, []) := by
  unfold TimeOfDay.fractionChars
  split
  · next hzero =>
    rw [hzero]
    rfl
  split
  · next hmilli =>
    rw [fraction_padded (by decide) (by decide) (by omega)]
    rw [show n / 1000000 * 10 ^ (9 - 3) = n by omega]
  split
  · next hmicro =>
    rw [fraction_padded (by decide) (by decide) (by omega)]
    rw [show n / 1000 * 10 ^ (9 - 6) = n by omega]
  · rw [fraction_padded (by decide) (by decide) (by omega), Nat.sub_self, Nat.pow_zero, Nat.mul_one]

theorem noDigit_fractionChars (n : Nat) : NoDigit (TimeOfDay.fractionChars n) := by
  unfold TimeOfDay.fractionChars
  split
  · exact noDigit_nil
  split
  · exact noDigit_cons.2 rfl
  split <;> exact noDigit_cons.2 rfl

theorem hourMinute_append (t : TimeOfDay) (hrest : NoDigit rest) :
    hourMinute (padded 2 t.hour ++ ':' :: (padded 2 t.minute ++ rest)) =
      some ((t.hour, t.minute), rest) := by
  have hsecond := t.second_lt
  have hhour := field_padded (show 0 < 2 by decide)
    (show t.hour < 10 ^ 2 by unfold TimeOfDay.hour; omega)
    (noDigit_colon (padded 2 t.minute ++ rest))
  have hminute := field_padded (show 0 < 2 by decide)
    (show t.minute < 10 ^ 2 by unfold TimeOfDay.minute; omega) hrest
  have hcolon : isBlank ':' = false := rfl
  simp only [hourMinute, hhour, separator_cons hcolon, hminute, bind, Option.bind_some, pure]

theorem secondPart_chars {second nano : Nat} (hsecond : second < 10 ^ 2)
    (hnano : nano < 1000000000) :
    secondPart (':' :: (padded 2 second ++ TimeOfDay.fractionChars nano)) =
      some ((second, nano), []) := by
  have hfield := field_padded (by decide) hsecond (noDigit_fractionChars nano)
  have hcolon : isBlank ':' = false := rfl
  simp only [secondPart, separator_cons hcolon, hfield, fraction_fractionChars hnano, bind,
    Option.bind_some, pure]

theorem atEnd_nil : atEnd [] = some () := rfl

end Calendar

namespace TimeOfDay

def shownSecond (t : TimeOfDay) : Nat := t.second % 60 + if t.isLeap then 1 else 0

def shownNano (t : TimeOfDay) : Nat := t.nano - (if t.isLeap then 1 else 0) * 1000000000

theorem ofClock?_eq {t : TimeOfDay} {hour minute second nano : Nat} (hhour : hour < 24)
    (hminute : minute < 60) (hsecond : second ≤ 60) (hnano : nano < 1000000000)
    (ht : t.second = 3600 * hour + 60 * minute + min second 59)
    (ht' : t.nano = if second = 60 then 1000000000 + nano else nano) :
    ofClock? hour minute second nano = some t := by
  obtain ⟨clock, fraction, hclock, hfraction⟩ := t
  dsimp only at ht ht'
  subst ht ht'
  exact dif_pos ⟨⟨hhour, hminute, hsecond, hnano⟩, hfraction⟩

theorem shown_of_isLeap {t : TimeOfDay} (h : t.isLeap) :
    t.second % 60 = 59 ∧ t.shownSecond = 60 ∧ t.nano = 1000000000 + t.shownNano := by
  have hleast : 1000000000 ≤ t.nano := by simpa [isLeap] using h
  have hnano := t.nano_lt
  simp only [shownSecond, shownNano, h, if_true]
  omega

theorem shown_of_not_isLeap {t : TimeOfDay} (h : ¬ t.isLeap) :
    t.shownSecond = t.second % 60 ∧ t.shownNano = t.nano ∧ t.nano < 1000000000 := by
  have hmost : t.nano < 1000000000 := by simpa [isLeap] using h
  simp [shownSecond, shownNano, h, hmost]

theorem shown_bounds (t : TimeOfDay) : t.shownSecond ≤ 60 ∧ t.shownNano < 1000000000 := by
  by_cases h : t.isLeap
  · obtain ⟨-, hsecond, hnano⟩ := shown_of_isLeap h
    have hlt := t.nano_lt_two
    omega
  · obtain ⟨hsecond, hnano, hlt⟩ := shown_of_not_isLeap h
    omega

theorem hour_lt (t : TimeOfDay) : t.hour < 24 := by
  have hlt := t.second_lt
  unfold hour
  omega

theorem minute_lt (t : TimeOfDay) : t.minute < 60 := by
  unfold minute
  omega

theorem ofClock?_shown (t : TimeOfDay) :
    ofClock? t.hour t.minute t.shownSecond t.shownNano = some t := by
  have hclock : t.second = 3600 * t.hour + 60 * t.minute + t.second % 60 := by
    unfold hour minute
    omega
  have hbounds := t.shown_bounds
  by_cases h : t.isLeap
  · obtain ⟨hlast, hsecond, hnano⟩ := shown_of_isLeap h
    exact ofClock?_eq t.hour_lt t.minute_lt hbounds.1 hbounds.2 (by omega)
      (by rw [if_pos hsecond, hnano])
  · obtain ⟨hsecond, hnano, -⟩ := shown_of_not_isLeap h
    have hregular : ¬ t.shownSecond = 60 := by omega
    exact ofClock?_eq t.hour_lt t.minute_lt hbounds.1 hbounds.2 (by omega)
      (by rw [if_neg hregular, hnano])

def secondChars (t : TimeOfDay) : List Char :=
  ':' :: (Text.padded 2 t.shownSecond ++ fractionChars t.shownNano)

theorem toList_text (t : TimeOfDay) : t.text.toList =
    Text.padded 2 t.hour ++ ':' :: (Text.padded 2 t.minute ++ t.secondChars) := by
  simp only [text, hourMinute, String.toList_append, String.toList_ofList, List.append_assoc,
    List.cons_append]
  rfl

theorem secondPart_secondChars (t : TimeOfDay) :
    Calendar.secondPart t.secondChars = some ((t.shownSecond, t.shownNano), []) := by
  obtain ⟨hsecond, hnano⟩ := t.shown_bounds
  exact Calendar.secondPart_chars (by omega) hnano

theorem noDigit_secondChars (t : TimeOfDay) : Text.NoDigit t.secondChars :=
  Calendar.noDigit_colon _

theorem read_text (t : TimeOfDay) : read t.text = some t := by
  have hclock := Calendar.hourMinute_append t t.noDigit_secondChars
  simp only [read, readChars, toList_text, hclock, secondPart_secondChars, Option.getD_some,
    Calendar.atEnd_nil, ofClock?_shown, bind, Option.bind_some]

end TimeOfDay

namespace Date

theorem toList_text (d : Date) : d.text.toList = Calendar.dateChars d := String.toList_ofList

theorem read_text (d : Date) : read d.text = some d := by
  have hdate := Calendar.datePart_append d Text.noDigit_nil
  rw [List.append_nil] at hdate
  simp only [read, readChars, toList_text, hdate, Calendar.atEnd_nil, bind, Option.bind_some, pure]

example : first.text = "-262143-01-01" := by decide

end Date

theorem DateTime.read_text (t : DateTime) : read (t.text "T") = some t := by
  have htext : (t.text "T").toList = Calendar.dateChars t.date ++ 'T' :: (t.time.text.toList) := by
    simp [text, Date.toList_text]
  have hmark : Text.NoDigit ('T' :: t.time.text.toList) := Text.noDigit_cons.2 rfl
  have hdate := Calendar.datePart_append t.date hmark
  rw [TimeOfDay.toList_text] at htext hdate
  have hclock := Calendar.hourMinute_append t.time t.time.noDigit_secondChars
  have hseparator : ∀ cs, Calendar.separator 'T' ('T' :: cs) = some cs :=
    fun cs => Calendar.separator_cons rfl
  simp only [read, readChars, htext, hdate, hseparator, hclock,
    TimeOfDay.secondPart_secondChars, Calendar.atEnd_nil, TimeOfDay.ofClock?_shown, bind,
    Option.bind_some, pure]

end ClubBooking
