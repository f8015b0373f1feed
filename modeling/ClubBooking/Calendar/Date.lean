import ClubBooking.Calendar.Weekday
import ClubBooking.Text.Numeral

/-! Dates of the Gregorian calendar, extended in both directions to -262143-01-01 and
+262142-12-31. A date is its day number, counted from 1 March of the year 0: a year that starts in
March has its leap day last, so the number of a date is a plain sum. -/

namespace ClubBooking

structure Date where
  day : Int
  first_le : -95745824 ≤ day
  le_last : day ≤ 95745704
deriving DecidableEq

structure Civil where
  year : Int
  month : Nat
  day : Nat
deriving DecidableEq, Repr

namespace Civil

def isLeap (year : Int) : Bool := year % 4 == 0 && (year % 100 != 0 || year % 400 == 0)

def monthLength (year : Int) (month : Nat) : Nat :=
  if month = 2 then if isLeap year then 29 else 28
  else if month = 4 ∨ month = 6 ∨ month = 9 ∨ month = 11 then 30
  else 31

def IsValid (c : Civil) : Prop :=
  1 ≤ c.month ∧ c.month ≤ 12 ∧ 1 ≤ c.day ∧ c.day ≤ monthLength c.year c.month

instance (c : Civil) : Decidable c.IsValid := inferInstanceAs (Decidable (_ ∧ _))

def dayNumber (c : Civil) : Int :=
  let y := if c.month ≤ 2 then c.year - 1 else c.year
  let m := (c.month + 9) % 12
  365 * y + y / 4 - y / 100 + y / 400 + (153 * m + 2) / 5 + c.day - 1

/-- The civil form of a day number: its 400-year era, the year in it, then month and day. -/
def ofDayNumber (n : Int) : Civil :=
  let doe := n % 146097
  let yoe := (doe - doe / 1460 + doe / 36524 - doe / 146096) / 365
  let doy := doe - (365 * yoe + yoe / 4 - yoe / 100)
  let m := (5 * doy + 2) / 153
  let month := (if m < 10 then m + 3 else m - 9).toNat
  let year := 400 * (n / 146097) + yoe
  ⟨if month ≤ 2 then year + 1 else year, month, (doy - (153 * m + 2) / 5 + 1).toNat⟩

end Civil

namespace Date

def ofDay? (n : Int) : Option Date :=
  if h : -95745824 ≤ n ∧ n ≤ 95745704 then some ⟨n, h.1, h.2⟩ else none

def first : Date := ⟨-95745824, by decide, by decide⟩

def last : Date := ⟨95745704, by decide, by decide⟩

instance : Inhabited Date := ⟨first⟩

instance : LE Date := ⟨fun a b => a.day ≤ b.day⟩
instance : LT Date := ⟨fun a b => a.day < b.day⟩
instance (a b : Date) : Decidable (a ≤ b) := inferInstanceAs (Decidable (a.day ≤ b.day))
instance (a b : Date) : Decidable (a < b) := inferInstanceAs (Decidable (a.day < b.day))

def ofCivil? (c : Civil) : Option Date := if c.IsValid then ofDay? c.dayNumber else none

def civil (d : Date) : Civil := Civil.ofDayNumber d.day

def addDays? (d : Date) (n : Int) : Option Date := ofDay? (d.day + n)

def next? (d : Date) : Option Date := d.addDays? 1

def weekday (d : Date) : Weekday := .ofIndex ((d.day + 2) % 7).toNat

/-- `YYYY-MM-DD`; a year outside 0000 to 9999 carries its sign. -/
def text (d : Date) : String :=
  let c := d.civil
  let digits := Text.padded 4 c.year.natAbs
  let year := if c.year < 0 then '-' :: digits else if 9999 < c.year then '+' :: digits else digits
  String.ofList
    (year ++ '-' :: Text.padded 2 c.month ++ '-' :: Text.padded 2 c.day)

theorem le_iff {a b : Date} : a ≤ b ↔ a.day ≤ b.day := Iff.rfl

theorem lt_iff {a b : Date} : a < b ↔ a.day < b.day := Iff.rfl

theorem ext_day {a b : Date} (h : a.day = b.day) : a = b := by
  cases a; cases b; cases h; rfl

theorem ofDay?_eq_some_iff {n : Int} {d : Date} : ofDay? n = some d ↔ d.day = n := by
  unfold ofDay?
  split
  · constructor
    · rintro ⟨⟩; rfl
    · rintro rfl; rfl
  · next h =>
    simp only [reduceCtorEq, false_iff]
    rintro rfl
    exact h ⟨d.first_le, d.le_last⟩

theorem ofDay?_day (d : Date) : ofDay? d.day = some d := ofDay?_eq_some_iff.2 rfl

theorem day_of_addDays? {d e : Date} {n : Int} (h : d.addDays? n = some e) :
    e.day = d.day + n := ofDay?_eq_some_iff.1 h

end Date
end ClubBooking
