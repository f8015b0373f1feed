import ClubBooking.Calendar.Date
import ClubBooking.Calendar.TimeOfDay

/-! Wall-clock instants, and moving along them by whole seconds. A step away from a leap second
takes it as the second before it (ahead) or after it (back). -/

namespace ClubBooking

structure DateTime where
  date : Date
  time : TimeOfDay
deriving DecidableEq

namespace DateTime

instance : Inhabited DateTime := ⟨⟨default, default⟩⟩

def rank (t : DateTime) : Int := t.date.day * 172800000000000 + t.time.rank

instance : LE DateTime := ⟨fun a b => a.rank ≤ b.rank⟩
instance : LT DateTime := ⟨fun a b => a.rank < b.rank⟩
instance (a b : DateTime) : Decidable (a ≤ b) := inferInstanceAs (Decidable (a.rank ≤ b.rank))
instance (a b : DateTime) : Decidable (a < b) := inferInstanceAs (Decidable (a.rank < b.rank))

def atTime (d : Date) (t : TimeOfDay) : DateTime := ⟨d, t⟩

def startOf (d : Date) : DateTime := ⟨d, .midnight⟩

def ofSeconds? (day seconds : Int) (nano : Nat) (h : nano < 1000000000) : Option DateTime :=
  (Date.ofDay? (day + seconds / 86400)).map fun d =>
    ⟨d, (seconds % 86400).toNat, nano, by omega, Or.inl h⟩

def addSeconds? (t : DateTime) (n : Int) : Option DateTime :=
  if h : t.time.nano < 1000000000 then
    ofSeconds? t.date.day (t.time.second + n) t.time.nano h
  else if n = 0 then some t
  else
    ofSeconds? t.date.day (t.time.second + n + (if n < 0 then 1 else 0))
      (t.time.nano - 1000000000) (by have := t.time.nano_lt_two; omega)

def addMinutes? (t : DateTime) (n : Int) : Option DateTime := t.addSeconds? (60 * n)

def addDays? (t : DateTime) (n : Int) : Option DateTime := t.addSeconds? (86400 * n)

/-- Nanoseconds from one instant to another, a leap second in between counted. -/
def nanosUntil (a b : DateTime) : Int :=
  let leap : Int :=
    if a.time.second < b.time.second ∧ a.time.isLeap then 1
    else if b.time.second < a.time.second ∧ b.time.isLeap then -1
    else 0
  ((b.date.day - a.date.day) * 86400 + (b.time.second - a.time.second) + leap) * 1000000000 +
    (b.time.nano - a.time.nano)

/-- The date of the last instant before `t`. -/
def dayNumberBefore (t : DateTime) : Int :=
  if t.time = .midnight then t.date.day - 1 else t.date.day

def text (separator : String) (t : DateTime) : String := t.date.text ++ separator ++ t.time.text

def minuteText (t : DateTime) : String := t.date.text ++ " " ++ t.time.hourMinute

theorem le_iff {a b : DateTime} : a ≤ b ↔ a.rank ≤ b.rank := Iff.rfl

theorem lt_iff {a b : DateTime} : a < b ↔ a.rank < b.rank := Iff.rfl

theorem rank_inj {a b : DateTime} (h : a.rank = b.rank) : a = b := by
  have ha := a.time.nano_lt_two
  have hb := b.time.nano_lt_two
  have ha' := a.time.second_lt
  have hb' := b.time.second_lt
  unfold rank TimeOfDay.rank at h
  have hd : a.date.day = b.date.day := by omega
  have ht : a.time.rank = b.time.rank := by unfold TimeOfDay.rank; omega
  cases a; cases b
  cases Date.ext_day hd; cases TimeOfDay.rank_inj ht; rfl

end DateTime
end ClubBooking
