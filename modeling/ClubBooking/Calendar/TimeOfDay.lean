import ClubBooking.Text.Numeral

/-! Times of day to the nanosecond. The last second of a minute may run on into a leap second,
which counts nanoseconds past the first thousand million. -/

namespace ClubBooking

structure TimeOfDay where
  second : Nat
  nano : Nat
  second_lt : second < 86400
  nano_lt : nano < 1000000000 ∨ nano < 2000000000 ∧ second % 60 = 59
deriving DecidableEq

namespace TimeOfDay

def isLeap (t : TimeOfDay) : Bool := 1000000000 ≤ t.nano

def rank (t : TimeOfDay) : Nat := t.second * 2000000000 + t.nano

instance : LE TimeOfDay := ⟨fun a b => a.rank ≤ b.rank⟩
instance : LT TimeOfDay := ⟨fun a b => a.rank < b.rank⟩
instance (a b : TimeOfDay) : Decidable (a ≤ b) := inferInstanceAs (Decidable (a.rank ≤ b.rank))
instance (a b : TimeOfDay) : Decidable (a < b) := inferInstanceAs (Decidable (a.rank < b.rank))

def midnight : TimeOfDay := ⟨0, 0, by decide, by decide⟩

instance : Inhabited TimeOfDay := ⟨midnight⟩

def ofHourMinute? (hour minute : Nat) : Option TimeOfDay :=
  if h : hour < 24 ∧ minute < 60 then
    some ⟨3600 * hour + 60 * minute, 0, by omega, Or.inl (by decide)⟩
  else none

/-- A clock reading, whose second 60 is a leap second. -/
def ofClock? (hour minute second nano : Nat) : Option TimeOfDay :=
  let clock := 3600 * hour + 60 * minute + min second 59
  let fraction := if second = 60 then 1000000000 + nano else nano
  if h : (hour < 24 ∧ minute < 60 ∧ second ≤ 60 ∧ nano < 1000000000) ∧
      (fraction < 1000000000 ∨ fraction < 2000000000 ∧ clock % 60 = 59) then
    some ⟨clock, fraction, by omega, h.2⟩
  else none

def hour (t : TimeOfDay) : Nat := t.second / 3600

def minute (t : TimeOfDay) : Nat := t.second / 60 % 60

def hourMinute (t : TimeOfDay) : String :=
  String.ofList (Text.padded 2 t.hour ++ ':' :: Text.padded 2 t.minute)

/-- No fraction, or the fewest of 3, 6 or 9 digits that hold it. -/
def fractionChars (nano : Nat) : List Char :=
  if nano = 0 then []
  else if nano % 1000000 = 0 then '.' :: Text.padded 3 (nano / 1000000)
  else if nano % 1000 = 0 then '.' :: Text.padded 6 (nano / 1000)
  else '.' :: Text.padded 9 nano

def text (t : TimeOfDay) : String :=
  let leap := if t.isLeap then 1 else 0
  t.hourMinute ++ String.ofList
    (':' :: Text.padded 2 (t.second % 60 + leap) ++ fractionChars (t.nano - leap * 1000000000))

theorem le_iff {a b : TimeOfDay} : a ≤ b ↔ a.rank ≤ b.rank := Iff.rfl

theorem lt_iff {a b : TimeOfDay} : a < b ↔ a.rank < b.rank := Iff.rfl

theorem nano_lt_two (t : TimeOfDay) : t.nano < 2000000000 := by
  have := t.nano_lt
  omega

theorem rank_inj {a b : TimeOfDay} (h : a.rank = b.rank) : a = b := by
  have ha := a.nano_lt_two
  have hb := b.nano_lt_two
  unfold rank at h
  have hs : a.second = b.second := by omega
  have hn : a.nano = b.nano := by omega
  cases a; cases b; cases hs; cases hn; rfl

end TimeOfDay
end ClubBooking
