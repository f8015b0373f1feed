import ClubBooking.Calendar.Date
import ClubBooking.Text.Named

/-! Periods of the year with rates of their own. The first four lie within the seasons and come
before them. -/

namespace ClubBooking

inductive Season where
  /-- 20 December to 5 January. -/
  | holidays
  /-- 20 August to 10 September. -/
  | backToSchool
  /-- 15 July to 19 August. -/
  | summerVacation
  /-- November. -/
  | offSeason
  | spring | summer | autumn | winter
deriving DecidableEq, Repr

namespace Season

def name : Season → String
  | holidays => "holiday_season"
  | backToSchool => "back_to_school"
  | summerVacation => "summer_vacation"
  | offSeason => "off_season"
  | spring => "spring"
  | summer => "summer"
  | autumn => "autumn"
  | winter => "winter"

def all : List Season :=
  [holidays, backToSchool, summerVacation, offSeason, spring, summer, autumn, winter]

instance : Named Season where
  noun := "seasonal period"
  members := all
  name := name
  mem_members a := by cases a <;> decide
  name_inj a b h := by cases a <;> cases b <;> simp [name] at h ⊢

def containsDay (s : Season) (month day : Nat) : Bool :=
  let n := 100 * month + day
  match s with
  | holidays => 1220 ≤ n || n ≤ 105
  | backToSchool => 820 ≤ n && n ≤ 910
  | summerVacation => 715 ≤ n && n ≤ 819
  | offSeason => month == 11
  | spring => 3 ≤ month && month ≤ 5
  | summer => 6 ≤ month && month ≤ 8
  | autumn => 9 ≤ month && month ≤ 11
  | winter => month == 12 || month == 1 || month == 2

def contains (s : Season) (d : Date) : Bool := s.containsDay d.civil.month d.civil.day

def matching (d : Date) : List Season := all.filter (·.contains d)

/-- The first period that a date lies in; the seasons take in the whole year. -/
def ofDate (d : Date) : Season := (matching d).headD winter

end Season
end ClubBooking
