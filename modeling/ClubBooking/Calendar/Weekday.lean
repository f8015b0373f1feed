import ClubBooking.Text.Characters

/-! Days of the week, numbered from Monday. -/

namespace ClubBooking

inductive Weekday where
  | monday | tuesday | wednesday | thursday | friday | saturday | sunday
deriving DecidableEq, Repr

namespace Weekday

def all : List Weekday := [monday, tuesday, wednesday, thursday, friday, saturday, sunday]

def longName : Weekday → String
  | monday => "Monday" | tuesday => "Tuesday" | wednesday => "Wednesday"
  | thursday => "Thursday" | friday => "Friday" | saturday => "Saturday" | sunday => "Sunday"

def name : Weekday → String
  | monday => "Mon" | tuesday => "Tue" | wednesday => "Wed" | thursday => "Thu"
  | friday => "Fri" | saturday => "Sat" | sunday => "Sun"

def isWeekend (w : Weekday) : Bool := w == saturday || w == sunday

def read (s : String) : Option Weekday :=
  all.find? fun w => Text.sameLetters s w.name || Text.sameLetters s w.longName

def ofIndex (n : Nat) : Weekday :=
  match n % 7 with
  | 0 => monday | 1 => tuesday | 2 => wednesday | 3 => thursday
  | 4 => friday | 5 => saturday | _ => sunday

theorem mem_all (w : Weekday) : w ∈ all := by cases w <;> decide

end Weekday
end ClubBooking
