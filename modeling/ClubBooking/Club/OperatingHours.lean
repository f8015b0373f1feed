import ClubBooking.Interval.TimeSlot

/-! When a resource is open: from one time of day to another, or to midnight, on some weekdays. -/

namespace ClubBooking

structure OperatingHours where
  opens : TimeOfDay
  /-- Without a closing time the day ends at midnight. -/
  closes : Option TimeOfDay
  days : List Weekday
deriving DecidableEq

namespace OperatingHours

/-- Opening before closing, on one weekday at least; the weekdays are put in order. -/
def make (opens : TimeOfDay) (closes : Option TimeOfDay) (days : List Weekday) :
    Except Fault OperatingHours := do
  match closes with
  | some close => if close ≤ opens then .error (.reversed (.times opens close))
  | none => pure ()
  if days = [] then .error (.invalid .noOpenDay)
  pure ⟨opens, closes, Weekday.all.filter (days.contains ·)⟩

def always : OperatingHours := ⟨.midnight, none, Weekday.all⟩

def isAroundTheClock (h : OperatingHours) : Bool := h.opens = .midnight && h.closes.isNone

def opensOn (h : OperatingHours) (d : Date) : Bool := h.days.contains d.weekday

/-- Open without a break from a date on that is open to midnight, up to `stop`: each midnight
before it leads to a day that is open around the clock. -/
def runsOnUntil (h : OperatingHours) (stop : DateTime) (date : Date) : Bool :=
  if hd : date.day + 1 ≤ 95745704 then
    let next : Date := ⟨date.day + 1, by have := date.first_le; omega, hd⟩
    stop ≤ .startOf next || h.isAroundTheClock && h.opensOn next && h.runsOnUntil stop next
  else false
termination_by (95745704 - date.day).toNat
decreasing_by omega

/-- The slot lies within the opening hours, which go on over midnight only where they close at it
and open at it again. -/
def covers (h : OperatingHours) (slot : TimeSlot) : Bool :=
  let date := slot.start.date
  h.opensOn date &&
    (h.isAroundTheClock && h.days.length == 7 ||
      DateTime.atTime date h.opens ≤ slot.start &&
        match h.closes with
        | some close => slot.stop ≤ DateTime.atTime date close
        | none => h.runsOnUntil slot.stop date)

end OperatingHours
end ClubBooking
