import ClubBooking.Eligibility.Snapshot

/-! Rules about the time of a request, measured from the instant of its snapshot: lead time,
horizon and opening hours, and windows in which slots may start or may not. -/

namespace ClubBooking

structure HourWindow where
  start : TimeOfDay
  stop : TimeOfDay
  start_lt_stop : start < stop
deriving DecidableEq

namespace HourWindow

def make (start stop : TimeOfDay) : Except Fault HourWindow :=
  if h : start < stop then .ok ⟨start, stop, h⟩ else .error (.reversed (.times start stop))

def contains (w : HourWindow) (t : TimeOfDay) : Bool := w.start ≤ t && t < w.stop

/-- The slot lies in the window on the date it starts on. -/
def holdsSlot (w : HourWindow) (slot : TimeSlot) : Bool :=
  DateTime.atTime slot.start.date w.start ≤ slot.start &&
    slot.stop ≤ DateTime.atTime slot.start.date w.stop

def text (separator : String) (w : HourWindow) : String :=
  w.start.hourMinute ++ separator ++ w.stop.hourMinute

theorem make_eq_ok_iff {start stop : TimeOfDay} {w : HourWindow} :
    make start stop = .ok w ↔ w.start = start ∧ w.stop = stop := by
  unfold make
  constructor
  · intro h
    split at h <;> cases h
    exact ⟨rfl, rfl⟩
  · rintro ⟨rfl, rfl⟩
    exact dif_pos w.start_lt_stop

theorem contains_iff {w : HourWindow} {t : TimeOfDay} :
    w.contains t = true ↔ w.start ≤ t ∧ t < w.stop := by
  rw [contains, Bool.and_eq_true, decide_eq_true_eq, decide_eq_true_eq]

end HourWindow

/-- The slot keeps to lead time, horizon, weekdays, business hours and the resource's hours. -/
structure BookingTime where
  horizonDays : UInt32
  leadMinutes : UInt32
  businessHours : Option HourWindow
  weekdaysOnly : Bool

inductive TimeViolation where
  | tooSoon | tooFar | weekend | outsideBusinessHours (w : HourWindow) | closed
deriving DecidableEq

namespace BookingTime

def default : BookingTime := ⟨365, 0, none, false⟩

/-- Before the earliest start, which nothing reaches if it lies past the last date. -/
def isTooSoon (r : BookingTime) (s : Snapshot) : Bool :=
  match s.now.addMinutes? r.leadMinutes.toNat with
  | some earliest => s.slot.start < earliest
  | none => true

/-- Past the latest start; there is none if it lies past the last date. -/
def isTooFar (r : BookingTime) (s : Snapshot) : Bool :=
  match s.now.addDays? r.horizonDays.toNat with
  | some latest => latest < s.slot.start
  | none => false

def violatesHours? (r : BookingTime) (s : Snapshot) : Option HourWindow :=
  r.businessHours.filter fun w => !w.holdsSlot s.slot

def violation? (r : BookingTime) (s : Snapshot) : Option TimeViolation :=
  if r.isTooSoon s then some .tooSoon
  else if r.isTooFar s then some .tooFar
  else if r.weekdaysOnly && s.slot.start.date.weekday.isWeekend then some .weekend
  else match r.violatesHours? s with
    | some w => some (.outsideBusinessHours w)
    | none => if s.resource.hours.covers s.slot then none else some .closed

def holds (r : BookingTime) (s : Snapshot) : Bool := (r.violation? s).isNone

def description (r : BookingTime) : String :=
  "Reservation time is valid (" ++ Text.decimalText r.leadMinutes.toNat ++ " min lead, " ++
    Text.decimalText r.horizonDays.toNat ++ " day horizon" ++
    (if r.weekdaysOnly then ", weekdays only" else "") ++
    (match r.businessHours with
    | some w => ", " ++ w.text "-"
    | none => "") ++ ")"

def explain (r : BookingTime) (s : Snapshot) : TimeViolation → String
  | .tooSoon =>
    if r.leadMinutes = 0 then "Reservation start is in the past"
    else "Reservations must be made at least " ++ Text.decimalText r.leadMinutes.toNat ++
      " minutes in advance"
  | .tooFar => "Reservations cannot be made more than " ++ Text.decimalText r.horizonDays.toNat ++
      " days ahead"
  | .weekend => "Reservations are not accepted on " ++ s.slot.start.date.weekday.name
  | .outsideBusinessHours w =>
    "Reservation must fall within business hours " ++ w.text " to "
  | .closed => "Resource '" ++ s.resource.name ++ "' is closed during the requested time"

def reason? (r : BookingTime) (s : Snapshot) : Option String := (r.violation? s).map (r.explain s)

end BookingTime

/-- Slots that start on some weekdays (none listed: on any), in some hours (none given: at any),
are the only ones accepted, or the ones refused. -/
structure StartRestriction where
  deny : Bool
  days : List Weekday
  hours : Option HourWindow
deriving DecidableEq

namespace StartRestriction

def allowWeekdays : StartRestriction :=
  ⟨false, [.monday, .tuesday, .wednesday, .thursday, .friday], none⟩

def denyWeekends : StartRestriction := ⟨true, [.saturday, .sunday], none⟩

def matchesSlot (r : StartRestriction) (slot : TimeSlot) : Bool :=
  (r.days.isEmpty || r.days.contains slot.start.date.weekday) &&
    r.hours.all fun w => w.contains slot.start.time

def holds (r : StartRestriction) (s : Snapshot) : Bool := r.matchesSlot s.slot != r.deny

def window (r : StartRestriction) : String :=
  (if r.days.isEmpty then "any day" else "/".intercalate (r.days.map (·.name))) ++
    match r.hours with
    | some w => " " ++ w.text "-"
    | none => ""

def description (r : StartRestriction) : String :=
  (if r.deny then "Reservation does not start on " else "Reservation starts within ") ++ r.window

def reason? (r : StartRestriction) (s : Snapshot) : Option String :=
  if r.holds s then none
  else
    some ((if r.deny then "Reservations are not accepted "
      else "Reservations are only accepted ") ++ r.window ++ "; requested " ++
      s.slot.start.date.weekday.name ++ " " ++ s.slot.start.time.hourMinute)

end StartRestriction
end ClubBooking
