import ClubBooking.Eligibility.Condition

/-! Named rules, and the profiles of numbers and switches that they are built from. -/

namespace ClubBooking

/-- The knobs of all rules of one policy. -/
structure Profile where
  graceDays : UInt32
  lenient : Bool
  /-- Share of the capacity that may be used, in percent. -/
  ceilingPercent : UInt32
  headroom : UInt32
  horizonDays : UInt32
  leadMinutes : UInt32
  /-- Opening and closing in whole hours. -/
  businessHours : Option (UInt32 × UInt32)
  weekdaysOnly : Bool
  simultaneousCap : Option UInt32
  countPending : Bool
  vipBonusDays : UInt32
  advanceCapDays : Option UInt32
deriving DecidableEq

namespace Profile

def standard : Profile where
  graceDays := 0
  lenient := false
  ceilingPercent := 90
  headroom := 0
  horizonDays := 365
  leadMinutes := 30
  businessHours := none
  weekdaysOnly := false
  simultaneousCap := none
  countPending := false
  vipBonusDays := 0
  advanceCapDays := none

def restrictive : Profile where
  graceDays := 0
  lenient := false
  ceilingPercent := 80
  headroom := 0
  horizonDays := 30
  leadMinutes := 120
  businessHours := some (9, 18)
  weekdaysOnly := true
  simultaneousCap := some 2
  countPending := true
  vipBonusDays := 0
  advanceCapDays := some 14

def premium : Profile where
  graceDays := 7
  lenient := true
  ceilingPercent := 100
  headroom := 0
  horizonDays := 730
  leadMinutes := 15
  businessHours := none
  weekdaysOnly := false
  simultaneousCap := none
  countPending := false
  vipBonusDays := 30
  advanceCapDays := none

def ceiling (p : Profile) : Decimal :=
  ⟨false, p.ceilingPercent.toNat, 2, by have := p.ceilingPercent.toNat_lt; omega, by decide⟩

def wholeHour (hour : UInt32) : Except Fault TimeOfDay :=
  match TimeOfDay.ofHourMinute? hour.toNat 0 with
  | some t => .ok t
  | none => .error (.misconfigured (.businessHour hour))

def hourWindow (p : Profile) : Except Fault (Option HourWindow) :=
  match p.businessHours with
  | none => .ok none
  | some (start, stop) => do
    let start ← wholeHour start
    let stop ← wholeHour stop
    let w ← HourWindow.make start stop
    pure (some w)

end Profile

/-- The name of a rule that a profile has all numbers for. -/
inductive RuleName where
  | activeMember | membershipPrivilege | resourceCapacity | validTime | simultaneousLimit
  | advanceBooking | noWeekends
deriving DecidableEq, Repr

namespace RuleName

def name : RuleName → String
  | activeMember => "active_member"
  | membershipPrivilege => "membership_privilege"
  | resourceCapacity => "resource_capacity"
  | validTime => "valid_time"
  | simultaneousLimit => "simultaneous_limit"
  | advanceBooking => "advance_booking"
  | noWeekends => "no_weekends"

instance : Named RuleName where
  noun := "eligibility rule"
  members := [activeMember, membershipPrivilege, resourceCapacity, validTime, simultaneousLimit,
    advanceBooking, noWeekends]
  name := name
  mem_members a := by cases a <;> decide
  name_inj a b h := by cases a <;> cases b <;> simp [name] at h ⊢

def fullSet : List RuleName :=
  [activeMember, membershipPrivilege, resourceCapacity, validTime, simultaneousLimit,
    advanceBooking]

def build (p : Profile) : RuleName → Except Fault Rule
  | activeMember => .ok (.activeMember ⟨p.lenient, p.graceDays⟩)
  | membershipPrivilege => .ok (.privilege ⟨p.graceDays, none⟩)
  | resourceCapacity => do
    let r ← CapacityRule.full.withCeiling p.ceiling
    pure (.capacity (r.withHeadroom p.headroom))
  | validTime => do
    let hours ← p.hourWindow
    pure (.bookingTime ⟨p.horizonDays, p.leadMinutes, hours, p.weekdaysOnly⟩)
  | simultaneousLimit => .ok (.simultaneous ⟨p.countPending, p.simultaneousCap⟩)
  | advanceBooking => .ok (.advance ⟨p.vipBonusDays, p.advanceCapDays⟩)
  | noWeekends => .ok (.restriction .denyWeekends)

end RuleName

namespace Level

/-- The profile and the rules that a level stands for; a custom level stands for none. -/
def preset? : Level → Option (Profile × List RuleName)
  | minimal => some (.standard, [.activeMember, .resourceCapacity])
  | basic =>
    some (.standard, [.activeMember, .membershipPrivilege, .resourceCapacity, .validTime])
  | standard => some (.standard, RuleName.fullSet)
  | strict => some (.restrictive, RuleName.fullSet)
  | custom => none

def profile (l : Level) : Profile :=
  match l.preset? with
  | some (p, _) => p
  | none => .standard

end Level
end ClubBooking
