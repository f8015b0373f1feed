import ClubBooking.Club.Count
import ClubBooking.Eligibility.Snapshot

/-! Rules about the member: standing, privileges, how many reservations at a time and how far
ahead. Each rule has its verdict, its text, and the reason it gives where it does not hold. -/

namespace ClubBooking

/-- The member is in good standing, within the membership period and some days of grace. -/
structure ActiveMember where
  /-- Suspended members are let through. -/
  lenient : Bool
  grace : UInt32

namespace ActiveMember

def acceptsStatus (r : ActiveMember) : MemberStatus → Bool
  | .active => true
  | .suspended => r.lenient
  | .expired | .withdrawn => false

def coversPeriod (r : ActiveMember) (s : Snapshot) : Bool :=
  let period := s.member.period.extendedBy r.grace
  period.contains s.now.date && period.contains s.slot.start.date

def holds (r : ActiveMember) (s : Snapshot) : Bool :=
  r.acceptsStatus s.member.status && r.coversPeriod s

def description (r : ActiveMember) : String :=
  "Member is active" ++ (if r.lenient then " or suspended" else "") ++
    " within membership period" ++
    (if r.grace = 0 then "" else " (+" ++ Text.decimalText r.grace.toNat ++ " grace days)")

def reason? (r : ActiveMember) (s : Snapshot) : Option String :=
  if !r.acceptsStatus s.member.status then
    some ("Member status is " ++ s.member.status.name)
  else if !r.coversPeriod s then
    some ("Membership period " ++ s.member.period.first.text ++ " to " ++
      s.member.period.last.text ++ " does not cover the reservation")
  else none

end ActiveMember

/-- The plan is active, grants the category of the resource, and has not run out. -/
structure Privilege where
  grace : UInt32
  /-- A hint for members whose plan lacks a category. -/
  advisor : Option (Plan → Category → Option String)

namespace Privilege

def coversRequest (r : Privilege) (s : Snapshot) : Bool :=
  (s.member.period.extendedBy r.grace).contains s.slot.start.date

def holds (r : Privilege) (s : Snapshot) : Bool :=
  s.plan.active && s.plan.grants s.resource.category && r.coversRequest s

def description (_ : Privilege) : String :=
  "Membership plan grants access to the resource category"

def hint? (r : Privilege) (s : Snapshot) : Option String :=
  r.advisor.bind fun advise => advise s.plan s.resource.category

def reason? (r : Privilege) (s : Snapshot) : Option String :=
  if !s.plan.active then some ("Membership plan '" ++ s.plan.name ++ "' is inactive")
  else if !s.plan.grants s.resource.category then
    some ("Membership plan '" ++ s.plan.name ++ "' does not include " ++
      s.resource.category.name ++ " access" ++
      match r.hint? s with
      | some hint => " (" ++ hint ++ ")"
      | none => "")
  else if !r.coversRequest s then
    some "Membership privileges expire before the reservation date"
  else none

end Privilege

/-- The member holds fewer reservations than the plan allows, and fewer than the cap. -/
structure SimultaneousLimit where
  countPending : Bool
  cap : Option UInt32

namespace SimultaneousLimit

def counts (r : SimultaneousLimit) : ReservationStatus → Bool
  | .pending => r.countPending
  | .confirmed | .checkedIn => true
  | .completed | .cancelled | .noShow => false

def held (r : SimultaneousLimit) (s : Snapshot) : Nat := s.held.countP r.counts

def limit (r : SimultaneousLimit) (s : Snapshot) : UInt32 :=
  match r.cap with
  | some cap => min s.plan.maxReservations cap
  | none => s.plan.maxReservations

def holds (r : SimultaneousLimit) (s : Snapshot) : Bool := r.held s < (r.limit s).toNat

def description (r : SimultaneousLimit) : String :=
  "Member is below the simultaneous reservation limit" ++
    match r.cap with
    | some cap => " (max " ++ Text.decimalText cap.toNat ++ ")"
    | none => ""

def reason? (r : SimultaneousLimit) (s : Snapshot) : Option String :=
  if (r.limit s).toNat ≤ r.held s then
    some ("Simultaneous reservation limit reached: " ++ Text.decimalText (r.held s) ++ " of " ++
      Text.decimalText (r.limit s).toNat)
  else none

end SimultaneousLimit

/-- The slot starts no more days ahead than the plan allows, and no more than the cap. -/
structure AdvanceLimit where
  /-- Days more for members of a VIP tier. -/
  vipBonus : UInt32
  cap : Option UInt32

namespace AdvanceLimit

def allowance (r : AdvanceLimit) (s : Snapshot) : UInt32 :=
  let days :=
    if s.member.tier.isVip then Count.add s.plan.advanceDays r.vipBonus else s.plan.advanceDays
  match r.cap with
  | some cap => min days cap
  | none => days

def daysAhead (s : Snapshot) : Int := s.slot.start.date.day - s.now.date.day

def holds (r : AdvanceLimit) (s : Snapshot) : Bool := daysAhead s ≤ (r.allowance s).toNat

def description (_ : AdvanceLimit) : String := "Reservation is within the advance booking window"

def reason? (r : AdvanceLimit) (s : Snapshot) : Option String :=
  if ((r.allowance s).toNat : Int) < daysAhead s then
    some ("Reservation is " ++ Text.intText (daysAhead s) ++ " days ahead; at most " ++
      Text.decimalText (r.allowance s).toNat ++ " days allowed")
  else none

end AdvanceLimit
end ClubBooking
