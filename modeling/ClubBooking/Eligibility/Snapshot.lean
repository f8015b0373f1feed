import ClubBooking.Club.Member
import ClubBooking.Club.Reservation
import ClubBooking.Club.Resource

/-! What the eligibility rules look at: the facts about one request at one instant. -/

namespace ClubBooking

structure Snapshot where
  member : Member
  plan : Plan
  resource : Resource
  slot : TimeSlot
  now : DateTime
  partySize : UInt32
  /-- Statuses of the reservations that the member holds. -/
  held : List ReservationStatus
  /-- Seats of the resource that are taken during the slot. -/
  occupancy : UInt32
  enrolled : member.planId = plan.id
  party_ne_zero : partySize ≠ 0
  held_active : ∀ s ∈ held, s.isActive

namespace Snapshot

/-- The facts of a request, inactive reservations left out. -/
def make (member : Member) (plan : Plan) (resource : Resource) (slot : TimeSlot) (now : DateTime)
    (partySize : UInt32) (held : List ReservationStatus) (occupancy : UInt32) :
    Except Fault Snapshot :=
  if enrolled : member.planId = plan.id then
    if party_ne_zero : partySize ≠ 0 then
      .ok {
        member, plan, resource, slot, now, partySize, occupancy, enrolled, party_ne_zero
        held := held.filter (·.isActive)
        held_active := fun _ hs => (List.mem_filter.1 hs).2 }
    else .error (.invalid .emptyParty)
  else .error (.invalid (.notEnrolled member.id plan.id))

end Snapshot
end ClubBooking
