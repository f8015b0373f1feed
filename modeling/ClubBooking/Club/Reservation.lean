import ClubBooking.Interval.TimeSlot
import ClubBooking.Text.Named

/-! Reservations that members hold on resources. -/

namespace ClubBooking

inductive ReservationStatus where
  | pending | confirmed | checkedIn | completed | cancelled | noShow
deriving DecidableEq, Repr

namespace ReservationStatus

def name : ReservationStatus → String
  | pending => "pending"
  | confirmed => "confirmed"
  | checkedIn => "checked_in"
  | completed => "completed"
  | cancelled => "cancelled"
  | noShow => "no_show"

instance : Named ReservationStatus where
  noun := "reservation status"
  members := [pending, confirmed, checkedIn, completed, cancelled, noShow]
  name := name
  mem_members a := by cases a <;> decide
  name_inj a b h := by cases a <;> cases b <;> simp [name] at h ⊢

def isActive : ReservationStatus → Bool
  | pending | confirmed | checkedIn => true
  | completed | cancelled | noShow => false

end ReservationStatus

structure Reservation where
  id : Identifier
  memberId : Identifier
  resourceId : Identifier
  slot : TimeSlot
  partySize : UInt32
  status : ReservationStatus
deriving DecidableEq

namespace Reservation

def make (id memberId resourceId : Identifier) (slot : TimeSlot) (partySize : UInt32) :
    Except Fault Reservation :=
  if partySize = 0 then .error (.invalid .emptyParty)
  else .ok ⟨id, memberId, resourceId, slot, partySize, .confirmed⟩

def isActive (r : Reservation) : Bool := r.status.isActive

end Reservation
end ClubBooking
