import ClubBooking.Club.Count
import ClubBooking.Decimal.Arith
import ClubBooking.Eligibility.Snapshot

/-! The resource has room: the seats taken and the party together do not exceed its usable seats,
which are the whole part of its capacity times a ceiling, less some headroom. -/

namespace ClubBooking

structure CapacityRule where
  ceiling : Decimal
  headroom : UInt32
  ceiling_ok : ceiling.IsCeiling

namespace CapacityRule

def full : CapacityRule := ⟨.one, 0, by decide⟩

def withCeiling (r : CapacityRule) (ratio : Decimal) : Except Fault CapacityRule :=
  if h : ratio.IsCeiling then .ok { r with ceiling := ratio, ceiling_ok := h }
  else .error (.rateOutOfRange ratio)

def withHeadroom (r : CapacityRule) (seats : UInt32) : CapacityRule := { r with headroom := seats }

/-- The whole part of the capacity times the ceiling. -/
def openSeats (r : CapacityRule) (capacity : UInt32) : Nat :=
  (((Decimal.ofUInt32 capacity).mul r.ceiling).map fun p => p.floor.toNat).getD 0

def usableSeats (r : CapacityRule) (capacity : UInt32) : UInt32 :=
  Count.sub (Count.ofNat (r.openSeats capacity)) r.headroom

def requestedSeats (s : Snapshot) : UInt32 := Count.add s.occupancy s.partySize

def holds (r : CapacityRule) (s : Snapshot) : Bool :=
  s.resource.active && requestedSeats s ≤ r.usableSeats s.resource.capacity

def description (r : CapacityRule) : String :=
  "Resource has capacity (utilization ceiling " ++ (r.ceiling.percent.getD r.ceiling).text ++ "%)"

def reason? (r : CapacityRule) (s : Snapshot) : Option String :=
  if !s.resource.active then some ("Resource '" ++ s.resource.name ++ "' is not available")
  else if r.usableSeats s.resource.capacity < requestedSeats s then
    some ("Resource '" ++ s.resource.name ++ "' is full: " ++
      Text.decimalText s.occupancy.toNat ++ " of " ++
      Text.decimalText (r.usableSeats s.resource.capacity).toNat ++ " usable seats taken, " ++
      Text.decimalText s.partySize.toNat ++ " requested")
  else none

end CapacityRule
end ClubBooking
