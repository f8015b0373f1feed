import ClubBooking.Club.OperatingHours
import ClubBooking.Club.Plan

/-! Resources that can be booked: rooms, courts, equipment. -/

namespace ClubBooking

structure Resource where
  id : Identifier
  name : String
  category : Category
  capacity : UInt32
  hours : OperatingHours
  active : Bool
deriving DecidableEq

namespace Resource

def make (id : Identifier) (name : String) (category : Category) (capacity : UInt32) :
    Except Fault Resource := do
  if capacity = 0 then .error (.invalid .noCapacity)
  let name ← nonBlank "resource name" name
  pure ⟨id, name, category, capacity, .always, true⟩

end Resource
end ClubBooking
