import ClubBooking.Club.Member
import ClubBooking.Club.Reservation
import ClubBooking.Club.Resource
import ClubBooking.Document.Values

/-! Members, plans, resources and reservations in documents. Names, limits and rates are read as
they stand; only constructors check them. -/

namespace ClubBooking

namespace Member

def toJson (m : Member) : Json :=
  .record [("id", m.id.toJson), ("name", .text m.name), ("status", Named.toJson m.status),
    ("tier", Named.toJson m.tier), ("membership_period", m.period.toJson),
    ("plan_id", m.planId.toJson)]

def ofJson? (j : Json) : Option Member :=
  match j.record? ["id", "name", "status", "tier", "membership_period", "plan_id"] 6 with
  | some [id, name, status, tier, period, planId] => do
    pure {
      id := ← Json.field? Json.identifier? id
      name := ← Json.field? Json.text? name
      status := ← Json.field? Json.name? status
      tier := ← Json.field? Json.name? tier
      period := ← Json.field? DateRange.ofJson? period
      planId := ← Json.field? Json.identifier? planId }
  | _ => none

end Member

namespace Privileges

def toJson (p : Privileges) : Json := .array (p.list.map Named.toJson)

def ofJson? (j : Json) : Option Privileges := (j.list? Json.name?).map ofList

end Privileges

namespace Plan

def toJson (p : Plan) : Json :=
  .record [("id", p.id.toJson), ("name", .text p.name), ("privileges", p.privileges.toJson),
    ("max_simultaneous_reservations", .int p.maxReservations.toNat),
    ("advance_booking_days", .int p.advanceDays.toNat), ("discount_rate", p.discountRate.toJson),
    ("active", .bool p.active)]

def ofJson? (j : Json) : Option Plan :=
  match j.record? ["id", "name", "privileges", "max_simultaneous_reservations",
      "advance_booking_days", "discount_rate", "active"] 7 with
  | some [id, name, privileges, maxReservations, advanceDays, discountRate, active] => do
    pure {
      id := ← Json.field? Json.identifier? id
      name := ← Json.field? Json.text? name
      privileges := ← Json.field? Privileges.ofJson? privileges
      maxReservations := ← Json.field? Json.uint32? maxReservations
      advanceDays := ← Json.field? Json.uint32? advanceDays
      discountRate := ← Json.field? Json.decimal? discountRate
      active := ← Json.field? Json.bool? active }
  | _ => none

end Plan

namespace OperatingHours

def toJson (h : OperatingHours) : Json :=
  .record [("opens_at", h.opens.toJson), ("closes_at", Json.option TimeOfDay.toJson h.closes),
    ("open_days", .array (h.days.map Weekday.toJson))]

def ofJson? (j : Json) : Option OperatingHours :=
  match j.record? ["opens_at", "closes_at", "open_days"] 3 with
  | some [opens, closes, days] => do
    pure {
      opens := ← Json.field? Json.time? opens
      closes := ← Json.optional? Json.time? closes
      days := ← Json.field? (Json.list? Json.weekday?) days }
  | _ => none

end OperatingHours

namespace Resource

def toJson (r : Resource) : Json :=
  .record [("id", r.id.toJson), ("name", .text r.name), ("category", Named.toJson r.category),
    ("capacity", .int r.capacity.toNat), ("operating_hours", r.hours.toJson),
    ("active", .bool r.active)]

def ofJson? (j : Json) : Option Resource :=
  match j.record? ["id", "name", "category", "capacity", "operating_hours", "active"] 6 with
  | some [id, name, category, capacity, hours, active] => do
    pure {
      id := ← Json.field? Json.identifier? id
      name := ← Json.field? Json.text? name
      category := ← Json.field? Json.name? category
      capacity := ← Json.field? Json.uint32? capacity
      hours := ← Json.field? OperatingHours.ofJson? hours
      active := ← Json.field? Json.bool? active }
  | _ => none

end Resource

namespace Reservation

def toJson (r : Reservation) : Json :=
  .record [("id", r.id.toJson), ("member_id", r.memberId.toJson),
    ("resource_id", r.resourceId.toJson), ("slot", r.slot.toJson),
    ("party_size", .int r.partySize.toNat), ("status", Named.toJson r.status)]

def ofJson? (j : Json) : Option Reservation :=
  match j.record? ["id", "member_id", "resource_id", "slot", "party_size", "status"] 6 with
  | some [id, memberId, resourceId, slot, partySize, status] => do
    pure {
      id := ← Json.field? Json.identifier? id
      memberId := ← Json.field? Json.identifier? memberId
      resourceId := ← Json.field? Json.identifier? resourceId
      slot := ← Json.field? TimeSlot.ofJson? slot
      partySize := ← Json.field? Json.uint32? partySize
      status := ← Json.field? Json.name? status }
  | _ => none

end Reservation
end ClubBooking
