import ClubBooking.Club.Count
import ClubBooking.Eligibility.Snapshot
import ClubBooking.Engine.Table

/-! The store of plans, members, resources and reservations. -/

namespace ClubBooking

structure Store where
  plans : Table Plan
  members : Table Member
  resources : Table Resource
  reservations : Table Reservation

namespace Store

def empty : Store := ⟨.empty, .empty, .empty, .empty⟩

def entry {α : Type} (e : Entity) (t : Table α) (id : Identifier) : Except Fault α :=
  match t.get? id with
  | some a => .ok a
  | none => .error (.notFound e id)

def plan (s : Store) (id : Identifier) : Except Fault Plan := entry .plan s.plans id

def member (s : Store) (id : Identifier) : Except Fault Member := entry .member s.members id

def resource (s : Store) (id : Identifier) : Except Fault Resource :=
  entry .resource s.resources id

def reservation (s : Store) (id : Identifier) : Except Fault Reservation :=
  entry .reservation s.reservations id

def memberWithPlan (s : Store) (id : Identifier) : Except Fault (Member × Plan) := do
  let m ← s.member id
  let p ← s.plan m.planId
  pure (m, p)

def insertPlan (s : Store) (p : Plan) : Store := { s with plans := s.plans.put p.id p }

/-- A member's plan has to be there first. -/
def insertMember (s : Store) (m : Member) : Except Fault Store := do
  let _ ← s.plan m.planId
  pure { s with members := s.members.put m.id m }

def insertResource (s : Store) (r : Resource) : Store :=
  { s with resources := s.resources.put r.id r }

def addReservation (s : Store) (r : Reservation) : Except Fault Store := do
  let _ ← s.member r.memberId
  let _ ← s.resource r.resourceId
  pure { s with reservations := s.reservations.put r.id r }

def setStatus (s : Store) (id : Identifier) (status : ReservationStatus) :
    Except Fault (Reservation × Store) := do
  let r ← s.reservation id
  let r := { r with status }
  pure (r, { s with reservations := s.reservations.put id r })

def reservationsOf (s : Store) (member : Identifier) : List Reservation :=
  s.reservations.values.filter (·.memberId = member)

/-- Statuses of a member's active reservations that have not ended at an instant. -/
def heldBy (s : Store) (member : Identifier) (now : DateTime) : List ReservationStatus :=
  (s.reservations.values.filter fun r =>
    r.memberId = member && r.isActive && now < r.slot.stop).map (·.status)

def overlapping (s : Store) (resource : Identifier) (slot : TimeSlot) : List Reservation :=
  s.reservations.values.filter fun r =>
    r.resourceId = resource && r.isActive && r.slot.overlaps slot

/-- Seats of a resource that are taken during a slot. -/
def occupancy (s : Store) (resource : Identifier) (slot : TimeSlot) : UInt32 :=
  Count.sum ((s.overlapping resource slot).map (·.partySize))

theorem entry_eq_ok_iff {α : Type} {e : Entity} {t : Table α} {id : Identifier} {a : α} :
    entry e t id = .ok a ↔ t.get? id = some a := by
  unfold entry
  split
  · next h => rw [h, Except.ok.injEq, Option.some.injEq]
  · next h => simp [h]

theorem entry_eq_error_iff {α : Type} {e : Entity} {t : Table α} {id : Identifier} {f : Fault} :
    entry e t id = .error f ↔ t.get? id = none ∧ f = .notFound e id := by
  unfold entry
  split
  · next h => simp [h]
  · next h => simp [h, eq_comm]

theorem plan_insertPlan (s : Store) (p : Plan) (id : Identifier) :
    (s.insertPlan p).plan id = if p.id = id then .ok p else s.plan id := by
  unfold plan insertPlan entry
  rw [Table.get?_put]
  by_cases h : p.id = id <;> simp [h]

theorem resource_insertResource (s : Store) (r : Resource) (id : Identifier) :
    (s.insertResource r).resource id = if r.id = id then .ok r else s.resource id := by
  unfold resource insertResource entry
  rw [Table.get?_put]
  by_cases h : r.id = id <;> simp [h]

theorem insertMember_eq_ok_iff {s t : Store} {m : Member} :
    s.insertMember m = .ok t ↔
      (∃ p, s.plan m.planId = .ok p) ∧ t = { s with members := s.members.put m.id m } := by
  unfold insertMember
  cases h : s.plan m.planId with
  | error f => simp [bind, Except.bind]
  | ok p => simp [bind, Except.bind, pure, Except.pure, eq_comm]

end Store
end ClubBooking
