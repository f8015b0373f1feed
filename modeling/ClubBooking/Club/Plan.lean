import ClubBooking.Club.Checks

/-! Membership plans: what their members may book, how much and how far ahead, and the discount
they get. -/

namespace ClubBooking

inductive Category where
  | studyRoom | meetingRoom | fitnessStudio | sportsCourt | lounge | equipment
deriving DecidableEq, Repr

namespace Category

def name : Category → String
  | studyRoom => "study_room"
  | meetingRoom => "meeting_room"
  | fitnessStudio => "fitness_studio"
  | sportsCourt => "sports_court"
  | lounge => "lounge"
  | equipment => "equipment"

instance : Named Category where
  noun := "resource category"
  members := [studyRoom, meetingRoom, fitnessStudio, sportsCourt, lounge, equipment]
  name := name
  mem_members a := by cases a <;> decide
  name_inj a b h := by cases a <;> cases b <;> simp [name] at h ⊢

end Category

/-- A set of categories, listed in the order of their declaration. -/
structure Privileges where
  list : List Category
  ordered : list = (Named.members : List Category).filter (list.contains ·)
deriving DecidableEq

namespace Privileges

def ofList (cs : List Category) : Privileges :=
  ⟨(Named.members : List Category).filter (cs.contains ·), by
    apply List.filter_congr
    intro c hc
    simp [hc]⟩

def contains (p : Privileges) (c : Category) : Bool := p.list.contains c

theorem contains_ofList (cs : List Category) (c : Category) :
    (ofList cs).contains c = cs.contains c := by
  simp [ofList, contains, Named.mem_members]

theorem ofList_list (p : Privileges) : ofList p.list = p := by
  obtain ⟨l, hl⟩ := p
  simp only [ofList, mk.injEq]
  exact hl.symm

end Privileges

structure Plan where
  id : Identifier
  name : String
  privileges : Privileges
  maxReservations : UInt32
  advanceDays : UInt32
  discountRate : Decimal
  active : Bool
deriving DecidableEq

namespace Plan

def make (id : Identifier) (name : String) (privileges : List Category)
    (maxReservations advanceDays : UInt32) : Except Fault Plan := do
  if maxReservations = 0 then .error (.invalid .noReservationsAllowed)
  let name ← nonBlank "plan name" name
  pure ⟨id, name, .ofList privileges, maxReservations, advanceDays, .zero, true⟩

def withDiscountRate (p : Plan) (rate : Decimal) : Except Fault Plan := do
  rate.checkRate
  pure { p with discountRate := rate }

def deactivated (p : Plan) : Plan := { p with active := false }

def grants (p : Plan) (c : Category) : Bool := p.privileges.contains c

end Plan
end ClubBooking
