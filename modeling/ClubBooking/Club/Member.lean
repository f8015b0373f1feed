import ClubBooking.Club.Checks
import ClubBooking.Interval.DateRange

/-! Members of the club. -/

namespace ClubBooking

inductive MemberStatus where
  | active | suspended | expired | withdrawn
deriving DecidableEq, Repr

namespace MemberStatus

def name : MemberStatus → String
  | active => "active"
  | suspended => "suspended"
  | expired => "expired"
  | withdrawn => "withdrawn"

instance : Named MemberStatus where
  noun := "member status"
  members := [active, suspended, expired, withdrawn]
  name := name
  mem_members a := by cases a <;> decide
  name_inj a b h := by cases a <;> cases b <;> simp [name] at h ⊢

end MemberStatus

inductive Tier where
  | basic | standard | premium | vip
deriving DecidableEq, Repr

namespace Tier

def name : Tier → String
  | basic => "basic"
  | standard => "standard"
  | premium => "premium"
  | vip => "vip"

instance : Named Tier where
  noun := "membership tier"
  members := [basic, standard, premium, vip]
  name := name
  mem_members a := by cases a <;> decide
  name_inj a b h := by cases a <;> cases b <;> simp [name] at h ⊢

def isVip (t : Tier) : Bool := t == premium || t == vip

end Tier

structure Member where
  id : Identifier
  name : String
  status : MemberStatus
  tier : Tier
  period : DateRange
  planId : Identifier
deriving DecidableEq

namespace Member

def make (id : Identifier) (name : String) (planId : Identifier) (period : DateRange) :
    Except Fault Member := do
  let name ← nonBlank "member name" name
  pure ⟨id, name, .active, .standard, period, planId⟩

def isActive (m : Member) : Bool := m.status == .active

end Member
end ClubBooking
