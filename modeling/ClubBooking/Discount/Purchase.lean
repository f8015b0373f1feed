import ClubBooking.Club.Member
import ClubBooking.Club.Plan

/-! What discounts look at: who buys, on which date, and the coupon code presented. -/

namespace ClubBooking

structure Purchase where
  member : Member
  plan : Plan
  date : Date
  /-- The code presented, without blanks around it. -/
  coupon : Option String
  enrolled : member.planId = plan.id

namespace Purchase

def make (member : Member) (plan : Plan) (date : Date) : Except Fault Purchase :=
  if enrolled : member.planId = plan.id then .ok ⟨member, plan, date, none, enrolled⟩
  else .error (.invalid (.notEnrolled member.id plan.id))

/-- A blank code is none. -/
def withCoupon (p : Purchase) (code : String) : Purchase :=
  let code := Text.trim code
  { p with coupon := if code = "" then none else some code }

end Purchase
end ClubBooking
