import ClubBooking.Discount.Policy
import ClubBooking.Eligibility.Policy
import ClubBooking.Engine.Metrics
import ClubBooking.Engine.Store
import ClubBooking.Settings

/-! The engine: it decides requests by a policy and prices purchases by a composite discount, over
the facts of a store, and counts what it does. A reservation is stored only if the policy allows
its request, in one step with the check. -/

namespace ClubBooking

structure Request where
  memberId : Identifier
  resourceId : Identifier
  slot : TimeSlot
  partySize : UInt32
  /-- When it is made. -/
  now : DateTime
deriving DecidableEq

inductive Booking where
  | confirmed (r : Reservation)
  | denied (d : Decision)
deriving DecidableEq

structure Engine where
  policy : EligibilityPolicy
  pricing : Composite

structure Engine.State where
  store : Store
  metrics : Metrics

namespace Engine

def State.initial : State := ⟨.empty, .zero⟩

/-- The policy of a level, and the plan discount of members between cap and floor. -/
def ofSettings (s : Settings) : Except Fault Engine := do
  let policy ← EligibilityPolicy.forLevel s.level
  let pricing ← Composite.make ⟨"Member pricing", s.strategy, s.cap, s.floor, none⟩
    [.membership 20]
  pure ⟨policy, pricing⟩

def snapshot (store : Store) (r : Request) : Except Fault Snapshot := do
  let (member, plan) ← store.memberWithPlan r.memberId
  let resource ← store.resource r.resourceId
  Snapshot.make member plan resource r.slot r.now r.partySize (store.heldBy r.memberId r.now)
    (store.occupancy r.resourceId r.slot)

def decide (e : Engine) (store : Store) (r : Request) : Except Fault Decision := do
  let s ← snapshot store r
  pure (e.policy.evaluate s)

def isDenial : Except Fault Decision → Bool
  | .ok d => !d.allowed
  | .error _ => false

def check (e : Engine) (st : State) (r : Request) : Except Fault Decision × State :=
  let timer := Timer.start .check
  let decision := e.decide st.store r
  let metrics := if isDenial decision then st.metrics.countDenied else st.metrics
  (decision, { st with metrics := timer.drop metrics })

def quote (e : Engine) (st : State) (member : Identifier) (price : Money) (date : Date)
    (coupon : Option String) : Except Fault Breakdown × State :=
  let timer := Timer.start .pricing
  let answer : Except Fault Breakdown := do
    let (member, plan) ← st.store.memberWithPlan member
    let purchase ← Purchase.make member plan date
    let purchase := match coupon with
      | some code => purchase.withCoupon code
      | none => purchase
    e.pricing.evaluate purchase price
  (answer, { st with metrics := timer.drop st.metrics })

def commit (st : State) (fresh : Identifier) (r : Request) :
    Except Fault (Reservation × State) := do
  let reservation ← Reservation.make fresh r.memberId r.resourceId r.slot r.partySize
  let store ← st.store.addReservation reservation
  pure (reservation, ⟨store, st.metrics.countCommitted⟩)

def reserve (e : Engine) (st : State) (fresh : Identifier) (r : Request) :
    Except Fault Booking × State :=
  match e.check st r with
  | (.error fault, st) => (.error fault, st)
  | (.ok decision, st) =>
    if decision.allowed then
      match commit st fresh r with
      | .ok (reservation, st) => (.ok (.confirmed reservation), st)
      | .error fault => (.error fault, st)
    else (.ok (.denied decision), st)

theorem store_check (e : Engine) (st : State) (r : Request) :
    (e.check st r).2.store = st.store := rfl

theorem store_quote (e : Engine) (st : State) (member : Identifier) (price : Money) (date : Date)
    (coupon : Option String) : (e.quote st member price date coupon).2.store = st.store := rfl

theorem decision_check (e : Engine) (st : State) (r : Request) :
    (e.check st r).1 = e.decide st.store r := rfl

end Engine
end ClubBooking
