import ClubBooking.Discount.Policy
import ClubBooking.Document.Values

/-! Discount plans as documents: a list of rules, amounts in one currency, and how they combine.
A document that can be read is checked field by field, and only then built into a policy. -/

namespace ClubBooking

structure RateRule where
  description : String
  rate : Decimal
  minimum : Option Decimal
  maximum : Option Decimal
  priority : Option Int

structure AmountRule where
  description : String
  amount : Decimal
  minimum : Option Decimal
  priority : Option Int

/-- Of rate and amount one is given. -/
structure CouponRule where
  code : String
  rate : Option Decimal
  amount : Option Decimal
  validFrom : Date
  validUntil : Date
  members : List Identifier
  minimum : Option Decimal
  priority : Option Int

structure SeasonalRule where
  rates : List (Season × Decimal)
  priority : Option Int

inductive DiscountRule where
  | rate (r : RateRule)
  | amount (r : AmountRule)
  | coupon (r : CouponRule)
  | seasonal (r : SeasonalRule)
  | membership (priority : Option Int)
  | none

structure DiscountPlan where
  description : String
  strategy : Strategy
  currency : Currency
  cap : Option Decimal
  floor : Option Decimal
  rules : List DiscountRule

abbrev Problems := List FieldProblem

namespace Problems

def demand (ok : Bool) (field : String) (c : Complaint) : Problems :=
  if ok then [] else [⟨field, c⟩]

def ofRate (field : String) (r : Decimal) : Problems := demand r.IsRate field (.rateOutOfRange r)

def ofAmount (field : String) (a : Decimal) : Problems :=
  demand a.IsPositive field (.amountNotPositive a)

def ofOption {α : Type} (f : α → Problems) : Option α → Problems
  | some a => f a
  | none => []

def ofDescription (s : String) : Problems :=
  demand (s ≠ "") "description" (.text "Description cannot be empty")

def check : Problems → Except Fault Unit
  | [] => .ok ()
  | ps => .error (.invalid (.document ps))

end Problems

namespace RateRule

/-- The fields in alphabetical order. -/
def problems (r : RateRule) : Problems :=
  .ofDescription r.description ++ .ofOption (.ofAmount "max_discount") r.maximum ++
    .ofOption (.ofAmount "minimum_purchase") r.minimum ++ .ofRate "rate" r.rate

end RateRule

namespace AmountRule

def problems (r : AmountRule) : Problems :=
  .ofAmount "amount" r.amount ++ .ofDescription r.description ++
    .ofOption (.ofAmount "minimum_purchase") r.minimum

end AmountRule

namespace CouponRule

def problems (r : CouponRule) : Problems :=
  .ofOption (.ofAmount "amount") r.amount ++
    .demand (3 ≤ r.code.length && r.code.length ≤ 32) "code"
      (.text "Coupon code must be 3-32 characters") ++
    .ofOption (.ofAmount "minimum_purchase") r.minimum ++ .ofOption (.ofRate "rate") r.rate

end CouponRule

namespace SeasonalRule

def problems (r : SeasonalRule) : Problems :=
  .demand (!r.rates.isEmpty) "rates" (.text "At least one seasonal rate is required")

/-- The first rate that is out of range. -/
def checkRates : (rates : List (Season × Decimal)) → Except Fault Unit
  | [] => .ok ()
  | e :: es => do
    Problems.check (.ofRate "rate" e.2)
    checkRates es

end SeasonalRule

namespace DiscountRule

def check : DiscountRule → Except Fault Unit
  | rate r => r.problems.check
  | amount r => r.problems.check
  | coupon r => do
    r.problems.check
    if r.rate.isSome == r.amount.isSome then
      .error (.misconfigured (.couponBenefit r.code))
  | seasonal r => do
    r.problems.check
    SeasonalRule.checkRates r.rates
  | membership _ => .ok ()
  | none => .ok ()

def money? (c : Currency) : Option Decimal → Except Fault (Option Money)
  | some a => do
    let m ← Money.ofDecimal a c
    pure (some m)
  | .none => .ok .none

def build (c : Currency) : DiscountRule → Except Fault Discount
  | rate r => do
    let d ← RateDiscount.make r.description r.rate
    let minimum ← money? c r.minimum
    let maximum ← money? c r.maximum
    pure (.rate { d with minimum, maximum, priority := r.priority.getD d.priority })
  | amount r => do
    let m ← Money.ofDecimal r.amount c
    let d ← AmountDiscount.make r.description m
    let minimum ← money? c r.minimum
    pure (.amount { d with minimum, priority := r.priority.getD d.priority })
  | coupon r => do
    let benefit ← match r.rate, r.amount with
      | some value, .none => .ok (Benefit.rate value)
      | .none, some value => (Money.ofDecimal value c).map Benefit.amount
      | _, _ => .error (.misconfigured (.couponBenefit r.code))
    let validity ← DateRange.make r.validFrom r.validUntil
    let d ← Coupon.make r.code benefit validity
    let minimum ← money? c r.minimum
    pure (.coupon
      { d with members := r.members, minimum, priority := r.priority.getD d.priority })
  | seasonal r => do
    let d ← SeasonalDiscount.make r.rates
    pure (.seasonal { d with priority := r.priority.getD d.priority })
  | membership priority => .ok (.membership (priority.getD 20))
  | none => .ok .none

end DiscountRule

namespace DiscountPlan

def problems (p : DiscountPlan) : Problems :=
  .ofDescription p.description ++ .ofOption (.ofAmount "max_total_discount") p.cap ++
    .ofOption (.ofAmount "minimum_price") p.floor ++
    .demand (!p.rules.isEmpty) "rules" (.text "At least one discount rule is required")

def checkRules : List DiscountRule → Except Fault Unit
  | [] => .ok ()
  | r :: rs => do
    r.check
    checkRules rs

def check (p : DiscountPlan) : Except Fault Unit := do
  p.problems.check
  checkRules p.rules

def build (p : DiscountPlan) : Except Fault Composite := do
  p.check
  let children ← p.rules.mapM (·.build p.currency)
  let cap ← DiscountRule.money? p.currency p.cap
  let floor ← DiscountRule.money? p.currency p.floor
  Composite.make ⟨p.description, p.strategy, cap, floor, none⟩ children

end DiscountPlan
end ClubBooking
