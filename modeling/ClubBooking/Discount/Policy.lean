import ClubBooking.Discount.Coupon
import ClubBooking.Discount.Offer
import ClubBooking.Discount.Rates

/-! Discount policies: single discounts, and composites of discounts that combine their children by
a strategy and then hold the outcome between a cap on the discount and a floor of the price. -/

namespace ClubBooking

structure Blend where
  description : String
  strategy : Strategy
  /-- The discount in all is at most this. -/
  cap : Option Money
  /-- The price stays at least this, unless it was less. -/
  floor : Option Money
  /-- In place of the least priority number of the children. -/
  priority : Option Int

structure Breakdown where
  original : Money
  finalPrice : Money
  totalDiscount : Money
  strategy : Strategy
  applied : List Applied
  capped : Bool
  floored : Bool
deriving DecidableEq

namespace Blend

def applyCap (b : Blend) (original price : Money) : Except Fault (Money × Bool) :=
  match b.cap with
  | none => .ok (price, false)
  | some cap => do
    let discount ← original.saturatingSub price
    original.sameCurrency cap
    if cap.amount < discount.amount then pure (← original.saturatingSub cap, true)
    else pure (price, false)

def applyFloor (b : Blend) (original price : Money) : Except Fault (Money × Bool) :=
  match b.floor with
  | none => .ok (price, false)
  | some floor => do
    let floor ← floor.min original
    if price.amount < floor.amount then pure (floor, true) else pure (price, false)

def evaluate (b : Blend) (os : List Offer) (price : Money) : Except Fault Breakdown := do
  let outcome ← b.strategy.run price (os.filter (·.applies))
  let (bounded, capped) ← b.applyCap price outcome.price
  let (final, floored) ← b.applyFloor price bounded
  let total ← price.saturatingSub final
  pure ⟨price, final, total, b.strategy, outcome.applied, capped, floored⟩

def label (b : Blend) (children : List Label) : Label where
  description := b.description
  priority := b.priority.getD ((children.map (·.priority)).min?.getD 2147483647)
  kind := .other

def offer (b : Blend) (os : List Offer) : Offer where
  toLabel := b.label (os.map (·.toLabel))
  applies := os.any (·.applies)
  apply price := (b.evaluate os price).map (·.finalPrice)

end Blend

inductive Discount where
  | rate (d : RateDiscount)
  | amount (d : AmountDiscount)
  | coupon (c : Coupon)
  | seasonal (d : SeasonalDiscount)
  /-- The discount of the member's plan. -/
  | membership (priority : Int)
  | none
  | composite (b : Blend) (children : List Discount)

def Money.meets (price : Money) (minimum : Option Money) : Except Fault Bool :=
  match minimum with
  | some m => do
    price.sameCurrency m
    pure (m.amount ≤ price.amount)
  | .none => .ok true

def Money.reducedBy (price : Money) (rate : Decimal) : Except Fault Money := do
  price.saturatingSub (← price.multiply rate)

namespace RateDiscount

def apply (d : RateDiscount) (price : Money) : Except Fault Money := do
  if ← price.meets d.minimum then
    let discount ← price.multiply d.rate
    match d.maximum with
    | some m => price.saturatingSub (← discount.min m)
    | none => price.saturatingSub discount
  else pure price

def label (d : RateDiscount) : Label := ⟨d.description, d.priority, .rate⟩

def offer (d : RateDiscount) : Offer := ⟨d.label, !d.rate.isZero, d.apply⟩

end RateDiscount

namespace AmountDiscount

def apply (d : AmountDiscount) (price : Money) : Except Fault Money := do
  if ← price.meets d.minimum then price.saturatingSub d.amount else pure price

def label (d : AmountDiscount) : Label := ⟨d.description, d.priority, .amount⟩

def offer (d : AmountDiscount) : Offer := ⟨d.label, true, d.apply⟩

end AmountDiscount

namespace Coupon

def apply (c : Coupon) (p : Purchase) (price : Money) : Except Fault Money := do
  if !c.isApplicable p then pure price
  else if ← price.meets c.minimum then
    match c.benefit with
    | .rate r => price.reducedBy r
    | .amount m => price.saturatingSub m
  else pure price

def label (c : Coupon) : Label := ⟨c.description, c.priority, .other⟩

def offer (c : Coupon) (p : Purchase) : Offer := ⟨c.label, c.isApplicable p, c.apply p⟩

end Coupon

namespace SeasonalDiscount

def apply (d : SeasonalDiscount) (date : Date) (price : Money) : Except Fault Money :=
  match d.rateFor date with
  | some (_, r) => if r.isZero then .ok price else price.reducedBy r
  | none => .ok price

def label (d : SeasonalDiscount) : Label := ⟨d.description, d.priority, .other⟩

def offer (d : SeasonalDiscount) (date : Date) : Offer :=
  ⟨d.label, d.isApplicable date, d.apply date⟩

end SeasonalDiscount

namespace Purchase

def hasPlanDiscount (p : Purchase) : Bool :=
  p.member.isActive && p.plan.active && !p.plan.discountRate.isZero

def planOffer (p : Purchase) (l : Label) : Offer :=
  ⟨l, p.hasPlanDiscount, fun price =>
    if p.hasPlanDiscount then price.reducedBy p.plan.discountRate else .ok price⟩

end Purchase

namespace Discount

def planLabel (priority : Int) : Label := ⟨"Membership plan discount", priority, .other⟩

def emptyLabel : Label := ⟨"No discount", 2147483647, .other⟩

mutual

def label : Discount → Label
  | rate d => d.label
  | amount d => d.label
  | coupon c => c.label
  | seasonal d => d.label
  | membership priority => planLabel priority
  | none => emptyLabel
  | composite b ds => b.label (labels ds)

def labels : List Discount → List Label
  | [] => []
  | d :: ds => d.label :: labels ds

end

mutual

def offer (p : Purchase) : Discount → Offer
  | rate d => d.offer
  | amount d => d.offer
  | coupon c => c.offer p
  | seasonal d => d.offer p.date
  | membership priority => p.planOffer (planLabel priority)
  | none => ⟨emptyLabel, true, .ok⟩
  | composite b ds => b.offer (offers p ds)

def offers (p : Purchase) : List Discount → List Offer
  | [] => []
  | d :: ds => d.offer p :: offers p ds

end

@[simp] theorem labels_eq_map (ds : List Discount) : labels ds = ds.map label := by
  induction ds with
  | nil => rfl
  | cons d ds ih => rw [labels, List.map_cons, ih]

@[simp] theorem offers_eq_map (p : Purchase) (ds : List Discount) :
    offers p ds = ds.map (offer p) := by
  induction ds with
  | nil => rfl
  | cons d ds ih => rw [offers, List.map_cons, ih]

mutual

theorem toLabel_offer (p : Purchase) : (d : Discount) → (d.offer p).toLabel = d.label
  | rate _ | amount _ | coupon _ | seasonal _ | membership _ | none => rfl
  | composite b ds => by
    rw [offer, label, Blend.offer, toLabel_offers p ds]

theorem toLabel_offers (p : Purchase) :
    (ds : List Discount) → (offers p ds).map (·.toLabel) = labels ds
  | [] => rfl
  | d :: ds => by
    rw [offers, labels, List.map_cons, toLabel_offer p d, toLabel_offers p ds]

end

def apply (d : Discount) (p : Purchase) (price : Money) : Except Fault Money :=
  (d.offer p).apply price

def isApplicable (d : Discount) (p : Purchase) : Bool := (d.offer p).applies

end Discount

structure Composite where
  blend : Blend
  children : List Discount

namespace Composite

/-- Cap and floor are in one currency, and there is one child at least. -/
def make (b : Blend) (children : List Discount) : Except Fault Composite := do
  let description ← nonBlank "composite description" b.description
  if children.isEmpty then .error (.emptyList "discount policies")
  match b.cap, b.floor with
  | some cap, some floor => cap.sameCurrency floor
  | _, _ => pure ()
  pure ⟨{ b with description }, children⟩

def discount (c : Composite) : Discount := .composite c.blend c.children

def evaluate (c : Composite) (p : Purchase) (price : Money) : Except Fault Breakdown :=
  c.blend.evaluate (Discount.offers p c.children) price

end Composite
end ClubBooking
