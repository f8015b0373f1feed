import ClubBooking.Proofs.Discount.Choice
import ClubBooking.Proofs.Discount.Terms

/-! What pricing refuses. Whatever a discount is made of, it is refused for what happens to amounts
of money on the way, and for nothing else: amounts of two currencies meet, one goes below zero, or
one grows too large. -/

namespace ClubBooking

inductive Fault.IsMonetary : Fault → Prop where
  | invalidAmount (cause : AmountFault) : IsMonetary (.invalidAmount cause)
  | currencyMismatch (left right : Currency) : IsMonetary (.currencyMismatch left right)
  | overflow (operation : Operation) : IsMonetary (.overflow operation)

/-- All that a computation may be refused for are faults of reckoning. -/
def Reckons {α : Type} (x : Except Fault α) : Prop := ∀ f, x = .error f → f.IsMonetary

namespace Reckons
variable {α β : Type} {x : Except Fault α} {g : α → Except Fault β}

theorem ok (a : α) : Reckons (.ok a) := fun _ h => by cases h

theorem error {f : Fault} (h : f.IsMonetary) : Reckons (.error f : Except Fault α) := by
  rintro _ ⟨⟩
  exact h

theorem bind (hx : Reckons x) (hg : ∀ a, Reckons (g a)) : Reckons (x >>= g) := by
  cases x with
  | error f => exact error (hx f rfl)
  | ok a => exact hg a

theorem ite {c : Prop} [Decidable c] {y : Except Fault α} (hx : Reckons x) (hy : Reckons y) :
    Reckons (if c then x else y) := by
  split
  · exact hx
  · exact hy

theorem map {h : α → β} (hx : Reckons x) : Reckons (x.map h) := by
  cases x with
  | error f => exact error (hx f rfl)
  | ok a => exact ok _

end Reckons

namespace Money

theorem reckons_sameCurrency (a b : Money) : Reckons (a.sameCurrency b) :=
  .ite (.ok ()) (.error (.currencyMismatch ..))

theorem reckons_saturatingSub (a b : Money) : Reckons (a.saturatingSub b) := by
  unfold saturatingSub subOr
  split
  · split
    · exact .error (.overflow _)
    · split
      · exact .ok _
      · exact .ok _
  · exact .error (.currencyMismatch ..)

theorem reckons_multiply (a : Money) (factor : Decimal) : Reckons (a.multiply factor) := by
  unfold multiply
  split
  · split
    · exact .error (.overflow _)
    · exact .ok _
  · exact .error (.invalidAmount _)

theorem reckons_min (a b : Money) : Reckons (a.min b) :=
  (a.reckons_sameCurrency b).bind fun _ => .ok _

theorem reckons_meets (price : Money) (minimum : Option Money) :
    Reckons (price.meets minimum) := by
  cases minimum with
  | none => exact .ok _
  | some m => exact (price.reckons_sameCurrency m).bind fun _ => .ok _

theorem reckons_reducedBy (price : Money) (rate : Decimal) : Reckons (price.reducedBy rate) :=
  (price.reckons_multiply rate).bind fun discount => price.reckons_saturatingSub discount

end Money

def Offer.Reckons (o : Offer) : Prop := ∀ price, ClubBooking.Reckons (o.apply price)

theorem Offer.Reckons.attempt {o : Offer} (h : o.Reckons) (price : Money) :
    ClubBooking.Reckons (o.attempt price) := by
  refine (h price).bind fun raw => (raw.reckons_min price).bind fun result => ?_
  exact (price.reckons_saturatingSub result).bind fun _ => .ok _

namespace Strategy
variable {os : List Offer}

theorem reckons_inTurn (hos : ∀ o ∈ os, o.Reckons) (price : Money) :
    Reckons (inTurn price os) := by
  induction os generalizing price with
  | nil => exact .ok _
  | cons o os ih =>
    rw [List.forall_mem_cons] at hos
    exact (hos.1.attempt price).bind fun t => (ih hos.2 t.price).bind fun _ => .ok _

theorem reckons_bestFrom (hos : ∀ o ∈ os, o.Reckons) (price : Money) (best : Option Trial) :
    Reckons (bestFrom price best os) := by
  induction os generalizing best with
  | nil => exact .ok _
  | cons o os ih =>
    rw [List.forall_mem_cons] at hos
    exact (hos.1.attempt price).bind fun t => ih hos.2 (Trial.better best t)

theorem reckons_run (s : Strategy) (hos : ∀ o ∈ os, o.Reckons) (price : Money) :
    Reckons (s.run price os) := by
  have hkind (k : DiscountKind) : ∀ o ∈ ofKind k os, o.Reckons := by
    intro o ho
    exact hos o (List.mem_of_mem_filter ho)
  cases s with
  | sequential => exact reckons_inTurn hos price
  | bestSingle => exact (reckons_bestFrom hos price none).bind fun _ => .ok _
  | priorityFirst =>
    refine reckons_inTurn (fun o ho => ?_) price
    exact hos o (mem_of_mostUrgent (Option.mem_toList.1 ho))
  | smart =>
    refine (reckons_inTurn (hkind .other) price).bind fun others => ?_
    refine (reckons_bestFrom (hkind .rate) others.price none).bind fun rate => ?_
    exact (reckons_bestFrom (hkind .amount) others.price none).bind fun _ => .ok _

end Strategy

namespace Blend

theorem reckons_applyCap (b : Blend) (original price : Money) :
    Reckons (b.applyCap original price) := by
  unfold applyCap
  cases b.cap with
  | none => exact .ok _
  | some cap =>
    refine (original.reckons_saturatingSub price).bind fun discount => ?_
    refine (original.reckons_sameCurrency cap).bind fun _ => .ite ?_ (.ok _)
    exact (original.reckons_saturatingSub cap).bind fun _ => .ok _

theorem reckons_applyFloor (b : Blend) (original price : Money) :
    Reckons (b.applyFloor original price) := by
  unfold applyFloor
  cases b.floor with
  | none => exact .ok _
  | some floor => exact (floor.reckons_min original).bind fun _ => .ite (.ok _) (.ok _)

theorem reckons_evaluate (b : Blend) {os : List Offer} (hos : ∀ o ∈ os, o.Reckons)
    (price : Money) : Reckons (b.evaluate os price) := by
  have happlicable : ∀ o ∈ os.filter (·.applies), o.Reckons := by
    intro o ho
    exact hos o (List.mem_of_mem_filter ho)
  refine (b.strategy.reckons_run happlicable price).bind fun outcome => ?_
  refine (b.reckons_applyCap price outcome.price).bind fun bounded => ?_
  refine (b.reckons_applyFloor price bounded.1).bind fun final => ?_
  exact (price.reckons_saturatingSub final.1).bind fun _ => .ok _

end Blend

theorem RateDiscount.reckons_offer (d : RateDiscount) : d.offer.Reckons := by
  intro price
  refine (price.reckons_meets d.minimum).bind fun meets => .ite ?_ (.ok _)
  refine (price.reckons_multiply d.rate).bind fun discount => ?_
  cases d.maximum with
  | none => exact price.reckons_saturatingSub discount
  | some most => exact (discount.reckons_min most).bind price.reckons_saturatingSub

theorem AmountDiscount.reckons_offer (d : AmountDiscount) : d.offer.Reckons := fun price =>
  (price.reckons_meets d.minimum).bind fun _ => .ite (price.reckons_saturatingSub d.amount) (.ok _)

theorem Coupon.reckons_offer (c : Coupon) (p : Purchase) : (c.offer p).Reckons := by
  intro price
  refine .ite (.ok _) ((price.reckons_meets c.minimum).bind fun meets => .ite ?_ (.ok _))
  cases c.benefit with
  | rate r => exact price.reckons_reducedBy r
  | amount m => exact price.reckons_saturatingSub m

theorem SeasonalDiscount.reckons_offer (d : SeasonalDiscount) (date : Date) :
    (d.offer date).Reckons := by
  intro price
  show ClubBooking.Reckons (d.apply date price)
  unfold SeasonalDiscount.apply
  split
  · exact .ite (.ok _) (price.reckons_reducedBy _)
  · exact .ok _

theorem Purchase.reckons_planOffer (p : Purchase) (l : Label) : (p.planOffer l).Reckons :=
  fun price => .ite (price.reckons_reducedBy p.plan.discountRate) (.ok _)

theorem Discount.reckons_offer (d : Discount) (p : Purchase) : (d.offer p).Reckons := by
  induction d using Discount.nested with
  | rate d => exact d.reckons_offer
  | amount d => exact d.reckons_offer
  | coupon c => exact c.reckons_offer p
  | seasonal d => exact d.reckons_offer p.date
  | membership priority => exact p.reckons_planOffer (planLabel priority)
  | none => exact fun price => .ok price
  | composite b ds ih => exact fun price => (b.reckons_evaluate (forall_mem_offers.2 ih) price).map

theorem Composite.reckons_evaluate (c : Composite) (p : Purchase) (price : Money) :
    Reckons (c.evaluate p price) :=
  c.blend.reckons_evaluate (Discount.forall_mem_offers.2 fun d _ => d.reckons_offer p) price

end ClubBooking
