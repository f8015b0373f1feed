import ClubBooking.Proofs.Discount.Bounds
import ClubBooking.Proofs.Discount.Choice
import ClubBooking.Proofs.Document.PlanCurrency
import ClubBooking.Proofs.Money.Rate

/-! Discounts that name amounts of one currency only answer every price of that currency, however
large. Each step of a strategy answers, and leaves a price of the same currency to the next. -/

namespace ClubBooking
variable {c : Currency} {price : Money}

theorem Money.exists_meets {minimum : Option Money} (hprice : price.currency = c)
    (h : ∀ m ∈ minimum, m.currency = c) :
    ∃ yes, price.meets minimum = .ok yes ∧ (yes = true ↔ ∀ m ∈ minimum, m.minor ≤ price.minor) := by
  cases minimum with
  | none => exact ⟨true, rfl, by simp⟩
  | some m =>
    have hcurrency := (h m rfl).trans hprice.symm
    have hsame : price.sameCurrency m = .ok () := Money.sameCurrency_eq_ok_iff.2 hcurrency.symm
    refine ⟨_, bind_eq_ok_iff.2 ⟨(), hsame, rfl⟩, ?_⟩
    simpa using Money.amount_le_iff hcurrency

theorem Money.exists_reducedBy {r : Decimal} (hprice : price.currency = c) (hr : r.IsRate) :
    ∃ m, price.reducedBy r = .ok m ∧ m.currency = c := by
  refine exists_bind_eq_ok (Money.exists_multiply hprice hr) fun discount hdiscount => ?_
  exact Money.exists_difference hprice hdiscount

def Offer.Answers (c : Currency) (o : Offer) : Prop :=
  ∀ price : Money, price.currency = c → ∃ m, o.apply price = .ok m ∧ m.currency = c

theorem Offer.Answers.exists_attempt {o : Offer} (h : o.Answers c) (hprice : price.currency = c) :
    ∃ t, o.attempt price = .ok t ∧ t.price.currency = c := by
  refine exists_bind_eq_ok (h price hprice) fun raw hraw => ?_
  refine exists_bind_eq_ok (Money.exists_min hraw hprice) fun result hresult => ?_
  refine exists_bind_eq_ok (Money.exists_difference hprice hresult) fun discount _ => ?_
  exact ⟨_, rfl, hresult⟩

namespace Strategy
variable {os : List Offer}

theorem exists_inTurn (hos : ∀ o ∈ os, o.Answers c) (hprice : price.currency = c) :
    ∃ out, inTurn price os = .ok out ∧ out.price.currency = c := by
  induction os generalizing price with
  | nil => exact ⟨_, rfl, hprice⟩
  | cons o os ih =>
    obtain ⟨ho, hos⟩ := List.forall_mem_cons.1 hos
    refine exists_bind_eq_ok (ho.exists_attempt hprice) fun t ht => ?_
    refine exists_bind_eq_ok (ih hos ht) fun rest hrest => ?_
    exact ⟨_, rfl, hrest⟩

theorem exists_bestFrom {best : Option Trial} (hos : ∀ o ∈ os, o.Answers c)
    (hprice : price.currency = c) (hbest : ∀ t ∈ best, t.price.currency = c) :
    ∃ r, bestFrom price best os = .ok r ∧ ∀ t ∈ r, t.price.currency = c := by
  induction os generalizing best with
  | nil => exact ⟨_, rfl, hbest⟩
  | cons o os ih =>
    obtain ⟨ho, hos⟩ := List.forall_mem_cons.1 hos
    refine exists_bind_eq_ok (ho.exists_attempt hprice) fun t ht => ?_
    refine ih hos fun u hu => ?_
    rcases Trial.mem_of_mem_better hu with hu | rfl
    · exact hbest u hu
    · exact ht

theorem exists_best (hos : ∀ o ∈ os, o.Answers c) (hprice : price.currency = c) :
    ∃ r, best price os = .ok r ∧ ∀ t ∈ r, t.price.currency = c :=
  exists_bestFrom hos hprice (by simp)

theorem currency_ofTrial {r : Option Trial} (hprice : price.currency = c)
    (h : ∀ t ∈ r, t.price.currency = c) : (ofTrial price r).price.currency = c := by
  cases r with
  | none => exact hprice
  | some t => exact h t rfl

theorem exists_run (s : Strategy) (hos : ∀ o ∈ os, o.Answers c) (hprice : price.currency = c) :
    ∃ out, s.run price os = .ok out ∧ out.price.currency = c := by
  have hkind (k : DiscountKind) : ∀ o ∈ ofKind k os, o.Answers c := by
    intro o ho
    exact hos o (List.mem_of_mem_filter ho)
  cases s with
  | sequential => exact exists_inTurn hos hprice
  | bestSingle =>
    refine exists_bind_eq_ok (exists_best hos hprice) fun r hr => ?_
    exact ⟨_, rfl, currency_ofTrial hprice hr⟩
  | priorityFirst =>
    refine exists_inTurn (fun o ho => ?_) hprice
    exact hos o (mem_of_mostUrgent (Option.mem_toList.1 ho))
  | smart =>
    refine exists_bind_eq_ok (exists_inTurn (hkind .other) hprice) fun others hothers => ?_
    refine exists_bind_eq_ok (exists_best (hkind .rate) hothers) fun rate hrate => ?_
    refine exists_bind_eq_ok (exists_best (hkind .amount) hothers) fun amount hamount => ?_
    refine ⟨_, rfl, currency_ofTrial hothers fun t ht => ?_⟩
    rcases Trial.mem_of_mem_rateOrAmount ht with ht | ht
    · exact hrate t ht
    · exact hamount t ht

end Strategy

namespace Blend
variable {b : Blend} {os : List Offer} {original : Money}

theorem exists_applyCap (hcap : ∀ m ∈ b.cap, m.currency = c) (horiginal : original.currency = c)
    (hprice : price.currency = c) : ∃ r, b.applyCap original price = .ok r ∧ r.1.currency = c := by
  unfold applyCap
  cases hsome : b.cap with
  | none => exact ⟨_, rfl, hprice⟩
  | some cap =>
    have hcurrency := hcap cap hsome
    have hsame : original.sameCurrency cap = .ok () :=
      Money.sameCurrency_eq_ok_iff.2 (horiginal.trans hcurrency.symm)
    refine exists_bind_eq_ok (Money.exists_difference horiginal hprice) fun discount _ => ?_
    refine exists_bind_eq_ok (P := fun _ => True) ⟨(), hsame, trivial⟩ fun _ _ => ?_
    split
    · refine exists_bind_eq_ok (Money.exists_difference horiginal hcurrency) fun least hleast => ?_
      exact ⟨_, rfl, hleast⟩
    · exact ⟨_, rfl, hprice⟩

theorem exists_applyFloor (hfloor : ∀ m ∈ b.floor, m.currency = c)
    (horiginal : original.currency = c) (hprice : price.currency = c) :
    ∃ r, b.applyFloor original price = .ok r ∧ r.1.currency = c := by
  unfold applyFloor
  cases hsome : b.floor with
  | none => exact ⟨_, rfl, hprice⟩
  | some floor =>
    have hmin := Money.exists_min (hfloor floor hsome) horiginal
    refine exists_bind_eq_ok hmin fun least hleast => ?_
    split
    · exact ⟨_, rfl, hleast⟩
    · exact ⟨_, rfl, hprice⟩

theorem exists_evaluate_of_outcome {out : Outcome} (hout : b.outcome os price = .ok out)
    (hcap : ∀ m ∈ b.cap, m.currency = c) (hfloor : ∀ m ∈ b.floor, m.currency = c)
    (hprice : price.currency = c) (hcurrency : out.price.currency = c) :
    ∃ r, b.evaluate os price = .ok r ∧ r.finalPrice.currency = c := by
  have hsomewhere : ∃ out, b.outcome os price = .ok out ∧ out.price.currency = c :=
    ⟨out, hout, hcurrency⟩
  refine exists_bind_eq_ok hsomewhere fun out hout => ?_
  refine exists_bind_eq_ok (exists_applyCap hcap hprice hout) fun bounded hbounded => ?_
  refine exists_bind_eq_ok (exists_applyFloor hfloor hprice hbounded) fun final hfinal => ?_
  refine exists_bind_eq_ok (Money.exists_difference hprice hfinal) fun total _ => ?_
  exact ⟨_, rfl, hfinal⟩

theorem exists_evaluate (hos : ∀ o ∈ os, o.Answers c) (hcap : ∀ m ∈ b.cap, m.currency = c)
    (hfloor : ∀ m ∈ b.floor, m.currency = c) (hprice : price.currency = c) :
    ∃ r, b.evaluate os price = .ok r ∧ r.finalPrice.currency = c := by
  have happlicable : ∀ o ∈ os.filter (·.applies), o.Answers c := by
    intro o ho
    exact hos o (List.mem_of_mem_filter ho)
  obtain ⟨out, hout, hcurrency⟩ := b.strategy.exists_run happlicable hprice
  exact exists_evaluate_of_outcome hout hcap hfloor hprice hcurrency

end Blend

theorem RateDiscount.exists_apply (d : RateDiscount) (hminimum : ∀ m ∈ d.minimum, m.currency = c)
    (hmaximum : ∀ m ∈ d.maximum, m.currency = c) (hprice : price.currency = c) :
    ∃ m, d.apply price = .ok m ∧ m.currency = c := by
  refine exists_bind_eq_ok (Money.exists_meets hprice hminimum) fun meets _ => ?_
  cases meets with
  | false => exact ⟨price, rfl, hprice⟩
  | true =>
    refine exists_bind_eq_ok (Money.exists_multiply hprice d.rate_ok) fun discount hdiscount => ?_
    cases hsome : d.maximum with
    | none => exact Money.exists_difference hprice hdiscount
    | some most =>
      have hmin := Money.exists_min hdiscount (hmaximum most hsome)
      refine exists_bind_eq_ok hmin fun least hleast => ?_
      exact Money.exists_difference hprice hleast

theorem AmountDiscount.exists_apply (d : AmountDiscount)
    (hminimum : ∀ m ∈ d.minimum, m.currency = c) (hamount : d.amount.currency = c)
    (hprice : price.currency = c) : ∃ m, d.apply price = .ok m ∧ m.currency = c := by
  refine exists_bind_eq_ok (Money.exists_meets hprice hminimum) fun meets _ => ?_
  cases meets with
  | false => exact ⟨price, rfl, hprice⟩
  | true => exact Money.exists_difference hprice hamount

theorem Coupon.exists_apply (d : Coupon) (p : Purchase)
    (hminimum : ∀ m ∈ d.minimum, m.currency = c)
    (hbenefit : ∀ m ∈ d.benefit.amounts, m.currency = c)
    (hprice : price.currency = c) : ∃ m, d.apply p price = .ok m ∧ m.currency = c := by
  unfold Coupon.apply
  split
  · exact ⟨price, rfl, hprice⟩
  refine exists_bind_eq_ok (Money.exists_meets hprice hminimum) fun meets _ => ?_
  cases meets with
  | false => exact ⟨price, rfl, hprice⟩
  | true =>
    have hvalid := d.benefit_ok
    cases hkind : d.benefit with
    | rate r =>
      rw [hkind] at hvalid
      exact Money.exists_reducedBy hprice hvalid
    | amount m =>
      rw [hkind] at hbenefit
      exact Money.exists_difference hprice (hbenefit m (List.mem_singleton_self m))

theorem SeasonalDiscount.mem_of_rateFor {d : SeasonalDiscount} {date : Date} {s : Season}
    {r : Decimal} (h : d.rateFor date = some (s, r)) : (s, r) ∈ d.rates := by
  obtain ⟨season, -, hlookup⟩ := List.exists_of_findSome?_eq_some h
  obtain ⟨rate, hrate, heq⟩ := Option.map_eq_some_iff.1 hlookup
  cases heq
  obtain ⟨before, after, hsplit, -⟩ := List.lookup_eq_some_iff.1 hrate
  rw [hsplit]
  exact List.mem_append_right _ (List.mem_cons_self ..)

theorem SeasonalDiscount.exists_apply (d : SeasonalDiscount) (date : Date)
    (hprice : price.currency = c) : ∃ m, d.apply date price = .ok m ∧ m.currency = c := by
  unfold SeasonalDiscount.apply
  split
  · next s r hrate =>
    split
    · exact ⟨price, rfl, hprice⟩
    · exact Money.exists_reducedBy hprice (d.rates_ok (s, r) (mem_of_rateFor hrate))
  · exact ⟨price, rfl, hprice⟩

namespace Discount
variable {p : Purchase}

theorem answers_offer (d : Discount) : d.InCurrency c → d.RatesIn p → (d.offer p).Answers c := by
  induction d using Discount.nested with
  | rate d =>
    intro h _ price hprice
    have hown := List.forall_mem_append.1 h.own
    refine d.exists_apply (fun m hm => ?_) (fun m hm => ?_) hprice
    · exact hown.1 m (Option.mem_toList.2 hm)
    · exact hown.2 m (Option.mem_toList.2 hm)
  | amount d =>
    intro h _ price hprice
    have hown := List.forall_mem_append.1 h.own
    refine d.exists_apply (fun m hm => ?_) ?_ hprice
    · exact hown.1 m (Option.mem_toList.2 hm)
    · exact hown.2 d.amount (List.mem_singleton_self _)
  | coupon d =>
    intro h _ price hprice
    have hown := List.forall_mem_append.1 h.own
    refine d.exists_apply p (fun m hm => ?_) hown.2 hprice
    exact hown.1 m (Option.mem_toList.2 hm)
  | seasonal d =>
    intro _ _ price hprice
    exact d.exists_apply p.date hprice
  | membership priority =>
    intro _ hrates price hprice
    have hplan := hrates.own p.plan.discountRate (List.mem_singleton_self _)
    show ∃ m, (if p.hasPlanDiscount then price.reducedBy p.plan.discountRate
      else .ok price) = .ok m ∧ _
    split
    · exact Money.exists_reducedBy hprice hplan
    · exact ⟨price, rfl, hprice⟩
  | none =>
    intro _ _ price hprice
    exact ⟨price, rfl, hprice⟩
  | composite b ds ih =>
    intro h hrates price hprice
    have hown := List.forall_mem_append.1 h.own
    have hchildren : ∀ o ∈ offers p ds, o.Answers c :=
      forall_mem_offers.2 fun d hd => ih d hd (h.child hd) (hrates.child hd)
    obtain ⟨r, hr, hcurrency⟩ := b.exists_evaluate hchildren
      (fun m hm => hown.1 m (Option.mem_toList.2 hm))
      (fun m hm => hown.2 m (Option.mem_toList.2 hm)) hprice
    exact ⟨r.finalPrice, map_eq_ok_iff.2 ⟨r, hr, rfl⟩, hcurrency⟩

end Discount

theorem Composite.exists_evaluate {comp : Composite} {p : Purchase}
    (hplan : p.plan.discountRate.IsRate) (h : comp.discount.InCurrency c)
    (hprice : price.currency = c) :
    ∃ r, comp.evaluate p price = .ok r ∧ r.finalPrice.currency = c := by
  have hrates := Discount.ratesIn_of_plan hplan comp.discount
  obtain ⟨m, hm, hcurrency⟩ := comp.discount.answers_offer h hrates price hprice
  obtain ⟨r, hr, rfl⟩ := map_eq_ok_iff.1 hm
  exact ⟨r, hr, hcurrency⟩

namespace DiscountPlan

/-- Nothing is refused within one currency: not by a discount that names no other, not by a
composite, and not by what a plan of that currency describes. No bound on amounts is needed. -/
theorem answers_own_currency {p : Purchase} (hplan : p.plan.discountRate.IsRate) (price : Money) :
    (∀ d : Discount, d.InCurrency price.currency →
      ∃ m, d.apply p price = .ok m ∧ m.currency = price.currency) ∧
    (∀ comp : Composite, comp.discount.InCurrency price.currency →
      ∃ r, comp.evaluate p price = .ok r ∧ r.finalPrice.currency = price.currency) ∧
    ∀ (plan : DiscountPlan) (comp : Composite), plan.build = .ok comp →
      plan.currency = price.currency →
        (∃ r, comp.evaluate p price = .ok r) ∧ ∃ m, comp.discount.apply p price = .ok m := by
  have hrates (d : Discount) : d.RatesIn p := d.ratesIn_of_plan hplan
  refine ⟨fun d h => d.answers_offer h (hrates d) price rfl, fun comp h => ?_, ?_⟩
  · exact Composite.exists_evaluate hplan h rfl
  · intro plan comp hbuild hcurrency
    have h := inCurrency_of_build hbuild
    obtain ⟨r, hr, -⟩ := Composite.exists_evaluate hplan h hcurrency.symm
    obtain ⟨m, hm, -⟩ := comp.discount.answers_offer h (hrates _) price hcurrency.symm
    exact ⟨⟨r, hr⟩, m, hm⟩

end DiscountPlan

def Decimal.eighth : Decimal := ⟨false, 125, 3, by decide, by decide⟩

theorem Decimal.isRate_eighth : eighth.IsRate := by decide

def Purchase.onEighthPlan : Purchase :=
  { Composite.plainPurchase with
    plan := { Composite.plainPurchase.plan with discountRate := .eighth }
    enrolled := rfl }

namespace DiscountPlan

def twoEighths : DiscountPlan where
  description := "two eighths"
  strategy := .smart
  currency := .usd
  cap := some (.ofUInt32 60)
  floor := some (.ofUInt32 45)
  rules := [.membership none, .rate ⟨"eighth", .eighth, some (.ofUInt32 10), none, none⟩]

theorem answers_twoEighths :
    Purchase.onEighthPlan.plan.discountRate.IsRate ∧
      (∃ r, Composite.halfAndThirty.evaluate .onEighthPlan (.ofUnits 18446744073709551615 .usd) =
        .ok r) ∧
      ∃ comp r, twoEighths.build = .ok comp ∧
        comp.evaluate .onEighthPlan (.ofUnits 18446744073709551615 .usd) = .ok r := by
  have hplan : Purchase.onEighthPlan.plan.discountRate.IsRate := Decimal.isRate_eighth
  have h := answers_own_currency hplan (.ofUnits 18446744073709551615 .usd)
  obtain ⟨comp, hcomp⟩ : ∃ comp, twoEighths.build = .ok comp := ⟨_, rfl⟩
  obtain ⟨r, hr, -⟩ := h.2.1 Composite.halfAndThirty (by decide)
  obtain ⟨⟨s, hs⟩, -⟩ := h.2.2 twoEighths comp hcomp rfl
  exact ⟨hplan, ⟨r, hr⟩, comp, s, hcomp, hs⟩

end DiscountPlan
end ClubBooking
