import ClubBooking.Proofs.Discount.Account
import ClubBooking.Proofs.Discount.Totality

/-! A dearer purchase never ends up cheaper. Where no minimum is asked, what each single discount
takes off grows no faster than the price; strategies, cap and floor keep the order of two prices, so
it passes through composites of any depth. -/

namespace ClubBooking
variable {c : Currency} {low high a b : Money}

structure Money.Ordered (c : Currency) (low high : Money) : Prop where
  low_currency : low.currency = c
  high_currency : high.currency = c
  le : low.minor ≤ high.minor
  high_upTo : high.IsUpTo 15

namespace Money.Ordered

theorem low_upTo (h : Ordered c low high) : low.IsUpTo 15 :=
  h.high_upTo.of_minor_le (h.low_currency.trans h.high_currency.symm) h.le

theorem low_lt (h : Ordered c low high) : low.minor < 2 ^ 96 := h.low_upTo.minor_lt

theorem high_lt (h : Ordered c low high) : high.minor < 2 ^ 96 := h.high_upTo.minor_lt

theorem lowered (h : Ordered c low high) (hlow : a.currency = low.currency)
    (hhigh : b.currency = high.currency) (hle : a.minor ≤ b.minor) (hb : b.minor ≤ high.minor) :
    Ordered c a b where
  low_currency := hlow.trans h.low_currency
  high_currency := hhigh.trans h.high_currency
  le := hle
  high_upTo := h.high_upTo.of_minor_le hhigh hb

end Money.Ordered

def Offer.IsMono (c : Currency) (o : Offer) : Prop :=
  ∀ low high a b, Money.Ordered c low high → o.apply low = .ok a → o.apply high = .ok b →
    a.minor ≤ b.minor

theorem Offer.IsMono.attempt {o : Offer} {t u : Trial} (h : o.IsMono c)
    (hprice : Money.Ordered c low high) (ht : o.attempt low = .ok t) (hu : o.attempt high = .ok u) :
    t.price.minor ≤ u.price.minor := by
  obtain ⟨-, a, ha, hlow⟩ := Offer.attempt_eq_ok ht
  obtain ⟨-, b, hb, hhigh⟩ := Offer.attempt_eq_ok hu
  rw [hlow, hhigh]
  exact min_le_min (h low high a b hprice ha hb) hprice.le

namespace Strategy
variable {os : List Offer} {out outHigh : Outcome}

theorem inTurn_mono (hos : ∀ o ∈ os, o.IsMono c) (hprice : Money.Ordered c low high)
    (hlow : inTurn low os = .ok out) (hhigh : inTurn high os = .ok outHigh) :
    out.price.minor ≤ outHigh.price.minor := by
  induction os generalizing low high out outHigh with
  | nil =>
    cases hlow
    cases hhigh
    exact hprice.le
  | cons o os ih =>
    obtain ⟨ho, hos⟩ := List.forall_mem_cons.1 hos
    obtain ⟨t, ht, hlow⟩ := bind_eq_ok_iff.1 hlow
    obtain ⟨u, hu, hhigh⟩ := bind_eq_ok_iff.1 hhigh
    obtain ⟨rest, hrest, hlow⟩ := bind_eq_ok_iff.1 hlow
    obtain ⟨restHigh, hrestHigh, hhigh⟩ := bind_eq_ok_iff.1 hhigh
    cases hlow
    cases hhigh
    have htsplits := Offer.splits_of_attempt hprice.low_lt ht
    have husplits := Offer.splits_of_attempt hprice.high_lt hu
    have hnext := hprice.lowered htsplits.currency husplits.currency (ho.attempt hprice ht hu)
      (by have := husplits.sum; omega)
    show rest.price.minor ≤ restHigh.price.minor
    exact ih hos hnext hrest hrestHigh

theorem isBest_mono {best bestHigh : Option Trial} (hos : ∀ o ∈ os, o.IsMono c)
    (hprice : Money.Ordered c low high) (hlow : Trial.IsBest low os best)
    (hhigh : Trial.IsBest high os bestHigh) :
    (ofTrial low best).price.minor ≤ (ofTrial high bestHigh).price.minor := by
  cases hsome : bestHigh with
  | none => exact (hlow.price_le_self hprice.low_lt).trans hprice.le
  | some u =>
    obtain ⟨hmem, hu⟩ := hhigh.chosen u hsome
    obtain ⟨t, ht⟩ := hlow.tried u.offer hmem
    calc
      (ofTrial low best).price.minor ≤ t.price.minor := hlow.price_le hprice.low_lt hmem ht
      _ ≤ u.price.minor := (hos u.offer hmem).attempt hprice ht hu

theorem run_mono {s : Strategy} (hos : ∀ o ∈ os, o.IsMono c) (hprice : Money.Ordered c low high)
    (hlow : s.run low os = .ok out) (hhigh : s.run high os = .ok outHigh) :
    out.price.minor ≤ outHigh.price.minor := by
  have hkind (k : DiscountKind) : ∀ o ∈ ofKind k os, o.IsMono c := by
    intro o ho
    exact hos o (List.mem_of_mem_filter ho)
  cases s with
  | sequential => exact inTurn_mono hos hprice hlow hhigh
  | bestSingle =>
    obtain ⟨best, hbest, rfl⟩ := bestSingle_eq_ok hprice.low_lt hlow
    obtain ⟨bestHigh, hbestHigh, rfl⟩ := bestSingle_eq_ok hprice.high_lt hhigh
    exact isBest_mono hos hprice hbest hbestHigh
  | priorityFirst =>
    refine inTurn_mono (fun o ho => ?_) hprice hlow hhigh
    exact hos o (mem_of_mostUrgent (Option.mem_toList.1 ho))
  | smart =>
    obtain ⟨others, best, hothers, hbest, rfl⟩ := smart_eq_ok hprice.low_lt hlow
    obtain ⟨othersHigh, bestHigh, hothersHigh, hbestHigh, rfl⟩ :=
      smart_eq_ok hprice.high_lt hhigh
    have hsplits := splits_inTurn hprice.low_lt hothers
    have hsplitsHigh := splits_inTurn hprice.high_lt hothersHigh
    have hle := inTurn_mono (hkind .other) hprice hothers hothersHigh
    have hnext := hprice.lowered hsplits.currency hsplitsHigh.currency hle hsplitsHigh.price_le
    exact isBest_mono (List.forall_mem_append.2 ⟨hkind .rate, hkind .amount⟩) hnext hbest hbestHigh

end Strategy

namespace Blend
variable {b : Blend} {os : List Offer}

theorem cappedPrice_mono (b : Blend) (h : low.minor ≤ high.minor) :
    b.cappedPrice low ≤ b.cappedPrice high := by
  unfold cappedPrice
  split
  · exact Nat.sub_le_sub_right h _
  · exact Nat.le_refl _

theorem flooredPrice_mono (b : Blend) (h : low.minor ≤ high.minor) :
    b.flooredPrice low ≤ b.flooredPrice high := by
  unfold flooredPrice
  split
  · exact min_le_min_left _ h
  · exact Nat.le_refl _

theorem offer_isMono (b : Blend) (hos : ∀ o ∈ os, o.IsMono c) : (b.offer os).IsMono c := by
  intro low high x y hprice hx hy
  obtain ⟨r, hr, rfl⟩ := map_eq_ok_iff.1 hx
  obtain ⟨s, hs, rfl⟩ := map_eq_ok_iff.1 hy
  obtain ⟨out, hout, hsettles⟩ := exists_settles hprice.low_lt hr
  obtain ⟨outHigh, houtHigh, hsettlesHigh⟩ := exists_settles hprice.high_lt hs
  have happlicable : ∀ o ∈ os.filter (·.applies), o.IsMono c := by
    intro o ho
    exact hos o (List.mem_of_mem_filter ho)
  rw [hsettles.final, hsettlesHigh.final]
  refine max_le_max (max_le_max ?_ (b.cappedPrice_mono hprice.le)) (b.flooredPrice_mono hprice.le)
  exact Strategy.run_mono happlicable hprice hout houtHigh

end Blend

variable {price m : Money} {r : Decimal}

theorem Money.minor_of_reducedBy (hprice : price.IsUpTo 15) (hr : r.IsRate)
    (hplaces : r.HasPlaces 10) (h : price.reducedBy r = .ok m) :
    m.minor = price.minor - r.shareOf price.minor := by
  obtain ⟨discount, hdiscount, h⟩ := bind_eq_ok_iff.1 h
  have hshare := Money.minor_of_multiply hprice hr hplaces hdiscount
  have hlt := hprice.minor_lt
  have hle := hr.shareOf_le price.minor
  rw [Money.minor_of_saturatingSub hlt (by omega) h, hshare]

theorem Money.Ordered.reducedBy_mono (h : Money.Ordered c low high) (hr : r.IsRate)
    (hplaces : r.HasPlaces 10) (ha : low.reducedBy r = .ok a) (hb : high.reducedBy r = .ok b) :
    a.minor ≤ b.minor := by
  have hle := h.le
  have hgrowth := hr.shareOf_le_add hle
  rw [Money.minor_of_reducedBy h.low_upTo hr hplaces ha,
    Money.minor_of_reducedBy h.high_upTo hr hplaces hb]
  omega

theorem Money.Ordered.difference_mono (h : Money.Ordered c low high) (hm : m.IsModerate)
    (ha : low.saturatingSub m = .ok a) (hb : high.saturatingSub m = .ok b) :
    a.minor ≤ b.minor := by
  rw [Money.minor_of_saturatingSub h.low_lt hm.minor_lt ha,
    Money.minor_of_saturatingSub h.high_lt hm.minor_lt hb]
  exact Nat.sub_le_sub_right h.le _

namespace RateDiscount

def takesOff (d : RateDiscount) (n : Nat) : Nat :=
  match d.maximum with
  | some m => min (d.rate.shareOf n) m.minor
  | none => d.rate.shareOf n

theorem takesOff_le_add (d : RateDiscount) {k n : Nat} (h : k ≤ n) :
    d.takesOff n ≤ d.takesOff k + (n - k) := by
  have hgrowth := d.rate_ok.shareOf_le_add h
  unfold takesOff
  split <;> omega

theorem minor_of_apply {d : RateDiscount} (hminimum : d.minimum = none)
    (hplaces : d.rate.HasPlaces 10) (hprice : price.IsUpTo 15) (h : d.apply price = .ok m) :
    m.minor = price.minor - d.takesOff price.minor := by
  rw [apply, hminimum] at h
  obtain ⟨meets, hmeets, h⟩ := bind_eq_ok_iff.1 h
  cases hmeets
  rw [if_pos rfl] at h
  obtain ⟨discount, hdiscount, h⟩ := bind_eq_ok_iff.1 h
  have hshare := Money.minor_of_multiply hprice d.rate_ok hplaces hdiscount
  have hlt := hprice.minor_lt
  have hle := d.rate_ok.shareOf_le price.minor
  unfold takesOff
  cases hmaximum : d.maximum with
  | none =>
    rw [hmaximum] at h
    rw [Money.minor_of_saturatingSub hlt (by omega) h, hshare]
  | some most =>
    rw [hmaximum] at h
    obtain ⟨least, hleast, h⟩ := bind_eq_ok_iff.1 h
    have hmin := Money.minor_of_min hleast
    rw [Money.minor_of_saturatingSub hlt (by omega) h, hmin, hshare]

theorem offer_isMono {d : RateDiscount} (hminimum : d.minimum = none)
    (hplaces : d.rate.HasPlaces 10) : d.offer.IsMono c := by
  intro low high a b hprice ha hb
  have hle := hprice.le
  have hgrowth := d.takesOff_le_add hle
  rw [minor_of_apply hminimum hplaces hprice.low_upTo ha,
    minor_of_apply hminimum hplaces hprice.high_upTo hb]
  omega

end RateDiscount

theorem AmountDiscount.offer_isMono {d : AmountDiscount} (hminimum : d.minimum = none)
    (hamount : d.amount.IsModerate) : d.offer.IsMono c := by
  intro low high a b hprice ha hb
  have happly (price : Money) : d.offer.apply price = price.saturatingSub d.amount := by
    show d.apply price = _
    rw [AmountDiscount.apply, hminimum]
    rfl
  rw [happly] at ha hb
  exact hprice.difference_mono hamount ha hb

theorem Coupon.offer_isMono {d : Coupon} {p : Purchase} (hminimum : d.minimum = none)
    (hamounts : ∀ m ∈ d.benefit.amounts, m.IsModerate)
    (hplaces : ∀ r ∈ d.benefit.rates, r.HasPlaces 10) : (d.offer p).IsMono c := by
  intro low high a b hprice ha hb
  have hvalid := d.benefit_ok
  change d.apply p low = .ok a at ha
  change d.apply p high = .ok b at hb
  rw [Coupon.apply, hminimum] at ha hb
  by_cases happlies : d.isApplicable p = true
  · rw [happlies] at ha hb
    cases hkind : d.benefit with
    | rate r =>
      rw [hkind] at ha hb hvalid hplaces
      exact hprice.reducedBy_mono hvalid (hplaces r (List.mem_singleton_self r)) ha hb
    | amount m =>
      rw [hkind] at ha hb hamounts
      exact hprice.difference_mono (hamounts m (List.mem_singleton_self m)) ha hb
  · rw [Bool.eq_false_iff.2 happlies] at ha hb
    cases ha
    cases hb
    exact hprice.le

theorem SeasonalDiscount.offer_isMono {d : SeasonalDiscount} {date : Date}
    (hplaces : ∀ entry ∈ d.rates, entry.2.HasPlaces 10) : (d.offer date).IsMono c := by
  intro low high a b hprice ha hb
  change d.apply date low = .ok a at ha
  change d.apply date high = .ok b at hb
  unfold SeasonalDiscount.apply at ha hb
  cases hrate : d.rateFor date with
  | none =>
    rw [hrate] at ha hb
    cases ha
    cases hb
    exact hprice.le
  | some entry =>
    have hmem : entry ∈ d.rates := mem_of_rateFor hrate
    rw [hrate] at ha hb
    by_cases hzero : entry.2.isZero = true
    · simp only [hzero, if_true] at ha hb
      cases ha
      cases hb
      exact hprice.le
    · simp only [hzero] at ha hb
      exact hprice.reducedBy_mono (d.rates_ok entry hmem) (hplaces entry hmem) ha hb

theorem Purchase.planOffer_isMono {p : Purchase} {l : Label} (hrate : p.plan.discountRate.IsRate)
    (hplaces : p.plan.discountRate.HasPlaces 10) : (p.planOffer l).IsMono c := by
  intro low high a b hprice ha hb
  unfold Purchase.planOffer at ha hb
  by_cases hplan : p.hasPlanDiscount = true
  · simp only [hplan, if_true] at ha hb
    exact hprice.reducedBy_mono hrate hplaces ha hb
  · simp only [hplan] at ha hb
    cases ha
    cases hb
    exact hprice.le

namespace Discount

/-- No minimum is asked anywhere, amounts are of one currency and below 10^26, and rates are from
0 to 1 and of at most ten places. -/
structure Ungated (p : Purchase) (c : Currency) (d : Discount) : Prop where
  minimum : ∀ n ∈ d.parts, n.minimum = .none
  currency : d.InCurrency c
  moderate : ∀ n ∈ d.parts, ∀ m ∈ n.amounts, m.IsModerate
  rates : d.RatesIn p
  places : ∀ n ∈ d.parts, ∀ r ∈ n.rates p, r.HasPlaces 10

theorem Ungated.child {p : Purchase} {d : Discount} {b : Blend} {ds : List Discount}
    (h : (composite b ds).Ungated p c) (hd : d ∈ ds) : d.Ungated p c where
  minimum n hn := h.minimum n (parts_subset hd hn)
  currency := h.currency.child hd
  moderate n hn := h.moderate n (parts_subset hd hn)
  rates := h.rates.child hd
  places n hn := h.places n (parts_subset hd hn)

theorem isMono_offer {p : Purchase} (d : Discount) : d.Ungated p c → (d.offer p).IsMono c := by
  induction d using Discount.nested with
  | rate d =>
    intro h
    have hplaces := h.places _ (self_mem_parts _)
    exact RateDiscount.offer_isMono (h.minimum _ (self_mem_parts _))
      (hplaces d.rate (List.mem_singleton_self _))
  | amount d =>
    intro h
    have hown := List.forall_mem_append.1 (h.moderate _ (self_mem_parts _))
    exact AmountDiscount.offer_isMono (h.minimum _ (self_mem_parts _))
      (hown.2 d.amount (List.mem_singleton_self _))
  | coupon d =>
    intro h
    have hown := List.forall_mem_append.1 (h.moderate _ (self_mem_parts _))
    exact Coupon.offer_isMono (h.minimum _ (self_mem_parts _)) hown.2
      (h.places _ (self_mem_parts _))
  | seasonal d =>
    intro h
    have hplaces := h.places _ (self_mem_parts _)
    exact SeasonalDiscount.offer_isMono fun entry hentry =>
      hplaces entry.2 (List.mem_map_of_mem hentry)
  | membership priority =>
    intro h
    have hplan := List.mem_singleton_self p.plan.discountRate
    exact Purchase.planOffer_isMono (h.rates.own _ hplan) (h.places _ (self_mem_parts _) _ hplan)
  | none =>
    intro _ low high a b hprice ha hb
    cases ha
    cases hb
    exact hprice.le
  | composite b ds ih =>
    intro h
    have hchildren : ∀ o ∈ offers p ds, o.IsMono c :=
      forall_mem_offers.2 fun d hd => ih d hd (h.child hd)
    exact b.offer_isMono hchildren

/-- Where no minimum is asked, a price that is higher leads to a price at least as high. Both are
answered, and in the currency of the discount. -/
theorem apply_le_apply {d : Discount} {p : Purchase} {low high : Money} (hd : d.Ungated p c)
    (hlow : low.currency = c) (hhigh : high.currency = c) (hle : low.amount ≤ high.amount)
    (hupTo : high.IsUpTo 15) :
    ∃ a b, d.apply p low = .ok a ∧ d.apply p high = .ok b ∧
      a.currency = c ∧ b.currency = c ∧ a.amount ≤ b.amount := by
  have hprice : Money.Ordered c low high :=
    ⟨hlow, hhigh, (Money.amount_le_iff (hlow.trans hhigh.symm)).1 hle, hupTo⟩
  obtain ⟨a, ha, hacurrency⟩ := d.answers_offer hd.currency hd.rates low hlow
  obtain ⟨b, hb, hbcurrency⟩ := d.answers_offer hd.currency hd.rates high hhigh
  refine ⟨a, b, ha, hb, hacurrency, hbcurrency, ?_⟩
  rw [Money.amount_le_iff (hacurrency.trans hbcurrency.symm)]
  exact d.isMono_offer hd low high a b hprice ha hb

def layered : Discount :=
  .composite ⟨"layers", .smart, some (.ofUnits 60 .jpy), some (.ofUnits 1 .jpy), .none⟩ [
    .membership 20,
    .composite ⟨"best", .bestSingle, .none, .none, .none⟩ [
      .none, .amount ⟨"5 off", .ofUnits 5 .jpy, .none, 40, by decide⟩],
    .rate ⟨"eighth", .eighth, .none, some (.ofUnits 20 .jpy), 40, Decimal.isRate_eighth⟩]

theorem apply_le_apply_layered :
    layered.Ungated .onEighthPlan .jpy ∧
      (Money.ofUnits 47 .jpy).amount ≤ (Money.ofUnits 48 .jpy).amount ∧
      (Money.ofUnits 48 .jpy).IsUpTo 15 ∧
      ∃ a b, layered.apply .onEighthPlan (.ofUnits 47 .jpy) = .ok a ∧
        layered.apply .onEighthPlan (.ofUnits 48 .jpy) = .ok b ∧ a.amount ≤ b.amount := by
  have hrates := ratesIn_of_plan (p := .onEighthPlan) Decimal.isRate_eighth layered
  have hungated : layered.Ungated .onEighthPlan .jpy :=
    ⟨by decide, by decide, by decide, hrates, by decide⟩
  have hle : (Money.ofUnits 47 .jpy).amount ≤ (Money.ofUnits 48 .jpy).amount := by decide
  have hupTo : (Money.ofUnits 48 .jpy).IsUpTo 15 := by decide
  obtain ⟨a, b, ha, hb, -, -, hab⟩ := apply_le_apply hungated rfl rfl hle hupTo
  exact ⟨hungated, hle, hupTo, a, b, ha, hb, hab⟩

end Discount
end ClubBooking
