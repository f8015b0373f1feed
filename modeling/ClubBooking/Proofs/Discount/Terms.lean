import ClubBooking.Discount.Policy
import ClubBooking.Proofs.Decimal.Nearest
import ClubBooking.Proofs.Money.Minor

/-! What discounts are made of: the discounts nested in one, and the amounts, rates and minimum that
each of them names itself. A property of a whole discount is one of all its parts. -/

namespace ClubBooking

namespace Benefit

def amounts : Benefit → List Money
  | rate _ => []
  | amount m => [m]

def rates : Benefit → List Decimal
  | rate r => [r]
  | amount _ => []

end Benefit

namespace Discount

def minimum : Discount → Option Money
  | rate d => d.minimum
  | amount d => d.minimum
  | coupon c => c.minimum
  | seasonal _ | membership _ | none | composite .. => .none

def amounts : Discount → List Money
  | rate d => d.minimum.toList ++ d.maximum.toList
  | amount d => d.minimum.toList ++ [d.amount]
  | coupon c => c.minimum.toList ++ c.benefit.amounts
  | composite b _ => b.cap.toList ++ b.floor.toList
  | seasonal _ | membership _ | none => []

def rates (p : Purchase) : Discount → List Decimal
  | rate d => [d.rate]
  | coupon c => c.benefit.rates
  | seasonal d => d.rates.map (·.2)
  | membership _ => [p.plan.discountRate]
  | amount _ | none | composite .. => []

mutual

def parts : Discount → List Discount
  | composite b ds => composite b ds :: partsOf ds
  | d => [d]

def partsOf : List Discount → List Discount
  | [] => []
  | d :: ds => d.parts ++ partsOf ds

end

theorem mem_partsOf {n : Discount} {ds : List Discount} :
    n ∈ partsOf ds ↔ ∃ d ∈ ds, n ∈ d.parts := by
  induction ds with
  | nil => simp [partsOf]
  | cons d ds ih => simp [partsOf, ih]

theorem self_mem_parts (d : Discount) : d ∈ d.parts := by
  cases d <;> simp [parts]

theorem mem_parts_composite {n : Discount} {b : Blend} {ds : List Discount} :
    n ∈ (composite b ds).parts ↔ n = composite b ds ∨ ∃ d ∈ ds, n ∈ d.parts := by
  rw [parts, List.mem_cons, mem_partsOf]

theorem parts_subset {d : Discount} {b : Blend} {ds : List Discount} (h : d ∈ ds) :
    d.parts ⊆ (composite b ds).parts := by
  intro n hn
  exact mem_parts_composite.2 (.inr ⟨d, h, hn⟩)

theorem forall_mem_offers {p : Purchase} {ds : List Discount} {P : Offer → Prop} :
    (∀ o ∈ offers p ds, P o) ↔ ∀ d ∈ ds, P (d.offer p) := by
  rw [offers_eq_map, List.forall_mem_map]

/-- Induction over the nesting: what holds of single discounts, and of a composite if of all its
children, holds of every discount. -/
@[elab_as_elim]
theorem nested {motive : Discount → Prop} (d : Discount) (rate : ∀ d, motive (.rate d))
    (amount : ∀ d, motive (.amount d)) (coupon : ∀ c, motive (.coupon c))
    (seasonal : ∀ d, motive (.seasonal d)) (membership : ∀ priority, motive (.membership priority))
    (none : motive .none)
    (composite : ∀ b ds, (∀ d ∈ ds, motive d) → motive (.composite b ds)) : motive d := by
  refine @Discount.rec motive (fun ds => ∀ d ∈ ds, motive d) rate amount coupon seasonal membership
    none composite ?_ ?_ d
  · intro d hd
    cases hd
  · intro d ds hd hds
    exact List.forall_mem_cons.2 ⟨hd, hds⟩

def InCurrency (c : Currency) (d : Discount) : Prop :=
  ∀ n ∈ d.parts, ∀ m ∈ n.amounts, m.currency = c

instance (c : Currency) (d : Discount) : Decidable (d.InCurrency c) :=
  inferInstanceAs (Decidable (∀ n ∈ d.parts, ∀ m ∈ n.amounts, m.currency = c))

theorem InCurrency.own {c : Currency} {d : Discount} (h : d.InCurrency c) :
    ∀ m ∈ d.amounts, m.currency = c := h d d.self_mem_parts

theorem inCurrency_of_single {c : Currency} {d : Discount} (hsingle : d.parts = [d])
    (hown : ∀ m ∈ d.amounts, m.currency = c) : d.InCurrency c := by
  intro n hn
  rw [hsingle] at hn
  obtain rfl := List.mem_singleton.1 hn
  exact hown

theorem InCurrency.child {c : Currency} {d : Discount} {b : Blend} {ds : List Discount}
    (h : (composite b ds).InCurrency c) (hd : d ∈ ds) : d.InCurrency c := fun n hn =>
  h n (parts_subset hd hn)

def RatesIn (p : Purchase) (d : Discount) : Prop := ∀ n ∈ d.parts, ∀ r ∈ n.rates p, r.IsRate

theorem RatesIn.own {p : Purchase} {d : Discount} (h : d.RatesIn p) : ∀ r ∈ d.rates p, r.IsRate :=
  h d d.self_mem_parts

theorem RatesIn.child {p : Purchase} {d : Discount} {b : Blend} {ds : List Discount}
    (h : (composite b ds).RatesIn p) (hd : d ∈ ds) : d.RatesIn p := fun n hn =>
  h n (parts_subset hd hn)

theorem ratesIn_of_plan {p : Purchase} (h : p.plan.discountRate.IsRate) (d : Discount) :
    d.RatesIn p := by
  intro n _ r hr
  cases n with
  | rate d =>
    obtain rfl := List.mem_singleton.1 hr
    exact d.rate_ok
  | coupon d =>
    have hvalid := d.benefit_ok
    have hr : r ∈ d.benefit.rates := hr
    cases hkind : d.benefit with
    | rate share =>
      rw [hkind] at hr hvalid
      obtain rfl := List.mem_singleton.1 hr
      exact hvalid
    | amount m =>
      rw [hkind] at hr
      cases hr
  | seasonal d =>
    obtain ⟨entry, hentry, rfl⟩ := List.mem_map.1 hr
    exact d.rates_ok entry hentry
  | membership priority =>
    obtain rfl := List.mem_singleton.1 hr
    exact h
  | amount d => cases hr
  | none => cases hr
  | composite b ds => cases hr

end Discount
end ClubBooking
