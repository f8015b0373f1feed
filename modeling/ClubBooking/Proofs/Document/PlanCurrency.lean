import ClubBooking.Proofs.Discount.Terms
import ClubBooking.Proofs.Document.Acceptance

/-! A discount plan names no amount outside its own currency: whatever is built from its rules is in
that currency, and so are cap and floor. -/

namespace ClubBooking

theorem CouponRule.Gives.currency {c : Currency} {r : CouponRule} {benefit : Benefit}
    (h : r.Gives c benefit) : ∀ m ∈ benefit.amounts, m.currency = c := by
  cases h with
  | rate => simp [Benefit.amounts]
  | amount _ _ hm => simp [Benefit.amounts, hm.currency]

theorem DiscountRule.Becomes.inCurrency {c : Currency} {r : DiscountRule} {d : Discount}
    (h : r.Becomes c d) : d.InCurrency c := by
  cases h with
  | rate _ _ minimum maximum _ =>
    refine Discount.inCurrency_of_single rfl (List.forall_mem_append.2 ⟨?_, ?_⟩)
    · simpa using currency_of_rounds minimum
    · simpa using currency_of_rounds maximum
  | amount _ amount minimum _ =>
    refine Discount.inCurrency_of_single rfl (List.forall_mem_append.2 ⟨?_, ?_⟩)
    · simpa using currency_of_rounds minimum
    · simpa using amount.currency
  | coupon _ benefit _ _ _ minimum _ =>
    refine Discount.inCurrency_of_single rfl (List.forall_mem_append.2 ⟨?_, ?_⟩)
    · simpa using currency_of_rounds minimum
    · exact benefit.currency
  | seasonal _ _ => exact Discount.inCurrency_of_single rfl (by simp [Discount.amounts])
  | membership _ => exact Discount.inCurrency_of_single rfl (by simp [Discount.amounts])
  | none => exact Discount.inCurrency_of_single rfl (by simp [Discount.amounts])

theorem DiscountPlan.Becomes.inCurrency {plan : DiscountPlan} {comp : Composite}
    (h : plan.Becomes comp) : comp.discount.InCurrency plan.currency := by
  have hchildren : ∀ d ∈ comp.children, d.InCurrency plan.currency :=
    ((List.forall₂_and_left _ _).1
      (h.children.flip.imp fun _ _ hrule => ⟨hrule.inCurrency, hrule⟩)).1
  intro n hn
  rcases Discount.mem_parts_composite.1 hn with rfl | ⟨d, hd, hn⟩
  · refine List.forall_mem_append.2 ⟨?_, ?_⟩
    · simpa using DiscountRule.currency_of_rounds h.cap
    · simpa using DiscountRule.currency_of_rounds h.floor
  · exact hchildren d hd n hn

theorem DiscountPlan.inCurrency_of_build {plan : DiscountPlan} {comp : Composite}
    (h : plan.build = .ok comp) : comp.discount.InCurrency plan.currency :=
  (becomes_of_build h).2.inCurrency

end ClubBooking
