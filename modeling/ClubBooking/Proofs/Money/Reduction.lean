import ClubBooking.Discount.Policy
import ClubBooking.Proofs.Decimal.Kept
import ClubBooking.Proofs.Money.Rate

/-! Amounts with a rate taken off. A share is never more than the whole, however large the amount
and however many places the rate has, so the difference is never refused and never stops at zero
early. -/

namespace ClubBooking

namespace Decimal
variable {a b p r : Decimal}

theorem IsRate.magnitude_mul_le (hr : r.IsRate) (ha : 0 ≤ a.coeff) (h : a.mul r = some p) :
    p.magnitude * 10 ^ a.scale ≤ a.magnitude * 10 ^ p.scale := by
  have hpos (k : Nat) : 0 < 10 ^ k := Nat.pow_pos (by decide)
  have hshare : a.magnitude * r.magnitude ≤ a.magnitude * 10 ^ r.scale :=
    Nat.mul_le_mul_left _ hr.magnitude_le
  rw [mul_eq ha (isRate_iff.1 hr).1] at h
  split at h
  · cases h
    exact (Nat.zero_mul _).trans_le (Nat.zero_le _)
  · have hfits : Tie.toEven.round (a.magnitude * r.magnitude * 10 ^ a.scale)
        (10 ^ (a.scale + r.scale)) ≤ a.magnitude := by
      refine Tie.toEven.round_le_of_le_mul (hpos _) ?_
      calc
        a.magnitude * r.magnitude * 10 ^ a.scale ≤ a.magnitude * 10 ^ r.scale * 10 ^ a.scale :=
          Nat.mul_le_mul_right _ hshare
        _ = a.magnitude * 10 ^ (a.scale + r.scale) := by ring
    have hscale : a.scale ≤ p.scale := le_scale_of_ofRatio (Nat.le_add_right _ _) a.scale_le
      (Nat.lt_of_le_of_lt hfits a.magnitude_lt) h
    have hsplit : 10 ^ p.scale = 10 ^ (p.scale - a.scale) * 10 ^ a.scale := by
      rw [← pow_add, Nat.sub_add_cancel hscale]
    have hle : p.magnitude ≤ a.magnitude * 10 ^ (p.scale - a.scale) := by
      rw [magnitude_of_ofRatio (hpos _) h]
      refine Tie.toEven.round_le_of_le_mul (hpos _) ?_
      calc
        a.magnitude * r.magnitude * 10 ^ p.scale ≤ a.magnitude * 10 ^ r.scale * 10 ^ p.scale :=
          Nat.mul_le_mul_right _ hshare
        _ = a.magnitude * 10 ^ (p.scale - a.scale) * 10 ^ (a.scale + r.scale) := by
          rw [hsplit]; ring
    rw [hsplit, ← Nat.mul_assoc]
    exact Nat.mul_le_mul_right _ hle

theorem coeff_nonneg_of_sub (hle : b ≤ a) (h : a.sub b = some p) : 0 ≤ p.coeff := by
  have hat := (le_iff_coeffAt_le (Nat.le_max_right a.scale b.scale) (Nat.le_max_left _ _)).1 hle
  have hpow (k : Nat) : (0 : Int) < 10 ^ k := Int.pow_pos (by decide)
  unfold sub add at h
  split at h
  · next hzero =>
    cases h
    rw [coeffAt_eq_zero_of_isZero hzero, coeffAt] at hat
    rw [coeff_neg]
    exact Int.neg_nonneg.2 (Int.nonpos_of_mul_nonpos_left hat (hpow _))
  split at h
  · next hzero =>
    cases h
    have hneg := coeffAt_eq_zero_of_isZero (k := max a.scale b.scale) hzero
    rw [coeffAt_neg, Int.neg_eq_zero] at hneg
    rw [hneg, coeffAt] at hat
    exact Int.nonneg_of_mul_nonneg_left hat (hpow _)
  · refine coeff_nonneg_of_ofRatio ?_ h
    rw [coeff_neg, Int.neg_mul]
    exact Int.sub_nonneg.2 hat

end Decimal

namespace Money
variable {a b price discount : Money} {r : Decimal}

theorem minor_le_of_multiply (hr : r.IsRate) (h : price.multiply r = .ok discount) :
    discount.minor ≤ price.minor := by
  have hpos (k : Nat) : 0 < 10 ^ k := Nat.pow_pos (by decide)
  obtain ⟨p, hp, rfl⟩ := (multiply_eq_ok_iff (Decimal.isRate_iff.1 hr).1).1 h
  rw [minor_rounded]
  refine Tie.awayFromZero.round_le_of_le_mul (hpos _) ?_
  refine Nat.le_of_mul_le_mul_right ?_ (hpos price.amount.scale)
  calc
    p.magnitude * 10 ^ price.currency.minorUnits * 10 ^ price.amount.scale =
        p.magnitude * 10 ^ price.amount.scale * 10 ^ price.currency.minorUnits :=
      Nat.mul_right_comm ..
    _ ≤ price.amount.magnitude * 10 ^ p.scale * 10 ^ price.currency.minorUnits :=
      Nat.mul_le_mul_right _ (hr.magnitude_mul_le price.amount_nonneg hp)
    _ = price.minor * 10 ^ p.scale * 10 ^ price.amount.scale := by
      rw [Nat.mul_right_comm, ← minor_mul_pow_scale, Nat.mul_right_comm]

theorem exists_subtract_of_le (hc : a.currency = b.currency) (hle : b.minor ≤ a.minor) :
    ∃ d, a.subtract b = .ok d ∧ a.saturatingSub b = .ok d := by
  obtain ⟨s, hs⟩ := Decimal.exists_sub a.amount_nonneg b.amount_nonneg
  have hnonneg : 0 ≤ s.coeff :=
    Decimal.coeff_nonneg_of_sub ((amount_le_iff hc.symm).2 hle) hs
  exact ⟨_, (subOr_of_sub hc hs _).trans (dif_pos hnonneg),
    (subOr_of_sub hc hs _).trans (dif_pos hnonneg)⟩

/-- A rate taken off a price. The discount is the product, rounded to the currency; it is no more
than the price. -/
structure TakesOff (r : Decimal) (price discount left : Money) : Prop where
  multiply : price.multiply r = .ok discount
  subtract : price.subtract discount = .ok left
  le : discount.minor ≤ price.minor
  minor : price.minor < 2 ^ 96 → left.minor = price.minor - discount.minor
  minor_discount : price.IsUpTo 15 → r.HasPlaces 10 → discount.minor = r.shareOf price.minor

theorem exists_takesOff (hr : r.IsRate) (price : Money) :
    ∃ discount left, TakesOff r price discount left ∧ price.reducedBy r = .ok left := by
  obtain ⟨discount, hdiscount, hc⟩ := exists_multiply (a := price) rfl hr
  have hle := minor_le_of_multiply hr hdiscount
  obtain ⟨left, hsub, hsat⟩ := exists_subtract_of_le hc.symm hle
  refine ⟨discount, left, ⟨hdiscount, hsub, hle, fun hfits => ?_, fun hprice hplaces => ?_⟩, ?_⟩
  · exact minor_of_saturatingSub hfits (Nat.lt_of_le_of_lt hle hfits) hsat
  · exact minor_of_multiply hprice hr hplaces hdiscount
  · exact bind_eq_ok_iff.2 ⟨discount, hdiscount, hsat⟩

end Money

end ClubBooking
