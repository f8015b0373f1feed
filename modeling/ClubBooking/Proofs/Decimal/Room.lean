import ClubBooking.Club.Checks
import ClubBooking.Proofs.Decimal.Exact

/-! Operations that always find room. The difference of two decimals that are not negative is at
most the larger of them, and the product with a rate at most the other factor, so some number of
places leaves a coefficient below 2^96. -/

namespace ClubBooking

theorem Tie.round_le_of_le_mul (tie : Tie) {n d m : Nat} (hd : 0 < d) (h : n ≤ m * d) :
    tie.round n d ≤ m := by
  rcases Nat.lt_or_ge n (m * d) with hlt | hge
  · have hdiv : n / d < m := (Nat.div_lt_iff_lt_mul hd).2 hlt
    exact (tie.round_le n d).trans hdiv
  · obtain rfl : n = m * d := Nat.le_antisymm h hge
    exact Nat.le_of_eq (tie.round_mul_self m hd)

namespace Decimal
variable {a b r : Decimal}

theorem exists_ofRatio {n : Int} {d m : Nat} (hd : 0 < d) (hm : m < 2 ^ 96)
    (h : n.natAbs ≤ m * d) (places : Nat) : ∃ s, ofRatio n d places = some s := by
  induction places with
  | zero =>
    have hcoeff := (natAbs_sign_mul_le n _).trans (Tie.toEven.round_le_of_le_mul hd h)
    exact exists_make? (Nat.lt_of_le_of_lt hcoeff hm) (Nat.zero_le _)
  | succ places ih =>
    obtain ⟨s, hs⟩ := ih
    rw [ofRatio, hs]
    cases make? (n.sign * Tie.toEven.round (n.natAbs * 10 ^ (places + 1)) d) (places + 1) with
    | none => exact ⟨s, rfl⟩
    | some t => exact ⟨t, rfl⟩

theorem natAbs_coeff_mul_pow_le (a : Decimal) {j k : Nat} (h : j ≤ k) :
    (a.coeff * 10 ^ j).natAbs ≤ a.magnitude * 10 ^ k := by
  rw [Int.natAbs_mul, natAbs_coeff, Int.natAbs_pow]
  exact Nat.mul_le_mul_left _ (Nat.pow_le_pow_right (by decide) h)

theorem exists_sub (ha : 0 ≤ a.coeff) (hb : 0 ≤ b.coeff) : ∃ s, sub a b = some s := by
  unfold sub add
  split
  · exact ⟨_, rfl⟩
  split
  · exact ⟨_, rfl⟩
  dsimp only
  generalize max a.scale b.neg.scale = places
  have hpos (j : Nat) : (0 : Int) ≤ 10 ^ j := Int.pow_nonneg (by decide)
  have hleft := natAbs_coeff_mul_pow_le a (Nat.sub_le places a.scale)
  have hright := natAbs_coeff_mul_pow_le b (Nat.sub_le places b.neg.scale)
  have hleft₀ := Int.mul_nonneg ha (hpos (places - a.scale))
  have hright₀ := Int.mul_nonneg hb (hpos (places - b.neg.scale))
  refine exists_ofRatio (m := max a.magnitude b.magnitude) (Nat.pow_pos (by decide))
    (Nat.max_lt.2 ⟨a.magnitude_lt, b.magnitude_lt⟩) ?_ places
  rw [coeff_neg, Int.neg_mul, ← Nat.mul_max_mul_right]
  omega

theorem isRate_iff : r.IsRate ↔ 0 ≤ r.coeff ∧ r.coeff ≤ 10 ^ r.scale := by
  rw [IsRate, le_iff, le_iff]
  simp [zero, one, coeff]

theorem IsRate.magnitude_le (h : r.IsRate) : r.magnitude ≤ 10 ^ r.scale := by
  obtain ⟨hnonneg, hle⟩ := isRate_iff.1 h
  have hpow : ((10 ^ r.scale : Nat) : Int) = 10 ^ r.scale := Int.natCast_pow 10 r.scale
  rw [← natAbs_coeff]
  omega

theorem exists_mul_of_isRate (a : Decimal) (h : r.IsRate) : ∃ p, mul a r = some p := by
  unfold mul
  split
  · exact ⟨_, rfl⟩
  have hproduct : (a.coeff * r.coeff).natAbs ≤ a.magnitude * 10 ^ (a.scale + r.scale) := by
    rw [Int.natAbs_mul, natAbs_coeff, natAbs_coeff]
    refine Nat.mul_le_mul_left _ (h.magnitude_le.trans ?_)
    exact Nat.pow_le_pow_right (by decide) (Nat.le_add_left _ _)
  exact exists_ofRatio (Nat.pow_pos (by decide)) a.magnitude_lt hproduct _

end Decimal
end ClubBooking
