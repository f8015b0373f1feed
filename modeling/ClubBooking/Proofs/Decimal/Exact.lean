import ClubBooking.Decimal.Arith
import Mathlib.Tactic.Ring

/-! Sums and products of decimals that lose no place. Decimals are compared and added by their
coefficients over one power of ten; a result is exact as long as its coefficient stays below 2^96.
-/

namespace ClubBooking

theorem Tie.round_mul_self (tie : Tie) (m : Nat) {d : Nat} (hd : 0 < d) :
    tie.round (m * d) d = m := by
  simp [round, Nat.mul_div_cancel m hd, hd]

namespace Decimal
variable {a b : Decimal} {k : Nat}

/-- The coefficient of a decimal that is written with `k` places, at least as many as it has. -/
def coeffAt (k : Nat) (a : Decimal) : Int := a.coeff * 10 ^ (k - a.scale)

theorem coeffAt_scale (a : Decimal) : a.coeffAt a.scale = a.coeff := by
  simp [coeffAt]

theorem coeffAt_mul_pow_scale (ha : a.scale ≤ k) :
    a.coeffAt k * 10 ^ a.scale = a.coeff * 10 ^ k := by
  rw [coeffAt, Int.mul_assoc, ← pow_add, Nat.sub_add_cancel ha]

theorem coeffAt_of_le {j : Nat} (ha : a.scale ≤ j) (hjk : j ≤ k) :
    a.coeffAt k = a.coeffAt j * 10 ^ (k - j) := by
  rw [coeffAt, coeffAt, Int.mul_assoc, ← pow_add]
  congr 2
  omega

theorem coeffAt_neg (a : Decimal) : a.neg.coeffAt k = -a.coeffAt k := by
  rw [coeffAt, coeff_neg, Int.neg_mul]
  rfl

theorem coeffAt_eq_zero_of_isZero (h : a.isZero) : a.coeffAt k = 0 := by
  rw [coeffAt, isZero_iff.1 h, Int.zero_mul]

theorem le_iff_coeffAt_le (ha : a.scale ≤ k) (hb : b.scale ≤ k) :
    a ≤ b ↔ a.coeffAt k ≤ b.coeffAt k := by
  have hk : (0 : Int) < 10 ^ k := Int.pow_pos (by decide)
  have hs : (0 : Int) < 10 ^ a.scale * 10 ^ b.scale :=
    Int.mul_pos (Int.pow_pos (by decide)) (Int.pow_pos (by decide))
  have hl : a.coeff * 10 ^ b.scale * 10 ^ k = a.coeffAt k * (10 ^ a.scale * 10 ^ b.scale) := by
    rw [← Int.mul_assoc, coeffAt_mul_pow_scale ha]
    ring
  have hr : b.coeff * 10 ^ a.scale * 10 ^ k = b.coeffAt k * (10 ^ a.scale * 10 ^ b.scale) := by
    rw [Int.mul_comm (10 ^ a.scale), ← Int.mul_assoc, coeffAt_mul_pow_scale hb]
    ring
  rw [le_iff, ← Int.mul_le_mul_right hk, hl, hr, Int.mul_le_mul_right hs]

theorem lt_iff_coeffAt_lt (ha : a.scale ≤ k) (hb : b.scale ≤ k) :
    a < b ↔ a.coeffAt k < b.coeffAt k := by
  rw [← Int.not_le, ← le_iff_coeffAt_le hb ha, ← not_lt, not_not]

theorem exists_make? {c : Int} {s : Nat} (hc : c.natAbs < 2 ^ 96) (hs : s ≤ 28) :
    ∃ a, make? c s = some a := by
  rw [make?, dif_pos ⟨hc, hs⟩]
  exact ⟨_, rfl⟩

theorem natAbs_sign_mul_le (n : Int) (m : Nat) : (n.sign * m).natAbs ≤ m := by
  rw [Int.natAbs_mul, Int.natAbs_natCast, Int.natAbs_sign]
  split
  · exact (Nat.zero_mul m).trans_le (Nat.zero_le m)
  · exact Nat.le_of_eq (Nat.one_mul m)

theorem magnitude_of_make? {n m : Nat} (hzero : n = 0 → m = 0)
    (h : make? ((n : Int).sign * m) k = some a) : a.magnitude = m := by
  rw [← natAbs_coeff, coeff_of_make? h, Int.natAbs_mul, Int.natAbs_natCast, Int.natAbs_sign]
  split
  · next hn => rw [hzero (Int.natCast_eq_zero.1 hn), Nat.mul_zero]
  · exact Nat.one_mul m

theorem ofRatio_pow {n : Int} (hn : n.natAbs < 2 ^ 96) (hk : k ≤ 28) :
    ∃ s, ofRatio n (10 ^ k) k = some s ∧ s.coeff = n ∧ s.scale = k := by
  obtain ⟨s, hs⟩ := exists_make? hn hk
  refine ⟨s, ?_, coeff_of_make? hs, scale_of_make? hs⟩
  cases k with
  | zero => rw [ofRatio, pow_zero, Tie.round_one, Int.sign_mul_natAbs, hs]
  | succ k =>
    rw [ofRatio, Tie.round_mul_self _ _ (Nat.pow_pos (by decide)), Int.sign_mul_natAbs, hs,
      Option.some_or]

theorem add_exact (ha : a.scale ≤ k) (hb : b.scale ≤ k) (hk : k ≤ 28)
    (h : (a.coeffAt k + b.coeffAt k).natAbs < 2 ^ 96) :
    ∃ s, add a b = some s ∧ s.scale ≤ k ∧ s.coeffAt k = a.coeffAt k + b.coeffAt k := by
  unfold add
  split
  · next hz => exact ⟨b, rfl, hb, by rw [coeffAt_eq_zero_of_isZero hz, Int.zero_add]⟩
  split
  · next hz => exact ⟨a, rfl, ha, by rw [coeffAt_eq_zero_of_isZero hz, Int.add_zero]⟩
  -- the sum is taken at the larger scale of the two, where its coefficient is no larger
  have hj : max a.scale b.scale ≤ k := Nat.max_le.2 ⟨ha, hb⟩
  dsimp only
  generalize hplaces : max a.scale b.scale = j at hj ⊢
  have haj : a.scale ≤ j := hplaces ▸ Nat.le_max_left _ _
  have hbj : b.scale ≤ j := hplaces ▸ Nat.le_max_right _ _
  have hsum : a.coeffAt k + b.coeffAt k = (a.coeffAt j + b.coeffAt j) * 10 ^ (k - j) := by
    rw [coeffAt_of_le haj hj, coeffAt_of_le hbj hj, Int.add_mul]
  have hfits : (a.coeffAt j + b.coeffAt j).natAbs < 2 ^ 96 := by
    refine Nat.lt_of_le_of_lt ?_ h
    rw [hsum, Int.natAbs_mul]
    exact Nat.le_mul_of_pos_right _ (Int.natAbs_pos.2 (pow_ne_zero _ (by decide)))
  obtain ⟨s, hs, hcoeff, hscale⟩ := ofRatio_pow hfits (Nat.le_trans hj hk)
  refine ⟨s, hs, hscale ▸ hj, ?_⟩
  rw [hsum, ← hcoeff, coeffAt, hscale]

theorem sub_exact (ha : a.scale ≤ k) (hb : b.scale ≤ k) (hk : k ≤ 28)
    (h : (a.coeffAt k - b.coeffAt k).natAbs < 2 ^ 96) :
    ∃ s, sub a b = some s ∧ s.scale ≤ k ∧ s.coeffAt k = a.coeffAt k - b.coeffAt k := by
  rw [Int.sub_eq_add_neg, ← coeffAt_neg] at h ⊢
  exact add_exact ha hb hk h

theorem mul_exact (hs : a.scale + b.scale ≤ 28) (h : (a.coeff * b.coeff).natAbs < 2 ^ 96) :
    ∃ p, mul a b = some p ∧ p.scale ≤ a.scale + b.scale ∧
      p.coeffAt (a.scale + b.scale) = a.coeff * b.coeff := by
  unfold mul
  split
  · next hz =>
    refine ⟨zero, rfl, Nat.zero_le _, ?_⟩
    rw [coeffAt_eq_zero_of_isZero rfl]
    rcases Bool.or_eq_true_iff.1 hz with hz | hz
    · rw [isZero_iff.1 hz, Int.zero_mul]
    · rw [isZero_iff.1 hz, Int.mul_zero]
  · obtain ⟨p, hp, hcoeff, hscale⟩ := ofRatio_pow h hs
    exact ⟨p, hp, Nat.le_of_eq hscale, by rw [← hscale, coeffAt_scale, hcoeff]⟩

theorem floor_eq_coeffAt_div (ha : a.scale ≤ k) : a.floor = a.coeffAt k / 10 ^ k := by
  have hpow : (0 : Int) < 10 ^ (k - a.scale) := Int.pow_pos (by decide)
  have hsplit : (10 : Int) ^ k = 10 ^ a.scale * 10 ^ (k - a.scale) := by
    rw [← pow_add, Nat.add_sub_cancel' ha]
  rw [floor, coeffAt, hsplit, Int.mul_ediv_mul_of_pos_left _ _ hpow]

end Decimal
end ClubBooking
