import ClubBooking.Proofs.Decimal.Exact

/-! Rounding half away from zero, as a function of the ratio alone: it is monotone, a whole number
passes through it unchanged, and it does not depend on how the ratio is written. A product of
decimals is the exact ratio whenever that needs few places. -/

namespace ClubBooking

namespace Tie
variable {n m d e : Nat}

theorem round_awayFromZero (n : Nat) (hd : 0 < d) :
    awayFromZero.round n d = (2 * n + d) / (2 * d) := by
  have hrest := Nat.mod_lt n hd
  have hsplit : 2 * n + d = 2 * (n % d) + d + n / d * (2 * d) := by
    conv_lhs => rw [← Nat.div_add_mod n d]
    ring
  rw [hsplit, Nat.add_mul_div_right _ _ (by omega)]
  unfold round
  dsimp only
  split
  · next hlow =>
    have hnone : (2 * (n % d) + d) / (2 * d) = 0 := Nat.div_eq_of_lt (by omega)
    rw [hnone, Nat.zero_add]
  · next hhigh =>
    have hone : (2 * (n % d) + d) / (2 * d) = 1 :=
      Nat.div_eq_of_lt_le (by omega) (by omega)
    rw [hone, Nat.add_comm 1]
    split <;> rfl

theorem round_mono (hd : 0 < d) (h : n ≤ m) : awayFromZero.round n d ≤ awayFromZero.round m d := by
  rw [round_awayFromZero n hd, round_awayFromZero m hd]
  exact Nat.div_le_div_right (by omega)

theorem round_add_mul (n k : Nat) (hd : 0 < d) :
    awayFromZero.round (n + k * d) d = awayFromZero.round n d + k := by
  rw [round_awayFromZero _ hd, round_awayFromZero _ hd]
  have hshift : 2 * (n + k * d) + d = 2 * n + d + k * (2 * d) := by ring
  rw [hshift, Nat.add_mul_div_right _ _ (by omega)]

theorem round_mul_le {r : Nat} (hd : 0 < d) (hr : r ≤ d) (h : n ≤ m) :
    awayFromZero.round (m * r) d ≤ awayFromZero.round (n * r) d + (m - n) := by
  have hgrowth : m * r ≤ n * r + (m - n) * d := by
    calc
      m * r = n * r + (m - n) * r := by rw [← Nat.add_mul, Nat.add_sub_cancel' h]
      _ ≤ n * r + (m - n) * d := Nat.add_le_add_left (Nat.mul_le_mul_left _ hr) _
  exact (round_mono hd hgrowth).trans_eq (round_add_mul _ _ hd)

theorem round_congr (hd : 0 < d) (he : 0 < e) (h : n * e = m * d) :
    awayFromZero.round n d = awayFromZero.round m e := by
  rw [round_awayFromZero n hd, round_awayFromZero m he]
  -- both quotients are brought to the divisor `2 * d * e`
  rw [← Nat.mul_div_mul_right (2 * n + d) (2 * d) he,
    ← Nat.mul_div_mul_right (2 * m + e) (2 * e) hd]
  have hnum : (2 * n + d) * e = (2 * m + e) * d := by
    calc
      (2 * n + d) * e = 2 * (n * e) + d * e := by ring
      _ = 2 * (m * d) + d * e := by rw [h]
      _ = (2 * m + e) * d := by ring
  have hden : 2 * d * e = 2 * e * d := by ring
  rw [hnum, hden]

end Tie

namespace Decimal
variable {a b : Decimal} {k m : Nat}

theorem coeff_eq_magnitude (h : 0 ≤ a.coeff) : a.coeff = a.magnitude := by
  have hmagnitude := a.natAbs_coeff
  omega

def HasPlaces (k : Nat) (a : Decimal) : Prop := 10 ^ a.scale ∣ a.magnitude * 10 ^ k

instance (k : Nat) (a : Decimal) : Decidable (a.HasPlaces k) := inferInstanceAs (Decidable (_ ∣ _))

theorem magnitude_mul_of_make? {n d j : Nat} {s : Decimal} (hd : 0 < d)
    (h : n * 10 ^ j = m * d)
    (hs : make? ((n : Int).sign * Tie.toEven.round (n * 10 ^ j) d) j = some s) :
    s.magnitude * d = n * 10 ^ s.scale := by
  rw [h, Tie.round_mul_self _ _ hd] at hs
  have hmagnitude : s.magnitude = m := by
    refine magnitude_of_make? (fun hn => ?_) hs
    rw [hn, Nat.zero_mul] at h
    exact (Nat.mul_eq_zero.1 h.symm).resolve_right (Nat.ne_of_gt hd)
  rw [scale_of_make? hs, hmagnitude, h]

theorem ofRatio_exact {n d places : Nat} (hd : 0 < d) (hm : m < 2 ^ 96) (hk : k ≤ 28)
    (h : n * 10 ^ k = m * d) (hplaces : k ≤ places) :
    ∃ s, ofRatio n d places = some s ∧ s.magnitude * d = n * 10 ^ s.scale := by
  induction places, hplaces using Nat.le_induction with
  | base =>
    have hfits : ((n : Int).sign * Tie.toEven.round (n * 10 ^ k) d).natAbs < 2 ^ 96 := by
      rw [h, Tie.round_mul_self _ _ hd]
      exact Nat.lt_of_le_of_lt (natAbs_sign_mul_le _ m) hm
    obtain ⟨s, hs⟩ := exists_make? hfits hk
    refine ⟨s, ?_, magnitude_mul_of_make? hd h hs⟩
    cases k with
    | zero => simpa [ofRatio] using hs
    | succ k => rw [ofRatio, Int.natAbs_natCast, hs, Option.some_or]
  | succ places hle ih =>
    obtain ⟨t, ht, hvalue⟩ := ih
    rw [ofRatio, Int.natAbs_natCast, ht]
    cases hs : make? ((n : Int).sign * Tie.toEven.round (n * 10 ^ (places + 1)) d) (places + 1) with
    | none => exact ⟨t, rfl, hvalue⟩
    | some s =>
      have heven : n * 10 ^ (places + 1) = m * 10 ^ (places + 1 - k) * d := by
        calc
          n * 10 ^ (places + 1) = n * 10 ^ k * 10 ^ (places + 1 - k) := by
            rw [Nat.mul_assoc, ← pow_add, Nat.add_sub_cancel' (by omega)]
          _ = m * 10 ^ (places + 1 - k) * d := by rw [h]; ring
      exact ⟨s, rfl, magnitude_mul_of_make? hd heven hs⟩

theorem mul_eq (ha : 0 ≤ a.coeff) (hb : 0 ≤ b.coeff) :
    mul a b =
      if a.magnitude * b.magnitude = 0 then some zero
      else ofRatio ((a.magnitude * b.magnitude : Nat) : Int) (10 ^ (a.scale + b.scale))
        (a.scale + b.scale) := by
  have hzero : (a.isZero || b.isZero) = true ↔ a.magnitude * b.magnitude = 0 := by
    rw [Bool.or_eq_true, Nat.mul_eq_zero, isZero, isZero, beq_iff_eq, beq_iff_eq]
  rw [mul, if_congr hzero rfl rfl, coeff_eq_magnitude ha, coeff_eq_magnitude hb, Int.natCast_mul]

theorem mul_exact_of_places (ha : 0 ≤ a.coeff) (hb : 0 ≤ b.coeff) (hk : k ≤ 28)
    (hm : m < 2 ^ 96)
    (h : a.magnitude * b.magnitude * 10 ^ k = m * 10 ^ (a.scale + b.scale)) :
    ∃ p, mul a b = some p ∧
      p.magnitude * 10 ^ (a.scale + b.scale) = a.magnitude * b.magnitude * 10 ^ p.scale := by
  rw [mul_eq ha hb]
  split
  · next hzero =>
    refine ⟨zero, rfl, ?_⟩
    rw [hzero, Nat.zero_mul]
    exact Nat.zero_mul _
  · have hpos : 0 < 10 ^ (a.scale + b.scale) := Nat.pow_pos (by decide)
    rcases Nat.le_total k (a.scale + b.scale) with hle | hle
    · exact ofRatio_exact hpos hm hk h hle
    · refine ofRatio_exact (m := a.magnitude * b.magnitude) hpos ?_ (hle.trans hk) rfl
        (Nat.le_refl _)
      have hfewer : a.magnitude * b.magnitude * 10 ^ (k - (a.scale + b.scale)) = m := by
        refine Nat.eq_of_mul_eq_mul_right hpos ?_
        rw [← h, Nat.mul_assoc, ← pow_add, Nat.sub_add_cancel hle]
      refine Nat.lt_of_le_of_lt ?_ hm
      rw [← hfewer]
      exact Nat.le_mul_of_pos_right _ (Nat.pow_pos (by decide))

end Decimal
end ClubBooking
