import ClubBooking.Proofs.Decimal.Nearest

/-! The places that a product keeps. They are the most that fit, so the whole part of a rounded
product is the exact one, or the next if the exact product lies within half a unit of the last place
below it. -/

namespace ClubBooking

namespace Tie
variable {n d k : Nat}

theorem round_mul_right (tie : Tie) (n d : Nat) {e : Nat} (he : 0 < e) :
    tie.round (n * e) (d * e) = tie.round n d := by
  have hlow : 2 * (n % d * e) < d * e ↔ 2 * (n % d) < d := by
    rw [← Nat.mul_assoc, Nat.mul_lt_mul_right he]
  have hhigh : d * e < 2 * (n % d * e) ↔ d < 2 * (n % d) := by
    rw [← Nat.mul_assoc, Nat.mul_lt_mul_right he]
  simp only [round, Nat.mul_div_mul_right n d he, Nat.mul_mod_mul_right, hlow, hhigh]

theorem round_toEven (n d : Nat) :
    toEven.round n d =
      if d < 2 * (n % d) ∨ 2 * (n % d) = d ∧ n / d % 2 = 1 then n / d + 1 else n / d := by
  unfold round
  dsimp only
  split_ifs <;> omega

/-- The whole part of a quotient that is rounded to a `k`-th of the unit: it goes up to the next
integer if that is at most half such a part away. For a tie `k` must be even. -/
theorem round_toEven_div (n : Nat) (hd : 0 < d) (hk : 0 < k) (heven : d = 1 ∨ k % 2 = 0) :
    toEven.round n d / k =
      if 2 * ((n / (d * k) + 1) * (d * k) - n) ≤ d then n / (d * k) + 1 else n / (d * k) := by
  have hrest := Nat.mod_lt n hd
  have hsplit := Nat.div_add_mod n d
  have hleast := toEven.div_le_round n d
  have hmost := toEven.round_le n d
  rw [← Nat.div_div_eq_div_mul]
  generalize hq : n / d = q at hsplit hleast hmost ⊢
  generalize hr : n % d = r at hrest hsplit
  have hbase : q / k * k ≤ q := Nat.div_mul_le_self q k
  have hbelow : q < (q / k + 1) * k := by
    rw [Nat.mul_comm]
    exact Nat.lt_mul_div_succ q hk
  have hunit : (q / k + 1) * (d * k) = d * ((q / k + 1) * k) := by ring
  rw [hunit]
  generalize htop : (q / k + 1) * k = top at hbelow
  rcases Nat.lt_or_ge (q + 1) top with hshort | hreach
  · have hfar : d * (q + 2) ≤ d * top := Nat.mul_le_mul_left d hshort
    rw [Nat.mul_add] at hfar
    rw [if_neg (by omega)]
    exact Nat.div_eq_of_lt_le (by omega) (by omega)
  · obtain rfl : q + 1 = top := by omega
    have hgap : d * (q + 1) - n = d - r := by
      rw [Nat.mul_add]
      omega
    rw [hgap]
    have htie : 2 * r = d → q % 2 = 1 := by
      intro htie
      have hk2 : k % 2 = 0 := by omega
      have hpar : (q + 1) % 2 = 0 := by rw [← htop, Nat.mul_mod, hk2, Nat.mul_zero, Nat.zero_mod]
      omega
    have hup : (d < 2 * r ∨ 2 * r = d ∧ q % 2 = 1) ↔ 2 * (d - r) ≤ d := by omega
    rw [round_toEven, hq, hr, if_congr hup rfl rfl]
    split_ifs
    · rw [← htop, Nat.mul_div_cancel _ hk]
    · rfl

end Tie

namespace Decimal
variable {a b : Decimal} {n d places t : Nat}

theorem magnitude_of_ofRatio (hd : 0 < d) (h : ofRatio n d places = some a) :
    a.magnitude = Tie.toEven.round (n * 10 ^ a.scale) d := by
  have hmade {j : Nat} (hj : make? ((n : Int).sign * Tie.toEven.round (n * 10 ^ j) d) j = some a) :
      a.magnitude = Tie.toEven.round (n * 10 ^ a.scale) d := by
    rw [scale_of_make? hj]
    refine magnitude_of_make? (fun hn => ?_) hj
    rw [hn, Nat.zero_mul, Tie.zero_round _ hd]
  induction places with
  | zero =>
    refine hmade (j := 0) ?_
    rwa [pow_zero, Nat.mul_one]
  | succ places ih =>
    rw [ofRatio, Int.natAbs_natCast] at h
    rcases Option.or_eq_some_iff.1 h with hm | ⟨-, hm⟩
    · exact hmade hm
    · exact ih hm

theorem le_scale_of_ofRatio (ht : t ≤ places) (ht28 : t ≤ 28)
    (hfits : Tie.toEven.round (n * 10 ^ t) d < 2 ^ 96) (h : ofRatio n d places = some a) :
    t ≤ a.scale := by
  have hmake : ∃ x, make? ((n : Int).sign * Tie.toEven.round (n * 10 ^ t) d) t = some x :=
    exists_make? (Nat.lt_of_le_of_lt (natAbs_sign_mul_le _ _) hfits) ht28
  induction places, ht using Nat.le_induction with
  | base =>
    obtain ⟨x, hx⟩ := hmake
    cases t with
    | zero => exact Nat.zero_le _
    | succ t =>
      rw [ofRatio, Int.natAbs_natCast, hx, Option.some_or] at h
      cases h
      exact Nat.le_of_eq (scale_of_make? hx).symm
  | succ places hle ih =>
    rw [ofRatio, Int.natAbs_natCast] at h
    rcases Option.or_eq_some_iff.1 h with hm | ⟨-, hm⟩
    · rw [scale_of_make? hm]
      omega
    · exact ih hm

theorem toNat_floor (h : 0 ≤ a.coeff) : a.floor.toNat = a.magnitude / 10 ^ a.scale := by
  rw [floor, coeff_eq_magnitude h]
  exact congrArg Int.toNat (Int.natCast_ediv a.magnitude (10 ^ a.scale)).symm

end Decimal
end ClubBooking
