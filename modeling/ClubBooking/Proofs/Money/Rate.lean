import ClubBooking.Proofs.Decimal.Nearest
import ClubBooking.Proofs.Decimal.Room
import ClubBooking.Proofs.Money.Minor

/-! Amounts of one currency, and rates of them. Minimum, difference and the product with a rate are
never refused; in the smallest unit the product is the exact ratio, rounded once. -/

namespace ClubBooking

def Decimal.shareOf (r : Decimal) (n : Nat) : Nat :=
  Tie.awayFromZero.round (n * r.magnitude) (10 ^ r.scale)

namespace Decimal.IsRate
variable {r : Decimal} {m n : Nat}

theorem shareOf_le (h : r.IsRate) (n : Nat) : r.shareOf n ≤ n :=
  Tie.awayFromZero.round_le_of_le_mul (Nat.pow_pos (by decide))
    (Nat.mul_le_mul_left n h.magnitude_le)

theorem shareOf_le_add (h : r.IsRate) (hle : n ≤ m) : r.shareOf m ≤ r.shareOf n + (m - n) :=
  Tie.round_mul_le (Nat.pow_pos (by decide)) h.magnitude_le hle

end Decimal.IsRate

namespace Money
variable {a b d : Money} {r : Decimal} {c : Currency}

theorem minor_mul_pow_scale (m : Money) :
    m.minor * 10 ^ m.amount.scale = m.amount.magnitude * 10 ^ m.currency.minorUnits := by
  rw [minor, Decimal.coeff_eq_magnitude m.amount_nonneg, Int.toNat_natCast, Nat.mul_assoc,
    ← pow_add, Nat.sub_add_cancel m.scale_le]

theorem minor_rounded (x : Decimal) (c : Currency) (h : 0 ≤ x.coeff) :
    (rounded x c h).minor =
      Tie.awayFromZero.round (x.magnitude * 10 ^ c.minorUnits) (10 ^ x.scale) := by
  have hpos (k : Nat) : 0 < 10 ^ k := Nat.pow_pos (by decide)
  have hcoeff := Decimal.coeff_eq_magnitude (rounded x c h).amount_nonneg
  rw [minor, hcoeff, Int.toNat_natCast]
  simp only [rounded, Decimal.roundTo]
  split
  · next hscale =>
    have hwritten : x.magnitude * 10 ^ c.minorUnits =
        x.magnitude * 10 ^ (c.minorUnits - x.scale) * 10 ^ x.scale := by
      rw [Nat.mul_assoc, ← pow_add, Nat.sub_add_cancel hscale]
    rw [hwritten, Tie.round_mul_self _ _ (hpos _)]
  · next hscale =>
    rw [Nat.sub_self, pow_zero, Nat.mul_one]
    refine Tie.round_congr (hpos _) (hpos _) ?_
    rw [Nat.mul_assoc, ← pow_add]
    congr 2
    omega

theorem exists_min (ha : a.currency = c) (hb : b.currency = c) :
    ∃ m, a.min b = .ok m ∧ m.currency = c := by
  have hmin := min_eq_ok_iff.2 ⟨ha.trans hb.symm, rfl⟩
  exact ⟨_, hmin, (currency_of_min hmin).1.trans ha⟩

theorem exists_difference (ha : a.currency = c) (hb : b.currency = c) :
    ∃ d, a.saturatingSub b = .ok d ∧ d.currency = c := by
  obtain ⟨s, hs⟩ := Decimal.exists_sub a.amount_nonneg b.amount_nonneg
  have hsome : ∃ d, a.saturatingSub b = .ok d := by
    rw [saturatingSub, subOr_of_sub (ha.trans hb.symm) hs]
    split <;> exact ⟨_, rfl⟩
  obtain ⟨d, hd⟩ := hsome
  exact ⟨d, hd, (currency_of_saturatingSub hd).2.trans ha⟩

theorem multiply_eq_ok_iff (hr : 0 ≤ r.coeff) :
    a.multiply r = .ok d ↔
      ∃ p, ∃ hp : a.amount.mul r = some p,
        d = rounded p a.currency (Decimal.coeff_nonneg_of_mul a.amount_nonneg hr hp) := by
  unfold multiply
  rw [dif_pos hr]
  constructor
  · intro h
    split at h
    · cases h
    · next p hp => exact ⟨p, hp, (Except.ok.inj h).symm⟩
  · rintro ⟨p, hp, rfl⟩
    split
    · next hnone => rw [hp] at hnone; cases hnone
    · next q hq =>
      obtain rfl : q = p := Option.some.inj (hq.symm.trans hp)
      rfl

theorem exists_multiply (ha : a.currency = c) (hr : r.IsRate) :
    ∃ d, a.multiply r = .ok d ∧ d.currency = c := by
  obtain ⟨p, hp⟩ := Decimal.exists_mul_of_isRate a.amount hr
  exact ⟨_, (multiply_eq_ok_iff (Decimal.isRate_iff.1 hr).1).2 ⟨p, hp, rfl⟩, ha⟩

def IsUpTo (k : Nat) (m : Money) : Prop := m.amount.coeff ≤ 10 ^ (k + m.amount.scale)

instance (k : Nat) (m : Money) : Decidable (m.IsUpTo k) := inferInstanceAs (Decidable (_ ≤ _))

theorem isUpTo_iff {k : Nat} (m : Money) :
    m.IsUpTo k ↔ m.minor ≤ 10 ^ (k + m.currency.minorUnits) := by
  have hpos : 0 < 10 ^ m.amount.scale := Nat.pow_pos (by decide)
  have hpos' : 0 < 10 ^ m.currency.minorUnits := Nat.pow_pos (by decide)
  rw [IsUpTo, Decimal.coeff_eq_magnitude m.amount_nonneg, ← Nat.mul_le_mul_right_iff hpos,
    minor_mul_pow_scale, pow_add 10 k m.currency.minorUnits, Nat.mul_right_comm,
    Nat.mul_le_mul_right_iff hpos', ← pow_add]
  exact_mod_cast Iff.rfl

theorem IsUpTo.minor_lt {m : Money} (h : m.IsUpTo 15) : m.minor < 2 ^ 96 := by
  have hunits := m.currency.minorUnits_le
  calc
    m.minor ≤ 10 ^ (15 + m.currency.minorUnits) := m.isUpTo_iff.1 h
    _ ≤ 10 ^ 17 := Nat.pow_le_pow_right (by decide) (by omega)
    _ < 2 ^ 96 := by decide

theorem IsUpTo.of_minor_le {k : Nat} (h : b.IsUpTo k) (hc : a.currency = b.currency)
    (hle : a.minor ≤ b.minor) : a.IsUpTo k := by
  rw [isUpTo_iff] at h ⊢
  rw [hc]
  exact hle.trans h

theorem exists_mul_exact (ha : a.IsUpTo 15) (hr : r.IsRate) (hplaces : r.HasPlaces 10) :
    ∃ p, a.amount.mul r = some p ∧ p.magnitude * 10 ^ (a.amount.scale + r.scale) =
      a.amount.magnitude * r.magnitude * 10 ^ p.scale := by
  obtain ⟨c, hc⟩ := hplaces
  have hunits := a.currency.minorUnits_le
  -- the product comes out even at the places of the currency and ten more
  have heven : a.amount.magnitude * r.magnitude * 10 ^ (a.currency.minorUnits + 10) =
      a.minor * c * 10 ^ (a.amount.scale + r.scale) := by
    calc
      a.amount.magnitude * r.magnitude * 10 ^ (a.currency.minorUnits + 10) =
          a.amount.magnitude * 10 ^ a.currency.minorUnits * (r.magnitude * 10 ^ 10) := by ring
      _ = a.minor * 10 ^ a.amount.scale * (10 ^ r.scale * c) := by rw [← minor_mul_pow_scale, hc]
      _ = a.minor * c * 10 ^ (a.amount.scale + r.scale) := by ring
  have hcle : c ≤ 10 ^ 10 := by
    refine Nat.le_of_mul_le_mul_left ?_ (Nat.pow_pos (by decide) : 0 < 10 ^ r.scale)
    rw [← hc]
    exact Nat.mul_le_mul_right _ hr.magnitude_le
  have hfits : a.minor * c < 2 ^ 96 := by
    calc
      a.minor * c ≤ 10 ^ 17 * 10 ^ 10 := by
        refine Nat.mul_le_mul ((a.isUpTo_iff.1 ha).trans ?_) hcle
        exact Nat.pow_le_pow_right (by decide) (by omega)
      _ < 2 ^ 96 := by decide
  have hnonneg := (Decimal.isRate_iff.1 hr).1
  exact Decimal.mul_exact_of_places a.amount_nonneg hnonneg (by omega) hfits heven

theorem minor_rounded_of_exact {p : Decimal} (h : 0 ≤ p.coeff)
    (hexact : p.magnitude * 10 ^ (a.amount.scale + r.scale) =
      a.amount.magnitude * r.magnitude * 10 ^ p.scale) :
    (rounded p a.currency h).minor = r.shareOf a.minor := by
  have hpos (k : Nat) : 0 < 10 ^ k := Nat.pow_pos (by decide)
  rw [minor_rounded, Decimal.shareOf]
  refine Tie.round_congr (hpos _) (hpos _) ?_
  refine Nat.eq_of_mul_eq_mul_right (hpos a.amount.scale) ?_
  calc
    p.magnitude * 10 ^ a.currency.minorUnits * 10 ^ r.scale * 10 ^ a.amount.scale =
        p.magnitude * 10 ^ (a.amount.scale + r.scale) * 10 ^ a.currency.minorUnits := by ring
    _ = a.amount.magnitude * 10 ^ a.currency.minorUnits * (r.magnitude * 10 ^ p.scale) := by
      rw [hexact]; ring
    _ = a.minor * r.magnitude * 10 ^ p.scale * 10 ^ a.amount.scale := by
      rw [← minor_mul_pow_scale]; ring

/-- A rate of at most ten places, taken of an amount of at most 10^15, is rounded only once. -/
theorem minor_of_multiply (ha : a.IsUpTo 15) (hr : r.IsRate) (hplaces : r.HasPlaces 10)
    (h : a.multiply r = .ok d) : d.minor = r.shareOf a.minor := by
  obtain ⟨p, hp, rfl⟩ := (multiply_eq_ok_iff (Decimal.isRate_iff.1 hr).1).1 h
  obtain ⟨q, hq, hexact⟩ := exists_mul_exact ha hr hplaces
  obtain rfl : p = q := Option.some.inj (hp.symm.trans hq)
  exact minor_rounded_of_exact _ hexact

end Money
end ClubBooking
