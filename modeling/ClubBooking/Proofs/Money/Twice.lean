import ClubBooking.Proofs.Decimal.Places
import ClubBooking.Proofs.Money.Grid
import ClubBooking.Proofs.Money.Rate

/-! Products and quotients of an amount are rounded twice: to the places that a decimal has room
for, then to the currency. That is the exact result rounded once, or a unit more where the exact
result lies so little below the middle of two units that the first rounding reaches the middle. -/

namespace ClubBooking

theorem Tie.lt_middle {d : Nat} (n : Nat) (hd : 0 < d) :
    2 * n < (2 * awayFromZero.round n d + 1) * d := by
  have hbelow : 2 * n + d < (2 * n + d) / (2 * d) * (2 * d) + 2 * d :=
    Nat.lt_div_mul_add (by omega)
  rw [← round_awayFromZero n hd] at hbelow
  have hmiddle : (2 * awayFromZero.round n d + 1) * d = awayFromZero.round n d * (2 * d) + d := by
    ring
  omega

theorem Tie.round_parts {c g parts : Nat} (hg : 0 < g) (hleast : 2 * (c * g) ≤ parts + g)
    (hmost : parts ≤ 2 * (c * g) + g) :
    awayFromZero.round parts (2 * g) = if 2 * (c * g) + g ≤ parts then c + 1 else c := by
  have hfour (b : Nat) : b * (2 * (2 * g)) = 4 * (b * g) := by ring
  rw [round_awayFromZero _ (by omega)]
  split
  · refine Nat.div_eq_of_lt_le ?_ ?_
    · rw [hfour, Nat.add_mul, Nat.one_mul]
      omega
    · rw [hfour, Nat.add_mul, Nat.add_mul, Nat.one_mul]
      omega
  · refine Nat.div_eq_of_lt_le ?_ ?_
    · rw [hfour]
      omega
    · rw [hfour, Nat.add_mul, Nat.one_mul]
      omega

/-- Rounding to the `2 * g`-th part of a unit first goes wrong only if that reaches the middle
between two units. -/
theorem Tie.round_twice {d g : Nat} (n : Nat) (hd : 0 < d) (hg : 0 < g) :
    awayFromZero.round (toEven.round (n * (2 * g)) d) (2 * g) =
      let units := awayFromZero.round n d
      let lack := ((2 * units + 1) * d - 2 * n) * (2 * g)
      if lack < d ∨ lack = d ∧ g % 2 = 0 then units + 1 else units := by
  dsimp only
  have hbelow := lt_middle n hd
  have hlow : awayFromZero.round n d * (2 * d) ≤ 2 * n + d := by
    rw [round_awayFromZero n hd]
    exact Nat.div_mul_le_self _ _
  generalize awayFromZero.round n d = c at hbelow hlow ⊢
  have hmiddle : n * (2 * g) < (2 * c + 1) * g * d := by
    calc
      n * (2 * g) = 2 * n * g := by ring
      _ < (2 * c + 1) * d * g := Nat.mul_lt_mul_of_pos_right hbelow hg
      _ = (2 * c + 1) * g * d := Nat.mul_right_comm ..
  have hlack : ((2 * c + 1) * d - 2 * n) * (2 * g) =
      2 * ((2 * c + 1) * g * d - n * (2 * g)) := by
    rw [Nat.sub_mul, Nat.mul_sub]
    congr 1 <;> ring
  have hmid : (2 * c + 1) * g = 2 * (c * g) + g := by ring
  have hparity : (2 * c + 1) * g % 2 = g % 2 := by omega
  have hreach := le_round_toEven_iff hd hmiddle
  rw [← hlack, hparity, hmid] at hreach
  have hmost : toEven.round (n * (2 * g)) d ≤ 2 * (c * g) + g :=
    hmid ▸ toEven.round_le_of_le_mul hd hmiddle.le
  have hleast : 2 * (c * g) ≤ toEven.round (n * (2 * g)) d + g := by
    have hparts : (2 * (c * g) - g) * d ≤ n * (2 * g) := by
      have hscaled := Nat.mul_le_mul_right g hlow
      rw [Nat.sub_mul, Nat.sub_le_iff_le_add]
      calc
        2 * (c * g) * d = c * (2 * d) * g := by ring
        _ ≤ (2 * n + d) * g := hscaled
        _ = n * (2 * g) + g * d := by ring
    have hround := ((Nat.le_div_iff_mul_le hd).2 hparts).trans (toEven.div_le_round _ _)
    omega
  rw [round_parts hg hleast hmost, if_congr hreach rfl rfl]

namespace Money
variable {a m : Money} {k : Decimal} {op : Scaling}

theorem divide_eq_ok_iff :
    a.divide k = .ok m ↔
      ∃ (hk : 0 < k.coeff) (q : Decimal) (hq : a.amount.div k = some q),
        m = rounded q a.currency (Decimal.coeff_nonneg_of_div a.amount_nonneg hk hq) := by
  unfold divide
  constructor
  · intro h
    split at h
    · cases h
    split at h
    · next hk =>
      split at h
      · cases h
      · next q hq => exact ⟨hk, q, hq, (Except.ok.inj h).symm⟩
    · cases h
  · rintro ⟨hk, q, hq, rfl⟩
    have hzero : ¬ k.isZero = true := fun hz => Int.ne_of_gt hk (Decimal.isZero_iff.1 hz)
    rw [if_neg hzero, dif_pos hk]
    split
    · next hnone => rw [hq] at hnone; cases hnone
    · next x hx =>
      obtain rfl : x = q := Option.some.inj (hx.symm.trans hq)
      rfl

namespace Scaling

def num : Scaling → Decimal → Decimal → Nat
  | multiply, x, k => x.magnitude * k.magnitude
  | divide, x, k => x.magnitude * 10 ^ k.scale

def den : Scaling → Decimal → Decimal → Nat
  | multiply, x, k => 10 ^ (x.scale + k.scale)
  | divide, x, k => k.magnitude * 10 ^ x.scale

/-- The exact result in the smallest unit, rounded half up. -/
def units (op : Scaling) (a : Money) (k : Decimal) : Nat :=
  Tie.awayFromZero.round (op.num a.amount k * 10 ^ a.currency.minorUnits) (op.den a.amount k)

def places (op : Scaling) (a : Money) (k : Decimal) : Nat :=
  Decimal.mostPlaces (op.num a.amount k) (op.den a.amount k)

/-- Twice what the exact result lacks to the middle between its units and the next, as a multiple of
the `den`-th part of a unit. -/
def lack (op : Scaling) (a : Money) (k : Decimal) : Nat :=
  (2 * op.units a k + 1) * op.den a.amount k -
    2 * (op.num a.amount k * 10 ^ a.currency.minorUnits)

/-- Rounding to the places that fit reaches the middle: no more than half of the last place is
lacking, and less than half if the middle has an odd last digit there. -/
def ReachesMiddle (op : Scaling) (a : Money) (k : Decimal) : Prop :=
  let part := 10 ^ (op.places a k - a.currency.minorUnits)
  op.lack a k * part < op.den a.amount k ∨
    op.lack a k * part = op.den a.amount k ∧ op.places a k ≠ a.currency.minorUnits + 1

instance (op : Scaling) (a : Money) (k : Decimal) : Decidable (op.ReachesMiddle a k) :=
  inferInstanceAs (Decidable (_ ∨ _))

theorem exists_rounded (h : op.run a k = .ok m) :
    0 < op.den a.amount k ∧ ∃ p, ∃ hp : 0 ≤ p.coeff,
      Decimal.IsNearest (op.num a.amount k) (op.den a.amount k) p ∧ m = rounded p a.currency hp := by
  cases op with
  | multiply =>
    have hk : 0 ≤ k.coeff := by
      by_contra hneg
      cases (dif_neg hneg).symm.trans (show a.multiply k = .ok m from h)
    obtain ⟨p, hp, rfl⟩ := (multiply_eq_ok_iff hk).1 h
    exact ⟨Nat.pow_pos (by decide), p, _, Decimal.isNearest_of_mul a.amount_nonneg hk hp, rfl⟩
  | divide =>
    obtain ⟨hk, p, hp, rfl⟩ := divide_eq_ok_iff.1 h
    exact ⟨Nat.mul_pos (Decimal.magnitude_pos hk) (Nat.pow_pos (by decide)), p, _,
      Decimal.isNearest_of_div a.amount_nonneg hk hp, rfl⟩

theorem lack_pos (op : Scaling) (a : Money) (k : Decimal) (hden : 0 < op.den a.amount k) :
    0 < op.lack a k := Nat.sub_pos_of_lt (Tie.lt_middle _ hden)

def unitsTwice (op : Scaling) (a : Money) (k : Decimal) : Nat :=
  Tie.awayFromZero.round
    (Tie.toEven.round (op.num a.amount k * 10 ^ op.places a k) (op.den a.amount k) *
      10 ^ a.currency.minorUnits)
    (10 ^ op.places a k)

theorem minor_eq_unitsTwice (h : op.run a k = .ok m) : m.minor = op.unitsTwice a k := by
  obtain ⟨-, p, hp, hnearest, rfl⟩ := exists_rounded h
  have hpos (j : Nat) : 0 < 10 ^ j := Nat.pow_pos (by decide)
  rw [minor_rounded, unitsTwice]
  refine Tie.round_congr (hpos _) (hpos _) ?_
  rw [Nat.mul_right_comm, places, hnearest, Nat.mul_right_comm]

theorem unitsTwice_of_even (hden : 0 < op.den a.amount k)
    (h : op.den a.amount k ∣ op.num a.amount k * 10 ^ op.places a k) :
    op.unitsTwice a k = op.units a k := by
  obtain ⟨c, hc⟩ := h
  rw [unitsTwice, units, hc, Nat.mul_comm _ c, Tie.round_mul_self _ _ hden]
  refine Tie.round_congr (Nat.pow_pos (by decide)) hden ?_
  calc
    c * 10 ^ a.currency.minorUnits * op.den a.amount k =
        op.den a.amount k * c * 10 ^ a.currency.minorUnits := by ring
    _ = op.num a.amount k * 10 ^ a.currency.minorUnits * 10 ^ op.places a k := by rw [← hc]; ring

theorem unitsTwice_of_lt (hden : 0 < op.den a.amount k)
    (h : a.currency.minorUnits < op.places a k) :
    op.unitsTwice a k = if op.ReachesMiddle a k then op.units a k + 1 else op.units a k := by
  obtain ⟨e, he⟩ := Nat.exists_eq_add_of_lt h
  have hpart : op.places a k - a.currency.minorUnits = e + 1 := by omega
  have hhalf : 10 ^ (e + 1) = 2 * (5 * 10 ^ e) := by ring
  have hsplit : 10 ^ op.places a k = 10 ^ (e + 1) * 10 ^ a.currency.minorUnits := by
    rw [← pow_add]
    congr 1
    omega
  have hscaled : op.num a.amount k * 10 ^ op.places a k =
      op.num a.amount k * 10 ^ a.currency.minorUnits * 10 ^ (e + 1) := by rw [hsplit]; ring
  have heven : 5 * 10 ^ e % 2 = 0 ↔ op.places a k ≠ a.currency.minorUnits + 1 := by
    cases e with
    | zero => simp [he]
    | succ e =>
      have hten : 5 * 10 ^ (e + 1) = 2 * (5 * (5 * 10 ^ e)) := by ring
      omega
  rw [unitsTwice, hscaled, hsplit, Tie.round_mul_right _ _ _ (Nat.pow_pos (by decide)), hhalf,
    Tie.round_twice _ hden (Nat.mul_pos (by decide) (Nat.pow_pos (by decide)))]
  simp only [ReachesMiddle, hpart, hhalf, lack, units, heven]

theorem lt_places (hden : 0 < op.den a.amount k)
    (h : op.num a.amount k ≤ 10 ^ 25 * op.den a.amount k) :
    a.currency.minorUnits < op.places a k := by
  have hunits := a.currency.minorUnits_le
  have hfits : Decimal.Fits (op.num a.amount k) (op.den a.amount k) 3 := by
    refine Nat.lt_of_le_of_lt (Tie.toEven.round_le_of_le_mul (m := 10 ^ 28) hden ?_) (by decide)
    calc
      op.num a.amount k * 10 ^ 3 ≤ 10 ^ 25 * op.den a.amount k * 10 ^ 3 :=
        Nat.mul_le_mul_right _ h
      _ = 10 ^ 28 * op.den a.amount k := by ring
  have hthree : 3 ≤ op.places a k := Nat.le_findGreatest (by decide) hfits
  omega

theorem den_dvd_of_fits (hfits : a.amount.magnitude * k.magnitude < 2 ^ 96)
    (hplaces : a.amount.scale + k.scale ≤ 28) :
    multiply.den a.amount k ∣ multiply.num a.amount k * 10 ^ multiply.places a k := by
  have hwhole : Decimal.Fits (multiply.num a.amount k) (multiply.den a.amount k)
      (a.amount.scale + k.scale) := by
    rw [Decimal.Fits, num, den, Tie.round_mul_self _ _ (Nat.pow_pos (by decide))]
    exact hfits
  have hle : a.amount.scale + k.scale ≤ multiply.places a k := Nat.le_findGreatest hplaces hwhole
  exact Nat.dvd_mul_left_of_dvd (pow_dvd_pow 10 hle) _

/-- Products and quotients are the exact result, rounded half to even to the places that fit and
then half up to the currency. As long as a place more fits than the currency has, that is the exact
result rounded once, or a unit more if it lies so little below the middle of two units that the
first rounding reaches the middle. It is never that little below if its denominator is small, and
no harm is done if the exact result has no more places than fit. -/
theorem minor_of_run (h : op.run a k = .ok m) :
    m.currency = a.currency ∧ m.minor = op.unitsTwice a k ∧
      (op.num a.amount k ≤ 10 ^ 25 * op.den a.amount k →
        a.currency.minorUnits < op.places a k) ∧
      (a.currency.minorUnits < op.places a k →
        m.minor = if op.ReachesMiddle a k then op.units a k + 1 else op.units a k) ∧
      (op.den a.amount k < 10 ^ (op.places a k - a.currency.minorUnits) →
        m.minor = op.units a k) ∧
      (op.den a.amount k ∣ op.num a.amount k * 10 ^ op.places a k → m.minor = op.units a k) ∧
      (op = multiply → a.amount.magnitude * k.magnitude < 2 ^ 96 →
        a.amount.scale + k.scale ≤ 28 → m.minor = op.units a k) := by
  obtain ⟨hden, p, hp, -, hrounded⟩ := exists_rounded h
  have hcurrency : m.currency = a.currency := by rw [hrounded]; rfl
  rw [minor_eq_unitsTwice h]
  refine ⟨hcurrency, rfl, lt_places hden, unitsTwice_of_lt hden, fun hsmall => ?_,
    unitsTwice_of_even hden, ?_⟩
  · have hmore : a.currency.minorUnits < op.places a k := by
      by_contra hnone
      rw [Nat.sub_eq_zero_of_le (Nat.not_lt.1 hnone), pow_zero] at hsmall
      omega
    rw [unitsTwice_of_lt hden hmore, if_neg]
    -- at least one part is lacking, and one is too much already
    have hpart := Nat.le_mul_of_pos_left (10 ^ (op.places a k - a.currency.minorUnits))
      (op.lack_pos a k hden)
    unfold ReachesMiddle
    dsimp only
    omega
  · rintro rfl hfits hplaces
    exact unitsTwice_of_even hden (den_dvd_of_fits hfits hplaces)

def threeCents : Money := rounded ((Decimal.make? 3 2).getD .zero) .usd (by decide)

def belowSixth : Decimal := (Decimal.make? 1666666666666666666666666666 28).getD .zero

def aboveTwo : Decimal := (Decimal.make? 20000000000000000000000000001 28).getD .zero

theorem minor_of_run_threeCents :
    ∃ m, multiply.run threeCents belowSixth = .ok m ∧
      multiply.ReachesMiddle threeCents belowSixth ∧
      m.minor = multiply.units threeCents belowSixth + 1 := by
  obtain ⟨m, hm⟩ : ∃ m, multiply.run threeCents belowSixth = .ok m := ⟨_, rfl⟩
  obtain ⟨-, -, hroom, hminor, -⟩ := minor_of_run hm
  have hmiddle : multiply.ReachesMiddle threeCents belowSixth := by decide
  refine ⟨m, hm, hmiddle, (hminor (hroom (by decide))).trans (if_pos hmiddle)⟩

/-- Less than half a cent is made a cent, and less than half a won is made a won. -/
theorem run_threeCents :
    (∃ m, multiply.run threeCents belowSixth = .ok m ∧ m.minor = 1) ∧
      multiply.units threeCents belowSixth = 0 ∧
      (∃ m, divide.run (.ofUnits 1 .krw) aboveTwo = .ok m ∧ m.minor = 1) ∧
      divide.units (.ofUnits 1 .krw) aboveTwo = 0 := by
  have hdiv : (ofUnits 1 .krw).amount.div aboveTwo =
      some ⟨false, 500000000000000000000, 21, by decide, by decide⟩ := by decide +kernel
  refine ⟨⟨_, rfl, by decide⟩, by decide, ⟨_, divide_eq_ok_iff.2 ⟨by decide, _, hdiv, rfl⟩, rfl⟩, ?_⟩
  decide

end Scaling

end Money
end ClubBooking
