import ClubBooking.Decimal.Rounding

/-! Sums and products of decimals. They are the exact rational, written with the most places it may
have that leave the coefficient below 2^96; places that do not fit are rounded away, ties to even.
`none` means that not even the integer part fits. -/

namespace ClubBooking.Decimal

/-- The decimal nearest to `n / d` with `places` places, or with the most below that fit. -/
def ofRatio (n : Int) (d : Nat) : (places : Nat) → Option Decimal
  | 0 => make? (n.sign * Tie.toEven.round n.natAbs d) 0
  | places + 1 =>
    (make? (n.sign * Tie.toEven.round (n.natAbs * 10 ^ (places + 1)) d) (places + 1)).or
      (ofRatio n d places)

theorem scale_le_of_ofRatio {n : Int} {d places : Nat} {a : Decimal}
    (h : ofRatio n d places = some a) : a.scale ≤ places := by
  induction places with
  | zero => exact Nat.le_of_eq (scale_of_make? h)
  | succ places ih =>
    rcases Option.or_eq_some_iff.1 h with hm | ⟨-, hm⟩
    · exact Nat.le_of_eq (scale_of_make? hm)
    · exact Nat.le_succ_of_le (ih hm)

theorem coeff_nonneg_of_ofRatio {n : Int} {d places : Nat} {a : Decimal} (hn : 0 ≤ n)
    (h : ofRatio n d places = some a) : 0 ≤ a.coeff := by
  have hsign := Int.sign_nonneg_iff.2 hn
  induction places with
  | zero =>
    rw [coeff_of_make? h]
    exact Int.mul_nonneg hsign (Int.natCast_nonneg _)
  | succ places ih =>
    rcases Option.or_eq_some_iff.1 h with hm | ⟨-, hm⟩
    · rw [coeff_of_make? hm]
      exact Int.mul_nonneg hsign (Int.natCast_nonneg _)
    · exact ih hm

/-- A zero keeps its sign. -/
def neg (a : Decimal) : Decimal :=
  ⟨a.negative != !a.isZero, a.magnitude, a.scale, a.magnitude_lt, a.scale_le⟩

theorem coeff_neg (a : Decimal) : a.neg.coeff = -a.coeff := by
  cases hn : a.negative <;> cases hz : a.isZero <;> simp_all [coeff, neg, isZero]

/-- A zero operand leaves the other one as it is written. -/
def add (a b : Decimal) : Option Decimal :=
  if a.isZero then some b
  else if b.isZero then some a
  else
    let places := max a.scale b.scale
    ofRatio (a.coeff * 10 ^ (places - a.scale) + b.coeff * 10 ^ (places - b.scale))
      (10 ^ places) places

def sub (a b : Decimal) : Option Decimal := add a b.neg

/-- A zero factor gives the plain zero. -/
def mul (a b : Decimal) : Option Decimal :=
  if a.isZero || b.isZero then some zero
  else ofRatio (a.coeff * b.coeff) (10 ^ (a.scale + b.scale)) (a.scale + b.scale)

def strip (negative : Bool) (m s : Nat) (hm : m < 2 ^ 96) (hs : s ≤ 28) : Decimal :=
  match s with
  | 0 => ⟨negative, m, 0, hm, hs⟩
  | s + 1 =>
    if m % 10 = 0 then strip negative (m / 10) s (by omega) (by omega)
    else ⟨negative, m, s + 1, hm, hs⟩

def normalize (a : Decimal) : Decimal :=
  strip a.negative a.magnitude a.scale a.magnitude_lt a.scale_le

def percent (rate : Decimal) : Option Decimal := (mul rate hundred).map normalize

theorem scale_le_of_add {a b s : Decimal} (h : add a b = some s) :
    s.scale ≤ max a.scale b.scale := by
  unfold add at h
  split at h
  · cases h; exact Nat.le_max_right _ _
  · split at h
    · cases h; exact Nat.le_max_left _ _
    · exact scale_le_of_ofRatio h

theorem coeff_nonneg_of_add {a b s : Decimal} (ha : 0 ≤ a.coeff) (hb : 0 ≤ b.coeff)
    (h : add a b = some s) : 0 ≤ s.coeff := by
  unfold add at h
  split at h
  · cases h; exact hb
  · split at h
    · cases h; exact ha
    · have hpow (k : Nat) : (0 : Int) ≤ 10 ^ k := Int.pow_nonneg (by decide)
      exact coeff_nonneg_of_ofRatio
        (Int.add_nonneg (Int.mul_nonneg ha (hpow _)) (Int.mul_nonneg hb (hpow _))) h

theorem scale_le_of_sub {a b s : Decimal} (h : sub a b = some s) :
    s.scale ≤ max a.scale b.scale := by
  have hle := scale_le_of_add h
  exact hle

theorem coeff_nonneg_of_mul {a b p : Decimal} (ha : 0 ≤ a.coeff) (hb : 0 ≤ b.coeff)
    (h : mul a b = some p) : 0 ≤ p.coeff := by
  unfold mul at h
  split at h
  · cases h; exact Int.le_refl 0
  · exact coeff_nonneg_of_ofRatio (Int.mul_nonneg ha hb) h

end ClubBooking.Decimal
