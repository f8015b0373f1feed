import ClubBooking.Decimal.Arith

/-! Division of decimals. A quotient is worked out nine places at a time, until it comes out even or
the coefficient has no room for more; zeros that this leaves at the end are dropped in groups, seven
of them at most unless the coefficient is a multiple of 2^32. -/

namespace ClubBooking.Decimal

/-- The most places, up to `k`, that a coefficient can be given without reaching 2^96. -/
def fitting (q : Nat) : (k : Nat) → Nat
  | 0 => 0
  | k + 1 => if q * 10 ^ (k + 1) < coeffLimit then k + 1 else fitting q k

theorem fitting_le (q k : Nat) : fitting q k ≤ k := by
  induction k with
  | zero => exact Nat.le_refl 0
  | succ k ih =>
    unfold fitting
    split
    · exact Nat.le_refl _
    · exact Nat.le_succ_of_le ih

/-- How many places a quotient `q` with the remainder `r` of `d` is worked out to. -/
def workedPlaces (q r d room : Nat) : Nat :=
  let k := fitting q (min 9 room)
  if _ : r = 0 ∨ k = 0 then 0
  else k + workedPlaces (q * 10 ^ k + r * 10 ^ k / d) (r * 10 ^ k % d) d (room - k)
termination_by room
decreasing_by
  have hk := fitting_le q (min 9 room)
  omega

def dropZeros (k : Nat) (a : Decimal) : Decimal :=
  if k ≤ a.scale ∧ a.magnitude % 10 ^ k = 0 then
    ⟨a.negative, a.magnitude / 10 ^ k, a.scale - k,
      Nat.lt_of_le_of_lt (Nat.div_le_self _ _) a.magnitude_lt, by
        have := a.scale_le
        omega⟩
  else a

/-- Eight zeros dropped from a multiple of 2^32. -/
def dropEight (a : Decimal) : Decimal := if a.magnitude % 2 ^ 32 = 0 then dropZeros 8 a else a

def trimmed (a : Decimal) : Decimal :=
  dropZeros 1 (dropZeros 2 (dropZeros 4 (dropEight (dropEight (dropEight a)))))

/-- Division by a divisor other than zero. A quotient that is even at the places of the dividend
less those of the divisor has just these, or none if that is less. -/
def div (a b : Decimal) : Option Decimal :=
  if a.isZero then some zero
  else
    let n := a.magnitude
    let d := b.magnitude
    let worked := workedPlaces (n / d) (n % d) d (maxScale + b.scale - a.scale)
    let quotient := ofRatio (b.coeff.sign * a.coeff * 10 ^ b.scale) (d * 10 ^ a.scale)
      (a.scale + worked - b.scale : Int).toNat
    if n % d = 0 then quotient else quotient.map trimmed

theorem coeff_nonneg_dropZeros {a : Decimal} (k : Nat) (h : 0 ≤ a.coeff) :
    0 ≤ (dropZeros k a).coeff := by
  unfold dropZeros
  split
  · rcases coeff_nonneg_iff.1 h with hn | hz
    · exact coeff_nonneg_iff.2 (.inl hn)
    · exact coeff_nonneg_iff.2 (.inr (by simp [hz]))
  · exact h

theorem coeff_nonneg_dropEight {a : Decimal} (h : 0 ≤ a.coeff) : 0 ≤ (dropEight a).coeff := by
  unfold dropEight
  split
  · exact coeff_nonneg_dropZeros 8 h
  · exact h

theorem coeff_nonneg_trimmed {a : Decimal} (h : 0 ≤ a.coeff) : 0 ≤ (trimmed a).coeff :=
  coeff_nonneg_dropZeros 1 <| coeff_nonneg_dropZeros 2 <| coeff_nonneg_dropZeros 4 <|
    coeff_nonneg_dropEight <| coeff_nonneg_dropEight <| coeff_nonneg_dropEight h

theorem coeff_nonneg_of_div {a b q : Decimal} (ha : 0 ≤ a.coeff) (hb : 0 < b.coeff)
    (h : div a b = some q) : 0 ≤ q.coeff := by
  unfold div at h
  split at h
  · cases h; exact Int.le_refl 0
  · have hnum : 0 ≤ b.coeff.sign * a.coeff * 10 ^ b.scale := by
      rw [Int.sign_eq_one_of_pos hb, Int.one_mul]
      exact Int.mul_nonneg ha (Int.pow_nonneg (by decide))
    dsimp only at h
    split at h
    · exact coeff_nonneg_of_ofRatio hnum h
    · obtain ⟨r, hr, rfl⟩ := Option.map_eq_some_iff.1 h
      exact coeff_nonneg_trimmed (coeff_nonneg_of_ofRatio hnum hr)

end ClubBooking.Decimal
