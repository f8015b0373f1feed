import ClubBooking.Decimal.Basic

/-! Rounding a quotient of natural numbers to the nearest integer, and a decimal to a number of
places. -/

namespace ClubBooking

inductive Tie where
  | toEven
  | awayFromZero
deriving DecidableEq, Repr

def Tie.round (tie : Tie) (n d : Nat) : Nat :=
  let q := n / d
  let twice := 2 * (n % d)
  if twice < d then q
  else if d < twice then q + 1
  else match tie with
    | .toEven => q + q % 2
    | .awayFromZero => q + 1

namespace Tie

theorem div_le_round (tie : Tie) (n d : Nat) : n / d ≤ tie.round n d := by
  unfold round
  dsimp only
  split
  · omega
  · split
    · omega
    · cases tie <;> dsimp only <;> omega

theorem round_le (tie : Tie) (n d : Nat) : tie.round n d ≤ n / d + 1 := by
  unfold round
  dsimp only
  split
  · omega
  · split
    · omega
    · cases tie <;> dsimp only <;> omega

theorem round_one (tie : Tie) (n : Nat) : tie.round n 1 = n := by
  simp [round, Nat.mod_one]

theorem zero_round (tie : Tie) {d : Nat} (hd : 0 < d) : tie.round 0 d = 0 := by
  simp [round, hd]

end Tie

namespace Decimal

/-- The decimal nearest to `a` with at most so many places; one that has no more is kept. The sign
stays even where nothing else does. -/
def roundTo (places : Nat) (a : Decimal) : Decimal :=
  if h : a.scale ≤ places then a
  else
    ⟨a.negative, Tie.awayFromZero.round a.magnitude (10 ^ (a.scale - places)), places, by
      have hround := Tie.round_le .awayFromZero a.magnitude (10 ^ (a.scale - places))
      have hpow : 10 ^ 1 ≤ 10 ^ (a.scale - places) :=
        Nat.pow_le_pow_right (by decide) (by omega)
      have hdiv : a.magnitude / 10 ^ (a.scale - places) ≤ a.magnitude / 10 :=
        Nat.div_le_div_left hpow (by decide)
      have hlt := a.magnitude_lt
      omega,
    by have := a.scale_le; omega⟩

def floor (a : Decimal) : Int := a.coeff / 10 ^ a.scale

theorem scale_roundTo_le (places : Nat) (a : Decimal) : (roundTo places a).scale ≤ places := by
  unfold roundTo
  split
  · assumption
  · exact Nat.le_refl _

theorem coeff_roundTo_nonneg {places : Nat} {a : Decimal} (h : 0 ≤ a.coeff) :
    0 ≤ (roundTo places a).coeff := by
  unfold roundTo
  split
  · exact h
  · rcases coeff_nonneg_iff.1 h with hn | hz
    · exact coeff_nonneg_iff.2 (.inl hn)
    · refine coeff_nonneg_iff.2 (.inr ?_)
      simp only [hz]
      exact Tie.zero_round _ (Nat.pow_pos (by decide))

theorem roundTo_of_scale_le {places : Nat} {a : Decimal} (h : a.scale ≤ places) :
    roundTo places a = a := by
  simp [roundTo, h]

end Decimal
end ClubBooking
