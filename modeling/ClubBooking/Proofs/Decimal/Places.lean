import ClubBooking.Decimal.Quotient
import ClubBooking.Proofs.Decimal.Kept
import Mathlib.Data.Nat.Find

/-! Products and quotients are the exact ratio, rounded once to the most places that fit. It makes
no difference that a product has no more places than its factors, that a quotient is worked out only
until it comes out even, or that zeros are dropped from its end. -/

namespace ClubBooking

namespace Tie
variable {n m d g : Nat}

theorem round_toEven_mono (h : n ≤ m) : toEven.round n d ≤ toEven.round m d := by
  have hquotient : n / d ≤ m / d := Nat.div_le_div_right h
  rcases Nat.lt_or_ge (n / d) (m / d) with hlt | hge
  · exact (toEven.round_le n d).trans (Nat.le_trans hlt (toEven.div_le_round m d))
  · have hsame : n / d = m / d := Nat.le_antisymm hquotient hge
    have hn := Nat.div_add_mod n d
    have hm := Nat.div_add_mod m d
    rw [hsame] at hn
    rw [round_toEven, round_toEven, hsame]
    split_ifs <;> omega

theorem le_round_toEven_iff (hd : 0 < d) (h : n < m * d) :
    m ≤ toEven.round n d ↔ 2 * (m * d - n) < d ∨ 2 * (m * d - n) = d ∧ m % 2 = 0 := by
  have hrest := Nat.mod_lt n hd
  have hsplit := Nat.div_add_mod n d
  have hbelow : n / d < m := (Nat.div_lt_iff_lt_mul hd).2 h
  rw [round_toEven]
  rcases Nat.lt_or_ge (n / d + 1) m with hfar | hnear
  · have hgap : d * (n / d + 2) ≤ m * d := by
      rw [Nat.mul_comm m]
      exact Nat.mul_le_mul_left d hfar
    rw [Nat.mul_add] at hgap
    split_ifs <;> omega
  · obtain rfl : m = n / d + 1 := Nat.le_antisymm hnear hbelow
    have hgap : (n / d + 1) * d - n = d - n % d := by
      rw [Nat.add_mul, Nat.mul_comm]
      omega
    rw [hgap]
    split_ifs <;> omega

end Tie

namespace Decimal
variable {a b p : Decimal} {n d k t places : Nat}

def Fits (n d t : Nat) : Prop := Tie.toEven.round (n * 10 ^ t) d < 2 ^ 96

instance (n d t : Nat) : Decidable (Fits n d t) := inferInstanceAs (Decidable (_ < _))

def mostPlaces (n d : Nat) : Nat := Nat.findGreatest (Fits n d) 28

/-- A ratio rounded to the most places that fit. -/
def IsNearest (n d : Nat) (p : Decimal) : Prop :=
  p.magnitude * 10 ^ mostPlaces n d =
    Tie.toEven.round (n * 10 ^ mostPlaces n d) d * 10 ^ p.scale

theorem Fits.of_le (h : Fits n d t) (hle : k ≤ t) : Fits n d k :=
  Nat.lt_of_le_of_lt (Tie.round_toEven_mono
    (Nat.mul_le_mul_left n (Nat.pow_le_pow_right (by decide) hle))) h

theorem fits_of_ofRatio (hd : 0 < d) (h : ofRatio n d places = some p) : Fits n d p.scale := by
  rw [Fits, ← magnitude_of_ofRatio hd h]
  exact p.magnitude_lt

theorem isNearest_zero : IsNearest 0 d zero := by
  rw [IsNearest, Nat.zero_mul]
  rcases Nat.eq_zero_or_pos d with rfl | hd
  · decide
  · rw [Tie.zero_round _ hd, Nat.zero_mul]
    exact Nat.zero_mul _

/-- So many places are enough if the ratio comes out even there or no more of them fit. -/
theorem isNearest_of_ofRatio (hd : 0 < d) (h : ofRatio n d places = some p)
    (henough : d ∣ n * 10 ^ places ∨ ∀ t ≤ 28, Fits n d t → t ≤ places) : IsNearest n d p := by
  have hscale : Fits n d p.scale := fits_of_ofRatio hd h
  have hmost : Fits n d (mostPlaces n d) := Nat.findGreatest_spec p.scale_le hscale
  have hmost28 : mostPlaces n d ≤ 28 := Nat.findGreatest_le 28
  have hle : p.scale ≤ mostPlaces n d := Nat.le_findGreatest p.scale_le hscale
  have hmagnitude := magnitude_of_ofRatio hd h
  rcases Nat.lt_or_ge places (mostPlaces n d) with hmore | hall
  · obtain ⟨c, hc⟩ : d ∣ n * 10 ^ places :=
      henough.resolve_right fun henough => Nat.not_le.2 hmore (henough _ hmost28 hmost)
    have hplaces : p.scale = places := by
      refine Nat.le_antisymm (scale_le_of_ofRatio h) ?_
      exact le_scale_of_ofRatio (Nat.le_refl _) (hmore.le.trans hmost28)
        (hmost.of_le hmore.le) h
    have hsplit : n * 10 ^ mostPlaces n d = c * 10 ^ (mostPlaces n d - places) * d := by
      calc
        n * 10 ^ mostPlaces n d = n * 10 ^ places * 10 ^ (mostPlaces n d - places) := by
          rw [Nat.mul_assoc, ← pow_add, Nat.add_sub_cancel' hmore.le]
        _ = c * 10 ^ (mostPlaces n d - places) * d := by rw [hc]; ring
    rw [hplaces, hc, Nat.mul_comm d, Tie.round_mul_self _ _ hd] at hmagnitude
    rw [IsNearest, hsplit, Tie.round_mul_self _ _ hd, hmagnitude, hplaces, Nat.mul_assoc, ← pow_add,
      Nat.sub_add_cancel hmore.le]
  · have hsame : p.scale = mostPlaces n d :=
      Nat.le_antisymm hle (le_scale_of_ofRatio hall hmost28 hmost h)
    rw [IsNearest, hmagnitude, hsame]

theorem isNearest_of_mul (ha : 0 ≤ a.coeff) (hb : 0 ≤ b.coeff) (h : mul a b = some p) :
    IsNearest (a.magnitude * b.magnitude) (10 ^ (a.scale + b.scale)) p := by
  rw [mul_eq ha hb] at h
  split at h
  · next hzero =>
    cases h
    rw [hzero]
    exact isNearest_zero
  · exact isNearest_of_ofRatio (Nat.pow_pos (by decide)) h (.inl ⟨_, Nat.mul_comm ..⟩)

theorem le_of_fitting_eq_zero {q : Nat} (h : fitting q (k + 1) = 0) : 2 ^ 96 ≤ q * 10 := by
  induction k with
  | zero => simpa [fitting, coeffLimit] using h
  | succ k ih =>
    rw [fitting] at h
    split at h
    · cases h
    · exact ih h

/-- Why the quotient of `n` by `d` is not worked out further than to `w` places: it is even there,
they are all that there is room for, or no further digit fits. -/
def Stops (n d w room : Nat) : Prop :=
  d ∣ n * 10 ^ w ∨ w = room ∨ 2 ^ 96 ≤ n * 10 ^ w / d * 10

theorem stops_workedPlaces (q r room : Nat) (hd : 0 < d) :
    Stops (q * d + r) d (workedPlaces q r d room) room := by
  fun_induction workedPlaces q r d room with
  | case1 q r room k hstop =>
    rw [Stops, pow_zero, Nat.mul_one]
    rcases hstop with rfl | hfull
    · exact .inl ⟨q, Nat.mul_comm ..⟩
    · cases hroom : min 9 room with
      | zero => exact .inr (.inl (by omega))
      | succ j =>
        have hdigit : 2 ^ 96 ≤ q * 10 := le_of_fitting_eq_zero (k := j) (hroom ▸ hfull)
        have hquotient : q ≤ (q * d + r) / d := (Nat.le_div_iff_mul_le hd).2 (Nat.le_add_right _ _)
        exact .inr (.inr (hdigit.trans (Nat.mul_le_mul_right 10 hquotient)))
  | case2 q r room k hgo ih =>
    have hroom : k ≤ room := (fitting_le q (min 9 room)).trans (Nat.min_le_right _ _)
    have hnext : (q * 10 ^ k + r * 10 ^ k / d) * d + r * 10 ^ k % d = (q * d + r) * 10 ^ k := by
      have hsplit := Nat.div_add_mod (r * 10 ^ k) d
      calc
        (q * 10 ^ k + r * 10 ^ k / d) * d + r * 10 ^ k % d =
            q * d * 10 ^ k + (d * (r * 10 ^ k / d) + r * 10 ^ k % d) := by ring
        _ = (q * d + r) * 10 ^ k := by rw [hsplit]; ring
    rw [Stops, hnext, Nat.mul_assoc, ← pow_add] at ih
    rcases ih with heven | hused | hfull
    · exact .inl heven
    · exact .inr (.inl (by omega))
    · exact .inr (.inr hfull)

theorem Stops.enough {m e i j w : Nat} (h : Stops m e w (28 + j - i)) (hi : i ≤ 28) (he : 0 < e) :
    e * 10 ^ i ∣ m * 10 ^ j * 10 ^ (i + w - j) ∨
      ∀ t ≤ 28, Fits (m * 10 ^ j) (e * 10 ^ i) t → t ≤ i + w - j := by
  rcases h with heven | hused | hfull
  · left
    have hmore : 10 ^ (w + i) ∣ 10 ^ (j + (i + w - j)) := pow_dvd_pow 10 (by omega)
    calc
      e * 10 ^ i ∣ m * 10 ^ w * 10 ^ i := Nat.mul_dvd_mul_right heven _
      _ = m * 10 ^ (w + i) := by rw [Nat.mul_assoc, ← pow_add]
      _ ∣ m * 10 ^ (j + (i + w - j)) := Nat.mul_dvd_mul_left _ hmore
      _ = m * 10 ^ j * 10 ^ (i + w - j) := by rw [pow_add, Nat.mul_assoc]
  · right
    intro t ht _
    omega
  · right
    intro t _ hfits
    by_contra hmore
    -- one more digit is too many already
    have hsplit : j + t = (w + 1 + (j + t - (i + w + 1))) + i := by omega
    have hquotient : m * 10 ^ w / e * 10 ≤ m * 10 ^ j * 10 ^ t / (e * 10 ^ i) := by
      rw [Nat.mul_assoc, ← pow_add, hsplit, pow_add 10 _ i, ← Nat.mul_assoc,
        Nat.mul_div_mul_right _ _ (Nat.pow_pos (by decide)), Nat.le_div_iff_mul_le he]
      calc
        m * 10 ^ w / e * 10 * e = m * 10 ^ w / e * e * 10 := Nat.mul_right_comm ..
        _ ≤ m * 10 ^ w * 10 := Nat.mul_le_mul_right _ (Nat.div_mul_le_self _ _)
        _ = m * 10 ^ (w + 1) := by rw [pow_succ, Nat.mul_assoc]
        _ ≤ m * 10 ^ (w + 1 + (j + t - (i + w + 1))) :=
          Nat.mul_le_mul_left _ (Nat.pow_le_pow_right (by decide) (Nat.le_add_right _ _))
    have hround := Tie.toEven.div_le_round (m * 10 ^ j * 10 ^ t) (e * 10 ^ i)
    exact Nat.not_le.2 hfits ((hfull.trans hquotient).trans hround)

theorem IsNearest.dropZeros (h : IsNearest n d p) (k : Nat) : IsNearest n d (dropZeros k p) := by
  unfold Decimal.dropZeros
  split
  · next hk =>
    have hwhole : p.magnitude / 10 ^ k * 10 ^ k = p.magnitude :=
      Nat.div_mul_cancel (Nat.dvd_of_mod_eq_zero hk.2)
    refine Nat.eq_of_mul_eq_mul_right (Nat.pow_pos (by decide) : 0 < 10 ^ k) ?_
    dsimp only
    rw [Nat.mul_right_comm, hwhole, h, Nat.mul_assoc, ← pow_add, Nat.sub_add_cancel hk.1]
  · exact h

theorem IsNearest.dropEight (h : IsNearest n d p) : IsNearest n d (dropEight p) := by
  unfold Decimal.dropEight
  split
  · exact h.dropZeros 8
  · exact h

theorem IsNearest.trimmed (h : IsNearest n d p) : IsNearest n d (trimmed p) :=
  ((h.dropEight.dropEight.dropEight.dropZeros 4).dropZeros 2).dropZeros 1

theorem magnitude_pos (h : 0 < a.coeff) : 0 < a.magnitude := by
  have hmagnitude := coeff_eq_magnitude (Int.le_of_lt h)
  omega

theorem isNearest_of_div (ha : 0 ≤ a.coeff) (hb : 0 < b.coeff) (h : div a b = some p) :
    IsNearest (a.magnitude * 10 ^ b.scale) (b.magnitude * 10 ^ a.scale) p := by
  have hpos : 0 < b.magnitude := magnitude_pos hb
  unfold div at h
  split at h
  · next hzero =>
    cases h
    rw [show a.magnitude = 0 from eq_of_beq hzero, Nat.zero_mul]
    exact isNearest_zero
  · have hnum : b.coeff.sign * a.coeff * 10 ^ b.scale =
        ((a.magnitude * 10 ^ b.scale : Nat) : Int) := by
      rw [Int.sign_eq_one_of_pos hb, Int.one_mul, coeff_eq_magnitude ha, Int.natCast_mul,
        Int.natCast_pow]
      rfl
    have hstops := stops_workedPlaces (a.magnitude / b.magnitude) (a.magnitude % b.magnitude)
      (maxScale + b.scale - a.scale) hpos
    rw [Nat.mul_comm _ b.magnitude, Nat.div_add_mod] at hstops
    dsimp only at h
    rw [hnum] at h
    generalize workedPlaces (a.magnitude / b.magnitude) (a.magnitude % b.magnitude) b.magnitude
      (maxScale + b.scale - a.scale) = w at h hstops
    have hplaces : ((a.scale : Int) + w - b.scale).toNat = a.scale + w - b.scale := by omega
    rw [hplaces] at h
    have hnearest {q : Decimal} (hq : ofRatio ((a.magnitude * 10 ^ b.scale : Nat) : Int)
        (b.magnitude * 10 ^ a.scale) (a.scale + w - b.scale) = some q) :
        IsNearest (a.magnitude * 10 ^ b.scale) (b.magnitude * 10 ^ a.scale) q :=
      isNearest_of_ofRatio (Nat.mul_pos hpos (Nat.pow_pos (by decide))) hq
        (hstops.enough a.scale_le hpos)
    split at h
    · exact hnearest h
    · obtain ⟨q, hq, rfl⟩ := Option.map_eq_some_iff.1 h
      exact (hnearest hq).trimmed

end Decimal
end ClubBooking
