import ClubBooking.Money.Arith
import ClubBooking.Proofs.Decimal.Exact
import ClubBooking.Proofs.Refusal

/-! Amounts as natural numbers of their currency's smallest unit. The order of amounts is the order
of these numbers, and sums, differences, minimum and maximum are those of the numbers as long as
they stay below 2^96. -/

namespace ClubBooking

theorem Currency.minorUnits_le (c : Currency) : c.minorUnits ≤ 2 := by
  cases c <;> decide

theorem Currency.pow_lt (c : Currency) : 10 ^ (26 + c.minorUnits) < 2 ^ 96 := by
  cases c <;> decide

/-- An amount of a currency stands for a number: the nearest that the currency has. -/
structure Money.Rounds (c : Currency) (a : Decimal) (m : Money) : Prop where
  amount : m.amount = a.roundTo c.minorUnits
  currency : m.currency = c

namespace Money

section Made
variable {c : Currency} {a : Decimal} {m : Money}

theorem ofDecimal_eq_ok_iff : ofDecimal a c = .ok m ↔ 0 ≤ a.coeff ∧ Rounds c a m := by
  unfold ofDecimal
  split
  · next h =>
    constructor
    · rintro ⟨⟩
      exact ⟨h, rfl, rfl⟩
    · rintro ⟨-, hamount, hcurrency⟩
      obtain ⟨amount, currency, _, _⟩ := m
      obtain rfl : currency = c := hcurrency
      obtain rfl : amount = a.roundTo currency.minorUnits := hamount
      rfl
  · next h => simp [h]

theorem exists_ofDecimal (h : 0 ≤ a.coeff) : ∃ m, ofDecimal a c = .ok m :=
  ⟨rounded a c h, dif_pos h⟩

theorem Rounds.isZero_eq (h : Rounds c a m) : m.isZero = (a.roundTo c.minorUnits).isZero := by
  rw [isZero, h.amount]

end Made

variable {a b d : Money}

theorem minor_eq_coeffAt (m : Money) : (m.minor : Int) = m.amount.coeffAt m.currency.minorUnits := by
  have h := m.amount_nonneg
  rw [minor, Decimal.coeffAt, Int.natCast_mul, Int.toNat_of_nonneg h, Int.natCast_pow]
  rfl

theorem minor_of_coeffAt {m : Money} {n : Nat}
    (h : m.amount.coeffAt m.currency.minorUnits = n) : m.minor = n :=
  Int.ofNat_inj.1 ((minor_eq_coeffAt m).trans h)

theorem minorUnits_le (m : Money) : m.currency.minorUnits ≤ 28 :=
  Nat.le_trans m.currency.minorUnits_le (by decide)

theorem amount_le_iff (h : a.currency = b.currency) : a.amount ≤ b.amount ↔ a.minor ≤ b.minor := by
  rw [Decimal.le_iff_coeffAt_le a.scale_le (h ▸ b.scale_le), ← minor_eq_coeffAt, h,
    ← minor_eq_coeffAt, Int.ofNat_le]

theorem amount_lt_iff (h : a.currency = b.currency) : a.amount < b.amount ↔ a.minor < b.minor := by
  rw [Decimal.lt_iff_coeffAt_lt a.scale_le (h ▸ b.scale_le), ← minor_eq_coeffAt, h,
    ← minor_eq_coeffAt, Int.ofNat_lt]

theorem compare?_eq (h : a.currency = b.currency) :
    a.compare? b = some (compare a.minor b.minor) := by
  rw [compare?, if_pos h, Nat.compare_eq_ite_lt]
  simp only [amount_lt_iff h, amount_lt_iff h.symm]

theorem sameValue_iff : a.sameValue b ↔ a.currency = b.currency ∧ a.minor = b.minor := by
  simp only [sameValue, Bool.and_eq_true, decide_eq_true_eq]
  refine and_congr_right fun h => ?_
  have hle := Decimal.le_iff (a := a.amount) (b := b.amount)
  have hge := Decimal.le_iff (a := b.amount) (b := a.amount)
  rw [amount_le_iff h] at hle
  rw [amount_le_iff h.symm] at hge
  simp only [Decimal.sameValue, Decimal.aligned, beq_iff_eq]
  omega

theorem zero_le_amount (m : Money) : Decimal.zero ≤ m.amount := by
  rw [Decimal.le_iff]
  simpa [Decimal.zero, Decimal.coeff] using m.amount_nonneg

theorem minor_zero (c : Currency) : (zero c).minor = 0 := Nat.zero_mul _

theorem isZero_iff_minor (m : Money) : m.isZero ↔ m.minor = 0 := by
  have h := m.amount_nonneg
  have hpow : 0 < 10 ^ (m.currency.minorUnits - m.amount.scale) := Nat.pow_pos (by decide)
  rw [isZero, Decimal.isZero_iff, minor, Nat.mul_eq_zero]
  omega

def IsModerate (m : Money) : Prop := m.amount.coeff < 10 ^ (26 + m.amount.scale)

instance (m : Money) : Decidable m.IsModerate := inferInstanceAs (Decidable (_ < _))

theorem isModerate_iff (m : Money) :
    m.IsModerate ↔ m.minor < 10 ^ (26 + m.currency.minorUnits) := by
  have hscale := m.scale_le
  have hpow : (0 : Int) < 10 ^ (m.currency.minorUnits - m.amount.scale) :=
    Int.pow_pos (by decide)
  have hsplit : (10 : Int) ^ (26 + m.currency.minorUnits) =
      10 ^ (26 + m.amount.scale) * 10 ^ (m.currency.minorUnits - m.amount.scale) := by
    rw [← pow_add]
    congr 1
    omega
  rw [IsModerate, ← Int.ofNat_lt, minor_eq_coeffAt, Decimal.coeffAt, Int.natCast_pow,
    Nat.cast_ofNat, hsplit, Int.mul_lt_mul_right hpow]

theorem IsModerate.minor_lt {m : Money} (h : m.IsModerate) : m.minor < 2 ^ 96 :=
  (m.isModerate_iff.1 h).trans m.currency.pow_lt

theorem sameCurrency_eq_ok_iff {u : Unit} :
    a.sameCurrency b = .ok u ↔ a.currency = b.currency := by
  unfold sameCurrency
  split
  · next h => simp [h]
  · next h => simp [h]

theorem sameCurrency_then_eq_ok_iff {x m : Money} :
    (do a.sameCurrency b; pure x) = Except.ok m ↔ a.currency = b.currency ∧ m = x := by
  rw [bind_eq_ok_iff]
  constructor
  · rintro ⟨u, hu, h⟩
    cases h
    exact ⟨sameCurrency_eq_ok_iff.1 hu, rfl⟩
  · rintro ⟨hc, rfl⟩
    exact ⟨(), sameCurrency_eq_ok_iff.2 hc, rfl⟩

theorem min_eq_ok_iff {m : Money} :
    a.min b = .ok m ↔ a.currency = b.currency ∧ m = if b.amount < a.amount then b else a :=
  sameCurrency_then_eq_ok_iff

theorem max_eq_ok_iff {m : Money} :
    a.max b = .ok m ↔ a.currency = b.currency ∧ m = if a.amount < b.amount then b else a :=
  sameCurrency_then_eq_ok_iff

theorem currency_of_min {m : Money} (h : a.min b = .ok m) :
    m.currency = a.currency ∧ m.currency = b.currency := by
  obtain ⟨hc, rfl⟩ := min_eq_ok_iff.1 h
  split <;> simp [hc]

theorem minor_of_min {m : Money} (h : a.min b = .ok m) : m.minor = Min.min a.minor b.minor := by
  obtain ⟨hc, rfl⟩ := min_eq_ok_iff.1 h
  split
  · next hlt =>
    have := (amount_lt_iff hc.symm).1 hlt
    omega
  · next hlt =>
    have := mt (amount_lt_iff hc.symm).2 hlt
    omega

theorem currency_of_max {m : Money} (h : a.max b = .ok m) : m.currency = a.currency := by
  obtain ⟨hc, rfl⟩ := max_eq_ok_iff.1 h
  split <;> simp [hc]

theorem minor_of_max {m : Money} (h : a.max b = .ok m) : m.minor = Max.max a.minor b.minor := by
  obtain ⟨hc, rfl⟩ := max_eq_ok_iff.1 h
  split
  · next hlt =>
    have := (amount_lt_iff hc).1 hlt
    omega
  · next hlt =>
    have := mt (amount_lt_iff hc).2 hlt
    omega

theorem add_of_add {s : Decimal} (hc : a.currency = b.currency)
    (hs : a.amount.add b.amount = some s) :
    a.add b = .ok ⟨s, a.currency, Decimal.coeff_nonneg_of_add a.amount_nonneg b.amount_nonneg hs,
      (Decimal.scale_le_of_add hs).trans (max_scale_le hc)⟩ := by
  unfold add
  rw [dif_pos hc]
  split
  · next hnone => rw [hs] at hnone; cases hnone
  · next s' hsome =>
    obtain rfl : s' = s := Option.some.inj (hsome.symm.trans hs)
    rfl

theorem exists_add (hc : a.currency = b.currency) (h : a.minor + b.minor < 2 ^ 96) :
    ∃ s, a.add b = .ok s ∧ s.currency = a.currency ∧ s.minor = a.minor + b.minor := by
  have ha := a.minor_eq_coeffAt
  have hb := b.minor_eq_coeffAt
  rw [← hc] at hb
  obtain ⟨s, hs, -, hcoeff⟩ :=
    Decimal.add_exact a.scale_le (hc ▸ b.scale_le) a.minorUnits_le (by omega)
  exact ⟨_, add_of_add hc hs, rfl, minor_of_coeffAt (by rw [hcoeff]; omega)⟩

theorem exists_sub (hc : a.currency = b.currency) (ha : a.minor < 2 ^ 96) (hb : b.minor < 2 ^ 96) :
    ∃ s, a.amount.sub b.amount = some s ∧
      s.coeffAt a.currency.minorUnits = (a.minor : Int) - b.minor := by
  have ha' := a.minor_eq_coeffAt
  have hb' := b.minor_eq_coeffAt
  rw [← hc] at hb'
  rw [ha', hb']
  obtain ⟨s, hs, -, hcoeff⟩ :=
    Decimal.sub_exact a.scale_le (hc ▸ b.scale_le) a.minorUnits_le (by omega)
  exact ⟨s, hs, hcoeff⟩

theorem currency_of_saturatingSub (h : a.saturatingSub b = .ok d) :
    a.currency = b.currency ∧ d.currency = a.currency := by
  unfold saturatingSub subOr at h
  split at h
  · next hc =>
    split at h
    · cases h
    · split at h <;> cases h <;> exact ⟨hc, rfl⟩
  · cases h

theorem subOr_of_sub {s : Decimal} (hc : a.currency = b.currency)
    (hs : a.amount.sub b.amount = some s) (below : Except Fault Money) :
    a.subOr b below =
      if h : 0 ≤ s.coeff then
        .ok ⟨s, a.currency, h, (Decimal.scale_le_of_sub hs).trans (max_scale_le hc)⟩
      else below := by
  unfold subOr
  rw [dif_pos hc]
  split
  · next hnone => rw [hs] at hnone; cases hnone
  · next s' hsome =>
    obtain rfl : s' = s := Option.some.inj (hsome.symm.trans hs)
    rfl

theorem exists_subOr (hc : a.currency = b.currency) (ha : a.minor < 2 ^ 96) (hb : b.minor < 2 ^ 96)
    (below : Except Fault Money) :
    if b.minor ≤ a.minor then
      ∃ d, a.subOr b below = .ok d ∧ d.currency = a.currency ∧ d.minor = a.minor - b.minor
    else a.subOr b below = below := by
  obtain ⟨s, hs, hcoeff⟩ := exists_sub hc ha hb
  have hpow : (0 : Int) < 10 ^ (a.currency.minorUnits - s.scale) := Int.pow_pos (by decide)
  have hsign : 0 ≤ s.coeff ↔ b.minor ≤ a.minor := by
    rw [← Int.mul_nonneg_iff_of_pos_right hpow, ← Decimal.coeffAt, hcoeff]
    omega
  rw [subOr_of_sub hc hs]
  split
  · next hle =>
    exact ⟨_, dif_pos (hsign.2 hle), rfl, minor_of_coeffAt (by rw [hcoeff]; omega)⟩
  · next hlt => exact dif_neg (mt hsign.1 hlt)

theorem exists_subtract (hc : a.currency = b.currency) (ha : a.minor < 2 ^ 96)
    (hle : b.minor ≤ a.minor) :
    ∃ d, a.subtract b = .ok d ∧ d.currency = a.currency ∧ d.minor = a.minor - b.minor := by
  have h := exists_subOr hc ha (by omega) (.error (.invalidAmount (.negativeDifference a b)))
  rwa [if_pos hle] at h

theorem subtract_of_lt (hc : a.currency = b.currency) (hb : b.minor < 2 ^ 96)
    (hlt : a.minor < b.minor) :
    a.subtract b = .error (.invalidAmount (.negativeDifference a b)) := by
  have h := exists_subOr hc (by omega) hb (.error (.invalidAmount (.negativeDifference a b)))
  rwa [if_neg (by omega)] at h

theorem exists_saturatingSub (hc : a.currency = b.currency) (ha : a.minor < 2 ^ 96)
    (hb : b.minor < 2 ^ 96) :
    ∃ d, a.saturatingSub b = .ok d ∧ d.minor = a.minor - b.minor := by
  have h := exists_subOr hc ha hb (.ok (zero a.currency))
  split at h
  · obtain ⟨d, hd, -, hminor⟩ := h
    exact ⟨d, hd, hminor⟩
  · next hlt =>
    refine ⟨_, h, ?_⟩
    rw [minor_zero]
    omega

theorem minor_of_saturatingSub (ha : a.minor < 2 ^ 96) (hb : b.minor < 2 ^ 96)
    (h : a.saturatingSub b = .ok d) : d.minor = a.minor - b.minor := by
  obtain ⟨e, he, hminor⟩ := exists_saturatingSub (currency_of_saturatingSub h).1 ha hb
  cases he.symm.trans h
  exact hminor

end Money
end ClubBooking
