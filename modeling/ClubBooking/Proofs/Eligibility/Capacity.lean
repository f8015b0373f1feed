import ClubBooking.Proofs.Decimal.Kept
import ClubBooking.Proofs.Decimal.Room
import ClubBooking.Proofs.Eligibility.Reasons

/-! The rule on capacity in whole numbers. It lets in just the requests that fit under the whole
part of the capacity times the ceiling, less the headroom, but for two excesses: the product is
reckoned with 28 figures and may be rounded up to the next whole number, and counts end at
2^32 - 1. -/

namespace ClubBooking

def Snapshot.seatsAsked (s : Snapshot) : Nat := s.occupancy.toNat + s.partySize.toNat

namespace CapacityRule
variable {r : CapacityRule} {capacity : UInt32} {p : Decimal}

def wholeSeats (r : CapacityRule) (capacity : UInt32) : Nat :=
  capacity.toNat * r.ceiling.magnitude / 10 ^ r.ceiling.scale

def lack (r : CapacityRule) (capacity : UInt32) : Nat :=
  (r.wholeSeats capacity + 1) * 10 ^ r.ceiling.scale - capacity.toNat * r.ceiling.magnitude

/-- The product, as it is reckoned, is rounded up to one seat more: the exact one lacks at most
half a unit of the last place kept. -/
def RoundsUp (r : CapacityRule) (capacity : UInt32) : Prop :=
  ∃ p ∈ (Decimal.ofUInt32 capacity).mul r.ceiling,
    2 * r.lack capacity * 10 ^ p.scale ≤ 10 ^ r.ceiling.scale

instance (r : CapacityRule) (capacity : UInt32) : Decidable (r.RoundsUp capacity) :=
  inferInstanceAs (Decidable (∃ p ∈ _, _))

theorem lack_pos (r : CapacityRule) (capacity : UInt32) : 0 < r.lack capacity := by
  have hpos : 0 < 10 ^ r.ceiling.scale := Nat.pow_pos (by decide)
  have hlt := Nat.lt_mul_div_succ (capacity.toNat * r.ceiling.magnitude) hpos
  rw [Nat.mul_comm (10 ^ _)] at hlt
  exact Nat.sub_pos_of_lt hlt

theorem isRate_ceiling (r : CapacityRule) : r.ceiling.IsRate :=
  ⟨Int.le_of_lt r.ceiling_ok.1, r.ceiling_ok.2⟩

theorem isZero_ceiling (r : CapacityRule) : r.ceiling.isZero = false := by
  have hpos : 0 < r.ceiling.coeff := by
    simpa [Decimal.lt_iff, Decimal.zero, Decimal.coeff] using r.ceiling_ok.1
  exact Bool.eq_false_iff.2 fun hzero => Int.ne_of_gt hpos (Decimal.isZero_iff.1 hzero)

structure IsProduct (r : CapacityRule) (capacity : UInt32) (p : Decimal) : Prop where
  mul : (Decimal.ofUInt32 capacity).mul r.ceiling = some p
  nonneg : 0 ≤ p.coeff
  scale_le : p.scale ≤ r.ceiling.scale
  le_scale : min r.ceiling.scale 19 ≤ p.scale
  magnitude : p.magnitude =
    Tie.toEven.round (capacity.toNat * r.ceiling.magnitude) (10 ^ (r.ceiling.scale - p.scale))

theorem mul_ceiling (r : CapacityRule) (hcapacity : capacity ≠ 0) :
    (Decimal.ofUInt32 capacity).mul r.ceiling =
      Decimal.ofRatio ((capacity.toNat * r.ceiling.magnitude : Nat) : Int) (10 ^ r.ceiling.scale)
        r.ceiling.scale := by
  have hsome : (Decimal.ofUInt32 capacity).magnitude * r.ceiling.magnitude ≠ 0 := by
    refine Nat.mul_ne_zero (fun hseats => hcapacity (UInt32.toNat_inj.1 hseats)) fun hceiling => ?_
    exact Bool.false_ne_true (r.isZero_ceiling.symm.trans (beq_iff_eq.2 hceiling))
  have hscale : (Decimal.ofUInt32 capacity).scale + r.ceiling.scale = r.ceiling.scale :=
    Nat.zero_add _
  rw [Decimal.mul_eq (Int.natCast_nonneg _) (Decimal.isRate_iff.1 r.isRate_ceiling).1, if_neg hsome,
    hscale]
  rfl

theorem round_min_lt (r : CapacityRule) (capacity : UInt32) :
    Tie.toEven.round (capacity.toNat * r.ceiling.magnitude * 10 ^ min r.ceiling.scale 19)
      (10 ^ r.ceiling.scale) < 2 ^ 96 := by
  have hlt := capacity.toNat_lt
  refine Nat.lt_of_le_of_lt (m := capacity.toNat * 10 ^ 19) ?_ (by omega)
  refine Tie.round_le_of_le_mul _ (Nat.pow_pos (by decide)) ?_
  calc
    capacity.toNat * r.ceiling.magnitude * 10 ^ min r.ceiling.scale 19 ≤
        capacity.toNat * 10 ^ r.ceiling.scale * 10 ^ 19 := by
      refine Nat.mul_le_mul (Nat.mul_le_mul_left _ r.isRate_ceiling.magnitude_le) ?_
      exact Nat.pow_le_pow_right (by decide) (Nat.min_le_right _ _)
    _ = capacity.toNat * 10 ^ 19 * 10 ^ r.ceiling.scale := Nat.mul_right_comm ..

theorem exists_isProduct (r : CapacityRule) (hcapacity : capacity ≠ 0) :
    ∃ p, r.IsProduct capacity p := by
  obtain ⟨p, hp⟩ := Decimal.exists_mul_of_isRate (.ofUInt32 capacity) r.isRate_ceiling
  have hceiling := (Decimal.isRate_iff.1 r.isRate_ceiling).1
  have hnonneg : 0 ≤ p.coeff :=
    Decimal.coeff_nonneg_of_mul (a := .ofUInt32 capacity) (Int.natCast_nonneg _) hceiling hp
  have hratio := (r.mul_ceiling hcapacity).symm.trans hp
  have hpos (k : Nat) : 0 < 10 ^ k := Nat.pow_pos (by decide)
  have hscale := Decimal.scale_le_of_ofRatio hratio
  have hpow : 10 ^ r.ceiling.scale = 10 ^ (r.ceiling.scale - p.scale) * 10 ^ p.scale := by
    rw [← pow_add, Nat.sub_add_cancel hscale]
  refine ⟨p, hp, hnonneg, hscale, ?_, ?_⟩
  · exact Decimal.le_scale_of_ofRatio (Nat.min_le_left _ _) (by omega)
      (r.round_min_lt capacity) hratio
  · rw [Decimal.magnitude_of_ofRatio (hpos _) hratio, hpow, Tie.round_mul_right _ _ _ (hpos _)]

theorem IsProduct.openSeats_eq (h : r.IsProduct capacity p) :
    r.openSeats capacity = p.magnitude / 10 ^ p.scale := by
  rw [openSeats, h.mul, Option.map_some, Option.getD_some, Decimal.toNat_floor h.nonneg]

theorem IsProduct.pow_eq (h : r.IsProduct capacity p) :
    10 ^ r.ceiling.scale = 10 ^ (r.ceiling.scale - p.scale) * 10 ^ p.scale := by
  rw [← pow_add, Nat.sub_add_cancel h.scale_le]

theorem IsProduct.roundsUp_iff (h : r.IsProduct capacity p) :
    r.RoundsUp capacity ↔ 2 * r.lack capacity ≤ 10 ^ (r.ceiling.scale - p.scale) := by
  have hpos : 0 < 10 ^ p.scale := Nat.pow_pos (by decide)
  simp only [RoundsUp, h.mul, Option.mem_some_iff, exists_eq_left']
  rw [h.pow_eq, Nat.mul_le_mul_right_iff hpos]

theorem IsProduct.openSeats_le (h : r.IsProduct capacity p) :
    r.openSeats capacity ≤ capacity.toNat := by
  have hmagnitude : p.magnitude ≤ capacity.toNat * 10 ^ p.scale := by
    rw [h.magnitude]
    refine Tie.round_le_of_le_mul _ (Nat.pow_pos (by decide)) ?_
    calc
      capacity.toNat * r.ceiling.magnitude ≤ capacity.toNat * 10 ^ r.ceiling.scale :=
        Nat.mul_le_mul_left _ r.isRate_ceiling.magnitude_le
      _ = capacity.toNat * 10 ^ p.scale * 10 ^ (r.ceiling.scale - p.scale) := by
        rw [h.pow_eq, Nat.mul_comm (10 ^ _), Nat.mul_assoc]
  rw [h.openSeats_eq]
  exact Nat.div_le_of_le_mul (Nat.mul_comm .. ▸ hmagnitude)

theorem openSeats_le (r : CapacityRule) (capacity : UInt32) :
    r.openSeats capacity ≤ capacity.toNat := by
  by_cases hcapacity : capacity = 0
  · subst hcapacity
    exact Nat.le_refl 0
  · obtain ⟨p, h⟩ := r.exists_isProduct hcapacity
    exact h.openSeats_le

theorem not_roundsUp_zero (r : CapacityRule) : ¬ r.RoundsUp 0 := by
  have hlack : r.lack 0 = 10 ^ r.ceiling.scale := by simp [lack, wholeSeats]
  have hpos : 0 < 10 ^ r.ceiling.scale := Nat.pow_pos (by decide)
  rintro ⟨p, hp, hle⟩
  cases hp
  have hone : 10 ^ Decimal.zero.scale = 1 := rfl
  rw [hlack, hone] at hle
  omega

/-- The seats reckoned with are the whole part of the exact product, or one more. -/
theorem openSeats_eq (r : CapacityRule) (capacity : UInt32) :
    r.openSeats capacity =
      if r.RoundsUp capacity then r.wholeSeats capacity + 1 else r.wholeSeats capacity := by
  by_cases hcapacity : capacity = 0
  · subst hcapacity
    rw [if_neg r.not_roundsUp_zero, wholeSeats, UInt32.toNat_zero, Nat.zero_mul, Nat.zero_div]
    exact Nat.le_zero.1 (r.openSeats_le 0)
  obtain ⟨p, h⟩ := r.exists_isProduct hcapacity
  have hpos (k : Nat) : 0 < 10 ^ k := Nat.pow_pos (by decide)
  -- a place is dropped only where 19 are kept, and then the last one counts an even part of a seat
  have heven : 10 ^ (r.ceiling.scale - p.scale) = 1 ∨ 10 ^ p.scale % 2 = 0 := by
    have hkept := h.le_scale
    rcases Nat.eq_or_lt_of_le h.scale_le with hall | hsome
    · exact .inl (by rw [hall, Nat.sub_self, pow_zero])
    · have hplaces : p.scale ≠ 0 := by omega
      exact .inr (by simp [Nat.pow_mod, hplaces])
  have hround := Tie.round_toEven_div (capacity.toNat * r.ceiling.magnitude)
    (hpos (r.ceiling.scale - p.scale)) (hpos p.scale) heven
  rw [← h.magnitude, ← h.pow_eq, ← h.openSeats_eq] at hround
  rw [hround]
  exact if_congr h.roundsUp_iff.symm rfl rfl

theorem RoundsUp.twenty_le (h : r.RoundsUp capacity) : 20 ≤ r.ceiling.scale := by
  by_cases hcapacity : capacity = 0
  · subst hcapacity
    exact absurd h r.not_roundsUp_zero
  obtain ⟨p, hproduct⟩ := r.exists_isProduct hcapacity
  have hle := hproduct.roundsUp_iff.1 h
  have hpos := r.lack_pos capacity
  have hkept := hproduct.le_scale
  by_contra hfew
  have hall : r.ceiling.scale - p.scale = 0 := by omega
  rw [hall, pow_zero] at hle
  omega

theorem toNat_usableSeats (r : CapacityRule) (capacity : UInt32) :
    (r.usableSeats capacity).toNat = r.openSeats capacity - r.headroom.toNat := by
  have hle := r.openSeats_le capacity
  have hlt := capacity.toNat_lt
  rw [usableSeats, Count.toNat_sub, Count.toNat_ofNat]
  omega

theorem holds_iff (r : CapacityRule) (s : Snapshot) :
    r.holds s ↔ s.resource.active ∧
      min s.seatsAsked 4294967295 + r.headroom.toNat ≤ r.openSeats s.resource.capacity := by
  have hparty : s.partySize.toNat ≠ 0 := fun hzero => s.party_ne_zero (UInt32.toNat_inj.1 hzero)
  rw [holds, Bool.and_eq_true, decide_eq_true_eq, UInt32.le_iff_toNat_le, toNat_usableSeats,
    requestedSeats, Count.toNat_add, ← Snapshot.seatsAsked]
  refine and_congr_right fun _ => ?_
  have hasked : 0 < s.seatsAsked := by
    unfold Snapshot.seatsAsked
    omega
  omega

/-- Seats are given out by the exact product, with two excesses: one seat more where the product is
rounded up to it, and no limit where all seats that can be counted are usable. -/
theorem holds_iff_seatsAsked (r : CapacityRule) :
    (∀ s : Snapshot, r.holds s = true ↔ s.resource.active = true ∧
      ((s.seatsAsked : Int) ≤ r.wholeSeats s.resource.capacity - r.headroom.toNat ∨
        (s.seatsAsked : Int) = r.wholeSeats s.resource.capacity + 1 - r.headroom.toNat ∧
          r.RoundsUp s.resource.capacity ∨
        4294967295 < s.seatsAsked ∧ r.usableSeats s.resource.capacity = 4294967295)) ∧
      ∀ capacity, (r.usableSeats capacity).toNat =
          (if r.RoundsUp capacity then r.wholeSeats capacity + 1 else r.wholeSeats capacity) -
            r.headroom.toNat ∧
        (r.RoundsUp capacity → 20 ≤ r.ceiling.scale) := by
  refine ⟨fun s => ?_, fun capacity => ⟨?_, RoundsUp.twenty_le⟩⟩
  · have hopen := r.openSeats_eq s.resource.capacity
    have hle := r.openSeats_le s.resource.capacity
    have hlt := s.resource.capacity.toNat_lt
    have hall : r.usableSeats s.resource.capacity = 4294967295 ↔
        r.openSeats s.resource.capacity - r.headroom.toNat = 4294967295 := by
      rw [← UInt32.toNat_inj, toNat_usableSeats]
      rfl
    rw [holds_iff, hall]
    refine and_congr_right fun _ => ?_
    by_cases hup : r.RoundsUp s.resource.capacity
    · rw [if_pos hup] at hopen
      simp only [hup, and_true]
      omega
    · rw [if_neg hup] at hopen
      simp only [hup, and_false, false_or]
      omega
  · rw [toNat_usableSeats, openSeats_eq]

def nineThirteenths : CapacityRule :=
  ⟨⟨false, 6923076923076923076923076923, 28, by decide, by decide⟩, 0, by decide⟩

def nineOfThirteen : Snapshot :=
  { Snapshot.visit with
    resource := { Snapshot.visit.resource with capacity := 13 }
    partySize := 9
    occupancy := 0
    party_ne_zero := by decide }

theorem usableSeats_nineThirteenths :
    nineThirteenths.RoundsUp 13 ∧ 20 ≤ nineThirteenths.ceiling.scale ∧
      (nineThirteenths.usableSeats 13).toNat = nineThirteenths.wholeSeats 13 + 1 := by
  have hup : nineThirteenths.RoundsUp 13 := by decide
  obtain ⟨husable, htwenty⟩ := nineThirteenths.holds_iff_seatsAsked.2 13
  rw [if_pos hup] at husable
  exact ⟨hup, htwenty hup, husable⟩

/-- The product is 9 less 10^-28, and the ninth is let in. -/
theorem holds_nineOfThirteen :
    nineThirteenths.holds nineOfThirteen = true ∧
      ¬ (nineOfThirteen.seatsAsked : Int) ≤
        nineThirteenths.wholeSeats nineOfThirteen.resource.capacity -
          nineThirteenths.headroom.toNat := by
  decide

end CapacityRule
end ClubBooking
