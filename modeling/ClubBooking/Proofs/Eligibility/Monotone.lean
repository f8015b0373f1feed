import ClubBooking.Eligibility.Condition
import ClubBooking.Proofs.Calendar.Shift

/-! Each rule is monotone in its numbers and switches: a rule with more grace, more seats, a later
horizon, fewer closed hours or a higher cap holds of every request that the tighter one holds of. -/

namespace ClubBooking

theorem ActiveMember.holds_mono {a b : ActiveMember} {s : Snapshot}
    (hlenient : a.lenient → b.lenient) (hgrace : a.grace ≤ b.grace) (h : a.holds s) :
    b.holds s := by
  simp only [holds, coversPeriod, Bool.and_eq_true] at h ⊢
  obtain ⟨hstatus, hnow, hstart⟩ := h
  refine ⟨?_, DateRange.contains_extendedBy_mono hgrace hnow,
    DateRange.contains_extendedBy_mono hgrace hstart⟩
  cases hs : s.member.status with
  | active => rfl
  | suspended =>
    rw [hs] at hstatus
    exact hlenient hstatus
  | expired | withdrawn =>
    rw [hs] at hstatus
    cases hstatus

theorem Privilege.holds_mono {a b : Privilege} {s : Snapshot} (hgrace : a.grace ≤ b.grace)
    (h : a.holds s) : b.holds s := by
  simp only [holds, coversRequest, Bool.and_eq_true] at h ⊢
  exact ⟨h.1, DateRange.contains_extendedBy_mono hgrace h.2⟩

theorem CapacityRule.holds_mono {a b : CapacityRule} {s : Snapshot}
    (husable : a.usableSeats s.resource.capacity ≤ b.usableSeats s.resource.capacity)
    (h : a.holds s) : b.holds s := by
  simp only [holds, Bool.and_eq_true, decide_eq_true_eq] at h ⊢
  exact ⟨h.1, UInt32.le_trans h.2 husable⟩

/-- Of two optional bounds the first is no tighter: it is absent, or both are there and the second
lies within the first. -/
def NoTighter {α : Type} (within : α → α → Prop) (a b : Option α) : Prop :=
  ∀ x, a = some x → ∃ y, b = some y ∧ within y x

instance {α : Type} (within : α → α → Prop) [∀ x y, Decidable (within x y)] :
    (a b : Option α) → Decidable (NoTighter within a b)
  | none, _ => isTrue fun _ h => nomatch h
  | some x, none => isFalse fun h => nomatch h x rfl
  | some x, some y => decidable_of_iff (within y x) (by simp [NoTighter])

def HourWindow.Within (v w : HourWindow) : Prop := w.start ≤ v.start ∧ v.stop ≤ w.stop

theorem HourWindow.holdsSlot_mono {v w : HourWindow} {slot : TimeSlot} (hwithin : v.Within w)
    (h : v.holdsSlot slot) : w.holdsSlot slot := by
  obtain ⟨hstart, hstop⟩ := hwithin
  simp only [holdsSlot, Bool.and_eq_true, decide_eq_true_eq, DateTime.le_iff, DateTime.rank,
    DateTime.atTime, TimeOfDay.le_iff] at *
  omega

namespace BookingTime
variable {a b : BookingTime} {s : Snapshot}

theorem isTooSoon_mono (hlead : b.leadMinutes ≤ a.leadMinutes) (h : a.isTooSoon s = false) :
    b.isTooSoon s = false := by
  rw [UInt32.le_iff_toNat_le] at hlead
  unfold isTooSoon DateTime.addMinutes? at h ⊢
  cases ha : s.now.addSeconds? (60 * a.leadMinutes.toNat) with
  | none => simp [ha] at h
  | some later =>
    obtain ⟨earlier, hb, hle⟩ := DateTime.addSeconds?_mono
      (m := 60 * b.leadMinutes.toNat) (by omega) (by omega) ha
    simp only [ha, hb, decide_eq_false_iff_not, DateTime.lt_iff, DateTime.le_iff] at *
    omega

theorem isTooFar_mono (hhorizon : a.horizonDays ≤ b.horizonDays) (h : a.isTooFar s = false) :
    b.isTooFar s = false := by
  rw [UInt32.le_iff_toNat_le] at hhorizon
  unfold isTooFar DateTime.addDays? at h ⊢
  -- a horizon past the last date is no limit, so only the other one needs the step before it
  cases hb : s.now.addSeconds? (86400 * b.horizonDays.toNat) with
  | none => rfl
  | some later =>
    obtain ⟨earlier, ha, hle⟩ := DateTime.addSeconds?_mono
      (m := 86400 * a.horizonDays.toNat) (by omega) (by omega) hb
    simp only [ha, decide_eq_false_iff_not, DateTime.lt_iff, DateTime.le_iff] at *
    omega

theorem violatesHours?_mono (hhours : NoTighter HourWindow.Within b.businessHours a.businessHours)
    (h : a.violatesHours? s = none) : b.violatesHours? s = none := by
  rw [violatesHours?, Option.filter_eq_none_iff] at h ⊢
  intro w hw
  obtain ⟨v, hv, hwithin⟩ := hhours w hw
  have hslot : v.holdsSlot s.slot := by simpa using h v hv
  simpa using HourWindow.holdsSlot_mono hwithin hslot

theorem holds_iff {r : BookingTime} :
    r.holds s ↔ r.isTooSoon s = false ∧ r.isTooFar s = false ∧
      (r.weekdaysOnly → s.slot.start.date.weekday.isWeekend = false) ∧
      r.violatesHours? s = none ∧ s.resource.hours.covers s.slot := by
  unfold holds violation?
  cases r.isTooSoon s
  case true => simp
  cases r.isTooFar s
  case true => simp
  by_cases hday : (r.weekdaysOnly && s.slot.start.date.weekday.isWeekend) = true
  · rw [if_neg (by decide), if_neg (by decide), if_pos hday]
    rw [Bool.and_eq_true] at hday
    simp [hday]
  rw [if_neg (by decide), if_neg (by decide), if_neg hday]
  have hday : r.weekdaysOnly → s.slot.start.date.weekday.isWeekend = false := by simpa using hday
  cases r.violatesHours? s with
  | some w => simp
  | none =>
    cases s.resource.hours.covers s.slot with
    | false => simp
    | true => simpa using hday

theorem holds_mono (hlead : b.leadMinutes ≤ a.leadMinutes)
    (hhorizon : a.horizonDays ≤ b.horizonDays) (hdays : b.weekdaysOnly → a.weekdaysOnly)
    (hhours : NoTighter HourWindow.Within b.businessHours a.businessHours) (h : a.holds s) :
    b.holds s := by
  obtain ⟨hsoon, hfar, hweekend, hwindow, hcovers⟩ := holds_iff.1 h
  exact holds_iff.2 ⟨isTooSoon_mono hlead hsoon, isTooFar_mono hhorizon hfar,
    fun hb => hweekend (hdays hb), violatesHours?_mono hhours hwindow, hcovers⟩

end BookingTime

theorem toNat_min (m n : UInt32) : (min m n).toNat = min m.toNat n.toNat := by
  show (if m ≤ n then m else n).toNat = _
  split
  · next h => exact (Nat.min_eq_left (UInt32.le_iff_toNat_le.1 h)).symm
  · next h =>
    rw [UInt32.le_iff_toNat_le] at h
    omega

theorem capped_mono {c d : Option UInt32} {m n : UInt32} (hcap : NoTighter (· ≤ ·) d c)
    (hmn : m ≤ n) : (c.elim m (min m)).toNat ≤ (d.elim n (min n)).toNat := by
  rw [UInt32.le_iff_toNat_le] at hmn
  cases d with
  | none =>
    cases c with
    | none => exact hmn
    | some cap =>
      show (min m cap).toNat ≤ n.toNat
      rw [toNat_min]
      exact Nat.le_trans (Nat.min_le_left _ _) hmn
  | some cap =>
    obtain ⟨least, rfl, hle⟩ := hcap cap rfl
    show (min m least).toNat ≤ (min n cap).toNat
    rw [toNat_min, toNat_min]
    have hle := UInt32.le_iff_toNat_le.1 hle
    omega

namespace SimultaneousLimit
variable {a b : SimultaneousLimit} {s : Snapshot}

theorem held_le_held (hpending : b.countPending → a.countPending) : b.held s ≤ a.held s := by
  refine List.countP_mono_left fun status _ hcounts => ?_
  cases status with
  | pending => exact hpending hcounts
  | confirmed | checkedIn => rfl
  | completed | cancelled | noShow => cases hcounts

theorem limit_eq (r : SimultaneousLimit) :
    r.limit s = r.cap.elim s.plan.maxReservations (min s.plan.maxReservations) := by
  unfold limit
  cases r.cap <;> rfl

theorem holds_mono (hpending : b.countPending → a.countPending)
    (hcap : NoTighter (· ≤ ·) b.cap a.cap) (h : a.holds s) : b.holds s := by
  simp only [holds, decide_eq_true_eq, limit_eq] at h ⊢
  calc
    b.held s ≤ a.held s := held_le_held hpending
    _ < _ := h
    _ ≤ _ := capped_mono hcap (UInt32.le_refl _)

end SimultaneousLimit

namespace AdvanceLimit
variable {a b : AdvanceLimit} {s : Snapshot}

def days (r : AdvanceLimit) (s : Snapshot) : UInt32 :=
  if s.member.tier.isVip then Count.add s.plan.advanceDays r.vipBonus else s.plan.advanceDays

theorem allowance_eq (r : AdvanceLimit) :
    r.allowance s = r.cap.elim (r.days s) (min (r.days s)) := by
  unfold allowance
  cases r.cap <;> rfl

theorem days_mono (hbonus : a.vipBonus ≤ b.vipBonus) : a.days s ≤ b.days s := by
  unfold days
  split
  · simp only [UInt32.le_iff_toNat_le, Count.toNat_add] at hbonus ⊢
    omega
  · exact UInt32.le_refl _

theorem holds_mono (hbonus : a.vipBonus ≤ b.vipBonus) (hcap : NoTighter (· ≤ ·) b.cap a.cap)
    (h : a.holds s) : b.holds s := by
  have hallowance := capped_mono hcap (days_mono (s := s) hbonus)
  simp only [holds, decide_eq_true_eq, allowance_eq] at h ⊢
  omega

end AdvanceLimit

end ClubBooking
