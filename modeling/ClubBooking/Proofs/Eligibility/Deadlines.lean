import ClubBooking.Proofs.Eligibility.Monotone
import ClubBooking.Proofs.Eligibility.Reasons

/-! Grace, lead time, horizon and days in advance mean what they say in whole numbers without bound.
A period put off is cut at the last date, an earliest start may not exist, no more may a latest one,
and a bonus stops at the greatest count; none of this ever shows in a verdict, whatever the numbers
of the rules. -/

namespace ClubBooking

theorem ActiveMember.coversPeriod_iff (r : ActiveMember) (s : Snapshot) :
    r.coversPeriod s ↔ ∀ d ∈ [s.now.date, s.slot.start.date],
      s.member.period.first.day ≤ d.day ∧ d.day ≤ s.member.period.last.day + r.grace.toNat := by
  rw [List.forall_mem_cons, List.forall_mem_singleton, ← DateRange.contains_extendedBy_iff,
    ← DateRange.contains_extendedBy_iff, coversPeriod, Bool.and_eq_true]

namespace BookingTime
variable {r : BookingTime} {s : Snapshot}

def earliest (r : BookingTime) (s : Snapshot) : Int :=
  s.now.nanos + r.leadMinutes.toNat * 60 * 1000000000

def latest (r : BookingTime) (s : Snapshot) : Int :=
  s.now.nanos + r.horizonDays.toNat * 86400 * 1000000000

theorem isTooSoon_eq_false_iff (hnow : s.now.time.isLeap = false)
    (hstart : s.slot.start.time.isLeap = false) :
    r.isTooSoon s = false ↔ r.earliest s ≤ s.slot.start.nanos := by
  have hreached : r.isTooSoon s = false ↔
      ∃ v, s.now.addSeconds? (60 * r.leadMinutes.toNat) = some v ∧ v ≤ s.slot.start := by
    unfold isTooSoon DateTime.addMinutes?
    cases s.now.addSeconds? (60 * r.leadMinutes.toNat) with
    | none => simp
    | some v => simp [DateTime.lt_iff, DateTime.le_iff]
  have hlead : s.now.nanos + 60 * (r.leadMinutes.toNat : Int) * 1000000000 = r.earliest s := by
    rw [earliest, Int.mul_comm 60]
  rw [hreached, DateTime.exists_addSeconds?_le_iff hnow hstart (by omega), hlead]

theorem isTooFar_eq_false_iff (hnow : s.now.time.isLeap = false)
    (hstart : s.slot.start.time.isLeap = false) :
    r.isTooFar s = false ↔ s.slot.start.nanos ≤ r.latest s := by
  have hreached : r.isTooFar s = false ↔
      ∀ v, s.now.addSeconds? (86400 * r.horizonDays.toNat) = some v → s.slot.start ≤ v := by
    unfold isTooFar DateTime.addDays?
    cases s.now.addSeconds? (86400 * r.horizonDays.toNat) with
    | none => simp
    | some v => simp [DateTime.lt_iff, DateTime.le_iff]
  have hhorizon : s.now.nanos + 86400 * (r.horizonDays.toNat : Int) * 1000000000 = r.latest s := by
    rw [latest, Int.mul_comm 86400]
  rw [hreached, DateTime.forall_le_addSeconds?_iff hnow hstart (by omega), hhorizon]

theorem violation?_eq_tooSoon_iff : r.violation? s = some .tooSoon ↔ r.isTooSoon s = true := by
  unfold violation?
  cases r.isTooSoon s with
  | true => simp
  | false => grind

theorem violation?_eq_tooFar_iff :
    r.violation? s = some .tooFar ↔ r.isTooSoon s = false ∧ r.isTooFar s = true := by
  unfold violation?
  cases r.isTooSoon s with
  | true => simp
  | false => grind

end BookingTime

namespace AdvanceLimit
variable {r : AdvanceLimit} {s : Snapshot}

def daysInFull (r : AdvanceLimit) (s : Snapshot) : Nat :=
  s.plan.advanceDays.toNat +
    if s.member.tier = .premium ∨ s.member.tier = .vip then r.vipBonus.toNat else 0

def allowanceInFull (r : AdvanceLimit) (s : Snapshot) : Nat :=
  match r.cap with
  | some cap => min (r.daysInFull s) cap.toNat
  | none => r.daysInFull s

theorem toNat_days (r : AdvanceLimit) (s : Snapshot) :
    (r.days s).toNat = min (r.daysInFull s) 4294967295 := by
  have hlt := s.plan.advanceDays.toNat_lt
  have hvip : s.member.tier.isVip = true ↔ s.member.tier = .premium ∨ s.member.tier = .vip := by
    simp [Tier.isVip]
  unfold days daysInFull
  simp only [hvip]
  split
  · exact Count.toNat_add ..
  · omega

theorem toNat_allowance (r : AdvanceLimit) (s : Snapshot) :
    (r.allowance s).toNat = min (r.allowanceInFull s) 4294967295 := by
  have hdays := r.toNat_days s
  rw [allowance_eq, allowanceInFull]
  cases r.cap with
  | none => exact hdays
  | some cap =>
    have hcap := cap.toNat_lt
    show (min (r.days s) cap).toNat = min (min (r.daysInFull s) cap.toNat) 4294967295
    rw [toNat_min, hdays]
    omega

theorem daysAhead_lt (s : Snapshot) : daysAhead s < 4294967295 := by
  have hfirst := s.now.date.first_le
  have hlast := s.slot.start.date.le_last
  unfold daysAhead
  omega

theorem holds_iff (r : AdvanceLimit) (s : Snapshot) :
    r.holds s ↔ daysAhead s ≤ r.allowanceInFull s := by
  have hahead := daysAhead_lt s
  have hallowance := r.toNat_allowance s
  rw [holds, decide_eq_true_eq]
  omega

end AdvanceLimit

namespace Snapshot

/-- The verdicts on a request for any numbers of grace days, minutes of lead, days of horizon and
days in advance are those of whole numbers without bound, up to both ends of the calendar. -/
theorem limits_in_full (s : Snapshot) :
    (∀ r : ActiveMember, r.coversPeriod s = true ↔
      ∀ d ∈ [s.now.date, s.slot.start.date],
        s.member.period.first.day ≤ d.day ∧
          d.day ≤ s.member.period.last.day + r.grace.toNat) ∧
    (s.now.time.isLeap = false → s.slot.start.time.isLeap = false → ∀ r : BookingTime,
      (r.isTooSoon s = false ∧ r.isTooFar s = false ↔
        s.now.nanos + r.leadMinutes.toNat * 60 * 1000000000 ≤ s.slot.start.nanos ∧
          s.slot.start.nanos ≤ s.now.nanos + r.horizonDays.toNat * 86400 * 1000000000) ∧
      (r.violation? s = some .tooSoon ↔
        s.slot.start.nanos < s.now.nanos + r.leadMinutes.toNat * 60 * 1000000000) ∧
      (r.violation? s = some .tooFar ↔
        s.now.nanos + r.leadMinutes.toNat * 60 * 1000000000 ≤ s.slot.start.nanos ∧
          s.now.nanos + r.horizonDays.toNat * 86400 * 1000000000 < s.slot.start.nanos)) ∧
    ∀ r : AdvanceLimit, r.holds s = true ↔
      s.slot.start.date.day - s.now.date.day ≤ (r.allowanceInFull s : Int) := by
  refine ⟨fun r => r.coversPeriod_iff s, fun hnow hstart r => ?_, fun r => r.holds_iff s⟩
  have hsoon := r.isTooSoon_eq_false_iff hnow hstart
  have hfar := r.isTooFar_eq_false_iff hnow hstart
  refine ⟨and_congr hsoon hfar, ?_, ?_⟩
  · rw [BookingTime.violation?_eq_tooSoon_iff, ← Bool.not_eq_false, hsoon]
    exact Int.not_le
  · rw [BookingTime.violation?_eq_tooFar_iff, ← Bool.not_eq_false (r.isTooFar s), hsoon, hfar]
    exact and_congr_right fun _ => Int.not_le

def lastNoon : Snapshot :=
  { visit with
    member := { visit.member with tier := .vip }
    plan := { visit.plan with advanceDays := 4294967295 }
    slot := ⟨⟨.last, ⟨43200, 0, by decide, by decide⟩⟩, ⟨.last, ⟨46800, 0, by decide, by decide⟩⟩,
      by decide⟩
    now := ⟨.last, visit.now.time⟩
    enrolled := rfl
    held_active := by decide }

theorem limits_lastNoon :
    lastNoon.now.time.isLeap = false ∧ lastNoon.slot.start.time.isLeap = false ∧
      lastNoon.now.addMinutes? 4294967295 = none ∧ lastNoon.now.addDays? 4294967295 = none ∧
      ActiveMember.coversPeriod ⟨false, 4294967295⟩ lastNoon = true ∧
      BookingTime.isTooSoon ⟨4294967295, 120, none, false⟩ lastNoon = false ∧
      BookingTime.isTooFar ⟨4294967295, 120, none, false⟩ lastNoon = false ∧
      BookingTime.violation? ⟨4294967295, 4294967295, none, false⟩ lastNoon = some .tooSoon ∧
      AdvanceLimit.holds ⟨4294967295, none⟩ lastNoon = true := by
  have hnow : lastNoon.now.time.isLeap = false := by decide
  have hstart : lastNoon.slot.start.time.isLeap = false := by decide
  obtain ⟨hperiod, htime, hadvance⟩ := lastNoon.limits_in_full
  have hbooking := htime hnow hstart
  obtain ⟨hsoon, hfar⟩ := (hbooking ⟨4294967295, 120, none, false⟩).1.2 (by decide)
  have hlead := (hbooking ⟨4294967295, 4294967295, none, false⟩).2.1.2 (by decide)
  exact ⟨hnow, hstart, by decide, by decide, (hperiod _).2 (by decide), hsoon, hfar, hlead,
    (hadvance _).2 (by decide)⟩

end Snapshot
end ClubBooking
