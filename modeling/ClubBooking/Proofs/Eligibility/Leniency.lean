import ClubBooking.Proofs.Decimal.Exact
import ClubBooking.Proofs.Eligibility.Monotone
import ClubBooking.Proofs.Eligibility.Reasons

/-! A more lenient profile allows more: a policy of fewer rules built from a profile that is at
least as lenient allows whatever the stricter one does. -/

namespace ClubBooking

theorem Profile.toNat_usableSeats {p : Profile} {k : CapacityRule} (hceiling : k.ceiling = p.ceiling)
    (capacity : UInt32) :
    (k.usableSeats capacity).toNat =
      min (capacity.toNat * p.ceilingPercent.toNat / 100) 4294967295 - k.headroom.toNat := by
  have hcapacity := capacity.toNat_lt
  have hpercent := p.ceilingPercent.toNat_lt
  have hprod : capacity.toNat * p.ceilingPercent.toNat < 2 ^ 32 * 2 ^ 32 :=
    Nat.mul_lt_mul'' hcapacity hpercent
  have hcoeff : (Decimal.ofUInt32 capacity).coeff * p.ceiling.coeff =
      ((capacity.toNat * p.ceilingPercent.toNat : Nat) : Int) := by
    simp [Decimal.ofUInt32, ceiling, Decimal.coeff]
  have hfits : ((Decimal.ofUInt32 capacity).coeff * p.ceiling.coeff).natAbs < 2 ^ 96 := by
    rw [hcoeff, Int.natAbs_natCast]
    omega
  obtain ⟨product, hproduct, hscale, hat⟩ :=
    Decimal.mul_exact (a := .ofUInt32 capacity) (b := p.ceiling)
      (show 0 + 2 ≤ 28 by decide) hfits
  have hfloor : product.floor.toNat = capacity.toNat * p.ceilingPercent.toNat / 100 := by
    rw [Decimal.floor_eq_coeffAt_div hscale, hat, hcoeff]
    show (((capacity.toNat * p.ceilingPercent.toNat : Nat) : Int) / (100 : Nat)).toNat = _
    rw [← Int.natCast_ediv, Int.toNat_natCast]
  rw [CapacityRule.usableSeats, Count.toNat_sub, Count.toNat_ofNat, CapacityRule.openSeats,
    hceiling, hproduct, Option.map_some, Option.getD_some, hfloor]

def HoursWithin (v w : UInt32 × UInt32) : Prop := w.1 ≤ v.1 ∧ v.2 ≤ w.2

instance (v w : UInt32 × UInt32) : Decidable (HoursWithin v w) :=
  inferInstanceAs (Decidable (_ ∧ _))

namespace Profile

structure AsLenientAs (q p : Profile) : Prop where
  grace : p.graceDays ≤ q.graceDays
  ceiling : p.ceilingPercent ≤ q.ceilingPercent
  horizon : p.horizonDays ≤ q.horizonDays
  bonus : p.vipBonusDays ≤ q.vipBonusDays
  headroom : q.headroom ≤ p.headroom
  lead : q.leadMinutes ≤ p.leadMinutes
  status : p.lenient → q.lenient
  weekdays : q.weekdaysOnly → p.weekdaysOnly
  pending : q.countPending → p.countPending
  hours : NoTighter HoursWithin q.businessHours p.businessHours
  simultaneous : NoTighter (· ≤ ·) q.simultaneousCap p.simultaneousCap
  advance : NoTighter (· ≤ ·) q.advanceCapDays p.advanceCapDays

theorem asLenientAs_iff {q p : Profile} :
    q.AsLenientAs p ↔
      (p.graceDays ≤ q.graceDays ∧ p.ceilingPercent ≤ q.ceilingPercent ∧
        p.horizonDays ≤ q.horizonDays ∧ p.vipBonusDays ≤ q.vipBonusDays) ∧
      (q.headroom ≤ p.headroom ∧ q.leadMinutes ≤ p.leadMinutes) ∧
      ((p.lenient → q.lenient) ∧ (q.weekdaysOnly → p.weekdaysOnly) ∧
        (q.countPending → p.countPending)) ∧
      NoTighter HoursWithin q.businessHours p.businessHours ∧
      NoTighter (· ≤ ·) q.simultaneousCap p.simultaneousCap ∧
      NoTighter (· ≤ ·) q.advanceCapDays p.advanceCapDays := by
  constructor
  · intro h
    exact ⟨⟨h.grace, h.ceiling, h.horizon, h.bonus⟩, ⟨h.headroom, h.lead⟩,
      ⟨h.status, h.weekdays, h.pending⟩, h.hours, h.simultaneous, h.advance⟩
  · rintro ⟨⟨hgrace, hceiling, hhorizon, hbonus⟩, ⟨hheadroom, hlead⟩,
      ⟨hstatus, hweekdays, hpending⟩, hhours, hsimultaneous, hadvance⟩
    exact ⟨hgrace, hceiling, hhorizon, hbonus, hheadroom, hlead, hstatus, hweekdays, hpending,
      hhours, hsimultaneous, hadvance⟩

instance (q p : Profile) : Decidable (q.AsLenientAs p) := decidable_of_iff' _ asLenientAs_iff

theorem AsLenientAs.usableSeats_le {q p : Profile} (h : q.AsLenientAs p) {k l : CapacityRule}
    (hk : k.ceiling = p.ceiling ∧ k.headroom = p.headroom)
    (hl : l.ceiling = q.ceiling ∧ l.headroom = q.headroom) (capacity : UInt32) :
    k.usableSeats capacity ≤ l.usableSeats capacity := by
  have hceiling := h.ceiling
  have hheadroom := h.headroom
  rw [UInt32.le_iff_toNat_le] at hceiling hheadroom ⊢
  rw [toNat_usableSeats hk.1, toNat_usableSeats hl.1, hk.2, hl.2]
  have hopen : capacity.toNat * p.ceilingPercent.toNat / 100 ≤
      capacity.toNat * q.ceilingPercent.toNat / 100 :=
    Nat.div_le_div_right (Nat.mul_le_mul_left _ hceiling)
  omega

theorem rank_of_wholeHour {hour : UInt32} {t : TimeOfDay} (h : wholeHour hour = .ok t) :
    t.rank = 3600 * hour.toNat * 2000000000 := by
  unfold wholeHour at h
  split at h
  · next found hfound =>
    injection h with h
    subst h
    unfold TimeOfDay.ofHourMinute? at hfound
    split at hfound
    · injection hfound with hfound
      rw [← hfound, TimeOfDay.rank]
      simp only [Nat.mul_zero, Nat.add_zero]
    · cases hfound
  · cases h

theorem hourWindow_eq_some {p : Profile} {w : HourWindow} (h : p.hourWindow = .ok (some w)) :
    ∃ opens closes, p.businessHours = some (opens, closes) ∧
      w.start.rank = 3600 * opens.toNat * 2000000000 ∧
      w.stop.rank = 3600 * closes.toNat * 2000000000 := by
  unfold hourWindow at h
  split at h
  · cases h
  next opens closes hhours =>
  obtain ⟨start, hstart, h⟩ := bind_eq_ok_iff.1 h
  obtain ⟨stop, hstop, h⟩ := bind_eq_ok_iff.1 h
  obtain ⟨window, hwindow, h⟩ := bind_eq_ok_iff.1 h
  cases h
  obtain ⟨rfl, rfl⟩ := HourWindow.make_eq_ok_iff.1 hwindow
  exact ⟨opens, closes, hhours, rank_of_wholeHour hstart, rank_of_wholeHour hstop⟩

theorem noTighter_hourWindow {p q : Profile} {v w : Option HourWindow}
    (h : NoTighter HoursWithin q.businessHours p.businessHours) (hp : p.hourWindow = .ok v)
    (hq : q.hourWindow = .ok w) : NoTighter HourWindow.Within w v := by
  rintro x rfl
  obtain ⟨opens, closes, hhours, hstart, hstop⟩ := hourWindow_eq_some hq
  obtain ⟨⟨opens', closes'⟩, hhours', hopens, hcloses⟩ := h _ hhours
  cases v with
  | none =>
    unfold hourWindow at hp
    rw [hhours'] at hp
    obtain ⟨start, -, hp⟩ := bind_eq_ok_iff.1 hp
    obtain ⟨stop, -, hp⟩ := bind_eq_ok_iff.1 hp
    obtain ⟨window, -, hp⟩ := bind_eq_ok_iff.1 hp
    cases hp
  | some y =>
    obtain ⟨opens'', closes'', hsame, hstart', hstop'⟩ := hourWindow_eq_some hp
    cases hsame.symm.trans hhours'
    refine ⟨y, rfl, ?_⟩
    simp only [UInt32.le_iff_toNat_le] at hopens hcloses
    simp only [HourWindow.Within, TimeOfDay.le_iff]
    omega

end Profile

theorem RuleName.exists_of_build_resourceCapacity {p : Profile} {r : Rule}
    (h : resourceCapacity.build p = .ok r) :
    ∃ k, r = .capacity k ∧ k.ceiling = p.ceiling ∧ k.headroom = p.headroom := by
  obtain ⟨k, hk, h⟩ := bind_eq_ok_iff.1 h
  cases h
  unfold CapacityRule.withCeiling at hk
  split at hk
  · cases hk
    exact ⟨_, rfl, rfl, rfl⟩
  · cases hk

theorem RuleName.holds_of_asLenientAs {p q : Profile} (h : q.AsLenientAs p) {n : RuleName}
    {a b : Rule} (ha : n.build p = .ok a) (hb : n.build q = .ok b) {s : Snapshot}
    (hs : a.holds s) : b.holds s := by
  cases n with
  | activeMember =>
    cases ha
    cases hb
    exact ActiveMember.holds_mono h.status h.grace hs
  | membershipPrivilege =>
    cases ha
    cases hb
    exact Privilege.holds_mono h.grace hs
  | resourceCapacity =>
    obtain ⟨k, rfl, hk⟩ := exists_of_build_resourceCapacity ha
    obtain ⟨l, rfl, hl⟩ := exists_of_build_resourceCapacity hb
    exact CapacityRule.holds_mono (h.usableSeats_le hk hl _) hs
  | validTime =>
    obtain ⟨v, hv, ha⟩ := bind_eq_ok_iff.1 ha
    obtain ⟨w, hw, hb⟩ := bind_eq_ok_iff.1 hb
    cases ha
    cases hb
    exact BookingTime.holds_mono h.lead h.horizon h.weekdays
      (Profile.noTighter_hourWindow h.hours hv hw) hs
  | simultaneousLimit =>
    cases ha
    cases hb
    exact SimultaneousLimit.holds_mono h.pending h.simultaneous hs
  | advanceBooking =>
    cases ha
    cases hb
    exact AdvanceLimit.holds_mono h.bonus h.advance hs
  | noWeekends =>
    cases ha
    cases hb
    exact hs

namespace EligibilityPolicy

theorem allows_ofProfile {name : String} {p : Profile} {rules : List RuleName}
    {policy : EligibilityPolicy} (h : ofProfile name p rules = .ok policy) (s : Snapshot) :
    policy.allows s ↔ ∀ n ∈ rules, ∀ r, n.build p = .ok r → r.holds s := by
  obtain ⟨built, hbuilt, h⟩ := bind_eq_ok_iff.1 h
  obtain ⟨-, -, hmode, hconditions⟩ := make_eq_ok_iff.1 h
  rw [allows_eq_all hmode, hconditions, List.all_map, List.all_eq_true]
  exact forall_mem_iff_of_mapM hbuilt

variable {p q : Profile} {strict wide : List RuleName} {namep nameq : String}
  {policy other : EligibilityPolicy}

theorem allows_of_asLenientAs (h : q.AsLenientAs p) (hrules : ∀ n ∈ wide, n ∈ strict)
    (hp : ofProfile namep p strict = .ok policy) (hq : ofProfile nameq q wide = .ok other)
    {s : Snapshot} (hs : policy.allows s) : other.allows s := by
  rw [allows_ofProfile hq]
  intro n hn b hb
  obtain ⟨built, hbuilt, -⟩ := bind_eq_ok_iff.1 hp
  obtain ⟨a, ha⟩ := exists_of_mapM hbuilt (hrules n hn)
  exact RuleName.holds_of_asLenientAs h ha hb ((allows_ofProfile hp s).1 hs n (hrules n hn) a ha)

theorem forLevel_eq {l : Level} {rules : List RuleName} (h : l.preset? = some (p, rules)) :
    forLevel l = ofProfile ("flexible:" ++ l.name) p rules := by
  rw [forLevel, h]

theorem allows_of_level {k l : Level} (hk : k.preset? = some (p, strict))
    (hl : l.preset? = some (q, wide)) (h : q.AsLenientAs p) (hrules : ∀ n ∈ wide, n ∈ strict)
    (hpolicy : forLevel k = .ok policy) (hother : forLevel l = .ok other) {s : Snapshot}
    (hs : policy.allows s) : other.allows s := by
  rw [forLevel_eq hk] at hpolicy
  rw [forLevel_eq hl] at hother
  exact allows_of_asLenientAs h hrules hpolicy hother hs

/-- A more lenient profile and fewer rules allow at least as much: of the presets the restrictive
one allows the least and the premium one the most, and of two levels the stricter allows less. -/
theorem allows_mono_of_leniency :
    (∀ {p q : Profile} {strict wide : List RuleName} {namep nameq : String}
      {policy other : EligibilityPolicy}, q.AsLenientAs p → (∀ n ∈ wide, n ∈ strict) →
      ofProfile namep p strict = .ok policy → ofProfile nameq q wide = .ok other →
      ∀ s : Snapshot, policy.allows s → other.allows s) ∧
    (∃ least middle most, restrictive = .ok least ∧ standard = .ok middle ∧ premium = .ok most ∧
      ∀ s : Snapshot, (least.allows s → middle.allows s) ∧ (middle.allows s → most.allows s)) ∧
    ∃ a b c d, forLevel .strict = .ok a ∧ forLevel .standard = .ok b ∧ forLevel .basic = .ok c ∧
      forLevel .minimal = .ok d ∧ ∀ s : Snapshot, (a.allows s → b.allows s) ∧
        (b.allows s → c.allows s) ∧ (c.allows s → d.allows s) := by
  obtain ⟨least, hleast⟩ : ∃ r, restrictive = .ok r := ⟨_, rfl⟩
  obtain ⟨middle, hmiddle⟩ : ∃ r, standard = .ok r := ⟨_, rfl⟩
  obtain ⟨most, hmost⟩ : ∃ r, premium = .ok r := ⟨_, rfl⟩
  obtain ⟨a, ha⟩ : ∃ r, forLevel .strict = .ok r := ⟨_, rfl⟩
  obtain ⟨b, hb⟩ : ∃ r, forLevel .standard = .ok r := ⟨_, rfl⟩
  obtain ⟨c, hc⟩ : ∃ r, forLevel .basic = .ok r := ⟨_, rfl⟩
  obtain ⟨d, hd⟩ : ∃ r, forLevel .minimal = .ok r := ⟨_, rfl⟩
  have hrestrictive : Profile.standard.AsLenientAs .restrictive := by decide
  have hpremium : Profile.premium.AsLenientAs .standard := by decide
  have hstandard : Profile.standard.AsLenientAs .standard := by decide
  refine ⟨fun h hrules hp hq _ => allows_of_asLenientAs h hrules hp hq,
    ⟨least, middle, most, hleast, hmiddle, hmost, fun s => ⟨?_, ?_⟩⟩,
    a, b, c, d, ha, hb, hc, hd, fun s => ⟨?_, ?_, ?_⟩⟩
  · exact allows_of_asLenientAs hrestrictive (fun _ h => h) hleast hmiddle
  · exact allows_of_asLenientAs hpremium (fun _ h => h) hmiddle hmost
  · exact allows_of_level rfl rfl hrestrictive (by decide) ha hb
  · exact allows_of_level rfl rfl hstandard (by decide) hb hc
  · exact allows_of_level rfl rfl hstandard (by decide) hc hd

theorem allows_visit_of_leniency :
    ∃ policy other, ofProfile "desk" .restrictive RuleName.fullSet = .ok policy ∧
      ofProfile "lounge" .standard [.validTime, .resourceCapacity] = .ok other ∧
      Profile.standard.AsLenientAs .restrictive ∧
      policy.allows .visit = true ∧ other.allows .visit = true := by
  have hlenient : Profile.standard.AsLenientAs .restrictive := by decide
  have hrules : ∀ n ∈ [RuleName.validTime, .resourceCapacity], n ∈ RuleName.fullSet := by decide
  obtain ⟨policy, hpolicy, hallows⟩ :
      ∃ r, ofProfile "desk" .restrictive RuleName.fullSet = .ok r ∧ r.allows .visit = true :=
    ⟨_, rfl, rfl⟩
  obtain ⟨other, hother⟩ :
      ∃ r, ofProfile "lounge" .standard [.validTime, .resourceCapacity] = .ok r := ⟨_, rfl⟩
  exact ⟨policy, other, hpolicy, hother, hlenient, hallows,
    allows_mono_of_leniency.1 hlenient hrules hpolicy hother .visit hallows⟩

end EligibilityPolicy
end ClubBooking
