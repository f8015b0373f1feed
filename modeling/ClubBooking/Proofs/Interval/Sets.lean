import ClubBooking.Interval.TimeSlot
import ClubBooking.Proofs.Calendar.Shift
import ClubBooking.Proofs.Club.Opening
import Mathlib.Data.Int.Interval
import Mathlib.Data.Set.Card

/-! Intervals as sets. A range of days is the set of its days, a slot the set of its instants on a
clock without leap seconds; what is asked of two intervals by comparing their ends is what the sets
say, up to both ends of the calendar. -/

namespace ClubBooking

namespace Date
variable {d e : Date}

theorem next?_eq_some_iff : d.next? = some e ↔ e.day = d.day + 1 := ofDay?_eq_some_iff

theorem day_injective : Function.Injective day := fun _ _ => ext_day

theorem exists_day {n : Int} (hd : d.day ≤ n) (he : n ≤ e.day) : ∃ c : Date, c.day = n :=
  ⟨⟨n, Int.le_trans d.first_le hd, Int.le_trans he e.le_last⟩, rfl⟩

end Date

namespace DateRange
variable {r s : DateRange} {d : Date}

def dates (r : DateRange) : Set Date := {d | r.first.day ≤ d.day ∧ d.day ≤ r.last.day}

theorem mem_dates : d ∈ r.dates ↔ r.first.day ≤ d.day ∧ d.day ≤ r.last.day := Iff.rfl

theorem contains_iff_mem : r.contains d = true ↔ d ∈ r.dates := contains_iff

theorem first_mem (r : DateRange) : r.first ∈ r.dates := ⟨Int.le_refl _, r.first_le_last⟩

theorem last_mem (r : DateRange) : r.last ∈ r.dates := ⟨r.first_le_last, Int.le_refl _⟩

theorem overlaps_iff_nonempty : r.overlaps s = true ↔ (r.dates ∩ s.dates).Nonempty := by
  rw [overlaps_iff]
  constructor
  · rintro ⟨hrs, hsr⟩
    rcases Int.le_total r.first.day s.first.day with hle | hle
    · exact ⟨s.first, ⟨hle, hsr⟩, s.first_mem⟩
    · exact ⟨r.first, r.first_mem, hle, hrs⟩
  · rintro ⟨d, hr, hs⟩
    exact ⟨Int.le_trans hr.1 hs.2, Int.le_trans hs.1 hr.2⟩

theorem containsRange_iff_subset : r.containsRange s = true ↔ s.dates ⊆ r.dates := by
  rw [containsRange_iff]
  constructor
  · rintro ⟨hfirst, hlast⟩ d hd
    exact ⟨Int.le_trans hfirst hd.1, Int.le_trans hd.2 hlast⟩
  · intro h
    exact ⟨(h s.first_mem).1, (h s.last_mem).2⟩

theorem isAdjacentTo_iff_day :
    r.isAdjacentTo s = true ↔
      s.first.day = r.last.day + 1 ∨ r.first.day = s.last.day + 1 := by
  rw [isAdjacentTo, Bool.or_eq_true, decide_eq_true_eq, decide_eq_true_eq,
    Date.next?_eq_some_iff, Date.next?_eq_some_iff]

theorem inter_eq_empty_iff :
    r.dates ∩ s.dates = ∅ ↔ r.last.day < s.first.day ∨ s.last.day < r.first.day := by
  rw [← Set.not_nonempty_iff_eq_empty, ← overlaps_iff_nonempty, overlaps_iff, Date.le_iff,
    Date.le_iff]
  omega

theorem isAdjacentTo_iff_inter :
    r.isAdjacentTo s = true ↔ r.dates ∩ s.dates = ∅ ∧
      ∀ d : Date, min r.first.day s.first.day ≤ d.day → d.day ≤ max r.last.day s.last.day →
        d ∈ r.dates ∪ s.dates := by
  have hr := Date.le_iff.1 r.first_le_last
  have hs := Date.le_iff.1 s.first_le_last
  simp only [isAdjacentTo_iff_day, inter_eq_empty_iff, Set.mem_union, mem_dates]
  constructor
  · intro h
    exact ⟨by omega, fun d hfirst hlast => by omega⟩
  · rintro ⟨hlt | hlt, hspan⟩
    · obtain ⟨d, hd⟩ := Date.exists_day (d := r.last) (e := s.first) (n := r.last.day + 1)
        (by omega) (by omega)
      have hmem := hspan d (by omega) (by omega)
      omega
    · obtain ⟨d, hd⟩ := Date.exists_day (d := s.last) (e := r.first) (n := s.last.day + 1)
        (by omega) (by omega)
      have hmem := hspan d (by omega) (by omega)
      omega

theorem ncard_dates (r : DateRange) : (r.dates.ncard : Int) = r.days := by
  have hle := Date.le_iff.1 r.first_le_last
  have himage : Date.day '' r.dates = Finset.Icc r.first.day r.last.day := by
    ext n
    rw [Finset.coe_Icc, Set.mem_Icc]
    constructor
    · rintro ⟨d, hd, rfl⟩
      exact hd
    · rintro ⟨hfirst, hlast⟩
      obtain ⟨d, rfl⟩ := Date.exists_day hfirst hlast
      exact ⟨d, ⟨hfirst, hlast⟩, rfl⟩
  rw [← Set.ncard_image_of_injective _ Date.day_injective, himage, Set.ncard_coe_finset,
    Int.card_Icc, days]
  omega

theorem not_overlaps_of_isAdjacentTo (h : r.isAdjacentTo s = true) : ¬ r.overlaps s = true := by
  rw [overlaps_iff_nonempty, Set.not_nonempty_iff_eq_empty]
  exact (isAdjacentTo_iff_inter.1 h).1

end DateRange

namespace DateTime
variable {t u : DateTime} {d : Date}

theorem startOf_lt_iff : startOf d < t ↔ d.day ≤ t.dayNumberBefore := by
  have hrank := t.time.rank_lt
  rw [lt_iff, rank_startOf, dayNumberBefore, rank]
  split
  · next hmidnight =>
    have hzero : t.time.rank = 0 := by rw [hmidnight]; rfl
    omega
  · next hlater =>
    have hpos : t.time.rank ≠ 0 := fun hzero => hlater (TimeOfDay.rank_inj hzero)
    omega

theorem day_le_dayNumberBefore (h : t < u) : t.date.day ≤ u.dayNumberBefore := by
  have hstart : startOf t.date ≤ t := startOf_le_iff.2 (Int.le_refl _)
  exact startOf_lt_iff.1 (Int.lt_of_le_of_lt hstart h)

theorem dayNumberBefore_le (t : DateTime) : t.dayNumberBefore ≤ t.date.day := by
  unfold dayNumberBefore
  split <;> omega

end DateTime

namespace TimeSlot
variable {s t : TimeSlot} {i : DateTime}

structure IsPlain (s : TimeSlot) : Prop where
  start : s.start.time.isLeap = false
  stop : s.stop.time.isLeap = false

/-- The instants of a slot, on a clock without leap seconds. -/
def instants (s : TimeSlot) : Set DateTime :=
  {i | i.time.isLeap = false ∧ s.start.nanos ≤ i.nanos ∧ i.nanos < s.stop.nanos}

theorem mem_instants :
    i ∈ s.instants ↔
      i.time.isLeap = false ∧ s.start.nanos ≤ i.nanos ∧ i.nanos < s.stop.nanos := Iff.rfl

namespace IsPlain
variable (hs : s.IsPlain) (ht : t.IsPlain)
include hs

theorem nanos_lt : s.start.nanos < s.stop.nanos :=
  (DateTime.lt_iff_nanos_lt hs.start hs.stop).1 s.start_lt_stop

theorem start_mem : s.start ∈ s.instants := ⟨hs.start, Int.le_refl _, hs.nanos_lt⟩

theorem contains_iff_mem (hi : i.time.isLeap = false) : s.contains i = true ↔ i ∈ s.instants := by
  rw [contains_iff, DateTime.le_iff_nanos_le hs.start hi, DateTime.lt_iff_nanos_lt hi hs.stop,
    mem_instants, and_iff_right hi]

theorem isWithinSingleDay_iff :
    s.isWithinSingleDay = true ↔ ∀ i ∈ s.instants, ∀ j ∈ s.instants, i.date = j.date := by
  have hbefore := DateTime.day_le_dayNumberBefore s.start_lt_stop
  rw [isWithinSingleDay, beq_iff_eq]
  constructor
  · intro hday
    have hsame : ∀ i ∈ s.instants, i.date.day = s.start.date.day := by
      intro i hi
      obtain ⟨hstart, hstop⟩ := contains_iff.1 ((hs.contains_iff_mem hi.1).2 hi)
      have hle := Date.le_iff.1 (DateTime.date_le_of_le hstart)
      have hge := DateTime.day_le_dayNumberBefore hstop
      omega
    intro i hi j hj
    exact Date.ext_day ((hsame i hi).trans (hsame j hj).symm)
  · intro hsame
    -- the day of the last instant begins within the slot, unless the slot begins on that day
    by_contra hne
    obtain ⟨d, hd⟩ := Date.exists_day hbefore s.stop.dayNumberBefore_le
    have hlate : s.start < .startOf d := DateTime.lt_startOf_iff.2 (Date.lt_iff.2 (by omega))
    have hmidnight : s.contains (.startOf d) = true :=
      contains_iff.2 ⟨Int.le_of_lt hlate, DateTime.startOf_lt_iff.2 (Int.le_of_eq hd)⟩
    have hdate := hsame _ hs.start_mem _ ((hs.contains_iff_mem rfl).1 hmidnight)
    exact hne (by rw [hdate]; exact hd)

include ht

theorem overlaps_iff_nanos :
    s.overlaps t = true ↔ s.start.nanos < t.stop.nanos ∧ t.start.nanos < s.stop.nanos := by
  rw [overlaps_iff, DateTime.lt_iff_nanos_lt hs.start ht.stop,
    DateTime.lt_iff_nanos_lt ht.start hs.stop]

theorem overlaps_iff_nonempty : s.overlaps t = true ↔ (s.instants ∩ t.instants).Nonempty := by
  rw [hs.overlaps_iff_nanos ht]
  constructor
  · rintro ⟨hst, hts⟩
    rcases Int.le_total s.start.nanos t.start.nanos with hle | hle
    · exact ⟨t.start, ⟨ht.start, hle, hts⟩, ht.start_mem⟩
    · exact ⟨s.start, hs.start_mem, hs.start, hle, hst⟩
  · rintro ⟨i, ⟨-, hsi, his⟩, -, hti, hit⟩
    exact ⟨Int.lt_of_le_of_lt hsi hit, Int.lt_of_le_of_lt hti his⟩

theorem inter_eq_empty_iff :
    s.instants ∩ t.instants = ∅ ↔
      s.stop.nanos ≤ t.start.nanos ∨ t.stop.nanos ≤ s.start.nanos := by
  rw [← Set.not_nonempty_iff_eq_empty, ← hs.overlaps_iff_nonempty ht, hs.overlaps_iff_nanos ht]
  omega

theorem containsSlot_iff_subset : s.containsSlot t = true ↔ t.instants ⊆ s.instants := by
  have htLt := ht.nanos_lt
  rw [containsSlot_iff, DateTime.le_iff_nanos_le hs.start ht.start,
    DateTime.le_iff_nanos_le ht.stop hs.stop]
  constructor
  · rintro ⟨hstart, hstop⟩ i ⟨hi, hti, hit⟩
    exact ⟨hi, Int.le_trans hstart hti, Int.lt_of_lt_of_le hit hstop⟩
  · intro hsub
    obtain ⟨-, hstart, hlt⟩ := hsub ht.start_mem
    refine ⟨hstart, Int.not_lt.1 fun hshort => ?_⟩
    have hmem : s.stop ∈ t.instants := ⟨hs.stop, Int.le_of_lt hlt, hshort⟩
    exact Int.lt_irrefl _ (hsub hmem).2.2

theorem exists_union_of_stop_eq (h : s.stop = t.start) :
    ∃ u : TimeSlot, u.IsPlain ∧ u.instants = s.instants ∪ t.instants := by
  have hsLt := hs.nanos_lt
  have htLt := ht.nanos_lt
  have hlt : s.start < t.stop := by
    have hstop : s.start < t.start := h ▸ s.start_lt_stop
    exact Int.lt_trans hstop t.start_lt_stop
  refine ⟨⟨s.start, t.stop, hlt⟩, ⟨hs.start, ht.stop⟩, ?_⟩
  ext i
  rw [h] at hsLt
  simp only [Set.mem_union, mem_instants, h, ← and_or_left]
  refine and_congr_right fun _ => ?_
  omega

theorem stop_eq_of_union (hle : s.stop.nanos ≤ t.start.nanos) {u : TimeSlot}
    (hu : u.instants = s.instants ∪ t.instants) : s.stop = t.start := by
  have hsLt := hs.nanos_lt
  refine (DateTime.eq_iff_nanos_eq hs.stop ht.start).2 (Int.le_antisymm hle ?_)
  by_contra hgap
  -- in a gap between the two, the end of the first would lie in their union
  have hfirst : s.start ∈ u.instants := hu ▸ Set.mem_union_left _ hs.start_mem
  have hlast : t.start ∈ u.instants := hu ▸ Set.mem_union_right _ ht.start_mem
  have hstop : s.stop ∈ u.instants :=
    ⟨hs.stop, Int.le_trans hfirst.2.1 (Int.le_of_lt hsLt), Int.lt_of_le_of_lt hle hlast.2.2⟩
  rcases hu ▸ hstop with hmem | hmem
  · exact Int.lt_irrefl _ hmem.2.2
  · exact hgap hmem.2.1

theorem isAdjacentTo_iff_inter :
    s.isAdjacentTo t = true ↔ s.instants ∩ t.instants = ∅ ∧
      ∃ u : TimeSlot, u.IsPlain ∧ u.instants = s.instants ∪ t.instants := by
  rw [isAdjacentTo, Bool.or_eq_true, decide_eq_true_eq, decide_eq_true_eq,
    hs.inter_eq_empty_iff ht]
  constructor
  · rintro (h | h)
    · exact ⟨.inl (Int.le_of_eq (congrArg _ h)), hs.exists_union_of_stop_eq ht h⟩
    · rw [Set.union_comm]
      exact ⟨.inr (Int.le_of_eq (congrArg _ h)), ht.exists_union_of_stop_eq hs h⟩
  · rintro ⟨hle | hle, u, -, hu⟩
    · exact .inl (hs.stop_eq_of_union ht hle hu)
    · rw [Set.union_comm] at hu
      exact .inr (ht.stop_eq_of_union hs hle hu)

theorem not_overlaps_of_isAdjacentTo (h : s.isAdjacentTo t = true) : ¬ s.overlaps t = true := by
  rw [hs.overlaps_iff_nonempty ht, Set.not_nonempty_iff_eq_empty]
  exact ((hs.isAdjacentTo_iff_inter ht).1 h).1

end IsPlain
end TimeSlot

/-- What is asked of two intervals is what their sets say: whether they have something in common,
whether together they are one interval without having anything in common, and whether one takes in
the other; the length of a range is the number of its dates, and a slot is within a day if all its
instants are. -/
theorem intervals_agree_with_sets :
    (∀ r s : DateRange,
      (∀ d, r.contains d = true ↔ d ∈ r.dates) ∧
      (r.overlaps s = true ↔ (r.dates ∩ s.dates).Nonempty) ∧
      (r.isAdjacentTo s = true ↔ r.dates ∩ s.dates = ∅ ∧
        ∀ d : Date, min r.first.day s.first.day ≤ d.day → d.day ≤ max r.last.day s.last.day →
          d ∈ r.dates ∪ s.dates) ∧
      (r.containsRange s = true ↔ s.dates ⊆ r.dates) ∧
      (r.dates.ncard : Int) = r.days ∧
      r.overlaps s = s.overlaps r ∧ r.isAdjacentTo s = s.isAdjacentTo r ∧
      ¬ (r.isAdjacentTo s = true ∧ r.overlaps s = true)) ∧
    ∀ s t : TimeSlot, s.IsPlain → t.IsPlain →
      (∀ i : DateTime, i.time.isLeap = false → (s.contains i = true ↔ i ∈ s.instants)) ∧
      (s.overlaps t = true ↔ (s.instants ∩ t.instants).Nonempty) ∧
      (s.isAdjacentTo t = true ↔ s.instants ∩ t.instants = ∅ ∧
        ∃ u : TimeSlot, u.IsPlain ∧ u.instants = s.instants ∪ t.instants) ∧
      (s.containsSlot t = true ↔ t.instants ⊆ s.instants) ∧
      (s.isWithinSingleDay = true ↔ ∀ i ∈ s.instants, ∀ j ∈ s.instants, i.date = j.date) ∧
      s.overlaps t = t.overlaps s ∧ s.isAdjacentTo t = t.isAdjacentTo s ∧
      ¬ (s.isAdjacentTo t = true ∧ s.overlaps t = true) := by
  refine ⟨fun r s => ?_, fun s t hs ht => ?_⟩
  · exact ⟨fun _ => DateRange.contains_iff_mem, DateRange.overlaps_iff_nonempty,
      DateRange.isAdjacentTo_iff_inter, DateRange.containsRange_iff_subset, r.ncard_dates,
      r.overlaps_comm s, r.isAdjacentTo_comm s,
      fun h => DateRange.not_overlaps_of_isAdjacentTo h.1 h.2⟩
  · exact ⟨fun _ => hs.contains_iff_mem, hs.overlaps_iff_nonempty ht,
      hs.isAdjacentTo_iff_inter ht, hs.containsSlot_iff_subset ht, hs.isWithinSingleDay_iff,
      s.overlaps_comm t, s.isAdjacentTo_comm t,
      fun h => hs.not_overlaps_of_isAdjacentTo ht h.1 h.2⟩

def TimeSlot.lastEve : TimeSlot :=
  ⟨⟨⟨95745703, by decide, by decide⟩, ⟨82800, 0, by decide, by decide⟩⟩, .startOf .last, by decide⟩

def TimeSlot.lastDawn : TimeSlot :=
  ⟨.startOf .last, ⟨.last, ⟨1800, 0, by decide, by decide⟩⟩, by decide⟩

theorem intervals_agree_lastMidnight :
    TimeSlot.lastEve.IsPlain ∧ TimeSlot.lastDawn.IsPlain ∧
      TimeSlot.lastEve.instants ∩ TimeSlot.lastDawn.instants = ∅ ∧
      (∃ u : TimeSlot, u.IsPlain ∧
        u.instants = TimeSlot.lastEve.instants ∪ TimeSlot.lastDawn.instants) ∧
      ∀ i ∈ TimeSlot.lastEve.instants, ∀ j ∈ TimeSlot.lastEve.instants, i.date = j.date := by
  have heve : TimeSlot.lastEve.IsPlain := ⟨by decide, by decide⟩
  have hdawn : TimeSlot.lastDawn.IsPlain := ⟨by decide, by decide⟩
  obtain ⟨-, -, hadjacent, -, hday, -⟩ := intervals_agree_with_sets.2 _ _ heve hdawn
  obtain ⟨hinter, hunion⟩ := hadjacent.1 (by decide)
  exact ⟨heve, hdawn, hinter, hunion, hday.1 (by decide)⟩

end ClubBooking
