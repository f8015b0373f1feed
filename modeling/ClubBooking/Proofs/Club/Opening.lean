import ClubBooking.Club.OperatingHours
import ClubBooking.Proofs.Refusal

/-! Opening hours instant by instant. Hours cover a slot just if they are open at each of its
instants, up to the last midnight of the calendar. The walk over midnights that decides it makes at
most one pass for each date that the slot touches. -/

namespace ClubBooking

theorem TimeOfDay.rank_lt (t : TimeOfDay) : t.rank < 172800000000000 := by
  have hsecond := t.second_lt
  have hnano := t.nano_lt_two
  unfold rank
  omega

theorem TimeOfDay.midnight_le (t : TimeOfDay) : midnight ≤ t := Nat.zero_le _

theorem TimeOfDay.eq_midnight_of_le {t : TimeOfDay} (h : t ≤ midnight) : t = midnight :=
  rank_inj (Nat.le_antisymm h (Nat.zero_le _))

namespace DateTime
variable {t u : DateTime} {d : Date} {time : TimeOfDay}

theorem rank_startOf (d : Date) : (startOf d).rank = d.day * 172800000000000 := by
  simp [startOf, rank, TimeOfDay.rank, TimeOfDay.midnight]

theorem lt_startOf_iff : t < startOf d ↔ t.date < d := by
  have htime := t.time.rank_lt
  rw [lt_iff, Date.lt_iff, rank_startOf, rank]
  omega

theorem le_startOf (h : t.date < d) : t ≤ startOf d := Int.le_of_lt (lt_startOf_iff.2 h)

theorem startOf_le_iff : startOf d ≤ t ↔ d ≤ t.date := by
  have htime := t.time.rank_lt
  rw [le_iff, Date.le_iff, rank_startOf, rank]
  omega

theorem atTime_le_iff (hd : t.date = d) : atTime d time ≤ t ↔ time ≤ t.time := by
  subst hd
  rw [le_iff, TimeOfDay.le_iff, rank, rank]
  show t.date.day * 172800000000000 + (time.rank : Int) ≤ _ ↔ _
  omega

theorem lt_atTime_iff (hd : t.date = d) : t < atTime d time ↔ t.time < time := by
  subst hd
  rw [lt_iff, TimeOfDay.lt_iff, rank, rank]
  show _ < t.date.day * 172800000000000 + (time.rank : Int) ↔ _
  omega

theorem date_le_of_le (h : t ≤ u) : t.date ≤ u.date := by
  have ht := t.time.rank_lt
  have hu := u.time.rank_lt
  rw [le_iff, rank, rank] at h
  rw [Date.le_iff]
  omega

theorem date_le_of_lt_atTime (h : t < atTime d time) : t.date ≤ d :=
  date_le_of_le (u := atTime d time) (Int.le_of_lt h)

end DateTime

namespace OperatingHours
variable {h : OperatingHours} {slot : TimeSlot} {stop t : DateTime} {date d : Date}

theorem make_eq_ok_iff {opens : TimeOfDay} {closes : Option TimeOfDay} {days : List Weekday} :
    make opens closes days = .ok h ↔
      (∀ close ∈ closes, opens < close) ∧ days ≠ [] ∧
        h = ⟨opens, closes, Weekday.all.filter (days.contains ·)⟩ := by
  unfold make
  cases closes with
  | none =>
    by_cases hdays : days = [] <;>
      simp [hdays, bind, Except.bind, pure, Except.pure, eq_comm]
  | some close =>
    have hlt : opens < close ↔ ¬ close ≤ opens := Nat.not_le.symm
    by_cases hclose : close ≤ opens <;> by_cases hdays : days = [] <;>
      simp [hlt, hclose, hdays, bind, Except.bind, pure, Except.pure, eq_comm]

def IsMade (h : OperatingHours) : Prop :=
  (∃ opens closes days, make opens closes days = .ok h) ∨ h = always

def IsOpenAt (h : OperatingHours) (t : DateTime) : Prop :=
  t.date.weekday ∈ h.days ∧ h.opens ≤ t.time ∧ ∀ close ∈ h.closes, t.time < close

theorem IsMade.sublist (hmade : h.IsMade) : h.days.Sublist Weekday.all := by
  rcases hmade with ⟨opens, closes, days, hmake⟩ | rfl
  · obtain ⟨-, -, rfl⟩ := make_eq_ok_iff.1 hmake
    exact List.filter_sublist
  · exact .refl _

theorem IsMade.opensOn (hmade : h.IsMade) (hseven : h.days.length = 7) (d : Date) :
    h.opensOn d := by
  have hall : h.days = Weekday.all := hmade.sublist.eq_of_length hseven
  rw [OperatingHours.opensOn, hall, List.contains_iff_mem]
  exact d.weekday.mem_all

theorem isAroundTheClock_iff : h.isAroundTheClock ↔ h.opens = .midnight ∧ h.closes = none := by
  simp [isAroundTheClock]

theorem isOpenAt_of_isAroundTheClock (hclock : h.isAroundTheClock) (hday : h.opensOn t.date) :
    h.IsOpenAt t := by
  obtain ⟨hopens, hcloses⟩ := isAroundTheClock_iff.1 hclock
  refine ⟨List.contains_iff_mem.1 hday, hopens ▸ t.time.midnight_le, fun close hclose => ?_⟩
  rw [hcloses] at hclose
  cases hclose

theorem isAroundTheClock_of_isOpenAt (hcloses : h.closes = none) (ht : h.IsOpenAt (.startOf d)) :
    h.isAroundTheClock ∧ h.opensOn d := by
  obtain ⟨hday, hopens, -⟩ := ht
  exact ⟨isAroundTheClock_iff.2 ⟨TimeOfDay.eq_midnight_of_le hopens, hcloses⟩,
    List.contains_iff_mem.2 hday⟩

/-- The walk reaches `stop` just if the calendar has a midnight there or later, and each day that
begins on the way is open around the clock. -/
theorem runsOnUntil_iff :
    h.runsOnUntil stop date ↔ date < .last ∧ stop ≤ .startOf .last ∧
      ∀ d, date < d → .startOf d < stop → h.isAroundTheClock ∧ h.opensOn d := by
  fun_induction runsOnUntil h stop date with
  | case1 date hnext next ih =>
    have hlast : date < .last := hnext
    have hnextDay : next.day = date.day + 1 := rfl
    have hnextLe : DateTime.startOf next ≤ .startOf .last := DateTime.startOf_le_iff.2 next.le_last
    simp only [Bool.or_eq_true, Bool.and_eq_true, decide_eq_true_eq, ih]
    constructor
    · rintro (hstop | ⟨⟨hclock, hday⟩, -, hstop, hrest⟩)
      · refine ⟨hlast, Int.le_trans hstop hnextLe, fun d hd hbefore => ?_⟩
        have hlt : d < next := DateTime.lt_startOf_iff.1 (Int.lt_of_lt_of_le hbefore hstop)
        rw [Date.lt_iff] at hd hlt
        omega
      · refine ⟨hlast, hstop, fun d hd hbefore => ⟨hclock, ?_⟩⟩
        by_cases heq : d = next
        · exact heq ▸ hday
        · have hne : d.day ≠ next.day := fun hd' => heq (Date.ext_day hd')
          rw [Date.lt_iff] at hd
          exact (hrest d (Date.lt_iff.2 (by omega)) hbefore).2
    · rintro ⟨-, hstop, hopen⟩
      by_cases hreached : stop ≤ .startOf next
      · exact .inl hreached
      · have hbefore : DateTime.startOf next < stop := Int.not_le.1 hreached
        have hlater : next < .last :=
          DateTime.lt_startOf_iff.1 (Int.lt_of_lt_of_le hbefore hstop)
        refine .inr ⟨hopen next (Int.lt_succ _) hbefore, hlater, hstop, fun d hd => ?_⟩
        exact hopen d (Int.lt_trans (Int.lt_succ _) hd)
  | case2 date hnone =>
    have hlast : ¬ date < .last := hnone
    simp [hlast]

/-- The walk over midnights, pass by pass: it ends where the calendar does, at a midnight that is
not before `stop`, or at a day that is not open around the clock, and else goes on from that day. -/
inductive Walks (h : OperatingHours) (stop : DateTime) : Date → Nat → Bool → Prop
  | calendarEnds {date : Date} (hnone : date.next? = none) : Walks h stop date 1 false
  | reached {date next : Date} (hnext : date.next? = some next) (hstop : stop ≤ .startOf next) :
    Walks h stop date 1 true
  | closed {date next : Date} (hnext : date.next? = some next) (hstop : ¬ stop ≤ .startOf next)
    (hclosed : ¬ (h.isAroundTheClock ∧ h.opensOn next)) : Walks h stop date 1 false
  | goesOn {date next : Date} {passes : Nat} {answer : Bool} (hnext : date.next? = some next)
    (hstop : ¬ stop ≤ .startOf next) (hopen : h.isAroundTheClock ∧ h.opensOn next)
    (rest : Walks h stop next passes answer) : Walks h stop date (passes + 1) answer

theorem exists_walks (h : OperatingHours) (stop : DateTime) (date : Date) :
    ∃ passes ≤ (stop.date.day - date.day).toNat + 1,
      h.Walks stop date passes (h.runsOnUntil stop date) := by
  fun_induction runsOnUntil h stop date with
  | case1 date hnext next ih =>
    have hnextDay : next.day = date.day + 1 := rfl
    have hsome : date.next? = some next := Date.ofDay?_eq_some_iff.2 rfl
    by_cases hreached : stop ≤ .startOf next
    · exact ⟨1, by omega, by simpa [hreached] using .reached hsome hreached⟩
    by_cases hopen : h.isAroundTheClock ∧ h.opensOn next
    · obtain ⟨passes, hle, hwalk⟩ := ih
      have hpast : next ≤ stop.date :=
        DateTime.startOf_le_iff.1 (Int.le_of_lt (Int.not_le.1 hreached))
      rw [Date.le_iff] at hpast
      refine ⟨passes + 1, by omega, ?_⟩
      simpa [hreached, hopen] using .goesOn hsome hreached hopen hwalk
    · have hclosed : (h.isAroundTheClock && h.opensOn next) = false := by simpa using hopen
      exact ⟨1, by omega, by simpa [hreached, hclosed] using .closed hsome hreached hopen⟩
  | case2 date hnone =>
    have hend : date.next? = none := dif_neg fun hin => hnone hin.2
    exact ⟨1, by omega, .calendarEnds hend⟩

theorem covers_iff :
    h.covers slot ↔ h.opensOn slot.start.date ∧
      (h.isAroundTheClock ∧ h.days.length = 7 ∨
        h.opens ≤ slot.start.time ∧
          (∀ close ∈ h.closes, slot.stop ≤ .atTime slot.start.date close) ∧
          (h.closes = none → h.runsOnUntil slot.stop slot.start.date)) := by
  have hopens : DateTime.atTime slot.start.date h.opens ≤ slot.start ↔
      h.opens ≤ slot.start.time := DateTime.atTime_le_iff rfl
  unfold covers
  cases hcloses : h.closes <;> simp [hopens]

theorem isOpenAt_of_covers (hmade : h.IsMade) (hcovers : h.covers slot) (ht : slot.contains t) :
    h.IsOpenAt t := by
  obtain ⟨hstart, hstop⟩ := TimeSlot.contains_iff.1 ht
  obtain ⟨hday, ⟨hclock, hseven⟩ | ⟨hopens, hcloses, hruns⟩⟩ := covers_iff.1 hcovers
  · exact isOpenAt_of_isAroundTheClock hclock (hmade.opensOn hseven _)
  have hdate : slot.start.date ≤ t.date := DateTime.date_le_of_le hstart
  by_cases hsame : t.date = slot.start.date
  · refine ⟨hsame ▸ List.contains_iff_mem.1 hday, ?_, fun close hclose => ?_⟩
    · have hopened := (DateTime.atTime_le_iff (d := slot.start.date) rfl).2 hopens
      exact (DateTime.atTime_le_iff hsame).1 (Int.le_trans hopened hstart)
    · exact (DateTime.lt_atTime_iff hsame).1 (Int.lt_of_lt_of_le hstop (hcloses close hclose))
  · -- on a later date there is no closing time, and the walk has gone on over its midnight
    have hlater : slot.start.date < t.date := by
      have hne : t.date.day ≠ slot.start.date.day := fun heq => hsame (Date.ext_day heq)
      rw [Date.le_iff] at hdate
      exact Date.lt_iff.2 (by omega)
    have hnone : h.closes = none := by
      cases hclose : h.closes with
      | none => rfl
      | some close =>
        have hback : t.date ≤ slot.start.date :=
          DateTime.date_le_of_lt_atTime (Int.lt_of_lt_of_le hstop (hcloses close hclose))
        exact absurd hlater (Int.not_lt.2 hback)
    have hmidnight : DateTime.startOf t.date ≤ t :=
      DateTime.startOf_le_iff.2 (Date.le_iff.2 (Int.le_refl _))
    obtain ⟨-, -, hopen⟩ := runsOnUntil_iff.1 (hruns hnone)
    obtain ⟨hclock, hday⟩ := hopen t.date hlater (Int.lt_of_le_of_lt hmidnight hstop)
    exact isOpenAt_of_isAroundTheClock hclock hday

/-- What is open throughout is covered, unless it goes on past the last midnight. Of the instants in
leap seconds only the start of the slot and those of the closing time need to be looked at. -/
theorem covers_of_isOpenAt (hlast : slot.stop ≤ .startOf .last)
    (hopen : ∀ t, slot.contains t → (t.time.isLeap → t = slot.start ∨ h.closes = some t.time) →
      h.IsOpenAt t) : h.covers slot := by
  obtain ⟨hday, hopens, hcloses⟩ := hopen slot.start slot.contains_start fun _ => .inl rfl
  refine covers_iff.2 ⟨List.contains_iff_mem.2 hday, .inr ⟨hopens, fun close hclose => ?_, ?_⟩⟩
  · -- otherwise the closing time lies in the slot, and the hours are not open at it
    refine Int.not_lt.1 fun hlate => ?_
    have hin : slot.contains (.atTime slot.start.date close) := by
      have hstart := (DateTime.lt_atTime_iff (d := slot.start.date) rfl).2 (hcloses close hclose)
      exact TimeSlot.contains_iff.2 ⟨Int.le_of_lt hstart, hlate⟩
    have hclosed := (hopen _ hin fun _ => .inr hclose).2.2 close hclose
    exact Int.lt_irrefl _ (Int.ofNat_lt.2 hclosed)
  · intro hnone
    have hbegins : slot.start.date < .last :=
      DateTime.lt_startOf_iff.1 (Int.lt_of_lt_of_le slot.start_lt_stop hlast)
    refine runsOnUntil_iff.2 ⟨hbegins, hlast, fun d hd hmidnight => ?_⟩
    have hin : slot.contains (.startOf d) :=
      TimeSlot.contains_iff.2 ⟨Int.le_of_lt (DateTime.lt_startOf_iff.2 hd), hmidnight⟩
    refine isAroundTheClock_of_isOpenAt hnone (hopen _ hin fun hleap => ?_)
    cases hleap

/-- Hours cover a slot just if they are open at each of its instants, as far as the calendar goes,
and the walk that finds it out ends within the dates of the slot. -/
theorem covers_iff_open_throughout (hmade : h.IsMade) (slot : TimeSlot) :
    (h.covers slot = true → ∀ t, slot.contains t = true → h.IsOpenAt t) ∧
      (slot.stop ≤ .startOf .last →
        (∀ t, slot.contains t = true →
          (t.time.isLeap = true → t = slot.start ∨ h.closes = some t.time) → h.IsOpenAt t) →
        h.covers slot = true) ∧
      ∃ passes ≤ (slot.stop.date.day - slot.start.date.day).toNat + 1,
        h.Walks slot.stop slot.start.date passes (h.runsOnUntil slot.stop slot.start.date) :=
  ⟨fun hcovers _ ht => isOpenAt_of_covers hmade hcovers ht, covers_of_isOpenAt,
    h.exists_walks slot.stop slot.start.date⟩

def weekdays : OperatingHours :=
  ⟨.midnight, none, [.monday, .tuesday, .wednesday, .thursday, .friday]⟩

def thursdayNight : TimeSlot :=
  ⟨⟨⟨739992, by decide, by decide⟩, ⟨79200, 0, by decide, by decide⟩⟩,
    ⟨⟨739993, by decide, by decide⟩, ⟨7200, 0, by decide, by decide⟩⟩, by decide⟩

theorem open_thursdayNight :
    weekdays.IsMade ∧ weekdays.covers thursdayNight = true ∧
      thursdayNight.stop ≤ .startOf .last ∧
      (∀ t, thursdayNight.contains t = true → weekdays.IsOpenAt t) ∧
      ∃ passes ≤ 2, weekdays.Walks thursdayNight.stop thursdayNight.start.date passes true := by
  have hmade : weekdays.IsMade :=
    .inl ⟨.midnight, none, [.friday, .monday, .tuesday, .wednesday, .thursday, .monday], rfl⟩
  obtain ⟨hopen, hcovers, passes, hle, hwalk⟩ := covers_iff_open_throughout hmade thursdayNight
  have hcovered : weekdays.covers thursdayNight = true := by decide +kernel
  have hthroughout := hopen hcovered
  have hlast : thursdayNight.stop ≤ .startOf .last := DateTime.le_startOf (by decide)
  have hruns : weekdays.runsOnUntil thursdayNight.stop thursdayNight.start.date = true := by
    decide +kernel
  rw [hruns] at hwalk
  exact ⟨hmade, hcovers hlast fun t ht _ => hthroughout t ht, hlast, hthroughout,
    passes, hle, hwalk⟩

end OperatingHours
end ClubBooking
