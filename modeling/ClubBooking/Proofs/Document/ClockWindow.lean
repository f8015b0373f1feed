import ClubBooking.Proofs.Calendar.ClockText
import ClubBooking.Proofs.Document.Acceptance
import ClubBooking.Proofs.Document.Window

/-! Windows as they are written. The checks of a document and the reading of its times accept the
same texts, so a window is built just if both of its texts tell a time, the first one the earlier;
and what is built from it keeps to the days and the times that are written. -/

namespace ClubBooking.WindowRule
open TimeOfDay (ofClockText IsClockText)
variable {w : WindowRule} {opens closes : TimeOfDay}

theorem timeProblems_eq_nil_iff {field s : String} :
    timeProblems field s = [] ↔ ∃ t, ofClockText s = .ok t := by
  unfold timeProblems
  cases ofClockText s <;> simp

theorem problems_eq_nil_iff :
    w.problems = [] ↔ (∃ t, ofClockText w.stop = .ok t) ∧ ∃ t, ofClockText w.start = .ok t := by
  simp only [problems, List.append_eq_nil_iff, timeProblems_eq_nil_iff]

theorem build_of_hours (hours : HourWindow) (hstart : ofClockText w.start = .ok hours.start)
    (hstop : ofClockText w.stop = .ok hours.stop) :
    w.build = .ok ⟨w.deny, w.days, some hours⟩ := by
  have hproblems : w.problems = [] := problems_eq_nil_iff.2 ⟨⟨_, hstop⟩, _, hstart⟩
  refine bind_eq_ok_iff.2 ⟨(), Problems.check_eq_ok_iff.2 hproblems, ?_⟩
  refine bind_eq_ok_iff.2 ⟨_, hstart, bind_eq_ok_iff.2 ⟨_, hstop, ?_⟩⟩
  exact bind_eq_ok_iff.2 ⟨hours, HourWindow.make_eq_ok_iff.2 ⟨rfl, rfl⟩, rfl⟩

theorem exists_build_iff :
    (∃ r, w.build = .ok r) ↔ ∃ opens closes : TimeOfDay,
      opens.IsToldBy w.start ∧ closes.IsToldBy w.stop ∧ opens < closes := by
  simp only [← TimeOfDay.ofClockText_eq_ok_iff]
  constructor
  · rintro ⟨r, h⟩
    obtain ⟨hours, -, hstart, hstop⟩ := exists_hours_of_build h
    exact ⟨hours.start, hours.stop, hstart, hstop, hours.start_lt_stop⟩
  · rintro ⟨opens, closes, hstart, hstop, hlt⟩
    exact ⟨_, build_of_hours ⟨opens, closes, hlt⟩ hstart hstop⟩

theorem includes_iff (hopens : opens.IsToldBy w.start) (hcloses : closes.IsToldBy w.stop)
    (t : DateTime) : w.Includes t ↔
      (w.days = [] ∨ t.date.weekday ∈ w.days) ∧ opens ≤ t.time ∧ t.time < closes := by
  rw [← TimeOfDay.ofClockText_eq_ok_iff] at hopens hcloses
  simp [Includes, hopens, hcloses]

/-- A text is read just if it tells a time, and as that time, and the checks accept the same texts.
A window is built just if its texts tell two times, the first one the earlier, and what is built
accepts a start just if its lying within the window differs from the window's being denied. -/
theorem restricts_as_told :
    (∀ s t, ofClockText s = .ok t ↔ t.IsToldBy s) ∧
      (∀ s, (∃ t, ofClockText s = .ok t) ↔ ∃ hour minute, IsClockText s hour minute) ∧
      (∀ field s, timeProblems field s = [] ↔ ∃ hour minute, IsClockText s hour minute) ∧
      ∀ w : WindowRule,
        ((∃ r, w.build = .ok r) ↔ ∃ opens closes : TimeOfDay,
          opens.IsToldBy w.start ∧ closes.IsToldBy w.stop ∧ opens < closes) ∧
        ∀ r opens closes, w.build = .ok r → opens.IsToldBy w.start → closes.IsToldBy w.stop →
          ∀ s : Snapshot, r.holds s = true ↔
            ¬ (((w.days = [] ∨ s.slot.start.date.weekday ∈ w.days) ∧
              opens ≤ s.slot.start.time ∧ s.slot.start.time < closes) ↔ w.deny = true) := by
  refine ⟨fun s t => TimeOfDay.ofClockText_eq_ok_iff, fun s => TimeOfDay.exists_ofClockText_iff,
    fun field s => timeProblems_eq_nil_iff.trans TimeOfDay.exists_ofClockText_iff,
    fun w => ⟨exists_build_iff, fun r opens closes hr hopens hcloses s => ?_⟩⟩
  rw [holds_of_build hr, Refuses, includes_iff hopens hcloses]

def wednesdays : WindowRule := ⟨"+09:0030", "0018:+0", [.wednesday], true⟩

theorem restricts_wednesdays :
    ∃ (r : StartRestriction) (opens closes : TimeOfDay), wednesdays.build = .ok r ∧
      opens.IsToldBy "+09:0030" ∧ closes.IsToldBy "0018:+0" ∧ r.holds .visit = false := by
  obtain ⟨-, -, -, hwindows⟩ := restricts_as_told
  obtain ⟨hbuild, hholds⟩ := hwindows wednesdays
  have hopens : (⟨34200, 0, by decide, by decide⟩ : TimeOfDay).IsToldBy "+09:0030" :=
    ⟨9, 30, ⟨⟨['+', '0', '9'], ['0', '0', '3', '0'], rfl, .signed (by decide), .bare (by decide)⟩,
      by decide, by decide⟩, rfl, rfl, rfl, rfl⟩
  have hcloses : (⟨64800, 0, by decide, by decide⟩ : TimeOfDay).IsToldBy "0018:+0" :=
    ⟨18, 0, ⟨⟨['0', '0', '1', '8'], ['+', '0'], rfl, .bare (by decide), .signed (by decide)⟩,
      by decide, by decide⟩, rfl, rfl, rfl, rfl⟩
  obtain ⟨r, hr⟩ := hbuild.2 ⟨_, _, hopens, hcloses, by decide⟩
  refine ⟨r, _, _, hr, hopens, hcloses, eq_false_of_ne_true fun hyes => ?_⟩
  refine (hholds r _ _ hr hopens hcloses .visit).1 hyes ?_
  decide

end ClubBooking.WindowRule
