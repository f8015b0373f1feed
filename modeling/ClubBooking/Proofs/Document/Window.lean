import ClubBooking.Document.EligibilityPlan
import ClubBooking.Proofs.Eligibility.Reasons

/-! The window of an eligibility plan. It becomes one more of the plan's conditions, so the mode
says what it weighs: where all conditions must hold, no start is allowed that the window refuses;
where one is enough, such a start is denied just if it would be denied without the window. -/

namespace ClubBooking

namespace WindowRule
variable {w : WindowRule} {r : StartRestriction}

def Includes (w : WindowRule) (t : DateTime) : Prop :=
  (w.days = [] ∨ t.date.weekday ∈ w.days) ∧
    ∃ opens closes, TimeOfDay.ofClockText w.start = .ok opens ∧
      TimeOfDay.ofClockText w.stop = .ok closes ∧ opens ≤ t.time ∧ t.time < closes

/-- The start is kept out: it lies in a window that denies, or outside of one that does not. -/
def Refuses (w : WindowRule) (t : DateTime) : Prop := w.Includes t ↔ w.deny = true

theorem exists_hours_of_build (h : w.build = .ok r) :
    ∃ hours, r = ⟨w.deny, w.days, some hours⟩ ∧
      TimeOfDay.ofClockText w.start = .ok hours.start ∧
      TimeOfDay.ofClockText w.stop = .ok hours.stop := by
  obtain ⟨-, -, h⟩ := bind_eq_ok_iff.1 h
  obtain ⟨opens, hopens, h⟩ := bind_eq_ok_iff.1 h
  obtain ⟨closes, hcloses, h⟩ := bind_eq_ok_iff.1 h
  obtain ⟨hours, hhours, h⟩ := bind_eq_ok_iff.1 h
  cases h
  obtain ⟨rfl, rfl⟩ := HourWindow.make_eq_ok_iff.1 hhours
  exact ⟨hours, rfl, hopens, hcloses⟩

theorem matchesSlot_of_build (h : w.build = .ok r) (slot : TimeSlot) :
    r.matchesSlot slot = true ↔ w.Includes slot.start := by
  obtain ⟨hours, rfl, hopens, hcloses⟩ := exists_hours_of_build h
  rw [StartRestriction.matchesSlot, Bool.and_eq_true, Bool.or_eq_true, List.isEmpty_iff,
    List.contains_iff_mem, Option.all_some, HourWindow.contains_iff, Includes]
  refine and_congr_right fun _ => ⟨fun hin => ⟨_, _, hopens, hcloses, hin⟩, ?_⟩
  rintro ⟨opens, closes, hopens', hcloses', hin⟩
  cases hopens.symm.trans hopens'
  cases hcloses.symm.trans hcloses'
  exact hin

theorem holds_of_build (h : w.build = .ok r) (s : Snapshot) :
    r.holds s = true ↔ ¬ w.Refuses s.slot.start := by
  have hdeny : r.deny = w.deny := by
    obtain ⟨hours, rfl, -⟩ := exists_hours_of_build h
    rfl
  rw [StartRestriction.holds, Refuses, ← matchesSlot_of_build h, hdeny, bne_iff_ne, ne_eq,
    Bool.eq_iff_iff]

end WindowRule

theorem Assembly.build_of_addCondition {a : Assembly} {c : Condition} {p : EligibilityPolicy}
    (hne : a.entries ≠ []) (h : (a.addCondition c).build = .ok p) :
    ∃ bare, a.build = .ok bare ∧ bare.mode = a.mode ∧ p.mode = a.mode ∧
      p.conditions = bare.conditions ++ [c] := by
  obtain ⟨built, hbuilt, h⟩ := bind_eq_ok_iff.1 h
  obtain ⟨hink, -, hmode, rfl⟩ := EligibilityPolicy.make_eq_ok_iff.1 h
  rw [addCondition, List.mapM_append] at hbuilt
  obtain ⟨cs, hcs, hbuilt⟩ := bind_eq_ok_iff.1 hbuilt
  obtain ⟨last, hlast, hbuilt⟩ := bind_eq_ok_iff.1 hbuilt
  cases hlast
  cases cs with
  | nil => exact absurd (List.forall₂_nil_right_iff.1 (mapM_eq_ok_iff.1 hcs)) hne
  | cons d ds =>
    refine ⟨⟨Text.trim a.name, a.mode, d, ds⟩, bind_eq_ok_iff.2 ⟨_, hcs, ?_⟩, rfl, hmode, ?_⟩
    · exact EligibilityPolicy.make_eq_ok_iff.2 ⟨hink, rfl, rfl, rfl⟩
    · exact (Except.ok.inj hbuilt).symm

namespace EligibilityPlan
variable {p : EligibilityPlan} {w : WindowRule} {policy : EligibilityPolicy}

def withoutWindow (p : EligibilityPlan) : EligibilityPlan := { p with window := none }

theorem entries_assembly_ne_nil (h : ¬ (p.level = .custom ∧ p.rules.isEmpty)) :
    p.assembly.entries ≠ [] := by
  unfold assembly
  cases hrules : p.rules with
  | cons r rs => simp [Assembly.withMode, Assembly.addRules]
  | nil =>
    rw [hrules] at h
    cases hlevel : p.level <;>
      simp_all [Assembly.withMode, Assembly.ofLevel, Level.preset?, RuleName.fullSet]

theorem exists_bare_of_build (hw : p.window = some w) (h : p.build = .ok policy) :
    ∃ bare r, p.withoutWindow.build = .ok bare ∧ w.build = .ok r ∧ bare.mode = p.mode ∧
      policy.mode = p.mode ∧ policy.conditions = bare.conditions ++ [.rule (.restriction r)] := by
  unfold build check at h
  obtain ⟨⟨⟩, hcheck, h⟩ := bind_eq_ok_iff.1 h
  obtain ⟨⟨⟩, hname, -⟩ := bind_eq_ok_iff.1 hcheck
  by_cases hrules : p.level = .custom ∧ p.rules.isEmpty
  · rw [if_pos hrules] at h
    cases h
  simp only [if_neg hrules, hw] at h
  obtain ⟨r, hr, h⟩ := bind_eq_ok_iff.1 h
  obtain ⟨bare, hbare, hmode, hmode', hconditions⟩ :=
    Assembly.build_of_addCondition (entries_assembly_ne_nil hrules) h
  refine ⟨bare, r, ?_, hr, hmode, hmode', hconditions⟩
  unfold build check withoutWindow
  refine bind_eq_ok_iff.2 ⟨(), bind_eq_ok_iff.2 ⟨(), hname, rfl⟩, ?_⟩
  rw [if_neg hrules]
  exact hbare

/-- A start that the window refuses is denied exactly if all conditions of the plan must hold, or if
the plan without its window denies the request as well. -/
theorem denied_iff_of_refused (hw : p.window = some w) (h : p.build = .ok policy) :
    ∃ bare, p.withoutWindow.build = .ok bare ∧ ∀ s : Snapshot, w.Refuses s.slot.start →
      (policy.allows s = false ↔ p.mode = .all ∨ bare.allows s = false) := by
  obtain ⟨bare, r, hbare, hr, hmode, hmode', hconditions⟩ := exists_bare_of_build hw h
  refine ⟨bare, hbare, fun s hrefused => ?_⟩
  have hno : r.holds s = false :=
    eq_false_of_ne_true fun hyes => (WindowRule.holds_of_build hr s).1 hyes hrefused
  have hlast (mode : CombinationMode) :
      mode.decides (Condition.holds s) [.rule (.restriction r)] = false := by
    cases mode <;> simp [CombinationMode.decides, Condition.holds, Rule.holds, hno]
  rw [policy.allows_eq_decides, bare.allows_eq_decides, hconditions,
    CombinationMode.decides_append, hlast, hmode, hmode']
  cases p.mode <;> simp

def afternoons (mode : CombinationMode) : EligibilityPlan :=
  ⟨"afternoons", .custom, [.activeMember], mode, some ⟨"12:00", "18:00", [], false⟩⟩

theorem refuses_visit (mode : CombinationMode) :
    ∃ w, (afternoons mode).window = some w ∧ w.Refuses Snapshot.visit.slot.start := by
  refine ⟨_, rfl, iff_of_false ?_ Bool.false_ne_true⟩
  rintro ⟨-, opens, closes, hopens, -, hle, -⟩
  have hnoon : TimeOfDay.ofClockText "12:00" = .ok ⟨43200, 0, by decide, by decide⟩ := by cbv
  cases hnoon.symm.trans hopens
  exact absurd hle (by decide)

theorem denied_visit_afternoons :
    ∃ w policy, (afternoons .all).window = some w ∧ (afternoons .all).build = .ok policy ∧
      w.Refuses Snapshot.visit.slot.start ∧ policy.allows .visit = false := by
  obtain ⟨w, hw, hrefused⟩ := refuses_visit .all
  obtain ⟨policy, h⟩ : ∃ policy, (afternoons .all).build = .ok policy := ⟨_, by cbv⟩
  obtain ⟨bare, -, hdenied⟩ := denied_iff_of_refused hw h
  exact ⟨w, policy, hw, h, hrefused, (hdenied .visit hrefused).2 (.inl rfl)⟩

/-- One condition is enough, and the member is active: the morning is allowed. -/
theorem allowed_visit_afternoons :
    ∃ w policy, (afternoons .any).window = some w ∧ (afternoons .any).build = .ok policy ∧
      w.Refuses Snapshot.visit.slot.start ∧ policy.allows .visit = true := by
  obtain ⟨w, hw, hrefused⟩ := refuses_visit .any
  obtain ⟨policy, h, hallowed⟩ :
      ∃ policy, (afternoons .any).build = .ok policy ∧ policy.allows .visit = true :=
    ⟨_, by cbv, rfl⟩
  exact ⟨w, policy, hw, h, hrefused, hallowed⟩

end EligibilityPlan
end ClubBooking
