import ClubBooking.Eligibility.Policy
import ClubBooking.Proofs.Refusal

/-! Verdicts and reasons go together. Every rule and every tree of conditions has a reason exactly
where it does not hold, so a denial lists the reasons of the conditions that fail and nothing else,
and the tree that the conditions are put together to says the same in one line. -/

namespace ClubBooking

def Explained (verdict : Bool) (reason : Option String) : Prop :=
  verdict = true ∧ reason = none ∨ verdict = false ∧ ∃ text, reason = some text ∧ text ≠ ""

namespace Explained
variable {ok verdict : Bool} {fails : Prop} [Decidable fails] {text : String}
  {reason : Option String}

theorem of_eq_none_iff (hok : ok = true ↔ ¬ fails) (htext : text ≠ "") :
    Explained ok (if fails then some text else none) := by
  by_cases h : fails
  · exact .inr ⟨by simpa [h] using hok, text, if_pos h, htext⟩
  · exact .inl ⟨hok.2 h, if_neg h⟩

theorem guard (hok : ok = true ↔ ¬ fails) (htext : text ≠ "") (h : Explained verdict reason) :
    Explained (ok && verdict) (if fails then some text else reason) := by
  by_cases hf : fails
  · have hno : ok = false := by simpa [hf] using hok
    exact .inr ⟨by rw [hno, Bool.false_and], text, if_pos hf, htext⟩
  · rw [hok.2 hf, Bool.true_and, if_neg hf]
    exact h

theorem of_map {α : Type} (found : Option α) {explain : α → String}
    (htext : ∀ a, explain a ≠ "") : Explained found.isNone (found.map explain) := by
  cases found with
  | none => exact .inl ⟨rfl, rfl⟩
  | some a => exact .inr ⟨rfl, explain a, rfl, htext a⟩

theorem reason_eq_none_iff (h : Explained verdict reason) : reason = none ↔ verdict = true := by
  rcases h with ⟨rfl, rfl⟩ | ⟨rfl, text, rfl, -⟩ <;> simp

theorem ne_empty (h : Explained verdict reason) (ht : reason = some text) : text ≠ "" := by
  rcases h with ⟨-, hnone⟩ | ⟨-, t, hsome, hne⟩
  · cases hnone.symm.trans ht
  · cases hsome.symm.trans ht
    exact hne

end Explained

theorem ActiveMember.explained (r : ActiveMember) (s : Snapshot) :
    Explained (r.holds s) (r.reason? s) := by
  refine .guard (by simp) (by simp) ?_
  exact .of_eq_none_iff (by simp) (by simp)

theorem Privilege.explained (r : Privilege) (s : Snapshot) :
    Explained (r.holds s) (r.reason? s) := by
  rw [holds, Bool.and_assoc]
  refine .guard (by simp) (by simp) (.guard (by simp) (by simp) ?_)
  exact .of_eq_none_iff (by simp) (by simp)

theorem CapacityRule.explained (r : CapacityRule) (s : Snapshot) :
    Explained (r.holds s) (r.reason? s) := by
  refine .guard (by simp) (by simp) ?_
  exact .of_eq_none_iff (by simp) (by simp)

theorem SimultaneousLimit.explained (r : SimultaneousLimit) (s : Snapshot) :
    Explained (r.holds s) (r.reason? s) :=
  .of_eq_none_iff (by simp [holds]) (by simp)

theorem AdvanceLimit.explained (r : AdvanceLimit) (s : Snapshot) :
    Explained (r.holds s) (r.reason? s) :=
  .of_eq_none_iff (by simp [holds]) (by simp)

theorem BookingTime.explain_ne_empty (r : BookingTime) (s : Snapshot) (v : TimeViolation) :
    r.explain s v ≠ "" := by
  unfold explain
  cases v with
  | tooSoon =>
    show (if r.leadMinutes = 0 then _ else _) ≠ ""
    split <;> simp
  | _ => simp

theorem BookingTime.explained (r : BookingTime) (s : Snapshot) :
    Explained (r.holds s) (r.reason? s) :=
  .of_map (r.violation? s) (r.explain_ne_empty s)

theorem StartRestriction.explained (r : StartRestriction) (s : Snapshot) :
    Explained (r.holds s) (r.reason? s) := by
  unfold reason?
  cases h : r.holds s with
  | true => exact .inl ⟨rfl, rfl⟩
  | false =>
    refine .inr ⟨rfl, _, rfl, ?_⟩
    cases r.deny <;> simp

theorem Rule.explained (r : Rule) (s : Snapshot) : Explained (r.holds s) (r.reason? s) := by
  cases r with
  | activeMember r => exact r.explained s
  | privilege r => exact r.explained s
  | capacity r => exact r.explained s
  | bookingTime r => exact r.explained s
  | simultaneous r => exact r.explained s
  | advance r => exact r.explained s
  | restriction r => exact r.explained s

namespace Condition

theorem explained (c : Condition) (s : Snapshot) : Explained (c.holds s) (c.reason? s) := by
  induction c with
  | rule r => exact r.explained s
  | test d accepts =>
    unfold holds reason?
    cases accepts s with
    | true => exact .inl ⟨rfl, rfl⟩
    | false => exact .inr ⟨rfl, _, rfl, by simp⟩
  | and l r hl hr =>
    rw [holds, reason?]
    rcases hl with ⟨hl, hlr⟩ | ⟨hl, left, hlr, hne⟩ <;> rw [hl, hlr]
    · rw [Bool.true_and, joined]
      exact hr
    · rcases hr with ⟨-, hrr⟩ | ⟨-, right, hrr, -⟩ <;> rw [hrr]
      · exact .inr ⟨rfl, left, rfl, hne⟩
      · exact .inr ⟨rfl, _, rfl, by simp [hne]⟩
  | or l r hl hr =>
    rw [holds, reason?]
    rcases hl with ⟨hl, -⟩ | ⟨hl, left, hlr, hne⟩
    · exact .inl (by simp [hl])
    rcases hr with ⟨hr, -⟩ | ⟨hr, right, hrr, -⟩
    · exact .inl (by simp [hr])
    refine .inr ⟨by rw [hl, hr]; rfl, left ++ " and " ++ right, ?_, by simp [hne]⟩
    rw [hl, hr, hlr, hrr]
    rfl
  | not c hc =>
    rw [holds, reason?]
    cases c.holds s with
    | true => exact .inr ⟨rfl, _, rfl, by simp⟩
    | false => exact .inl ⟨rfl, rfl⟩

theorem map_some_filterMap_reason? (s : Snapshot) (cs : List Condition) :
    (cs.filterMap (·.reason? s)).map some = (cs.filter (!·.holds s)).map (·.reason? s) := by
  induction cs with
  | nil => rfl
  | cons c cs ih =>
    rcases c.explained s with ⟨hc, hr⟩ | ⟨hc, text, hr, -⟩
    · rw [List.filterMap_cons_none hr, List.filter_cons_of_neg (by simp [hc]), ih]
    · rw [List.filterMap_cons_some hr, List.filter_cons_of_pos (by simp [hc]), List.map_cons,
        List.map_cons, ih, hr]

def joinAll (separator : String) : List String → Option String
  | [] => none
  | ts => some (separator.intercalate ts)

theorem joinAll_of_ne_nil {ts : List String} (separator : String) (h : ts ≠ []) :
    joinAll separator ts = some (separator.intercalate ts) := by
  cases ts with
  | nil => exact absurd rfl h
  | cons t ts => rfl

theorem joined_joinAll (separator : String) (ts : List String) (o : Option String) :
    joined separator (joinAll separator ts) o = joinAll separator (ts ++ o.toList) := by
  cases ts with
  | nil => cases o <;> simp [joinAll, joined]
  | cons t ts =>
    cases o with
    | none => simp [joinAll, joined]
    | some u =>
      rw [Option.toList_some, joinAll_of_ne_nil separator (by simp),
        joinAll_of_ne_nil separator (by simp),
        String.intercalate_append_of_ne_nil (by simp) (by simp), String.intercalate_singleton]
      rfl

theorem reason?_foldl_and (s : Snapshot) (cs : List Condition) {c : Condition} {ts : List String}
    (hc : c.reason? s = joinAll "; " ts) :
    (cs.foldl and c).reason? s = joinAll "; " (ts ++ cs.filterMap (·.reason? s)) := by
  induction cs generalizing c ts with
  | nil => simpa using hc
  | cons d ds ih =>
    have hcd : (and c d).reason? s = joinAll "; " (ts ++ (d.reason? s).toList) := by
      rw [reason?, hc, joined_joinAll]
    rw [List.foldl_cons, ih hcd, List.append_assoc]
    cases hd : d.reason? s <;> simp [hd]

theorem reason?_foldl_or (s : Snapshot) (cs : List Condition) {c : Condition} {ts : List String}
    (hc : c.reason? s = joinAll " and " ts) (hno : c.holds s = false)
    (hcs : ∀ d ∈ cs, d.holds s = false) :
    (cs.foldl or c).reason? s = joinAll " and " (ts ++ cs.filterMap (·.reason? s)) := by
  induction cs generalizing c ts with
  | nil => simpa using hc
  | cons d ds ih =>
    have hd := hcs d (List.mem_cons_self ..)
    obtain ⟨text, htext, -⟩ : ∃ text, d.reason? s = some text ∧ text ≠ "" := by
      rcases d.explained s with ⟨hyes, -⟩ | ⟨-, h⟩
      · cases hyes.symm.trans hd
      · exact h
    have hcd : (or c d).reason? s = joinAll " and " (ts ++ [text]) := by
      have hne : ts ++ [text] ≠ [] := by simp
      rw [reason?, hno, hd, hc, htext, joined_joinAll, Option.toList_some,
        joinAll_of_ne_nil " and " hne]
      rfl
    rw [List.foldl_cons, ih hcd (by rw [holds, hno, hd]; rfl)
      fun e he => hcs e (List.mem_cons_of_mem _ he), List.filterMap_cons_some htext,
      List.append_assoc]
    rfl

end Condition

namespace CombinationMode

def decides {α : Type} (m : CombinationMode) (passes : α → Bool) (as : List α) : Bool :=
  match m with
  | all => as.all passes
  | any => as.any passes

def chain : CombinationMode → List Condition → Except Fault Condition
  | all => Condition.allOf
  | any => Condition.anyOf

def separator : CombinationMode → String
  | all => "; "
  | any => " and "

theorem holds_chain {mode : CombinationMode} {cs : List Condition} {tree : Condition} (s : Snapshot)
    (h : mode.chain cs = .ok tree) : tree.holds s = mode.decides (·.holds s) cs := by
  cases mode with
  | all => exact Condition.holds_allOf h
  | any => exact Condition.holds_anyOf h

theorem exists_chain (mode : CombinationMode) (c : Condition) (cs : List Condition) :
    ∃ tree, mode.chain (c :: cs) = .ok tree := by
  cases mode with
  | all => exact ⟨_, rfl⟩
  | any => exact ⟨_, rfl⟩

theorem decides_append {α : Type} (mode : CombinationMode) (passes : α → Bool) (as bs : List α) :
    mode.decides passes (as ++ bs) =
      match mode with
      | all => mode.decides passes as && mode.decides passes bs
      | any => mode.decides passes as || mode.decides passes bs := by
  cases mode with
  | all => exact List.all_append
  | any => exact List.any_append

end CombinationMode

/-- Every tree of conditions, however deep, has no reason exactly where it holds, and no reason is
empty. Some conditions can always be put together to such a tree, which has no reason exactly where
all of them hold, or one of them. -/
theorem Condition.reason?_eq_none_iff (s : Snapshot) :
    (∀ c : Condition, (c.reason? s = none ↔ c.holds s = true) ∧ c.reason? s ≠ some "") ∧
    ∀ (mode : CombinationMode) (c : Condition) (cs : List Condition),
      ∃ tree, mode.chain (c :: cs) = .ok tree ∧
        (tree.reason? s = none ↔ mode.decides (·.holds s) (c :: cs) = true) ∧
        tree.reason? s ≠ some "" := by
  have hcoherent (c : Condition) :
      (c.reason? s = none ↔ c.holds s = true) ∧ c.reason? s ≠ some "" :=
    ⟨(c.explained s).reason_eq_none_iff, fun hempty => (c.explained s).ne_empty hempty rfl⟩
  refine ⟨hcoherent, fun mode c cs => ?_⟩
  obtain ⟨tree, htree⟩ := mode.exists_chain c cs
  obtain ⟨hnone, hne⟩ := hcoherent tree
  exact ⟨tree, htree, by rw [hnone, CombinationMode.holds_chain s htree], hne⟩

namespace EligibilityPolicy
variable {p : EligibilityPolicy} {s : Snapshot}

theorem make_eq_ok_iff {name : String} {cs : List Condition} {mode : CombinationMode} :
    make name cs mode = .ok p ↔
      Text.trim name ≠ "" ∧ p.name = Text.trim name ∧ p.mode = mode ∧ p.conditions = cs := by
  unfold make
  rw [bind_eq_ok_iff]
  constructor
  · rintro ⟨n, hn, h⟩
    obtain ⟨hink, rfl⟩ := nonBlank_eq_ok_iff.1 hn
    cases cs with
    | nil => cases h
    | cons c cs =>
      cases h
      exact ⟨hink, rfl, rfl, rfl⟩
  · rintro ⟨hink, hname, hmode, rfl⟩
    refine ⟨p.name, nonBlank_eq_ok_iff.2 ⟨hink, hname⟩, ?_⟩
    rw [← hmode]
    rfl

theorem allows_eq_decides (p : EligibilityPolicy) (s : Snapshot) :
    p.allows s = p.mode.decides (·.holds s) p.conditions := by
  cases h : p.mode with
  | all => exact allows_eq_all h s
  | any => exact allows_eq_any h s

theorem tree_eq_chain (p : EligibilityPolicy) : p.mode.chain p.conditions = .ok p.tree := by
  unfold tree
  cases p.mode <;> rfl

theorem reasons_ne_nil (h : p.allows s = false) : p.reasons s ≠ [] := by
  have hsome := Condition.map_some_filterMap_reason? s p.conditions
  intro hnil
  rw [reasons] at hnil
  rw [hnil, List.map_nil, eq_comm, List.map_eq_nil_iff, List.filter_eq_nil_iff] at hsome
  -- without reasons all conditions hold, and neither mode denies then
  have hall : ∀ c ∈ p.conditions, c.holds s = true := fun c hc => by simpa using hsome c hc
  rw [allows_eq_decides] at h
  cases hm : p.mode with
  | all =>
    rw [hm, CombinationMode.decides, List.all_eq_true.2 hall] at h
    cases h
  | any =>
    rw [hm, CombinationMode.decides, List.any_eq_false] at h
    exact h p.first (List.mem_cons_self ..) (hall p.first (List.mem_cons_self ..))

theorem reasons_evaluate (p : EligibilityPolicy) (s : Snapshot) :
    (p.evaluate s).reasons = if p.allows s then [] else p.reasons s := by
  unfold evaluate
  split
  · rfl
  · next h =>
    have hne := reasons_ne_nil (eq_false_of_ne_true h)
    split
    · next hnil => exact absurd hnil hne
    · rfl

theorem reason?_tree (h : p.allows s = false) :
    p.tree.reason? s = some (p.mode.separator.intercalate (p.reasons s)) := by
  have hfirst (separator : String) :
      p.first.reason? s = Condition.joinAll separator (p.first.reason? s).toList := by
    cases p.first.reason? s <;> simp [Condition.joinAll]
  have hreasons : (p.first.reason? s).toList ++ p.others.filterMap (·.reason? s) = p.reasons s := by
    rw [reasons, conditions]
    cases hr : p.first.reason? s <;> simp [hr]
  rw [← Condition.joinAll_of_ne_nil _ (reasons_ne_nil h), ← hreasons]
  unfold tree
  cases hm : p.mode with
  | all => exact Condition.reason?_foldl_and s p.others (hfirst "; ")
  | any =>
    rw [allows_eq_any hm, List.any_eq_false] at h
    have hno : ∀ c ∈ p.conditions, c.holds s = false := fun c hc => eq_false_of_ne_true (h c hc)
    exact Condition.reason?_foldl_or s p.others (hfirst " and ")
      (hno p.first (List.mem_cons_self ..)) fun d hd => hno d (List.mem_cons_of_mem _ hd)

theorem violation_ne_empty (p : EligibilityPolicy) (s : Snapshot) : p.violation s ≠ "" := by
  unfold violation Decision.summary
  rw [allowed_evaluate, reasons_evaluate]
  cases h : p.allows s with
  | true => simp
  | false =>
    have hne := reasons_ne_nil h
    simp only [Bool.false_eq_true, if_false]
    cases hr : p.reasons s with
    | nil => exact absurd hr hne
    | cons t ts =>
      have ht : t ∈ p.conditions.filterMap (·.reason? s) := by
        rw [reasons] at hr
        simp [hr]
      obtain ⟨c, -, hc⟩ := List.mem_filterMap.1 ht
      have htext := (c.explained s).ne_empty hc
      cases ts with
      | nil => simpa using htext
      | cons u us => simp [htext]

/-- A denial is explained by the reasons of the conditions that fail, all of them and in order, and
the conditions put together to one tree give the same reasons in one line. -/
theorem evaluate_explains {name : String} (hname : Text.trim name ≠ "") (c : Condition)
    (cs : List Condition) (mode : CombinationMode) (s : Snapshot) :
    ∃ p tree, make name (c :: cs) mode = .ok p ∧ mode.chain (c :: cs) = .ok tree ∧
      (p.evaluate s).allowed = mode.decides (·.holds s) (c :: cs) ∧
      ((p.evaluate s).reasons = [] ↔ (p.evaluate s).allowed = true) ∧
      ((p.evaluate s).allowed = false →
        (p.evaluate s).reasons.map some =
          ((c :: cs).filter (!·.holds s)).map (·.reason? s)) ∧
      ((p.evaluate s).allowed = false → mode = .any →
        (p.evaluate s).reasons.length = (c :: cs).length) ∧
      p.violation s ≠ "" ∧
      tree.reason? s =
        if (p.evaluate s).allowed then none
        else some (mode.separator.intercalate (p.evaluate s).reasons) := by
  let p : EligibilityPolicy := ⟨Text.trim name, mode, c, cs⟩
  have hmake : make name (c :: cs) mode = .ok p :=
    bind_eq_ok_iff.2 ⟨_, nonBlank_eq_ok_iff.2 ⟨hname, rfl⟩, rfl⟩
  have hverdict : p.allows s = mode.decides (·.holds s) (c :: cs) := p.allows_eq_decides s
  have hmap : (p.reasons s).map some = ((c :: cs).filter (!·.holds s)).map (·.reason? s) :=
    Condition.map_some_filterMap_reason? s (c :: cs)
  refine ⟨p, p.tree, hmake, p.tree_eq_chain, (p.allowed_evaluate s).trans hverdict, ?_⟩
  rw [allowed_evaluate, reasons_evaluate]
  cases h : p.allows s with
  | true =>
    have htree : p.tree.reason? s = none := (p.tree.explained s).reason_eq_none_iff.2 h
    exact ⟨by simp, by simp, by simp, p.violation_ne_empty s, htree⟩
  | false =>
    refine ⟨by simpa using reasons_ne_nil h, fun _ => hmap, ?_, p.violation_ne_empty s,
      reason?_tree h⟩
    rintro - hany
    rw [hverdict, hany, CombinationMode.decides, List.any_eq_false] at h
    have hlength := congrArg List.length hmap
    rw [List.filter_eq_self.2 fun d hd => by simp [h d hd], List.length_map,
      List.length_map] at hlength
    exact hlength

end EligibilityPolicy

def Snapshot.visit : Snapshot where
  member := ⟨default, "Ada", .active, .standard,
    ⟨⟨739311, by decide, by decide⟩, ⟨739312, by decide, by decide⟩, by decide⟩, default⟩
  plan := ⟨default, "Gold", .ofList [.meetingRoom], 3, 30, .zero, true⟩
  resource := ⟨default, "Room", .meetingRoom, 10, .always, true⟩
  slot := ⟨⟨⟨739312, by decide, by decide⟩, ⟨36000, 0, by decide, by decide⟩⟩,
    ⟨⟨739312, by decide, by decide⟩, ⟨39600, 0, by decide, by decide⟩⟩, by decide⟩
  now := ⟨⟨739311, by decide, by decide⟩, ⟨36000, 0, by decide, by decide⟩⟩
  partySize := 2
  held := []
  occupancy := 5
  enrolled := rfl
  party_ne_zero := by decide
  held_active := by decide

theorem EligibilityPolicy.evaluate_explains_visit :
    ∃ p, make " Desk " [.test "Staff" fun _ => false, .rule (.capacity .full),
        .not (.test "Guests" fun s => s.partySize = 2)] .all = .ok p ∧
      (p.evaluate .visit).reasons.map some =
        [some "Rule not satisfied: Staff", some "Expected not to hold: Guests"] := by
  have hname : Text.trim " Desk " ≠ "" := by decide
  obtain ⟨p, -, hmake, -, hallowed, -, hreasons, -⟩ :=
    evaluate_explains hname (.test "Staff" fun _ => false)
      [.rule (.capacity .full), .not (.test "Guests" fun s => s.partySize = 2)] .all .visit
  exact ⟨p, hmake, hreasons (hallowed.trans rfl)⟩

end ClubBooking
