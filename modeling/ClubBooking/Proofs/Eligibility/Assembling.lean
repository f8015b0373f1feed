import ClubBooking.Document.EligibilityPlan
import ClubBooking.Proofs.Eligibility.Reasons

/-! Policies put together step by step come to a normal form: the entries in the order in which they
were added, built from the profile that was set last, under the mode that was set last. A level is
such a policy, however it is written down. -/

namespace ClubBooking

namespace Assembly

def Step.entries : Step → List AssemblyEntry
  | rule r => [.named r]
  | rules rs => rs.map .named
  | condition c => [.given c]
  | profile _ | mode _ => []

def Step.profile? : Step → Option Profile
  | profile p => some p
  | _ => none

def Step.mode? : Step → Option CombinationMode
  | mode m => some m
  | _ => none

def start (name : String) (level : Option Level) : Assembly := level.elim (empty name) (ofLevel name)

def origin (level : Option Level) : Profile × List RuleName :=
  (level.bind Level.preset?).getD (.standard, [])

def allEntries (level : Option Level) (ss : List Step) : List AssemblyEntry :=
  (origin level).2.map .named ++ ss.flatMap Step.entries

def lastProfile (level : Option Level) (ss : List Step) : Profile :=
  (ss.filterMap Step.profile?).getLast?.getD (origin level).1

def lastMode (ss : List Step) : CombinationMode := (ss.filterMap Step.mode?).getLast?.getD .all

/-- The same entries in the same order, and the same profile and mode set last. -/
structure ComesTo (ss ts : List Step) : Prop where
  entries : ss.flatMap Step.entries = ts.flatMap Step.entries
  profile : (ss.filterMap Step.profile?).getLast? = (ts.filterMap Step.profile?).getLast?
  mode : (ss.filterMap Step.mode?).getLast? = (ts.filterMap Step.mode?).getLast?

variable {a : Assembly} {ss ts : List Step} {level : Option Level} {l : Level} {name : String}
  {profile : Profile} {rules : List RuleName}

theorem step_eq (a : Assembly) (s : Step) :
    a.step s = ⟨a.name, s.profile?.getD a.profile, s.mode?.getD a.mode, a.entries ++ s.entries⟩ := by
  cases s with
  | rule r => rfl
  | rules rs => rfl
  | condition c => rfl
  | profile p => exact congrArg (Assembly.mk a.name p a.mode) (List.append_nil _).symm
  | mode m => exact congrArg (Assembly.mk a.name a.profile m) (List.append_nil _).symm

theorem getD_getLast?_filterMap_cons {α β : Type} (f : α → Option β) (x : α) (xs : List α) (b : β) :
    ((x :: xs).filterMap f).getLast?.getD b = (xs.filterMap f).getLast?.getD ((f x).getD b) := by
  cases hx : f x with
  | none => rw [List.filterMap_cons_none hx, Option.getD_none]
  | some c => rw [List.filterMap_cons_some hx, List.getLast?_cons, Option.getD_some, Option.getD_some]

theorem steps_eq (a : Assembly) (ss : List Step) :
    a.steps ss = ⟨a.name, (ss.filterMap Step.profile?).getLast?.getD a.profile,
      (ss.filterMap Step.mode?).getLast?.getD a.mode, a.entries ++ ss.flatMap Step.entries⟩ := by
  induction ss generalizing a with
  | nil => exact congrArg (Assembly.mk a.name a.profile a.mode) (List.append_nil _).symm
  | cons s ss ih =>
    rw [show a.steps (s :: ss) = (a.step s).steps ss from rfl, ih, step_eq,
      getD_getLast?_filterMap_cons, getD_getLast?_filterMap_cons, List.flatMap_cons,
      List.append_assoc]

theorem ofLevel_eq (h : l.preset? = some (profile, rules)) (name : String) :
    ofLevel name l = ⟨name, profile, .all, rules.map .named⟩ := by
  rw [ofLevel, h]

theorem start_eq (name : String) (level : Option Level) :
    start name level = ⟨name, (origin level).1, .all, (origin level).2.map .named⟩ := by
  cases level with
  | none => rfl
  | some l =>
    cases h : l.preset? with
    | none => simp [start, origin, ofLevel, empty, h]
    | some entry => simp [start, origin, ofLevel, h]

theorem build_steps (name : String) (level : Option Level) (ss : List Step) :
    ((start name level).steps ss).build =
      ((allEntries level ss).mapM (·.build (lastProfile level ss)) >>= fun conditions =>
        EligibilityPolicy.make name conditions (lastMode ss)) := by
  rw [steps_eq, start_eq]
  rfl

theorem ComesTo.build_eq (h : ComesTo ss ts) (name : String) (level : Option Level) :
    ((start name level).steps ss).build = ((start name level).steps ts).build := by
  have hprofile : lastProfile level ss = lastProfile level ts := by
    rw [lastProfile, lastProfile, h.profile]
  have hmode : lastMode ss = lastMode ts := by rw [lastMode, lastMode, h.mode]
  rw [build_steps, build_steps, allEntries, h.entries, hprofile, hmode]
  rfl

theorem mapM_named (p : Profile) (rs : List RuleName) :
    (rs.map AssemblyEntry.named).mapM (·.build p) =
      (rs.mapM (·.build p) >>= fun built => pure (built.map .rule)) := by
  induction rs with
  | nil => rfl
  | cons r rs ih =>
    rw [List.map_cons, List.mapM_cons, List.mapM_cons, ih]
    simp only [AssemblyEntry.build, bind_assoc, pure_bind, List.map_cons]

theorem build_named (name : String) (p : Profile) (rs : List RuleName) :
    build ⟨name, p, .all, rs.map .named⟩ = EligibilityPolicy.ofProfile name p rs := by
  simp only [build, EligibilityPolicy.ofProfile, mapM_named, bind_assoc, pure_bind]

end Assembly

namespace EligibilityPolicy

def named (p : EligibilityPolicy) (name : String) : EligibilityPolicy := { p with name }

theorem make_conditions (p : EligibilityPolicy) (name : String) :
    make name p.conditions p.mode = p.named <$> nonBlank "policy name" name := by
  unfold make
  cases nonBlank "policy name" name <;> rfl

theorem evaluate_named (p : EligibilityPolicy) (name : String) (s : Snapshot) :
    (p.named name).evaluate s = { p.evaluate s with policy := name } := by
  have hallows : (p.named name).allows s = p.allows s := rfl
  have hreasons : (p.named name).reasons s = p.reasons s := rfl
  unfold evaluate
  rw [hallows, hreasons]
  cases h : p.allows s with
  | true => rfl
  | false =>
    cases hr : p.reasons s with
    | nil => exact absurd hr (reasons_ne_nil h)
    | cons t ts => rfl

theorem exists_forLevel {l : Level} {profile : Profile} {rules : List RuleName}
    (h : l.preset? = some (profile, rules)) :
    ∃ policy, forLevel l = .ok policy ∧
      ∀ name, ofProfile name profile rules = policy.named <$> nonBlank "policy name" name := by
  obtain ⟨policy, hpolicy⟩ : ∃ policy, forLevel l = .ok policy := by
    cases l with
    | custom => cases h
    | minimal => exact ⟨_, rfl⟩
    | basic => exact ⟨_, rfl⟩
    | standard => exact ⟨_, rfl⟩
    | strict => exact ⟨_, rfl⟩
  refine ⟨policy, hpolicy, fun name => ?_⟩
  rw [forLevel, h] at hpolicy
  obtain ⟨built, hbuilt, hmake⟩ := bind_eq_ok_iff.1 hpolicy
  obtain ⟨-, -, hmode, hconditions⟩ := make_eq_ok_iff.1 hmake
  rw [ofProfile, hbuilt, ← make_conditions, hmode, hconditions]
  exact pure_bind built _

end EligibilityPolicy

namespace EligibilityPlan
variable {p q : EligibilityPlan} {l : Level} {profile : Profile} {rules : List RuleName}

theorem assembly_eq (h : p.level.preset? = some (profile, rules))
    (hrules : p.rules = rules ∨ p.rules = []) :
    p.assembly = ⟨p.name, profile, p.mode, rules.map .named⟩ := by
  have hprofile : p.level.profile = profile := by rw [Level.profile, h]
  unfold assembly
  split
  · rw [Assembly.ofLevel_eq h]
    rfl
  · next hlisted =>
    obtain rfl : p.rules = rules := hrules.resolve_right fun hnil => hlisted (hnil ▸ rfl)
    rw [hprofile]
    rfl

theorem build_eq (h : p.level.preset? = some (profile, rules)) :
    p.build = p.check >>= fun _ =>
      match p.window with
      | some w => w.build >>= fun r =>
        (p.assembly.addCondition (.rule (.restriction r))).build
      | none => p.assembly.build := by
  have hlevel : ¬ (p.level = .custom ∧ p.rules.isEmpty) := by
    rintro ⟨hcustom, -⟩
    rw [hcustom] at h
    cases h
  exact congrArg (p.check >>= ·) (funext fun _ => if_neg hlevel)

theorem build_congr (h : p.level.preset? = some (profile, rules)) (hlevel : q.level = p.level)
    (hname : q.name = p.name) (hmode : q.mode = p.mode) (hwindow : q.window = p.window)
    (hp : p.rules = rules ∨ p.rules = []) (hq : q.rules = rules ∨ q.rules = []) :
    q.build = p.build := by
  have h' : q.level.preset? = some (profile, rules) := hlevel ▸ h
  have hcheck : q.check = p.check := by
    unfold check problems
    rw [hname, hwindow]
  rw [build_eq h', build_eq h, assembly_eq h' hq, assembly_eq h hp, hcheck, hname, hmode, hwindow]

theorem build_of_level {policy : EligibilityPolicy} (h : p.level.preset? = some (profile, rules))
    (hrules : p.rules = rules ∨ p.rules = []) (hmode : p.mode = .all) (hwindow : p.window = none)
    (hpolicy : ∀ name, EligibilityPolicy.ofProfile name profile rules =
      policy.named <$> nonBlank "policy name" name) :
    p.build = p.check >>= fun _ => policy.named <$> nonBlank "policy name" p.name := by
  rw [build_eq h, hwindow, assembly_eq h hrules, hmode]
  simp only [Assembly.build_named, hpolicy]

end EligibilityPlan

/-- However a policy is put together, it is built from the rules at the start and the entries added,
in this order, with the profile and the mode set last; where those were set makes no difference. So
a plan of a level that has rules may list them or not, and where all conditions must hold it is,
but for its name, the policy of the level. -/
theorem Assembly.build_normalForm :
    (∀ (name : String) (level : Option Level) (ss : List Step),
      ((start name level).steps ss).build =
        ((allEntries level ss).mapM (·.build (lastProfile level ss)) >>= fun conditions =>
          EligibilityPolicy.make name conditions (lastMode ss)) ∧
      ∀ ts, ComesTo ss ts →
        ((start name level).steps ts).build = ((start name level).steps ss).build) ∧
    ∀ (l : Level) (profile : Profile) (rules : List RuleName),
      l.preset? = some (profile, rules) → ∀ p : EligibilityPlan,
        { p with level := l, rules := rules }.build = { p with level := l, rules := [] }.build ∧
        ∃ policy, EligibilityPolicy.forLevel l = .ok policy ∧
          (p.mode = .all → p.window = none →
            { p with level := l, rules := [] }.build =
              (p.check >>= fun _ => policy.named <$> nonBlank "policy name" p.name)) ∧
          ∀ (name : String) (s : Snapshot),
            (policy.named name).evaluate s = { policy.evaluate s with policy := name } := by
  refine ⟨fun name level ss => ⟨build_steps name level ss, fun ts h => (h.build_eq name level).symm⟩,
    fun l profile rules h p => ⟨?_, ?_⟩⟩
  · exact EligibilityPlan.build_congr (p := { p with level := l, rules := [] }) h rfl rfl rfl rfl
      (.inr rfl) (.inl rfl)
  · obtain ⟨policy, hlevel, hpolicy⟩ := EligibilityPolicy.exists_forLevel h
    refine ⟨policy, hlevel, fun hmode hwindow => ?_, policy.evaluate_named⟩
    exact EligibilityPlan.build_of_level (p := { p with level := l, rules := [] }) h (.inr rfl)
      hmode hwindow hpolicy

theorem Assembly.build_normalForm_desk :
    ((start "desk" (some .minimal)).steps
        [.mode .any, .rules [.validTime], .profile .premium]).build =
      ((start "desk" (some .minimal)).steps
        [.profile .premium, .rule .validTime, .mode .any]).build ∧
    ∃ policy, EligibilityPolicy.forLevel .minimal = .ok policy ∧
      EligibilityPlan.build ⟨"desk", .minimal, [.activeMember, .resourceCapacity], .all, none⟩ =
        .ok (policy.named "desk") := by
  obtain ⟨hsteps, hlevels⟩ := build_normalForm
  obtain ⟨hlisted, policy, hpolicy, hbuild, -⟩ :=
    hlevels .minimal _ _ rfl ⟨"desk", .minimal, [], .all, none⟩
  have hcheck : EligibilityPlan.check ⟨"desk", .minimal, [], .all, none⟩ = .ok () := by cbv
  have hname : nonBlank "policy name" "desk" = .ok "desk" := by cbv
  refine ⟨(hsteps _ _ _).2 _ ⟨rfl, rfl, rfl⟩, policy, hpolicy, ?_⟩
  refine hlisted.trans ((hbuild rfl rfl).trans ?_)
  rw [hcheck, hname]
  rfl

end ClubBooking
