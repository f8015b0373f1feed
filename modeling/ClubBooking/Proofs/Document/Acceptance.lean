import ClubBooking.Document.DiscountPlan
import ClubBooking.Proofs.Discount.Making
import ClubBooking.Proofs.Money.Minor

/-! Which discount plans are accepted, and what is built from them. A document passes two layers of
checks, of its fields as they are written and then of the parts that are made of them; together they
accept exactly the plans that are fine, and every rule becomes the discount that it describes. -/

namespace ClubBooking

namespace Problems

theorem check_eq_ok_iff {ps : Problems} : ps.check = .ok () ↔ ps = [] := by
  cases ps <;> simp [check]

theorem demand_eq_nil_iff {ok : Bool} {field : String} {c : Complaint} :
    demand ok field c = [] ↔ ok := by
  cases ok <;> simp [demand]

theorem ofRate_eq_nil_iff {field : String} {r : Decimal} : ofRate field r = [] ↔ r.IsRate := by
  rw [ofRate, demand_eq_nil_iff, decide_eq_true_eq]

theorem ofAmount_eq_nil_iff {field : String} {a : Decimal} :
    ofAmount field a = [] ↔ a.IsPositive := by
  rw [ofAmount, demand_eq_nil_iff, decide_eq_true_eq]

theorem ofOption_eq_nil_iff {α : Type} {f : α → Problems} {o : Option α} :
    ofOption f o = [] ↔ ∀ a ∈ o, f a = [] := by
  cases o <;> simp [ofOption]

theorem ofDescription_eq_nil_iff {s : String} : ofDescription s = [] ↔ s ≠ "" := by
  rw [ofDescription, demand_eq_nil_iff, decide_eq_true_eq]

end Problems

theorem Decimal.isPositive_iff {a : Decimal} : a.IsPositive ↔ 0 < a.coeff := by
  simp [IsPositive, lt_iff, Decimal.zero, coeff]

/-- Above zero, and not nothing in the smallest unit of a currency. -/
structure Decimal.IsPayable (c : Currency) (a : Decimal) : Prop where
  positive : a.IsPositive
  rounded : (a.roundTo c.minorUnits).isZero = false

structure RateRule.IsFine (r : RateRule) : Prop where
  description : Text.HasInk r.description
  rate : r.rate.IsRate
  minimum : ∀ a ∈ r.minimum, a.IsPositive
  maximum : ∀ a ∈ r.maximum, a.IsPositive

structure AmountRule.IsFine (c : Currency) (r : AmountRule) : Prop where
  description : Text.HasInk r.description
  amount : r.amount.IsPayable c
  minimum : ∀ a ∈ r.minimum, a.IsPositive

/-- The code is measured as it is written, and read without blanks and in capitals. -/
structure CouponRule.IsFine (c : Currency) (r : CouponRule) : Prop where
  three_le : 3 ≤ r.code.length
  le_32 : r.code.length ≤ 32
  code : CouponCode.Pattern (CouponCode.normal r.code)
  benefit : (∃ rate, r.rate = some rate ∧ r.amount = none ∧ rate.IsRate) ∨
    ∃ amount, r.rate = none ∧ r.amount = some amount ∧ amount.IsPayable c
  validity : r.validFrom ≤ r.validUntil
  minimum : ∀ a ∈ r.minimum, a.IsPositive

structure SeasonalRule.IsFine (r : SeasonalRule) : Prop where
  rates_ne_nil : r.rates ≠ []
  rates : ∀ e ∈ r.rates, e.2.IsRate

def DiscountRule.IsFine (c : Currency) : DiscountRule → Prop
  | rate r => r.IsFine
  | amount r => r.IsFine c
  | coupon r => r.IsFine c
  | seasonal r => r.IsFine
  | membership _ | none => True

structure DiscountPlan.IsFine (p : DiscountPlan) : Prop where
  description : Text.HasInk p.description
  rules_ne_nil : p.rules ≠ []
  cap : ∀ a ∈ p.cap, a.IsPositive
  floor : ∀ a ∈ p.floor, a.IsPositive
  rules : ∀ r ∈ p.rules, r.IsFine p.currency

theorem RateRule.problems_eq_nil_iff {r : RateRule} :
    r.problems = [] ↔ r.description ≠ "" ∧ (∀ a ∈ r.maximum, a.IsPositive) ∧
      (∀ a ∈ r.minimum, a.IsPositive) ∧ r.rate.IsRate := by
  simp only [problems, List.append_eq_nil_iff, Problems.ofDescription_eq_nil_iff,
    Problems.ofOption_eq_nil_iff, Problems.ofAmount_eq_nil_iff, Problems.ofRate_eq_nil_iff,
    and_assoc]

theorem AmountRule.problems_eq_nil_iff {r : AmountRule} :
    r.problems = [] ↔ r.amount.IsPositive ∧ r.description ≠ "" ∧ ∀ a ∈ r.minimum, a.IsPositive := by
  simp only [problems, List.append_eq_nil_iff, Problems.ofDescription_eq_nil_iff,
    Problems.ofOption_eq_nil_iff, Problems.ofAmount_eq_nil_iff, and_assoc]

theorem CouponRule.problems_eq_nil_iff {r : CouponRule} :
    r.problems = [] ↔ (∀ a ∈ r.amount, a.IsPositive) ∧ (3 ≤ r.code.length ∧ r.code.length ≤ 32) ∧
      (∀ a ∈ r.minimum, a.IsPositive) ∧ ∀ a ∈ r.rate, a.IsRate := by
  simp only [problems, List.append_eq_nil_iff, Problems.ofOption_eq_nil_iff,
    Problems.ofAmount_eq_nil_iff, Problems.ofRate_eq_nil_iff, Problems.demand_eq_nil_iff,
    Bool.and_eq_true, decide_eq_true_eq, and_assoc]

theorem SeasonalRule.problems_eq_nil_iff {r : SeasonalRule} : r.problems = [] ↔ r.rates ≠ [] := by
  rw [problems, Problems.demand_eq_nil_iff]
  simp

theorem SeasonalRule.checkRates_eq_ok_iff {es : List (Season × Decimal)} :
    checkRates es = .ok () ↔ ∀ e ∈ es, e.2.IsRate := by
  rw [forall_eq_ok_iff (fun e : Season × Decimal => Problems.check (.ofRate "rate" e.2)) rfl
    fun _ _ => rfl]
  simp only [Problems.check_eq_ok_iff, Problems.ofRate_eq_nil_iff]

theorem DiscountPlan.problems_eq_nil_iff {p : DiscountPlan} :
    p.problems = [] ↔ p.description ≠ "" ∧ (∀ a ∈ p.cap, a.IsPositive) ∧
      (∀ a ∈ p.floor, a.IsPositive) ∧ p.rules ≠ [] := by
  simp only [problems, List.append_eq_nil_iff, Problems.ofDescription_eq_nil_iff,
    Problems.ofOption_eq_nil_iff, Problems.ofAmount_eq_nil_iff, Problems.demand_eq_nil_iff,
    and_assoc]
  simp

inductive CouponRule.Gives (c : Currency) (r : CouponRule) : Benefit → Prop where
  | rate {value : Decimal} (hrate : r.rate = some value) (hamount : r.amount = none) :
      r.Gives c (.rate value)
  | amount {value : Decimal} {m : Money} (hrate : r.rate = none) (hamount : r.amount = some value)
      (hm : Money.Rounds c value m) : r.Gives c (.amount m)

/-- The discount that a rule describes, its amounts rounded to the units of a currency. -/
inductive DiscountRule.Becomes (c : Currency) : DiscountRule → Discount → Prop where
  | rate {r : RateRule} {d : RateDiscount} (description : d.description = Text.trim r.description)
      (rate : d.rate = r.rate) (minimum : Option.Rel (Money.Rounds c) r.minimum d.minimum)
      (maximum : Option.Rel (Money.Rounds c) r.maximum d.maximum)
      (priority : d.priority = r.priority.getD 40) : Becomes c (.rate r) (.rate d)
  | amount {r : AmountRule} {d : AmountDiscount}
      (description : d.description = Text.trim r.description)
      (amount : Money.Rounds c r.amount d.amount)
      (minimum : Option.Rel (Money.Rounds c) r.minimum d.minimum)
      (priority : d.priority = r.priority.getD 40) : Becomes c (.amount r) (.amount d)
  | coupon {r : CouponRule} {d : Coupon} (code : d.code.chars = CouponCode.normal r.code)
      (benefit : r.Gives c d.benefit) (first : d.validity.first = r.validFrom)
      (last : d.validity.last = r.validUntil) (members : d.members = r.members)
      (minimum : Option.Rel (Money.Rounds c) r.minimum d.minimum)
      (priority : d.priority = r.priority.getD 10) : Becomes c (.coupon r) (.coupon d)
  | seasonal {r : SeasonalRule} {d : SeasonalDiscount}
      (rates : d.rates = SeasonalDiscount.table r.rates)
      (priority : d.priority = r.priority.getD 30) : Becomes c (.seasonal r) (.seasonal d)
  | membership (priority : Option Int) :
      Becomes c (.membership priority) (.membership (priority.getD 20))
  | none : Becomes c .none .none

namespace DiscountRule
variable {c : Currency}

theorem money?_eq_ok_iff {a : Option Decimal} {m : Option Money} :
    money? c a = .ok m ↔ (∀ x ∈ a, 0 ≤ x.coeff) ∧ Option.Rel (Money.Rounds c) a m := by
  cases a with
  | none =>
    simp only [money?, Except.ok.injEq, Option.not_mem_none, false_implies, implies_true, true_and]
    constructor
    · rintro rfl
      exact .none
    · rintro ⟨⟩
      rfl
  | some a =>
    rw [money?, bind_eq_ok_iff]
    simp only [Money.ofDecimal_eq_ok_iff, pure, Except.pure, Except.ok.injEq, Option.mem_some_iff,
      forall_eq']
    constructor
    · rintro ⟨m, ⟨ha, hm⟩, rfl⟩
      exact ⟨ha, .some hm⟩
    · rintro ⟨ha, ⟨hm⟩⟩
      exact ⟨_, ⟨ha, hm⟩, rfl⟩

theorem currency_of_rounds {a : Option Decimal} {m : Option Money}
    (h : Option.Rel (Money.Rounds c) a m) : ∀ x ∈ m, x.currency = c := by
  rintro x ⟨⟩
  cases h with
  | some h => exact h.currency

theorem exists_money? {a : Option Decimal} (h : ∀ x ∈ a, x.IsPositive) :
    ∃ m, money? c a = .ok m := by
  cases a with
  | none => exact ⟨_, rfl⟩
  | some a =>
    have ha := Decimal.isPositive_iff.1 (h a rfl)
    obtain ⟨m, hm⟩ := Money.exists_ofDecimal (c := c) (Int.le_of_lt ha)
    exact ⟨some m, bind_eq_ok_iff.2 ⟨m, hm, rfl⟩⟩

def couponOf (c : Currency) (r : CouponRule) (benefit : Benefit) : Except Fault Discount := do
  let validity ← DateRange.make r.validFrom r.validUntil
  let d ← Coupon.make r.code benefit validity
  let minimum ← money? c r.minimum
  pure (.coupon { d with members := r.members, minimum, priority := r.priority.getD d.priority })

theorem build_coupon (r : CouponRule) :
    (coupon r).build c =
      match r.rate, r.amount with
      | some value, Option.none => couponOf c r (.rate value)
      | Option.none, some value => do couponOf c r (.amount (← Money.ofDecimal value c))
      | _, _ => .error (.misconfigured (.couponBenefit r.code)) := by
  rw [build]
  cases r.rate with
  | none =>
    cases r.amount with
    | none => rfl
    | some value => cases h : Money.ofDecimal value c <;> simp only [h] <;> rfl
  | some rate => cases r.amount <;> rfl

theorem exists_gives_of_build {r : CouponRule} {d : Discount} (h : (coupon r).build c = .ok d) :
    ∃ benefit, r.Gives c benefit ∧ couponOf c r benefit = .ok d := by
  rw [build_coupon] at h
  split at h
  · next value hrate hamount => exact ⟨.rate value, .rate hrate hamount, h⟩
  · next value hrate hamount =>
    obtain ⟨m, hm, h⟩ := bind_eq_ok_iff.1 h
    exact ⟨.amount m, .amount hrate hamount (Money.ofDecimal_eq_ok_iff.1 hm).2, h⟩
  · cases h

theorem becomes_of_build {r : DiscountRule} {d : Discount} (h : r.build c = .ok d) :
    r.Becomes c d := by
  cases r with
  | rate r =>
    obtain ⟨made, hmade, h⟩ := bind_eq_ok_iff.1 h
    obtain ⟨minimum, hminimum, h⟩ := bind_eq_ok_iff.1 h
    obtain ⟨maximum, hmaximum, h⟩ := bind_eq_ok_iff.1 h
    cases h
    obtain ⟨-, -, rfl⟩ := RateDiscount.make_eq_ok_iff.1 hmade
    exact .rate rfl rfl (money?_eq_ok_iff.1 hminimum).2 (money?_eq_ok_iff.1 hmaximum).2 rfl
  | amount r =>
    obtain ⟨amount, hamount, h⟩ := bind_eq_ok_iff.1 h
    obtain ⟨made, hmade, h⟩ := bind_eq_ok_iff.1 h
    obtain ⟨minimum, hminimum, h⟩ := bind_eq_ok_iff.1 h
    cases h
    obtain ⟨-, -, rfl⟩ := AmountDiscount.make_eq_ok_iff.1 hmade
    exact .amount rfl (Money.ofDecimal_eq_ok_iff.1 hamount).2 (money?_eq_ok_iff.1 hminimum).2 rfl
  | coupon r =>
    obtain ⟨benefit, hgives, h⟩ := exists_gives_of_build h
    obtain ⟨validity, hvalidity, h⟩ := bind_eq_ok_iff.1 h
    obtain ⟨made, hmade, h⟩ := bind_eq_ok_iff.1 h
    obtain ⟨minimum, hminimum, h⟩ := bind_eq_ok_iff.1 h
    cases h
    obtain ⟨hfirst, hlast⟩ := DateRange.make_eq_ok_iff.1 hvalidity
    obtain ⟨-, code, -, hcode, rfl⟩ := Coupon.make_eq_ok_iff.1 hmade
    exact .coupon hcode hgives hfirst hlast rfl (money?_eq_ok_iff.1 hminimum).2 rfl
  | seasonal r =>
    obtain ⟨made, hmade, h⟩ := bind_eq_ok_iff.1 h
    obtain ⟨-, -, hrates, hpriority⟩ := SeasonalDiscount.of_make hmade
    cases h
    exact .seasonal hrates (by rw [hpriority])
  | membership priority =>
    cases h
    exact .membership priority
  | none =>
    cases h
    exact .none

theorem check_of_isFine {r : DiscountRule} (h : r.IsFine c) : r.check = .ok () := by
  cases r with
  | rate r =>
    exact Problems.check_eq_ok_iff.2 (RateRule.problems_eq_nil_iff.2
      ⟨h.description.ne_empty, h.maximum, h.minimum, h.rate⟩)
  | amount r =>
    exact Problems.check_eq_ok_iff.2 (AmountRule.problems_eq_nil_iff.2
      ⟨h.amount.positive, h.description.ne_empty, h.minimum⟩)
  | coupon r =>
    have hcode := And.intro h.three_le h.le_32
    rcases h.benefit with ⟨value, hrate, hamount, hvalue⟩ | ⟨value, hrate, hamount, hvalue⟩
    · have hproblems : r.problems = [] := CouponRule.problems_eq_nil_iff.2
        ⟨by simp [hamount], hcode, h.minimum, by simpa [hrate] using hvalue⟩
      refine bind_eq_ok_iff.2 ⟨(), Problems.check_eq_ok_iff.2 hproblems, ?_⟩
      simp [hrate, hamount]
      rfl
    · have hproblems : r.problems = [] := CouponRule.problems_eq_nil_iff.2
        ⟨by simpa [hamount] using hvalue.positive, hcode, h.minimum, by simp [hrate]⟩
      refine bind_eq_ok_iff.2 ⟨(), Problems.check_eq_ok_iff.2 hproblems, ?_⟩
      simp [hrate, hamount]
      rfl
  | seasonal r =>
    refine bind_eq_ok_iff.2 ⟨(), ?_, SeasonalRule.checkRates_eq_ok_iff.2 h.rates⟩
    exact Problems.check_eq_ok_iff.2 (SeasonalRule.problems_eq_nil_iff.2 h.rates_ne_nil)
  | membership priority => rfl
  | none => rfl

theorem exists_couponOf {r : CouponRule} (h : r.IsFine c) (benefit : Benefit)
    (hbenefit : benefit.IsValid) : ∃ d, couponOf c r benefit = .ok d := by
  obtain ⟨code, hcode⟩ := CouponCode.exists_of_pattern h.code
  let validity : DateRange := ⟨r.validFrom, r.validUntil, h.validity⟩
  have hmade : Coupon.make r.code benefit validity =
      .ok ⟨code, benefit, validity, [], .none, 10, hbenefit⟩ :=
    Coupon.make_eq_ok_iff.2 ⟨hbenefit, code, h.code, CouponCode.chars_of_ofChars? hcode, rfl⟩
  obtain ⟨minimum, hminimum⟩ := exists_money? (c := c) h.minimum
  exact ⟨_, bind_eq_ok_iff.2 ⟨_, DateRange.make_eq_ok_iff.2 ⟨rfl, rfl⟩,
    bind_eq_ok_iff.2 ⟨_, hmade, bind_eq_ok_iff.2 ⟨_, hminimum, rfl⟩⟩⟩⟩

theorem exists_build_of_isFine {r : DiscountRule} (h : r.IsFine c) : ∃ d, r.build c = .ok d := by
  cases r with
  | rate r =>
    have hmade := RateDiscount.make_eq_ok_iff.2 ⟨h.rate, h.description, rfl⟩
    obtain ⟨minimum, hminimum⟩ := exists_money? (c := c) h.minimum
    obtain ⟨maximum, hmaximum⟩ := exists_money? (c := c) h.maximum
    exact ⟨_, bind_eq_ok_iff.2 ⟨_, hmade, bind_eq_ok_iff.2 ⟨_, hminimum,
      bind_eq_ok_iff.2 ⟨_, hmaximum, rfl⟩⟩⟩⟩
  | amount r =>
    obtain ⟨m, hm⟩ := Money.exists_ofDecimal (c := c)
      (Int.le_of_lt (Decimal.isPositive_iff.1 h.amount.positive))
    have hrounds := (Money.ofDecimal_eq_ok_iff.1 hm).2
    have hmade := AmountDiscount.make_eq_ok_iff.2
      ⟨hrounds.isZero_eq.trans h.amount.rounded, h.description, rfl⟩
    obtain ⟨minimum, hminimum⟩ := exists_money? (c := c) h.minimum
    exact ⟨_, bind_eq_ok_iff.2 ⟨_, hm, bind_eq_ok_iff.2 ⟨_, hmade,
      bind_eq_ok_iff.2 ⟨_, hminimum, rfl⟩⟩⟩⟩
  | coupon r =>
    rw [build_coupon]
    rcases h.benefit with ⟨value, hrate, hamount, hvalue⟩ | ⟨value, hrate, hamount, hvalue⟩
    · rw [hrate, hamount]
      exact exists_couponOf h (.rate value) hvalue
    · obtain ⟨m, hm⟩ := Money.exists_ofDecimal (c := c)
        (Int.le_of_lt (Decimal.isPositive_iff.1 hvalue.positive))
      have hrounds := (Money.ofDecimal_eq_ok_iff.1 hm).2
      obtain ⟨d, hd⟩ := exists_couponOf h (.amount m) (hrounds.isZero_eq.trans hvalue.rounded)
      rw [hrate, hamount]
      exact ⟨d, bind_eq_ok_iff.2 ⟨m, hm, hd⟩⟩
  | seasonal r =>
    obtain ⟨made, hmade⟩ := SeasonalDiscount.exists_make h.rates_ne_nil h.rates
    exact ⟨_, bind_eq_ok_iff.2 ⟨made, hmade, rfl⟩⟩
  | membership priority => exact ⟨_, rfl⟩
  | none => exact ⟨_, rfl⟩

theorem isFine_of_build {r : DiscountRule} {d : Discount} (hcheck : r.check = .ok ())
    (h : r.build c = .ok d) : r.IsFine c := by
  cases r with
  | rate r =>
    obtain ⟨-, hmaximum, hminimum, -⟩ :=
      RateRule.problems_eq_nil_iff.1 (Problems.check_eq_ok_iff.1 hcheck)
    obtain ⟨made, hmade, -⟩ := bind_eq_ok_iff.1 h
    obtain ⟨hrate, hdescription, -⟩ := RateDiscount.make_eq_ok_iff.1 hmade
    exact ⟨hdescription, hrate, hminimum, hmaximum⟩
  | amount r =>
    obtain ⟨hpositive, -, hminimum⟩ :=
      AmountRule.problems_eq_nil_iff.1 (Problems.check_eq_ok_iff.1 hcheck)
    obtain ⟨m, hm, h⟩ := bind_eq_ok_iff.1 h
    obtain ⟨made, hmade, -⟩ := bind_eq_ok_iff.1 h
    obtain ⟨hzero, hdescription, -⟩ := AmountDiscount.make_eq_ok_iff.1 hmade
    have hrounds := (Money.ofDecimal_eq_ok_iff.1 hm).2
    exact ⟨hdescription, ⟨hpositive, hrounds.isZero_eq.symm.trans hzero⟩, hminimum⟩
  | coupon r =>
    obtain ⟨u, hproblems, -⟩ := bind_eq_ok_iff.1 hcheck
    obtain ⟨hamounts, ⟨hthree, hmost⟩, hminimum, -⟩ :=
      CouponRule.problems_eq_nil_iff.1 (Problems.check_eq_ok_iff.1 hproblems)
    obtain ⟨benefit, hgives, h⟩ := exists_gives_of_build h
    obtain ⟨validity, hvalidity, h⟩ := bind_eq_ok_iff.1 h
    obtain ⟨made, hmade, -⟩ := bind_eq_ok_iff.1 h
    obtain ⟨hvalid, code, hpattern, -⟩ := Coupon.make_eq_ok_iff.1 hmade
    obtain ⟨hfirst, hlast⟩ := DateRange.make_eq_ok_iff.1 hvalidity
    have hordered : r.validFrom ≤ r.validUntil := by
      rw [← hfirst, ← hlast]
      exact validity.first_le_last
    refine ⟨hthree, hmost, hpattern, ?_, hordered, hminimum⟩
    cases hgives with
    | rate hrate hamount => exact .inl ⟨_, hrate, hamount, hvalid⟩
    | amount hrate hamount hm =>
      exact .inr ⟨_, hrate, hamount, hamounts _ hamount, hm.isZero_eq.symm.trans hvalid⟩
  | seasonal r =>
    obtain ⟨made, hmade, -⟩ := bind_eq_ok_iff.1 h
    obtain ⟨hne, hrates, -⟩ := SeasonalDiscount.of_make hmade
    exact ⟨hne, hrates⟩
  | membership priority => trivial
  | none => trivial

end DiscountRule

namespace DiscountPlan
variable {p : DiscountPlan}

theorem checkRules_eq_ok_iff {rs : List DiscountRule} :
    checkRules rs = .ok () ↔ ∀ r ∈ rs, r.check = .ok () :=
  forall_eq_ok_iff DiscountRule.check rfl fun _ _ => rfl

theorem check_eq_ok_iff : p.check = .ok () ↔ p.problems = [] ∧ ∀ r ∈ p.rules, r.check = .ok () := by
  rw [check, bind_eq_ok_iff]
  constructor
  · rintro ⟨⟨⟩, hproblems, hrules⟩
    exact ⟨Problems.check_eq_ok_iff.1 hproblems, checkRules_eq_ok_iff.1 hrules⟩
  · rintro ⟨hproblems, hrules⟩
    exact ⟨(), Problems.check_eq_ok_iff.2 hproblems, checkRules_eq_ok_iff.2 hrules⟩

structure Becomes (p : DiscountPlan) (comp : Composite) : Prop where
  description : comp.blend.description = Text.trim p.description
  strategy : comp.blend.strategy = p.strategy
  cap : Option.Rel (Money.Rounds p.currency) p.cap comp.blend.cap
  floor : Option.Rel (Money.Rounds p.currency) p.floor comp.blend.floor
  priority : comp.blend.priority = none
  children : List.Forall₂ (DiscountRule.Becomes p.currency) p.rules comp.children

theorem becomes_of_build {comp : Composite} (h : p.build = .ok comp) :
    p.IsFine ∧ p.Becomes comp := by
  obtain ⟨⟨⟩, hcheck, h⟩ := bind_eq_ok_iff.1 h
  obtain ⟨children, hchildren, h⟩ := bind_eq_ok_iff.1 h
  obtain ⟨cap, hcap, h⟩ := bind_eq_ok_iff.1 h
  obtain ⟨floor, hfloor, h⟩ := bind_eq_ok_iff.1 h
  obtain ⟨hproblems, hrules⟩ := check_eq_ok_iff.1 hcheck
  obtain ⟨-, hcaps, hfloors, hne⟩ := problems_eq_nil_iff.1 hproblems
  obtain ⟨hink, hsame, hblend⟩ := Composite.of_make h
  constructor
  · refine ⟨hink, hne, hcaps, hfloors, fun r hr => ?_⟩
    obtain ⟨d, hd⟩ := exists_of_mapM hchildren hr
    exact DiscountRule.isFine_of_build (hrules r hr) hd
  · refine ⟨?_, ?_, ?_, ?_, ?_, ?_⟩
    · rw [hblend]
    · rw [hblend]
    · rw [hblend]
      exact (DiscountRule.money?_eq_ok_iff.1 hcap).2
    · rw [hblend]
      exact (DiscountRule.money?_eq_ok_iff.1 hfloor).2
    · rw [hblend]
    · rw [hsame]
      exact (mapM_eq_ok_iff.1 hchildren).imp fun r d => DiscountRule.becomes_of_build

theorem exists_build_of_isFine (h : p.IsFine) : ∃ comp, p.build = .ok comp := by
  have hproblems := problems_eq_nil_iff.2 ⟨h.description.ne_empty, h.cap, h.floor, h.rules_ne_nil⟩
  have hcheck : p.check = .ok () :=
    check_eq_ok_iff.2 ⟨hproblems, fun r hr => DiscountRule.check_of_isFine (h.rules r hr)⟩
  obtain ⟨children, hchildren⟩ :=
    exists_mapM fun r hr => DiscountRule.exists_build_of_isFine (h.rules r hr)
  obtain ⟨cap, hcap⟩ := DiscountRule.exists_money? (c := p.currency) h.cap
  obtain ⟨floor, hfloor⟩ := DiscountRule.exists_money? (c := p.currency) h.floor
  have hne : children ≠ [] := by
    rintro rfl
    exact h.rules_ne_nil (List.forall₂_nil_right_iff.1 (mapM_eq_ok_iff.1 hchildren))
  have hcaps := DiscountRule.currency_of_rounds (DiscountRule.money?_eq_ok_iff.1 hcap).2
  have hfloors := DiscountRule.currency_of_rounds (DiscountRule.money?_eq_ok_iff.1 hfloor).2
  obtain ⟨comp, hcomp⟩ := Composite.exists_make
    (b := ⟨p.description, p.strategy, cap, floor, none⟩) h.description hne fun x hx y hy =>
      (hcaps x hx).trans (hfloors y hy).symm
  exact ⟨comp, bind_eq_ok_iff.2 ⟨(), hcheck, bind_eq_ok_iff.2 ⟨children, hchildren,
    bind_eq_ok_iff.2 ⟨cap, hcap, bind_eq_ok_iff.2 ⟨floor, hfloor, hcomp⟩⟩⟩⟩⟩

/-- A plan is built if and only if it is fine, and then into what it describes. -/
theorem build_ok_iff_isFine (p : DiscountPlan) :
    ((∃ comp, p.build = .ok comp) ↔ p.IsFine) ∧ ∀ comp, p.build = .ok comp → p.Becomes comp := by
  refine ⟨⟨?_, exists_build_of_isFine⟩, fun comp h => (becomes_of_build h).2⟩
  rintro ⟨comp, h⟩
  exact (becomes_of_build h).1

def springSale : DiscountPlan where
  description := " spring "
  strategy := .bestSingle
  currency := .jpy
  cap := some .hundred
  floor := none
  rules := [.rate ⟨"all of it ", .one, none, none, none⟩,
    .coupon ⟨" spring-1", none, some .hundred, .first, .last, [], none, some 5⟩, .none]

theorem springSale_becomes :
    springSale.IsFine ∧ ∃ comp, springSale.build = .ok comp ∧ springSale.Becomes comp := by
  obtain ⟨code, hread⟩ : ∃ code, CouponCode.ofChars? (CouponCode.normal " spring-1") = some code :=
    ⟨_, rfl⟩
  have hcode : CouponCode.Pattern (CouponCode.normal " spring-1") :=
    CouponCode.chars_of_ofChars? hread ▸ code.pattern_chars
  have hpayable : Decimal.hundred.IsPayable .jpy := ⟨by decide, by decide⟩
  have h : springSale.IsFine := by
    refine ⟨⟨'s', by decide, by decide⟩, by simp [springSale], by decide, by decide, ?_⟩
    simp only [springSale, List.forall_mem_cons]
    refine ⟨⟨⟨'a', by decide, by decide⟩, by decide, by decide, by decide⟩, ?_, trivial, by simp⟩
    exact ⟨by decide, by decide, hcode, .inr ⟨_, rfl, rfl, hpayable⟩, by decide, by decide⟩
  obtain ⟨comp, hcomp⟩ := (build_ok_iff_isFine springSale).1.2 h
  exact ⟨h, comp, hcomp, (build_ok_iff_isFine springSale).2 comp hcomp⟩

end DiscountPlan

end ClubBooking
