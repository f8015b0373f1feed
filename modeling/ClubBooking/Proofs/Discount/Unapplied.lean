import ClubBooking.Proofs.Discount.Bounds
import ClubBooking.Proofs.Money.Rate

/-! Discounts that do not apply. They leave a price as it is, but some of their amounts are compared
with it all the same: a rate of zero asks for its minimum and keeps to its maximum, a composite
keeps to its cap and floor. If one of these is in another currency, the price is refused. -/

namespace ClubBooking

namespace Money
variable {a b : Money}

theorem not_lt_of_isZero (h : a.isZero) : ¬ b.amount < a.amount := by
  have hcoeff := Decimal.isZero_iff.1 h
  rw [Decimal.not_lt, Decimal.le_iff, hcoeff, Int.zero_mul]
  exact Int.mul_nonneg b.amount_nonneg (Int.pow_nonneg (by decide))

theorem sameValue_refl (a : Money) : a.sameValue a := sameValue_iff.2 ⟨rfl, rfl⟩

theorem sameValue_of_isZero (hc : a.currency = b.currency) (ha : a.isZero) (hb : b.isZero) :
    a.sameValue b := by
  rw [sameValue_iff, (isZero_iff_minor a).1 ha, (isZero_iff_minor b).1 hb]
  exact ⟨hc, rfl⟩

theorem exists_saturatingSub_of_isZero (hc : a.currency = b.currency) (hb : b.isZero) :
    ∃ d, a.saturatingSub b = .ok d ∧ d.sameValue a := by
  unfold saturatingSub
  by_cases ha : a.isZero
  · have hs : a.amount.sub b.amount = some b.amount.neg := if_pos ha
    have hcoeff : b.amount.neg.coeff = 0 := by
      rw [Decimal.coeff_neg, Decimal.isZero_iff.1 hb, Int.neg_zero]
    refine ⟨_, (subOr_of_sub hc hs _).trans (dif_pos (Int.le_of_eq hcoeff.symm)), ?_⟩
    exact sameValue_of_isZero rfl (Decimal.isZero_iff.2 hcoeff) ha
  · have hs : a.amount.sub b.amount = some a.amount := (if_neg ha).trans (if_pos hb)
    refine ⟨_, (subOr_of_sub hc hs _).trans (dif_pos a.amount_nonneg), ?_⟩
    exact a.sameValue_refl

theorem exists_saturatingSub_self (a : Money) : ∃ d, a.saturatingSub a = .ok d ∧ d.isZero := by
  have hexact := Decimal.sub_exact (Nat.le_refl a.amount.scale) (Nat.le_refl a.amount.scale)
    a.amount.scale_le
  rw [Int.sub_self] at hexact
  obtain ⟨s, hs, -, hvalue⟩ := hexact (by decide)
  have hcoeff : s.coeff = 0 :=
    (Int.mul_eq_zero.1 hvalue).resolve_right (pow_ne_zero _ (by decide))
  refine ⟨_, (subOr_of_sub rfl hs _).trans (dif_pos (Int.le_of_eq hcoeff.symm)), ?_⟩
  exact Decimal.isZero_iff.2 hcoeff

theorem multiply_of_isZero {r : Decimal} (hr : r.isZero) :
    a.multiply r = .ok (zero a.currency) := by
  have hcoeff : 0 ≤ r.coeff := Int.le_of_eq (Decimal.isZero_iff.1 hr).symm
  have hmul : a.amount.mul r = some .zero := if_pos (Bool.or_eq_true_iff.2 (.inr hr))
  have hzero : Decimal.zero.roundTo a.currency.minorUnits = .zero := dif_pos (Nat.zero_le _)
  refine (multiply_eq_ok_iff hcoeff).2 ⟨.zero, hmul, ?_⟩
  simp only [rounded, hzero]
  rfl

/-- A computation that compares a price with some amounts. It answers if all of them are in the
currency of the price, and else is refused for one that is not. -/
def Compares {α : Type} (price : Money) (ms : List Money) (x : Except Fault α) (P : α → Prop) :
    Prop :=
  (∀ m ∈ ms, m.currency = price.currency) ∧ (∃ a, x = .ok a ∧ P a) ∨
    ∃ m ∈ ms, m.currency ≠ price.currency ∧
      (x = .error (.currencyMismatch price.currency m.currency) ∨
        x = .error (.currencyMismatch m.currency price.currency))

namespace Compares
variable {α β : Type} {price m : Money} {ms ns : List Money} {x : Except Fault α} {P : α → Prop}

theorem nothing (h : ∃ a, x = .ok a ∧ P a) : price.Compares [] x P :=
  .inl ⟨List.forall_mem_nil _, h⟩

theorem bind {f : α → Except Fault β} {Q : β → Prop} (hx : price.Compares ms x P)
    (hf : ∀ a, P a → price.Compares ns (f a) Q) : price.Compares (ms ++ ns) (x >>= f) Q := by
  obtain ⟨hms, a, rfl, ha⟩ | ⟨m, hm, hne, hx⟩ := hx
  · rcases hf a ha with ⟨hns, hok⟩ | ⟨n, hn, herror⟩
    · exact .inl ⟨List.forall_mem_append.2 ⟨hms, hns⟩, hok⟩
    · exact .inr ⟨n, List.mem_append_right ms hn, herror⟩
  · refine .inr ⟨m, List.mem_append_left ns hm, hne, ?_⟩
    rcases hx with rfl | rfl
    · exact .inl rfl
    · exact .inr rfl

theorem andThen {f : α → Except Fault β} {Q : β → Prop} (hx : price.Compares ms x P)
    (hf : ∀ a, P a → ∃ b, f a = .ok b ∧ Q b) : price.Compares ms (x >>= f) Q := by
  have hboth := hx.bind fun a ha => nothing (hf a ha)
  rwa [List.append_nil] at hboth

theorem map {f : α → β} {Q : β → Prop} (hx : price.Compares ms x P) (hf : ∀ a, P a → Q (f a)) :
    price.Compares ms (x.map f) Q := by
  obtain ⟨hms, a, rfl, ha⟩ | ⟨m, hm, hne, hx⟩ := hx
  · exact .inl ⟨hms, f a, rfl, hf a ha⟩
  · refine .inr ⟨m, hm, hne, ?_⟩
    rcases hx with rfl | rfl
    · exact .inl rfl
    · exact .inr rfl

theorem sameCurrency {a : Money} (ha : a.currency = price.currency) (m : Money) :
    price.Compares [m] (a.sameCurrency m) fun _ => True := by
  by_cases h : m.currency = price.currency
  · exact .inl ⟨List.forall_mem_singleton.2 h, (), if_pos (ha.trans h.symm), trivial⟩
  · refine .inr ⟨m, List.mem_singleton_self m, h, .inl ?_⟩
    rw [← ha] at h ⊢
    exact if_neg (Ne.symm h)

theorem min (price m : Money) :
    price.Compares [m] (m.min price) fun least => ¬ price.amount < least.amount := by
  by_cases h : m.currency = price.currency
  · refine .inl ⟨List.forall_mem_singleton.2 h, _, min_eq_ok_iff.2 ⟨h, rfl⟩, ?_⟩
    split
    · exact Decimal.not_lt.2 price.amount.le_refl
    · next hle => exact hle
  · refine .inr ⟨m, List.mem_singleton_self m, h, .inr ?_⟩
    have hother : m.sameCurrency price = .error (.currencyMismatch m.currency price.currency) :=
      if_neg h
    rw [Money.min, hother]
    rfl

theorem meets (price : Money) (minimum : Option Money) :
    price.Compares minimum.toList (price.meets minimum)
      (· = !minimum.any (price.amount < ·.amount)) := by
  cases minimum with
  | none => exact nothing ⟨true, rfl, rfl⟩
  | some m =>
    refine (sameCurrency rfl m).andThen fun _ _ => ⟨_, rfl, ?_⟩
    simp [← Decimal.not_lt]

end Compares
end Money

def RateDiscount.compared (d : RateDiscount) (price : Money) : List Money :=
  d.minimum.toList ++ if d.minimum.any (price.amount < ·.amount) then [] else d.maximum.toList

def Discount.compared (price : Money) : Discount → List Money
  | rate d => d.compared price
  | composite b _ => b.cap.toList ++ b.floor.toList
  | amount _ | coupon _ | seasonal _ | membership _ | none => []

theorem RateDiscount.compares_apply {d : RateDiscount} (hr : d.rate.isZero) (price : Money) :
    price.Compares (d.compared price) (d.apply price) (·.sameValue price) := by
  have hnothing : ∃ q, price.saturatingSub (.zero price.currency) = .ok q ∧ q.sameValue price :=
    Money.exists_saturatingSub_of_isZero rfl rfl
  unfold apply compared
  simp only [Money.multiply_of_isZero hr]
  refine (Money.Compares.meets price d.minimum).bind fun met hmet => ?_
  subst hmet
  cases d.minimum.any (price.amount < ·.amount) with
  | true => exact .nothing ⟨price, rfl, price.sameValue_refl⟩
  | false =>
    cases d.maximum with
    | none => exact .nothing hnothing
    | some m =>
      -- no maximum is less than the nothing that the rate takes off
      have hless : ¬ m.amount < (Money.zero price.currency).amount := Money.not_lt_of_isZero rfl
      have hmin : price.Compares [m] ((Money.zero price.currency).min m)
          (· = .zero price.currency) :=
        (Money.Compares.sameCurrency rfl m).andThen fun _ _ => ⟨_, rfl, if_neg hless⟩
      refine hmin.andThen fun least hleast => ?_
      subst hleast
      exact hnothing

theorem Strategy.run_nil (s : Strategy) (price : Money) : s.run price [] = .ok ⟨price, []⟩ := by
  cases s <;> rfl

namespace Blend
variable {b : Blend} {price : Money}

theorem compares_applyCap (b : Blend) (price : Money) :
    price.Compares b.cap.toList (b.applyCap price price) (· = (price, false)) := by
  unfold applyCap
  cases b.cap with
  | none => exact .nothing ⟨_, rfl, rfl⟩
  | some cap =>
    obtain ⟨zero, hzero, hisZero⟩ := price.exists_saturatingSub_self
    simp only [hzero]
    refine (Money.Compares.sameCurrency rfl cap).andThen fun _ _ => ⟨_, ?_, rfl⟩
    exact if_neg (Money.not_lt_of_isZero hisZero)

theorem compares_applyFloor (b : Blend) (price : Money) :
    price.Compares b.floor.toList (b.applyFloor price price) (· = (price, false)) := by
  unfold applyFloor
  cases b.floor with
  | none => exact .nothing ⟨_, rfl, rfl⟩
  | some floor =>
    exact (Money.Compares.min price floor).andThen fun least hleast => ⟨_, if_neg hleast, rfl⟩

theorem compares_evaluate {os : List Offer} (hos : ∀ o ∈ os, o.applies = false) (price : Money) :
    price.Compares (b.cap.toList ++ b.floor.toList) (b.evaluate os price)
      (·.finalPrice = price) := by
  have hnone : os.filter (·.applies) = [] := by simpa using hos
  unfold evaluate
  rw [hnone, Strategy.run_nil]
  refine (b.compares_applyCap price).bind fun bounded hbounded => ?_
  subst hbounded
  refine (b.compares_applyFloor price).andThen fun final hfinal => ?_
  subst hfinal
  obtain ⟨total, htotal, -⟩ := price.exists_saturatingSub_self
  exact ⟨⟨price, price, total, b.strategy, [], false, false⟩, by simp only [htotal]; rfl, rfl⟩

end Blend

theorem Coupon.apply_of_not_isApplicable {c : Coupon} {p : Purchase} (h : c.isApplicable p = false)
    (price : Money) : c.apply p price = .ok price := by
  unfold apply
  rw [h]
  rfl

theorem SeasonalDiscount.apply_of_not_isApplicable {d : SeasonalDiscount} {date : Date}
    (h : d.isApplicable date = false) (price : Money) : d.apply date price = .ok price := by
  unfold isApplicable at h
  unfold apply
  cases hrate : d.rateFor date with
  | none => rfl
  | some entry =>
    have hzero : entry.2.isZero = true := by simpa [hrate] using h
    exact if_pos hzero

/-- A discount that does not apply leaves every price as it is, unless it compares the price with an
amount in another currency. -/
theorem Discount.compares_of_not_isApplicable {d : Discount} {p : Purchase}
    (h : d.isApplicable p = false) (price : Money) :
    price.Compares (d.compared price) (d.apply p price) (·.sameValue price) := by
  have hsame := price.sameValue_refl
  cases d with
  | rate d =>
    have hzero : d.rate.isZero = true := by simpa [isApplicable, offer, RateDiscount.offer] using h
    exact d.compares_apply hzero price
  | amount d => cases h
  | coupon c => exact .nothing ⟨price, Coupon.apply_of_not_isApplicable h price, hsame⟩
  | seasonal d => exact .nothing ⟨price, SeasonalDiscount.apply_of_not_isApplicable h price, hsame⟩
  | membership priority => exact .nothing ⟨price, if_neg (Bool.eq_false_iff.1 h), hsame⟩
  | none => cases h
  | composite b ds =>
    have hchildren : ∀ o ∈ offers p ds, o.applies = false := by
      intro o ho
      exact Bool.eq_false_iff.2 (List.any_eq_false.1 h o ho)
    refine (b.compares_evaluate hchildren price).map fun r hr => ?_
    rw [hr]
    exact hsame

namespace Discount

def idleRate : Discount := .rate ⟨"idle", .zero, some (.ofUnits 10 .usd), .none, 40, by decide⟩

theorem apply_idleRate :
    idleRate.isApplicable Composite.plainPurchase = false ∧
      ∃ q, idleRate.apply Composite.plainPurchase (.ofUnits 25 .usd) = .ok q ∧
        q.sameValue (.ofUnits 25 .usd) := by
  have hidle : idleRate.isApplicable Composite.plainPurchase = false := by decide
  refine ⟨hidle, ?_⟩
  rcases compares_of_not_isApplicable hidle (.ofUnits 25 .usd) with ⟨-, hsame⟩ | ⟨m, hm, hne, -⟩
  · exact hsame
  · obtain rfl : m = .ofUnits 10 .usd := List.mem_singleton.1 hm
    exact absurd rfl hne

/-- A price in won is refused for the minimum in dollars. -/
theorem apply_idleRate_won :
    idleRate.isApplicable Composite.plainPurchase = false ∧
      idleRate.apply Composite.plainPurchase (.ofUnits 10000 .krw) =
        .error (.currencyMismatch .krw .usd) := by
  decide

end Discount
end ClubBooking
