import ClubBooking.Proofs.Discount.Account
import ClubBooking.Proofs.Discount.Totality
import ClubBooking.Proofs.Discount.Unapplied

/-! Choosing from offers pooled together. Of two choices the better one, the first if they are
equal, is an associative operation with no choice as its unit, so the best of two lists in a row is
the better of the best of each. The smart order is therefore offers in turn and one choice after
them, and only the order of those in turn can matter to its price. -/

namespace ClubBooking

namespace Decimal
variable {a b c : Decimal}

theorem le_trans (hab : a ≤ b) (hbc : b ≤ c) : a ≤ c := by
  rw [le_iff_coeffAt_le a.scale_le b.scale_le] at hab
  rw [le_iff_coeffAt_le b.scale_le c.scale_le] at hbc
  rw [le_iff_coeffAt_le a.scale_le c.scale_le]
  exact Int.le_trans hab hbc

theorem le_of_not_le (h : ¬ a ≤ b) : b ≤ a := Int.le_of_lt (Int.not_le.1 h)

end Decimal

namespace Trial

theorem better_eq (best : Option Trial) (t : Trial) :
    better best t = rateOrAmount best (better none t) := by
  cases best with
  | none => rfl
  | some b =>
    by_cases hzero : t.discount.isZero
    · have hnone : better none t = none := if_pos hzero
      rw [hnone]
      exact if_neg (Money.not_lt_of_isZero hzero)
    · have hsome : better none t = some t := if_neg hzero
      rw [hsome, better, rateOrAmount]
      by_cases hlt : b.discount.amount < t.discount.amount
      · rw [if_pos hlt, if_neg fun hle => Decimal.not_lt.2 hle hlt]
      · rw [if_neg hlt, if_pos (Decimal.not_lt.1 hlt)]

theorem rateOrAmount_none (a : Option Trial) : rateOrAmount a none = a := by
  cases a <;> rfl

theorem rateOrAmount_assoc (a b c : Option Trial) :
    rateOrAmount (rateOrAmount a b) c = rateOrAmount a (rateOrAmount b c) := by
  rcases a with _ | a
  · rfl
  rcases b with _ | b
  · rfl
  rcases c with _ | c
  · rw [rateOrAmount_none, rateOrAmount_none]
  simp only [rateOrAmount]
  by_cases hba : b.discount.amount ≤ a.discount.amount
  · by_cases hcb : c.discount.amount ≤ b.discount.amount
    · simp [hba, hcb, Decimal.le_trans hcb hba]
    · simp [hba, hcb]
  · by_cases hcb : c.discount.amount ≤ b.discount.amount
    · simp [hba, hcb]
    · have hca : ¬ c.discount.amount ≤ a.discount.amount := fun hca =>
        hcb (Decimal.le_trans hca (Decimal.le_of_not_le hba))
      simp [hba, hcb, hca]

end Trial

namespace Strategy
variable {price : Money} {o : Offer} {os os' : List Offer}

theorem inTurn_append (price : Money) (os os' : List Offer) :
    inTurn price (os ++ os') = (do
      let first ← inTurn price os
      let second ← inTurn first.price os'
      pure ⟨second.price, first.applied ++ second.applied⟩) := by
  induction os generalizing price with
  | nil =>
    show inTurn price os' = inTurn price os' >>= pure
    rw [bind_pure]
  | cons o os ih =>
    simp only [List.cons_append, inTurn, ih, bind_assoc, pure_bind]
    refine bind_congr fun t => bind_congr fun first => bind_congr fun second => ?_
    split <;> rfl

theorem bestFrom_append (price : Money) (best : Option Trial) (os os' : List Offer) :
    bestFrom price best (os ++ os') =
      bestFrom price best os >>= fun first => bestFrom price first os' := by
  induction os generalizing best with
  | nil => rfl
  | cons o os ih => simp only [List.cons_append, bestFrom, ih, bind_assoc]

theorem bestFrom_eq (price : Money) (best : Option Trial) (os : List Offer) :
    bestFrom price best os = (Trial.rateOrAmount best ·) <$> Strategy.best price os := by
  induction os generalizing best with
  | nil => exact congrArg Except.ok (Trial.rateOrAmount_none best).symm
  | cons o os ih =>
    simp only [Strategy.best, bestFrom, map_bind]
    refine bind_congr fun t => ?_
    rw [ih, ih (Trial.better none t), ← comp_map]
    congr 1
    funext rest
    rw [Function.comp_apply, Trial.better_eq, Trial.rateOrAmount_assoc]

theorem best_append (price : Money) (os os' : List Offer) :
    best price (os ++ os') = (do
      let first ← best price os
      let second ← best price os'
      pure (Trial.rateOrAmount first second)) := by
  rw [best, bestFrom_append]
  refine bind_congr fun first => ?_
  rw [bestFrom_eq, map_eq_pure_bind]

theorem exists_best_iff :
    (∃ r, best price os = .ok r) ↔ ∀ o ∈ os, ∃ t, o.attempt price = .ok t := by
  suffices h : ∀ b, (∃ r, bestFrom price b os = .ok r) ↔ ∀ o ∈ os, ∃ t, o.attempt price = .ok t from
    h none
  induction os with
  | nil => exact fun b => ⟨by simp, fun _ => ⟨b, rfl⟩⟩
  | cons o os ih =>
    intro b
    rw [List.forall_mem_cons]
    constructor
    · rintro ⟨r, hr⟩
      obtain ⟨t, ht, hr⟩ := bind_eq_ok_iff.1 hr
      exact ⟨⟨t, ht⟩, (ih _).1 ⟨r, hr⟩⟩
    · rintro ⟨⟨t, ht⟩, hos⟩
      obtain ⟨r, hr⟩ := (ih (Trial.better b t)).2 hos
      exact ⟨r, bind_eq_ok_iff.2 ⟨t, ht, hr⟩⟩

theorem ofTrial_le_of_subset {best best' : Option Trial} (hprice : price.minor < 2 ^ 96)
    (hsubset : os' ⊆ os) (h : Trial.IsBest price os best) (h' : Trial.IsBest price os' best') :
    (ofTrial price best).price.minor ≤ (ofTrial price best').price.minor := by
  cases hsome : best' with
  | none => exact h.price_le_self hprice
  | some t =>
    obtain ⟨hmem, ht⟩ := h'.chosen t hsome
    exact h.price_le hprice (hsubset hmem) ht

theorem exists_bestSingle_of_perm {out : Outcome} (hprice : price.minor < 2 ^ 96)
    (hperm : os'.Perm os) (h : bestSingle.run price os = .ok out) :
    ∃ out', bestSingle.run price os' = .ok out' ∧ out'.price.sameValue out.price := by
  obtain ⟨r, hr, rfl⟩ := map_eq_ok_iff.1 h
  have htried := exists_best_iff.1 ⟨r, hr⟩
  obtain ⟨r', hr'⟩ := exists_best_iff.2 fun o ho => htried o (hperm.subset ho)
  have hbest := isBest_best hprice hr
  have hbest' := isBest_best hprice hr'
  have hcurrency := (splits_ofTrial (gains_best hprice hr)).currency
  have hcurrency' := (splits_ofTrial (gains_best hprice hr')).currency
  refine ⟨ofTrial price r', map_eq_ok_iff.2 ⟨r', hr', rfl⟩, Money.sameValue_iff.2 ⟨?_, ?_⟩⟩
  · exact hcurrency'.trans hcurrency.symm
  · exact Nat.le_antisymm (ofTrial_le_of_subset hprice hperm.symm.subset hbest' hbest)
      (ofTrial_le_of_subset hprice hperm.subset hbest hbest')

theorem smart_run (price : Money) (os : List Offer) :
    smart.run price os = (do
      let others ← sequential.run price (ofKind .other os)
      let last ← bestSingle.run others.price (ofKind .rate os ++ ofKind .amount os)
      pure ⟨last.price, others.applied ++ last.applied⟩) := by
  simp only [run, best_append, bind_assoc, pure_bind]

end Strategy

theorem Blend.exists_evaluate_of_sameValue {b : Blend} {os os' : List Offer} {price : Money}
    {r : Breakdown} (hprice : price.minor < 2 ^ 96) (h : b.evaluate os price = .ok r)
    (hsame : ∀ out, b.outcome os price = .ok out →
      ∃ out', b.outcome os' price = .ok out' ∧ out'.price.sameValue out.price) :
    ∃ r', b.evaluate os' price = .ok r' ∧ r'.finalPrice.sameValue r.finalPrice := by
  obtain ⟨out, hout, hsettles⟩ := exists_settles hprice h
  obtain ⟨out', hout', hvalue⟩ := hsame out hout
  obtain ⟨hcurrency, hminor⟩ := Money.sameValue_iff.1 hvalue
  obtain ⟨_, _, -, -, hfloor, -⟩ := evaluate_eq_ok_iff.1 h
  obtain ⟨r', hr', hfinal⟩ := exists_evaluate_of_outcome hout' hsettles.cap_currency
    (currency_of_applyFloor hfloor) rfl (hcurrency.trans hsettles.splits.currency)
  obtain ⟨settled, hsettled, hsettles'⟩ := exists_settles hprice hr'
  cases hsettled.symm.trans hout'
  refine ⟨r', hr', Money.sameValue_iff.2 ⟨hfinal.trans hsettles.final_currency.symm, ?_⟩⟩
  rw [hsettles.final, hsettles'.final, hminor]

namespace Discount

def ofKind (k : DiscountKind) (ds : List Discount) : List Discount := ds.filter (·.label.kind == k)

variable {p : Purchase} {ds es : List Discount}

theorem offers_append (p : Purchase) (ds es : List Discount) :
    offers p (ds ++ es) = offers p ds ++ offers p es := by
  simp only [offers_eq_map, List.map_append]

theorem offers_perm (h : ds.Perm es) : (offers p ds).Perm (offers p es) := by
  rw [offers_eq_map, offers_eq_map]
  exact h.map _

theorem filter_offers (p : Purchase) (ds : List Discount) :
    (offers p ds).filter (·.applies) = offers p (ds.filter (·.isApplicable p)) := by
  rw [offers_eq_map, offers_eq_map, List.filter_map]
  rfl

theorem ofKind_offers (p : Purchase) (k : DiscountKind) (ds : List Discount) :
    Strategy.ofKind k (offers p ds) = offers p (ofKind k ds) := by
  rw [Strategy.ofKind, ofKind, offers_eq_map, offers_eq_map, List.filter_map]
  congr 2
  funext d
  rw [Function.comp_apply, ← toLabel_offer p d]

theorem smart_run_offers (p : Purchase) (ds : List Discount) (price : Money) :
    Strategy.smart.run price (offers p ds) = (do
      let others ← Strategy.sequential.run price (offers p (ofKind .other ds))
      let last ← Strategy.bestSingle.run others.price
        (offers p (ofKind .rate ds ++ ofKind .amount ds))
      pure ⟨last.price, others.applied ++ last.applied⟩) := by
  rw [Strategy.smart_run, ofKind_offers, ofKind_offers, ofKind_offers, offers_append]

end Discount

namespace Composite

def applicable (c : Composite) (p : Purchase) : List Discount :=
  c.children.filter (·.isApplicable p)

theorem outcome_eq_run {b : Blend} {s : Strategy} (hs : b.strategy = s) (c : Composite)
    (p : Purchase) (price : Money) :
    b.outcome (Discount.offers p c.children) price =
      s.run price (Discount.offers p (c.applicable p)) := by
  rw [Blend.outcome, Discount.filter_offers, hs]
  rfl

theorem ofKind_applicable (c : Composite) (p : Purchase) (k : DiscountKind) :
    Discount.ofKind k (c.applicable p) = (Discount.ofKind k c.children).filter (·.isApplicable p) :=
  List.filter_comm ..

/-- The smart order goes through the other children in turn, and then takes the best single one of
the rates followed by the amounts; it is refused where that is, and for the same fault. So the
order of the children does not matter to the price, as long as the others keep theirs. -/
theorem outcome_of_smart {c : Composite} (hsmart : c.blend.strategy = .smart) (p : Purchase)
    (price : Money) :
    c.blend.outcome (Discount.offers p c.children) price = (do
        let others ← Strategy.sequential.run price
          (Discount.offers p (Discount.ofKind .other (c.applicable p)))
        let last ← Strategy.bestSingle.run others.price
          (Discount.offers p
            (Discount.ofKind .rate (c.applicable p) ++ Discount.ofKind .amount (c.applicable p)))
        pure ⟨last.price, others.applied ++ last.applied⟩) ∧
      (price.IsModerate → ∀ c' : Composite, c'.blend = c.blend → c'.children.Perm c.children →
        Discount.ofKind .other c'.children = Discount.ofKind .other c.children →
        ∀ r, c.evaluate p price = .ok r →
          ∃ r', c'.evaluate p price = .ok r' ∧ r'.finalPrice.sameValue r.finalPrice) := by
  refine ⟨(outcome_eq_run hsmart c p price).trans (Discount.smart_run_offers ..), ?_⟩
  intro hprice c' hblend hperm hothers r hr
  have hkind (k : DiscountKind) : (Discount.ofKind k (c'.applicable p)).Perm
      (Discount.ofKind k (c.applicable p)) := (hperm.filter _).filter _
  have hsame : Discount.ofKind .other (c'.applicable p) =
      Discount.ofKind .other (c.applicable p) := by
    rw [ofKind_applicable, ofKind_applicable, hothers]
  unfold evaluate
  rw [hblend]
  refine Blend.exists_evaluate_of_sameValue hprice.minor_lt hr fun out hout => ?_
  rw [outcome_eq_run hsmart, Discount.smart_run_offers] at hout
  obtain ⟨others, hturn, hout⟩ := bind_eq_ok_iff.1 hout
  obtain ⟨last, hlast, hout⟩ := bind_eq_ok_iff.1 hout
  cases hout
  have hlt := Strategy.minor_lt_of_inTurn hprice.minor_lt hturn
  -- what the others leave is the same, and there the rest is a single choice
  obtain ⟨last', hlast', hvalue⟩ := Strategy.exists_bestSingle_of_perm hlt
    (Discount.offers_perm ((hkind .rate).append (hkind .amount))) hlast
  refine ⟨⟨last'.price, others.applied ++ last'.applied⟩, ?_, hvalue⟩
  rw [outcome_eq_run hsmart, Discount.smart_run_offers, hsame]
  exact bind_eq_ok_iff.2 ⟨others, hturn, bind_eq_ok_iff.2 ⟨last', hlast', rfl⟩⟩

def evenly : Composite where
  blend := ⟨"evenly", .smart, .none, some (.ofUnits 1 .usd), .none⟩
  children := [
    .amount ⟨"7 off", .ofUnits 7 .usd, .none, 40, by decide⟩,
    .membership 20,
    .rate ⟨"eighth", .eighth, .none, .none, 40, Decimal.isRate_eighth⟩]

theorem outcome_evenly :
    evenly.blend.strategy = .smart ∧ (Money.ofUnits 64 .usd).IsModerate ∧
      (∃ out,
        evenly.blend.outcome (Discount.offers .onEighthPlan evenly.children) (.ofUnits 64 .usd) =
            .ok out ∧
          out.applied.map (·.description) = ["Membership plan discount", "eighth"] ∧
          out.price.minor = 4900) ∧
      ∃ r r', evenly.evaluate .onEighthPlan (.ofUnits 64 .usd) = .ok r ∧
        (Composite.mk evenly.blend evenly.children.reverse).evaluate .onEighthPlan
          (.ofUnits 64 .usd) = .ok r' ∧ r'.finalPrice.sameValue r.finalPrice := by
  have hsmart : evenly.blend.strategy = .smart := rfl
  have hmoderate : (Money.ofUnits 64 .usd).IsModerate := by decide
  obtain ⟨hrun, hperm⟩ := outcome_of_smart hsmart .onEighthPlan (.ofUnits 64 .usd)
  obtain ⟨r, hr⟩ : ∃ r, evenly.evaluate .onEighthPlan (.ofUnits 64 .usd) = .ok r := ⟨_, rfl⟩
  obtain ⟨r', hr', hsame⟩ := hperm hmoderate ⟨evenly.blend, evenly.children.reverse⟩ rfl
    (List.reverse_perm _) rfl r hr
  refine ⟨hsmart, hmoderate, ?_, r, r', hr, hr', hsame⟩
  rw [hrun]
  exact ⟨_, rfl, by decide, by decide⟩

end Composite
end ClubBooking
