import ClubBooking.Proofs.Discount.Pooled

/-! The best single discount. It is the first of those that take off most, and it takes off what it
would take off alone; if none takes off anything, none is applied. The first child that is refused
has the whole refused. -/

namespace ClubBooking

def IsFirstLargest {α : Type} (f : α → Nat) (as : List α) (a : α) : Prop :=
  ∃ before after, as = before ++ a :: after ∧ (∀ b ∈ before, f b < f a) ∧ ∀ b ∈ after, f b ≤ f a

namespace IsFirstLargest
variable {α β : Type} {f : α → Nat} {a b : α} {as : List α}

theorem mem (h : IsFirstLargest f as a) : a ∈ as := by
  obtain ⟨before, after, rfl, -, -⟩ := h
  exact List.mem_append_right _ (List.mem_cons_self ..)

theorem le (h : IsFirstLargest f as a) (hb : b ∈ as) : f b ≤ f a := by
  obtain ⟨before, after, rfl, hbefore, hafter⟩ := h
  rcases List.mem_append.1 hb with hb | hb
  · exact Nat.le_of_lt (hbefore b hb)
  · rcases List.mem_cons.1 hb with rfl | hb
    · exact Nat.le_refl _
    · exact hafter b hb

theorem head (h : ∀ b ∈ as, f b ≤ f a) : IsFirstLargest f (a :: as) a :=
  ⟨[], as, rfl, by simp, h⟩

theorem cons (h : IsFirstLargest f as a) (hlt : f b < f a) : IsFirstLargest f (b :: as) a := by
  obtain ⟨before, after, rfl, hbefore, hafter⟩ := h
  exact ⟨b :: before, after, rfl, List.forall_mem_cons.2 ⟨hlt, hbefore⟩, hafter⟩

theorem of_map {g : β → α} {bs : List β} (h : IsFirstLargest f (bs.map g) a) :
    ∃ b, g b = a ∧ IsFirstLargest (fun b => f (g b)) bs b := by
  obtain ⟨before, after, hsplit, hbefore, hafter⟩ := h
  obtain ⟨xs, ys, rfl, rfl, hys⟩ := List.map_eq_append_iff.1 hsplit
  obtain ⟨b, zs, rfl, rfl, rfl⟩ := List.map_eq_cons_iff.1 hys
  exact ⟨b, rfl, xs, zs, rfl, List.forall_mem_map.1 hbefore, List.forall_mem_map.1 hafter⟩

end IsFirstLargest

namespace Offer
variable {o : Offer} {price : Money} {t : Trial} {f : Fault}

theorem attempt_eq_error (h : o.apply price = .error f) : o.attempt price = .error f := by
  rw [attempt, h]
  rfl

def saving (o : Offer) (price : Money) : Nat :=
  match o.apply price with
  | .ok m => price.minor - min m.minor price.minor
  | .error _ => 0

theorem saving_of_attempt (hprice : price.minor < 2 ^ 96) (h : o.attempt price = .ok t) :
    o.saving price = t.discount.minor := by
  have hsum := (splits_of_attempt hprice h).sum
  obtain ⟨-, raw, hraw, hminor⟩ := attempt_eq_ok h
  rw [saving, hraw]
  show price.minor - min raw.minor price.minor = t.discount.minor
  omega

end Offer

namespace Trial
variable {price : Money} {o : Offer} {os : List Offer} {t : Trial} {r : Option Trial}

/-- What is chosen is the first trial that takes off most, unless no offer takes off anything. -/
def IsChosen (price : Money) (os : List Offer) : Option Trial → Prop
  | none => ∀ o ∈ os, o.saving price = 0
  | some t => 0 < t.discount.minor ∧ t.offer.attempt price = .ok t ∧
      IsFirstLargest (·.saving price) os t.offer

theorem IsChosen.cons_of_saving_eq_zero (hprice : price.minor < 2 ^ 96) (h : IsChosen price os r)
    (ho : o.saving price = 0) : IsChosen price (o :: os) r := by
  cases r with
  | none => exact List.forall_mem_cons.2 ⟨ho, h⟩
  | some u =>
    obtain ⟨hpos, hu, hlargest⟩ := h
    have hsaving := Offer.saving_of_attempt hprice hu
    refine ⟨hpos, hu, hlargest.cons ?_⟩
    omega

theorem IsChosen.cons_of_pos (hprice : price.minor < 2 ^ 96) (h : IsChosen price os r)
    (ht : t.offer.attempt price = .ok t) (hpos : 0 < t.discount.minor) :
    IsChosen price (t.offer :: os) (rateOrAmount (some t) r) := by
  have hsaving := Offer.saving_of_attempt hprice ht
  cases r with
  | none =>
    refine ⟨hpos, ht, .head fun b hb => ?_⟩
    rw [h b hb]
    exact Nat.zero_le _
  | some u =>
    obtain ⟨hposTail, hu, hlargest⟩ := h
    have hsavingTail := Offer.saving_of_attempt hprice hu
    have hcurrency := (Offer.splits_of_attempt hprice hu).discount_currency.trans
      (Offer.splits_of_attempt hprice ht).discount_currency.symm
    have hle := Money.amount_le_iff hcurrency
    rw [rateOrAmount]
    by_cases hbeats : u.discount.amount ≤ t.discount.amount
    · rw [if_pos hbeats]
      refine ⟨hpos, ht, .head fun b hb => ?_⟩
      have hmost := hlargest.le hb
      have hminor := hle.1 hbeats
      omega
    · rw [if_neg hbeats]
      have hminor := mt hle.2 hbeats
      refine ⟨hposTail, hu, hlargest.cons ?_⟩
      omega

theorem IsChosen.cons (hprice : price.minor < 2 ^ 96) (h : IsChosen price os r)
    (ht : o.attempt price = .ok t) : IsChosen price (o :: os) (rateOrAmount (better none t) r) := by
  have hsaving := Offer.saving_of_attempt hprice ht
  have hzero := t.discount.isZero_iff_minor
  obtain ⟨rfl, -⟩ := Offer.attempt_eq_ok ht
  rw [better]
  by_cases hdiscount : t.discount.isZero
  · rw [if_pos hdiscount]
    exact h.cons_of_saving_eq_zero hprice (hsaving.trans (hzero.1 hdiscount))
  · rw [if_neg hdiscount]
    exact h.cons_of_pos hprice ht (Nat.pos_of_ne_zero (mt hzero.2 hdiscount))

end Trial

namespace Strategy
variable {price : Money} {o : Offer} {os before after : List Offer} {f : Fault}

theorem best_cons (price : Money) (o : Offer) (os : List Offer) :
    best price (o :: os) =
      o.attempt price >>= fun t =>
        (Trial.rateOrAmount (Trial.better none t) ·) <$> best price os := by
  rw [best, bestFrom]
  refine bind_congr fun t => ?_
  rw [bestFrom_eq]

theorem isChosen_best {r : Option Trial} (hprice : price.minor < 2 ^ 96)
    (h : best price os = .ok r) : Trial.IsChosen price os r := by
  induction os generalizing r with
  | nil =>
    cases h
    exact fun _ ho => absurd ho (List.not_mem_nil)
  | cons o os ih =>
    rw [best_cons] at h
    obtain ⟨t, ht, h⟩ := bind_eq_ok_iff.1 h
    obtain ⟨rest, hrest, rfl⟩ := map_eq_ok_iff.1 h
    exact (ih hrest).cons hprice ht

theorem best_eq_error (hbefore : ∀ o ∈ before, ∃ t, o.attempt price = .ok t)
    (ho : o.attempt price = .error f) : best price (before ++ o :: after) = .error f := by
  obtain ⟨r, hr⟩ := exists_best_iff.2 hbefore
  rw [best_append, best_cons, hr, ho]
  rfl

end Strategy

theorem Money.currency_of_reducedBy {price m : Money} {r : Decimal}
    (h : price.reducedBy r = .ok m) : m.currency = price.currency := by
  obtain ⟨discount, -, h⟩ := bind_eq_ok_iff.1 h
  exact (currency_of_saturatingSub h).2

theorem Money.currency_of_meets {minimum : Option Money} {price m : Money} {x : Except Fault Money}
    (h : (do if ← price.meets minimum then x else pure price) = .ok m)
    (hx : x = .ok m → m.currency = price.currency) : m.currency = price.currency := by
  obtain ⟨met, -, h⟩ := bind_eq_ok_iff.1 h
  cases met with
  | false =>
    cases h
    rfl
  | true => exact hx h

theorem RateDiscount.currency_of_apply {d : RateDiscount} {price m : Money}
    (h : d.apply price = .ok m) : m.currency = price.currency := by
  refine Money.currency_of_meets h fun h => ?_
  obtain ⟨discount, -, h⟩ := bind_eq_ok_iff.1 h
  cases hmaximum : d.maximum with
  | none =>
    rw [hmaximum] at h
    exact (Money.currency_of_saturatingSub h).2
  | some most =>
    rw [hmaximum] at h
    obtain ⟨least, -, h⟩ := bind_eq_ok_iff.1 h
    exact (Money.currency_of_saturatingSub h).2

theorem AmountDiscount.currency_of_apply {d : AmountDiscount} {price m : Money}
    (h : d.apply price = .ok m) : m.currency = price.currency :=
  Money.currency_of_meets h fun h => (Money.currency_of_saturatingSub h).2

theorem Coupon.currency_of_apply {c : Coupon} {p : Purchase} {price m : Money}
    (h : c.apply p price = .ok m) : m.currency = price.currency := by
  unfold apply at h
  split at h
  · cases h
    rfl
  refine Money.currency_of_meets h fun h => ?_
  cases hbenefit : c.benefit with
  | rate r =>
    rw [hbenefit] at h
    exact Money.currency_of_reducedBy h
  | amount a =>
    rw [hbenefit] at h
    exact (Money.currency_of_saturatingSub h).2

theorem SeasonalDiscount.currency_of_apply {d : SeasonalDiscount} {date : Date} {price m : Money}
    (h : d.apply date price = .ok m) : m.currency = price.currency := by
  unfold apply at h
  split at h
  · split at h
    · cases h
      rfl
    · exact Money.currency_of_reducedBy h
  · cases h
    rfl

namespace Discount
variable {d : Discount} {p : Purchase} {price m : Money} {f : Fault}

theorem currency_of_apply (hprice : price.minor < 2 ^ 96) (h : d.apply p price = .ok m) :
    m.currency = price.currency := by
  cases d with
  | rate d => exact RateDiscount.currency_of_apply h
  | amount d => exact AmountDiscount.currency_of_apply h
  | coupon c => exact Coupon.currency_of_apply h
  | seasonal d => exact SeasonalDiscount.currency_of_apply h
  | membership priority =>
    change (if p.hasPlanDiscount then price.reducedBy p.plan.discountRate else .ok price) = _ at h
    split at h
    · exact Money.currency_of_reducedBy h
    · cases h
      rfl
  | none =>
    cases h
    rfl
  | composite b ds =>
    obtain ⟨r, hr, rfl⟩ := map_eq_ok_iff.1 h
    obtain ⟨out, -, hsettles⟩ := Blend.exists_settles hprice hr
    exact hsettles.final_currency

def saving (d : Discount) (p : Purchase) (price : Money) : Nat := (d.offer p).saving price

theorem exists_attempt (hprice : price.minor < 2 ^ 96) (h : d.apply p price = .ok m) :
    ∃ t, (d.offer p).attempt price = .ok t := by
  have hcurrency := currency_of_apply hprice h
  obtain ⟨result, hresult, hresultCurrency⟩ := Money.exists_min hcurrency rfl
  obtain ⟨discount, hdiscount, -⟩ := Money.exists_difference rfl hresultCurrency
  refine ⟨⟨d.offer p, result, discount⟩, bind_eq_ok_iff.2 ⟨m, h, ?_⟩⟩
  exact bind_eq_ok_iff.2 ⟨result, hresult, bind_eq_ok_iff.2 ⟨discount, hdiscount, rfl⟩⟩

theorem exists_attempt_offers {ds : List Discount} (hprice : price.minor < 2 ^ 96)
    (h : ∀ d ∈ ds, ∃ m, d.apply p price = .ok m) :
    ∀ o ∈ offers p ds, ∃ t, o.attempt price = .ok t := by
  rw [forall_mem_offers]
  intro d hd
  obtain ⟨m, hm⟩ := h d hd
  exact exists_attempt hprice hm

theorem bestSingle_offers {ds : List Discount} (hprice : price.minor < 2 ^ 96)
    (hfine : ∀ d ∈ ds, ∃ m, d.apply p price = .ok m) :
    ((∀ d ∈ ds, d.saving p price = 0) ∧
        Strategy.bestSingle.run price (offers p ds) = .ok ⟨price, []⟩) ∨
      ∃ d t, IsFirstLargest (·.saving p price) ds d ∧ 0 < d.saving p price ∧
        Strategy.bestSingle.run price (offers p ds) = .ok ⟨t.price, [t.applied]⟩ ∧
        (d.offer p).attempt price = .ok t ∧ t.discount.minor = d.saving p price := by
  obtain ⟨r, hr⟩ := Strategy.exists_best_iff.2 (exists_attempt_offers hprice hfine)
  have hrun : Strategy.bestSingle.run price (offers p ds) = .ok (Strategy.ofTrial price r) :=
    map_eq_ok_iff.2 ⟨r, hr, rfl⟩
  have hchosen := Strategy.isChosen_best hprice hr
  cases r with
  | none => exact .inl ⟨forall_mem_offers.1 hchosen, hrun⟩
  | some t =>
    obtain ⟨hpos, ht, hlargest⟩ := hchosen
    rw [offers_eq_map] at hlargest
    obtain ⟨d, hd, hfirst⟩ := hlargest.of_map
    rw [← hd] at ht
    have hsaving : d.saving p price = t.discount.minor := Offer.saving_of_attempt hprice ht
    exact .inr ⟨d, t, hfirst, hsaving ▸ hpos, hrun, ht, hsaving.symm⟩

theorem bestSingle_offers_eq_error {before after : List Discount} (hprice : price.minor < 2 ^ 96)
    (hbefore : ∀ e ∈ before, ∃ m, e.apply p price = .ok m) (hd : d.apply p price = .error f) :
    Strategy.bestSingle.run price (offers p (before ++ d :: after)) = .error f := by
  have herror : Strategy.best price (offers p before ++ d.offer p :: offers p after) = .error f :=
    Strategy.best_eq_error (exists_attempt_offers hprice hbefore) (Offer.attempt_eq_error hd)
  rw [offers_append, offers, Strategy.run, herror]
  rfl

end Discount

theorem Blend.evaluate_eq_error {b : Blend} {os : List Offer} {price : Money} {f : Fault}
    (h : b.outcome os price = .error f) : b.evaluate os price = .error f := by
  change b.outcome os price >>= _ = _
  rw [h]
  rfl

namespace Composite

/-- The best single child is the first one that takes off most by itself, and its entry says how
much; where no child takes off anything there is no entry. The first child that is refused has the
composite refused, and where none is, the order of the children does not matter to the price. -/
theorem outcome_of_bestSingle {c : Composite} (hbest : c.blend.strategy = .bestSingle)
    (p : Purchase) {price : Money} (hprice : price.IsModerate) :
    ((∀ d ∈ c.applicable p, ∃ m, d.apply p price = .ok m) →
      ((∀ d ∈ c.applicable p, d.saving p price = 0) →
        c.blend.outcome (Discount.offers p c.children) price = .ok ⟨price, []⟩) ∧
      ((∃ d ∈ c.applicable p, d.saving p price ≠ 0) →
        ∃ d out amount, IsFirstLargest (·.saving p price) (c.applicable p) d ∧
          c.blend.outcome (Discount.offers p c.children) price = .ok out ∧
          out.applied = [⟨d.label.description, amount⟩] ∧
          amount.currency = price.currency ∧ amount.minor = d.saving p price ∧
          out.price.currency = price.currency ∧
          out.price.minor = price.minor - d.saving p price)) ∧
    (∀ before d after f, c.applicable p = before ++ d :: after →
      (∀ e ∈ before, ∃ m, e.apply p price = .ok m) → d.apply p price = .error f →
        c.evaluate p price = .error f) ∧
    ∀ c' : Composite, c'.blend = c.blend → c'.children.Perm c.children →
      ∀ r, c.evaluate p price = .ok r →
        ∃ r', c'.evaluate p price = .ok r' ∧ r'.finalPrice.sameValue r.finalPrice := by
  have hlt := hprice.minor_lt
  refine ⟨fun hfine => ?_, fun before d after f hsplit hbefore hd => ?_,
    fun c' hblend hperm r hr => ?_⟩
  · rw [outcome_eq_run hbest]
    rcases Discount.bestSingle_offers hlt hfine with
      ⟨hnothing, hout⟩ | ⟨d, t, hfirst, hpos, hout, ht, hsaving⟩
    · refine ⟨fun _ => hout, ?_⟩
      rintro ⟨d, hd, hsome⟩
      exact absurd (hnothing d hd) hsome
    · refine ⟨fun hnothing => absurd (hnothing d hfirst.mem) (Nat.ne_of_gt hpos), fun _ => ?_⟩
      have hsplits := Offer.splits_of_attempt hlt ht
      have hsum := hsplits.sum
      have hname : t.applied = ⟨d.label.description, t.discount⟩ := by
        rw [Trial.applied, (Offer.attempt_eq_ok ht).1, ← d.toLabel_offer p]
      refine ⟨d, _, t.discount, hfirst, hout, congrArg ([·]) hname, hsplits.discount_currency,
        hsaving, hsplits.currency, ?_⟩
      show t.price.minor = price.minor - d.saving p price
      omega
  · refine Blend.evaluate_eq_error ?_
    rw [outcome_eq_run hbest, hsplit]
    exact Discount.bestSingle_offers_eq_error hlt hbefore hd
  · unfold evaluate
    rw [hblend]
    refine Blend.exists_evaluate_of_sameValue hlt hr fun out hout => ?_
    rw [outcome_eq_run hbest] at hout
    rw [outcome_eq_run hbest]
    exact Strategy.exists_bestSingle_of_perm hlt (Discount.offers_perm (hperm.filter _)) hout

def evenlyBest : Composite where
  blend := { evenly.blend with strategy := .bestSingle }
  children := .none :: evenly.children

theorem outcome_evenlyBest :
    evenlyBest.blend.strategy = .bestSingle ∧ (Money.ofUnits 56 .usd).IsModerate ∧
      (Money.ofUnits 56 .krw).IsModerate ∧
      (∃ d out, IsFirstLargest (·.saving .onEighthPlan (.ofUnits 56 .usd))
          (evenlyBest.applicable .onEighthPlan) d ∧
        evenlyBest.blend.outcome (Discount.offers .onEighthPlan evenlyBest.children)
          (.ofUnits 56 .usd) = .ok out ∧
        out.applied.map (·.description) = ["7 off"] ∧ d.label.description = "7 off" ∧
        d.saving .onEighthPlan (.ofUnits 56 .usd) = 700 ∧ out.price.minor = 4900) ∧
      evenlyBest.evaluate .onEighthPlan (.ofUnits 56 .krw) =
        .error (.currencyMismatch .krw .usd) ∧
      ∃ r r', evenlyBest.evaluate .onEighthPlan (.ofUnits 56 .usd) = .ok r ∧
        (Composite.mk evenlyBest.blend evenlyBest.children.reverse).evaluate .onEighthPlan
          (.ofUnits 56 .usd) = .ok r' ∧ r'.finalPrice.sameValue r.finalPrice := by
  have hbest : evenlyBest.blend.strategy = .bestSingle := rfl
  have hmoderate : (Money.ofUnits 56 .usd).IsModerate := by decide
  have hwon : (Money.ofUnits 56 .krw).IsModerate := by decide
  have hfine : ∀ d ∈ evenlyBest.applicable .onEighthPlan,
      ∃ m, d.apply .onEighthPlan (.ofUnits 56 .usd) = .ok m :=
    List.forall_mem_cons.2 ⟨⟨_, rfl⟩, List.forall_mem_cons.2 ⟨⟨_, rfl⟩,
      List.forall_mem_cons.2 ⟨⟨_, rfl⟩, List.forall_mem_singleton.2 ⟨_, rfl⟩⟩⟩⟩
  have hsome : ∃ d ∈ evenlyBest.applicable .onEighthPlan,
      d.saving .onEighthPlan (.ofUnits 56 .usd) ≠ 0 :=
    ⟨.membership 20, .tail _ (.tail _ (.head _)), by decide⟩
  obtain ⟨hchoice, -, hperm⟩ := outcome_of_bestSingle hbest .onEighthPlan hmoderate
  obtain ⟨d, out, amount, hfirst, hout, happlied, -, hsaving, -, hprice⟩ := (hchoice hfine).2 hsome
  obtain ⟨seen, hseen, hname, hminor⟩ : ∃ seen,
      evenlyBest.blend.outcome (Discount.offers .onEighthPlan evenlyBest.children)
        (.ofUnits 56 .usd) = .ok seen ∧ seen.applied.map (·.description) = ["7 off"] ∧
        seen.price.minor = 4900 := ⟨_, rfl, by decide, by decide⟩
  cases hseen.symm.trans hout
  have hdescription : d.label.description = "7 off" := by
    rw [happlied] at hname
    exact List.singleton_inj.1 hname
  have htotal : (Money.ofUnits 56 .usd).minor = 5600 := by decide
  obtain ⟨-, herror, -⟩ := outcome_of_bestSingle hbest .onEighthPlan hwon
  obtain ⟨r, hr⟩ : ∃ r, evenlyBest.evaluate .onEighthPlan (.ofUnits 56 .usd) = .ok r := ⟨_, rfl⟩
  obtain ⟨r', hr', hsame⟩ := hperm ⟨evenlyBest.blend, evenlyBest.children.reverse⟩ rfl
    (List.reverse_perm _) r hr
  refine ⟨hbest, hmoderate, hwon, ⟨d, out, hfirst, hseen, hname, hdescription, by omega, hminor⟩,
    ?_, r, r', hr, hr', hsame⟩
  exact herror [.none] _ _ _ rfl (List.forall_mem_singleton.2 ⟨_, rfl⟩) rfl

end Composite
end ClubBooking
