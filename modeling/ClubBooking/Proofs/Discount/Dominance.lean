import ClubBooking.Proofs.Discount.Monotone

/-! Which strategy leaves the lower price. The best single offer leaves no more than the most urgent
one. Where prices keep their order through every offer, all offers in turn, and likewise the smart
order, leave no more than the best single one: the offer that was best on the price asked still
takes its share of whatever is left when its turn comes. -/

namespace ClubBooking
variable {c : Currency} {price low high : Money}

theorem Money.Ordered.refl (hprice : price.currency = c) (hupTo : price.IsUpTo 15) :
    Money.Ordered c price price := ⟨hprice, hprice, Nat.le_refl _, hupTo⟩

theorem Money.Ordered.lowered_left {a : Money} (h : Money.Ordered c low high)
    (ha : a.currency = low.currency) (hle : a.minor ≤ low.minor) : Money.Ordered c a high :=
  h.lowered ha rfl (hle.trans h.le) (Nat.le_refl _)

namespace Strategy
variable {os : List Offer} {out best : Outcome}

theorem priorityFirst_eq_ok (h : priorityFirst.run price os = .ok out) :
    out.price = price ∨ ∃ o ∈ os, ∃ t, o.attempt price = .ok t ∧ out.price = t.price := by
  have h : inTurn price (mostUrgent os).toList = .ok out := h
  cases hurgent : mostUrgent os with
  | none =>
    rw [hurgent] at h
    cases h
    exact .inl rfl
  | some o =>
    rw [hurgent] at h
    obtain ⟨t, ht, h⟩ := bind_eq_ok_iff.1 h
    cases h
    exact .inr ⟨o, mem_of_mostUrgent hurgent, t, ht, rfl⟩

theorem bestSingle_le_priorityFirst (hprice : price.minor < 2 ^ 96)
    (hbest : bestSingle.run price os = .ok best) (h : priorityFirst.run price os = .ok out) :
    best.price.minor ≤ out.price.minor := by
  obtain ⟨choice, hchoice, rfl⟩ := bestSingle_eq_ok hprice hbest
  rcases priorityFirst_eq_ok h with heq | ⟨o, ho, t, ht, heq⟩
  · rw [heq]
    exact hchoice.price_le_self hprice
  · rw [heq]
    exact hchoice.price_le hprice ho ht

theorem inTurn_le_attempt {o : Offer} {t : Trial} (hos : ∀ o ∈ os, o.IsMono c)
    (hprice : Money.Ordered c low high) (h : inTurn low os = .ok out) (ho : o ∈ os)
    (ht : o.attempt high = .ok t) : out.price.minor ≤ t.price.minor := by
  induction os generalizing low out with
  | nil => cases ho
  | cons a os ih =>
    obtain ⟨ha, hos⟩ := List.forall_mem_cons.1 hos
    obtain ⟨u, hu, h⟩ := bind_eq_ok_iff.1 h
    obtain ⟨rest, hrest, h⟩ := bind_eq_ok_iff.1 h
    cases h
    have husplits := Offer.splits_of_attempt hprice.low_lt hu
    have hule : u.price.minor ≤ low.minor := by
      have := husplits.sum
      omega
    have hnext := hprice.lowered_left husplits.currency hule
    show rest.price.minor ≤ t.price.minor
    rcases List.mem_cons.1 ho with rfl | ho
    · calc
        rest.price.minor ≤ u.price.minor := (splits_inTurn hnext.low_lt hrest).price_le
        _ ≤ t.price.minor := ha.attempt hprice hu ht
    · exact ih hos hnext hrest ho

theorem sequential_le_bestSingle (hos : ∀ o ∈ os, o.IsMono c)
    (hprice : Money.Ordered c price price) (h : sequential.run price os = .ok out)
    (hbest : bestSingle.run price os = .ok best) : out.price.minor ≤ best.price.minor := by
  obtain ⟨choice, hchoice, rfl⟩ := bestSingle_eq_ok hprice.low_lt hbest
  cases hsome : choice with
  | none => exact (splits_run hprice.low_lt h).price_le
  | some t =>
    obtain ⟨hmem, ht⟩ := hchoice.chosen t hsome
    exact inTurn_le_attempt hos hprice h hmem ht

theorem smart_le_bestSingle (hos : ∀ o ∈ os, o.IsMono c) (hprice : Money.Ordered c price price)
    (h : smart.run price os = .ok out) (hbest : bestSingle.run price os = .ok best) :
    out.price.minor ≤ best.price.minor := by
  obtain ⟨choice, hchoice, rfl⟩ := bestSingle_eq_ok hprice.low_lt hbest
  have hle := (splits_run hprice.low_lt h).price_le
  obtain ⟨others, last, hothers, hlast, rfl⟩ := smart_eq_ok hprice.low_lt h
  have hsplits := splits_inTurn hprice.low_lt hothers
  have hnext := hprice.lowered_left hsplits.currency hsplits.price_le
  cases hsome : choice with
  | none => exact hle
  | some t =>
    obtain ⟨hmem, ht⟩ := hchoice.chosen t hsome
    have hplace := (ofKind_perm os).mem_iff.2 hmem
    rcases List.mem_append.1 hplace with hother | hlastKind
    · -- it is among those that come in turn
      have hothersMono : ∀ o ∈ ofKind .other os, o.IsMono c := fun o ho =>
        hos o (List.mem_of_mem_filter ho)
      calc
        (ofTrial others.price last).price.minor ≤ others.price.minor :=
          hlast.price_le_self hnext.low_lt
        _ ≤ t.price.minor := inTurn_le_attempt hothersMono hprice hothers hother ht
    · -- it is tried again on what the others leave
      obtain ⟨u, hu⟩ := hlast.tried t.offer hlastKind
      calc
        (ofTrial others.price last).price.minor ≤ u.price.minor :=
          hlast.price_le hnext.low_lt hlastKind hu
        _ ≤ t.price.minor := (hos t.offer hmem).attempt hnext hu ht

end Strategy

def Composite.using (comp : Composite) (s : Strategy) : Composite :=
  { comp with blend := { comp.blend with strategy := s } }

namespace Composite
variable {comp : Composite} {p : Purchase} {s s' : Strategy} {r r' : Breakdown}

theorem finalPrice_le_of_outcome_le (hprice : price.minor < 2 ^ 96)
    (hle : ∀ out out',
      (comp.using s).blend.outcome (Discount.offers p comp.children) price = .ok out →
      (comp.using s').blend.outcome (Discount.offers p comp.children) price = .ok out' →
        out.price.minor ≤ out'.price.minor)
    (hr : (comp.using s).evaluate p price = .ok r)
    (hr' : (comp.using s').evaluate p price = .ok r') :
    r.finalPrice.amount ≤ r'.finalPrice.amount := by
  obtain ⟨out, hout, hsettles⟩ := Blend.exists_settles hprice hr
  obtain ⟨out', hout', hsettles'⟩ := Blend.exists_settles hprice hr'
  rw [Money.amount_le_iff (hsettles.final_currency.trans hsettles'.final_currency.symm),
    hsettles.final, hsettles'.final]
  exact max_le_max (max_le_max (hle out out' hout hout') (Nat.le_refl _)) (Nat.le_refl _)

/-- The best single child leads to no more than the most urgent one. Where no minimum is asked, all
children in turn lead to no more than the best single one, and so does the smart order. -/
theorem finalPrice_le_of_strategy (hprice : price.IsModerate) :
    (∀ best urgent, (comp.using .bestSingle).evaluate p price = .ok best →
      (comp.using .priorityFirst).evaluate p price = .ok urgent →
        best.finalPrice.amount ≤ urgent.finalPrice.amount) ∧
    ((∀ d ∈ comp.children, d.Ungated p price.currency) → price.IsUpTo 15 →
      ∀ best, (comp.using .bestSingle).evaluate p price = .ok best →
        (∀ inTurn, (comp.using .sequential).evaluate p price = .ok inTurn →
          inTurn.finalPrice.amount ≤ best.finalPrice.amount) ∧
        ∀ smart, (comp.using .smart).evaluate p price = .ok smart →
          smart.finalPrice.amount ≤ best.finalPrice.amount) := by
  refine ⟨fun best urgent hbest hurgent => ?_, fun hchildren hupTo best hbest => ?_⟩
  · refine finalPrice_le_of_outcome_le hprice.minor_lt (fun out out' hout hout' => ?_) hbest hurgent
    exact Strategy.bestSingle_le_priorityFirst hprice.minor_lt hout hout'
  have hordered := Money.Ordered.refl rfl hupTo
  have hoffers : ∀ o ∈ Discount.offers p comp.children, o.IsMono price.currency :=
    Discount.forall_mem_offers.2 fun d hd => d.isMono_offer (hchildren d hd)
  have happlicable : ∀ o ∈ (Discount.offers p comp.children).filter (·.applies),
      o.IsMono price.currency := fun o ho => hoffers o (List.mem_of_mem_filter ho)
  refine ⟨fun inTurn hinTurn => ?_, fun smart hsmart => ?_⟩
  · refine finalPrice_le_of_outcome_le hprice.minor_lt (fun out out' hout hout' => ?_) hinTurn hbest
    exact Strategy.sequential_le_bestSingle happlicable hordered hout hout'
  · refine finalPrice_le_of_outcome_le hprice.minor_lt (fun out out' hout hout' => ?_) hsmart hbest
    exact Strategy.smart_le_bestSingle happlicable hordered hout hout'

def threeWays : Composite where
  blend := ⟨"ways", .sequential, .none, .none, .none⟩
  children := [
    .membership 10,
    .rate ⟨"eighth", .eighth, .none, .none, 40, Decimal.isRate_eighth⟩,
    .amount ⟨"35 off", .ofUnits 35 .usd, .none, 40, by decide⟩]

theorem finalPrice_le_threeWays :
    (Money.ofUnits 100 .usd).IsModerate ∧ (Money.ofUnits 100 .usd).IsUpTo 15 ∧
      (∀ d ∈ threeWays.children, d.Ungated .onEighthPlan .usd) ∧
      ∃ best urgent inTurn smart,
        (threeWays.using .bestSingle).evaluate .onEighthPlan (.ofUnits 100 .usd) = .ok best ∧
        (threeWays.using .priorityFirst).evaluate .onEighthPlan (.ofUnits 100 .usd) = .ok urgent ∧
        (threeWays.using .sequential).evaluate .onEighthPlan (.ofUnits 100 .usd) = .ok inTurn ∧
        (threeWays.using .smart).evaluate .onEighthPlan (.ofUnits 100 .usd) = .ok smart ∧
        best.finalPrice.minor = 6500 ∧ best.finalPrice.amount ≤ urgent.finalPrice.amount ∧
        inTurn.finalPrice.amount ≤ best.finalPrice.amount ∧
        smart.finalPrice.amount ≤ best.finalPrice.amount := by
  have hmoderate : (Money.ofUnits 100 .usd).IsModerate := by decide
  have hupTo : (Money.ofUnits 100 .usd).IsUpTo 15 := by decide
  have hchildren : ∀ d ∈ threeWays.children, d.Ungated .onEighthPlan .usd := by
    intro d hd
    have hrates := Discount.ratesIn_of_plan (p := .onEighthPlan) Decimal.isRate_eighth
      threeWays.discount
    have hwhole : threeWays.discount.Ungated .onEighthPlan .usd :=
      ⟨by decide, by decide, by decide, hrates, by decide⟩
    exact hwhole.child hd
  obtain ⟨best, hbest, hminor⟩ :
      ∃ r, (threeWays.using .bestSingle).evaluate .onEighthPlan (.ofUnits 100 .usd) = .ok r ∧
        r.finalPrice.minor = 6500 := ⟨_, rfl, by decide⟩
  obtain ⟨urgent, hurgent⟩ :
      ∃ r, (threeWays.using .priorityFirst).evaluate .onEighthPlan (.ofUnits 100 .usd) = .ok r :=
    ⟨_, rfl⟩
  obtain ⟨inTurn, hinTurn⟩ :
      ∃ r, (threeWays.using .sequential).evaluate .onEighthPlan (.ofUnits 100 .usd) = .ok r :=
    ⟨_, rfl⟩
  obtain ⟨smart, hsmart⟩ :
      ∃ r, (threeWays.using .smart).evaluate .onEighthPlan (.ofUnits 100 .usd) = .ok r := ⟨_, rfl⟩
  obtain ⟨hfirst, hrest⟩ := finalPrice_le_of_strategy hmoderate
  obtain ⟨hturn, hlast⟩ := hrest hchildren hupTo best hbest
  exact ⟨hmoderate, hupTo, hchildren, best, urgent, inTurn, smart, hbest, hurgent, hinTurn, hsmart,
    hminor, hfirst best urgent hbest hurgent, hturn inTurn hinTurn, hlast smart hsmart⟩

end Composite
end ClubBooking
