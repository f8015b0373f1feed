import ClubBooking.Proofs.Discount.Largest

/-! Composites nested in composites of their own strategy. In turn within in turn, and best within
best, a composite without cap and floor may give way to its children: every price meets the same
end, whether or not the inner composite applies, and whatever is refused within it. -/

namespace ClubBooking

def Trial.figures (t : Trial) : Money × Money := (t.price, t.discount)

structure Offer.Alike (o o' : Offer) : Prop where
  kind : o.kind = o'.kind
  applies : o.applies = o'.applies
  apply : ∀ price : Money, price.minor < 2 ^ 96 → o.apply price = o'.apply price

theorem Offer.saturatingSub_of_attempt {o : Offer} {price : Money} {t : Trial}
    (h : o.attempt price = .ok t) : price.saturatingSub t.price = .ok t.discount := by
  obtain ⟨raw, -, h⟩ := bind_eq_ok_iff.1 h
  obtain ⟨result, -, h⟩ := bind_eq_ok_iff.1 h
  obtain ⟨discount, hdiscount, h⟩ := bind_eq_ok_iff.1 h
  cases h
  exact hdiscount

theorem Offer.Alike.refl (o : Offer) : o.Alike o := ⟨rfl, rfl, fun _ _ => rfl⟩

theorem Offer.Alike.attempt {o o' : Offer} {price : Money} (h : o.Alike o')
    (hprice : price.minor < 2 ^ 96) :
    Trial.figures <$> o.attempt price = Trial.figures <$> o'.attempt price := by
  simp only [Offer.attempt, h.apply price hprice, map_bind, map_pure]
  rfl

namespace Trial
variable {a a' b b' : Option Trial} {t t' : Trial}

theorem map_figures_better (h : t.figures = t'.figures) :
    (better none t).map figures = (better none t').map figures := by
  obtain ⟨-, hdiscount⟩ := Prod.ext_iff.1 h
  have hdiscount : t.discount = t'.discount := hdiscount
  rw [better, better, hdiscount]
  split
  · rfl
  · exact congrArg some h

theorem map_figures_rateOrAmount (ha : a.map figures = a'.map figures)
    (hb : b.map figures = b'.map figures) :
    (rateOrAmount a b).map figures = (rateOrAmount a' b').map figures := by
  cases a with
  | none =>
    obtain rfl := Option.map_eq_none_iff.1 ha.symm
    exact hb
  | some x =>
    obtain ⟨x', rfl, hx⟩ := Option.map_eq_some_iff.1 ha.symm
    cases b with
    | none =>
      obtain rfl := Option.map_eq_none_iff.1 hb.symm
      exact ha
    | some y =>
      obtain ⟨y', rfl, hy⟩ := Option.map_eq_some_iff.1 hb.symm
      have hx' : x'.discount = x.discount := congrArg Prod.snd hx
      have hy' : y'.discount = y.discount := congrArg Prod.snd hy
      rw [rateOrAmount, rateOrAmount, hx', hy']
      split
      · exact ha
      · exact hb

end Trial

namespace Strategy
variable {os os' ps ps' : List Offer} {o o' : Offer}

def SameTurns (os os' : List Offer) : Prop :=
  ∀ price : Money, price.minor < 2 ^ 96 →
    Outcome.price <$> inTurn price os = Outcome.price <$> inTurn price os'

def SameBest (os os' : List Offer) : Prop :=
  ∀ price : Money, price.minor < 2 ^ 96 →
    Option.map Trial.figures <$> best price os = Option.map Trial.figures <$> best price os'

theorem price_inTurn_append (price : Money) (os os' : List Offer) :
    Outcome.price <$> inTurn price (os ++ os') =
      inTurn price os >>= fun first => Outcome.price <$> inTurn first.price os' := by
  simp only [inTurn_append, map_bind, bind_pure_comp, Functor.map_map]

theorem SameTurns.refl (os : List Offer) : SameTurns os os := fun _ _ => rfl

theorem SameBest.refl (os : List Offer) : SameBest os os := fun _ _ => rfl

theorem SameTurns.append (h : SameTurns os os') (k : SameTurns ps ps') :
    SameTurns (os ++ ps) (os' ++ ps') := by
  intro price hprice
  rw [price_inTurn_append, price_inTurn_append]
  refine bind_eq_bind (h price hprice) fun first first' hfirst _ hsame => ?_
  rw [← hsame]
  exact k first.price (minor_lt_of_inTurn hprice hfirst)

theorem SameBest.append (h : SameBest os os') (k : SameBest ps ps') :
    SameBest (os ++ ps) (os' ++ ps') := by
  intro price hprice
  simp only [best_append, map_bind, map_pure]
  refine bind_eq_bind (h price hprice) fun first first' _ _ hfirst => ?_
  refine bind_eq_bind (k price hprice) fun second second' _ _ hsecond => ?_
  exact congrArg pure (Trial.map_figures_rateOrAmount hfirst hsecond)

theorem price_inTurn_singleton (price : Money) (o : Offer) :
    Outcome.price <$> inTurn price [o] = Trial.price <$> o.attempt price := by
  rw [map_eq_pure_bind Trial.price]
  simp only [inTurn, map_bind, map_pure]
  rfl

theorem best_singleton (price : Money) (o : Offer) :
    best price [o] = Trial.better none <$> o.attempt price := by
  rw [map_eq_pure_bind]
  rfl

theorem sameTurns_singleton (ho : o.Alike o') : SameTurns [o] [o'] := by
  intro price hprice
  rw [price_inTurn_singleton, price_inTurn_singleton]
  have hfigures := congrArg (fun x => Prod.fst <$> x) (ho.attempt hprice)
  rw [Functor.map_map, Functor.map_map] at hfigures
  exact hfigures

theorem sameBest_singleton (ho : o.Alike o') : SameBest [o] [o'] := by
  intro price hprice
  simp only [best_singleton, map_eq_pure_bind, bind_assoc, pure_bind]
  refine bind_eq_bind (ho.attempt hprice) fun t t' _ _ hsame => ?_
  exact congrArg pure (Trial.map_figures_better hsame)

theorem sameTurns_of_alike (h : List.Forall₂ Offer.Alike os os') : SameTurns os os' := by
  induction h with
  | nil => exact .refl []
  | cons ho _ ih => exact (sameTurns_singleton ho).append ih

theorem sameBest_of_alike (h : List.Forall₂ Offer.Alike os os') : SameBest os os' := by
  induction h with
  | nil => exact .refl []
  | cons ho _ ih => exact (sameBest_singleton ho).append ih

theorem SameBest.price_run (h : SameBest os os') {price : Money} (hprice : price.minor < 2 ^ 96) :
    Outcome.price <$> bestSingle.run price os = Outcome.price <$> bestSingle.run price os' := by
  simp only [run, map_bind, map_pure]
  refine bind_eq_bind (h price hprice) fun r r' _ _ hsame => congrArg pure ?_
  cases r with
  | none =>
    obtain rfl := Option.map_eq_none_iff.1 hsame.symm
    rfl
  | some t =>
    obtain ⟨t', rfl, ht⟩ := Option.map_eq_some_iff.1 hsame.symm
    exact (congrArg Prod.fst ht).symm

def Interchangeable (s : Strategy) (o o' : Offer) : Prop :=
  o.Alike o' ∧ (s = .priorityFirst → o.priority = o'.priority)

theorem mostUrgent_of_interchangeable
    (h : List.Forall₂ (Interchangeable .priorityFirst) os os') :
    List.Forall₂ (Interchangeable .priorityFirst) (mostUrgent os).toList
      (mostUrgent os').toList := by
  induction h with
  | nil => exact .nil
  | @cons o o' os os' ho _ ih =>
    rw [mostUrgent, mostUrgent]
    cases hp : mostUrgent os with
    | none =>
      rw [hp, Option.toList_none, List.forall₂_nil_left_iff, Option.toList_eq_nil_iff] at ih
      rw [ih]
      exact .cons ho .nil
    | some q =>
      rw [hp, Option.toList_some] at ih
      cases hp' : mostUrgent os' with
      | none =>
        rw [hp'] at ih
        cases ih
      | some q' =>
        rw [hp', Option.toList_some, List.forall₂_cons] at ih
        dsimp only
        rw [ih.1.2 rfl, ho.2 rfl]
        split
        · exact .cons ih.1 .nil
        · exact .cons ho .nil

theorem price_run_of_interchangeable {s : Strategy} {price : Money}
    (h : List.Forall₂ (Interchangeable s) os os') (hprice : price.minor < 2 ^ 96) :
    Outcome.price <$> s.run price os = Outcome.price <$> s.run price os' := by
  have halike : List.Forall₂ Offer.Alike os os' := h.imp fun _ _ => And.left
  have hkind (k : DiscountKind) : List.Forall₂ Offer.Alike (ofKind k os) (ofKind k os') :=
    List.rel_filter (fun o o' ho => by simp only [ho.kind]) halike
  cases s with
  | sequential => exact sameTurns_of_alike halike price hprice
  | bestSingle => exact (sameBest_of_alike halike).price_run hprice
  | priorityFirst =>
    have hurgent := (mostUrgent_of_interchangeable h).imp fun _ _ => And.left
    exact sameTurns_of_alike hurgent price hprice
  | smart =>
    simp only [smart_run, map_bind, map_pure]
    refine bind_eq_bind (sameTurns_of_alike (hkind .other) price hprice) ?_
    intro others others' hothers _ hsame
    have hlast := ((sameBest_of_alike (hkind .rate)).append
      (sameBest_of_alike (hkind .amount))).price_run (minor_lt_of_inTurn hprice hothers)
    rw [← hsame]
    simpa only [map_eq_pure_bind] using hlast

end Strategy

def Breakdown.figures (r : Breakdown) : Money × Money × Bool × Bool :=
  (r.finalPrice, r.totalDiscount, r.capped, r.floored)

namespace Blend
variable {b : Blend} {os os' : List Offer} {price : Money} {out : Outcome} {f : Fault}

def IsBare (b : Blend) : Prop := b.cap = none ∧ b.floor = none

theorem exists_attempt_of_outcome (hbare : b.IsBare) (hprice : price.minor < 2 ^ 96)
    (hout : b.outcome os price = .ok out) :
    ∃ total, price.saturatingSub out.price = .ok total ∧
      (b.offer os).attempt price = .ok ⟨b.offer os, out.price, total⟩ := by
  have hsplits : out.Splits price := Strategy.splits_run hprice hout
  obtain ⟨total, htotal, -⟩ := Money.exists_difference rfl hsplits.currency
  have hcap : b.applyCap price out.price = .ok (out.price, false) := by
    rw [applyCap, hbare.1]
  have hfloor : b.applyFloor price out.price = .ok (out.price, false) := by
    rw [applyFloor, hbare.2]
  have hevaluate : b.evaluate os price =
      .ok ⟨price, out.price, total, b.strategy, out.applied, false, false⟩ :=
    evaluate_eq_ok_iff.2 ⟨out, out.price, hout, hcap, hfloor, htotal, rfl, rfl, rfl⟩
  have happly : (b.offer os).apply price = .ok out.price :=
    map_eq_ok_iff.2 ⟨_, hevaluate, rfl⟩
  have hless : ¬ price.amount < out.price.amount := by
    rw [Money.amount_lt_iff hsplits.currency.symm]
    exact Nat.not_lt.2 hsplits.price_le
  have hmin : out.price.min price = .ok out.price :=
    Money.min_eq_ok_iff.2 ⟨hsplits.currency, (if_neg hless).symm⟩
  refine ⟨total, htotal, bind_eq_ok_iff.2 ⟨_, happly, bind_eq_ok_iff.2 ⟨_, hmin, ?_⟩⟩⟩
  exact bind_eq_ok_iff.2 ⟨_, htotal, rfl⟩

theorem attempt_eq_error (h : b.outcome os price = .error f) :
    (b.offer os).attempt price = .error f := by
  refine Offer.attempt_eq_error ?_
  show (b.evaluate os price).map _ = _
  rw [evaluate_eq_error h]
  rfl

theorem sameTurns_of_bare (hbare : b.IsBare) (hstrategy : b.strategy = .sequential) :
    Strategy.SameTurns [b.offer os] (os.filter (·.applies)) := by
  intro price hprice
  have houtcome : b.outcome os price = Strategy.inTurn price (os.filter (·.applies)) := by
    rw [outcome, hstrategy]
    rfl
  rw [Strategy.price_inTurn_singleton, ← houtcome]
  cases hout : b.outcome os price with
  | error f =>
    rw [attempt_eq_error hout]
    rfl
  | ok out =>
    obtain ⟨total, -, hattempt⟩ := exists_attempt_of_outcome hbare hprice hout
    rw [hattempt]
    rfl

theorem sameBest_of_bare (hbare : b.IsBare) (hstrategy : b.strategy = .bestSingle) :
    Strategy.SameBest [b.offer os] (os.filter (·.applies)) := by
  intro price hprice
  have houtcome : b.outcome os price =
      Strategy.ofTrial price <$> Strategy.best price (os.filter (·.applies)) := by
    rw [outcome, hstrategy, map_eq_pure_bind]
    rfl
  rw [Strategy.best_singleton]
  cases hbest : Strategy.best price (os.filter (·.applies)) with
  | error f =>
    rw [hbest] at houtcome
    rw [attempt_eq_error houtcome]
    rfl
  | ok r =>
    rw [hbest] at houtcome
    obtain ⟨total, htotal, hattempt⟩ := exists_attempt_of_outcome hbare hprice houtcome
    rw [hattempt]
    refine congrArg Except.ok ?_
    cases r with
    | none =>
      -- nothing was chosen, and the inner composite takes nothing off
      obtain ⟨zero, hzero, hisZero⟩ := price.exists_saturatingSub_self
      cases hzero.symm.trans htotal
      exact congrArg (Option.map Trial.figures) (if_pos hisZero)
    | some t =>
      obtain ⟨-, ht⟩ := (Strategy.isBest_best hprice hbest).chosen t rfl
      obtain rfl : t.discount = total :=
        Except.ok.inj ((Offer.saturatingSub_of_attempt ht).symm.trans htotal)
      have hpos := (Strategy.gains_best hprice hbest t rfl).2
      have hsome : ¬ t.discount.isZero := mt t.discount.isZero_iff_minor.1 (Nat.ne_of_gt hpos)
      have hbetter : Trial.better none ⟨b.offer os, t.price, t.discount⟩ =
          some ⟨b.offer os, t.price, t.discount⟩ := if_neg hsome
      show (Trial.better none ⟨b.offer os, t.price, t.discount⟩).map Trial.figures = _
      rw [hbetter]
      rfl

/-- Two lists of children that lead every price to the same one by the strategy of a composite. -/
structure SameEnd (b : Blend) (os os' : List Offer) : Prop where
  any : os.any (·.applies) = os'.any (·.applies)
  price : ∀ price : Money, price.minor < 2 ^ 96 →
    Outcome.price <$> b.outcome os price = Outcome.price <$> b.outcome os' price

theorem filter_append_cons (before after : List Offer) (o : Offer) :
    (before ++ o :: after).filter (·.applies) =
      before.filter (·.applies) ++ ([o].filter (·.applies) ++ after.filter (·.applies)) := by
  rw [← List.filter_append, ← List.filter_append]
  rfl

/-- In a composite of its own strategy, a composite without cap and floor gives way to its
children. -/
theorem sameEnd_of_bare {inner : Blend} {before after : List Offer} (hbare : inner.IsBare)
    (hsame : inner.strategy = b.strategy)
    (hstrategy : b.strategy = .sequential ∨ b.strategy = .bestSingle) :
    b.SameEnd (before ++ inner.offer os :: after) (before ++ os ++ after) where
  any := by
    simp only [List.any_append, List.any_cons, offer, Bool.or_assoc]
  price price hprice := by
    have happlies : (inner.offer os).applies = os.any (·.applies) := rfl
    rw [outcome, outcome, filter_append_cons, List.filter_append, List.filter_append,
      List.append_assoc]
    by_cases hany : os.any (·.applies) = true
    · have hkeep : [inner.offer os].filter (·.applies) = [inner.offer os] :=
        List.filter_eq_self.2 fun o ho => by rw [List.mem_singleton.1 ho, happlies, hany]
      rw [hkeep]
      rcases hstrategy with hturn | hbest
      · have hmiddle : Strategy.SameTurns [inner.offer os] (os.filter (·.applies)) :=
          sameTurns_of_bare hbare (hsame.trans hturn)
        rw [hturn]
        exact (Strategy.SameTurns.refl _).append (hmiddle.append (.refl _)) price hprice
      · have hmiddle : Strategy.SameBest [inner.offer os] (os.filter (·.applies)) :=
          sameBest_of_bare hbare (hsame.trans hbest)
        rw [hbest]
        exact ((Strategy.SameBest.refl _).append (hmiddle.append (.refl _))).price_run hprice
    · have hdrop : [inner.offer os].filter (·.applies) = [] := by
        simpa [happlies] using hany
      have hnone : os.filter (·.applies) = [] := by
        simpa using hany
      rw [hdrop, hnone]

theorem sameEnd_of_interchangeable
    (h : List.Forall₂ (Strategy.Interchangeable b.strategy) os os') : b.SameEnd os os' where
  any := by
    induction h with
    | nil => rfl
    | cons ho _ ih => rw [List.any_cons, List.any_cons, ho.1.applies, ih]
  price price hprice := by
    refine Strategy.price_run_of_interchangeable ?_ hprice
    exact List.rel_filter (fun o o' ho => by simp only [ho.1.applies]) h

theorem SameEnd.evaluate (h : b.SameEnd os os') (hprice : price.minor < 2 ^ 96) :
    Breakdown.figures <$> b.evaluate os price = Breakdown.figures <$> b.evaluate os' price := by
  unfold Blend.evaluate
  rw [map_bind, map_bind]
  refine bind_eq_bind (h.price price hprice) fun out out' _ _ hsame => ?_
  simp only [hsame, map_bind, map_pure, Breakdown.figures]

theorem SameEnd.alike (h : b.SameEnd os os') : (b.offer os).Alike (b.offer os') where
  kind := rfl
  applies := h.any
  apply price hprice := by
    have hfinal := congrArg (fun x => Prod.fst <$> x) (h.evaluate hprice)
    rw [Functor.map_map, Functor.map_map] at hfinal
    exact hfinal

end Blend

namespace Discount

/-- Somewhere in a composite, a child without cap and floor has given way to its own children: a
composite in turn within one in turn, or the best within the best. Any composites may lie around
the two, but where one of them goes by priority numbers the change must not show in these. -/
inductive Flattens : Discount → Discount → Prop where
  | here (outer inner : Blend) (before inside after : List Discount)
      (strategy : outer.strategy = .sequential ∨ outer.strategy = .bestSingle)
      (same : inner.strategy = outer.strategy) (bare : inner.IsBare) :
      Flattens (.composite outer (before ++ .composite inner inside :: after))
        (.composite outer (before ++ inside ++ after))
  | within (b : Blend) (before after : List Discount) {d e : Discount} (h : Flattens d e)
      (priority : b.strategy = .priorityFirst → d.label.priority = e.label.priority) :
      Flattens (.composite b (before ++ d :: after)) (.composite b (before ++ e :: after))

theorem Flattens.exists_sameEnd {d e : Discount} (h : d.Flattens e) (p : Purchase) :
    ∃ b ds es, d = .composite b ds ∧ e = .composite b es ∧
      b.SameEnd (offers p ds) (offers p es) := by
  induction h with
  | here outer inner before inside after strategy same bare =>
    refine ⟨outer, _, _, rfl, rfl, ?_⟩
    rw [offers_append, offers_append, offers_append, offers, offer]
    exact Blend.sameEnd_of_bare bare same strategy
  | @within b before after d e h priority ih =>
    refine ⟨b, _, _, rfl, rfl, Blend.sameEnd_of_interchangeable ?_⟩
    obtain ⟨inner, ds, es, rfl, rfl, hsame⟩ := ih
    have hself (o : Offer) : Strategy.Interchangeable b.strategy o o := ⟨.refl o, fun _ => rfl⟩
    rw [offers_append, offers_append, offers, offers]
    refine List.rel_append (List.forall₂_same.2 fun o _ => hself o) (.cons ⟨?_, ?_⟩ ?_)
    · exact hsame.alike
    · intro hfirst
      rw [toLabel_offer, toLabel_offer]
      exact priority hfirst
    · exact List.forall₂_same.2 fun o _ => hself o

end Discount

namespace Composite

/-- Where a nested composite without cap and floor has given way to its children, a price is refused
for the same fault, or it ends the same, with the same effect of cap and floor. -/
theorem evaluate_of_flattens {c c' : Composite} (h : c.discount.Flattens c'.discount)
    (p : Purchase) {price : Money} (hprice : price.IsModerate) :
    (∃ f, c.evaluate p price = .error f ∧ c'.evaluate p price = .error f) ∨
      ∃ r r', c.evaluate p price = .ok r ∧ c'.evaluate p price = .ok r' ∧
        r'.finalPrice = r.finalPrice ∧ r'.totalDiscount = r.totalDiscount ∧
        r'.capped = r.capped ∧ r'.floored = r.floored := by
  have hfigures : Breakdown.figures <$> c.evaluate p price =
      Breakdown.figures <$> c'.evaluate p price := by
    obtain ⟨b, ds, es, hc, hc', hsame⟩ := h.exists_sameEnd p
    obtain ⟨rfl, rfl⟩ := Discount.composite.inj hc
    obtain ⟨hblend, rfl⟩ := Discount.composite.inj hc'
    unfold evaluate
    rw [hblend]
    exact hsame.evaluate hprice.minor_lt
  refine (map_eq_map_iff.1 hfigures).imp_right ?_
  rintro ⟨r, r', hr, hr', heq⟩
  obtain ⟨hfinal, htotal, hcapped, hfloored⟩ : r.finalPrice = r'.finalPrice ∧
      r.totalDiscount = r'.totalDiscount ∧ r.capped = r'.capped ∧ r.floored = r'.floored := by
    simpa [Breakdown.figures] using heq
  exact ⟨r, r', hr, hr', hfinal.symm, htotal.symm, hcapped.symm, hfloored.symm⟩

def fiftyAndThen (children : List Discount) : Composite where
  blend := halfAndThirty.blend
  children := [
    .amount ⟨"50 off", .ofUnits 50 .usd, .none, 40, by decide⟩,
    .composite ⟨"then", .sequential, .none, .none, .none⟩ children]

def fifteenAndPlan : List Discount :=
  [.amount ⟨"15 off", .ofUnits 15 .usd, .none, 40, by decide⟩, .membership 20]

def nestedTwice : Composite :=
  fiftyAndThen
    [.none, .composite ⟨"inmost", .sequential, .none, .none, some 5⟩ fifteenAndPlan]

def nestedOnce : Composite := fiftyAndThen (.none :: fifteenAndPlan)

theorem evaluate_nestedTwice :
    nestedTwice.discount.Flattens nestedOnce.discount ∧ (Money.ofUnits 100 .usd).IsModerate ∧
      ∃ r r', nestedTwice.evaluate .onEighthPlan (.ofUnits 100 .usd) = .ok r ∧
        nestedOnce.evaluate .onEighthPlan (.ofUnits 100 .usd) = .ok r' ∧
        r'.finalPrice = r.finalPrice ∧ r'.capped = r.capped ∧ r'.floored = r.floored ∧
        r.capped = true ∧ r.floored = true ∧ r.finalPrice.minor = 4500 := by
  have hflattens : nestedTwice.discount.Flattens nestedOnce.discount :=
    .within _ [_] []
      (.here ⟨"then", .sequential, .none, .none, .none⟩ _ [.none] fifteenAndPlan []
        (.inl rfl) rfl ⟨rfl, rfl⟩)
      (fun hfirst => by cases hfirst)
  have hmoderate : (Money.ofUnits 100 .usd).IsModerate := by decide
  obtain ⟨seen, hseen, hcapped, hfloored, hminor⟩ : ∃ seen,
      nestedTwice.evaluate .onEighthPlan (.ofUnits 100 .usd) = .ok seen ∧
        seen.capped = true ∧ seen.floored = true ∧ seen.finalPrice.minor = 4500 :=
    ⟨_, rfl, by decide, by decide, by decide⟩
  rcases evaluate_of_flattens hflattens .onEighthPlan hmoderate with
    ⟨f, hf, -⟩ | ⟨r, r', hr, hr', hfinal, -, hcap, hfloor⟩
  · cases hseen.symm.trans hf
  · cases hseen.symm.trans hr
    exact ⟨hflattens, hmoderate, seen, r', hseen, hr', hfinal, hcap, hfloor, hcapped, hfloored,
      hminor⟩

end Composite
end ClubBooking
