import ClubBooking.Discount.Policy
import ClubBooking.Proofs.Money.Minor

/-! Strategies split a price: the price that they arrive at and the discounts that they list make
up the price they started from. Nothing is asked of the offers, since an offer is never let raise a
price. -/

namespace ClubBooking

structure Trial.Splits (t : Trial) (price : Money) : Prop where
  currency : t.price.currency = price.currency
  discount_currency : t.discount.currency = price.currency
  sum : t.price.minor + t.discount.minor = price.minor

namespace Outcome

def saved (out : Outcome) : Nat := (out.applied.map (·.amount.minor)).sum

/-- The price arrived at and the discounts listed, none of them zero, make up the price. -/
structure Splits (out : Outcome) (price : Money) : Prop where
  currency : out.price.currency = price.currency
  applied_currency : ∀ a ∈ out.applied, a.amount.currency = price.currency
  applied_pos : ∀ a ∈ out.applied, 0 < a.amount.minor
  sum : out.price.minor + out.saved = price.minor

theorem Splits.price_le {out : Outcome} {price : Money} (h : out.Splits price) :
    out.price.minor ≤ price.minor := by
  have := h.sum
  omega

theorem Splits.nothing (price : Money) : Splits ⟨price, []⟩ price :=
  ⟨rfl, by simp, by simp, rfl⟩

theorem Splits.trans {price : Money} {first second : Outcome} (h₁ : first.Splits price)
    (h₂ : second.Splits first.price) :
    Splits ⟨second.price, first.applied ++ second.applied⟩ price where
  currency := h₂.currency.trans h₁.currency
  applied_currency a ha := by
    rcases List.mem_append.1 ha with ha | ha
    · exact h₁.applied_currency a ha
    · exact (h₂.applied_currency a ha).trans h₁.currency
  applied_pos a ha := (List.mem_append.1 ha).elim (h₁.applied_pos a) (h₂.applied_pos a)
  sum := by
    have hfirst := h₁.sum
    have hsecond := h₂.sum
    simp only [saved, List.map_append, List.sum_append] at *
    omega

end Outcome

theorem Trial.Splits.single {t : Trial} {price : Money} (h : t.Splits price)
    (hpos : 0 < t.discount.minor) : Outcome.Splits ⟨t.price, [t.applied]⟩ price where
  currency := h.currency
  applied_currency a ha := by
    obtain rfl := List.mem_singleton.1 ha
    exact h.discount_currency
  applied_pos a ha := by
    obtain rfl := List.mem_singleton.1 ha
    exact hpos
  sum := by simpa [Outcome.saved, Trial.applied] using h.sum

variable {price : Money} {o : Offer} {os : List Offer} {out : Outcome}

theorem Offer.splits_of_attempt {t : Trial} (hprice : price.minor < 2 ^ 96)
    (h : o.attempt price = .ok t) : t.Splits price := by
  obtain ⟨raw, -, h⟩ := bind_eq_ok_iff.1 h
  obtain ⟨result, hresult, h⟩ := bind_eq_ok_iff.1 h
  obtain ⟨discount, hdiscount, h⟩ := bind_eq_ok_iff.1 h
  cases h
  have hle : result.minor ≤ price.minor := by
    rw [Money.minor_of_min hresult]
    exact Nat.min_le_right _ _
  have hsub := Money.minor_of_saturatingSub hprice (by omega) hdiscount
  refine ⟨(Money.currency_of_min hresult).2, (Money.currency_of_saturatingSub hdiscount).2, ?_⟩
  show result.minor + discount.minor = price.minor
  omega

def Trial.Gains (t : Trial) (price : Money) : Prop := t.Splits price ∧ 0 < t.discount.minor

theorem Trial.gains_of_better {best : Option Trial} {t u : Trial}
    (hbest : ∀ b ∈ best, b.Gains price) (ht : t.Splits price) (hu : u ∈ Trial.better best t) :
    u.Gains price := by
  cases best with
  | none =>
    rw [Trial.better] at hu
    split at hu
    · cases hu
    · next hzero =>
      cases hu
      exact ⟨ht, Nat.pos_of_ne_zero (mt (Money.isZero_iff_minor _).2 hzero)⟩
  | some b =>
    obtain ⟨hb, hpos⟩ := hbest b rfl
    rw [Trial.better] at hu
    split at hu
    · next hlt =>
      cases hu
      have hcurrency := hb.discount_currency.trans ht.discount_currency.symm
      exact ⟨ht, Nat.zero_lt_of_lt ((Money.amount_lt_iff hcurrency).1 hlt)⟩
    · cases hu
      exact ⟨hb, hpos⟩

theorem Trial.mem_of_mem_rateOrAmount {rate amount : Option Trial} {t : Trial}
    (h : t ∈ Trial.rateOrAmount rate amount) : t ∈ rate ∨ t ∈ amount := by
  unfold Trial.rateOrAmount at h
  split at h
  · split at h
    · exact .inl h
    · exact .inr h
  · exact .inl h
  · exact .inr h

namespace Strategy

theorem splits_inTurn (hprice : price.minor < 2 ^ 96) (h : inTurn price os = .ok out) :
    out.Splits price := by
  induction os generalizing price out with
  | nil =>
    cases h
    exact .nothing price
  | cons o os ih =>
    obtain ⟨t, ht, h⟩ := bind_eq_ok_iff.1 h
    obtain ⟨rest, hrest, h⟩ := bind_eq_ok_iff.1 h
    cases h
    have hsplit := Offer.splits_of_attempt hprice ht
    have hrest := ih (by have := hsplit.sum; omega) hrest
    split
    · next hzero =>
      have hfirst : Outcome.Splits ⟨t.price, []⟩ price := by
        refine ⟨hsplit.currency, by simp, by simp, ?_⟩
        have hnone := (Money.isZero_iff_minor _).1 hzero
        have hsum := hsplit.sum
        show t.price.minor + 0 = price.minor
        omega
      exact hfirst.trans hrest
    · next hzero =>
      have hpos := Nat.pos_of_ne_zero (mt (Money.isZero_iff_minor _).2 hzero)
      exact (hsplit.single hpos).trans hrest

theorem minor_lt_of_inTurn (hprice : price.minor < 2 ^ 96) (h : inTurn price os = .ok out) :
    out.price.minor < 2 ^ 96 :=
  Nat.lt_of_le_of_lt (splits_inTurn hprice h).price_le hprice

theorem gains_bestFrom {best : Option Trial} {r : Option Trial} (hprice : price.minor < 2 ^ 96)
    (hbest : ∀ b ∈ best, b.Gains price) (h : bestFrom price best os = .ok r) :
    ∀ t ∈ r, t.Gains price := by
  induction os generalizing best with
  | nil =>
    cases h
    exact hbest
  | cons o os ih =>
    obtain ⟨t, ht, h⟩ := bind_eq_ok_iff.1 h
    have hsplit := Offer.splits_of_attempt hprice ht
    exact ih (fun u hu => Trial.gains_of_better hbest hsplit hu) h

theorem gains_best {r : Option Trial} (hprice : price.minor < 2 ^ 96)
    (h : best price os = .ok r) : ∀ t ∈ r, t.Gains price :=
  gains_bestFrom hprice (by simp) h

theorem splits_ofTrial {r : Option Trial} (h : ∀ t ∈ r, t.Gains price) :
    (ofTrial price r).Splits price := by
  cases r with
  | none => exact .nothing price
  | some t => exact (h t rfl).1.single (h t rfl).2

theorem splits_run {s : Strategy} (hprice : price.minor < 2 ^ 96)
    (h : s.run price os = .ok out) : out.Splits price := by
  cases s with
  | sequential => exact splits_inTurn hprice h
  | bestSingle =>
    obtain ⟨r, hr, h⟩ := bind_eq_ok_iff.1 h
    cases h
    exact splits_ofTrial (gains_best hprice hr)
  | priorityFirst => exact splits_inTurn hprice h
  | smart =>
    obtain ⟨others, hothers, h⟩ := bind_eq_ok_iff.1 h
    obtain ⟨rate, hrate, h⟩ := bind_eq_ok_iff.1 h
    obtain ⟨amount, hamount, h⟩ := bind_eq_ok_iff.1 h
    cases h
    -- the best rate and the best amount are tried on what the other kinds leave
    have hlt := minor_lt_of_inTurn hprice hothers
    refine (splits_inTurn hprice hothers).trans (splits_ofTrial fun t ht => ?_)
    exact (Trial.mem_of_mem_rateOrAmount ht).elim (gains_best hlt hrate t)
      (gains_best hlt hamount t)

end Strategy
end ClubBooking
