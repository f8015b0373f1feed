import ClubBooking.Proofs.Discount.Split

/-! What is chosen from some offers: the best trial takes off at least what any of them does, and so
leaves the least price that one of them leaves. Offers tried later are compared with the best so
far, and the better of two choices is the best of both lists together. -/

namespace ClubBooking
variable {price : Money} {o : Offer} {os : List Offer}

theorem Offer.attempt_eq_ok {t : Trial} (h : o.attempt price = .ok t) :
    t.offer = o ∧ ∃ raw, o.apply price = .ok raw ∧ t.price.minor = min raw.minor price.minor := by
  obtain ⟨raw, hraw, h⟩ := bind_eq_ok_iff.1 h
  obtain ⟨result, hresult, h⟩ := bind_eq_ok_iff.1 h
  obtain ⟨discount, -, h⟩ := bind_eq_ok_iff.1 h
  cases h
  exact ⟨rfl, raw, hraw, Money.minor_of_min hresult⟩

namespace Trial

def savedBy : Option Trial → Nat
  | some t => t.discount.minor
  | none => 0

theorem mem_of_mem_better {best : Option Trial} {t u : Trial} (h : u ∈ better best t) :
    u ∈ best ∨ u = t := by
  cases best with
  | none =>
    rw [better] at h
    split at h
    · cases h
    · exact .inr (Option.some.inj h).symm
  | some b =>
    rw [better] at h
    split at h
    · exact .inr (Option.some.inj h).symm
    · exact .inl h

structure IsBest (price : Money) (os : List Offer) (best : Option Trial) : Prop where
  tried : ∀ o ∈ os, ∃ t, o.attempt price = .ok t
  chosen : ∀ t ∈ best, t.offer ∈ os ∧ t.offer.attempt price = .ok t
  most : ∀ o ∈ os, ∀ t, o.attempt price = .ok t → t.discount.minor ≤ savedBy best

theorem IsBest.nil (price : Money) : IsBest price [] none :=
  ⟨by simp, by simp, by simp⟩

variable {best : Option Trial} {t : Trial}

theorem IsBest.splits (h : IsBest price os best) (hprice : price.minor < 2 ^ 96) :
    ∀ t ∈ best, t.Splits price := fun t ht =>
  Offer.splits_of_attempt hprice (h.chosen t ht).2

theorem savedBy_better (hbest : ∀ b ∈ best, b.Splits price) (ht : t.Splits price) :
    savedBy (better best t) = max (savedBy best) t.discount.minor := by
  cases best with
  | none =>
    have hzero := t.discount.isZero_iff_minor
    rw [better]
    split
    · next h => rw [savedBy, hzero.1 h, Nat.max_self]
    · exact (Nat.zero_max _).symm
  | some b =>
    have hcurrency := (hbest b rfl).discount_currency.trans ht.discount_currency.symm
    have hlt := Money.amount_lt_iff hcurrency
    rw [better]
    split
    · next h => exact (Nat.max_eq_right (Nat.le_of_lt (hlt.1 h))).symm
    · next h => exact (Nat.max_eq_left (Nat.le_of_not_lt (mt hlt.2 h))).symm

theorem savedBy_rateOrAmount {rate amount : Option Trial} (hrate : ∀ t ∈ rate, t.Splits price)
    (hamount : ∀ t ∈ amount, t.Splits price) :
    savedBy (rateOrAmount rate amount) = max (savedBy rate) (savedBy amount) := by
  cases rate with
  | none => exact (Nat.zero_max _).symm
  | some r =>
    cases amount with
    | none => exact (Nat.max_zero _).symm
    | some a =>
      have hcurrency := (hamount a rfl).discount_currency.trans (hrate r rfl).discount_currency.symm
      have hle := Money.amount_le_iff hcurrency
      rw [rateOrAmount]
      split
      · next h => exact (Nat.max_eq_left (hle.1 h)).symm
      · next h => exact (Nat.max_eq_right (Nat.le_of_not_le (mt hle.2 h))).symm

theorem IsBest.better (hprice : price.minor < 2 ^ 96) (h : IsBest price os best)
    (ht : o.attempt price = .ok t) : IsBest price (os ++ [o]) (Trial.better best t) := by
  have hsaved := savedBy_better (h.splits hprice) (Offer.splits_of_attempt hprice ht)
  refine ⟨fun a ha => ?_, fun u hu => ?_, fun a ha u hu => ?_⟩
  · rcases List.mem_append.1 ha with ha | ha
    · exact h.tried a ha
    · obtain rfl := List.mem_singleton.1 ha
      exact ⟨t, ht⟩
  · rcases mem_of_mem_better hu with hu | rfl
    · exact ⟨List.mem_append_left _ (h.chosen u hu).1, (h.chosen u hu).2⟩
    · obtain ⟨rfl, -⟩ := Offer.attempt_eq_ok ht
      exact ⟨List.mem_append_right _ (List.mem_singleton_self _), ht⟩
  · rw [hsaved]
    rcases List.mem_append.1 ha with ha | ha
    · exact (h.most a ha u hu).trans (Nat.le_max_left _ _)
    · obtain rfl := List.mem_singleton.1 ha
      cases hu.symm.trans ht
      exact Nat.le_max_right _ _

theorem IsBest.rateOrAmount {rate amount : Option Trial} {os' : List Offer}
    (hprice : price.minor < 2 ^ 96) (hrate : IsBest price os rate)
    (hamount : IsBest price os' amount) :
    IsBest price (os ++ os') (Trial.rateOrAmount rate amount) := by
  have hsaved := savedBy_rateOrAmount (hrate.splits hprice) (hamount.splits hprice)
  refine ⟨fun a ha => ?_, fun u hu => ?_, fun a ha u hu => ?_⟩
  · rcases List.mem_append.1 ha with ha | ha
    · exact hrate.tried a ha
    · exact hamount.tried a ha
  · rcases mem_of_mem_rateOrAmount hu with hu | hu
    · exact ⟨List.mem_append_left _ (hrate.chosen u hu).1, (hrate.chosen u hu).2⟩
    · exact ⟨List.mem_append_right _ (hamount.chosen u hu).1, (hamount.chosen u hu).2⟩
  · rw [hsaved]
    rcases List.mem_append.1 ha with ha | ha
    · exact (hrate.most a ha u hu).trans (Nat.le_max_left _ _)
    · exact (hamount.most a ha u hu).trans (Nat.le_max_right _ _)

theorem IsBest.price_le (hprice : price.minor < 2 ^ 96) (h : IsBest price os best) (ho : o ∈ os)
    (ht : o.attempt price = .ok t) : (Strategy.ofTrial price best).price.minor ≤ t.price.minor := by
  have hsum := (Offer.splits_of_attempt hprice ht).sum
  have hmost := h.most o ho t ht
  cases hbest : best with
  | none =>
    rw [hbest, savedBy] at hmost
    show price.minor ≤ t.price.minor
    omega
  | some b =>
    have hbsum := (h.splits hprice b hbest).sum
    rw [hbest, savedBy] at hmost
    show b.price.minor ≤ t.price.minor
    omega

theorem IsBest.price_le_self (hprice : price.minor < 2 ^ 96) (h : IsBest price os best) :
    (Strategy.ofTrial price best).price.minor ≤ price.minor := by
  cases hbest : best with
  | none => exact Nat.le_refl _
  | some b =>
    have hsum := (h.splits hprice b hbest).sum
    show b.price.minor ≤ price.minor
    omega

end Trial

namespace Strategy

theorem isBest_bestFrom {tried : List Offer} {best r : Option Trial} (hprice : price.minor < 2 ^ 96)
    (hbest : Trial.IsBest price tried best) (h : bestFrom price best os = .ok r) :
    Trial.IsBest price (tried ++ os) r := by
  induction os generalizing tried best with
  | nil =>
    cases h
    rw [List.append_nil]
    exact hbest
  | cons o os ih =>
    obtain ⟨t, ht, h⟩ := bind_eq_ok_iff.1 h
    rw [List.append_cons]
    exact ih (hbest.better hprice ht) h

theorem isBest_best {r : Option Trial} (hprice : price.minor < 2 ^ 96)
    (h : best price os = .ok r) : Trial.IsBest price os r :=
  isBest_bestFrom hprice (.nil price) h

theorem bestSingle_eq_ok {out : Outcome} (hprice : price.minor < 2 ^ 96)
    (h : bestSingle.run price os = .ok out) :
    ∃ best, Trial.IsBest price os best ∧ out = ofTrial price best := by
  obtain ⟨r, hr, h⟩ := bind_eq_ok_iff.1 h
  cases h
  exact ⟨r, isBest_best hprice hr, rfl⟩

theorem smart_eq_ok {out : Outcome} (hprice : price.minor < 2 ^ 96)
    (h : smart.run price os = .ok out) :
    ∃ others best, inTurn price (ofKind .other os) = .ok others ∧
      Trial.IsBest others.price (ofKind .rate os ++ ofKind .amount os) best ∧
      out = ⟨(ofTrial others.price best).price,
        others.applied ++ (ofTrial others.price best).applied⟩ := by
  obtain ⟨others, hothers, h⟩ := bind_eq_ok_iff.1 h
  obtain ⟨rate, hrate, h⟩ := bind_eq_ok_iff.1 h
  obtain ⟨amount, hamount, h⟩ := bind_eq_ok_iff.1 h
  cases h
  have hlt := minor_lt_of_inTurn hprice hothers
  have hbest := (isBest_best hlt hrate).rateOrAmount hlt (isBest_best hlt hamount)
  exact ⟨others, _, hothers, hbest, rfl⟩

theorem mem_of_mostUrgent (h : o ∈ mostUrgent os) : o ∈ os := by
  induction os with
  | nil => cases h
  | cons a os ih =>
    rw [mostUrgent] at h
    split at h
    · next p hp =>
      split at h
      · cases h
        exact List.mem_cons_of_mem _ (ih hp)
      · cases h
        exact List.mem_cons_self ..
    · cases h
      exact List.mem_cons_self ..

end Strategy
end ClubBooking
