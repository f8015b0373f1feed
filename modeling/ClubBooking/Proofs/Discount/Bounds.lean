import ClubBooking.Proofs.Discount.Split

/-! Cap and floor. The price of a composite is the greatest of three: the price that its strategy
arrives at, the least price that the cap leaves, and the floor, which is never above the price
asked. -/

namespace ClubBooking
namespace Blend
variable {b : Blend} {os : List Offer} {price original bounded : Money}

def outcome (b : Blend) (os : List Offer) (price : Money) : Except Fault Outcome :=
  b.strategy.run price (os.filter (·.applies))

/-- The least price that the cap on the discount leaves, in the smallest unit. -/
def cappedPrice (b : Blend) (price : Money) : Nat :=
  match b.cap with
  | some cap => price.minor - cap.minor
  | none => 0

def flooredPrice (b : Blend) (price : Money) : Nat :=
  match b.floor with
  | some floor => min floor.minor price.minor
  | none => 0

theorem flooredPrice_le (b : Blend) (price : Money) : b.flooredPrice price ≤ price.minor := by
  unfold flooredPrice
  split
  · exact Nat.min_le_right _ _
  · exact Nat.zero_le _

theorem cappedPrice_le (b : Blend) (price : Money) : b.cappedPrice price ≤ price.minor := by
  unfold cappedPrice
  split
  · exact Nat.sub_le _ _
  · exact Nat.zero_le _

theorem evaluate_eq_ok_iff {r : Breakdown} :
    b.evaluate os price = .ok r ↔
      ∃ out bounded, b.outcome os price = .ok out ∧
        b.applyCap price out.price = .ok (bounded, r.capped) ∧
        b.applyFloor price bounded = .ok (r.finalPrice, r.floored) ∧
        price.saturatingSub r.finalPrice = .ok r.totalDiscount ∧
        r.original = price ∧ r.strategy = b.strategy ∧ r.applied = out.applied := by
  constructor
  · intro h
    obtain ⟨out, hout, h⟩ := bind_eq_ok_iff.1 h
    obtain ⟨⟨bounded, capped⟩, hcap, h⟩ := bind_eq_ok_iff.1 h
    obtain ⟨⟨final, floored⟩, hfloor, h⟩ := bind_eq_ok_iff.1 h
    obtain ⟨total, htotal, h⟩ := bind_eq_ok_iff.1 h
    cases h
    exact ⟨out, bounded, hout, hcap, hfloor, htotal, rfl, rfl, rfl⟩
  · rintro ⟨out, bounded, hout, hcap, hfloor, htotal, horiginal, hstrategy, happlied⟩
    refine bind_eq_ok_iff.2 ⟨out, hout, bind_eq_ok_iff.2 ⟨_, hcap, ?_⟩⟩
    refine bind_eq_ok_iff.2 ⟨_, hfloor, bind_eq_ok_iff.2 ⟨_, htotal, ?_⟩⟩
    cases r
    cases horiginal
    cases hstrategy
    cases happlied
    rfl

theorem currency_of_applyCap {capped : Bool} (h : b.applyCap original price = .ok (bounded, capped)) :
    ∀ cap, b.cap = some cap → cap.currency = original.currency := by
  intro cap hcap
  rw [applyCap, hcap] at h
  obtain ⟨discount, -, h⟩ := bind_eq_ok_iff.1 h
  obtain ⟨u, hu, -⟩ := bind_eq_ok_iff.1 h
  exact (Money.sameCurrency_eq_ok_iff.1 hu).symm

theorem currency_of_applyFloor {floored : Bool}
    (h : b.applyFloor original price = .ok (bounded, floored)) :
    ∀ floor, b.floor = some floor → floor.currency = original.currency := by
  intro floor hfloor
  rw [applyFloor, hfloor] at h
  obtain ⟨least, hleast, -⟩ := bind_eq_ok_iff.1 h
  exact (Money.min_eq_ok_iff.1 hleast).1

theorem minor_of_applyCap {capped : Bool} (horiginal : original.minor < 2 ^ 96)
    (hcurrency : price.currency = original.currency) (hle : price.minor ≤ original.minor)
    (h : b.applyCap original price = .ok (bounded, capped)) :
    bounded.currency = original.currency ∧
      bounded.minor = max price.minor (b.cappedPrice original) ∧
      (capped = true ↔ price.minor < bounded.minor) := by
  have hsame := currency_of_applyCap h
  unfold applyCap at h
  unfold cappedPrice
  split at h
  · next hnone =>
    cases h
    rw [hnone]
    exact ⟨hcurrency, (Nat.max_zero _).symm, by simp⟩
  next cap hcap =>
  rw [hcap]
  obtain ⟨discount, hdiscount, h⟩ := bind_eq_ok_iff.1 h
  obtain ⟨u, -, h⟩ := bind_eq_ok_iff.1 h
  have hd := Money.minor_of_saturatingSub horiginal (by omega) hdiscount
  have hdc := (Money.currency_of_saturatingSub hdiscount).2
  have hlt_iff := Money.amount_lt_iff ((hsame cap hcap).trans hdc.symm)
  dsimp only
  split at h
  · next hlt =>
    have hlt := hlt_iff.1 hlt
    obtain ⟨capPrice, hsub, h⟩ := bind_eq_ok_iff.1 h
    cases h
    have hminor := Money.minor_of_saturatingSub horiginal (by omega) hsub
    exact ⟨(Money.currency_of_saturatingSub hsub).2, by omega, by simp only [true_iff]; omega⟩
  · next hlt =>
    have hlt := mt hlt_iff.2 hlt
    cases h
    exact ⟨hcurrency, by omega, by simp⟩

theorem minor_of_applyFloor {floored : Bool} (hcurrency : price.currency = original.currency)
    (h : b.applyFloor original price = .ok (bounded, floored)) :
    bounded.currency = original.currency ∧
      bounded.minor = max price.minor (b.flooredPrice original) ∧
      (floored = true ↔ price.minor < bounded.minor) := by
  unfold applyFloor at h
  unfold flooredPrice
  split at h
  · next hnone =>
    cases h
    rw [hnone]
    exact ⟨hcurrency, (Nat.max_zero _).symm, by simp⟩
  next floor hfloor =>
  rw [hfloor]
  obtain ⟨least, hleast, h⟩ := bind_eq_ok_iff.1 h
  have hminor := Money.minor_of_min hleast
  have hleastCurrency := (Money.currency_of_min hleast).2
  have hlt_iff := Money.amount_lt_iff (hcurrency.trans hleastCurrency.symm)
  dsimp only
  split at h
  · next hlt =>
    have hlt := hlt_iff.1 hlt
    cases h
    exact ⟨hleastCurrency, by omega, by simp only [true_iff]; omega⟩
  · next hlt =>
    have hlt := mt hlt_iff.2 hlt
    cases h
    exact ⟨hcurrency, by omega, by simp⟩

end Blend

namespace Composite

/-- The price of a composite lies between nothing and the price asked, the discount makes up the
rest, and cap and floor hold: it is the greatest of what the strategy arrives at, what the cap
leaves and the floor. -/
theorem price_bounds_of_evaluate {c : Composite} {p : Purchase} {price : Money} {r : Breakdown}
    (hprice : price.IsModerate) (h : c.evaluate p price = .ok r) :
    r.finalPrice.currency = price.currency ∧ r.totalDiscount.currency = price.currency ∧
      Decimal.zero ≤ r.finalPrice.amount ∧ r.finalPrice.amount ≤ price.amount ∧
      r.finalPrice.minor + r.totalDiscount.minor = price.minor ∧
      (∀ cap, c.blend.cap = some cap →
        cap.currency = price.currency ∧ r.totalDiscount.amount ≤ cap.amount) ∧
      (∀ floor, c.blend.floor = some floor →
        floor.currency = price.currency ∧ min floor.minor price.minor ≤ r.finalPrice.minor) ∧
      ∃ out, c.blend.outcome (Discount.offers p c.children) price = .ok out ∧
        out.price.currency = price.currency ∧
        r.finalPrice.minor =
          max out.price.minor (max (c.blend.cappedPrice price) (c.blend.flooredPrice price)) := by
  obtain ⟨out, bounded, hout, hcap, hfloor, htotal, -, -, -⟩ := Blend.evaluate_eq_ok_iff.1 h
  have hsplit : out.Splits price := Strategy.splits_run hprice.minor_lt hout
  obtain ⟨hboundedCurrency, hbounded, -⟩ :=
    Blend.minor_of_applyCap hprice.minor_lt hsplit.currency hsplit.price_le hcap
  -- the floor comes last, and only raises what the cap left
  obtain ⟨hfinalCurrency, hfinal, -⟩ := Blend.minor_of_applyFloor hboundedCurrency hfloor
  have hcapped := c.blend.cappedPrice_le price
  have hfloored := c.blend.flooredPrice_le price
  have hle : r.finalPrice.minor ≤ price.minor := by
    have := hsplit.price_le
    omega
  have hsum := Money.minor_of_saturatingSub hprice.minor_lt
    (Nat.lt_of_le_of_lt hle hprice.minor_lt) htotal
  have htotalCurrency := (Money.currency_of_saturatingSub htotal).2
  refine ⟨hfinalCurrency, htotalCurrency, Money.zero_le_amount _,
    (Money.amount_le_iff hfinalCurrency).2 hle, by omega, fun cap hsome => ?_,
    fun floor hsome => ?_, out, hout, hsplit.currency, by omega⟩
  · have hcurrency := Blend.currency_of_applyCap hcap cap hsome
    refine ⟨hcurrency, (Money.amount_le_iff (htotalCurrency.trans hcurrency.symm)).2 ?_⟩
    have : c.blend.cappedPrice price = price.minor - cap.minor := by
      rw [Blend.cappedPrice, hsome]
    omega
  · refine ⟨Blend.currency_of_applyFloor hfloor floor hsome, ?_⟩
    have : c.blend.flooredPrice price = min floor.minor price.minor := by
      rw [Blend.flooredPrice, hsome]
    omega

def plainPurchase : Purchase where
  member := ⟨default, "Ada", .active, .standard, .singleDay default, default⟩
  plan := ⟨default, "Gold", .ofList [.lounge], 3, 30, .zero, true⟩
  date := default
  coupon := none
  enrolled := rfl

def halfAndThirty : Composite where
  blend := ⟨"stack", .sequential, some (.ofUnits 60 .usd), some (.ofUnits 45 .usd), none⟩
  children := [
    .rate ⟨"half", ⟨false, 5, 1, by decide, by decide⟩, none, none, 40, by decide⟩,
    .composite ⟨"best", .bestSingle, none, none, none⟩ [
      .none, .amount ⟨"30 off", .ofUnits 30 .usd, none, 40, by decide⟩]]

theorem price_bounds_halfAndThirty :
    ∃ r, (Money.ofUnits 100 .usd).IsModerate ∧
      halfAndThirty.evaluate plainPurchase (.ofUnits 100 .usd) = .ok r ∧
      r.capped = true ∧ r.floored = true ∧ r.finalPrice.minor = 4500 ∧
      r.totalDiscount.amount ≤ (Money.ofUnits 60 .usd).amount := by
  have hmoderate : (Money.ofUnits 100 .usd).IsModerate := by decide
  obtain ⟨r, hr, hcapped, hfloored, hminor⟩ :
      ∃ r, halfAndThirty.evaluate plainPurchase (.ofUnits 100 .usd) = .ok r ∧
        r.capped = true ∧ r.floored = true ∧ r.finalPrice.minor = 4500 :=
    ⟨_, rfl, by decide, by decide, by decide⟩
  obtain ⟨-, -, -, -, -, hcap, -⟩ := price_bounds_of_evaluate hmoderate hr
  exact ⟨r, hmoderate, hr, hcapped, hfloored, hminor, (hcap _ rfl).2⟩

end Composite
end ClubBooking
