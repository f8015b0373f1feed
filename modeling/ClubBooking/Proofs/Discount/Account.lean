import ClubBooking.Proofs.Discount.Bounds
import ClubBooking.Proofs.Discount.Choice
import Mathlib.Data.List.Perm.Subperm

/-! The account that a composite gives of its price. The discounts listed make up exactly what the
strategy takes off, cap and floor take part of it back, and each entry is that of a child that
applies. -/

namespace ClubBooking

structure Blend.Settles (b : Blend) (price : Money) (out : Outcome) (r : Breakdown) : Prop where
  splits : out.Splits price
  applied : r.applied = out.applied
  cap_currency : ∀ cap, b.cap = some cap → cap.currency = price.currency
  final_currency : r.finalPrice.currency = price.currency
  total_currency : r.totalDiscount.currency = price.currency
  total : r.finalPrice.minor + r.totalDiscount.minor = price.minor
  final : r.finalPrice.minor =
    max (max out.price.minor (b.cappedPrice price)) (b.flooredPrice price)
  capped : r.capped = true ↔ out.price.minor < b.cappedPrice price
  floored : r.floored = true ↔ max out.price.minor (b.cappedPrice price) < b.flooredPrice price

variable {price : Money} {os : List Offer} {out : Outcome}

theorem Blend.exists_settles {b : Blend} {r : Breakdown} (hprice : price.minor < 2 ^ 96)
    (h : b.evaluate os price = .ok r) :
    ∃ out, b.outcome os price = .ok out ∧ b.Settles price out r := by
  obtain ⟨out, bounded, hout, hcap, hfloor, htotal, -, -, happlied⟩ := evaluate_eq_ok_iff.1 h
  have hsplits : out.Splits price := Strategy.splits_run hprice hout
  obtain ⟨hboundedCurrency, hbounded, hcapped⟩ :=
    minor_of_applyCap hprice hsplits.currency hsplits.price_le hcap
  obtain ⟨hfinalCurrency, hfinal, hfloored⟩ := minor_of_applyFloor hboundedCurrency hfloor
  rw [hbounded] at hfinal hfloored hcapped
  have hle : r.finalPrice.minor ≤ price.minor := by
    rw [hfinal]
    exact max_le (max_le hsplits.price_le (b.cappedPrice_le price)) (b.flooredPrice_le price)
  have hsum := Money.minor_of_saturatingSub hprice (Nat.lt_of_le_of_lt hle hprice) htotal
  have htotalCurrency := (Money.currency_of_saturatingSub htotal).2
  refine ⟨out, hout, hsplits, happlied, currency_of_applyCap hcap, hfinalCurrency, htotalCurrency,
    by omega, hfinal, hcapped.trans (by simp), ?_⟩
  rw [hfloored, hfinal]
  simp

namespace Outcome

def names (out : Outcome) : List String := out.applied.map (·.description)

end Outcome

namespace Strategy

theorem names_inTurn (h : inTurn price os = .ok out) :
    out.names.Sublist (os.map (·.description)) := by
  induction os generalizing price out with
  | nil =>
    cases h
    exact .slnil
  | cons o os ih =>
    obtain ⟨t, ht, h⟩ := bind_eq_ok_iff.1 h
    obtain ⟨rest, hrest, h⟩ := bind_eq_ok_iff.1 h
    cases h
    have hrest := ih hrest
    obtain ⟨rfl, -⟩ := Offer.attempt_eq_ok ht
    by_cases hzero : t.discount.isZero
    · simpa [Outcome.names, hzero] using hrest.cons t.offer.description
    · simpa [Outcome.names, hzero, Trial.applied] using hrest.cons_cons t.offer.description

theorem names_ofTrial {r : Option Trial} (h : Trial.IsBest price os r) :
    (ofTrial price r).names.Sublist (os.map (·.description)) := by
  cases r with
  | none => exact List.nil_sublist _
  | some t => exact List.singleton_sublist.2 (List.mem_map_of_mem (h.chosen t rfl).1)

theorem ofKind_perm (os : List Offer) :
    (ofKind .other os ++ (ofKind .rate os ++ ofKind .amount os)).Perm os := by
  induction os with
  | nil => exact .refl _
  | cons o os ih =>
    unfold ofKind at ih ⊢
    cases hkind : o.kind with
    | other => simpa [hkind] using ih
    | rate => simpa [hkind] using List.perm_middle.trans (ih.cons o)
    | amount =>
      have hmoved : (List.filter (·.kind == .other) os ++ (List.filter (·.kind == .rate) os ++
          o :: List.filter (·.kind == .amount) os)).Perm (o :: os) := by
        rw [← List.append_assoc]
        refine List.perm_middle.trans (List.Perm.cons o ?_)
        rw [List.append_assoc]
        exact ih
      simpa [hkind] using hmoved

theorem names_run {s : Strategy} (hprice : price.minor < 2 ^ 96) (h : s.run price os = .ok out) :
    out.names.Subperm (os.map (·.description)) ∧
      (s = .sequential → out.names.Sublist (os.map (·.description))) ∧
      (s = .bestSingle ∨ s = .priorityFirst → out.names.length ≤ 1) := by
  cases s with
  | sequential =>
    have hnames := names_inTurn h
    exact ⟨hnames.subperm, fun _ => hnames, by simp⟩
  | bestSingle =>
    obtain ⟨best, hbest, rfl⟩ := bestSingle_eq_ok hprice h
    refine ⟨(names_ofTrial hbest).subperm, by simp, fun _ => ?_⟩
    cases best <;> simp [ofTrial, Outcome.names]
  | priorityFirst =>
    have hnames := names_inTurn h
    have hurgent : (mostUrgent os).toList.Sublist os := by
      cases hsome : mostUrgent os with
      | none => exact List.nil_sublist _
      | some o => exact List.singleton_sublist.2 (mem_of_mostUrgent hsome)
    refine ⟨(hnames.trans (hurgent.map _)).subperm, by simp, fun _ => ?_⟩
    have hlength := hnames.length_le
    rw [List.length_map] at hlength
    exact hlength.trans Option.length_toList_le
  | smart =>
    obtain ⟨others, best, hothers, hbest, rfl⟩ := smart_eq_ok hprice h
    have hnames := (names_inTurn hothers).append (names_ofTrial hbest)
    rw [← List.map_append] at hnames
    refine ⟨?_, by simp, by simp⟩
    rw [Outcome.names, List.map_append]
    exact hnames.subperm.trans ((ofKind_perm os).map _).subperm

end Strategy

theorem Discount.names_offers (p : Purchase) (ds : List Discount) :
    ((offers p ds).filter (·.applies)).map (·.description) =
      (ds.filter (·.isApplicable p)).map (·.label.description) := by
  rw [offers_eq_map, List.filter_map, List.map_map]
  refine List.map_congr_left fun d _ => ?_
  exact congrArg Label.description (d.toLabel_offer p)

def Breakdown.saved (r : Breakdown) : Nat := (r.applied.map (·.amount.minor)).sum

namespace Composite

/-- The entries of a breakdown are those of children that apply, each takes something off, and
together they are what the strategy takes off. The discount in all is that sum unless cap or floor
took effect, and then it is less. -/
theorem entries_account_of_evaluate {c : Composite} {p : Purchase} {price : Money} {r : Breakdown}
    (hprice : price.IsModerate) (h : c.evaluate p price = .ok r) :
    (∀ a ∈ r.applied, a.amount.currency = price.currency ∧ 0 < a.amount.minor) ∧
      (r.applied.map (·.description)).Subperm
        ((c.children.filter (·.isApplicable p)).map (·.label.description)) ∧
      (c.blend.strategy = .bestSingle ∨ c.blend.strategy = .priorityFirst →
        r.applied.length ≤ 1) ∧
      (c.blend.strategy = .sequential →
        (r.applied.map (·.description)).Sublist
          ((c.children.filter (·.isApplicable p)).map (·.label.description))) ∧
      (∃ out, c.blend.outcome (Discount.offers p c.children) price = .ok out ∧
        out.price.currency = price.currency ∧ out.price.minor + r.saved = price.minor) ∧
      r.totalDiscount.currency = price.currency ∧ r.totalDiscount.minor ≤ r.saved ∧
      (r.totalDiscount.minor = r.saved ↔ r.capped = false ∧ r.floored = false) ∧
      (r.capped = true ↔
        ∃ cap, c.blend.cap = some cap ∧ cap.currency = price.currency ∧ cap.minor < r.saved) := by
  obtain ⟨out, hout, hsettles⟩ := Blend.exists_settles hprice.minor_lt h
  obtain ⟨hnames, hinTurn, hsingle⟩ := Strategy.names_run hprice.minor_lt hout
  rw [Discount.names_offers, Outcome.names, ← hsettles.applied] at hnames hinTurn
  rw [Outcome.names, ← hsettles.applied, List.length_map] at hsingle
  have hsaved : r.saved = out.saved := by rw [Breakdown.saved, hsettles.applied, Outcome.saved]
  have hsum := hsettles.splits.sum
  have htotal := hsettles.total
  have hfinal := hsettles.final
  have hcapped := hsettles.capped
  have hfloored := hsettles.floored
  refine ⟨fun a ha => ?_, hnames, hsingle, hinTurn,
    ⟨out, hout, hsettles.splits.currency, hsaved ▸ hsum⟩, hsettles.total_currency, ?_, ?_, ?_⟩
  · rw [hsettles.applied] at ha
    exact ⟨hsettles.splits.applied_currency a ha, hsettles.splits.applied_pos a ha⟩
  · omega
  · -- cap and floor only ever raise the price, and each reports whether it did
    rw [← Bool.not_eq_true, ← Bool.not_eq_true, hcapped, hfloored]
    omega
  · rw [hcapped, Blend.cappedPrice]
    cases hcap : c.blend.cap with
    | none => simp
    | some cap =>
      have hcurrency := hsettles.cap_currency cap hcap
      have hexceeds : out.price.minor < price.minor - cap.minor ↔ cap.minor < r.saved := by omega
      dsimp only
      rw [hexceeds]
      constructor
      · intro hlt
        exact ⟨cap, rfl, hcurrency, hlt⟩
      · rintro ⟨x, hx, -, hlt⟩
        cases hx
        exact hlt

theorem entries_account_halfAndThirty :
    ∃ r, (Money.ofUnits 100 .usd).IsModerate ∧
      halfAndThirty.evaluate plainPurchase (.ofUnits 100 .usd) = .ok r ∧
      r.applied.map (·.description) = ["half", "best"] ∧ r.saved = 8000 ∧
      r.totalDiscount.minor < r.saved ∧
      ∃ cap, halfAndThirty.blend.cap = some cap ∧ cap.minor < r.saved := by
  have hmoderate : (Money.ofUnits 100 .usd).IsModerate := by decide
  obtain ⟨r, hr, hnames, hsaved, hcapped⟩ :
      ∃ r, halfAndThirty.evaluate plainPurchase (.ofUnits 100 .usd) = .ok r ∧
        r.applied.map (·.description) = ["half", "best"] ∧ r.saved = 8000 ∧ r.capped = true :=
    ⟨_, rfl, by decide, by decide, by decide⟩
  obtain ⟨-, -, -, -, -, -, hle, hequal, hcap⟩ := entries_account_of_evaluate hmoderate hr
  have hless : r.totalDiscount.minor < r.saved := by
    refine Nat.lt_of_le_of_ne hle fun heq => ?_
    have hnone := (hequal.1 heq).1
    rw [hcapped] at hnone
    cases hnone
  obtain ⟨cap, hsome, -, hlt⟩ := hcap.1 hcapped
  exact ⟨r, hmoderate, hr, hnames, hsaved, hless, cap, hsome, hlt⟩

end Composite
end ClubBooking
