import ClubBooking.Discount.Season
import ClubBooking.Discount.Purchase
import ClubBooking.Money.Arith

/-! Discounts by a rate or a flat amount, and seasonal rates. -/

namespace ClubBooking

structure RateDiscount where
  description : String
  rate : Decimal
  /-- Cheaper purchases get no discount. -/
  minimum : Option Money
  /-- The discount is at most this. -/
  maximum : Option Money
  priority : Int
  rate_ok : rate.IsRate

namespace RateDiscount

def make (description : String) (rate : Decimal) : Except Fault RateDiscount := do
  let description ← nonBlank "discount description" description
  if h : rate.IsRate then pure ⟨description, rate, none, none, 40, h⟩
  else .error (.rateOutOfRange rate)

end RateDiscount

structure AmountDiscount where
  description : String
  amount : Money
  /-- Cheaper purchases get no discount. -/
  minimum : Option Money
  priority : Int
  amount_ne_zero : amount.isZero = false

namespace AmountDiscount

def make (description : String) (amount : Money) : Except Fault AmountDiscount :=
  if h : amount.isZero = false then do
    let description ← nonBlank "discount description" description
    pure ⟨description, amount, none, 40, h⟩
  else .error (.invalidAmount .zeroDiscount)

end AmountDiscount

/-- A rate for some periods of the year, in the order of the periods. -/
structure SeasonalDiscount where
  rates : List (Season × Decimal)
  priority : Int
  rates_ok : ∀ entry ∈ rates, entry.2.IsRate

namespace SeasonalDiscount

/-- The last rate listed for each period. -/
def table (entries : List (Season × Decimal)) : List (Season × Decimal) :=
  Season.all.filterMap fun s => (entries.reverse.lookup s).map fun r => (s, r)

theorem mem_of_mem_table {entries : List (Season × Decimal)} {e : Season × Decimal}
    (h : e ∈ table entries) : e ∈ entries := by
  obtain ⟨s, -, hs⟩ := List.mem_filterMap.1 h
  obtain ⟨r, hr, rfl⟩ := Option.map_eq_some_iff.1 hs
  obtain ⟨before, after, hsplit, -⟩ := List.lookup_eq_some_iff.1 hr
  exact List.mem_reverse.1 (hsplit ▸ List.mem_append_right _ (List.mem_cons_self ..))

def checkRates : (entries : List (Season × Decimal)) → Except Fault Unit
  | [] => .ok ()
  | e :: es => do
    e.2.checkRate
    checkRates es

theorem isRate_of_checkRates {entries : List (Season × Decimal)}
    (h : checkRates entries = .ok ()) : ∀ e ∈ entries, e.2.IsRate := by
  induction entries with
  | nil => simp
  | cons e es ih =>
    by_cases he : e.2.IsRate
    · intro d hd
      rcases List.mem_cons.1 hd with rfl | hd
      · exact he
      · refine ih ?_ d hd
        simpa [checkRates, Decimal.checkRate, he, bind, Except.bind] using h
    · simp [checkRates, Decimal.checkRate, he, bind, Except.bind] at h

def make (entries : List (Season × Decimal)) : Except Fault SeasonalDiscount :=
  match h : checkRates entries with
  | .error e => .error e
  | .ok () =>
    if entries = [] then .error (.emptyList "seasonal rates")
    else .ok ⟨table entries, 30, fun e he => isRate_of_checkRates h e (mem_of_mem_table he)⟩

/-- The first period of the date that has a rate. -/
def rateFor (d : SeasonalDiscount) (date : Date) : Option (Season × Decimal) :=
  (Season.matching date).findSome? fun s => (d.rates.lookup s).map fun r => (s, r)

def isApplicable (d : SeasonalDiscount) (date : Date) : Bool :=
  (d.rateFor date).any fun entry => !entry.2.isZero

def description (d : SeasonalDiscount) : String :=
  "Seasonal discount (" ++ ", ".intercalate (d.rates.map (·.1.name)) ++ ")"

end SeasonalDiscount
end ClubBooking
