import ClubBooking.Discount.Offer
import ClubBooking.Money.Arith

/-! Settings by name: a name that is not set, or set to blanks, has its default. -/

namespace ClubBooking

structure Settings where
  currency : Currency
  cap : Option Money
  floor : Option Money
  level : Level
  strategy : Strategy
  slowThresholdMs : UInt64

namespace Settings

/-- What `read` makes of the text that is set, without the blanks around it. -/
def value? {α : Type} (lookup : String → Option String) (key : String)
    (read : String → Except SettingFault α) : Except Fault (Option α) :=
  match lookup key with
  | none => .ok none
  | some raw =>
    if Text.trim raw = "" then .ok none
    else match read (Text.trim raw) with
      | .ok a => .ok (some a)
      | .error cause => .error (.misconfigured (.setting key raw cause))

def readDecimal (s : String) : Except SettingFault Decimal :=
  (Decimal.read s).mapError .amount

def readNumber (s : String) : Except SettingFault UInt64 :=
  match Text.unsigned 18446744073709551616 s.toList with
  | .ok n => .ok (.ofNat n)
  | .error cause => .error (.number cause)

def amount? (lookup : String → Option String) (key : String) (c : Currency) :
    Except Fault (Option Money) := do
  match ← value? lookup key readDecimal with
  | some a => do
    let m ← Money.ofDecimal a c
    pure (some m)
  | none => pure none

def ofLookup (lookup : String → Option String) : Except Fault Settings := do
  let currency ← value? lookup "RESERVATION_CURRENCY" fun s =>
    (Currency.read s).mapError .name
  let currency := currency.getD .krw
  let cap ← amount? lookup "RESERVATION_MAX_TOTAL_DISCOUNT" currency
  let floor ← amount? lookup "RESERVATION_MINIMUM_PRICE" currency
  let level ← value? lookup "RESERVATION_ELIGIBILITY_LEVEL" fun s =>
    (Level.read s).mapError .name
  let strategy ← value? lookup "RESERVATION_DISCOUNT_STRATEGY" fun s =>
    (Named.read s).mapError .name
  let slowThresholdMs ← value? lookup "RESERVATION_SLOW_THRESHOLD_MS" readNumber
  pure {
    currency, cap, floor
    level := level.getD .standard
    strategy := strategy.getD .bestSingle
    slowThresholdMs := slowThresholdMs.getD 100 }

end Settings
end ClubBooking
