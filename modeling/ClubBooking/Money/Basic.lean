import ClubBooking.Decimal.Rounding
import ClubBooking.Money.Currency

/-! Amounts of money: never negative, and with no more places than their currency has. -/

namespace ClubBooking

structure Money where
  amount : Decimal
  currency : Currency
  amount_nonneg : 0 ≤ amount.coeff
  scale_le : amount.scale ≤ currency.minorUnits
deriving DecidableEq

namespace Money

def zero (c : Currency) : Money := ⟨.zero, c, Int.le_refl 0, Nat.zero_le _⟩

def ofUnits (n : UInt64) (c : Currency) : Money :=
  ⟨.ofUInt64 n, c, Int.natCast_nonneg _, Nat.zero_le _⟩

def rounded (a : Decimal) (c : Currency) (h : 0 ≤ a.coeff) : Money :=
  ⟨a.roundTo c.minorUnits, c, Decimal.coeff_roundTo_nonneg h, Decimal.scale_roundTo_le _ _⟩

def isZero (m : Money) : Bool := m.amount.isZero

def minor (m : Money) : Nat := m.amount.coeff.toNat * 10 ^ (m.currency.minorUnits - m.amount.scale)

def text (m : Money) : String :=
  (m.amount.padBy (m.currency.minorUnits - m.amount.scale)).text ++ " " ++ m.currency.code

def compare? (a b : Money) : Option Ordering :=
  if a.currency = b.currency then
    some (if a.amount < b.amount then .lt else if b.amount < a.amount then .gt else .eq)
  else none

def sameValue (a b : Money) : Bool := a.currency = b.currency && a.amount.sameValue b.amount

end Money
end ClubBooking
