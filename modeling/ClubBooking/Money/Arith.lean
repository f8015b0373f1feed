import ClubBooking.Decimal.Quotient
import ClubBooking.Fault

/-! Arithmetic of amounts. Amounts of two currencies are never mixed, products and quotients are
rounded to the currency's places, and no result is negative. -/

namespace ClubBooking.Money

def ofDecimal (a : Decimal) (c : Currency) : Except Fault Money :=
  if h : 0 ≤ a.coeff then .ok (rounded a c h) else .error (.invalidAmount (.negative a))

def sameCurrency (a b : Money) : Except Fault Unit :=
  if a.currency = b.currency then .ok ()
  else .error (.currencyMismatch a.currency b.currency)

theorem max_scale_le {a b : Money} (h : a.currency = b.currency) :
    max a.amount.scale b.amount.scale ≤ a.currency.minorUnits :=
  Nat.max_le.2 ⟨a.scale_le, h ▸ b.scale_le⟩

def add (a b : Money) : Except Fault Money :=
  if hc : a.currency = b.currency then
    match h : a.amount.add b.amount with
    | none => .error (.overflow .addition)
    | some s => .ok ⟨s, a.currency,
        Decimal.coeff_nonneg_of_add a.amount_nonneg b.amount_nonneg h,
        Nat.le_trans (Decimal.scale_le_of_add h) (max_scale_le hc)⟩
  else .error (.currencyMismatch a.currency b.currency)

/-- The difference of two amounts, or what `below` says of one below zero. -/
def subOr (a b : Money) (below : Except Fault Money) : Except Fault Money :=
  if hc : a.currency = b.currency then
    match h : a.amount.sub b.amount with
    | none => .error (.overflow .subtraction)
    | some s =>
      if hs : 0 ≤ s.coeff then
        .ok ⟨s, a.currency, hs, Nat.le_trans (Decimal.scale_le_of_sub h) (max_scale_le hc)⟩
      else below
  else .error (.currencyMismatch a.currency b.currency)

def subtract (a b : Money) : Except Fault Money :=
  a.subOr b (.error (.invalidAmount (.negativeDifference a b)))

def saturatingSub (a b : Money) : Except Fault Money := a.subOr b (.ok (zero a.currency))

def multiply (a : Money) (factor : Decimal) : Except Fault Money :=
  if hf : 0 ≤ factor.coeff then
    match h : a.amount.mul factor with
    | none => .error (.overflow .multiplication)
    | some p => .ok (rounded p a.currency (Decimal.coeff_nonneg_of_mul a.amount_nonneg hf h))
  else .error (.invalidAmount (.negativeFactor factor))

def divide (a : Money) (divisor : Decimal) : Except Fault Money :=
  if divisor.isZero then .error .divisionByZero
  else if hd : 0 < divisor.coeff then
    match h : a.amount.div divisor with
    | none => .error (.overflow .division)
    | some q => .ok (rounded q a.currency (Decimal.coeff_nonneg_of_div a.amount_nonneg hd h))
  else .error (.invalidAmount (.negativeDivisor divisor))

/-- The smaller amount, the first of two equal ones. -/
def min (a b : Money) : Except Fault Money := do
  a.sameCurrency b
  pure (if b.amount < a.amount then b else a)

def max (a b : Money) : Except Fault Money := do
  a.sameCurrency b
  pure (if a.amount < b.amount then b else a)

end ClubBooking.Money
