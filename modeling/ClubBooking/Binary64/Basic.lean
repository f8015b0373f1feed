import ClubBooking.Decimal.Rounding

/-! The numbers of the binary64 format that are not negative, as a mantissa below 2^53 times a
power of two from -1074 to 971, and the one nearest to a quotient. -/

namespace ClubBooking

structure Binary64 where
  mantissa : Nat
  exponent : Int
deriving DecidableEq, Repr

namespace Binary64

def zero : Binary64 := ⟨0, -1074⟩

def ratio (b : Binary64) : Nat × Nat :=
  if 0 ≤ b.exponent then (b.mantissa * 2 ^ b.exponent.toNat, 1)
  else (b.mantissa, 2 ^ (-b.exponent).toNat)

def inUnits (n d : Nat) (e : Int) : Nat × Nat :=
  if 0 ≤ e then (n, d * 2 ^ e.toNat) else (n * 2 ^ (-e).toNat, d)

/-- The exponent that gives the quotient a mantissa of 53 bits, or the least there is. -/
def exponentOf (n d : Nat) : Int :=
  let e : Int := (n.log2 : Int) - d.log2 - 52
  let (num, den) := inUnits n d e
  max (if num < 2 ^ 52 * den then e - 1 else e) (-1074)

/-- The value nearest to `n / d`, ties to the even mantissa; none if it is out of range. -/
def nearest (n d : Nat) : Option Binary64 :=
  if n = 0 then some zero
  else
    let e := exponentOf n d
    let (num, den) := inUnits n d e
    let m := Tie.toEven.round num den
    let (m, e) := if m = 2 ^ 53 then (2 ^ 52, e + 1) else (m, e)
    if 971 < e then none else some ⟨m, e⟩

def mul (a b : Binary64) : Option Binary64 :=
  nearest (a.ratio.1 * b.ratio.1) (a.ratio.2 * b.ratio.2)

def div (a b : Binary64) : Option Binary64 :=
  nearest (a.ratio.1 * b.ratio.2) (a.ratio.2 * b.ratio.1)

end Binary64
end ClubBooking
