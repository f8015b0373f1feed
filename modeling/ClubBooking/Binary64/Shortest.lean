import ClubBooking.Binary64.Basic
import ClubBooking.Text.Numeral

/-! The shortest decimal text of a binary64 number: the fewest digits that read back as it, and of
those the nearest to it, a tie going up. -/

namespace ClubBooking.Binary64

structure Digits where
  digits : Nat
  power : Int
deriving DecidableEq, Repr

namespace Digits

def ratio (d : Digits) : Nat × Nat :=
  if 0 ≤ d.power then (d.digits * 10 ^ d.power.toNat, 1) else (d.digits, 10 ^ (-d.power).toNat)

def readsBackAs (d : Digits) (b : Binary64) : Bool := nearest d.ratio.1 d.ratio.2 == some b

def chars (d : Digits) : List Char :=
  if 0 ≤ d.power then Text.digits d.digits ++ List.replicate d.power.toNat '0'
  else
    let places := (-d.power).toNat
    let ds := Text.padded (places + 1) d.digits
    ds.take (ds.length - places) ++ '.' :: ds.drop (ds.length - places)

end Digits

/-- The digits at or just below `n / d` on the grid of `10 ^ power`, and whether they are exact. -/
def below (n d : Nat) (power : Int) : Nat × Nat × Nat :=
  let (num, den) := if 0 ≤ power then (n, d * 10 ^ power.toNat) else (n * 10 ^ (-power).toNat, d)
  (num / den, num % den, den)

/-- The nearest neighbour of the value on a decimal grid that reads back. -/
def onGrid? (b : Binary64) (power : Int) : Option Digits :=
  let (low, rest, den) := below b.ratio.1 b.ratio.2 power
  let down : Digits := ⟨low, power⟩
  let up : Digits := ⟨low + 1, power⟩
  if rest = 0 then some down
  else if up.readsBackAs b && (den ≤ 2 * rest || !down.readsBackAs b) then some up
  else if down.readsBackAs b then some down
  else none

def leadingPower (n d : Nat) : Int :=
  if d ≤ n then ((Text.digits (n / d)).length : Int) - 1
  else -((Text.digits ((d - 1) / n)).length : Int)

/-- The first grid from `10 ^ power` down on which a neighbour of the value reads back. -/
def shortestFrom (b : Binary64) (power : Int) : (grids : Nat) → Digits
  | 0 => ⟨(below b.ratio.1 b.ratio.2 power).1, power⟩
  | grids + 1 => (onGrid? b power).getD (shortestFrom b (power - 1) grids)

def shortest (b : Binary64) : Digits :=
  if b.mantissa = 0 then ⟨0, 0⟩
  else shortestFrom b (leadingPower b.ratio.1 b.ratio.2 + 1) 20

/-- The shortest text, always with a point. -/
def text (b : Binary64) : String :=
  let cs := b.shortest.chars
  String.ofList (if '.' ∈ cs then cs else cs ++ ['.', '0'])

end ClubBooking.Binary64
