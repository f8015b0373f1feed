import ClubBooking.Fault
import ClubBooking.Text.Characters

/-! Checks that the parts of a booking system share: texts that must not be blank, and numbers
that must lie in a range. -/

namespace ClubBooking

/-- The text without the blanks around it, unless nothing is left. -/
def nonBlank (field s : String) : Except Fault String :=
  if Text.trim s = "" then .error (.blankField field) else .ok (Text.trim s)

namespace Decimal

def IsRate (r : Decimal) : Prop := zero ≤ r ∧ r ≤ one

/-- A share of a capacity that leaves some of it: above 0, at most 1. -/
def IsCeiling (r : Decimal) : Prop := zero < r ∧ r ≤ one

def IsPositive (a : Decimal) : Prop := zero < a

instance (r : Decimal) : Decidable r.IsRate := inferInstanceAs (Decidable (_ ∧ _))
instance (r : Decimal) : Decidable r.IsCeiling := inferInstanceAs (Decidable (_ ∧ _))
instance (a : Decimal) : Decidable a.IsPositive := inferInstanceAs (Decidable (zero < a))

def checkRate (r : Decimal) : Except Fault Unit :=
  if r.IsRate then .ok () else .error (.rateOutOfRange r)

def checkCeiling (r : Decimal) : Except Fault Unit :=
  if r.IsCeiling then .ok () else .error (.rateOutOfRange r)

end Decimal

theorem Decimal.checkRate_eq_ok_iff {r : Decimal} : r.checkRate = .ok () ↔ r.IsRate := by
  simp [checkRate]

theorem nonBlank_eq_ok_iff {field s t : String} :
    nonBlank field s = .ok t ↔ Text.trim s ≠ "" ∧ t = Text.trim s := by
  unfold nonBlank
  split
  · next h => simp [h]
  · next h => simp [h, eq_comm]

end ClubBooking
