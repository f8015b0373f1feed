import ClubBooking.Text.Numeral

/-! Natural numbers in hexadecimal digits, written in small letters and read in either case. -/

namespace ClubBooking.Text

def hexValue? (c : Char) : Option Nat :=
  if '0' ≤ c ∧ c ≤ '9' then some (c.toNat - '0'.toNat)
  else if 'a' ≤ c ∧ c ≤ 'f' then some (c.toNat - 'a'.toNat + 10)
  else if 'A' ≤ c ∧ c ≤ 'F' then some (c.toNat - 'A'.toNat + 10)
  else none

def hexNumber (acc : Nat) : List Char → Option Nat
  | [] => some acc
  | c :: cs => do hexNumber (16 * acc + (← hexValue? c)) cs

def hexPadded (width n : Nat) : List Char :=
  let ds := Nat.toDigits 16 n
  List.replicate (width - ds.length) '0' ++ ds

theorem hexNumber_append (acc : Nat) (cs ds : List Char) :
    hexNumber acc (cs ++ ds) = (hexNumber acc cs).bind fun n => hexNumber n ds := by
  induction cs generalizing acc with
  | nil => rfl
  | cons c cs ih =>
    simp only [List.cons_append, hexNumber]
    cases hexValue? c with
    | none => rfl
    | some v => exact ih (16 * acc + v)

end ClubBooking.Text
