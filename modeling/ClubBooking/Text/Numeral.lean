/-! Natural numbers in decimal digits. `bounded` reads a row of digits below a limit and names the
first fault it meets; `digits` and `padded` write one. -/

namespace ClubBooking

/-- Powers are those of the core library, also where others are in scope. -/
@[default_instance 20000]
instance (priority := 20000) corePow {α : Type} [NatPow α] : Pow α Nat := instPowNat

namespace Text

def isDigit (c : Char) : Bool := '0' ≤ c && c ≤ '9'

def digitValue (c : Char) : Nat := c.toNat - '0'.toNat

inductive NumeralFault where
  | invalidDigit
  | tooLarge
deriving DecidableEq, Repr

def NumeralFault.message : NumeralFault → String
  | .invalidDigit => "invalid digit found in string"
  | .tooLarge => "number too large to fit in target type"

/-- Digits that continue the number `acc`, all the way below `limit`. -/
def bounded (limit acc : Nat) : List Char → Except NumeralFault Nat
  | [] => .ok acc
  | c :: cs =>
    if isDigit c then
      let next := 10 * acc + digitValue c
      if next < limit then bounded limit next cs else .error .tooLarge
    else .error .invalidDigit

/-- One digit or more, a plus sign allowed in front. -/
def unsigned (limit : Nat) (cs : List Char) : Except NumeralFault Nat :=
  match cs with
  | [] | ['+'] => .error .invalidDigit
  | '+' :: ds => bounded limit 0 ds
  | ds => bounded limit 0 ds

def digits (n : Nat) : List Char := Nat.toDigits 10 n

def padded (width n : Nat) : List Char :=
  List.replicate (width - (digits n).length) '0' ++ digits n

def decimalText (n : Nat) : String := String.ofList (digits n)

def intText (i : Int) : String :=
  if i < 0 then "-" ++ decimalText i.natAbs else decimalText i.natAbs

theorem isDigit_of_mem_digits {n : Nat} {c : Char} (hc : c ∈ digits n) : isDigit c := by
  have h := Nat.isDigit_of_mem_toDigits (by decide) (by decide) hc
  simpa [Char.isDigit, isDigit, Char.le_def] using h

theorem ofDigitChars_digits (n : Nat) : Nat.ofDigitChars 10 (digits n) 0 = n :=
  Nat.ofDigitChars_toDigits (by decide) (by decide)

theorem le_ofDigitChars (cs : List Char) (acc : Nat) : acc ≤ Nat.ofDigitChars 10 cs acc := by
  induction cs generalizing acc with
  | nil => simp [Nat.ofDigitChars]
  | cons c cs ih =>
    have h := ih (10 * acc + (c.toNat - '0'.toNat))
    simp only [Nat.ofDigitChars, List.foldl_cons] at h ⊢
    omega

theorem bounded_eq_ok_iff {limit acc n : Nat} {cs : List Char} (hacc : acc < limit) :
    bounded limit acc cs = .ok n ↔
      (∀ c ∈ cs, isDigit c) ∧ Nat.ofDigitChars 10 cs acc = n ∧ n < limit := by
  induction cs generalizing acc with
  | nil =>
    simp only [bounded, Nat.ofDigitChars, List.foldl_nil, Except.ok.injEq]
    constructor
    · rintro rfl; exact ⟨by simp, rfl, hacc⟩
    · exact fun h => h.2.1
  | cons c cs ih =>
    have hstep : Nat.ofDigitChars 10 (c :: cs) acc =
        Nat.ofDigitChars 10 cs (10 * acc + digitValue c) := rfl
    by_cases hc : isDigit c
    · by_cases hn : 10 * acc + digitValue c < limit
      · simp [bounded, hc, hn, ih hn, hstep]
      · have hle := le_ofDigitChars cs (10 * acc + digitValue c)
        simp only [bounded, hc, hn, if_true, if_false, hstep, reduceCtorEq, false_iff]
        rintro ⟨-, rfl, hlt⟩
        omega
    · simp [bounded, hc]

end Text
end ClubBooking
