import ClubBooking.Discount.Purchase
import ClubBooking.Money.Arith

/-! Coupons: a code, what it takes off, when and for whom it holds. -/

namespace ClubBooking

/-- Three to 32 capital letters, digits, hyphens and underscores; the first is a letter or digit. -/
structure CouponCode where
  chars : List Char
  three_le : 3 ≤ chars.length
  le_32 : chars.length ≤ 32
  all_marks : ∀ c ∈ chars, c.isUpper ∨ c.isDigit ∨ c = '-' ∨ c = '_'
  head_alphanum : ∀ c ∈ chars.head?, c.isUpper ∨ c.isDigit
deriving DecidableEq

namespace CouponCode

def ofChars? (cs : List Char) : Option CouponCode :=
  if h : 3 ≤ cs.length ∧ cs.length ≤ 32 ∧
      cs.all (fun c => c.isUpper || c.isDigit || c == '-' || c == '_') ∧
      cs.head?.all (fun c => c.isUpper || c.isDigit) then
    some ⟨cs, h.1, h.2.1, by simpa [or_assoc] using h.2.2.1,
      by simpa [Option.all_eq_true] using h.2.2.2⟩
  else none

/-- The code that a text stands for: blanks around it and the case of letters do not count. -/
def read (s : String) : Except Fault CouponCode :=
  match ofChars? (Text.upper (Text.trimRight (Text.trimLeft s.toList))) with
  | some code => .ok code
  | none => .error (.invalid (.couponCode s))

def text (c : CouponCode) : String := String.ofList c.chars

end CouponCode

inductive Benefit where
  | rate (r : Decimal)
  | amount (m : Money)
deriving DecidableEq

namespace Benefit

def IsValid : Benefit → Prop
  | rate r => r.IsRate
  | amount m => m.isZero = false

instance (b : Benefit) : Decidable b.IsValid := by
  cases b <;> unfold IsValid <;> infer_instance

def check : Benefit → Except Fault Unit
  | rate r => r.checkRate
  | amount m => if m.isZero then .error (.invalidAmount .zeroCoupon) else .ok ()

theorem check_eq_ok_iff (b : Benefit) : b.check = .ok () ↔ b.IsValid := by
  cases b with
  | rate r => simp [check, Decimal.checkRate, IsValid]
  | amount m => simp [check, IsValid]

end Benefit

structure Coupon where
  code : CouponCode
  benefit : Benefit
  validity : DateRange
  /-- None listed: the coupon is for everybody. -/
  members : List Identifier
  minimum : Option Money
  priority : Int
  benefit_ok : benefit.IsValid

namespace Coupon

def make (code : String) (benefit : Benefit) (validity : DateRange) : Except Fault Coupon :=
  match h : benefit.check with
  | .error e => .error e
  | .ok () => do
    let code ← CouponCode.read code
    pure ⟨code, benefit, validity, [], none, 10, benefit.check_eq_ok_iff.1 h⟩

def isPresented (c : Coupon) (p : Purchase) : Bool :=
  p.coupon.any fun presented => Text.sameLetters presented c.code.text

def admits (c : Coupon) (m : Member) : Bool := c.members.isEmpty || c.members.contains m.id

def isApplicable (c : Coupon) (p : Purchase) : Bool :=
  c.isPresented p && c.validity.contains p.date && c.admits p.member

def description (c : Coupon) : String :=
  "Coupon " ++ c.code.text ++ " (" ++
    (match c.benefit with
    | .rate r => (r.percent.getD r).text ++ "%"
    | .amount m => m.text) ++ " off)"

end Coupon
end ClubBooking
