import ClubBooking.Text.Characters
import ClubBooking.Text.Named

/-! Currencies and the number of places their amounts are rounded to. -/

namespace ClubBooking

inductive Currency where
  | krw | jpy | usd | eur
deriving DecidableEq, Repr

namespace Currency

def minorUnits : Currency → Nat
  | krw | jpy => 0
  | usd | eur => 2

def code : Currency → String
  | krw => "KRW"
  | jpy => "JPY"
  | usd => "USD"
  | eur => "EUR"

instance : Named Currency where
  noun := "currency"
  members := [krw, jpy, usd, eur]
  name := code
  mem_members a := by cases a <;> decide
  name_inj a b h := by cases a <;> cases b <;> simp [code] at h ⊢

def read (s : String) : Except UnknownName Currency :=
  let cs := Text.trimRight (Text.trimLeft s.toList)
  match Named.find? (String.ofList (Text.upper cs)) with
  | some c => .ok c
  | none => .error ⟨"currency", s⟩

end Currency
end ClubBooking
