import ClubBooking.Binary64.Basic

/-! Counts of what the engine has done, in 64 bits, and the timers of its work. A timer counts what
it times once: when it is completed, or else when it is dropped. -/

namespace ClubBooking

structure Metrics where
  checks : UInt64
  denied : UInt64
  pricings : UInt64
  committed : UInt64
deriving DecidableEq

namespace Metrics

def zero : Metrics := ⟨0, 0, 0, 0⟩

def countCheck (m : Metrics) : Metrics := { m with checks := m.checks + 1 }

def countDenied (m : Metrics) : Metrics := { m with denied := m.denied + 1 }

def countPricing (m : Metrics) : Metrics := { m with pricings := m.pricings + 1 }

def countCommitted (m : Metrics) : Metrics := { m with committed := m.committed + 1 }

/-- The share of checks that were denied, zero before the first check. Both counts are rounded to 53
bits before they are divided. -/
def denialRate (m : Metrics) : Binary64 :=
  let rate := do
    let denied ← Binary64.nearest m.denied.toNat 1
    let checks ← Binary64.nearest m.checks.toNat 1
    denied.div checks
  if m.checks = 0 then .zero else rate.getD .zero

end Metrics

inductive Work where
  | check | pricing
deriving DecidableEq

structure Timer where
  work : Work
  recorded : Bool
deriving DecidableEq

namespace Timer

def start (w : Work) : Timer := ⟨w, false⟩

def record (t : Timer) (m : Metrics) : Timer × Metrics :=
  if t.recorded then (t, m)
  else
    ({ t with recorded := true },
      match t.work with
      | .check => m.countCheck
      | .pricing => m.countPricing)

def drop (t : Timer) (m : Metrics) : Metrics := (t.record m).2

def complete (t : Timer) (m : Metrics) : Metrics :=
  let (t, m) := t.record m
  t.drop m

theorem drop_check (m : Metrics) : (start .check).drop m = m.countCheck := rfl

theorem drop_pricing (m : Metrics) : (start .pricing).drop m = m.countPricing := rfl

theorem complete_eq_drop (t : Timer) (m : Metrics) : t.complete m = t.drop m := by
  cases h : t.recorded <;> simp [complete, drop, record, h]

end Timer
end ClubBooking
