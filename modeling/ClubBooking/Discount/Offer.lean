import ClubBooking.Money.Arith
import ClubBooking.Text.Named

/-! Offers, and the strategies that combine them. An offer is what a discount comes to for one
purchase: whether it applies, and the price it makes of a price. -/

namespace ClubBooking

inductive DiscountKind where
  | rate | amount | other
deriving DecidableEq, Repr

inductive Strategy where
  /-- Each offer in turn, on the price that the ones before it leave. -/
  | sequential
  /-- The offer with the largest discount. -/
  | bestSingle
  /-- The offer of the least priority number. -/
  | priorityFirst
  /-- Offers of other kinds in turn, then the best rate or the best amount. -/
  | smart
deriving DecidableEq, Repr

namespace Strategy

def name : Strategy → String
  | sequential => "sequential"
  | bestSingle => "best_single"
  | priorityFirst => "priority_first"
  | smart => "smart"

instance : Named Strategy where
  noun := "combination strategy"
  members := [sequential, bestSingle, priorityFirst, smart]
  name := name
  mem_members a := by cases a <;> decide
  name_inj a b h := by cases a <;> cases b <;> simp [name] at h ⊢

end Strategy

structure Label where
  description : String
  /-- Lesser numbers come first. -/
  priority : Int
  kind : DiscountKind
deriving DecidableEq

structure Offer extends Label where
  applies : Bool
  apply : Money → Except Fault Money

structure Applied where
  description : String
  amount : Money
deriving DecidableEq

structure Outcome where
  price : Money
  applied : List Applied
deriving DecidableEq

structure Trial where
  offer : Offer
  price : Money
  discount : Money

namespace Offer

/-- An offer never raises a price. -/
def attempt (o : Offer) (price : Money) : Except Fault Trial := do
  let result ← (← o.apply price).min price
  let discount ← price.saturatingSub result
  pure ⟨o, result, discount⟩

end Offer

namespace Trial

def applied (t : Trial) : Applied := ⟨t.offer.description, t.discount⟩

/-- The first trial that takes off most, if any takes off anything. -/
def better : Option Trial → Trial → Option Trial
  | some best, t => if best.discount.amount < t.discount.amount then some t else some best
  | none, t => if t.discount.isZero then none else some t

/-- The better of the best rate and the best amount, the rate if they are equal. -/
def rateOrAmount : Option Trial → Option Trial → Option Trial
  | some rate, some amount =>
    if amount.discount.amount ≤ rate.discount.amount then some rate else some amount
  | some rate, none => some rate
  | none, amount => amount

end Trial

namespace Strategy

def inTurn (price : Money) : List Offer → Except Fault Outcome
  | [] => .ok ⟨price, []⟩
  | o :: os => do
    let t ← o.attempt price
    let rest ← inTurn t.price os
    pure ⟨rest.price, if t.discount.isZero then rest.applied else t.applied :: rest.applied⟩

def bestFrom (price : Money) (best : Option Trial) : List Offer → Except Fault (Option Trial)
  | [] => .ok best
  | o :: os => do
    let t ← o.attempt price
    bestFrom price (Trial.better best t) os

def best (price : Money) (os : List Offer) : Except Fault (Option Trial) := bestFrom price none os

def ofTrial (price : Money) : Option Trial → Outcome
  | some t => ⟨t.price, [t.applied]⟩
  | none => ⟨price, []⟩

/-- The first offer of the least priority number. -/
def mostUrgent : List Offer → Option Offer
  | [] => none
  | o :: os =>
    match mostUrgent os with
    | some p => if p.priority < o.priority then some p else some o
    | none => some o

def ofKind (k : DiscountKind) (os : List Offer) : List Offer := os.filter (·.kind == k)

def run (price : Money) (os : List Offer) : Strategy → Except Fault Outcome
  | sequential => inTurn price os
  | bestSingle => do
    let t ← best price os
    pure (ofTrial price t)
  | priorityFirst => inTurn price (mostUrgent os).toList
  | smart => do
    let others ← inTurn price (ofKind .other os)
    let rate ← best others.price (ofKind .rate os)
    let amount ← best others.price (ofKind .amount os)
    let last := ofTrial others.price (Trial.rateOrAmount rate amount)
    pure ⟨last.price, others.applied ++ last.applied⟩

end Strategy
end ClubBooking
