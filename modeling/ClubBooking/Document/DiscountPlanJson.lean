import ClubBooking.Document.DiscountPlan
import ClubBooking.Json.Reader

/-! Discount plans in JSON. The kind of a rule stands in its field `type`; everything else in a
rule is looked at, so even members that are passed over must be texts and numbers in range, and
not lie too deep. -/

namespace ClubBooking

namespace RateRule

def ofJson? (j : Json) : Option RateRule :=
  match j.record? ["description", "rate", "minimum_purchase", "max_discount", "priority"] 5 with
  | some [description, rate, minimum, maximum, priority] => do
    pure {
      description := ← Json.field? Json.text? description
      rate := ← Json.field? Json.decimal? rate
      minimum := ← Json.optional? Json.decimal? minimum
      maximum := ← Json.optional? Json.decimal? maximum
      priority := ← Json.optional? Json.int32? priority }
  | _ => none

end RateRule

namespace AmountRule

def ofJson? (j : Json) : Option AmountRule :=
  match j.record? ["description", "amount", "minimum_purchase", "priority"] 4 with
  | some [description, amount, minimum, priority] => do
    pure {
      description := ← Json.field? Json.text? description
      amount := ← Json.field? Json.decimal? amount
      minimum := ← Json.optional? Json.decimal? minimum
      priority := ← Json.optional? Json.int32? priority }
  | _ => none

end AmountRule

namespace CouponRule

def ofJson? (j : Json) : Option CouponRule :=
  match j.record? ["code", "rate", "amount", "valid_from", "valid_until", "allowed_members",
      "minimum_purchase", "priority"] 8 with
  | some [code, rate, amount, validFrom, validUntil, members, minimum, priority] => do
    pure {
      code := ← Json.field? Json.text? code
      rate := ← Json.optional? Json.decimal? rate
      amount := ← Json.optional? Json.decimal? amount
      validFrom := ← Json.field? Json.date? validFrom
      validUntil := ← Json.field? Json.date? validUntil
      members := ← Json.fieldOr? [] (Json.list? Json.identifier?) members
      minimum := ← Json.optional? Json.decimal? minimum
      priority := ← Json.optional? Json.int32? priority }
  | _ => none

end CouponRule

namespace SeasonalRule

def entry? (j : Json) : Option (Season × Decimal) :=
  match j.record? ["period", "rate"] 2 with
  | some [period, rate] => do
    let period ← Json.field? Json.keptName? period
    let rate ← Json.field? Json.decimal? rate
    pure (period, rate)
  | _ => none

def ofJson? (j : Json) : Option SeasonalRule :=
  match j.record? ["rates", "priority"] 2 with
  | some [rates, priority] => do
    pure {
      rates := ← Json.field? (Json.list? entry?) rates
      priority := ← Json.optional? Json.int32? priority }
  | _ => none

end SeasonalRule

namespace DiscountRule

def membershipOfJson? (j : Json) : Option (Option Int) :=
  match j.record? ["priority"] 0 with
  | some [priority] => Json.optional? Json.int32? priority
  | _ => .none

def noneOfJson? : Json → Option Unit
  | .object _ => some ()
  | .array [] => some ()
  | _ => .none

def kind? : Json → Option (String × Json)
  | .object members => do
    let kind ← Json.field? Json.text? (← Json.single? "type" members)
    pure (kind, .object (members.filter fun m => m.1 != some "type"))
  | .array (kind :: fields) => do
    let kind ← kind.text?
    pure (kind, .array fields)
  | _ => .none

/-- A rule that lies within so many arrays and objects. -/
def ofJson? (outside : Nat) (j : Json) : Option DiscountRule :=
  if j.canWait outside then do
    let (kind, fields) ← kind? j
    match kind with
    | "rate" => (RateRule.ofJson? fields).map .rate
    | "amount" => (AmountRule.ofJson? fields).map .amount
    | "coupon" => (CouponRule.ofJson? fields).map .coupon
    | "seasonal" => (SeasonalRule.ofJson? fields).map .seasonal
    | "membership" => (membershipOfJson? fields).map .membership
    | "none" => (noneOfJson? fields).map fun _ => .none
    | _ => .none
  else .none

def decimalOrNull : Option Decimal → Json := Json.option Decimal.toJson

def intOrNull : Option Int → Json := Json.option Json.int

def toJson : DiscountRule → Json
  | rate r => .record [("type", .text "rate"), ("description", .text r.description),
      ("rate", r.rate.toJson), ("minimum_purchase", decimalOrNull r.minimum),
      ("max_discount", decimalOrNull r.maximum), ("priority", intOrNull r.priority)]
  | amount r => .record [("type", .text "amount"), ("description", .text r.description),
      ("amount", r.amount.toJson), ("minimum_purchase", decimalOrNull r.minimum),
      ("priority", intOrNull r.priority)]
  | coupon r => .record [("type", .text "coupon"), ("code", .text r.code),
      ("rate", decimalOrNull r.rate), ("amount", decimalOrNull r.amount),
      ("valid_from", r.validFrom.toJson), ("valid_until", r.validUntil.toJson),
      ("allowed_members", .array (r.members.map Identifier.toJson)),
      ("minimum_purchase", decimalOrNull r.minimum), ("priority", intOrNull r.priority)]
  | seasonal r => .record [("type", .text "seasonal"),
      ("rates", .array (r.rates.map fun e =>
        .record [("period", Named.toJson e.1), ("rate", e.2.toJson)])),
      ("priority", intOrNull r.priority)]
  | membership priority => .record [("type", .text "membership"), ("priority", intOrNull priority)]
  | none => .record [("type", .text "none")]

end DiscountRule

namespace DiscountPlan

def ofJson? (j : Json) : Option DiscountPlan :=
  match j.record? ["description", "strategy", "currency", "max_total_discount", "minimum_price",
      "rules"] 6 with
  | some [description, strategy, currency, cap, floor, rules] => do
    pure {
      description := ← Json.field? Json.text? description
      strategy := ← Json.fieldOr? .bestSingle Json.name? strategy
      currency := ← Json.field? Json.name? currency
      cap := ← Json.optional? Json.decimal? cap
      floor := ← Json.optional? Json.decimal? floor
      rules := ← Json.field? (Json.list? (DiscountRule.ofJson? 2)) rules }
  | _ => none

def toJson (p : DiscountPlan) : Json :=
  .record [("description", .text p.description), ("strategy", Named.toJson p.strategy),
    ("currency", Named.toJson p.currency), ("max_total_discount", DiscountRule.decimalOrNull p.cap),
    ("minimum_price", DiscountRule.decimalOrNull p.floor),
    ("rules", .array (p.rules.map DiscountRule.toJson))]

def read (s : String) : Except Fault DiscountPlan :=
  match Json.read s >>= ofJson? with
  | some p => do
    p.check
    pure p
  | none => .error .unreadable

end DiscountPlan
end ClubBooking
