import ClubBooking.Discount.Coupon
import ClubBooking.Interval.TimeSlot
import ClubBooking.Json.Fields
import ClubBooking.Json.Writer

/-! Amounts, intervals and benefits in documents. What is read keeps the rules of its type: a
negative amount or a reversed interval is not read. -/

namespace ClubBooking

def Decimal.toJson (a : Decimal) : Json := .text a.text

def Identifier.toJson (i : Identifier) : Json := .text i.text

def Date.toJson (d : Date) : Json := .text d.text

def TimeOfDay.toJson (t : TimeOfDay) : Json := .text t.text

def DateTime.toJson (t : DateTime) : Json := .text (t.text "T")

def Weekday.toJson (w : Weekday) : Json := .text w.name

def Named.toJson {α : Type} [Named α] (a : α) : Json := .text (name a)

namespace Money

def toJson (m : Money) : Json :=
  .record [("amount", m.amount.toJson), ("currency", Named.toJson m.currency)]

def ofFields? (currency? : Json → Option Currency) (j : Json) : Option Money :=
  match j.record? ["amount", "currency"] 2 with
  | some [amount, currency] => do
    let amount ← Json.field? Json.decimal? amount
    let currency ← Json.field? currency? currency
    (ofDecimal amount currency).toOption
  | _ => none

def ofJson? (j : Json) : Option Money := ofFields? Json.name? j

end Money

namespace DateRange

def toJson (r : DateRange) : Json := .array [r.first.toJson, r.last.toJson]

def ofJson? : Json → Option DateRange
  | .array [first, last] => do (make (← first.date?) (← last.date?)).toOption
  | _ => none

end DateRange

namespace TimeSlot

def toJson (s : TimeSlot) : Json := .array [s.start.toJson, s.stop.toJson]

def ofJson? : Json → Option TimeSlot
  | .array [start, stop] => do (make (← start.dateTime?) (← stop.dateTime?)).toOption
  | _ => none

end TimeSlot

namespace Benefit

def toJson : Benefit → Json
  | rate r => .record [("type", .text "rate"), ("value", r.toJson)]
  | amount m => .record [("type", .text "amount"), ("value", m.toJson)]

/-- Rate and amount are told apart by the type that stands beside the value. -/
def ofValue? (type : String) (currency? : Json → Option Currency) (value : Json) :
    Option Benefit :=
  match type with
  | "rate" => value.decimal?.map .rate
  | "amount" => (Money.ofFields? currency? value).map .amount
  | _ => none

def firstKey? (keys : List String) (members : List (Option String × Json)) : Option String :=
  members.findSome? fun m => m.1.filter (keys.contains ·)

/-- In an object the value may come before its type, and is kept until then. -/
def ofJson? (j : Json) : Option Benefit :=
  match j, j.record? ["type", "value"] 2 with
  | .object members, some [some type, some value] => do
    let type ← type.nameText?
    if firstKey? ["type", "value"] members = some "type" then ofValue? type Json.name? value
    else if value.canWait 1 then ofValue? type Json.keptName? value
    else none
  | .array _, some [some type, some value] => do ofValue? (← type.text?) Json.name? value
  | _, _ => none

end Benefit
end ClubBooking
