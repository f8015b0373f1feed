import ClubBooking.Calendar.Reader
import ClubBooking.Identifier
import ClubBooking.Json.Basic
import ClubBooking.Text.Named

/-! Reading values out of a tree. A record is an object whose known members come at most once, the
others being passed over, or an array of its fields in order. -/

namespace ClubBooking.Json
variable {α : Type}

def text? : Json → Option String
  | .string s => s
  | _ => none

def bool? : Json → Option Bool
  | .bool b => some b
  | _ => none

def int? : Json → Option Int
  | .number n => n.integer?
  | _ => none

def int32? (j : Json) : Option Int :=
  j.int?.filter fun i => -2147483648 ≤ i && i ≤ 2147483647

def uint32? (j : Json) : Option UInt32 :=
  j.int?.bind fun i =>
    if h : 0 ≤ i ∧ i < 4294967296 then
      some (.ofNatLT i.toNat (by simp only [UInt32.size]; omega))
    else none

def uint64? (j : Json) : Option UInt64 :=
  j.int?.bind fun i =>
    if h : 0 ≤ i ∧ i < 18446744073709551616 then
      some (.ofNatLT i.toNat (by simp only [UInt64.size]; omega))
    else none

def decimal? : Json → Option Decimal
  | .string (some s) => (Decimal.read s).toOption
  | .number n => n.decimal?
  | _ => none

/-- A bare name: a text, or an object with the name for its one key and no value. -/
def nameText? : Json → Option String
  | .string s => s
  | .object [(k, .null)] => k
  | _ => none

def name? [Named α] (j : Json) : Option α := j.nameText?.bind Named.find?

/-- A member of a vocabulary in a value that was kept: the one key may hold an empty object. -/
def keptName? [Named α] : Json → Option α
  | .object [(some s, .object [])] => Named.find? s
  | j => j.name?

def identifier? (j : Json) : Option Identifier := j.text?.bind Identifier.read

def date? (j : Json) : Option Date := j.text?.bind Date.read

def time? (j : Json) : Option TimeOfDay := j.text?.bind TimeOfDay.read

def dateTime? (j : Json) : Option DateTime := j.text?.bind DateTime.read

def weekday? (j : Json) : Option Weekday := j.text?.bind Weekday.read

def list? (f : Json → Option α) : Json → Option (List α)
  | .array js => js.mapM f
  | _ => none

/-- The member of a key that comes at most once; none of either is told apart. -/
def single? (key : String) (members : List (Option String × Json)) : Option (Option Json) :=
  match members.filter fun m => m.1 == some key with
  | [] => some none
  | [m] => some (some m.2)
  | _ => none

/-- The fields of a record by their names. In an array, only the fields after the first `required`
may be missing, from the end on. -/
def record? (names : List String) (required : Nat) : Json → Option (List (Option Json))
  | .object members =>
    if members.all (·.1.isSome) then names.mapM fun key => single? key members else none
  | .array items =>
    if required ≤ items.length ∧ items.length ≤ names.length then
      some (items.map some ++ List.replicate (names.length - items.length) none)
    else none
  | _ => none

def field? (f : Json → Option α) (j : Option Json) : Option α := j.bind f

def optional? (f : Json → Option α) : Option Json → Option (Option α)
  | none | some .null => some none
  | some j => (f j).map some

def fieldOr? (default : α) (f : Json → Option α) : Option Json → Option α
  | none => some default
  | some j => f j

end ClubBooking.Json
