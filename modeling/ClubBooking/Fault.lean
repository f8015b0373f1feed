import ClubBooking.Calendar.DateTime
import ClubBooking.Decimal.Reader
import ClubBooking.Eligibility.Level
import ClubBooking.Identifier
import ClubBooking.Money.Basic
import ClubBooking.Text.Quoted

/-! Why an operation refuses its input: one constructor for each cause, and one wording. -/

namespace ClubBooking

inductive Complaint where
  | text (message : String)
  | rateOutOfRange (rate : Decimal)
  | amountNotPositive (amount : Decimal)
  | timeFormat (time : String)
deriving DecidableEq

structure FieldProblem where
  field : String
  complaint : Complaint
deriving DecidableEq

inductive Invalidity where
  | notEnrolled (member plan : Identifier)
  | emptyParty
  | noReservationsAllowed
  | noCapacity
  | noOpenDay
  | couponCode (code : String)
  | document (problems : List FieldProblem)
deriving DecidableEq

inductive AmountFault where
  | negative (amount : Decimal)
  | negativeDifference (minuend subtrahend : Money)
  | negativeFactor (factor : Decimal)
  | negativeDivisor (divisor : Decimal)
  | zeroDiscount
  | zeroCoupon
deriving DecidableEq

/-- The ends of an interval that is empty or cannot be represented. -/
inductive Reversal where
  | dates (start stop : Date)
  | times (start stop : TimeOfDay)
  | instants (start stop : DateTime)
  | unreachable (start : DateTime) (minutes : Int)
deriving DecidableEq

inductive SettingFault where
  | name (cause : UnknownName)
  | amount (cause : Decimal.ReadFault)
  | number (cause : Text.NumeralFault)
deriving DecidableEq

inductive Misconfiguration where
  | timeFormat (time : String)
  | hour (time : String)
  | minute (time : String)
  | hourRange (time : String)
  | minuteRange (time : String)
  | businessHour (hour : UInt32)
  | couponBenefit (code : String)
  | levelWithoutRules (level : Level)
  | customWithoutRules (policy : String)
  | setting (key raw : String) (cause : SettingFault)
deriving DecidableEq

inductive Entity where
  | plan | member | resource | reservation
deriving DecidableEq

inductive Operation where
  | addition | subtraction | multiplication | division
deriving DecidableEq

inductive Fault where
  | invalid (cause : Invalidity)
  | blankField (field : String)
  | rateOutOfRange (rate : Decimal)
  | invalidAmount (cause : AmountFault)
  | currencyMismatch (left right : Currency)
  | reversed (interval : Reversal)
  | emptyList (what : String)
  | divisionByZero
  | misconfigured (cause : Misconfiguration)
  | notFound (entity : Entity) (id : Identifier)
  | unreadable
  | overflow (operation : Operation)
deriving DecidableEq

def Complaint.message : Complaint → String
  | text m => m
  | rateOutOfRange r => coded "rate_out_of_range" r.text
  | amountNotPositive a => coded "amount_must_be_positive" a.text
  | timeFormat t => coded "invalid_time_format" t
where
  coded (code value : String) : String :=
    "Validation error: " ++ code ++ " [\x7b\"value\": String(" ++ Text.quoted value ++ ")\x7d]"

def FieldProblem.message (p : FieldProblem) : String := p.field ++ ": " ++ p.complaint.message

def Invalidity.message : Invalidity → String
  | notEnrolled m p => "member " ++ m.text ++ " is not enrolled in plan " ++ p.text
  | emptyParty => "party size must be at least 1"
  | noReservationsAllowed => "max_simultaneous_reservations must be at least 1"
  | noCapacity => "resource capacity must be at least 1"
  | noOpenDay => "operating hours need at least one open day"
  | couponCode c =>
    "Invalid coupon code '" ++ c ++ "': expected 3-32 letters, digits, '-' or '_'"
  | document ps => "\n".intercalate (ps.map FieldProblem.message)

def AmountFault.message : AmountFault → String
  | negative a => "money amount must not be negative, got " ++ a.text
  | negativeDifference a b =>
    "subtracting " ++ b.text ++ " from " ++ a.text ++ " would be negative"
  | negativeFactor f => "multiplication factor must not be negative, got " ++ f.text
  | negativeDivisor d => "divisor must be positive, got " ++ d.text
  | zeroDiscount => "discount amount must be positive"
  | zeroCoupon => "coupon amount must be positive"

def Reversal.message : Reversal → String
  | dates a b => between a.text b.text
  | times a b => between a.text b.text
  | instants a b => between (a.text " ") (b.text " ")
  | unreachable a n => between (a.text " ") (Text.intText n ++ " minutes later")
where
  between (start stop : String) : String := "start " ++ start ++ " is after end " ++ stop

def SettingFault.message : SettingFault → String
  | name u => u.message
  | amount f => f.message
  | number f => f.message

def Misconfiguration.message : Misconfiguration → String
  | timeFormat t => "Invalid time format '" ++ t ++ "': expected HH:MM"
  | hour t => "Invalid hour in time '" ++ t ++ "'"
  | minute t => "Invalid minute in time '" ++ t ++ "'"
  | hourRange t => "Hour must be 0-23 in time '" ++ t ++ "'"
  | minuteRange t => "Minute must be 0-59 in time '" ++ t ++ "'"
  | businessHour h => "Invalid business hour: " ++ Text.decimalText h.toNat
  | couponBenefit c => "Coupon '" ++ c ++ "' needs exactly one of rate or amount"
  | levelWithoutRules l => "Policy level '" ++ l.name ++ "' requires explicit rules"
  | customWithoutRules p => "Policy '" ++ p ++ "' uses the custom level but lists no rules"
  | setting key raw cause => key ++ "='" ++ raw ++ "': " ++ cause.message

def Entity.name : Entity → String
  | plan => "membership plan"
  | member => "member"
  | resource => "resource"
  | reservation => "reservation"

def Operation.name : Operation → String
  | addition => "Addition"
  | subtraction => "Subtraction"
  | multiplication => "Multiplication"
  | division => "Division"

def Fault.message : Fault → String
  | invalid c => "Validation failed: " ++ c.message
  | blankField f => "Field '" ++ f ++ "' must not be blank"
  | rateOutOfRange r => "Rate " ++ r.text ++ " is outside the range [0, 1]"
  | invalidAmount c => "Invalid amount: " ++ c.message
  | currencyMismatch l r => "Currency mismatch: " ++ l.code ++ " vs " ++ r.code
  | reversed i => "Invalid interval: " ++ i.message
  | emptyList w => "Policy list must not be empty: " ++ w
  | divisionByZero => "Division by zero"
  | misconfigured c => "Invalid configuration: " ++ c.message
  | notFound e i => e.name ++ " not found: " ++ i.text
  | unreadable => "The document cannot be read"
  | overflow o => o.name ++ " overflowed"

end ClubBooking
