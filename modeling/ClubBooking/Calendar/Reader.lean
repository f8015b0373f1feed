import ClubBooking.Calendar.DateTime
import ClubBooking.Text.Characters

/-! Reading dates and times. Fields are one or more digits, blanks may stand before each field and
each separator and at the end, a signed year has any number of digits and an unsigned one up to
four. A time may leave out its seconds, an instant may not. -/

namespace ClubBooking
namespace Calendar
open Text

/-- A number of at most `width` digits, and what follows it. -/
def field (width : Nat) (cs : List Char) : Option (Nat × List Char) :=
  let ds := ((trimLeft cs).takeWhile isDigit).take width
  if ds = [] then none
  else some (Nat.ofDigitChars 10 ds 0, (trimLeft cs).drop ds.length)

def separator (c : Char) (cs : List Char) : Option (List Char) :=
  match trimLeft cs with
  | d :: ds => if d = c then some ds else none
  | [] => none

def atEnd (cs : List Char) : Option Unit := if trimLeft cs = [] then some () else none

def unlimited (cs : List Char) : Option (Nat × List Char) :=
  if (cs.takeWhile isDigit) = [] then none
  else some (Nat.ofDigitChars 10 (cs.takeWhile isDigit) 0, cs.dropWhile isDigit)

def year (cs : List Char) : Option (Int × List Char) :=
  match trimLeft cs with
  | '-' :: ds => (unlimited ds).map fun (n, rest) => (-(n : Int), rest)
  | '+' :: ds => (unlimited ds).map fun (n, rest) => ((n : Int), rest)
  | ds => (field 4 ds).map fun (n, rest) => ((n : Int), rest)

def datePart (cs : List Char) : Option (Date × List Char) := do
  let (year, cs) ← year cs
  let cs ← separator '-' cs
  let (month, cs) ← field 2 cs
  let cs ← separator '-' cs
  let (day, cs) ← field 2 cs
  let date ← Date.ofCivil? ⟨year, month, day⟩
  pure (date, cs)

/-- The nanoseconds that the digits behind a point denote; those past the ninth are dropped. -/
def fraction (cs : List Char) : Option (Nat × List Char) :=
  match cs with
  | '.' :: ds =>
    let places := (ds.takeWhile isDigit).take 9
    if places = [] then none
    else some (Nat.ofDigitChars 10 places 0 * 10 ^ (9 - places.length), ds.dropWhile isDigit)
  | _ => some (0, cs)

def hourMinute (cs : List Char) : Option ((Nat × Nat) × List Char) := do
  let (hour, cs) ← field 2 cs
  let cs ← separator ':' cs
  let (minute, cs) ← field 2 cs
  pure ((hour, minute), cs)

def secondPart (cs : List Char) : Option ((Nat × Nat) × List Char) := do
  let cs ← separator ':' cs
  let (second, cs) ← field 2 cs
  let (nano, cs) ← fraction cs
  pure ((second, nano), cs)

end Calendar

def Date.readChars (cs : List Char) : Option Date := do
  let (date, cs) ← Calendar.datePart cs
  Calendar.atEnd cs
  pure date

def TimeOfDay.readChars (cs : List Char) : Option TimeOfDay := do
  let ((hour, minute), cs) ← Calendar.hourMinute cs
  let ((second, nano), cs) := (Calendar.secondPart cs).getD ((0, 0), cs)
  Calendar.atEnd cs
  TimeOfDay.ofClock? hour minute second nano

def DateTime.readChars (cs : List Char) : Option DateTime := do
  let (date, cs) ← Calendar.datePart cs
  let cs ← Calendar.separator 'T' cs
  let ((hour, minute), cs) ← Calendar.hourMinute cs
  let ((second, nano), cs) ← Calendar.secondPart cs
  Calendar.atEnd cs
  let time ← TimeOfDay.ofClock? hour minute second nano
  pure ⟨date, time⟩

def Date.read (s : String) : Option Date := Date.readChars s.toList

def TimeOfDay.read (s : String) : Option TimeOfDay := TimeOfDay.readChars s.toList

def DateTime.read (s : String) : Option DateTime := DateTime.readChars s.toList

end ClubBooking
