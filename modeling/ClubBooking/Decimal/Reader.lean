import ClubBooking.Decimal.Rounding

/-! Reading a decimal from its text: an optional sign, digits with at most one point, underscores
after the first digit; then, behind `e` or `E`, a power of ten. Of the places beyond the 28th, or
beyond what fits below 2^96, the first decides the rounding; the others are checked and dropped. -/

namespace ClubBooking.Decimal

inductive ReadFault where
  | empty
  | noDigits
  | secondPoint
  | leadingSeparator
  | unknownCharacter
  | tooManyDigits
  | roundedTooFar
  | malformedExponent
  | exponentTooLarge (exponent : Nat)
  | valueTooLarge
deriving DecidableEq, Repr

def ReadFault.message : ReadFault → String
  | .empty => "Invalid decimal: empty"
  | .noDigits => "Invalid decimal: no digits found"
  | .secondPoint => "Invalid decimal: two decimal points"
  | .leadingSeparator => "Invalid decimal: must start lead with a number"
  | .unknownCharacter => "Invalid decimal: unknown character"
  | .tooManyDigits => "Invalid decimal: overflow from too many digits"
  | .roundedTooFar => "Invalid decimal: overflow from mantissa after rounding"
  | .malformedExponent => "Failed to parse"
  | .exponentTooLarge n =>
    "Scale exceeds the maximum precision allowed: " ++ Text.decimalText n ++ " > " ++
      Text.decimalText maxScale
  | .valueTooLarge => "Number exceeds maximum value that can be represented."

def ReadFault.ofChar : Char → ReadFault
  | '.' => .secondPoint
  | '_' => .leadingSeparator
  | _ => .unknownCharacter

/-- What follows a place that is not read: digits and underscores, up to the end. -/
def checkDropped : List Char → Except ReadFault Unit
  | [] => .ok ()
  | c :: cs => if Text.isDigit c || c = '_' then checkDropped cs else .error (.ofChar c)

def roundBy (digit magnitude scale : Nat) : Except ReadFault (Nat × Nat) :=
  if digit < 5 then .ok (magnitude, scale)
  else if magnitude + 1 < coeffLimit then .ok (magnitude + 1, scale)
  else if scale = 0 then .error .roundedTooFar
  else .ok ((magnitude + 5) / 10, scale - 1)

/-- Numbers from here on, 255 below a tenth of 2^64, count as long. -/
def longFrom : Nat := 2 ^ 64 / 10 - 255

/-- Whether an underscore behind the 28th place stands for the digit there, and rounds down. It does
unless the number was long before its last digit; then it is passed over like any other. -/
def separatorRounds (magnitude scale : Nat) : Bool :=
  maxScale ≤ scale && magnitude / 10 < longFrom

/-- The number read so far, whether its point and its first digit have come, and the rest. -/
def scan (magnitude scale : Nat) (point started : Bool) :
    List Char → Except ReadFault (Nat × Nat)
  | [] => if started then .ok (magnitude, scale) else .error .noDigits
  | c :: cs =>
    if Text.isDigit c then
      let next := 10 * magnitude + Text.digitValue c
      if next < coeffLimit ∧ scale < maxScale then
        scan next (if point then scale + 1 else scale) point true cs
      else if point then do
        let rounded ← roundBy (Text.digitValue c) magnitude scale
        checkDropped cs
        pure rounded
      else .error .tooManyDigits
    else if c = '.' && !point then scan magnitude scale true started cs
    else if c = '_' && started then
      if separatorRounds magnitude scale then do
        checkDropped cs
        pure (magnitude, scale)
      else scan magnitude scale point started cs
    else .error (.ofChar c)

def readChars (cs : List Char) : Except ReadFault Decimal := do
  let (sign, cs) ← match cs with
    | [] => .error .empty
    | '-' :: cs => .ok ((-1 : Int), cs)
    | '+' :: cs => .ok (1, cs)
    | cs => .ok (1, cs)
  let (magnitude, scale) ← scan 0 0 false false cs
  match make? (sign * magnitude) scale with
  | some a => .ok a
  | none => .error .tooManyDigits

def readExponent (cs : List Char) : Except ReadFault Nat :=
  (Text.unsigned (2 ^ 32) cs).mapError fun _ => .malformedExponent

def raise (a : Decimal) (n : Nat) : Except ReadFault Decimal :=
  if n ≤ a.scale then
    .ok ⟨a.negative, a.magnitude, a.scale - n, a.magnitude_lt, by
      have := a.scale_le
      omega⟩
  else if maxScale < n then .error (.exponentTooLarge n)
  else
    match make? (a.coeff * 10 ^ (n - a.scale)) 0 with
    | some b => .ok b
    | none => .error .valueTooLarge

def lower (a : Decimal) (n : Nat) : Except ReadFault Decimal :=
  if h : n ≤ maxScale then
    let b := a.roundTo (maxScale - n)
    .ok ⟨b.negative, b.magnitude, b.scale + n, b.magnitude_lt, by
      have hb : b.scale ≤ maxScale - n := scale_roundTo_le (maxScale - n) a
      unfold maxScale at h hb
      omega⟩
  else .error (.exponentTooLarge n)

def isMark (c : Char) : Bool := c == 'e' || c == 'E'

def read (s : String) : Except ReadFault Decimal :=
  let cs := s.toList
  match cs.dropWhile (!isMark ·) with
  | [] => readChars cs
  | _ :: '-' :: ds => do
    let a ← readChars (cs.takeWhile (!isMark ·))
    a.lower (← readExponent ds)
  | _ :: ds => do
    let a ← readChars (cs.takeWhile (!isMark ·))
    a.raise (← readExponent ds)

theorem read_eq_readChars {s : String} (h : ∀ c ∈ s.toList, isMark c = false) :
    read s = readChars s.toList := by
  have hdrop : (s.toList ++ []).dropWhile (!isMark ·) = [] :=
    List.dropWhile_append_of_pos fun c hc => by simp [h c hc]
  rw [List.append_nil] at hdrop
  simp [read, hdrop]

end ClubBooking.Decimal
