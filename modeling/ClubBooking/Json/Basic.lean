import ClubBooking.Binary64.Shortest
import ClubBooking.Decimal.Reader

/-! Documents in JSON notation. A tree keeps what the notation allows, numbers as they are written
and objects with their members in order; what a member means is for its reader to say. -/

namespace ClubBooking

structure JsonNumber where
  negative : Bool
  whole : List Char
  fraction : List Char
  exponent : Option (Bool × List Char)
deriving DecidableEq

inductive Json where
  | null
  | bool (b : Bool)
  | number (n : JsonNumber)
  /-- No text if a surrogate escape in it has no partner. -/
  | string (s : Option String)
  | array (items : List Json)
  | object (members : List (Option String × Json))

namespace JsonNumber

def ofInt (i : Int) : JsonNumber := ⟨i < 0, Text.digits i.natAbs, [], none⟩

/-- The value of a number without point and exponent that fits 64 bits; `-0` is no integer. -/
def integer? (n : JsonNumber) : Option Int :=
  if n.fraction ≠ [] ∨ n.exponent.isSome then none
  else
    let m := Nat.ofDigitChars 10 n.whole 0
    if n.negative then if 1 ≤ m ∧ m ≤ 2 ^ 63 then some (-(m : Int)) else none
    else if m < 2 ^ 64 then some m
    else none

/-- Digits taken into a coefficient of 64 bits; each digit from the first that does not fit on
counts as a place more. -/
def takeWhole (coeff : Nat) : List Char → Nat × Int
  | [] => (coeff, 0)
  | d :: ds =>
    let next := 10 * coeff + Text.digitValue d
    if next < 2 ^ 64 then takeWhole next ds else (coeff, (d :: ds).length)

def takeFraction (coeff : Nat) (power : Int) : List Char → Nat × Int
  | [] => (coeff, power)
  | d :: ds =>
    let next := 10 * coeff + Text.digitValue d
    if next < 2 ^ 64 then takeFraction next (power - 1) ds else (coeff, power)

def powerOfTen (k : Nat) : Binary64 := (Binary64.nearest (10 ^ k) 1).getD .zero

/-- A coefficient times a power of ten, each of the steps rounded to binary64; none if that is out
of range. -/
def scaled (coeff : Nat) (power : Int) : Option Binary64 := do
  let b ← Binary64.nearest coeff 1
  if coeff = 0 then pure .zero
  else if 308 < power then none
  else if 0 ≤ power then b.mul (powerOfTen power.toNat)
  else if -308 ≤ power then b.div (powerOfTen (-power).toNat)
  else if -616 ≤ power then (← b.div (powerOfTen 308)).div (powerOfTen (-(power + 308)).toNat)
  else pure .zero

def magnitude? (n : JsonNumber) : Option Binary64 :=
  let (coeff, shift) := takeWhole 0 n.whole
  let (coeff, power) := takeFraction coeff shift n.fraction
  match n.exponent with
  | none => scaled coeff power
  | some (down, ds) =>
    let e := Nat.ofDigitChars 10 ds 0
    scaled coeff (if down then power - e else power + e)

/-- The decimal that a number denotes: an integer of 64 bits is exact, any other number goes by its
shortest binary64 text. -/
def decimal? (n : JsonNumber) : Option Decimal :=
  match n.integer? with
  | some i => Decimal.make? i 0
  | none => do
    let b ← n.magnitude?
    (Decimal.readChars ((if n.negative then ['-'] else []) ++ b.shortest.chars)).toOption

end JsonNumber

namespace Json

def text (s : String) : Json := .string (some s)

def int (i : Int) : Json := .number (.ofInt i)

def record (members : List (String × Json)) : Json :=
  .object (members.map fun (k, v) => (some k, v))

def option {α : Type} (f : α → Json) : Option α → Json
  | some a => f a
  | none => .null

mutual

def depth : Json → Nat
  | .array items => 1 + depthList items
  | .object members => 1 + depthMembers members
  | _ => 0

def depthList : List Json → Nat
  | [] => 0
  | j :: js => max j.depth (depthList js)

def depthMembers : List (Option String × Json) → Nat
  | [] => 0
  | (_, j) :: ms => max j.depth (depthMembers ms)

end

mutual

/-- Every string in the tree is a text and every number is in range. -/
def isSound : Json → Bool
  | .number n => n.integer?.isSome || n.magnitude?.isSome
  | .string s => s.isSome
  | .array items => isSoundList items
  | .object members => isSoundMembers members
  | _ => true

def isSoundList : List Json → Bool
  | [] => true
  | j :: js => j.isSound && isSoundList js

def isSoundMembers : List (Option String × Json) → Bool
  | [] => true
  | (k, j) :: ms => k.isSome && j.isSound && isSoundMembers ms

end

/-- Whether a value that lies within so many arrays and objects can be kept and read later. -/
def canWait (outside : Nat) (j : Json) : Bool := j.isSound && outside + j.depth ≤ 127

end Json
end ClubBooking
