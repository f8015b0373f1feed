import ClubBooking.Json.Basic
import ClubBooking.Text.Hex

/-! The tokens of JSON notation, and cutting a text into them. -/

namespace ClubBooking.Json

inductive Token where
  | leftBrace | rightBrace | leftBracket | rightBracket | comma | colon
  | null
  | bool (b : Bool)
  | number (n : JsonNumber)
  | string (s : Option String)
deriving DecidableEq

/-- A character of a string, or the number behind `\u`. -/
inductive Piece where
  | char (c : Char)
  | unit (n : Nat)
deriving DecidableEq

namespace Piece

def isHigh (n : Nat) : Bool := 0xD800 ≤ n && n < 0xDC00

def isLow (n : Nat) : Bool := 0xDC00 ≤ n && n < 0xE000

/-- The characters of a string, its surrogates taken in pairs. -/
def join : List Piece → Option (List Char)
  | [] => some []
  | .char c :: ps => (join ps).map (c :: ·)
  | .unit n :: ps =>
    if isHigh n then
      match ps with
      | .unit m :: ps =>
        if isLow m then
          (join ps).map (Char.ofNat (0x10000 + (n - 0xD800) * 0x400 + (m - 0xDC00)) :: ·)
        else none
      | _ => none
    else if isLow n then none
    else (join ps).map (Char.ofNat n :: ·)

end Piece

def isSpace (c : Char) : Bool := c == ' ' || c == '\t' || c == '\n' || c == '\r'

def escape? : Char → Option Char
  | '"' => some '"'
  | '\\' => some '\\'
  | '/' => some '/'
  | 'b' => some '\x08'
  | 'f' => some '\x0c'
  | 'n' => some '\n'
  | 'r' => some '\r'
  | 't' => some '\t'
  | _ => none

def pieces : List Char → Option (List Piece × List Char)
  | [] => none
  | '"' :: cs => some ([], cs)
  | '\\' :: 'u' :: a :: b :: c :: d :: cs => do
    let n ← Text.hexNumber 0 [a, b, c, d]
    let (ps, rest) ← pieces cs
    pure (.unit n :: ps, rest)
  | '\\' :: e :: cs => do
    let c ← escape? e
    let (ps, rest) ← pieces cs
    pure (.char c :: ps, rest)
  | c :: cs =>
    if c = '\\' ∨ c.toNat < 0x20 then none
    else do
      let (ps, rest) ← pieces cs
      pure (.char c :: ps, rest)

def digitRun (cs : List Char) : List Char × List Char :=
  (cs.takeWhile Text.isDigit, cs.dropWhile Text.isDigit)

def wholePart? (cs : List Char) : Option (List Char × List Char) :=
  match digitRun cs with
  | ([], _) => none
  | ('0' :: _ :: _, _) => none
  | run => some run

def fractionPart? : List Char → Option (List Char × List Char)
  | '.' :: cs =>
    match digitRun cs with
    | ([], _) => none
    | run => some run
  | cs => some ([], cs)

def exponentDigits? (down : Bool) (cs : List Char) :
    Option (Option (Bool × List Char) × List Char) :=
  match digitRun cs with
  | ([], _) => none
  | (ds, rest) => some (some (down, ds), rest)

def exponentPart? : List Char → Option (Option (Bool × List Char) × List Char)
  | c :: cs =>
    if c = 'e' ∨ c = 'E' then
      match cs with
      | '+' :: ds => exponentDigits? false ds
      | '-' :: ds => exponentDigits? true ds
      | ds => exponentDigits? false ds
    else some (none, c :: cs)
  | [] => some (none, [])

def number? (cs : List Char) : Option (JsonNumber × List Char) := do
  let (negative, cs) := match cs with
    | '-' :: ds => (true, ds)
    | ds => (false, ds)
  let (whole, cs) ← wholePart? cs
  let (fraction, cs) ← fractionPart? cs
  let (exponent, cs) ← exponentPart? cs
  pure (⟨negative, whole, fraction, exponent⟩, cs)

/-- The token at the front of a text that is not empty and does not start with a space. -/
def token? : List Char → Option (Token × List Char)
  | '{' :: cs => some (.leftBrace, cs)
  | '}' :: cs => some (.rightBrace, cs)
  | '[' :: cs => some (.leftBracket, cs)
  | ']' :: cs => some (.rightBracket, cs)
  | ',' :: cs => some (.comma, cs)
  | ':' :: cs => some (.colon, cs)
  | '"' :: cs => do
    let (ps, rest) ← pieces cs
    pure (.string ((Piece.join ps).map String.ofList), rest)
  | 'n' :: 'u' :: 'l' :: 'l' :: cs => some (.null, cs)
  | 't' :: 'r' :: 'u' :: 'e' :: cs => some (.bool true, cs)
  | 'f' :: 'a' :: 'l' :: 's' :: 'e' :: cs => some (.bool false, cs)
  | cs => (number? cs).map fun (n, rest) => (.number n, rest)

def tokensWithin : (fuel : Nat) → List Char → Option (List Token)
  | _, [] => some []
  | 0, _ :: _ => none
  | fuel + 1, c :: cs =>
    if isSpace c then tokensWithin fuel cs
    else do
      let (t, rest) ← token? (c :: cs)
      let ts ← tokensWithin fuel rest
      pure (t :: ts)

def tokens (cs : List Char) : Option (List Token) := tokensWithin cs.length cs

end ClubBooking.Json
