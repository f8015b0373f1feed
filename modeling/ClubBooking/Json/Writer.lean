import ClubBooking.Json.Basic
import ClubBooking.Text.Hex

/-! The compact text of a document. In a string the quote, the backslash and the control characters
below the blank are escaped; all else stands for itself. -/

namespace ClubBooking.Json

def escapedUnit (n : Nat) : List Char := '\\' :: 'u' :: Text.hexPadded 4 n

def escaped (c : Char) : List Char :=
  match c with
  | '"' => ['\\', '"']
  | '\\' => ['\\', '\\']
  | '\n' => ['\\', 'n']
  | '\r' => ['\\', 'r']
  | '\t' => ['\\', 't']
  | '\x08' => ['\\', 'b']
  | '\x0c' => ['\\', 'f']
  | c =>
    if c.toNat < 0x20 then escapedUnit c.toNat else [c]

/-- A string in quotes; one that is no text is written as a lone surrogate. -/
def stringChars : Option String → List Char
  | some s => '"' :: s.toList.flatMap escaped ++ ['"']
  | none => '"' :: escapedUnit 0xD800 ++ ['"']

def numberChars (n : JsonNumber) : List Char :=
  (if n.negative then ['-'] else []) ++ n.whole ++
    (if n.fraction = [] then [] else '.' :: n.fraction) ++
    match n.exponent with
    | none => []
    | some (down, ds) => 'e' :: (if down then ['-'] else []) ++ ds

mutual

def chars : Json → List Char
  | .null => ['n', 'u', 'l', 'l']
  | .bool true => ['t', 'r', 'u', 'e']
  | .bool false => ['f', 'a', 'l', 's', 'e']
  | .number n => numberChars n
  | .string s => stringChars s
  | .array [] => ['[', ']']
  | .array (j :: js) => '[' :: chars j ++ itemChars js
  | .object [] => ['{', '}']
  | .object ((k, j) :: ms) => '{' :: stringChars k ++ ':' :: chars j ++ memberChars ms

def itemChars : List Json → List Char
  | [] => [']']
  | j :: js => ',' :: chars j ++ itemChars js

def memberChars : List (Option String × Json) → List Char
  | [] => ['}']
  | (k, j) :: ms => ',' :: stringChars k ++ ':' :: chars j ++ memberChars ms

end

def write (j : Json) : String := String.ofList (chars j)

end ClubBooking.Json
