import ClubBooking.Text.Hex

/-! Identifiers of 128 bits, written as 32 hexadecimal digits in groups of 8, 4, 4, 4 and 12. -/

namespace ClubBooking

structure Identifier where
  value : Nat
  value_lt : value < 2 ^ 128
deriving DecidableEq

namespace Identifier

instance : Inhabited Identifier := ⟨⟨0, by decide⟩⟩

def chars (i : Identifier) : List Char :=
  let ds := Text.hexPadded 32 i.value
  ds.take 8 ++ '-' :: (ds.drop 8).take 4 ++ '-' :: (ds.drop 12).take 4 ++
    '-' :: (ds.drop 16).take 4 ++ '-' :: ds.drop 20

def text (i : Identifier) : String := String.ofList i.chars

def ofDigits? (cs : List Char) : Option Identifier := do
  let n ← Text.hexNumber 0 cs
  if h : n < 2 ^ 128 then some ⟨n, h⟩ else none

def ungroup? (cs : List Char) : Option (List Char) :=
  if cs.length = 36 ∧ cs[8]? = some '-' ∧ cs[13]? = some '-' ∧ cs[18]? = some '-' ∧
      cs[23]? = some '-' then
    some (cs.take 8 ++ (cs.drop 9).take 4 ++ (cs.drop 14).take 4 ++ (cs.drop 19).take 4 ++
      cs.drop 24)
  else none

/-- Digits with or without hyphens; those with hyphens also in braces or behind `urn:uuid:`, which
may be written in capitals. -/
def read (s : String) : Option Identifier :=
  let cs := s.toList
  if cs.length = 32 then ofDigits? cs
  else if cs.length = 36 then ungroup? cs >>= ofDigits?
  else if cs.length = 38 ∧ cs.head? = some '{' ∧ cs.getLast? = some '}' then
    ungroup? (cs.drop 1).dropLast >>= ofDigits?
  else if cs.length = 45 ∧ (cs.take 9).map Char.toLower = "urn:uuid:".toList then
    ungroup? (cs.drop 9) >>= ofDigits?
  else none

end Identifier
end ClubBooking
