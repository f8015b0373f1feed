import ClubBooking.Text.Numeral

/-! Decimal numbers: a sign and a magnitude below 2^96 over a power of ten up to 10^28. Scale and
sign are part of the number and of its text, which has a digit before the point at least (`0.10` is
not written `0.1`, and a zero may have a minus sign); order and `sameValue` look at the value
alone. -/

namespace ClubBooking

structure Decimal where
  negative : Bool
  magnitude : Nat
  scale : Nat
  magnitude_lt : magnitude < 2 ^ 96
  scale_le : scale ≤ 28
deriving DecidableEq

namespace Decimal

def coeffLimit : Nat := 2 ^ 96

def maxScale : Nat := 28

def coeff (a : Decimal) : Int := if a.negative then -a.magnitude else a.magnitude

/-- The decimal with a coefficient and a scale; zero gets no minus sign. -/
def make? (coeff : Int) (scale : Nat) : Option Decimal :=
  if h : coeff.natAbs < 2 ^ 96 ∧ scale ≤ 28 then
    some ⟨coeff < 0, coeff.natAbs, scale, h.1, h.2⟩
  else none

def ofUInt32 (n : UInt32) : Decimal :=
  ⟨false, n.toNat, 0, by have := n.toNat_lt; omega, by omega⟩

def ofUInt64 (n : UInt64) : Decimal :=
  ⟨false, n.toNat, 0, by have := n.toNat_lt; omega, by omega⟩

def zero : Decimal := ⟨false, 0, 0, by decide, by decide⟩

def one : Decimal := ⟨false, 1, 0, by decide, by decide⟩

def hundred : Decimal := ⟨false, 100, 0, by decide, by decide⟩

instance : Inhabited Decimal := ⟨zero⟩

def isZero (a : Decimal) : Bool := a.magnitude == 0

def aligned (a b : Decimal) : Int × Int := (a.coeff * 10 ^ b.scale, b.coeff * 10 ^ a.scale)

instance : LE Decimal := ⟨fun a b => (aligned a b).1 ≤ (aligned a b).2⟩
instance : LT Decimal := ⟨fun a b => (aligned a b).1 < (aligned a b).2⟩

instance (a b : Decimal) : Decidable (a ≤ b) :=
  inferInstanceAs (Decidable ((aligned a b).1 ≤ (aligned a b).2))

instance (a b : Decimal) : Decidable (a < b) :=
  inferInstanceAs (Decidable ((aligned a b).1 < (aligned a b).2))

def sameValue (a b : Decimal) : Bool := (aligned a b).1 == (aligned a b).2

def chars (a : Decimal) : List Char :=
  let ds := Text.padded (a.scale + 1) a.magnitude
  let whole := ds.take (ds.length - a.scale)
  let places := ds.drop (ds.length - a.scale)
  (if a.negative then ['-'] else []) ++ whole ++ (if a.scale = 0 then [] else '.' :: places)

def text (a : Decimal) : String := String.ofList a.chars

/-- The same value with up to `extra` more places, as many as leave the magnitude below 2^96. -/
def padBy (a : Decimal) : (extra : Nat) → Decimal
  | 0 => a
  | k + 1 =>
    if h : a.magnitude * 10 ^ (k + 1) < 2 ^ 96 ∧ a.scale + (k + 1) ≤ 28 then
      ⟨a.negative, a.magnitude * 10 ^ (k + 1), a.scale + (k + 1), h.1, h.2⟩
    else a.padBy k

variable {a b : Decimal}

theorem natAbs_coeff (a : Decimal) : a.coeff.natAbs = a.magnitude := by
  unfold coeff
  split <;> omega

theorem coeff_nonneg_iff : 0 ≤ a.coeff ↔ a.negative = false ∨ a.magnitude = 0 := by
  unfold coeff
  split
  · next h => simp only [h, Bool.true_eq_false, false_or]; omega
  · next h => simp [h]

theorem isZero_iff : a.isZero ↔ a.coeff = 0 := by
  rw [← Int.natAbs_eq_zero, natAbs_coeff]
  simp [isZero]

theorem le_iff : a ≤ b ↔ a.coeff * 10 ^ b.scale ≤ b.coeff * 10 ^ a.scale := Iff.rfl

theorem lt_iff : a < b ↔ a.coeff * 10 ^ b.scale < b.coeff * 10 ^ a.scale := Iff.rfl

theorem not_lt : ¬ a < b ↔ b ≤ a := by
  rw [lt_iff, le_iff, Int.not_lt]

theorem le_refl (a : Decimal) : a ≤ a := Int.le_refl _

theorem coeff_of_make? {c : Int} {s : Nat} (h : make? c s = some a) : a.coeff = c := by
  unfold make? at h
  split at h
  · cases h
    simp only [coeff, decide_eq_true_eq]
    split <;> omega
  · cases h

theorem scale_of_make? {c : Int} {s : Nat} (h : make? c s = some a) : a.scale = s := by
  unfold make? at h
  split at h
  · cases h; rfl
  · cases h

end Decimal
end ClubBooking
